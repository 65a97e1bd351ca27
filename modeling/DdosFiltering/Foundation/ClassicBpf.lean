import Mathlib.Data.Nat.Digits.Defs

/-!
# Classic packet filters

The machine of the BSD packet filter has an accumulator, an index register and 16 words of memory,
and runs a program over one packet. It reads words of the packet with the first byte as the
most significant one, and a read behind the end of the packet ends the program with 0. Jumps go
forward only, so a run is a recursion on the program (`exec`).

`exec_lookFor` is what a chain of loads and comparisons returns that looks for literal bytes at
offsets from the index register: whether all of them are there.
-/

set_option autoImplicit false

namespace DdosFiltering.Foundation.ClassicBpf

/-! ## Reading a packet -/

/-- `BPF_W`, `BPF_H` and `BPF_B`. -/
inductive Size where
  | word
  | half
  | byte
deriving DecidableEq, Repr

def Size.bytes : Size → ℕ
  | .word => 4
  | .half => 2
  | .byte => 1

/-- The number that some bytes denote, with the most significant byte first. -/
def bigEndian (bytes : List UInt8) : ℕ := Nat.ofDigits 256 (bytes.map UInt8.toNat).reverse

/-- The bytes of a packet at an offset, if they all lie in the packet. -/
def load (size : Size) (packet : List UInt8) (offset : ℕ) : Option UInt32 :=
  if offset + size.bytes ≤ packet.length then
    some (UInt32.ofNat (bigEndian ((packet.drop offset).take size.bytes)))
  else
    none

/-! ## Programs -/

/-- `BPF_K` and `BPF_X`. -/
inductive Operand where
  | constant (k : UInt32)
  | x
deriving DecidableEq, Repr

inductive AluOp where
  | add
  | sub
  | mul
  | div
  | or
  | and
  | lsh
  | rsh
deriving DecidableEq, Repr

inductive Condition where
  | jeq
  | jgt
  | jge
  | jset
deriving DecidableEq, Repr

/-- The instructions. A jump says how many instructions it leaves out, and an instruction that
reads or writes the memory has the number of a word. -/
inductive Instr where
  | ldAbs (size : Size) (k : UInt32)
  | ldInd (size : Size) (k : UInt32)
  | ldLen
  | ldImm (k : UInt32)
  | ldMem (word : Fin 16)
  | ldxLen
  | ldxImm (k : UInt32)
  | ldxMem (word : Fin 16)
  | ldxMsh (k : UInt32)
  | st (word : Fin 16)
  | stx (word : Fin 16)
  | alu (op : AluOp) (operand : Operand)
  | neg
  | ja (skip : ℕ)
  | jump (condition : Condition) (operand : Operand) (jt jf : ℕ)
  | retK (k : UInt32)
  | retA
  | tax
  | txa
deriving DecidableEq, Repr

/-- An instruction with the number of a word of the memory. -/
def onWord (instr : Fin 16 → Instr) (k : UInt32) : Option Instr :=
  if inside : k.toNat < 16 then some (instr ⟨k.toNat, inside⟩) else none

/-- The instruction that is encoded by these four numbers. -/
def decode (code : UInt16) (jt jf : UInt8) (k : UInt32) : Option Instr :=
  match code.toNat with
  | 0x00 => some (.ldImm k)
  | 0x20 => some (.ldAbs .word k)
  | 0x28 => some (.ldAbs .half k)
  | 0x30 => some (.ldAbs .byte k)
  | 0x40 => some (.ldInd .word k)
  | 0x48 => some (.ldInd .half k)
  | 0x50 => some (.ldInd .byte k)
  | 0x60 => onWord .ldMem k
  | 0x80 => some .ldLen
  | 0x01 => some (.ldxImm k)
  | 0x61 => onWord .ldxMem k
  | 0x81 => some .ldxLen
  | 0xb1 => some (.ldxMsh k)
  | 0x02 => onWord .st k
  | 0x03 => onWord .stx k
  | 0x04 => some (.alu .add (.constant k))
  | 0x0c => some (.alu .add .x)
  | 0x14 => some (.alu .sub (.constant k))
  | 0x1c => some (.alu .sub .x)
  | 0x24 => some (.alu .mul (.constant k))
  | 0x2c => some (.alu .mul .x)
  | 0x34 => some (.alu .div (.constant k))
  | 0x3c => some (.alu .div .x)
  | 0x44 => some (.alu .or (.constant k))
  | 0x4c => some (.alu .or .x)
  | 0x54 => some (.alu .and (.constant k))
  | 0x5c => some (.alu .and .x)
  | 0x64 => some (.alu .lsh (.constant k))
  | 0x6c => some (.alu .lsh .x)
  | 0x74 => some (.alu .rsh (.constant k))
  | 0x7c => some (.alu .rsh .x)
  | 0x84 => some .neg
  | 0x05 => some (.ja k.toNat)
  | 0x15 => some (.jump .jeq (.constant k) jt.toNat jf.toNat)
  | 0x1d => some (.jump .jeq .x jt.toNat jf.toNat)
  | 0x25 => some (.jump .jgt (.constant k) jt.toNat jf.toNat)
  | 0x2d => some (.jump .jgt .x jt.toNat jf.toNat)
  | 0x35 => some (.jump .jge (.constant k) jt.toNat jf.toNat)
  | 0x3d => some (.jump .jge .x jt.toNat jf.toNat)
  | 0x45 => some (.jump .jset (.constant k) jt.toNat jf.toNat)
  | 0x4d => some (.jump .jset .x jt.toNat jf.toNat)
  | 0x06 => some (.retK k)
  | 0x16 => some .retA
  | 0x07 => some .tax
  | 0x87 => some .txa
  | _ => none

/-! ## Runs -/

/-- The registers and the memory. -/
structure Machine where
  a : UInt32
  x : UInt32
  mem : Fin 16 → UInt32

def Machine.initial : Machine := ⟨0, 0, fun _ => 0⟩

def Operand.value (m : Machine) : Operand → UInt32
  | .constant k => k
  | .x => m.x

/-- The result of an operation; there is none of a division by 0. A shift by 32 or more leaves
nothing. -/
def AluOp.apply (a b : UInt32) : AluOp → Option UInt32
  | .add => some (a + b)
  | .sub => some (a - b)
  | .mul => some (a * b)
  | .div => if b = 0 then none else some (a / b)
  | .or => some (a ||| b)
  | .and => some (a &&& b)
  | .lsh => some (UInt32.ofNat (a.toNat <<< b.toNat))
  | .rsh => some (UInt32.ofNat (a.toNat >>> b.toNat))

def Condition.holds (a b : UInt32) : Condition → Bool
  | .jeq => a == b
  | .jgt => b < a
  | .jge => b ≤ a
  | .jset => a &&& b != 0

/-- What an instruction does: it returns, or the program goes on behind so many of the
instructions that follow. -/
inductive Step where
  | returns (verdict : UInt32)
  | goes (skip : ℕ) (m : Machine)

/-- A register is set to what is read, and where nothing can be read the program returns 0. -/
def Step.ofRead (read : Option UInt32) (next : UInt32 → Machine) : Step :=
  match read with
  | none => .returns 0
  | some value => .goes 0 (next value)

/-- One instruction. -/
def step (packet : List UInt8) (m : Machine) : Instr → Step
  | .ldAbs size k => .ofRead (load size packet k.toNat) fun a => { m with a := a }
  | .ldInd size k => .ofRead (load size packet (m.x.toNat + k.toNat)) fun a => { m with a := a }
  | .ldLen => .goes 0 { m with a := UInt32.ofNat packet.length }
  | .ldImm k => .goes 0 { m with a := k }
  | .ldMem word => .goes 0 { m with a := m.mem word }
  | .ldxLen => .goes 0 { m with x := UInt32.ofNat packet.length }
  | .ldxImm k => .goes 0 { m with x := k }
  | .ldxMem word => .goes 0 { m with x := m.mem word }
  | .ldxMsh k => .ofRead (load .byte packet k.toNat) fun b => { m with x := 4 * (b &&& 0xf) }
  | .st word => .goes 0 { m with mem := fun w => if w = word then m.a else m.mem w }
  | .stx word => .goes 0 { m with mem := fun w => if w = word then m.x else m.mem w }
  | .alu op operand => .ofRead (op.apply m.a (operand.value m)) fun a => { m with a := a }
  | .neg => .goes 0 { m with a := -m.a }
  | .ja skip => .goes skip m
  | .jump condition operand jt jf =>
      .goes (if condition.holds m.a (operand.value m) then jt else jf) m
  | .retK k => .returns k
  | .retA => .returns m.a
  | .tax => .goes 0 { m with x := m.a }
  | .txa => .goes 0 { m with a := m.x }

/-- The rest of a program, of which so many instructions are left out. There is no result of a
program that does not end with a return. -/
def exec (packet : List UInt8) : List Instr → ℕ → Machine → Option UInt32
  | [], _, _ => none
  | _ :: program, skip + 1, m => exec packet program skip m
  | instr :: program, 0, m =>
      match step packet m instr with
      | .returns verdict => some verdict
      | .goes skip m => exec packet program skip m

/-- A whole program. -/
def run (packet : List UInt8) (program : List Instr) : Option UInt32 :=
  exec packet program 0 .initial

section Exec

variable {packet : List UInt8} {program : List Instr} {m : Machine} {instr : Instr}

theorem exec_cons_returns {verdict : UInt32} (returns : step packet m instr = .returns verdict) :
    exec packet (instr :: program) 0 m = some verdict := by
  rw [exec, returns]

theorem exec_cons_goes {m' : Machine} {skip : ℕ} (goes : step packet m instr = .goes skip m') :
    exec packet (instr :: program) 0 m = exec packet program skip m' := by
  rw [exec, goes]

/-- Where as many instructions are left out as there are before a rest, the rest is run. -/
theorem exec_append_length (front : List Instr) :
    exec packet (front ++ program) front.length m = exec packet program 0 m := by
  induction front with
  | nil => rfl
  | cons instr front inductionHypothesis => exact inductionHypothesis

end Exec

/-! ## Numbers of bytes -/

theorem bytes_digits (bytes : List UInt8) : ∀ d ∈ (bytes.map UInt8.toNat).reverse, d < 256 := by
  intro d member
  obtain ⟨b, -, rfl⟩ := List.mem_map.mp (List.mem_reverse.mp member)
  exact b.toNat_lt

theorem bigEndian_lt (bytes : List UInt8) : bigEndian bytes < 256 ^ bytes.length := by
  have below := Nat.ofDigits_lt_base_pow_length (by decide : 1 < 256) (bytes_digits bytes)
  rwa [List.length_reverse, List.length_map] at below

/-- A number of bytes denotes a number in one way only. -/
theorem bigEndian_inj {bytes bytes' : List UInt8} (length : bytes.length = bytes'.length)
    (same : bigEndian bytes = bigEndian bytes') : bytes = bytes' := by
  have reversed := Nat.ofDigits_inj_of_len_eq (by decide : 1 < 256) (by simpa using length)
    (bytes_digits bytes) (bytes_digits bytes') same
  exact (List.map_inj_right fun _ _ => UInt8.toNat_inj.mp).mp (List.reverse_inj.mp reversed)

theorem bigEndian_lt_of_length {bytes : List UInt8} {size : Size}
    (length : bytes.length = size.bytes) : bigEndian bytes < UInt32.size := by
  have below := bigEndian_lt bytes
  rw [length] at below
  exact below.trans_le (by cases size <;> decide)

/-- **What a load finds.** It reads the number of some bytes exactly if these bytes are there. -/
theorem load_eq_some_iff {size : Size} {packet bytes : List UInt8} {offset : ℕ}
    (length : bytes.length = size.bytes) :
    load size packet offset = some (UInt32.ofNat (bigEndian bytes)) ↔
      bytes <+: packet.drop offset := by
  rw [List.prefix_iff_eq_take, length, load]
  split
  · rename_i inside
    have taken : ((packet.drop offset).take size.bytes).length = size.bytes := by
      rw [List.length_take, List.length_drop]
      omega
    rw [Option.some.injEq]
    constructor
    · intro same
      have number := congrArg UInt32.toNat same
      rw [UInt32.toNat_ofNat_of_lt' (bigEndian_lt_of_length taken),
        UInt32.toNat_ofNat_of_lt' (bigEndian_lt_of_length length)] at number
      exact (bigEndian_inj (taken.trans length.symm) number).symm
    · intro same
      rw [← same]
  · rename_i outside
    refine iff_of_false (Option.some_ne_none _).symm ?_
    intro same
    have taken := congrArg List.length same
    rw [length, List.length_take, List.length_drop] at taken
    cases size <;> simp only [Size.bytes] at taken outside <;> omega

theorem load_byte (packet : List UInt8) (offset : ℕ) :
    load .byte packet offset = packet[offset]?.map fun b => UInt32.ofNat b.toNat := by
  cases found : packet[offset]? with
  | none =>
      have outside : ¬offset + Size.byte.bytes ≤ packet.length :=
        Nat.not_le.mpr (Nat.lt_succ_of_le (List.getElem?_eq_none_iff.mp found))
      rw [load, if_neg outside]
      rfl
  | some b =>
      obtain ⟨inside, value⟩ := List.getElem?_eq_some_iff.mp found
      have there : [b] <+: packet.drop offset := by
        rw [List.drop_eq_getElem_cons inside, value]
        exact ⟨_, rfl⟩
      have length : [b].length = Size.byte.bytes := rfl
      rw [(load_eq_some_iff length).mpr there]
      simp [bigEndian]

/-! ## Looking for literals -/

/-- Bytes that a program looks for with one load, at an offset from the index register. -/
structure Literal where
  size : Size
  offset : UInt32
  bytes : List UInt8
  length : bytes.length = size.bytes

/-- The literal is there, for an index register of `x`. -/
def Literal.Occurs (packet : List UInt8) (x : UInt32) (l : Literal) : Prop :=
  l.bytes <+: packet.drop (x.toNat + l.offset.toNat)

instance (packet : List UInt8) (x : UInt32) : DecidablePred (Literal.Occurs packet x) :=
  fun l => inferInstanceAs (Decidable (l.bytes <+: packet.drop (x.toNat + l.offset.toNat)))

/-- A load and a comparison for each literal. Where one is missing, the program goes on behind the
instruction that follows the last comparison. -/
def lookFor : List Literal → List Instr
  | [] => []
  | l :: ls =>
      .ldInd l.size l.offset ::
        .jump .jeq (.constant (UInt32.ofNat (bigEndian l.bytes))) 0 (2 * ls.length + 1) ::
          lookFor ls

theorem length_lookFor (ls : List Literal) : (lookFor ls).length = 2 * ls.length := by
  induction ls with
  | nil => rfl
  | cons l ls inductionHypothesis =>
      simp only [lookFor, List.length_cons, inductionHypothesis]
      omega

/-- **A chain of comparisons** accepts the packet if all literals are there, and otherwise returns
0. By induction on the literals: each one that is there leads to the next one, and from
each one that is missing the same distance leads to the last return. -/
theorem exec_lookFor (packet : List UInt8) (accepted : UInt32) (ls : List Literal) (m : Machine) :
    exec packet (lookFor ls ++ [.retK accepted, .retK 0]) 0 m =
      some (if ∀ l ∈ ls, l.Occurs packet m.x then accepted else 0) := by
  induction ls generalizing m with
  | nil => exact exec_cons_returns rfl
  | cons l ls inductionHypothesis =>
      have occurs : load l.size packet (m.x.toNat + l.offset.toNat) =
          some (UInt32.ofNat (bigEndian l.bytes)) ↔ l.Occurs packet m.x :=
        load_eq_some_iff l.length
      simp only [List.forall_mem_cons]
      cases read : load l.size packet (m.x.toNat + l.offset.toNat) with
      | none =>
          have missing : ¬l.Occurs packet m.x := by
            intro there
            rw [occurs.mpr there] at read
            cases read
          rw [if_neg fun all => missing all.1]
          apply exec_cons_returns
          rw [step, read, Step.ofRead]
      | some a =>
          have goes : step packet m (.ldInd l.size l.offset) = .goes 0 { m with a := a } := by
            rw [step, read, Step.ofRead]
          rw [read, Option.some.injEq] at occurs
          rw [lookFor, List.cons_append, exec_cons_goes goes, List.cons_append,
            exec_cons_goes rfl]
          by_cases there : a = UInt32.ofNat (bigEndian l.bytes)
          · have holds : Condition.jeq.holds a (UInt32.ofNat (bigEndian l.bytes)) = true :=
              beq_iff_eq.mpr there
            rw [Operand.value, if_pos holds, inductionHypothesis]
            exact congrArg some (if_congr (and_iff_right (occurs.mp there)).symm rfl rfl)
          · have fails : ¬Condition.jeq.holds a (UInt32.ofNat (bigEndian l.bytes)) = true :=
              mt beq_iff_eq.mp there
            have front : 2 * ls.length + 1 = (lookFor ls ++ [Instr.retK accepted]).length := by
              rw [List.length_append, length_lookFor, List.length_singleton]
            rw [Operand.value, if_neg fails, front, List.append_cons, exec_append_length,
              if_neg fun all => there (occurs.mpr all.1)]
            exact exec_cons_returns rfl

end DdosFiltering.Foundation.ClassicBpf
