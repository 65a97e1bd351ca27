import DdosFiltering.Engine.FastStrstr
import DdosFiltering.Foundation.RollingSum
import Mathlib.Data.UInt

/-!
# What the searches find

A search looks at the bytes from the first one in the packet that is the first byte of the
pattern, up to the next NUL: its text. It hits when the text starts with the pattern, or when a
later window of the text has the bytes of the pattern but the last, and the sum looked for
(`Hit`). The bound of the packet plays no part once the first byte is found, and a search that
meets no NUL reads beyond the buffer (`search_eq`).
-/

set_option autoImplicit false

namespace DdosFiltering.Engine

open Foundation

/-- The memory of a stored pattern: its bytes and a NUL. The searches read one byte more of an empty
pattern, which has to be a NUL too. -/
structure Stores (mem p : List UInt8) : Prop where
  noNul : 0 ∉ p
  bytes : ∃ more, mem = p ++ 0 :: more ∧ (p = [] → ∃ rest, more = 0 :: rest)

/-- The text: the bytes before the next NUL. -/
def textOf (mem : List UInt8) : List UInt8 := mem.takeWhile (· ≠ 0)

/-- The bytes of the pattern but the last, at the start of the memory. -/
def startsLike (p mem : List UInt8) : Bool :=
  decide (mem.take (p.length - 1) = p.take (p.length - 1))

/-- The text starts with the pattern, or a later window is taken for it. -/
def Hit (key : UInt32) (p text : List UInt8) : Prop :=
  p <+: text ∨
    ∃ k, 1 ≤ k ∧ FoundAt charToUnsigned (startsLike p) key p.length text k

theorem textOf_cons {b : UInt8} (notNul : b ≠ 0) (mem : List UInt8) :
    textOf (b :: mem) = b :: textOf mem := by
  simp [textOf, notNul]

theorem textOf_append_drop (mem : List UInt8) :
    mem = textOf mem ++ mem.drop (textOf mem).length := by
  have prefixed : textOf mem <+: mem := List.takeWhile_prefix _
  exact (List.prefix_iff_eq_append.mp prefixed).symm

theorem not_mem_textOf (mem : List UInt8) : 0 ∉ textOf mem := by
  intro member
  simpa using List.mem_takeWhile_imp member

/-- Behind the text there is a NUL, or nothing. -/
theorem behind_textOf (mem : List UInt8) :
    mem.drop (textOf mem).length = [] ∨ ∃ more, mem.drop (textOf mem).length = 0 :: more := by
  induction mem with
  | nil => exact .inl rfl
  | cons b mem inductionHypothesis =>
      by_cases nul : b = 0
      · subst nul
        exact .inr ⟨mem, rfl⟩
      · rw [textOf_cons nul]
        exact inductionHypothesis

/-! ## The loops -/

/-- The first byte of the pattern is looked for in the packet only. -/
theorem mystrchr_eq {s : List UInt8} {c : UInt8} {len : UInt32} (positive : 1 ≤ len.toNat)
    (fits : len.toNat ≤ s.length) :
    mystrchr s c len =
      some (if c ∈ s.take len.toNat then some (s.dropWhile (· ≠ c)) else none) := by
  induction s generalizing len with
  | nil =>
      rw [List.length_nil] at fits
      omega
  | cons b s inductionHypothesis =>
      obtain ⟨n, length⟩ : ∃ n, len.toNat = n + 1 := ⟨len.toNat - 1, by omega⟩
      have shorter : (len - 1).toNat = n := by
        rw [UInt32.toNat_sub_of_le _ _ (by rw [UInt32.le_iff_toNat_le]; exact positive), length]
        rfl
      rw [mystrchr, length, List.take_succ_cons]
      simp only [List.mem_cons]
      by_cases here : b = c
      · simp [here]
      · simp only [if_neg here, Ne.symm here, false_or]
        have skipped : (b :: s).dropWhile (· ≠ c) = s.dropWhile (· ≠ c) := by
          rw [List.dropWhile_cons_of_pos]
          simpa using here
        rw [skipped]
        by_cases last : len - 1 = 0
        · have none' : n = 0 := by rw [← shorter, last]; rfl
          simp [last, none']
        · have more : 1 ≤ n := by
            rw [← shorter]
            refine Nat.pos_of_ne_zero fun zero => last (UInt32.toNat_inj.mp ?_)
            rw [zero]
            rfl
          rw [if_neg last, inductionHypothesis (by omega)
            (by rw [List.length_cons] at fits; omega), shorter]

section CompareLoop

variable (needleChar : UInt8 → UInt32) (tail more : List UInt8)

/-- The comparison of the rest of the pattern with a text that is long enough. -/
theorem compareLoop_fits {text p : List UInt8} (textNoNul : 0 ∉ text) (noNul : 0 ∉ p)
    (long : p.length ≤ text.length) (sum : UInt32) (identical : Bool) :
    compareLoop needleChar (text ++ tail) (p ++ 0 :: more) sum identical =
      if p.length < (text ++ tail).length then
        some ⟨(text ++ tail).drop p.length, 0 :: more,
          sum + weightSum charToUnsigned (text.take p.length) - weightSum needleChar p,
          identical && decide (text.take p.length = p)⟩
      else
        none := by
  induction p generalizing text sum identical with
  | nil =>
      cases memory : text ++ tail with
      | nil => rfl
      | cons h rest =>
          by_cases nul : h = 0 <;> simp [compareLoop, nul]
  | cons n p inductionHypothesis =>
      obtain ⟨h, text, rfl⟩ : ∃ h rest, text = h :: rest :=
        List.exists_cons_of_length_pos (Nat.lt_of_lt_of_le (Nat.succ_pos _) long)
      rw [List.mem_cons, not_or] at textNoNul noNul
      rw [List.cons_append, List.cons_append, compareLoop]
      simp only [if_neg (Ne.symm textNoNul.1), if_neg (Ne.symm noNul.1)]
      rw [inductionHypothesis textNoNul.2 noNul.2 (Nat.le_of_succ_le_succ long)]
      have sums (a b c d : UInt32) : sum + a - b + c - d = sum + (a + c) - (b + d) := by grind
      have same : (identical && h == n && decide (text.take p.length = p)) =
          (identical && decide (h :: text.take p.length = n :: p)) := by
        rw [Bool.and_assoc]
        congr 1
        by_cases first : h = n <;> simp [first]
      simp only [List.length_cons, Nat.add_lt_add_iff_right, List.drop_succ_cons,
        List.take_succ_cons, weightSum_cons, sums, same]
      exact if_congr Iff.rfl rfl rfl

/-- The comparison with a text that is shorter than the pattern. -/
theorem compareLoop_short {text p : List UInt8} (textNoNul : 0 ∉ text) (noNul : 0 ∉ p)
    (short : text.length < p.length) (sum : UInt32) (identical : Bool) :
    compareLoop needleChar text (p ++ more) sum identical = none ∧
      ∀ behind, ∃ after,
        compareLoop needleChar (text ++ 0 :: behind) (p ++ more) sum identical = some after ∧
          after.iNeedle.headD 0 ≠ 0 := by
  induction text generalizing p sum identical with
  | nil =>
      obtain ⟨n, p, rfl⟩ : ∃ n rest, p = n :: rest := List.exists_cons_of_length_pos short
      refine ⟨rfl, fun behind => ⟨_, rfl, ?_⟩⟩
      exact fun nul => noNul (nul ▸ List.mem_cons_self)
  | cons h text inductionHypothesis =>
      obtain ⟨n, p, rfl⟩ : ∃ n rest, p = n :: rest :=
        List.exists_cons_of_length_pos (Nat.lt_trans (Nat.succ_pos _) short)
      rw [List.mem_cons, not_or] at textNoNul noNul
      simp only [List.cons_append, compareLoop, if_neg (Ne.symm textNoNul.1),
        if_neg (Ne.symm noNul.1)]
      exact inductionHypothesis textNoNul.2 noNul.2 (Nat.lt_of_succ_lt_succ short) _ _

end CompareLoop

/-- The first byte of the pattern is compared with the others. -/
theorem startsLike_iff {p : List UInt8} (more text behind : List UInt8) {n : ℕ}
    (length : p.length = n + 1) (positive : 0 < n) (long : n ≤ text.length) :
    ((p ++ more).head? = (text ++ behind).head? ∧ (text ++ behind).take n = (p ++ more).take n) ↔
      startsLike p text = true := by
  have reads : (text ++ behind).take n = text.take n := List.take_append_of_le_length long
  have pattern : (p ++ more).take n = p.take n := List.take_append_of_le_length (by omega)
  rw [startsLike, decide_eq_true_iff, length, Nat.add_sub_cancel, reads, pattern]
  apply and_iff_right_of_imp
  intro same
  obtain ⟨c, p, rfl⟩ : ∃ c rest, p = c :: rest := List.exists_cons_of_length_pos (by omega)
  obtain ⟨b, text, rfl⟩ : ∃ b rest, text = b :: rest :=
    List.exists_cons_of_length_pos (by omega)
  obtain ⟨m, rfl⟩ : ∃ m, n = m + 1 := ⟨n - 1, by omega⟩
  rw [List.take_succ_cons, List.take_succ_cons] at same
  exact congrArg some (List.cons.inj same).1.symm

/-- The loop that moves the window over a text is the search with a rolling sum. -/
theorem slideLoop_eq {p : List UInt8} (more : List UInt8) {n : ℕ} (length : p.length = n + 1)
    (positive : 0 < n) {ahead : List UInt8} (noNul : 0 ∉ ahead) (text : List UInt8)
    (fits : text.length = n + 1 + ahead.length) (diff : UInt32) :
    slideLoop (p ++ more) n text ahead diff =
        (if rolls charToUnsigned (startsLike p) diff text ahead then some 1 else none) ∧
      ∀ behind, slideLoop (p ++ more) n (text ++ 0 :: behind) (ahead ++ 0 :: behind) diff =
        some (if rolls charToUnsigned (startsLike p) diff text ahead then 1 else 0) := by
  induction ahead generalizing text diff with
  | nil =>
      obtain ⟨b, text, rfl⟩ : ∃ b rest, text = b :: rest :=
        List.exists_cons_of_length_pos (by omega)
      exact ⟨rfl, fun behind => rfl⟩
  | cons enters ahead inductionHypothesis =>
      obtain ⟨leaves, text, rfl⟩ : ∃ b rest, text = b :: rest :=
        List.exists_cons_of_length_pos (by omega)
      rw [List.mem_cons, not_or] at noNul
      rw [List.length_cons, List.length_cons] at fits
      obtain ⟨alone, followed⟩ := inductionHypothesis noNul.2 text (by omega)
        (diff - charToUnsigned leaves + charToUnsigned enters)
      have nearEnd := startsLike_iff more text [] length positive (by omega)
      rw [List.append_nil] at nearEnd
      constructor
      · rw [slideLoop, rolls]
        simp only [if_neg (Ne.symm noNul.1), nearEnd, alone, Bool.or_eq_true, Bool.and_eq_true,
          decide_eq_true_iff]
        rw [ite_or]
      · intro behind
        have inside := startsLike_iff more text (0 :: behind) length positive (by omega)
        rw [List.cons_append, List.cons_append, slideLoop, rolls]
        simp only [if_neg (Ne.symm noNul.1), inside, followed, Bool.or_eq_true, Bool.and_eq_true,
          decide_eq_true_iff]
        simp only [ite_or, apply_ite some]

/-! ## The searches -/

variable {needleChar : UInt8 → UInt32} {key : UInt32} {needle p : List UInt8}

/-- The sum that a window must have: the key, and what the comparison has taken away. -/
def soughtSum (needleChar : UInt8 → UInt32) (key : UInt32) (p : List UInt8) : UInt32 :=
  key + weightSum needleChar p.tail

/-- An empty pattern is found at the first NUL. -/
theorem searchFrom_empty (stores : Stores needle []) (rest : List UInt8) :
    searchFrom needleChar key needle (0 :: rest) =
      if 1 < (0 :: rest).length then some 1 else none := by
  obtain ⟨_, rfl, second⟩ := stores.bytes
  obtain ⟨more, rfl⟩ := second rfl
  have compared := compareLoop_fits needleChar rest more (p := [])
    (List.not_mem_nil : (0 : UInt8) ∉ []) List.not_mem_nil (Nat.le_refl _)
    (charToUnsigned 0) true
  rw [List.nil_append, List.nil_append] at compared
  unfold searchFrom
  simp only [List.tail_cons, List.nil_append, List.headD_cons, compared, List.length_nil,
    List.length_cons, Nat.lt_add_left_iff_pos]
  by_cases inside : 0 < rest.length
  · simp [inside]
  · simp [inside]

/-- The text is shorter than the pattern. -/
theorem searchFrom_short (needleChar : UInt8 → UInt32) (key : UInt32) {c : UInt8}
    {q text behind : List UInt8} (stores : Stores needle (c :: q)) (noNul : 0 ∉ text)
    (short : text.length < q.length) (ends : behind = [] ∨ ∃ more, behind = 0 :: more) :
    searchFrom needleChar key needle (c :: text ++ behind) =
      if behind = [] then none else some 0 := by
  obtain ⟨more, rfl, -⟩ := stores.bytes
  have qNoNul : 0 ∉ q := fun member => stores.noNul (List.mem_cons_of_mem c member)
  have compared :=
    compareLoop_short needleChar (0 :: more) noNul qNoNul short (charToUnsigned c) true
  unfold searchFrom
  simp only [List.cons_append, List.tail_cons, List.headD_cons]
  rcases ends with rfl | ⟨rest, rfl⟩
  · simp [compared.1]
  · obtain ⟨after, done, pending⟩ := compared.2 rest
    simp only [done, if_pos pending]
    rfl

/-- The window hits what is found behind the first position. -/
theorem rolls_window (needleChar : UInt8 → UInt32) (key : UInt32) (c : UInt8) {q text : List UInt8}
    (long : q.length ≤ text.length) :
    rolls charToUnsigned (startsLike (c :: q))
        (charToUnsigned c + weightSum charToUnsigned (text.take q.length) -
          weightSum needleChar q - key) (c :: text) (text.drop q.length) = true ↔
      ∃ k, 1 ≤ k ∧ FoundAt charToUnsigned (startsLike (c :: q))
        (soughtSum needleChar key (c :: q)) (q.length + 1) (c :: text) k := by
  have window : (c :: text).take (q.length + 1) ++ text.drop q.length = c :: text := by
    rw [List.take_succ_cons, List.cons_append, List.take_append_drop]
  have length : ((c :: text).take (q.length + 1)).length = q.length + 1 := by
    rw [List.length_take, List.length_cons]
    omega
  have diff : charToUnsigned c + weightSum charToUnsigned (text.take q.length) -
      weightSum needleChar q - key =
        weightSum charToUnsigned ((c :: text).take (q.length + 1)) -
          soughtSum needleChar key (c :: q) := by
    rw [List.take_succ_cons, weightSum_cons, soughtSum, List.tail_cons]
    grind
  have hits := rolls_iff charToUnsigned (startsLike (c :: q))
    (soughtSum needleChar key (c :: q)) (Nat.succ_pos q.length) length (text.drop q.length)
  rw [window, ← diff] at hits
  exact hits

/-- The text is at least as long as the pattern. -/
theorem searchFrom_long (needleChar : UInt8 → UInt32) (key : UInt32) {c : UInt8}
    {q text behind : List UInt8} (stores : Stores needle (c :: q)) (noNul : 0 ∉ text)
    (long : q.length ≤ text.length) (ends : behind = [] ∨ ∃ more, behind = 0 :: more) :
    (Hit (soughtSum needleChar key (c :: q)) (c :: q) (c :: text) →
      searchFrom needleChar key needle (c :: text ++ behind) =
        if (c :: q).length < (c :: text ++ behind).length then some 1 else none) ∧
      (¬Hit (soughtSum needleChar key (c :: q)) (c :: q) (c :: text) →
        searchFrom needleChar key needle (c :: text ++ behind) =
          if behind = [] then none else some 0) := by
  obtain ⟨more, rfl, -⟩ := stores.bytes
  have qNoNul : 0 ∉ q := fun member => stores.noNul (List.mem_cons_of_mem c member)
  have compared :=
    compareLoop_fits needleChar behind more noNul qNoNul long (charToUnsigned c) true
  have starts : c :: q <+: c :: text ↔ text.take q.length = q := by
    rw [List.cons_prefix_cons, List.prefix_iff_eq_take]
    exact (and_iff_right rfl).trans eq_comm
  unfold searchFrom
  simp only [List.cons_append, List.tail_cons, List.headD_cons, compared, List.length_cons,
    Nat.add_lt_add_iff_right]
  by_cases inside : q.length < (text ++ behind).length
  · simp only [if_pos inside, List.headD_cons, ne_eq, not_true_eq_false, if_false, Bool.true_and,
      decide_eq_true_iff, ← starts]
    by_cases same : c :: q <+: c :: text
    · simp only [if_pos same]
      exact ⟨fun _ => trivial, fun missed => absurd (.inl same) missed⟩
    · simp only [if_neg same]
      have positive : 0 < q.length := by
        refine List.length_pos_iff.mpr fun empty => same ?_
        rw [empty, List.cons_prefix_cons]
        exact ⟨rfl, List.nil_prefix⟩
      have offset : (q ++ 0 :: more).length + 1 - (0 :: more).length - 1 = q.length := by
        rw [List.length_append]
        omega
      have ahead : 0 ∉ text.drop q.length := fun member => noNul (List.mem_of_mem_drop member)
      obtain ⟨alone, followed⟩ := slideLoop_eq (p := c :: q) (0 :: more) rfl positive
        ahead (c :: text) (by
          rw [List.length_cons, List.length_drop]
          omega)
        (charToUnsigned c + weightSum charToUnsigned (text.take q.length) -
          weightSum needleChar q - key)
      have hit : Hit (soughtSum needleChar key (c :: q)) (c :: q) (c :: text) ↔ _ :=
        (or_iff_right same).trans (rolls_window needleChar key c long).symm
      rw [hit, offset, List.drop_append_of_le_length long]
      rcases ends with rfl | ⟨rest, rfl⟩
      · rw [List.append_nil, List.append_nil]
        refine ⟨fun found => ?_, fun missed => ?_⟩
        · exact alone.trans (if_pos found)
        · exact alone.trans (if_neg missed)
      · refine ⟨fun found => ?_, fun missed => ?_⟩
        · exact (followed rest).trans (congrArg some (if_pos found))
        · exact (followed rest).trans (congrArg some (if_neg missed))
  · simp only [if_neg inside]
    refine ⟨fun _ => trivial, fun _ => ?_⟩
    have nothing : behind = [] := by
      rw [List.length_append] at inside
      exact List.length_eq_zero_iff.mp (by omega)
    rw [if_pos nothing]

/-- The memory from the first byte that is the first byte of the pattern. -/
def candidate (p buffer : List UInt8) : List UInt8 := buffer.dropWhile (· ≠ p.headD 0)

/-- A text begins with the byte that was looked for. -/
theorem candidate_eq_cons {buffer : List UInt8} (present : p.headD 0 ∈ buffer) :
    ∃ rest, candidate p buffer = p.headD 0 :: rest := by
  induction buffer with
  | nil => exact absurd present List.not_mem_nil
  | cons b buffer inductionHypothesis =>
      by_cases here : b = p.headD 0
      · refine ⟨buffer, ?_⟩
        rw [candidate, List.dropWhile_cons_of_neg (by simpa using here), here]
      · have skipped : candidate p (b :: buffer) = candidate p buffer :=
          List.dropWhile_cons_of_pos (by simpa using here)
        rw [skipped]
        exact inductionHypothesis ((List.mem_cons.mp present).resolve_left (Ne.symm here))

theorem Stores.headD (stores : Stores needle p) : needle.headD 0 = p.headD 0 := by
  obtain ⟨more, rfl, -⟩ := stores.bytes
  cases p <;> rfl

/-- What a search reads beyond the text: one byte behind the first window when it hits, and the
NUL that ends the text when it does not. -/
def Outcome (key : UInt32) (p rest : List UInt8) (result : Option ℤ) : Prop :=
  (Hit key p (textOf rest) →
    result = if max 1 p.length < rest.length then some 1 else none) ∧
  (¬Hit key p (textOf rest) →
    result = if (textOf rest).length < rest.length then some 0 else none)

/-- **What a search finds from the first byte of the pattern on.** -/
theorem searchFrom_outcome (stores : Stores needle p) (rest : List UInt8) :
    Outcome (soughtSum needleChar key p) p (p.headD 0 :: rest)
      (searchFrom needleChar key needle (p.headD 0 :: rest)) := by
  cases p with
  | nil =>
      rw [List.headD_nil, searchFrom_empty stores]
      exact ⟨fun _ => rfl, fun missed => absurd (.inl List.nil_prefix) missed⟩
  | cons c q =>
      have notNul : c ≠ 0 := fun nul => stores.noNul (nul ▸ List.mem_cons_self)
      have text := textOf_cons notNul rest
      have ends := behind_textOf rest
      have split : c :: rest = c :: textOf rest ++ rest.drop (textOf rest).length := by
        rw [List.cons_append, ← textOf_append_drop]
      have positive : max 1 (c :: q).length = (c :: q).length := by
        rw [List.length_cons]
        omega
      have followed : (textOf (c :: rest)).length < (c :: rest).length ↔
          ¬rest.drop (textOf rest).length = [] := by
        rw [text, List.drop_eq_nil_iff, List.length_cons, List.length_cons]
        omega
      unfold Outcome
      rw [List.headD_cons, positive]
      simp only [followed, ite_not]
      rw [text]
      by_cases long : q.length ≤ (textOf rest).length
      · have found := searchFrom_long needleChar key stores
          (not_mem_textOf rest) long ends
        rw [← split] at found
        exact found
      · have short := searchFrom_short needleChar key stores
          (not_mem_textOf rest) (Nat.not_le.mp long) ends
        rw [← split] at short
        refine ⟨fun hit => ?_, fun _ => short⟩
        rcases hit with starts | ⟨k, -, fits, -⟩
        · have := starts.length_le
          simp only [List.length_cons] at this
          omega
        · simp only [List.length_cons] at fits
          omega

/-- **What a search finds.** Nothing, when the first byte of the pattern is not in the packet;
otherwise what it finds from there on. -/
theorem search_eq (needleChar : UInt8 → UInt32) (key : UInt32) (stores : Stores needle p)
    {buffer : List UInt8} {pktLen : UInt32} (positive : 1 ≤ pktLen.toNat)
    (fits : pktLen.toNat ≤ buffer.length) :
    (p.headD 0 ∉ buffer.take pktLen.toNat →
      search needleChar key needle buffer pktLen = some 0) ∧
      (p.headD 0 ∈ buffer.take pktLen.toNat →
        Outcome (soughtSum needleChar key p) p (candidate p buffer)
          (search needleChar key needle buffer pktLen)) := by
  unfold search
  rw [stores.headD, mystrchr_eq positive fits]
  constructor
  · intro absent
    rw [if_neg absent]
  · intro present
    obtain ⟨rest, first⟩ := candidate_eq_cons (p := p) (List.mem_of_mem_take present)
    rw [if_pos present]
    change Outcome _ p (candidate p buffer) (searchFrom needleChar key needle (candidate p buffer))
    rw [first]
    exact searchFrom_outcome stores rest

end DdosFiltering.Engine
