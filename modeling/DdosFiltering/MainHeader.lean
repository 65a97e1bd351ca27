import Mathlib.Algebra.GroupWithZero.Nat
import Mathlib.Data.Nat.Notation

/-!
# Constants, enumerations and messages of `main.h`

What the packet loops and the control of the slaves share.
-/

set_option autoImplicit false

namespace DdosFiltering

/-- `RTE_MAX_LCORE`, as DPDK is configured by default. -/
def rteMaxLcore : ℕ := 128

/-- The index of an lcore, and of an entry of `lcore_resource[]` and `proc_config[]`. -/
abbrev LcoreId := Fin rteMaxLcore

instance : NeZero rteMaxLcore := ⟨by decide⟩

/-- Of the two rings of a slave. -/
instance neZeroTwo : NeZero 2 := ⟨by decide⟩

/-- Of the four packets of a group. -/
instance neZeroFour : NeZero 4 := ⟨by decide⟩

/-- `enum bridge_cmd`. -/
inductive BridgeCmd where
  | start
  | stop
  | ping
  | proc
  | cfg
deriving DecidableEq, Repr

/-- `struct bridge_msg_s`. `msg` is the text in the array of that name, up to its first NUL
byte. -/
structure BridgeMsg where
  cmd : BridgeCmd
  msg : List Char
deriving DecidableEq, Repr

end DdosFiltering
