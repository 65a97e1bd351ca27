import DdosFiltering.Engine.PatternKeys

/-!
# The search tree of the patterns

`fast_str_compile` inserts each pattern into a tree under its key, which is the sum of its
values and not the pattern itself. A key that is there already gets the new value, if `free`
returns, so the tree forgets the pattern that had it. No pattern is lost exactly when no two of
them have the same sum (`nothingLost_iff`), and different patterns may have the same one.
-/

set_option autoImplicit false

namespace DdosFiltering.Engine

/-- No pattern is lost: there are as many nodes as patterns, each key is found with the number of
its pattern, and none was there when it was inserted. `ls` are the lines of the patterns. -/
structure NothingLost (ls : List (List (UInt8 × UInt8))) (t : FastStr) : Prop where
  nodes : t.fastStrstrTree.length = t.strings.length
  found : ∀ i node, t.stringsTreeT[i]? = some node →
    gTreeLookup node.key t.fastStrstrTree = some i
  fresh : ∀ i node, t.stringsTreeT[i]? = some node →
    gTreeLookup node.key (FastStr.empty.addLines (ls.take i)).fastStrstrTree = none

section NothingLost

variable {qsort : List StringsNb → List StringsNb} {ls : List (List (UInt8 × UInt8))}

/-- A node of the table and the key of its line. -/
theorem stringsTreeT_getElem? {i : ℕ} {key : ℤ} :
    (∃ node, (FastStr.ofLines qsort ls).stringsTreeT[i]? = some node ∧ node.key = key) ↔
      (ls.map lineKey)[i]? = some key := by
  obtain ⟨-, keys⟩ := FastStr.empty.addLines_getElem? ls
  have sameKeys : (FastStr.ofLines qsort ls).stringsTreeT.map StringsTree.key = ls.map lineKey :=
    keys
  rw [← sameKeys, List.getElem?_map, Option.map_eq_some_iff]

/-- When patterns have the same key, one of them is lost. -/
theorem NothingLost.nodup (kept : NothingLost ls (.ofLines qsort ls)) :
    (ls.map lineKey).Nodup := by
  rw [List.nodup_iff_getElem?_ne_getElem?]
  intro i j less inside same
  obtain ⟨key, here⟩ : ∃ key, (ls.map lineKey)[j]? = some key :=
    ⟨_, List.getElem?_eq_getElem inside⟩
  obtain ⟨later, isLater, rfl⟩ := stringsTreeT_getElem?.mpr here
  obtain ⟨earlier, isEarlier, sameKey⟩ := stringsTreeT_getElem?.mpr (same.trans here)
  have first := kept.found i earlier isEarlier
  rw [sameKey, kept.found j later isLater] at first
  exact absurd (Option.some.inj first) (Nat.ne_of_gt less)

/-- With different keys, no pattern is lost. -/
theorem nothingLost_of_nodup (distinct : (ls.map lineKey).Nodup) :
    NothingLost ls (.ofLines qsort ls) := by
  have tree : (FastStr.ofLines qsort ls).fastStrstrTree = insertKeys 0 (ls.map lineKey) [] :=
    addLines_fastStrstrTree .empty ls
  constructor
  · obtain ⟨strings, -⟩ := FastStr.empty.addLines_getElem? ls
    have sameStrings : (FastStr.ofLines qsort ls).strings = (FastStr.empty.addLines ls).strings :=
      rfl
    rw [tree, length_insertKeys distinct (fun _ _ => rfl), sameStrings, strings]
    simp [FastStr.empty]
  · intro i node isNode
    have here := stringsTreeT_getElem?.mp ⟨node, isNode, rfl⟩
    rw [tree, gTreeLookup_insertKeys distinct here, Nat.zero_add]
  · intro i node isNode
    have here := stringsTreeT_getElem?.mp ⟨node, isNode, rfl⟩
    have before : (FastStr.empty.addLines (ls.take i)).fastStrstrTree =
        insertKeys 0 ((ls.take i).map lineKey) [] := addLines_fastStrstrTree .empty _
    rw [before, List.map_take, gTreeLookup_insertKeys_of_notMem, gTreeLookup]
    exact nodup_iff_notMem_take.mp distinct i node.key here

end NothingLost

/-- **When no pattern is lost**: no two patterns of the accepted file have the same sum. -/
theorem nothingLost_iff {lib : StringLibrary} {file : Option (List UInt8)} {linesNb : ℤ}
    {t : FastStr} (compiled : fastStrCompile lib file linesNb = .returns t) :
    ∃ buff text ls, file.bind (fgets fastStrMaxNum) = some (buff, text) ∧
      StartsWith t.strings.length ls text ∧
        (NothingLost ls t ↔ (ls.map lineKey).Nodup) := by
  obtain ⟨buff, text, ls, first, starts, -, rfl⟩ := fastStrCompile_ofLines compiled
  exact ⟨buff, text, ls, first, starts, NothingLost.nodup, nothingLost_of_nodup⟩

/-- Two lines, `6161` and `6262`, and two nodes. -/
theorem nothingLost_iff_twoLines :
    ∃ ls t, fastStrCompile glibcLibrary
        (some [50, newline, 54, 49, 54, 49, newline, 54, 50, 54, 50, newline]) 0 = .returns t ∧
      NothingLost ls t := by
  let bytes : List (List UInt8) := [[0x61, 0x61], [0x62, 0x62]]
  have compiled : fastStrCompile glibcLibrary
      (some [50, newline, 54, 49, 54, 49, newline, 54, 50, 54, 50, newline]) 0 =
      .returns (.ofLines qsortStringsNb (bytes.map (·.map hexPair))) := rfl
  obtain ⟨buff, text, ls, first, starts, kept⟩ := nothingLost_iff compiled
  obtain ⟨-, rfl⟩ := Prod.mk.inj (Option.some.inj first)
  have lines : StartsWith 2 (bytes.map (·.map hexPair))
      [54, 49, 54, 49, newline, 54, 50, 54, 50, newline] := .ofBytes bytes
  obtain rfl := starts.unique lines
  exact ⟨_, _, compiled, kept.mpr (by decide)⟩

/-- The lines `6162` and `6261` are different and have one node, when `free` returns. -/
theorem same_sum_lost :
    ¬∀ (lib : StringLibrary) (file : Option (List UInt8)) (linesNb : ℤ) (t : FastStr)
      (buff text : List UInt8) (ls : List (List (UInt8 × UInt8))),
      fastStrCompile lib file linesNb = .returns t →
      file.bind (fgets fastStrMaxNum) = some (buff, text) →
      StartsWith t.strings.length ls text →
      (ls.map fun ps => ps.map pairByte).Nodup → NothingLost ls t := by
  intro claim
  have lines : StartsWith 2 [[hexPair 0x61, hexPair 0x62], [hexPair 0x62, hexPair 0x61]]
      [54, 49, 54, 50, newline, 54, 50, 54, 49, newline] := .ofBytes [[0x61, 0x62], [0x62, 0x61]]
  have kept := claim { glibcLibrary with freeReturns := true }
    (some [50, newline, 54, 49, 54, 50, newline, 54, 50, 54, 49, newline]) 0 _ _ _ _ rfl rfl lines
    (by decide)
  exact absurd kept.nodes (by decide)

end DdosFiltering.Engine
