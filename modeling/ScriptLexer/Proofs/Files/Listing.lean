import Mathlib.Data.List.Nodup
import Mathlib.Data.String.Basic
import ScriptLexer.Proofs.Files.Name
import ScriptLexer.Proofs.Files.Tree

/-
  Listings. Locations are ordered name by name; a list in order that has each location once is told
  by its members (`FileTree.eq_of_sorted`) and increases strictly (`FileTree.Sorted.increasing`). In a
  tree with one entry for a location, what is inside a folder are the entries one name further on
  (`FileTree.mem_inside`).
-/

namespace ScriptLexer.FileTree

/-! ## The order of locations -/

theorem locationLe_trans : ∀ k l m : Location, locationLe k l = true → locationLe l m = true →
    locationLe k m = true
  | [], _, _ => fun _ _ => by rw [locationLe]
  | _ :: _, [], _ => nofun
  | _ :: _, _ :: _, [] => nofun
  | a :: as, b :: bs, c :: cs => by
    simp only [locationLe]
    intro first second
    by_cases ab : a = b
    · subst ab
      rw [if_pos rfl] at first
      by_cases ac : a = c
      · rw [if_pos ac] at second ⊢
        exact locationLe_trans as bs cs first second
      · rw [if_neg ac] at second ⊢
        exact second
    rw [if_neg ab, decide_eq_true_eq] at first
    by_cases bc : b = c
    · subst bc
      rw [if_neg ab]
      exact decide_eq_true first
    rw [if_neg bc, decide_eq_true_eq] at second
    have less := FileName.lt_trans first second
    rw [if_neg (FileName.ne_of_lt less)]
    exact decide_eq_true less

theorem locationLe_total : ∀ k l : Location, (locationLe k l || locationLe l k) = true
  | [], _ => by rw [locationLe, Bool.true_or]
  | _ :: _, [] => by rw [locationLe, locationLe, Bool.or_true]
  | a :: as, b :: bs => by
    simp only [locationLe]
    by_cases same : a = b
    · subst same
      rw [if_pos rfl, if_pos rfl]
      exact locationLe_total as bs
    · rw [if_neg same, if_neg (Ne.symm same)]
      simp only [Bool.or_eq_true, decide_eq_true_eq]
      exact FileName.lt_or_lt_of_ne same

theorem locationLe_antisymm : ∀ k l : Location, locationLe k l = true → locationLe l k = true →
    k = l
  | [], [] => fun _ _ => rfl
  | [], _ :: _ => fun _ other => by rw [locationLe] at other; contradiction
  | _ :: _, [] => fun one => by rw [locationLe] at one; contradiction
  | a :: as, b :: bs => by
    simp only [locationLe]
    by_cases same : a = b
    · subst same
      rw [if_pos rfl, if_pos rfl]
      intro one other
      rw [locationLe_antisymm as bs one other]
    · rw [if_neg same, if_neg (Ne.symm same)]
      simp only [decide_eq_true_eq]
      exact fun one other => absurd other (FileName.lt_asymm one)

/-- The order of locations is that of lists of names. -/
theorem lt_of_locationLe : ∀ {l m : Location}, locationLe l m = true → l ≠ m → l < m
  | [], [] => fun _ different => absurd rfl different
  | [], name :: names => fun _ _ => List.nil_lt_cons name names
  | _ :: _, [] => fun le _ => by rw [locationLe] at le; contradiction
  | a :: as, b :: bs => fun le different => by
    rw [locationLe] at le
    rw [List.cons_lt_cons_iff]
    by_cases same : a = b
    · subst same
      rw [if_pos rfl] at le
      exact .inr ⟨rfl, lt_of_locationLe le fun rest => different (rest ▸ rfl)⟩
    · rw [if_neg same, decide_eq_true_eq] at le
      exact .inl le

/-- A list in order. -/
def Sorted (ls : List Location) : Prop := ls.Pairwise fun l m => locationLe l m = true

/-- A list in order that has each location once is told by its members. -/
theorem eq_of_sorted {ls ms : List Location} (sorted : Sorted ls) (sorted' : Sorted ms)
    (once : ls.Nodup) (once' : ms.Nodup) (same : ∀ l, l ∈ ls ↔ l ∈ ms) : ls = ms :=
  ((List.perm_ext_iff_of_nodup once once').mpr same).eq_of_pairwise
    (fun l m _ _ => locationLe_antisymm l m) sorted sorted'

/-- A list in order is what sorting its members comes to. -/
theorem mergeSort_of_perm {ls ms : List Location} (perm : ls.Perm ms) (sorted : Sorted ms) :
    ls.mergeSort locationLe = ms :=
  ((ls.mergeSort_perm locationLe).trans perm).eq_of_pairwise (fun l m _ _ => locationLe_antisymm l m)
    (List.pairwise_mergeSort locationLe_trans locationLe_total ls) sorted

/-- A list in order that has each location once increases strictly. -/
theorem Sorted.increasing {ls : List Location} (sorted : Sorted ls) (once : ls.Nodup) :
    ls.Pairwise (· < ·) :=
  (List.Pairwise.and sorted once).imp fun both => lt_of_locationLe both.1 both.2

/-! ## What is inside a folder -/

/-- There is one entry for a location. -/
def Distinct (t : FileTree) : Prop := (t.entries.map Prod.fst).Nodup

theorem entry?_eq_some_iff {t : FileTree} (distinct : t.Distinct) {l : Location} {e : Entry} :
    t.entry? l = some e ↔ (l, e) ∈ t.entries := by
  unfold Distinct at distinct
  unfold entry?
  generalize t.entries = entries at distinct ⊢
  induction entries with
  | nil => simp
  | cons entry entries ih =>
    obtain ⟨k, e'⟩ := entry
    rw [List.map_cons, List.nodup_cons] at distinct
    rw [List.lookup_cons, List.mem_cons]
    by_cases here : l = k
    · subst here
      have absent : (l, e) ∉ entries := fun mem =>
        distinct.1 (List.mem_map.mpr ⟨(l, e), mem, rfl⟩)
      simp [absent, eq_comm]
    · have other : (l == k) = false := beq_false_of_ne here
      simp [other, here, ih distinct.2]

theorem inside_eq_some_iff {l m : Location} {name : FileName} {e e' : Entry} :
    (m.getLast?.bind fun last => if m.dropLast = l then some (last, e) else none) =
      some (name, e') ↔ m = l ++ [name] ∧ e = e' := by
  constructor
  · intro here
    obtain ⟨last, found, here⟩ := Option.bind_eq_some_iff.mp here
    split at here
    · next parent =>
      cases here
      exact ⟨by rw [← parent, List.dropLast_append_getLast? _ found], rfl⟩
    · contradiction
  · rintro ⟨rfl, rfl⟩
    rw [List.getLast?_concat, Option.bind_some, List.dropLast_concat, if_pos rfl]

/-- What is inside a folder is one name further on. -/
theorem mem_inside {t : FileTree} (distinct : t.Distinct) {l : Location} {name : FileName}
    {e : Entry} : (name, e) ∈ t.inside l ↔ t.entry? (l ++ [name]) = some e := by
  rw [inside, List.mem_filterMap, entry?_eq_some_iff distinct]
  constructor
  · rintro ⟨⟨m, e'⟩, mem, here⟩
    obtain ⟨rfl, rfl⟩ := inside_eq_some_iff.mp here
    exact mem
  · exact fun mem => ⟨_, mem, inside_eq_some_iff.mpr ⟨rfl, rfl⟩⟩

/-- No two of the entries inside a folder have one name. -/
theorem nodup_inside {t : FileTree} (distinct : t.Distinct) (l : Location) :
    ((t.inside l).map Prod.fst).Nodup := by
  rw [List.Nodup, List.pairwise_map, inside, List.pairwise_filterMap]
  refine (List.pairwise_map.mp distinct).imp ?_
  rintro ⟨m, e⟩ ⟨m', e'⟩ different ⟨name, _⟩ here ⟨name', _⟩ here' (rfl : name = name')
  obtain ⟨rfl, -⟩ := inside_eq_some_iff.mp here
  obtain ⟨rfl, -⟩ := inside_eq_some_iff.mp here'
  exact different rfl

end ScriptLexer.FileTree
