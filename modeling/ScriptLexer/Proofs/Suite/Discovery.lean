import Mathlib.Data.List.Nodup
import Mathlib.Data.List.Pairwise
import Mathlib.Data.Set.Basic
import ScriptLexer.Suite.Run
import ScriptLexer.Proofs.Files.Folders

/-
  Discovery of cases. A listing of a folder comes to the entries below it that are behind no folder
  that may not be listed (`Suite.Reached`). It gets through if all of them can be looked at and the
  folders are not too many inside each other (`Suite.exists_discover_iff`), and then it has each file
  among them once (`Suite.lists_filesBelow`). The cases are those with one of the endings
  (`Suite.discover_ok`), in order (`Suite.discover_sorted`).
-/

namespace ScriptLexer

/-! ## Results in a row -/

section Row

variable {α β ε : Type} {f : α → Except ε (List β)} {xs : List α}

theorem exists_mapM_iff :
    (∃ ys, xs.mapM f = .ok ys) ↔ ∀ x ∈ xs, ∃ y, f x = .ok y := by
  induction xs with
  | nil => exact ⟨fun _ _ mem => absurd mem List.not_mem_nil, fun _ => ⟨[], rfl⟩⟩
  | cons x xs ih =>
    rw [List.forall_mem_cons, ← ih, List.mapM_cons]
    cases f x with
    | error e => exact iff_of_false nofun (by rintro ⟨⟨_, ⟨⟩⟩, -⟩)
    | ok y =>
      cases xs.mapM f with
      | error e => exact iff_of_false nofun (by rintro ⟨-, ⟨_, ⟨⟩⟩⟩)
      | ok ys => exact iff_of_true ⟨y :: ys, rfl⟩ ⟨⟨y, rfl⟩, ⟨ys, rfl⟩⟩

theorem eq_of_mapM {ys : List (List β)} (row : xs.mapM f = .ok ys) :
    ys = xs.map fun x => (f x).toOption.getD [] := by
  induction xs generalizing ys with
  | nil =>
    cases row
    rfl
  | cons x xs ih =>
    rw [List.mapM_cons] at row
    cases here : f x with
    | error e =>
      rw [here] at row
      cases row
    | ok y =>
      rw [here] at row
      cases rest : xs.mapM f with
      | error e =>
        rw [rest] at row
        cases row
      | ok ys =>
        rw [rest] at row
        cases row
        rw [List.map_cons, here, ih rest]
        rfl

end Row

namespace Suite

open FileTree

variable {t : FileTree} {root : Path} {l m names k : Location} {name : FileName} {e : Entry}

/-! ## What a listing comes to -/

/-- A listing of a folder comes to an entry below it: all folders on the way may be listed. -/
structure Reached (t : FileTree) (m k : Location) (e : Entry) : Prop where
  below : k ≠ []
  there : t.entry? (m ++ k) = some e
  listed : ∀ n < k.length, (t.access (m ++ k.take n)).read = true

theorem reached_singleton (distinct : t.Distinct) :
    Reached t m [name] e ↔ (name, e) ∈ t.listed m := by
  rw [FileTree.listed]
  constructor
  · intro reached
    have allowed := reached.listed 0 Nat.one_pos
    rw [List.take_zero, List.append_nil] at allowed
    rw [if_pos allowed]
    exact (mem_inside distinct).mpr reached.there
  · intro mem
    split at mem
    · next allowed =>
      refine ⟨List.cons_ne_nil _ _, (mem_inside distinct).mp mem, fun n small => ?_⟩
      obtain rfl : n = 0 := Nat.lt_one_iff.mp small
      rwa [List.take_zero, List.append_nil]
    · cases mem

/-- What is deeper down is reached from a folder that is listed first. -/
theorem reached_cons (wellFormed : t.WellFormed) (deeper : k ≠ []) :
    Reached t m (name :: k) e ↔ ∃ folder, (name, folder) ∈ t.listed m ∧
      folder.isFolder = true ∧ Reached t (m ++ [name]) k e := by
  constructor
  · intro reached
    have folder := (wellFormed.housed_of_entry reached.there).folders_below 1
      (by simpa using List.length_pos_iff.mpr deeper)
    obtain ⟨time, folder⟩ := isFolderAt_iff.mp folder
    have first : Reached t m [name] (.folder time) :=
      ⟨List.cons_ne_nil _ _, folder, fun n small => by
        obtain rfl : n = 0 := Nat.lt_one_iff.mp small
        exact reached.listed 0 (Nat.succ_pos _)⟩
    refine ⟨_, (reached_singleton wellFormed.distinct).mp first, rfl, deeper, ?_, fun n small => ?_⟩
    · rw [← List.append_cons, reached.there]
    · have next := reached.listed (n + 1) (Nat.succ_lt_succ small)
      rwa [List.take_succ_cons, List.append_cons] at next
  · rintro ⟨folder, mem, -, reached⟩
    have first := (reached_singleton wellFormed.distinct).mpr mem
    refine ⟨List.cons_ne_nil _ _, by rw [List.append_cons, reached.there], fun n small => ?_⟩
    cases n with
    | zero => exact first.listed 0 Nat.one_pos
    | succ n =>
      rw [List.take_succ_cons, List.append_cons]
      exact reached.listed n (Nat.lt_of_succ_lt_succ small)

/-- Looking at an entry tells what it is, or fails. -/
theorem isFile_casePath (wellFormed : t.WellFormed) (locate : t.locate root = .ok l)
    (there : t.entry? (l ++ names) = some e) {isFile : Bool}
    (look : t.isFile (casePath root names) = .ok isFile) : isFile = e.isFile := by
  unfold FileTree.isFile leadsTo at look
  rcases wellFormed.locate_below locate there with leads | ⟨fault, refused, fails⟩
  · rw [casePath, find_eq leads, there] at look
    exact (Except.ok.inj look).symm
  · rw [casePath, find, fails] at look
    rcases refused with rfl | rfl <;> cases look

/-! ## Looking at entries -/

theorem exists_filesAmong_iff {ks : List Location} :
    (∃ files, filesAmong t root ks = .ok files) ↔
      ∀ k ∈ ks, ∃ isFile, t.isFile (casePath root k) = .ok isFile := by
  induction ks with
  | nil => exact ⟨fun _ _ mem => absurd mem List.not_mem_nil, fun _ => ⟨[], rfl⟩⟩
  | cons k ks ih =>
    rw [List.forall_mem_cons, ← ih, filesAmong]
    cases t.isFile (casePath root k) with
    | error e => exact iff_of_false nofun (by rintro ⟨⟨_, ⟨⟩⟩, -⟩)
    | ok isFile =>
      cases filesAmong t root ks with
      | error e => exact iff_of_false nofun (by rintro ⟨-, ⟨_, ⟨⟩⟩⟩)
      | ok files => exact iff_of_true ⟨_, rfl⟩ ⟨⟨isFile, rfl⟩, ⟨files, rfl⟩⟩

theorem filesAmong_ok {ks files : List Location} (among : filesAmong t root ks = .ok files) :
    files.Sublist ks ∧ ∀ k, k ∈ files ↔ k ∈ ks ∧ t.isFile (casePath root k) = .ok true := by
  induction ks generalizing files with
  | nil =>
    cases among
    exact ⟨.slnil, fun k => iff_of_false List.not_mem_nil fun both => List.not_mem_nil both.1⟩
  | cons k ks ih =>
    rw [filesAmong] at among
    cases look : t.isFile (casePath root k) with
    | error e =>
      rw [look] at among
      cases among
    | ok isFile =>
      rw [look] at among
      cases rest : filesAmong t root ks with
      | error e =>
        rw [rest] at among
        cases among
      | ok more =>
        rw [rest] at among
        cases among
        obtain ⟨sublist, mem⟩ := ih rest
        cases isFile with
        | true =>
          refine ⟨sublist.cons_cons k, fun k' => ?_⟩
          rw [if_pos rfl, List.mem_cons, mem, List.mem_cons, or_and_right]
          exact or_congr_left ⟨fun same => ⟨same, same ▸ look⟩, And.left⟩
        | false =>
          refine ⟨sublist.cons k, fun k' => ?_⟩
          rw [List.mem_cons, or_and_right]
          refine (mem k').trans (or_iff_right ?_).symm
          rintro ⟨rfl, isFile⟩
          rw [look] at isFile
          cases isFile

/-! ## Listing what is below a folder -/

/-- Nothing is in the way of listing a folder under some names: every entry that this comes to can be
looked at, and there is room for the folders inside each other. -/
structure ClearBelow (t : FileTree) (root : Path) (l : Location) (room : Nat) (names : Location) :
    Prop where
  looks : ∀ k e, Reached t (l ++ names) k e →
    ∃ isFile, t.isFile (casePath root (names ++ k)) = .ok isFile
  deep : ∀ k time, Reached t (l ++ names) k (.folder time) → k.length < room
  some : 0 < room

/-- The paths of what is listed in a folder. -/
def listedPaths (t : FileTree) (m names : Location) : List Location :=
  (t.listed m).map fun entry => names ++ [entry.1]

/-- The folders that are listed in a folder. -/
def listedFolders (t : FileTree) (m : Location) : List (FileName × Entry) :=
  (t.listed m).filter fun entry => entry.2.isFolder

theorem filesBelow_succ (t : FileTree) (root : Path) (l : Location) (room : Nat)
    (names : Location) :
    filesBelow t root l (room + 1) names = (do
      let files ← filesAmong t root (listedPaths t (l ++ names) names)
      let deeper ← (listedFolders t (l ++ names)).mapM fun entry =>
        filesBelow t root l room (names ++ [entry.1])
      return files ++ deeper.flatten) := by
  rw [filesBelow]
  rfl

theorem filesBelow_zero (names : Location) (files : List Location) :
    filesBelow t root l 0 names ≠ .ok files := by
  rw [filesBelow]
  cases filesAmong t root _ <;> exact nofun

theorem mem_listedFolders :
    (name, e) ∈ listedFolders t m ↔ (name, e) ∈ t.listed m ∧ e.isFolder = true :=
  List.mem_filter

theorem forall_mem_listedPaths (distinct : t.Distinct) {P : Location → Prop} :
    (∀ k ∈ listedPaths t m names, P k) ↔
      ∀ name e, Reached t m [name] e → P (names ++ [name]) := by
  simp only [listedPaths, List.mem_map, forall_exists_index, and_imp, reached_singleton distinct]
  exact ⟨fun all name e mem => all _ (name, e) mem rfl,
    fun all k entry mem same => same ▸ all entry.1 entry.2 mem⟩

/-- A listing with one more level of room is clear if what is in the folder can be looked at, and
listing its folders is clear. -/
theorem clearBelow_succ_iff (wellFormed : t.WellFormed) {room : Nat} :
    ClearBelow t root l (room + 1) names ↔
      (∀ k ∈ listedPaths t (l ++ names) names,
        ∃ isFile, t.isFile (casePath root k) = .ok isFile) ∧
      ∀ folder ∈ listedFolders t (l ++ names), ClearBelow t root l room (names ++ [folder.1]) := by
  rw [forall_mem_listedPaths wellFormed.distinct]
  constructor
  · intro clear
    refine ⟨fun name e => clear.looks [name] e, fun ⟨name, folder⟩ mem => ?_⟩
    obtain ⟨mem, isFolder⟩ := mem_listedFolders.mp mem
    have deeper {k : Location} {e : Entry} (reached : Reached t (l ++ (names ++ [name])) k e) :
        Reached t (l ++ names) (name :: k) e := by
      rw [← List.append_assoc] at reached
      exact (reached_cons wellFormed reached.below).mpr ⟨folder, mem, isFolder, reached⟩
    refine ⟨fun k e reached => ?_, fun k time reached => ?_, ?_⟩
    · rw [List.append_assoc, List.singleton_append]
      exact clear.looks _ e (deeper reached)
    · exact Nat.lt_of_succ_lt_succ (clear.deep _ time (deeper reached))
    · cases folder with
      | file _ _ => cases isFolder
      | folder time =>
        exact Nat.lt_of_succ_lt_succ
          (clear.deep [name] time ((reached_singleton wellFormed.distinct).mpr mem))
  · rintro ⟨looks, clear⟩
    have step {name : FileName} {k : Location} {e : Entry} (below : k ≠ [])
        (reached : Reached t (l ++ names) (name :: k) e) :
        ClearBelow t root l room (names ++ [name]) ∧ Reached t (l ++ (names ++ [name])) k e := by
      obtain ⟨folder, mem, isFolder, reached⟩ := (reached_cons wellFormed below).mp reached
      rw [List.append_assoc] at reached
      exact ⟨clear _ (mem_listedFolders.mpr ⟨mem, isFolder⟩), reached⟩
    refine ⟨fun k e reached => ?_, fun k time reached => ?_, Nat.succ_pos room⟩
    · match k with
      | [] => exact absurd rfl reached.below
      | [name] => exact looks name e reached
      | name :: next :: k =>
        obtain ⟨clear, reached⟩ := step (List.cons_ne_nil next k) reached
        rw [List.append_cons]
        exact clear.looks _ e reached
    · match k with
      | [] => exact absurd rfl reached.below
      | [name] =>
        have mem := (reached_singleton wellFormed.distinct).mp reached
        exact Nat.succ_lt_succ (clear _ (mem_listedFolders.mpr ⟨mem, rfl⟩)).some
      | name :: next :: k =>
        obtain ⟨clear, reached⟩ := step (List.cons_ne_nil next k) reached
        exact Nat.succ_lt_succ (clear.deep _ time reached)

/-- A listing gets through exactly if nothing is in its way. -/
theorem exists_filesBelow_iff (wellFormed : t.WellFormed) {room : Nat} :
    (∃ files, filesBelow t root l room names = .ok files) ↔ ClearBelow t root l room names := by
  induction room generalizing names with
  | zero =>
    exact iff_of_false (fun ⟨files, lists⟩ => filesBelow_zero names files lists)
      fun clear => Nat.lt_irrefl 0 clear.some
  | succ room ih =>
    rw [clearBelow_succ_iff wellFormed, ← exists_filesAmong_iff]
    simp only [← ih]
    rw [← exists_mapM_iff, filesBelow_succ]
    cases filesAmong t root (listedPaths t (l ++ names) names) with
    | error e => exact iff_of_false nofun (by rintro ⟨⟨_, ⟨⟩⟩, -⟩)
    | ok files =>
      dsimp only [bind, Except.bind]
      cases (listedFolders t (l ++ names)).mapM fun entry =>
          filesBelow t root l room (names ++ [entry.1]) with
      | error e => exact iff_of_false nofun (by rintro ⟨-, ⟨_, ⟨⟩⟩⟩)
      | ok deeper => exact iff_of_true ⟨_, rfl⟩ ⟨⟨files, rfl⟩, ⟨deeper, rfl⟩⟩

/-- The list has each file that a listing of a folder comes to, once. -/
structure Lists (t : FileTree) (m names : Location) (files : List Location) : Prop where
  once : files.Nodup
  mem : ∀ k, k ∈ files ↔ ∃ below content time,
    k = names ++ below ∧ Reached t m below (.file content time)

/-- The files that are in a folder themselves. -/
theorem mem_filesAmong (wellFormed : t.WellFormed) (locate : t.locate root = .ok l)
    {files : List Location}
    (among : filesAmong t root (listedPaths t (l ++ names) names) = .ok files) :
    k ∈ files ↔ ∃ name content time,
      k = names ++ [name] ∧ Reached t (l ++ names) [name] (.file content time) := by
  have looks := exists_filesAmong_iff.mp ⟨files, among⟩
  rw [(filesAmong_ok among).2]
  constructor
  · rintro ⟨mem, isFile⟩
    obtain ⟨⟨name, e⟩, listed, rfl⟩ := List.mem_map.mp mem
    have reached := (reached_singleton wellFormed.distinct).mpr listed
    have there : t.entry? (l ++ (names ++ [name])) = some e := by
      rw [← List.append_assoc, reached.there]
    have file := isFile_casePath wellFormed locate there isFile
    cases e with
    | file content time => exact ⟨name, content, time, rfl, reached⟩
    | folder time => cases file
  · rintro ⟨name, content, time, rfl, reached⟩
    have mem : names ++ [name] ∈ listedPaths t (l ++ names) names :=
      List.mem_map.mpr ⟨_, (reached_singleton wellFormed.distinct).mp reached, rfl⟩
    obtain ⟨isFile, look⟩ := looks _ mem
    have there : t.entry? (l ++ (names ++ [name])) = some (.file content time) := by
      rw [← List.append_assoc, reached.there]
    obtain rfl := isFile_casePath wellFormed locate there look
    exact ⟨mem, look⟩

theorem nodup_listed (distinct : t.Distinct) (m : Location) :
    ((t.listed m).map Prod.fst).Nodup := by
  rw [FileTree.listed]
  split
  · exact nodup_inside distinct m
  · exact .nil

section Deeper

variable (wellFormed : t.WellFormed) {deeper : FileName × Entry → List Location}
  (lists : ∀ entry ∈ listedFolders t (l ++ names),
    Lists t (l ++ (names ++ [entry.1])) (names ++ [entry.1]) (deeper entry))

include wellFormed lists

/-- The files that are in folders of a folder. -/
theorem mem_deeper : k ∈ ((listedFolders t (l ++ names)).map deeper).flatten ↔
    ∃ name below content time, below ≠ [] ∧ k = names ++ name :: below ∧
      Reached t (l ++ names) (name :: below) (.file content time) := by
  simp only [List.mem_flatten, List.mem_map, exists_exists_and_eq_and]
  constructor
  · rintro ⟨⟨name, folder⟩, mem, found⟩
    obtain ⟨below, content, time, rfl, reached⟩ := ((lists _ mem).mem k).mp found
    obtain ⟨mem, isFolder⟩ := mem_listedFolders.mp mem
    rw [← List.append_assoc] at reached
    exact ⟨name, below, content, time, reached.below, (List.append_cons names name below).symm,
      (reached_cons wellFormed reached.below).mpr ⟨folder, mem, isFolder, reached⟩⟩
  · rintro ⟨name, below, content, time, some, rfl, reached⟩
    obtain ⟨folder, mem, isFolder, reached⟩ := (reached_cons wellFormed some).mp reached
    rw [List.append_assoc] at reached
    have mem := mem_listedFolders.mpr ⟨mem, isFolder⟩
    exact ⟨_, mem, ((lists _ mem).mem _).mpr
      ⟨below, content, time, List.append_cons names name below, reached⟩⟩

/-- No file is in two folders of a folder. -/
theorem nodup_deeper : ((listedFolders t (l ++ names)).map deeper).flatten.Nodup := by
  rw [List.nodup_flatten, List.pairwise_map, List.forall_mem_map]
  refine ⟨fun entry mem => (lists entry mem).once, ?_⟩
  have apart : (listedFolders t (l ++ names)).Pairwise fun a b => a.1 ≠ b.1 :=
    (List.pairwise_map.mp (nodup_listed wellFormed.distinct (l ++ names))).sublist
      List.filter_sublist
  refine apart.imp_of_mem fun {a b} mem mem' different k inA inB => ?_
  obtain ⟨_, _, _, one, -⟩ := ((lists a mem).mem k).mp inA
  obtain ⟨_, _, _, other, -⟩ := ((lists b mem').mem k).mp inB
  rw [← List.append_cons] at one other
  have same := List.append_cancel_left (one.symm.trans other)
  exact different (List.cons.inj same).1

end Deeper

/-- A listing that gets through has the files that it comes to. -/
theorem lists_filesBelow (wellFormed : t.WellFormed) (locate : t.locate root = .ok l) {room : Nat}
    {files : List Location} (lists : filesBelow t root l room names = .ok files) :
    Lists t (l ++ names) names files := by
  induction room generalizing names files with
  | zero => exact absurd lists (filesBelow_zero names files)
  | succ room ih =>
    rw [filesBelow_succ] at lists
    cases among : filesAmong t root (listedPaths t (l ++ names) names) with
    | error e =>
      rw [among] at lists
      cases lists
    | ok here =>
    rw [among] at lists
    dsimp only [bind, Except.bind] at lists
    split at lists
    · cases lists
    next deeper row =>
    cases lists
    obtain rfl := eq_of_mapM row
    have below (entry : FileName × Entry) (mem : entry ∈ listedFolders t (l ++ names)) :
        Lists t (l ++ (names ++ [entry.1])) (names ++ [entry.1])
          ((filesBelow t root l room (names ++ [entry.1])).toOption.getD []) := by
      obtain ⟨files, lists⟩ := exists_mapM_iff.mp ⟨_, row⟩ entry mem
      rw [lists]
      exact ih lists
    constructor
    case mem =>
      intro k
      rw [List.mem_append, mem_filesAmong wellFormed locate among, mem_deeper wellFormed below]
      constructor
      · rintro (⟨name, content, time, rfl, reached⟩ |
          ⟨name, more, content, time, -, rfl, reached⟩)
        · exact ⟨_, content, time, rfl, reached⟩
        · exact ⟨_, content, time, rfl, reached⟩
      · rintro ⟨k, content, time, rfl, reached⟩
        match k with
        | [] => exact absurd rfl reached.below
        | [name] => exact .inl ⟨name, content, time, rfl, reached⟩
        | name :: next :: more =>
          exact .inr ⟨name, _, content, time, List.cons_ne_nil next more, rfl, reached⟩
    case once =>
      have paths : (listedPaths t (l ++ names) names).Nodup := by
        have once := (nodup_listed wellFormed.distinct (l ++ names)).map
          fun a b (same : names ++ [a] = names ++ [b]) =>
            List.singleton_inj.mp (List.append_cancel_left same)
        rwa [List.map_map] at once
      refine List.nodup_append'.mpr
        ⟨paths.sublist (filesAmong_ok among).1, nodup_deeper wellFormed below,
          fun k first second => ?_⟩
      obtain ⟨name, _, _, one, -⟩ := (mem_filesAmong wellFormed locate among).mp first
      obtain ⟨name', more, _, _, some, other, -⟩ := (mem_deeper wellFormed below).mp second
      have same := List.append_cancel_left (one.symm.trans other)
      exact some (List.cons.inj same).2.symm

/-! ## Cases -/

variable {endings : List String}

/-- In a folder that is there, the cases are what a listing has, in order. -/
theorem discover_eq_ok_iff {cases : List Location} (isFolder : t.isFolder root = .ok true)
    (locate : t.locate root = .ok l) :
    discover t root endings = .ok cases ↔ ∃ files,
      filesBelow t root l t.room.listing [] = .ok files ∧
        (files.filter (hasEnding endings)).mergeSort locationLe = cases := by
  rw [discover, isFolder]
  dsimp only [bind, Except.bind]
  rw [if_pos rfl, locate]
  dsimp only
  cases filesBelow t root l t.room.listing [] with
  | error e => exact iff_of_false nofun (by rintro ⟨_, ⟨⟩, -⟩)
  | ok files => exact ⟨fun same => ⟨files, rfl, Except.ok.inj same⟩,
      fun ⟨_, same, cases⟩ => by cases same; exact congrArg Except.ok cases⟩

/-- Nothing is in the way of a listing of the root: every entry that it comes to can be looked at,
and there is room for the folders inside each other. -/
structure Clear (t : FileTree) (root : Path) (l : Location) : Prop where
  looks : ∀ k e, Reached t l k e → ∃ isFile, t.isFile (casePath root k) = .ok isFile
  deep : ∀ k e, Reached t l k e → e.isFolder = true → k.length < t.room.listing
  some : 0 < t.room.listing

theorem clearBelow_nil_iff : ClearBelow t root l t.room.listing [] ↔ Clear t root l := by
  constructor
  · rintro ⟨looks, deep, some⟩
    rw [List.append_nil] at looks deep
    refine ⟨looks, fun k e reached isFolder => ?_, some⟩
    cases e with
    | file _ _ => cases isFolder
    | folder time => exact deep k time reached
  · rintro ⟨looks, deep, some⟩
    refine ⟨?_, ?_, some⟩ <;> rw [List.append_nil]
    · exact looks
    · exact fun k time reached => deep k _ reached rfl

/-- The cases are discovered if nothing is in the way. -/
theorem exists_discover_iff (wellFormed : t.WellFormed) (isFolder : t.isFolder root = .ok true)
    (locate : t.locate root = .ok l) :
    (∃ cases, discover t root endings = .ok cases) ↔ Clear t root l := by
  simp only [← clearBelow_nil_iff, ← exists_filesBelow_iff wellFormed,
    discover_eq_ok_iff isFolder locate]
  exact ⟨fun ⟨_, files, lists, _⟩ => ⟨files, lists⟩, fun ⟨files, lists⟩ => ⟨_, files, lists, rfl⟩⟩

theorem isFolder_of_discover {cases : List Location} (found : discover t root endings = .ok cases) :
    t.isFolder root = .ok true ∨ cases = [] := by
  unfold discover at found
  cases there : t.isFolder root with
  | error e =>
    rw [there] at found
    cases found
  | ok isFolder =>
    rw [there] at found
    cases isFolder with
    | true => exact .inl rfl
    | false =>
      cases found
      exact .inr rfl

/-- The cases that are discovered are in order. -/
theorem discover_sorted {cases : List Location} (found : discover t root endings = .ok cases) :
    Sorted cases := by
  rcases isFolder_of_discover found with isFolder | rfl
  · obtain ⟨l, -, locate, -⟩ := isFolder_iff.mp isFolder
    obtain ⟨files, -, rfl⟩ := (discover_eq_ok_iff isFolder locate).mp found
    exact List.pairwise_mergeSort locationLe_trans locationLe_total _
  · exact .nil

/-- The files with one of the endings that a listing of a folder comes to, by the names that lead
there. -/
def Cases (t : FileTree) (root : Path) (endings : List String) : Set Location :=
  {names | (∃ l content time, t.locate root = .ok l ∧ Reached t l names (.file content time)) ∧
    hasEnding endings names = true}

theorem isFolder_of_reached (wellFormed : t.WellFormed) (locate : t.locate root = .ok l)
    (reached : Reached t l k e) : t.isFolder root = .ok true := by
  have folder := (wellFormed.housed_of_entry reached.there).folders_below 0
    (List.length_pos_iff.mpr reached.below)
  rw [List.take_zero, List.append_nil] at folder
  obtain ⟨time, folder⟩ := isFolderAt_iff.mp folder
  exact isFolder_iff.mpr ⟨l, time, locate, folder⟩

/-- Each case is discovered once. -/
theorem discover_ok {cases : List Location} (wellFormed : t.WellFormed)
    (found : discover t root endings = .ok cases) :
    cases.Nodup ∧ ∀ k, k ∈ cases ↔ k ∈ Cases t root endings := by
  cases isFolder : t.isFolder root with
  | error e =>
    rw [discover, isFolder] at found
    cases found
  | ok isThere =>
  cases isThere with
  | false =>
    rw [discover, isFolder] at found
    cases found
    refine ⟨.nil, fun k => iff_of_false List.not_mem_nil ?_⟩
    rintro ⟨⟨l, content, time, locate, reached⟩, -⟩
    rw [isFolder_of_reached wellFormed locate reached] at isFolder
    cases isFolder
  | true =>
    obtain ⟨l, -, locate, -⟩ := isFolder_iff.mp isFolder
    obtain ⟨files, lists, rfl⟩ := (discover_eq_ok_iff isFolder locate).mp found
    have lists := lists_filesBelow wellFormed locate lists
    rw [List.append_nil] at lists
    refine ⟨(List.mergeSort_perm _ _).nodup_iff.mpr (lists.once.filter _), fun k => ?_⟩
    rw [List.mem_mergeSort, List.mem_filter, lists.mem]
    simp only [List.nil_append, Cases, Set.mem_ofPred_eq, locate, Except.ok.injEq]
    constructor
    · rintro ⟨⟨_, content, time, rfl, reached⟩, ending⟩
      exact ⟨⟨l, content, time, rfl, reached⟩, ending⟩
    · rintro ⟨⟨_, content, time, rfl, reached⟩, ending⟩
      exact ⟨⟨k, content, time, rfl, reached⟩, ending⟩

theorem runCases_eq_ok_iff {results : List (Location × CaseResult)} :
    runCases t root endings = .ok results ↔ ∃ cases, discover t root endings = .ok cases ∧
      (cases.map fun names => (names, runCase t (casePath root names))) = results := by
  rw [runCases]
  cases discover t root endings with
  | error e => exact iff_of_false nofun (by rintro ⟨_, ⟨⟩, -⟩)
  | ok cases => exact ⟨fun same => ⟨cases, rfl, Except.ok.inj same⟩,
      fun ⟨_, same, results⟩ => by cases same; exact congrArg Except.ok results⟩

end Suite

end ScriptLexer
