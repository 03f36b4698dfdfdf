import ScriptLexer.Proofs.Files.Listing

/-
  Well-formed trees: each location has one entry, and it lies in folders. Where a path leads in such
  a tree there are folders on the way (`FileTree.WellFormed.housed_of_locate`), so the tree stays
  well-formed when an entry is put there (`FileTree.WellFormed.create`). A file can be written there
  unless a folder is in its place or it is not allowed (`FileTree.exists_write_iff`), and what has
  been written once can be written again (`FileTree.WellFormed.write_allowed`). The path of an entry
  leads to it, or is refused as too long or because a folder is barred, and so it is in a tree that
  keeps the folders (`FileTree.WellFormed.locate_below`).
-/

namespace ScriptLexer.FileTree

/-! ## Folders on the way -/

theorem KeepsFolders.trans {t u v : FileTree} (first : t.KeepsFolders u)
    (second : u.KeepsFolders v) : t.KeepsFolders v := by
  intro l time there
  obtain ⟨time', there'⟩ := first l time there
  exact second l time' there'

/-- There is a folder at a location. -/
def isFolderAt (t : FileTree) (l : Location) : Bool := (t.entry? l).any Entry.isFolder

theorem isFolderAt_iff {t : FileTree} {l : Location} :
    t.isFolderAt l = true ↔ ∃ time, t.entry? l = some (.folder time) := by
  rw [isFolderAt]
  cases t.entry? l with
  | none => simp
  | some e => cases e <;> simp [Entry.isFolder]

theorem KeepsFolders.isFolderAt {t after : FileTree} (keeps : t.KeepsFolders after) {l : Location}
    (there : t.isFolderAt l = true) : after.isFolderAt l = true := by
  obtain ⟨time, folder⟩ := isFolderAt_iff.mp there
  exact isFolderAt_iff.mpr (keeps l time folder)

/-- A name that an entry can have: it does not lead upwards, and the system can be told it. -/
def isProper (name : FileName) : Bool := name != ".." && !name.units.contains (.char '\x00')

theorem isProper_iff {name : FileName} :
    isProper name = true ↔ name ≠ ".." ∧ name.units.contains (.char '\x00') = false := by
  rw [isProper, Bool.and_eq_true, bne_iff_ne, Bool.not_eq_true']

/-- There are folders on the way to a location, and an entry can have the names on it. -/
structure Housed (t : FileTree) (l : Location) : Prop where
  folders : ∀ n < l.length, t.isFolderAt (l.take n) = true
  named : ∀ name ∈ l, isProper name = true

instance (t : FileTree) (l : Location) : Decidable (t.Housed l) :=
  decidable_of_iff ((∀ n < l.length, t.isFolderAt (l.take n) = true) ∧
      ∀ name ∈ l, isProper name = true)
    ⟨fun ⟨folders, named⟩ => ⟨folders, named⟩, fun ⟨folders, named⟩ => ⟨folders, named⟩⟩

/-- Each location has one entry, which lies in folders, and the working folder is one of them. What
is limited is there. -/
structure WellFormed (t : FileTree) : Prop where
  distinct : t.Distinct
  home : t.isFolderAt t.home = true
  housed : ∀ entry ∈ t.entries, t.Housed entry.1
  limited : ∀ limit ∈ t.limits, (t.entry? limit.1).isSome = true

instance (t : FileTree) : Decidable t.WellFormed :=
  decidable_of_iff ((t.entries.map Prod.fst).Nodup ∧ t.isFolderAt t.home = true ∧
      (∀ entry ∈ t.entries, t.Housed entry.1) ∧
      ∀ limit ∈ t.limits, (t.entry? limit.1).isSome = true)
    ⟨fun ⟨distinct, home, housed, limited⟩ => ⟨distinct, home, housed, limited⟩,
      fun ⟨distinct, home, housed, limited⟩ => ⟨distinct, home, housed, limited⟩⟩

theorem Housed.mono {t after : FileTree} (keeps : t.KeepsFolders after) {l : Location}
    (housed : t.Housed l) : after.Housed l :=
  ⟨fun n small => keeps.isFolderAt (housed.folders n small), housed.named⟩

theorem Housed.dropLast {t : FileTree} {l : Location} (housed : t.Housed l) :
    t.Housed l.dropLast where
  folders n small := by
    rw [List.length_dropLast] at small
    rw [List.dropLast_eq_take, List.take_take, Nat.min_eq_left (Nat.le_of_lt small)]
    exact housed.folders n (by omega)
  named name mem := housed.named name ((List.dropLast_sublist l).subset mem)

theorem Housed.concat {t : FileTree} {l : Location} (housed : t.Housed l)
    (there : t.isFolderAt l = true) {part : FileName} (proper : isProper part = true) :
    t.Housed (l ++ [part]) where
  folders n small := by
    rw [List.length_append, List.length_singleton] at small
    by_cases whole : n = l.length
    · rwa [whole, List.take_left]
    · rw [List.take_append_of_le_length (by omega)]
      exact housed.folders n (by omega)
  named name mem := by
    rcases List.mem_append.mp mem with mem | mem
    · exact housed.named name mem
    · rwa [List.mem_singleton.mp mem]

theorem WellFormed.housed_of_folder {t : FileTree} (wellFormed : t.WellFormed) {l : Location}
    (there : t.isFolderAt l = true) : t.Housed l := by
  obtain ⟨time, folder⟩ := isFolderAt_iff.mp there
  exact wellFormed.housed _ ((entry?_eq_some_iff wellFormed.distinct).mp folder)

theorem Housed.of_walk {t : FileTree} {l m : Location} {names : List FileName}
    (clean : ∀ name ∈ names, name.units.contains (.char '\x00') = false)
    (housed : t.Housed l) (walk : t.walk l names = .ok m) : t.Housed m := by
  induction names generalizing l with
  | nil =>
    cases walk
    exact housed
  | cons part parts ih =>
    rw [List.forall_mem_cons] at clean
    rw [FileTree.walk] at walk
    split at walk
    · next folder =>
      split at walk
      · split at walk
        · contradiction
        refine ih clean.2 ?_ walk
        split
        · exact housed.dropLast
        · next named =>
          exact housed.concat (isFolderAt_iff.mpr ⟨_, folder⟩) (isProper_iff.mpr ⟨named, clean.1⟩)
      · contradiction
    · contradiction
    · contradiction

/-- Where a walk along a path starts. -/
def origin (t : FileTree) (p : Path) : Location := if p.start = .here then t.home else []

theorem locate_of_isTooLong {t : FileTree} {p : Path} (clean : p.hasNul = false)
    (long : p.isTooLong = true) : t.locate p = .error (.refused .nameTooLong p) := by
  rw [locate, clean, if_neg Bool.false_ne_true, if_pos long]

theorem locate_eq {t : FileTree} {p : Path} (clean : p.hasNul = false)
    (short : p.isTooLong = false) :
    t.locate p = match t.walk (t.origin p) p.parts with
      | .ok l => .ok l
      | .error fault => .error (.refused fault p) := by
  rw [locate, clean, if_neg Bool.false_ne_true, short, if_neg Bool.false_ne_true]
  rfl

theorem locate_eq_ok_iff {t : FileTree} {p : Path} {l : Location} :
    t.locate p = .ok l ↔
      p.hasNul = false ∧ p.isTooLong = false ∧ t.walk (t.origin p) p.parts = .ok l := by
  rcases Bool.eq_false_or_eq_true p.hasNul with nul | clean
  · rw [locate, if_pos nul]
    simp [nul]
  rcases Bool.eq_false_or_eq_true p.isTooLong with long | short
  · rw [locate_of_isTooLong clean long]
    simp [long]
  rw [locate_eq clean short]
  cases t.walk (t.origin p) p.parts <;> simp [clean, short]

/-- Where a path leads there are folders on the way. -/
theorem WellFormed.housed_of_locate {t : FileTree} (wellFormed : t.WellFormed) {p : Path}
    {l : Location} (locate : t.locate p = .ok l) : t.Housed l := by
  have start : t.Housed (t.origin p) := by
    rw [origin]
    split
    · exact wellFormed.housed_of_folder wellFormed.home
    · exact ⟨nofun, nofun⟩
  obtain ⟨clean, -, walk⟩ := locate_eq_ok_iff.mp locate
  rw [Path.hasNul, List.any_eq_false] at clean
  exact start.of_walk (fun name mem => Bool.not_eq_true _ ▸ clean name mem) walk

/-! ## Changes -/

theorem Distinct.set {t : FileTree} (distinct : t.Distinct) (l : Location) (e : Entry) :
    Distinct (t.set l e) := by
  show (l :: (t.entries.filter (·.1 != l)).map Prod.fst).Nodup
  refine List.nodup_cons.mpr ⟨?_, distinct.sublist (List.filter_sublist.map Prod.fst)⟩
  intro mem
  obtain ⟨entry, mem, rfl⟩ := List.mem_map.mp mem
  have other := (List.mem_filter.mp mem).2
  simp at other

/-- Nothing is taken away from a tree in which an entry is put. -/
theorem isSome_entry?_set {t : FileTree} {l m : Location} (e : Entry)
    (there : (t.entry? m).isSome = true) : ( entry? (t.set l e) m).isSome = true := by
  by_cases here : m = l
  · rw [here, entry?_set_self]
    rfl
  · rwa [entry?_set_of_ne here]

theorem WellFormed.set {t : FileTree} (wellFormed : t.WellFormed) {l : Location} {e : Entry}
    (housed : t.Housed l) (keeps : t.KeepsFolders (t.set l e)) : WellFormed (t.set l e) where
  distinct := wellFormed.distinct.set l e
  home := keeps.isFolderAt wellFormed.home
  housed entry mem := by
    rcases List.mem_cons.mp mem with rfl | mem
    · exact housed.mono keeps
    · exact (wellFormed.housed entry (List.mem_of_mem_filter mem)).mono keeps
  limited limit mem := isSome_entry?_set e (wellFormed.limited limit mem)

theorem WellFormed.touchFolder {t : FileTree} (wellFormed : t.WellFormed) (l : Location) :
    WellFormed (t.touchFolder l) := by
  unfold FileTree.touchFolder
  split
  · next time there =>
    refine wellFormed.set (wellFormed.housed_of_folder (isFolderAt_iff.mpr ⟨time, there⟩)) ?_
    intro m time folder
    by_cases here : m = l
    · exact ⟨t.clock, here ▸ entry?_set_self t l _⟩
    · exact ⟨time, (entry?_set_of_ne here t _).trans folder⟩
  · exact wellFormed

theorem WellFormed.tick {t : FileTree} (wellFormed : t.WellFormed) : t.tick.WellFormed := by
  have keeps : t.KeepsFolders t.tick := fun _ time there => ⟨time, there⟩
  exact ⟨wellFormed.distinct, wellFormed.home, fun entry mem =>
    (wellFormed.housed entry mem).mono keeps, wellFormed.limited⟩

/-- An entry is put in a folder, where there was none. -/
theorem WellFormed.create {t : FileTree} (wellFormed : t.WellFormed) {l : Location} (e : Entry)
    (housed : t.Housed l) (free : t.entry? l = none) : WellFormed (t.create l e) := by
  have put := wellFormed.set housed (keepsFolders_set e (by simp [free]))
  exact (put.touchFolder l.dropLast).tick

theorem WellFormed.write {t after : FileTree} {p : Path} {content : List UInt8}
    (wellFormed : t.WellFormed) (write : t.write p content = .ok after) : after.WellFormed := by
  unfold FileTree.write at write
  cases locate : t.locate p with
  | error e =>
    rw [locate] at write
    contradiction
  | ok l =>
    have housed := wellFormed.housed_of_locate locate
    rw [locate] at write
    dsimp only [bind, Except.bind] at write
    split at write
    · contradiction
    · next there =>
      split at write
      · obtain rfl := Except.ok.inj write
        exact (wellFormed.set housed (keepsFolders_set _ (by simp [there]))).tick
      · contradiction
    · next free =>
      split at write
      · obtain rfl := Except.ok.inj write
        exact wellFormed.create _ housed free
      · contradiction

/-- Where nothing is, nothing is limited. -/
theorem WellFormed.access_of_none {t : FileTree} (wellFormed : t.WellFormed) {l : Location}
    (free : t.entry? l = none) : t.access l = {} := by
  have absent : t.limits.lookup l = none := by
    rw [List.lookup_eq_none_iff]
    intro limit mem
    have there := wellFormed.limited limit mem
    refine bne_iff_ne.mpr ?_
    rintro rfl
    rw [free] at there
    contradiction
  rw [access, absent]
  rfl

/-- What has been written may be written again. -/
theorem WellFormed.write_allowed {t after : FileTree} {p : Path} {l : Location}
    {content : List UInt8} (wellFormed : t.WellFormed) (locate : t.locate p = .ok l)
    (write : t.write p content = .ok after) : (t.access l).write = true := by
  unfold FileTree.write at write
  rw [locate] at write
  dsimp only [bind, Except.bind] at write
  split at write
  · contradiction
  · split at write
    · assumption
    · contradiction
  · next free =>
    rw [wellFormed.access_of_none free]

/-! ## Where a file can be written -/

theorem keepsFolders_iff {t after : FileTree} :
    t.KeepsFolders after ↔ ∀ l, t.isFolderAt l = true → after.isFolderAt l = true := by
  simp only [KeepsFolders, isFolderAt_iff, forall_exists_index]

theorem isFolder_touchFolder (t : FileTree) (l m : Location) :
    ( entry? (t.touchFolder l) m).map Entry.isFolder = (t.entry? m).map Entry.isFolder := by
  rcases entry?_touchFolder t l m with same | ⟨time, before, after⟩
  · rw [same]
  · rw [before, after]
    rfl

theorem isFolderAt_eq (t : FileTree) (l : Location) :
    t.isFolderAt l = ((t.entry? l).map Entry.isFolder).getD false := by
  rw [isFolderAt]
  cases t.entry? l <;> rfl

/-- A file may be written at a location, or made there. -/
def mayPut (t : FileTree) (l : Location) : Bool :=
  match (t.entry? l).map Entry.isFolder with
  | some isFolder => !isFolder && (t.access l).write
  | none => (t.access l.dropLast).write

/-- A path leads to where a file may be written or made. -/
def Writable (t : FileTree) (p : Path) : Prop := ∃ l, t.locate p = .ok l ∧ t.mayPut l = true

theorem exists_write_iff {t : FileTree} {p : Path} {content : List UInt8} :
    (∃ after, t.write p content = .ok after) ↔ t.Writable p := by
  unfold FileTree.write Writable mayPut
  cases t.locate p with
  | error e => exact ⟨nofun, nofun⟩
  | ok l =>
    simp only [bind, Except.bind, Except.ok.injEq, exists_eq_left']
    cases t.entry? l with
    | none =>
      dsimp only [Option.map_none]
      split
      · next allowed => exact ⟨fun _ => allowed, fun _ => ⟨_, rfl⟩⟩
      · next barred => exact iff_of_false nofun barred
    | some entry =>
      cases entry with
      | file _ _ =>
        dsimp only [Option.map_some, Entry.isFolder, Bool.not_false, Bool.true_and]
        split
        · next allowed => exact ⟨fun _ => allowed, fun _ => ⟨_, rfl⟩⟩
        · next barred => exact iff_of_false nofun barred
      | folder _ => exact ⟨nofun, nofun⟩

/-- Whether a file can be written does not depend on what is to be written. -/
theorem exists_write {t after : FileTree} {p : Path} {content : List UInt8}
    (write : t.write p content = .ok after) (other : List UInt8) :
    ∃ after, t.write p other = .ok after :=
  exists_write_iff.mpr (exists_write_iff.mp ⟨after, write⟩)

/-- Writing a file changes what is a folder nowhere else. -/
theorem isFolder_of_write {t after : FileTree} {p : Path} {l : Location} {content : List UInt8}
    (locate : t.locate p = .ok l) (write : t.write p content = .ok after) {m : Location}
    (other : m ≠ l) : (after.entry? m).map Entry.isFolder = (t.entry? m).map Entry.isFolder := by
  unfold FileTree.write at write
  rw [locate] at write
  dsimp only [bind, Except.bind] at write
  have set (e : Entry) : entry? (t.set l e) m = t.entry? m := entry?_set_of_ne other t e
  split at write
  · contradiction
  · split at write
    · obtain rfl := Except.ok.inj write
      exact congrArg _ (set _)
    · contradiction
  · split at write
    · obtain rfl := Except.ok.inj write
      exact (isFolder_touchFolder _ l.dropLast m).trans (congrArg _ (set _))
    · contradiction

/-- Writing a file makes no folder and removes none. -/
theorem isFolderAt_of_write {t after : FileTree} {p : Path} {content : List UInt8}
    (write : t.write p content = .ok after) (m : Location) :
    after.isFolderAt m = t.isFolderAt m := by
  obtain ⟨l, locate, put⟩ := write_ok write
  by_cases here : m = l
  · subst here
    obtain ⟨_, locate', may⟩ := exists_write_iff.mp ⟨after, write⟩
    obtain rfl := Except.ok.inj (locate.symm.trans locate')
    obtain ⟨time, there⟩ := put.there
    rw [isFolderAt, there, isFolderAt_eq]
    rw [mayPut] at may
    cases kind : (t.entry? m).map Entry.isFolder with
    | none => rfl
    | some isFolder =>
      rw [kind] at may
      cases isFolder with
      | true => contradiction
      | false => rfl
  · rw [isFolderAt_eq, isFolderAt_eq, isFolder_of_write locate write here]

/-- Where a file can be written does not depend on other files that have been written before. -/
theorem writable_of_write {t after : FileTree} {p q : Path} {content : List UInt8}
    (write : t.write p content = .ok after)
    (apart : ∀ l m, t.locate p = .ok l → t.locate q = .ok m → l ≠ m) :
    after.Writable q ↔ t.Writable q := by
  obtain ⟨l, locate, put⟩ := write_ok write
  have folders := isFolderAt_of_write write
  have keeps : after.KeepsFolders t := keepsFolders_iff.mpr fun l there => folders l ▸ there
  have located (m : Location) : after.locate q = .ok m ↔ t.locate q = .ok m :=
    ⟨locate_of_keepsFolders put.stays.symm keeps, locate_of_keepsFolders put.stays put.folders⟩
  refine exists_congr fun m => ?_
  rw [located]
  refine and_congr_right fun there => ?_
  rw [mayPut, mayPut, isFolder_of_write locate write (apart l m locate there).symm,
    put.stays.access, put.stays.access]

/-! ## Paths of entries -/

theorem walk_append {t : FileTree} {l m : Location} {names : List FileName}
    (walk : t.walk l names = .ok m) (more : List FileName) :
    t.walk l (names ++ more) = t.walk m more := by
  induction names generalizing l with
  | nil =>
    cases walk
    rfl
  | cons part parts ih =>
    rw [List.cons_append, FileTree.walk]
    rw [FileTree.walk] at walk
    split at walk
    · split at walk
      · next allowed =>
        rw [if_pos allowed]
        split at walk
        · contradiction
        · next short =>
          rw [if_neg short]
          exact ih walk
      · contradiction
    · contradiction
    · contradiction

section Along

variable {t after : FileTree} {l : Location} {names : List FileName}
  (named : ∀ name ∈ names, isProper name = true)
  (folders : ∀ n < names.length, t.isFolderAt (l ++ names.take n) = true)

include named folders

/-- A walk through folders goes on to its end, unless a name is too long or a folder barred. -/
theorem walk_along : t.walk l names = .ok (l ++ names) ∨
    t.walk l names = .error .nameTooLong ∨ t.walk l names = .error .denied := by
  induction names generalizing l with
  | nil => exact .inl (by rw [FileTree.walk, List.append_nil])
  | cons part parts ih =>
    obtain ⟨time, folder⟩ := isFolderAt_iff.mp (folders 0 (Nat.succ_pos _))
    rw [List.take_zero, List.append_nil] at folder
    rw [List.forall_mem_cons] at named
    rw [FileTree.walk, folder]
    dsimp only
    split
    · split
      · exact .inr (.inl rfl)
      · rw [if_neg (isProper_iff.mp named.1).1, List.append_cons l part parts]
        refine ih named.2 fun n small => ?_
        have next := folders (n + 1) (Nat.succ_lt_succ small)
        rwa [List.take_succ_cons, List.append_cons] at next
    · exact .inr (.inr rfl)

/-- A tree that keeps its folders is walked through alike. -/
theorem walk_along_congr (stays : t.Stays after) (keeps : t.KeepsFolders after) :
    after.walk l names = t.walk l names := by
  induction names generalizing l with
  | nil => rfl
  | cons part parts ih =>
    obtain ⟨time, folder⟩ := isFolderAt_iff.mp (folders 0 (Nat.succ_pos _))
    rw [List.take_zero, List.append_nil] at folder
    obtain ⟨time', folder'⟩ := keeps l time folder
    rw [List.forall_mem_cons] at named
    rw [FileTree.walk, FileTree.walk, folder, folder']
    dsimp only
    rw [stays.access, if_neg (isProper_iff.mp named.1).1, ih named.2]
    intro n small
    have next := folders (n + 1) (Nat.succ_lt_succ small)
    rwa [List.take_succ_cons, List.append_cons] at next

end Along

theorem Housed.folders_below {t : FileTree} {l names : Location} (housed : t.Housed (l ++ names)) :
    ∀ n < names.length, t.isFolderAt (l ++ names.take n) = true := by
  intro n small
  have inside : l.length + n < (l ++ names).length := by
    rw [List.length_append]
    omega
  have folder := housed.folders (l.length + n) inside
  rwa [List.take_length_add_append] at folder

theorem WellFormed.housed_of_entry {t : FileTree} (wellFormed : t.WellFormed) {l : Location}
    {e : Entry} (there : t.entry? l = some e) : t.Housed l :=
  wellFormed.housed _ ((entry?_eq_some_iff wellFormed.distinct).mp there)

section Below

variable {t after : FileTree} (wellFormed : t.WellFormed) {root : Path} {l names : Location}
  {e : Entry} (locate : t.locate root = .ok l) (there : t.entry? (l ++ names) = some e)

include wellFormed locate there

/-- The path of an entry leads to it, or is refused as too long or because a folder is barred. -/
theorem WellFormed.locate_below :
    t.locate ⟨root.start, root.parts ++ names⟩ = .ok (l ++ names) ∨
      ∃ fault, (fault = .nameTooLong ∨ fault = .denied) ∧
        t.locate ⟨root.start, root.parts ++ names⟩ =
          .error (.refused fault ⟨root.start, root.parts ++ names⟩) := by
  have housed := wellFormed.housed_of_entry there
  obtain ⟨clean, -, walk⟩ := locate_eq_ok_iff.mp locate
  have proper : ∀ name ∈ names, isProper name = true := fun name mem =>
    housed.named name (List.mem_append_right l mem)
  have clean : Path.hasNul ⟨root.start, root.parts ++ names⟩ = false := by
    rw [Path.hasNul, List.any_append, show root.parts.any _ = false from clean, Bool.false_or,
      List.any_eq_false]
    intro name mem
    rw [(isProper_iff.mp (proper name mem)).2]
    exact Bool.false_ne_true
  have through : t.walk (t.origin ⟨root.start, root.parts ++ names⟩) (root.parts ++ names) =
      t.walk l names := walk_append walk names
  by_cases long : Path.isTooLong ⟨root.start, root.parts ++ names⟩ = true
  · exact .inr ⟨.nameTooLong, .inl rfl, locate_of_isTooLong clean long⟩
  rw [locate_eq clean (Bool.not_eq_true _ ▸ long), through]
  rcases walk_along proper housed.folders_below with ends | stops | stops
  · exact .inl (by rw [ends])
  · exact .inr ⟨.nameTooLong, .inl rfl, by rw [stops]⟩
  · exact .inr ⟨.denied, .inr rfl, by rw [stops]⟩

/-- In a tree that keeps the folders, the path of an entry leads where it led. -/
theorem WellFormed.locate_below_congr (stays : t.Stays after) (keeps : t.KeepsFolders after) :
    after.locate ⟨root.start, root.parts ++ names⟩ =
      t.locate ⟨root.start, root.parts ++ names⟩ := by
  have housed := wellFormed.housed_of_entry there
  obtain ⟨-, -, walk⟩ := locate_eq_ok_iff.mp locate
  have same : after.walk (t.origin root) (root.parts ++ names) =
      t.walk (t.origin root) (root.parts ++ names) := by
    rw [walk_append walk, walk_append (walk_of_keepsFolders stays keeps walk)]
    exact walk_along_congr (fun name mem => housed.named name (List.mem_append_right l mem))
      housed.folders_below stays keeps
  unfold origin at same
  unfold FileTree.locate
  rw [stays.home, same]

end Below

end ScriptLexer.FileTree
