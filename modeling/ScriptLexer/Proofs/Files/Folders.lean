import ScriptLexer.Proofs.Files.WellFormed

/-
  What making folders does to a tree. A tree grows without a change to its files
  (`FileTree.Grows`); making folders lets it grow until the path leads to a folder
  (`FileTree.makeFolders_ok`), and what is there already is left alone
  (`FileTree.makeFolders_again`).
-/

namespace ScriptLexer.FileTree

/-! ## Folders -/

theorem isFolder_iff {t : FileTree} {p : Path} :
    t.isFolder p = .ok true ↔ ∃ l time, t.locate p = .ok l ∧ t.entry? l = some (.folder time) := by
  unfold isFolder leadsTo
  cases locate : t.locate p with
  | error e =>
    have find : t.find p = .error e := by rw [FileTree.find, locate]; rfl
    rw [find]
    cases e with
    | nulInPath | listingTooDeep | makingTooDeep => simp
    | refused fault q => cases fault <;> simp
  | ok l =>
    rw [find_eq locate]
    cases there : t.entry? l with
    | none => simp [there]
    | some e => cases e <;> simp [there, Entry.isFolder]

theorem isFolder_of_keepsFolders {t after : FileTree} (stays : t.Stays after)
    (keeps : t.KeepsFolders after) {p : Path} (there : t.isFolder p = .ok true) :
    after.isFolder p = .ok true := by
  obtain ⟨l, time, locate, folder⟩ := isFolder_iff.mp there
  obtain ⟨time', folder'⟩ := keeps l time folder
  exact isFolder_iff.mpr ⟨l, time', locate_of_keepsFolders stays keeps locate, folder'⟩

/-! ## Making folders -/

/-- There may be more folders, and the files are the same. -/
structure Grows (t after : FileTree) : Prop where
  stays : t.Stays after
  folders : t.KeepsFolders after
  files : ∀ l, after.content? l = t.content? l
  wellFormed : t.WellFormed → after.WellFormed

theorem Grows.refl (t : FileTree) : t.Grows t :=
  ⟨.refl t, fun _ time there => ⟨time, there⟩, fun _ => rfl, id⟩

theorem Grows.trans {t u v : FileTree} (first : t.Grows u) (second : u.Grows v) : t.Grows v :=
  ⟨first.stays.trans second.stays, first.folders.trans second.folders,
    fun l => (second.files l).trans (first.files l), second.wellFormed ∘ first.wellFormed⟩

/-- A file that gets what it holds. -/
theorem Puts.grows_of_same {t after : FileTree} {l : Location} {content : List UInt8}
    (put : t.Puts after l content) (holds : t.content? l = some content)
    (wellFormed : t.WellFormed → after.WellFormed) : t.Grows after := by
  refine ⟨put.stays, put.folders, fun m => ?_, wellFormed⟩
  by_cases here : m = l
  · rw [here, put.content?_self, holds]
  · exact put.other m here

theorem content?_create_folder {t : FileTree} {l : Location} (free : t.entry? l = none)
    (time : Int) (m : Location) : (t.create l (.folder time)).content? m = t.content? m := by
  refine (content?_touchFolder (t.set l (.folder time)) l.dropLast m).trans ?_
  by_cases here : m = l
  · subst here
    rw [content?, content?, free, entry?_set_self]
  · exact content?_congr (entry?_set_of_ne here t _)

/-- An entry that is put at a free location, and its parent folder marked. -/
theorem entry?_create_of_folder {t : FileTree} {l m : Location} {e : Entry} {time : Int}
    (there : entry? (t.set l e) m = some (.folder time)) :
    ∃ time', entry? (t.create l e) m = some (.folder time') := by
  rcases entry?_touchFolder (t.set l e) l.dropLast m with same | ⟨-, -, folder⟩
  · exact ⟨time, same.trans there⟩
  · exact ⟨_, folder⟩

theorem makeFolder_ok {t after : FileTree} {p : Path} (make : t.makeFolder p = .ok after) :
    t.Grows after ∧ after.isFolder p = .ok true := by
  unfold makeFolder at make
  cases locate : t.locate p with
  | error e =>
    rw [locate] at make
    contradiction
  | ok l =>
    rw [locate] at make
    dsimp only [bind, Except.bind] at make
    split at make
    · contradiction
    next free =>
    split at make
    case isFalse => contradiction
    obtain rfl := Except.ok.inj make
    have stays := stays_create t l (.folder t.clock)
    have keeps : t.KeepsFolders (t.create l (.folder t.clock)) := by
      intro m time there
      have other : m ≠ l := by
        rintro rfl
        rw [free] at there
        contradiction
      exact entry?_create_of_folder ((entry?_set_of_ne other t _).trans there)
    have grows : t.Grows (t.create l (.folder t.clock)) :=
      ⟨stays, keeps, content?_create_folder free t.clock, fun wellFormed =>
        wellFormed.create _ (wellFormed.housed_of_locate locate) free⟩
    obtain ⟨time, folder⟩ := entry?_create_of_folder (entry?_set_self t l (.folder t.clock))
    exact ⟨grows, isFolder_iff.mpr
      ⟨l, time, locate_of_keepsFolders stays keeps locate, folder⟩⟩

/-- A step of making folders lets the tree grow, and gets through only with the folder there. -/
structure Makes (t : FileTree) (p : Path) (result : Except FileError Unit × FileTree) : Prop where
  grows : t.Grows result.2
  there : result.1 = .ok () → result.2.isFolder p = .ok true

theorem makes_of_makeFolder {t after : FileTree} {p : Path} (make : t.makeFolder p = .ok after) :
    t.Makes p (.ok (), after) :=
  ⟨(makeFolder_ok make).1, fun _ => (makeFolder_ok make).2⟩

theorem makes_error {t after : FileTree} (grows : t.Grows after) (p : Path) (e : FileError) :
    t.Makes p (.error e, after) := ⟨grows, nofun⟩

theorem makes_orFolder (t : FileTree) (p : Path) (e : FileError) :
    t.Makes p (makeFolders.orFolder t p e) := by
  unfold makeFolders.orFolder
  split
  · next isThere look =>
    refine ⟨.refl t, fun through => ?_⟩
    cases isThere with
    | true => exact look
    | false => cases through
  · exact makes_error (.refl t) p _

theorem makes_go (room : Nat) (t : FileTree) (p : Path) :
    t.Makes p (makeFolders.go room t p) := by
  induction room generalizing p with
  | zero =>
    unfold makeFolders.go
    split
    · next make => exact makes_of_makeFolder make
    · split <;> exact makes_error (.refl t) p _
    · exact makes_orFolder t p _
  | succ room ih =>
    unfold makeFolders.go
    split
    · next make => exact makes_of_makeFolder make
    · split
      · exact makes_error (.refl t) p _
      dsimp only
      have parent := ih p.parent
      split
      · next e after made =>
        rw [made] at parent
        exact makes_error parent.grows p e
      · next after made =>
        rw [made] at parent
        split
        · next make =>
          have own := makes_of_makeFolder make
          exact ⟨parent.grows.trans own.grows, own.there⟩
        · next e _ =>
          have own := makes_orFolder after p e
          exact ⟨parent.grows.trans own.grows, own.there⟩
    · exact makes_orFolder t p _

theorem makes_makeFolders (t : FileTree) (p : Path) : t.Makes p (t.makeFolders p) :=
  makes_go t.room.making t p

/-- Folders that could be made are there, and no file has changed. -/
theorem makeFolders_ok {t after : FileTree} {p : Path} (make : t.makeFolders p = (.ok (), after)) :
    t.Grows after ∧ after.isFolder p = .ok true := by
  have makes := makes_makeFolders t p
  rw [make] at makes
  exact ⟨makes.grows, makes.there rfl⟩

/-- A folder that is there is not made again. -/
theorem makeFolders_again {t : FileTree} {p : Path} (there : t.isFolder p = .ok true) :
    t.makeFolders p = (.ok (), t) := by
  obtain ⟨l, time, locate, folder⟩ := isFolder_iff.mp there
  have fails : t.makeFolder p = .error (.refused .alreadyThere p) := by
    rw [makeFolder, locate]
    dsimp only [bind, Except.bind]
    rw [folder]
    rfl
  unfold makeFolders makeFolders.go
  rw [fails]
  dsimp only
  rw [makeFolders.orFolder, there]
  rfl

end ScriptLexer.FileTree
