import ScriptLexer.Files.Tree

/-
  What writing a file does to a tree. The file at the path holds what was written, every other file
  is as it was (`write_ok`), and paths that lead through folders lead where they led before
  (`locate_of_folders`).
-/

namespace ScriptLexer.FileTree

/-! ## Entries -/

theorem lookup_filter_ne {l m : Location} (other : m ≠ l) (entries : List (Location × Entry)) :
    (entries.filter (·.1 != l)).lookup m = entries.lookup m := by
  induction entries with
  | nil => rfl
  | cons entry entries ih =>
    obtain ⟨k, e⟩ := entry
    by_cases here : k = l
    · subst here
      rw [List.filter_cons_of_neg (by simp), List.lookup_cons, ih, beq_false_of_ne other]
    · rw [List.filter_cons_of_pos (by simpa using here), List.lookup_cons, List.lookup_cons, ih]

theorem entry?_set_self (t : FileTree) (l : Location) (e : Entry) :
    entry? (t.set l e) l = some e := by
  unfold entry? set
  exact List.lookup_cons_self

theorem entry?_set_of_ne {l m : Location} (other : m ≠ l) (t : FileTree) (e : Entry) :
    entry? (t.set l e) m = t.entry? m := by
  unfold entry? set
  rw [List.lookup_cons, beq_false_of_ne other]
  exact lookup_filter_ne other t.entries

/-- Marking a folder as modified changes the time of a folder and nothing else. -/
theorem entry?_touchFolder (t : FileTree) (l m : Location) :
    entry? (t.touchFolder l) m = t.entry? m ∨
      ∃ time, t.entry? m = some (.folder time) ∧
        entry? (t.touchFolder l) m = some (.folder t.clock) := by
  unfold touchFolder
  split
  · next time there =>
    by_cases here : m = l
    · subst here
      exact Or.inr ⟨time, there, entry?_set_self t m _⟩
    · exact Or.inl (entry?_set_of_ne here t _)
  · exact Or.inl rfl

/-! ## What stays -/

/-- No change touches the working folder, the limits on what may be done, and the room for calls. -/
structure Stays (t after : FileTree) : Prop where
  home : after.home = t.home
  limits : after.limits = t.limits
  room : after.room = t.room

theorem Stays.refl (t : FileTree) : t.Stays t := ⟨rfl, rfl, rfl⟩

theorem Stays.symm {t after : FileTree} (stays : t.Stays after) : after.Stays t :=
  ⟨stays.home.symm, stays.limits.symm, stays.room.symm⟩

theorem Stays.trans {t u v : FileTree} (first : t.Stays u) (second : u.Stays v) : t.Stays v :=
  ⟨second.home.trans first.home, second.limits.trans first.limits, second.room.trans first.room⟩

theorem Stays.access {t after : FileTree} (stays : t.Stays after) (l : Location) :
    after.access l = t.access l := by
  rw [FileTree.access, FileTree.access, stays.limits]

theorem stays_touchFolder (t : FileTree) (l : Location) : t.Stays (t.touchFolder l) := by
  unfold touchFolder
  split <;> exact ⟨rfl, rfl, rfl⟩

theorem stays_create (t : FileTree) (l : Location) (e : Entry) : t.Stays (t.create l e) := by
  have touched := stays_touchFolder (t.set l e) l.dropLast
  exact ⟨touched.home, touched.limits, touched.room⟩

/-! ## Files and folders -/

/-- The folders of one tree are folders of another. -/
def KeepsFolders (t after : FileTree) : Prop :=
  ∀ l time, t.entry? l = some (.folder time) → ∃ time', after.entry? l = some (.folder time')

/-- A file is put at a location, and no other file changes. -/
structure Puts (t after : FileTree) (l : Location) (content : List UInt8) : Prop where
  stays : t.Stays after
  there : ∃ time, after.entry? l = some (.file content time)
  other : ∀ m, m ≠ l → after.content? m = t.content? m
  folders : t.KeepsFolders after

theorem content?_eq_some_iff {t : FileTree} {l : Location} {content : List UInt8} :
    t.content? l = some content ↔ ∃ time, t.entry? l = some (.file content time) := by
  rw [content?]
  split
  · next there => simp [there]
  · next other => exact iff_of_false nofun fun ⟨time, there⟩ => other content time there

theorem content?_congr {t after : FileTree} {l : Location}
    (same : after.entry? l = t.entry? l) : after.content? l = t.content? l := by
  rw [content?, content?, same]

theorem content?_touchFolder (t : FileTree) (l m : Location) :
    (t.touchFolder l).content? m = t.content? m := by
  rcases entry?_touchFolder t l m with same | ⟨time, before, after⟩
  · exact content?_congr same
  · rw [content?, content?, before, after]

theorem keepsFolders_set {t : FileTree} {l : Location} (e : Entry)
    (free : ∀ time, t.entry? l ≠ some (.folder time)) : t.KeepsFolders (t.set l e) := by
  intro m time there
  have other : m ≠ l := fun here => free time (here ▸ there)
  exact ⟨time, (entry?_set_of_ne other t e).trans there⟩

theorem puts_set {t : FileTree} {l : Location} (content : List UInt8) (time : Int)
    (free : ∀ time, t.entry? l ≠ some (.folder time)) :
    t.Puts (t.set l (.file content time)) l content where
  stays := ⟨rfl, rfl, rfl⟩
  there := ⟨time, entry?_set_self t l _⟩
  other _ other := content?_congr (entry?_set_of_ne other t _)
  folders := keepsFolders_set _ free

theorem Puts.tick {t after : FileTree} {l : Location} {content : List UInt8}
    (put : t.Puts after l content) : t.Puts after.tick l content :=
  ⟨⟨put.stays.home, put.stays.limits, put.stays.room⟩, put.there, put.other, put.folders⟩

theorem Puts.touchFolder {t after : FileTree} {l : Location} {content : List UInt8}
    (put : t.Puts after l content) (m : Location) : t.Puts (after.touchFolder m) l content where
  stays := put.stays.trans (stays_touchFolder after m)
  there := by
    obtain ⟨time, there⟩ := put.there
    rcases entry?_touchFolder after m l with same | ⟨time', folder, -⟩
    · exact ⟨time, same.trans there⟩
    · rw [there] at folder
      cases folder
  other k other := (content?_touchFolder after m k).trans (put.other k other)
  folders k time there := by
    obtain ⟨time', there⟩ := put.folders k time there
    rcases entry?_touchFolder after m k with same | ⟨-, -, folder⟩
    · exact ⟨time', same.trans there⟩
    · exact ⟨_, folder⟩

theorem puts_create {t : FileTree} {l : Location} (content : List UInt8) (time : Int)
    (free : ∀ time, t.entry? l ≠ some (.folder time)) :
    t.Puts (t.create l (.file content time)) l content :=
  ((puts_set content time free).touchFolder l.dropLast).tick

/-! ## Paths -/

section Paths

variable {t after : FileTree} (stays : t.Stays after) (keeps : t.KeepsFolders after)

include stays keeps

theorem walk_of_keepsFolders {l m : Location} {parts : List FileName}
    (walk : t.walk l parts = .ok m) : after.walk l parts = .ok m := by
  induction parts generalizing l with
  | nil => exact walk
  | cons part parts ih =>
    rw [FileTree.walk] at walk ⊢
    split at walk
    · next time folder =>
      obtain ⟨time', folder'⟩ := keeps l time folder
      rw [folder']
      dsimp only
      rw [stays.access]
      split at walk
      · next allowed =>
        rw [if_pos allowed]
        split at walk
        · contradiction
        · next short =>
          rw [if_neg short]
          exact ih walk
      · contradiction
    · contradiction
    · contradiction

theorem locate_of_keepsFolders {p : Path} {l : Location} (locate : t.locate p = .ok l) :
    after.locate p = .ok l := by
  unfold FileTree.locate at locate ⊢
  rw [stays.home]
  split at locate
  · contradiction
  next clean =>
  split at locate
  · contradiction
  next short =>
  split at locate
  · next m walk =>
    rw [if_neg clean, if_neg short, walk_of_keepsFolders stays keeps walk]
    exact locate
  · contradiction

end Paths

theorem find_eq {t : FileTree} {p : Path} {l : Location} (locate : t.locate p = .ok l) :
    t.find p = match t.entry? l with
      | some e => .ok e
      | none => .error (.refused .notFound p) := by
  rw [find, locate]
  rfl

/-- What the file at a path holds. -/
def held? (t : FileTree) (p : Path) : Option (List UInt8) := (t.locate p).toOption.bind t.content?

theorem held?_eq {t : FileTree} {p : Path} {l : Location} (locate : t.locate p = .ok l) :
    t.held? p = t.content? l := by
  rw [held?, locate]
  rfl

theorem held?_eq_some_iff {t : FileTree} {p : Path} {content : List UInt8} :
    t.held? p = some content ↔ ∃ l, t.locate p = .ok l ∧ t.content? l = some content := by
  cases locate : t.locate p with
  | error e =>
    rw [held?, locate]
    exact iff_of_false nofun (by rintro ⟨l, ⟨⟩, -⟩)
  | ok l => simp [held?_eq locate]

/-- A file is read where its content lies, if it may be. -/
theorem read_eq_ok_iff {t : FileTree} {p : Path} {content : List UInt8} :
    t.read p = .ok content ↔
      ∃ l, t.locate p = .ok l ∧ (t.access l).read = true ∧ t.content? l = some content := by
  cases locate : t.locate p with
  | error e =>
    have fails : t.read p = .error e := by rw [read, locate]; rfl
    simp [fails]
  | ok l =>
    have there : t.read p = .ok content ↔
        (t.access l).read = true ∧ t.content? l = some content := by
      rw [read, locate, content?]
      dsimp only [bind, Except.bind]
      cases t.entry? l with
      | none => exact ⟨nofun, nofun⟩
      | some e =>
        dsimp only
        by_cases allowed : (t.access l).read = true
        · rw [if_pos allowed]
          cases e with
          | file found _ =>
            exact ⟨fun same => ⟨allowed, congrArg some (Except.ok.inj same)⟩,
              fun both => congrArg Except.ok (Option.some.inj both.2)⟩
          | folder _ => exact ⟨nofun, nofun⟩
        · rw [if_neg allowed]
          exact iff_of_false nofun fun both => allowed both.1
    rw [there]
    simp

theorem held?_of_read {t : FileTree} {p : Path} {content : List UInt8}
    (read : t.read p = .ok content) : t.held? p = some content := by
  obtain ⟨l, locate, -, holds⟩ := read_eq_ok_iff.mp read
  exact held?_eq_some_iff.mpr ⟨l, locate, holds⟩

/-- Writing a file puts it where its path leads. -/
theorem write_ok {t after : FileTree} {p : Path} {content : List UInt8}
    (write : t.write p content = .ok after) :
    ∃ l, t.locate p = .ok l ∧ t.Puts after l content := by
  unfold FileTree.write at write
  cases locate : t.locate p with
  | error e =>
    rw [locate] at write
    contradiction
  | ok l =>
    rw [locate] at write
    refine ⟨l, rfl, ?_⟩
    dsimp only [bind, Except.bind] at write
    split at write
    · contradiction
    · next there =>
      split at write
      · obtain rfl := Except.ok.inj write
        exact (puts_set content t.clock (by simp [there])).tick
      · contradiction
    · next there =>
      split at write
      · obtain rfl := Except.ok.inj write
        exact puts_create content t.clock (by simp [there])
      · contradiction

/-- A file that holds a text can be given the text again, if it may be written. -/
theorem write_again {t : FileTree} {p : Path} {l : Location} {content : List UInt8}
    (locate : t.locate p = .ok l) (allowed : (t.access l).write = true)
    (holds : t.content? l = some content) :
    ∃ after, t.write p content = .ok after ∧ t.Puts after l content := by
  obtain ⟨time, there⟩ := content?_eq_some_iff.mp holds
  refine ⟨(t.set l (.file content t.clock)).tick, ?_, ?_⟩
  · rw [write, locate]
    dsimp only [bind, Except.bind]
    rw [there]
    exact if_pos allowed
  · exact (puts_set content t.clock (by simp [there])).tick

theorem Puts.content?_self {t after : FileTree} {l : Location} {content : List UInt8}
    (put : t.Puts after l content) : after.content? l = some content :=
  content?_eq_some_iff.mpr put.there

theorem Puts.held?_self {t after : FileTree} {p : Path} {l : Location} {content : List UInt8}
    (put : t.Puts after l content) (locate : t.locate p = .ok l) : after.held? p = some content :=
  held?_eq_some_iff.mpr
    ⟨l, locate_of_keepsFolders put.stays put.folders locate, put.content?_self⟩

theorem Puts.read_other {t after : FileTree} {q : Path} {l : Location}
    {content other : List UInt8} (put : t.Puts after l content) (apart : t.locate q ≠ .ok l)
    (read : t.read q = .ok other) : after.read q = .ok other := by
  obtain ⟨m, locate, allowed, holds⟩ := read_eq_ok_iff.mp read
  have elsewhere : m ≠ l := fun here => apart (here ▸ locate)
  refine read_eq_ok_iff.mpr ⟨m, locate_of_keepsFolders put.stays put.folders locate, ?_, ?_⟩
  · rw [put.stays.access, allowed]
  · rw [put.other m elsewhere, holds]

end ScriptLexer.FileTree
