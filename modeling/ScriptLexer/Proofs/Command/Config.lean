import ScriptLexer.Command.Config
import ScriptLexer.Proofs.Files.Folders

/-
  Configuration files. The failures of a configuration are those of the file at its path
  (`FileTree.config_error_iff`). A tree that grows without a change to that file has the same
  configuration (`FileTree.config_kept`); in a folder that is there, the file is missing before
  and after (`FileTree.missing_kept`).
-/

namespace ScriptLexer

namespace FileTree

/-! ## Failures of reading -/

theorem isFile_iff {t : FileTree} {p : Path} :
    t.isFile p = .ok true ↔ ∃ content, t.held? p = some content := by
  simp only [held?_eq_some_iff, content?_eq_some_iff]
  unfold FileTree.isFile leadsTo
  cases locate : t.locate p with
  | error e =>
    have find : t.find p = .error e := by rw [FileTree.find, locate]; rfl
    rw [find]
    cases e with
    | nulInPath | listingTooDeep | makingTooDeep => simp
    | refused fault q => cases fault <;> simp
  | ok l =>
    rw [find_eq locate]
    cases there : t.entry? l with
    | none => simp [there]
    | some e => cases e <;> simp [there, Entry.isFile]

theorem isFile_of_read {t : FileTree} {p : Path} {bytes : List UInt8}
    (read : t.read p = .ok bytes) : t.isFile p = .ok true :=
  isFile_iff.mpr ⟨bytes, held?_of_read read⟩

/-- A file is read, unless it may not be. -/
theorem read_eq {t : FileTree} {p : Path} {l : Location} (locate : t.locate p = .ok l) :
    t.read p = match t.entry? l with
      | none => .error (.refused .notFound p)
      | some e =>
        if (t.access l).read then
          match e with
          | .file content _ => .ok content
          | .folder _ => .error (.refused .isFolder p)
        else .error (.refused .denied p) := by
  rw [read, locate]
  rfl

/-- Only a path with the character that ends names cannot be handed to the system. -/
theorem locate_error {t : FileTree} {p : Path} {e : FileError} (locate : t.locate p = .error e) :
    (∃ fault, e = .refused fault p ∧ p.hasNul = false) ∨ e = .nulInPath ∧ p.hasNul = true := by
  unfold FileTree.locate at locate
  split at locate
  · next nul =>
    cases locate
    exact .inr ⟨rfl, nul⟩
  next clean =>
  rw [Bool.not_eq_true] at clean
  split at locate
  · cases locate
    exact .inl ⟨_, rfl, clean⟩
  split at locate
  · cases locate
  · cases locate
    exact .inl ⟨_, rfl, clean⟩

theorem read_error {t : FileTree} {p : Path} {e : FileError} (read : t.read p = .error e) :
    (∃ fault, e = .refused fault p ∧ p.hasNul = false) ∨ e = .nulInPath ∧ p.hasNul = true := by
  cases locate : t.locate p with
  | error e' =>
    rw [FileTree.read, locate] at read
    cases read
    exact locate_error locate
  | ok l =>
    have clean := (locate_eq_ok_iff.mp locate).1
    refine .inl ?_
    rw [read_eq locate] at read
    split at read
    · cases read
      exact ⟨_, rfl, clean⟩
    split at read
    · split at read
      · cases read
      · cases read
        exact ⟨_, rfl, clean⟩
    · cases read
      exact ⟨_, rfl, clean⟩

theorem read_eq_nulInPath_iff {t : FileTree} {p : Path} :
    t.read p = .error .nulInPath ↔ p.hasNul = true := by
  constructor
  · intro fails
    rcases read_error fails with ⟨_, ⟨⟩, -⟩ | ⟨-, nul⟩
    exact nul
  · intro nul
    have locate : t.locate p = .error .nulInPath := if_pos nul
    rw [read, locate]
    rfl

/-- What makes a text unreadable besides the system and its bytes. -/
theorem not_isUnreadable_iff {t : FileTree} {p : Path} {e : Failure}
    (read : t.readText p = .error e) :
    e.isUnreadable = false ↔ e = .file .nulInPath ∧ p.hasNul = true := by
  unfold readText at read
  split at read
  · next fault fails =>
    cases read
    rcases read_error fails with ⟨_, rfl, -⟩ | ⟨rfl, nul⟩
    · exact iff_of_false (by exact nofun) (by rintro ⟨⟨⟩, -⟩)
    · exact iff_of_true rfl ⟨rfl, nul⟩
  · next bytes _ =>
    split at read
    · cases read
      exact iff_of_false (by exact nofun) (by rintro ⟨⟨⟩, -⟩)
    · cases read

/-! ## Failures of a configuration -/

/-- Where a configuration is looked for. -/
def configPath (given : Option Path) (folder : Path) : Path :=
  given.getD (folder.join (Path.ofText configName))

/-- What can be wrong with the file at the path of a configuration. -/
inductive ConfigFails (t : FileTree) (path : Path) : Failure → Prop
  | path {e : FileError} (look : t.isFile path = .error e) : ConfigFails t path (.file e)
  | barred {e : FileError} (look : t.isFile path = .ok true) (read : t.read path = .error e) :
    ConfigFails t path (.file e)
  | bytes {bytes : List UInt8} {e : Utf8.Error} (read : t.read path = .ok bytes)
    (decode : Utf8.decode bytes = .error e) : ConfigFails t path (.encoding e)
  | text {bytes : List UInt8} {text : List Char} {fault : TomlFault}
    (read : t.read path = .ok bytes) (decode : Utf8.decode bytes = .ok text)
    (parse : Toml.read t.room.config text = .error fault) : ConfigFails t path (.config fault)

theorem config_error_iff {t : FileTree} {given : Option Path} {folder : Path} {e : Failure} :
    t.config given folder = .error e ↔ t.ConfigFails (configPath given folder) e := by
  unfold FileTree.config configPath
  dsimp only
  generalize given.getD _ = path
  constructor
  · intro fails
    split at fails
    · next look =>
      cases fails
      exact .path look
    · cases fails
    next look =>
    split at fails
    · next read =>
      cases fails
      exact .barred look read
    next bytes read =>
    split at fails
    · next decode =>
      cases fails
      exact .bytes read decode
    next decode =>
    split at fails
    · next parse =>
      cases fails
      exact .text read decode parse
    · cases fails
  · intro fails
    cases fails with
    | path look => simp only [look]
    | barred look read => simp only [look, read]
    | bytes read decode => simp only [isFile_of_read read, read, decode]
    | text read decode parse => simp only [isFile_of_read read, read, decode, parse]

/-! ## Configurations that stay -/

variable {t after : FileTree} {p : Path}

theorem isFile_of_locate {l : Location} (locate : t.locate p = .ok l) :
    t.isFile p = .ok (t.content? l).isSome := by
  rw [isFile, leadsTo, find_eq locate, content?]
  cases t.entry? l with
  | none => rfl
  | some e => cases e <;> rfl

/-- A configuration stays if its file does, or stays missing. -/
theorem config_kept {given : Option Path} {folder : Path} {config : Toml}
    (stays : t.Stays after) (keeps : t.KeepsFolders after)
    (same : ∀ l, after.locate (configPath given folder) = .ok l → after.content? l = t.content? l)
    (missing : t.isFile (configPath given folder) = .ok false →
      after.isFile (configPath given folder) = .ok false)
    (configured : t.config given folder = .ok config) : after.config given folder = .ok config := by
  unfold FileTree.config at configured ⊢
  dsimp only at configured ⊢
  rw [show given.getD _ = configPath given folder from rfl] at configured ⊢
  generalize configPath given folder = path at same missing configured ⊢
  split at configured
  · cases configured
  · next look =>
    rw [missing look]
    exact configured
  split at configured
  · cases configured
  next bytes read =>
  obtain ⟨l, locate, allowed, holds⟩ := read_eq_ok_iff.mp read
  have locate' := locate_of_keepsFolders stays keeps locate
  have read' : after.read path = .ok bytes := read_eq_ok_iff.mpr
    ⟨l, locate', (stays.access l).symm ▸ allowed, (same l locate').trans holds⟩
  rw [isFile_of_read read', read', stays.room]
  exact configured

/-- The path of a name in a folder leads there, or is refused as too long or because the folder is
barred. -/
theorem locate_in_folder {folder : Path} {k : Location} {time : Int} {name : FileName}
    (locate : t.locate folder = .ok k) (there : t.entry? k = some (.folder time))
    (proper : isProper name = true) (short : name.byteSize ≤ Path.nameLimit) :
    t.locate ⟨folder.start, folder.parts ++ [name]⟩ = .ok (k ++ [name]) ∨
      ∃ fault, (fault = .nameTooLong ∨ fault = .denied) ∧
        t.locate ⟨folder.start, folder.parts ++ [name]⟩ =
          .error (.refused fault ⟨folder.start, folder.parts ++ [name]⟩) := by
  obtain ⟨clean, -, walk⟩ := locate_eq_ok_iff.mp locate
  obtain ⟨named, cleanName⟩ := isProper_iff.mp proper
  have clean : Path.hasNul ⟨folder.start, folder.parts ++ [name]⟩ = false := by
    rw [Path.hasNul, List.any_append, show folder.parts.any _ = false from clean, Bool.false_or,
      List.any_cons, List.any_nil, Bool.or_false, cleanName]
  have walk : t.walk (t.origin ⟨folder.start, folder.parts ++ [name]⟩) (folder.parts ++ [name]) =
      if (t.access k).search then .ok (k ++ [name]) else .error .denied := by
    refine (walk_append walk [name]).trans ?_
    rw [FileTree.walk, there]
    dsimp only
    rw [if_neg (Nat.not_lt.mpr short), if_neg named, FileTree.walk]
  by_cases long : Path.isTooLong ⟨folder.start, folder.parts ++ [name]⟩ = true
  · exact .inr ⟨.nameTooLong, .inl rfl, locate_of_isTooLong clean long⟩
  rw [locate_eq clean (Bool.not_eq_true _ ▸ long), walk]
  by_cases allowed : (t.access k).search = true
  · rw [if_pos allowed]
    exact .inl rfl
  · rw [if_neg allowed]
    exact .inr ⟨.denied, .inr rfl, rfl⟩

/-- In a folder that is there, the configuration is missing as long as no file is put in its
place. -/
theorem missing_kept {folder : Path} (there : t.isFolder folder = .ok true)
    (stays : t.Stays after) (keeps : t.KeepsFolders after)
    (same : ∀ l, after.locate (configPath none folder) = .ok l → after.content? l = t.content? l)
    (missing : t.isFile (configPath none folder) = .ok false) :
    after.isFile (configPath none folder) = .ok false := by
  have path : configPath none folder = ⟨folder.start, folder.parts ++ [.ofText configName]⟩ := by
    have named : Path.ofText configName = ⟨.here, [.ofText configName]⟩ := by decide
    rw [configPath, Option.getD_none, named]
    rfl
  obtain ⟨k, time, locate, isFolder⟩ := isFolder_iff.mp there
  have proper : isProper (.ofText configName) = true := by decide
  have short : (FileName.ofText configName).byteSize ≤ Path.nameLimit := by decide
  have leads := locate_in_folder locate isFolder proper short
  rw [← path] at leads
  rcases leads with locate | ⟨fault, refused, locate⟩
  · have locate' := locate_of_keepsFolders stays keeps locate
    rw [isFile_of_locate locate', same _ locate', ← isFile_of_locate locate, missing]
  · have find : t.find (configPath none folder) =
        .error (.refused fault (configPath none folder)) := by
      rw [FileTree.find, locate]
      rfl
    rw [isFile, leadsTo, find] at missing
    rcases refused with rfl | rfl <;> contradiction

end FileTree

end ScriptLexer
