import Mathlib.Data.List.Basic
import PlatformClient.Config.Location
import PlatformClient.Proofs.CreatedDirectories

namespace PlatformClient.Config

variable {environment : Environment} {files after : Files} {directory : String}

section Choice

/-- The directory in which users keep configurations: the one that is stated, where it is
absolute, else one in their home. One that is stated in another way counts for nothing,
rather than for an error. -/
inductive UserDirectory (environment : Environment) : String → Prop
  | stated {directory : String} (given : environment.userConfigHome = some directory)
      (absolute : directory.toList.head? = some '/') : UserDirectory environment directory
  | ofHome {home : String}
      (unstated : ∀ directory, environment.userConfigHome = some directory →
        directory.toList.head? ≠ some '/')
      (given : environment.home = some home) (filled : home ≠ "") :
      UserDirectory environment (Files.join home ".config")

/-- The directory in which the configuration is to be kept: the choice of the caller, or
without one what the environment states, or without that a directory among those of the
user. An empty text of the environment states nothing, but the choice of the caller is taken
as it is. -/
inductive Chosen (environment : Environment) : String → Prop
  | choice {directory : String} (given : environment.choice = some directory) :
      Chosen environment directory
  | stated {directory : String} (unchosen : environment.choice = none)
      (given : environment.configDirectory = some directory) (filled : directory ≠ "") :
      Chosen environment directory
  | ofUser {base : String} (unchosen : environment.choice = none)
      (unstated : ∀ directory, environment.configDirectory = some directory → directory = "")
      (kept : UserDirectory environment base) : Chosen environment (Files.join base "obsctl")

theorem nonEmpty_eq_some_iff {text : Option String} {value : String} :
    nonEmpty text = some value ↔ text = some value ∧ value ≠ "" := by
  simp [nonEmpty, Option.filter_eq_some_iff]

theorem nonEmpty_eq_none_iff {text : Option String} :
    nonEmpty text = none ↔ ∀ value, text = some value → value = "" := by
  simp [nonEmpty, Option.filter_eq_none_iff]

theorem userDirectory?_eq_some_iff :
    userDirectory? environment = some directory ↔ UserDirectory environment directory := by
  unfold userDirectory?
  cases stated : environment.userConfigHome.filter (·.toList.head? == some '/') with
  | some base =>
    obtain ⟨given, absolute⟩ := Option.filter_eq_some_iff.mp stated
    have absolute := eq_of_beq absolute
    constructor
    · intro same
      exact Option.some.inj same ▸ .stated given absolute
    · intro kept
      cases kept with
      | stated again => exact given.symm.trans again
      | ofHome unstated => exact absurd absolute (unstated base given)
  | none =>
    have unstated : ∀ base, environment.userConfigHome = some base →
        base.toList.head? ≠ some '/' := by
      simpa [Option.filter_eq_none_iff] using stated
    dsimp only
    rw [Option.map_eq_some_iff]
    constructor
    · rintro ⟨home, known, rfl⟩
      obtain ⟨given, filled⟩ := nonEmpty_eq_some_iff.mp known
      exact .ofHome unstated given filled
    · intro kept
      cases kept with
      | stated given absolute => exact absurd absolute (unstated _ given)
      | ofHome _ given filled => exact ⟨_, nonEmpty_eq_some_iff.mpr ⟨given, filled⟩, rfl⟩

theorem directory?_eq_some_iff :
    directory? environment = some directory ↔ Chosen environment directory := by
  unfold directory?
  cases chosen : environment.choice with
  | some choice =>
    constructor
    · intro same
      exact Option.some.inj same ▸ .choice chosen
    · intro found
      cases found with
      | choice given => exact chosen.symm.trans given
      | stated unchosen => cases chosen.symm.trans unchosen
      | ofUser unchosen => cases chosen.symm.trans unchosen
  | none =>
    dsimp only
    cases stated : nonEmpty environment.configDirectory with
    | some base =>
      obtain ⟨given, filled⟩ := nonEmpty_eq_some_iff.mp stated
      constructor
      · intro same
        exact Option.some.inj same ▸ .stated chosen given filled
      · intro found
        cases found with
        | choice given => cases chosen.symm.trans given
        | stated _ again => exact given.symm.trans again
        | ofUser _ unstated => exact absurd (unstated base given) filled
    | none =>
      have unstated := nonEmpty_eq_none_iff.mp stated
      dsimp only
      rw [Option.map_eq_some_iff]
      constructor
      · rintro ⟨base, known, rfl⟩
        exact .ofUser chosen unstated (userDirectory?_eq_some_iff.mp known)
      · intro found
        cases found with
        | choice given => cases chosen.symm.trans given
        | stated _ given filled => exact absurd (unstated _ given) filled
        | ofUser _ _ kept => exact ⟨_, userDirectory?_eq_some_iff.mpr kept, rfl⟩

theorem Chosen.unique {other : String} (chosen : Chosen environment directory)
    (again : Chosen environment other) : other = directory :=
  Option.some.inj ((directory?_eq_some_iff.mpr again).symm.trans (directory?_eq_some_iff.mpr chosen))

end Choice

section Creation

theorem ensureDirectory_of_contains (there : files.contains directory = true) :
    ensureDirectory files directory = (files, .ok directory) := by
  rw [ensureDirectory, if_pos there]

/-- What is missing is created with what is missing above it, and there is success if that
is possible. Of the reason why it is not, nothing is kept. -/
theorem ensureDirectory_of_missing (missing : files.contains directory = false) :
    ensureDirectory files directory = ((files.createDirectories directory).1,
      match (files.createDirectories directory).2 with
      | .ok () => .ok directory
      | .error _ => .error (.uncreated directory)) := by
  rw [ensureDirectory, if_neg (Bool.eq_false_iff.mp missing)]
  rcases files.createDirectories directory with ⟨made, fault | _⟩ <;> rfl

theorem ensureDirectory_ends (files : Files) (directory : String) :
    (ensureDirectory files directory).2 = .ok directory ∨
      (ensureDirectory files directory).2 = .error (.uncreated directory) := by
  by_cases there : files.contains directory = true
  · exact Or.inl (congrArg Prod.snd (ensureDirectory_of_contains there))
  · rw [ensureDirectory_of_missing (Bool.eq_false_iff.mpr there)]
    dsimp only
    cases (files.createDirectories directory).2 with
    | error fault => exact Or.inr rfl
    | ok done => exact Or.inl rfl

theorem grownBy_ensureDirectory (files : Files) (directory : String) :
    files.GrownBy (directory :: Files.ancestors directory) (ensureDirectory files directory).1 := by
  by_cases there : files.contains directory = true
  · rw [ensureDirectory_of_contains there]
    exact .refl files _
  · rw [ensureDirectory_of_missing (Bool.eq_false_iff.mpr there)]
    exact Files.grownBy_createDirectories files directory

theorem ensureDirectory_ok_iff_created (missing : files.contains directory = false) :
    (ensureDirectory files directory).2 = .ok directory ↔
      (files.createDirectories directory).2 = .ok () := by
  rw [ensureDirectory_of_missing missing]
  dsimp only
  cases (files.createDirectories directory).2 with
  | error fault => exact iff_of_false nofun nofun
  | ok done => exact iff_of_true rfl rfl

/-- What was missing is found exactly where it is a directory now, or has no name. What was
there is found in any case, and nothing is known of it, which is why it is left out here. -/
theorem ensureDirectory_ok_iff (missing : files.contains directory = false) :
    (ensureDirectory files directory).2 = .ok directory ↔
      directory = "" ∨ (ensureDirectory files directory).1.isDirectory directory = true := by
  rw [ensureDirectory_ok_iff_created missing, Files.createDirectories_ok_iff,
    ensureDirectory_of_missing missing]

/-- A directory that has been found is found again, as it is. Creation leaves something at
the path, so the second time there is nothing to create; for the empty path there is nothing
either time. -/
theorem ensureDirectory_again (success : (ensureDirectory files directory).2 = .ok directory) :
    ensureDirectory (ensureDirectory files directory).1 directory =
      ((ensureDirectory files directory).1, .ok directory) := by
  by_cases there : files.contains directory = true
  · rw [ensureDirectory_of_contains there, ensureDirectory_of_contains there]
  · have missing := Bool.eq_false_iff.mpr there
    by_cases filled : directory = ""
    · subst filled
      rw [ensureDirectory_of_missing missing]
      exact ensureDirectory_of_missing missing
    · exact ensureDirectory_of_contains (Files.contains_of_isDirectory
        (((ensureDirectory_ok_iff missing).mp success).resolve_left filled))

theorem findDirectory_of_chosen (chosen : Chosen environment directory) (files : Files) :
    findDirectory environment files = ensureDirectory files directory := by
  rw [findDirectory, directory?_eq_some_iff.mpr chosen]

/-- A directory that is found is the one that is chosen. -/
theorem chosen_of_findDirectory (success : (findDirectory environment files).2 = .ok directory) :
    Chosen environment directory := by
  rw [← directory?_eq_some_iff]
  unfold findDirectory at success
  cases known : directory? environment with
  | none =>
    rw [known] at success
    cases success
  | some other =>
    rw [known] at success
    rcases ensureDirectory_ends files other with found | failed
    · exact congrArg some (Except.ok.inj (found.symm.trans success))
    · cases failed.symm.trans success

end Creation

section Documents

/-- Names under which something is kept in the directory of the configuration. -/
def keptNames : List String := ["config.toml", "logs"]

theorem isEntryName_of_kept {name : String} (kept : name ∈ keptNames) : Files.IsEntryName name := by
  rcases List.mem_pair.mp kept with rfl | rfl
  · exact ⟨⟨by decide, by decide, by decide⟩, by decide, by decide, by decide⟩
  · exact ⟨⟨by decide, by decide, by decide⟩, by decide, by decide, by decide⟩

theorem findDocument_of_found (found : findDirectory environment files = (after, .ok directory)) :
    findDocument environment files = (after, .ok (Files.join directory "config.toml")) := by
  rw [findDocument, found]
  rfl

theorem findLogDirectory_of_found (found : findDirectory environment files = (after, .ok directory))
    {path : String} (success : (findLogDirectory environment files).2 = .ok path) :
    path = Files.join directory "logs" ∧
      (findLogDirectory environment files).1.isDirectory path = true := by
  unfold findLogDirectory at success ⊢
  rw [found] at success ⊢
  dsimp only at success ⊢
  have filled : Files.join directory "logs" ≠ "" := Files.join_ne_empty (by decide)
  have created : (after.createDirectories (Files.join directory "logs")).2 = .ok () →
      (after.createDirectories (Files.join directory "logs")).1.isDirectory
        (Files.join directory "logs") = true := Files.isDirectory_of_createDirectories filled
  rcases made : after.createDirectories (Files.join directory "logs") with ⟨grown, fault | _⟩
  · rw [made] at success
    cases success
  · rw [made] at success created
    cases success
    exact ⟨rfl, created rfl⟩

end Documents

/-- What finding the directory of the configuration comes to, where it is this one that is
chosen. The fields tell it by what lay at the path before: something, nothing, a free place
under a directory, or an obstacle on the way. -/
structure Resolved (environment : Environment) (files : Files) (directory : String) (after : Files)
    (result : Except LocationError String) : Prop where
  /-- Nothing is chosen in its place. -/
  ends : result = .ok directory ∨ result = .error (.uncreated directory)
  there : files.contains directory = true → after = files ∧ result = .ok directory
  missing : files.contains directory = false → after = (files.createDirectories directory).1 ∧
    (result = .ok directory ↔ (files.createDirectories directory).2 = .ok ())
  free : ∀ location slash, files.locate directory = .ok (.free location, slash) →
    after = files.put location .directory ∧ result = .ok directory
  /-- What is in the way stays there. -/
  obstructed : ∀ fault, files.locate directory = .error fault → fault ≠ .missing →
    after = files ∧ result = .error (.uncreated directory)
  /-- It fails exactly where there is no directory afterwards. -/
  uncreated : directory ≠ "" → files.contains directory = false →
    (result = .error (.uncreated directory) ↔ after.isDirectory directory = false)
  /-- Whatever the result is, nothing is new but directories that were missing on the way. -/
  grown : files.GrownBy (directory :: Files.ancestors directory) after
  again : result = .ok directory → findDirectory environment after = (after, .ok directory)
  document : result = .ok directory →
    findDocument environment after = (after, .ok (Files.join directory "config.toml"))
  logs : result = .ok directory → ∀ path, (findLogDirectory environment after).2 = .ok path →
    path = Files.join directory "logs" ∧
      (findLogDirectory environment after).1.isDirectory path = true
  /-- What is joined to a directory leads to a place in it. -/
  inside : ∀ name ∈ keptNames, ∀ location, after.find directory = .ok (location, .directory) →
    (Files.join directory name).utf8ByteSize ≤ Files.pathLimit →
    after.locate (Files.join directory name) = .ok (after.meet (location ++ [name]), false)

theorem resolved_of_chosen (chosen : Chosen environment directory) (files : Files) :
    Resolved environment files directory (ensureDirectory files directory).1
      (ensureDirectory files directory).2 := by
  have again : (ensureDirectory files directory).2 = .ok directory →
      findDirectory environment (ensureDirectory files directory).1 =
        ((ensureDirectory files directory).1, .ok directory) := by
    intro success
    rw [findDirectory_of_chosen chosen]
    exact ensureDirectory_again success
  exact {
    ends := ensureDirectory_ends files directory
    there := fun there => by
      rw [ensureDirectory_of_contains there]
      exact ⟨rfl, rfl⟩
    missing := fun missing => by
      refine ⟨?_, ensureDirectory_ok_iff_created missing⟩
      rw [ensureDirectory_of_missing missing]
    free := fun location slash leads => by
      rw [ensureDirectory_of_missing (Files.contains_eq_false_of_free leads),
        Files.createDirectories_of_free leads]
      exact ⟨rfl, rfl⟩
    obstructed := fun fault leads other => by
      rw [ensureDirectory_of_missing (Files.contains_eq_false_of_fault leads),
        Files.createDirectories_of_fault leads other]
      exact ⟨rfl, rfl⟩
    uncreated := fun filled missing => by
      have found := ensureDirectory_ok_iff missing
      rw [or_iff_right filled] at found
      rw [← Bool.not_eq_true, ← found]
      rcases ensureDirectory_ends files directory with success | failed
      · rw [success]
        exact iff_of_false nofun (not_not_intro rfl)
      · rw [failed]
        exact iff_of_true rfl nofun
    grown := grownBy_ensureDirectory files directory
    again := again
    document := fun success => findDocument_of_found (again success)
    logs := fun success path named => findLogDirectory_of_found (again success) named
    inside := fun name kept location found fits =>
      Files.locate_join found (isEntryName_of_kept kept) fits }

/-- One directory is chosen, and found or not without another being tried, or none is and
nothing is done. The choice depends on the environment alone and what comes of it on the
files alone, so the two halves are proved apart. -/
theorem findDirectory_outcome (environment : Environment) (files : Files) :
    (∃ directory, Chosen environment directory ∧
        (∀ other, Chosen environment other → other = directory) ∧
        Resolved environment files directory (findDirectory environment files).1
          (findDirectory environment files).2) ∨
      ((∀ directory, ¬ Chosen environment directory) ∧
        findDirectory environment files = (files, .error .unknown)) := by
  cases known : directory? environment with
  | some directory =>
    have chosen := directory?_eq_some_iff.mp known
    refine Or.inl ⟨directory, chosen, fun other => chosen.unique, ?_⟩
    rw [findDirectory_of_chosen chosen]
    exact resolved_of_chosen chosen files
  | none =>
    refine Or.inr ⟨fun directory chosen => ?_, ?_⟩
    · cases known.symm.trans (directory?_eq_some_iff.mpr chosen)
    · rw [findDirectory, known]

example :
    (findDirectory { configDirectory := some "", userConfigHome := some "cfg", home := some "home" }
      (Files.emptyAt ["work"])).2 = .ok "home/.config/obsctl" := by
  decide +kernel

section Postcondition

/-- What is known of a directory that has been found, without assuming that it is one. -/
structure FoundDirectory (environment : Environment) (files : Files) (directory : String)
    (after : Files) : Prop where
  /-- It is one, unless a file was under its path before, or the path is empty. -/
  directory_iff : after.isDirectory directory = true ↔
    directory ≠ "" ∧ ∀ location content, files.find directory ≠ .ok (location, .file content)
  inside : after.isDirectory directory = true →
    (Files.join directory "config.toml").utf8ByteSize ≤ Files.pathLimit →
    ∃ location, after.find directory = .ok (location, .directory) ∧
      after.locate (Files.join directory "config.toml") =
        .ok (after.meet (location ++ ["config.toml"]), false)
  /-- The file stays, and nothing can be kept inside it. -/
  of_file : ∀ location content, files.find directory = .ok (location, .file content) →
    after = files ∧ ∃ fault, after.locate (Files.join directory "config.toml") = .error fault
  /-- Only a caller can choose the empty path. -/
  of_empty : directory = "" → environment.choice = some "" ∧ after = files ∧
    after.contains directory = false

theorem ensureDirectory_empty (files : Files) : ensureDirectory files "" = (files, .ok "") :=
  ensureDirectory_of_missing (Files.contains_eq_false_of_fault files.locate_empty)

/-- What is there is not looked at any further, so a file passes. What has been made is a
directory for sure. -/
theorem isDirectory_ensureDirectory_iff
    (success : (ensureDirectory files directory).2 = .ok directory) :
    (ensureDirectory files directory).1.isDirectory directory = true ↔
      directory ≠ "" ∧ ∀ location content, files.find directory ≠ .ok (location, .file content) := by
  by_cases there : files.contains directory = true
  · obtain ⟨⟨location, entry⟩, found⟩ := Files.contains_iff.mp there
    have filled : directory ≠ "" := by
      rintro rfl
      cases there
    rw [ensureDirectory_of_contains there, Files.isDirectory_iff, found]
    cases entry with
    | directory => exact iff_of_true ⟨location, rfl⟩ ⟨filled, fun _ _ => nofun⟩
    | file content =>
      exact iff_of_false (fun ⟨_, same⟩ => nomatch same) fun ⟨_, free⟩ => free location content rfl
  · have missing := Bool.eq_false_iff.mpr there
    by_cases filled : directory = ""
    · subst filled
      rw [ensureDirectory_empty]
      exact iff_of_false nofun fun ⟨other, _⟩ => other rfl
    · have made := ((ensureDirectory_ok_iff missing).mp success).resolve_left filled
      refine iff_of_true made ⟨filled, ?_⟩
      exact fun location content found => there (Files.contains_iff.mpr ⟨_, found⟩)

theorem Chosen.choice_of_empty (chosen : Chosen environment "") : environment.choice = some "" := by
  generalize named : "" = directory at chosen
  cases chosen with
  | choice given => exact named ▸ given
  | stated _ _ filled => exact absurd named.symm filled
  | ofUser => exact absurd named.symm (Files.join_ne_empty (by decide))

/-- What has been found is a directory, unless it was a file before or has no name. In both
cases the files are as they were, and no document can be kept under the path that is
answered. -/
theorem foundDirectory_of_findDirectory
    (found : findDirectory environment files = (after, .ok directory)) :
    FoundDirectory environment files directory after := by
  have chosen := chosen_of_findDirectory (congrArg Prod.snd found)
  rw [findDirectory_of_chosen chosen] at found
  have success : (ensureDirectory files directory).2 = .ok directory := congrArg Prod.snd found
  have run : (ensureDirectory files directory).1 = after := congrArg Prod.fst found
  subst run
  refine ⟨isDirectory_ensureDirectory_iff success, ?_, ?_, ?_⟩
  · intro is_directory fits
    obtain ⟨location, leads⟩ := Files.isDirectory_iff.mp is_directory
    exact ⟨location, leads, Files.locate_join leads (isEntryName_of_kept (by decide)) fits⟩
  · intro location content leads
    rw [ensureDirectory_of_contains (Files.contains_iff.mpr ⟨_, leads⟩)]
    exact ⟨rfl, Files.locate_join_file leads (isEntryName_of_kept (by decide))⟩
  · rintro rfl
    rw [ensureDirectory_empty]
    exact ⟨chosen.choice_of_empty, rfl, Files.contains_eq_false_of_fault files.locate_empty⟩

theorem foundDirectory_of_missing :
    findDirectory { choice := some "cfg" } (Files.emptyAt ["work"]) =
        ((Files.emptyAt ["work"]).put ["work", "cfg"] .directory, .ok "cfg") ∧
      FoundDirectory { choice := some "cfg" } (Files.emptyAt ["work"]) "cfg"
        ((Files.emptyAt ["work"]).put ["work", "cfg"] .directory) := by
  have found : findDirectory { choice := some "cfg" } (Files.emptyAt ["work"]) =
      ((Files.emptyAt ["work"]).put ["work", "cfg"] .directory, .ok "cfg") := by
    decide +kernel
  exact ⟨found, foundDirectory_of_findDirectory found⟩

/-- Working directory with a file of one byte at the path that is chosen. -/
def obstructedFiles : Files := (Files.emptyAt ["work"]).put ["work", "cfg"] (.file [120])

/-- A file is found in place of a directory, and taken for one, though no document can be inside
it. Only the search for logs fails. -/
theorem findDirectory_of_file :
    findDirectory { choice := some "cfg" } obstructedFiles = (obstructedFiles, .ok "cfg") ∧
      obstructedFiles.isDirectory "cfg" = false ∧
      findDocument { choice := some "cfg" } obstructedFiles =
        (obstructedFiles, .ok "cfg/config.toml") ∧
      obstructedFiles.locate "cfg/config.toml" = .error .notDirectory ∧
      findLogDirectory { choice := some "cfg" } obstructedFiles =
        (obstructedFiles, .error .logDirectory) := by
  decide +kernel

end Postcondition

end PlatformClient.Config
