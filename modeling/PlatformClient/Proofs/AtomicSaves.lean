import Mathlib.Data.List.Infix
import PlatformClient.Config.Store
import PlatformClient.Proofs.PathParts

namespace PlatformClient

theorem getLast?_inits {α : Type} (list : List α) : list.inits.getLast? = some list := by
  rcases list.eq_nil_or_concat with rfl | ⟨front, last, rfl⟩
  · rfl
  · rw [List.concat_eq_append, List.inits_append]
    simp

namespace Files

section Directories

/-- The states of the files while a directory and those above it are created. -/
def creating (files : Files) (path : String) : List Files :=
  files :: if path.isEmpty then [] else
    match createLowest files [] (path :: ancestors path) with
    | .error _ => []
    | .ok (made, left) => left.inits.map fun front => (createEach made front).1

theorem creating_getLast? (files : Files) (path : String) :
    (files.creating path).getLast? = some (files.createDirectories path).1 := by
  unfold creating createDirectories
  split_ifs
  · rfl
  · cases createLowest files [] (path :: ancestors path) with
    | error fault => rfl
    | ok found =>
      rw [List.getLast?_cons, List.getLast?_map, getLast?_inits]
      rfl

theorem grownBy_of_creating {files state : Files} {path : String}
    (member : state ∈ files.creating path) : files.GrownBy (path :: ancestors path) state := by
  unfold creating at member
  rcases List.mem_cons.mp member with rfl | member
  · exact .refl _ _
  · split_ifs at member
    · cases member
    · split at member
      · cases member
      · rename_i made left lowest
        obtain ⟨front, start, rfl⟩ := List.mem_map.mp member
        obtain ⟨grown, subset⟩ := grownBy_createLowest lowest
        have among := List.Subset.trans ((List.mem_inits _ _).mp start).subset subset
        exact grown.trans ((grownBy_createEach made front).mono among)

end Directories

section Files

variable {files : Files} {path : String} {location : Location}

theorem write_of_names (names : files.Names path location) (content : Bytes) :
    files.write path content = .ok (files.put location (.file content)) := by
  have file := names.2
  rw [write, names.1, meet]
  cases known : files.entry? location with
  | none => rfl
  | some entry =>
    cases entry with
    | directory => exact absurd known file
    | file old => rfl

theorem find_of_missing (names : files.Names path location)
    (missing : files.entry? location = none) : files.find path = .error .missing := by
  rw [find, names.1, meet, missing]
  rfl

end Files

end Files

namespace Config

/-- The states of the files while a document is written beside the old one and put in its
place. What is in the temporary file may be any beginning of the document. -/
def replacing (files : Files) (path : String) (content : Bytes) : List Files :=
  content.inits.filterMap (fun part => (files.write (temporaryPath path) part).toOption) ++
    match replaceDocument files path content with
    | (_, .error _) => []
    | (replaced, .ok ()) => [replaced]

/-- The states of the files while a configuration is saved. -/
def saving (config : Config) (files : Files) (path : String) : List Files :=
  let above := (Files.parent? path).getD ""
  files.creating above ++
    match files.createDirectories above with
    | (_, .error _) => []
    | (made, .ok ()) => replacing made path (Text.encode config.print)

/-- The directories above a path, and what else there is, before the file itself is written. -/
def prepared (files : Files) (path : String) : Files :=
  (files.createDirectories ((Files.parent? path).getD "")).1

/-- The temporary file for a path is there, or would be. -/
def IsDraft (files : Files) (path : String) (location : Files.Location) : Prop :=
  (prepared files path).Names (temporaryPath path) location

/-- There is at some place what was there before. Where there was nothing, one of the
directories above a path may have been created. -/
def AsBefore (files : Files) (path : String) (after : Files) (location : Files.Location) : Prop :=
  after.entry? location = files.entry? location ∨ files.Gained (Files.ancestors path) after location

section Replacement

variable {files : Files} {path : String}

theorem write_eq_error (unnamed : ∀ location, ¬ files.Names path location) (content : Bytes) :
    ∃ fault, files.write path content = .error fault := by
  cases written : files.write path content with
  | error fault => exact ⟨fault, rfl⟩
  | ok state =>
    obtain ⟨location, names, -⟩ := Files.names_of_write written
    exact absurd names (unnamed location)

/-- Where the temporary file cannot be written, nothing is done. -/
theorem replacing_of_unnamed
    (unnamed : ∀ location, ¬ files.Names (temporaryPath path) location) (content : Bytes) :
    replacing files path content = [] ∧
      replaceDocument files path content = (files, .error .temporaryFile) := by
  obtain ⟨fault, failed⟩ := write_eq_error unnamed content
  have stays : replaceDocument files path content = (files, .error .temporaryFile) := by
    rw [replaceDocument, failed]
  refine ⟨?_, stays⟩
  rw [replacing, stays, List.append_nil, List.filterMap_eq_nil_iff]
  intro part _
  obtain ⟨fault, failed⟩ := write_eq_error unnamed part
  rw [failed]
  rfl

variable {draft : Files.Location}

/-- The temporary file is filled before it is renamed. -/
theorem replacing_of_names (names : files.Names (temporaryPath path) draft) (content : Bytes) :
    replacing files path content =
      content.inits.map (fun part => files.put draft (.file part)) ++
        match replaceDocument files path content with
        | (_, .error _) => []
        | (replaced, .ok ()) => [replaced] := by
  rw [replacing]
  refine congrArg (· ++ _) ?_
  rw [← List.filterMap_eq_map]
  refine List.filterMap_congr fun part _ => ?_
  rw [Files.write_of_names names]
  rfl

/-- The temporary file lies beside the file, under a name of its own. -/
theorem draft_beside {location : Files.Location} (names : files.Names path location)
    (drafted : files.Names (temporaryPath path) draft) :
    ∃ directory name, location = directory ++ [name] ∧
      draft = directory ++ [Files.withEnding name "toml.tmp"] :=
  names.withExtension (by decide) drafted

theorem ne_draft {location : Files.Location} (names : files.Names path location)
    (drafted : files.Names (temporaryPath path) draft) : location ≠ draft := by
  obtain ⟨directory, name, rfl, rfl⟩ := draft_beside names drafted
  intro same
  have ending := (List.append_inj' same rfl).2
  exact Files.withEnding_ne (by decide) (List.cons.inj ending).1.symm

theorem replaceDocument_cases (names : files.Names (temporaryPath path) draft) (content : Bytes) :
    replaceDocument files path content = (files.put draft (.file content), .error .renaming) ∨
      ∃ place, Files.Names (files.put draft (.file content)) path place ∧
        replaceDocument files path content = (files.replaced draft place content, .ok ()) := by
  have written := Files.write_of_names names content
  have drafted := names.put content
  have there : Files.entry? (files.put draft (.file content)) draft = some (.file content) := by
    rw [Files.entryAt_put names.inner, if_pos rfl]
  unfold replaceDocument
  rw [written]
  dsimp only
  cases moved : (files.put draft (.file content)).rename (temporaryPath path) path with
  | error fault => exact Or.inl rfl
  | ok renamed =>
    obtain ⟨place, target, rfl⟩ := Files.names_of_rename drafted there moved
    exact Or.inr ⟨place, target, rfl⟩

end Replacement

/-- The ways that saving can go, with the states of the files on it. Only the last of them
touches the document, and does so by one renaming. -/
inductive SaveCourse (files : Files) (path : String) (content : Bytes) :
    List Files → Files × Except StoreError Unit → Prop
  | unprepared (fault : Files.Fault) :
      SaveCourse files path content [] (prepared files path, .error (.directory fault))
  | undrafted : SaveCourse files path content [] (prepared files path, .error .temporaryFile)
  | unrenamed {draft : Files.Location} (drafted : IsDraft files path draft) :
      SaveCourse files path content
        (content.inits.map fun part => (prepared files path).put draft (.file part))
        ((prepared files path).put draft (.file content), .error .renaming)
  | renamed {draft place : Files.Location} (drafted : IsDraft files path draft)
      (names : Files.Names ((prepared files path).put draft (.file content)) path place) :
      SaveCourse files path content
        (content.inits.map (fun part => (prepared files path).put draft (.file part)) ++
          [(prepared files path).replaced draft place content])
        ((prepared files path).replaced draft place content, .ok ())

/-- Saving goes one of these ways behind the creation of directories. -/
theorem save_course (config : Config) (files : Files) (path : String) :
    ∃ states, config.saving files path =
        files.creating ((Files.parent? path).getD "") ++ states ∧
      SaveCourse files path (Text.encode config.print) states (config.save files path) := by
  refine ⟨_, rfl, ?_⟩
  unfold save
  cases made : files.createDirectories ((Files.parent? path).getD "") with
  | mk state result =>
    obtain rfl : prepared files path = state := congrArg Prod.fst made
    cases result with
    | error fault => exact .unprepared fault
    | ok done =>
      dsimp only
      by_cases drafted : ∃ draft, IsDraft files path draft
      · obtain ⟨draft, drafted⟩ := drafted
        rw [replacing_of_names drafted]
        rcases replaceDocument_cases drafted (Text.encode config.print) with
          failed | ⟨place, names, done⟩
        · rw [failed]
          simpa using SaveCourse.unrenamed drafted
        · rw [done]
          exact .renamed drafted names
      · obtain ⟨silent, failed⟩ :=
          replacing_of_unnamed (not_exists.mp drafted) (Text.encode config.print)
        rw [silent, failed]
        exact .undrafted

/-- What saving a configuration has come to with success. The document is whole, the
temporary file is gone, and everything else is as it was. -/
structure Saved (config : Config) (files : Files) (path : String) (after : Files) : Prop where
  /-- The whole document is in the file. -/
  read : after.read path = .ok (Text.encode config.print)
  /-- There is no temporary file. -/
  cleared : after.find (temporaryPath path) = .error .missing
  others : ∀ location, ¬ after.Names path location → ¬ IsDraft files path location →
    AsBefore files path after location

section Places

variable {files : Files} {path : String}

/-- While the directories above a path are created, everything is as it was. They are made
from above, one at a time, and each of them where there was nothing. -/
theorem grownBy_of_creating_above {state : Files}
    (member : state ∈ files.creating ((Files.parent? path).getD "")) :
    files.GrownBy (Files.ancestors path) state := by
  cases known : Files.parent? path with
  | none =>
    rw [known] at member
    obtain rfl : state = files := by simpa [Files.creating] using member
    exact .refl _ _
  | some parent =>
    rw [known] at member
    rw [Files.ancestors_eq_cons known]
    exact Files.grownBy_of_creating member

theorem grownBy_prepared (files : Files) (path : String) :
    files.GrownBy (Files.ancestors path) (prepared files path) :=
  grownBy_of_creating_above (List.mem_of_getLast? (Files.creating_getLast? _ _))

theorem AsBefore.of_grownBy {state : Files} (grown : files.GrownBy (Files.ancestors path) state)
    (location : Files.Location) : AsBefore files path state location := grown.entries location

/-- What has not changed since the directories were created is as it was. -/
theorem AsBefore.of_prepared {after : Files} {location : Files.Location}
    (kept : (prepared files path).KeepsDirectories after)
    (same : after.entry? location = Files.entry? (prepared files path) location) :
    AsBefore files path after location := by
  unfold AsBefore
  rw [same]
  exact (AsBefore.of_grownBy (grownBy_prepared files path) location).imp_right fun gained =>
    gained.kept kept

/-- No file has come to a place that is as it was. -/
theorem AsBefore.file {after : Files} {location : Files.Location} {content : Bytes}
    (before : AsBefore files path after location)
    (there : after.entry? location = some (.file content)) :
    files.entry? location = some (.file content) := by
  rcases before with same | gained
  · rw [← same, there]
  · cases gained.made.symm.trans there

variable {draft : Files.Location} (drafted : IsDraft files path draft)

include drafted

theorem draft_state (part : Bytes) {location : Files.Location} (other : location ≠ draft) :
    AsBefore files path ((prepared files path).put draft (.file part)) location := by
  refine .of_prepared (Files.keepsDirectories_put drafted.2 part) ?_
  rw [Files.entryAt_put drafted.inner, if_neg other]

section Replaced

variable {place : Files.Location} {content : Bytes}
  (names : Files.Names ((prepared files path).put draft (.file content)) path place)

include names

theorem replaced_keepsDirectories : (prepared files path).KeepsDirectories
    ((prepared files path).replaced draft place content) := by
  refine Files.keepsDirectories_replaced drafted.2 ?_ content
  have free := names.2
  rwa [Files.entryAt_put drafted.inner, if_neg (ne_draft names (drafted.put content))] at free

theorem entryAt_replaced (location : Files.Location) :
    Files.entry? ((prepared files path).replaced draft place content) location =
      if location = place then some (.file content)
      else if location = draft then none else Files.entry? (prepared files path) location :=
  Files.entryAt_replaced drafted.inner names.inner _ _ _

theorem replaced_state {location : Files.Location} (elsewhere : location ≠ place)
    (other : location ≠ draft) :
    AsBefore files path ((prepared files path).replaced draft place content) location := by
  refine .of_prepared (replaced_keepsDirectories drafted names) ?_
  rw [entryAt_replaced drafted names, if_neg elsewhere, if_neg other]

/-- The temporary file has gone. -/
theorem find_draft : Files.find ((prepared files path).replaced draft place content)
    (temporaryPath path) = .error .missing := by
  have gone : Files.entry? ((prepared files path).replaced draft place content) draft = none := by
    have other := ne_draft names (drafted.put content)
    rw [entryAt_replaced drafted names, if_neg other.symm, if_pos rfl]
  refine Files.find_of_missing (drafted.kept (replaced_keepsDirectories drafted names) ?_) gone
  rw [gone]
  nofun

theorem saved_replaced {config : Config} (text : content = Text.encode config.print) :
    Saved config files path ((prepared files path).replaced draft place content) := by
  have there := entryAt_replaced drafted names place
  rw [if_pos rfl] at there
  have target := names.replaced drafted.2
  refine ⟨text ▸ Files.read_of_names target there, find_draft drafted names, ?_⟩
  intro location elsewhere other
  refine replaced_state drafted names ?_ ?_
  · rintro rfl
    exact elsewhere target
  · rintro rfl
    exact other drafted

end Replaced

end Places

/-- A configuration is saved at once, or not at all. It is said of all states of the files
on the way, so that it also holds where the process is stopped at any moment. -/
structure AtomicSave (config : Config) (files : Files) (path : String) : Prop where
  begins : (config.saving files path).head? = some files
  ends : (config.saving files path).getLast? = some (config.save files path).1
  /-- The temporary file lies beside the file, under another name. -/
  beside : ∀ (state : Files) location draft, state.Names path location →
    state.Names (temporaryPath path) draft →
      location ≠ draft ∧ location.dropLast = draft.dropLast
  failed : ∀ error, (config.save files path).2 = .error error →
    ∀ location, ¬ IsDraft files path location →
      AsBefore files path (config.save files path).1 location
  succeeded : (config.save files path).2 = .ok () →
    Saved config files path (config.save files path).1
  /-- All the time, there is nothing new but the document, where the path leads. -/
  between : ∀ state ∈ config.saving files path, ∀ location, ¬ IsDraft files path location →
    AsBefore files path state location ∨
      state.Names path location ∧ state.entry? location = some (.file (Text.encode config.print))
  /-- All the time, the path leads to the whole document, or to a file that was there. -/
  held : ∀ state ∈ config.saving files path, ∀ content, state.read path = .ok content →
    content = Text.encode config.print ∨
      ∃ location, state.Names path location ∧ files.entry? location = some (.file content)

section Course

variable {files : Files} {path : String} {content : Bytes} {states : List Files}
  {result : Files × Except StoreError Unit} (course : SaveCourse files path content states result)

include course

theorem SaveCourse.getLast? : (files.creating ((Files.parent? path).getD "") ++ states).getLast? =
    some result.1 := by
  have above := files.creating_getLast? ((Files.parent? path).getD "")
  cases course with
  | unprepared fault => rwa [List.append_nil]
  | undrafted => rwa [List.append_nil]
  | unrenamed drafted => rw [List.getLast?_append, List.getLast?_map, getLast?_inits]; rfl
  | renamed drafted names => rw [← List.append_assoc, List.getLast?_concat]

theorem SaveCourse.failed {error : StoreError} (failed : result.2 = .error error)
    {location : Files.Location} (other : ¬ IsDraft files path location) :
    AsBefore files path result.1 location := by
  cases course with
  | unprepared fault => exact .of_grownBy (grownBy_prepared files path) location
  | undrafted => exact .of_grownBy (grownBy_prepared files path) location
  | unrenamed drafted => exact draft_state drafted content fun same => other (same ▸ drafted)
  | renamed drafted names => cases failed

/-- A state behind the creation of directories is one with a temporary file, or the last. In
the first kind the document has not been touched yet. -/
theorem SaveCourse.state_cases {state : Files} (member : state ∈ states) :
    ∃ draft, IsDraft files path draft ∧
      ((∃ part, state = (prepared files path).put draft (.file part)) ∨
        ∃ place, Files.Names ((prepared files path).put draft (.file content)) path place ∧
          state = (prepared files path).replaced draft place content) := by
  cases course with
  | unprepared fault => cases member
  | undrafted => cases member
  | unrenamed drafted =>
    obtain ⟨part, -, rfl⟩ := List.mem_map.mp member
    exact ⟨_, drafted, Or.inl ⟨part, rfl⟩⟩
  | renamed drafted names =>
    refine ⟨_, drafted, ?_⟩
    rcases List.mem_append.mp member with member | last
    · obtain ⟨part, -, rfl⟩ := List.mem_map.mp member
      exact Or.inl ⟨part, rfl⟩
    · exact Or.inr ⟨_, names, List.mem_singleton.mp last⟩

end Course

theorem saving_state_cases {config : Config} {files state : Files} {path : String}
    (member : state ∈ config.saving files path) :
    files.GrownBy (Files.ancestors path) state ∨
      ∃ draft, IsDraft files path draft ∧
        ((∃ part, state = (prepared files path).put draft (.file part)) ∨
          ∃ place, Files.Names ((prepared files path).put draft
              (.file (Text.encode config.print))) path place ∧
            state = (prepared files path).replaced draft place (Text.encode config.print)) := by
  obtain ⟨states, whole, course⟩ := config.save_course files path
  rw [whole] at member
  rcases List.mem_append.mp member with early | late
  · exact Or.inl (grownBy_of_creating_above early)
  · exact Or.inr (course.state_cases late)

/-- In every state a place is as it was, or it holds the document, where the path leads.
This leaves no state with a part of the document in its place. -/
theorem saving_between {config : Config} {files state : Files} {path : String}
    (member : state ∈ config.saving files path) {location : Files.Location}
    (other : ¬ IsDraft files path location) :
    AsBefore files path state location ∨
      state.Names path location ∧ state.entry? location = some (.file (Text.encode config.print)) := by
  rcases saving_state_cases member with grown | ⟨draft, drafted, ⟨part, rfl⟩ | ⟨place, names, rfl⟩⟩
  · exact Or.inl (.of_grownBy grown location)
  · exact Or.inl (draft_state drafted part fun same => other (same ▸ drafted))
  · by_cases target : location = place
    · rw [target]
      have there := entryAt_replaced drafted names place
      rw [if_pos rfl] at there
      exact Or.inr ⟨names.replaced drafted.2, there⟩
    · exact Or.inl (replaced_state drafted names target fun same => other (same ▸ drafted))

theorem saving_held {config : Config} {files state : Files} {path : String}
    (member : state ∈ config.saving files path) {content : Bytes}
    (known : state.read path = .ok content) :
    content = Text.encode config.print ∨
      ∃ location, state.Names path location ∧ files.entry? location = some (.file content) := by
  obtain ⟨location, target, there⟩ := Files.names_of_read known
  rcases saving_state_cases member with grown | ⟨draft, drafted, ⟨part, rfl⟩ | ⟨place, names, rfl⟩⟩
  · exact Or.inr ⟨location, target, (AsBefore.of_grownBy grown location).file there⟩
  · have other := ne_draft target (drafted.put part)
    exact Or.inr ⟨location, target, (draft_state drafted part other).file there⟩
  · by_cases same : location = place
    · rw [same, entryAt_replaced drafted names, if_pos rfl] at there
      cases there
      exact Or.inl rfl
    · have other : location ≠ draft := by
        rintro rfl
        rw [entryAt_replaced drafted names, if_neg same, if_pos rfl] at there
        cases there
      exact Or.inr ⟨location, target, (replaced_state drafted names same other).file there⟩

/-- Saving is atomic for every configuration, wherever the path leads and whatever is there.
The document is written beside its place first, and renaming is the one step in which the
place changes. -/
theorem atomic_save (config : Config) (files : Files) (path : String) :
    AtomicSave config files path := by
  obtain ⟨states, whole, course⟩ := config.save_course files path
  refine {
    begins := rfl
    ends := whole ▸ course.getLast?
    beside := ?_
    failed := fun _ failed _ => course.failed failed
    succeeded := ?_
    between := fun _ member _ => saving_between member
    held := fun _ member _ => saving_held member }
  · intro state location draft names drafted
    obtain ⟨directory, name, rfl, rfl⟩ := draft_beside names drafted
    exact ⟨ne_draft names drafted, by simp⟩
  · intro done
    generalize config.save files path = result at course done
    cases course with
    | renamed drafted names => exact saved_replaced drafted names rfl
    | _ => cases done

/-- A file with a temporary file beside it that was left behind. -/
def leftoverFiles : Files :=
  ((Files.emptyAt ["work"]).put ["work", "c"] (.file (Text.encode "old"))).put
    ["work", "c.toml.tmp"] (.file (Text.encode "left"))

/-- Both make way for the document. -/
theorem atomic_save_over_leftover :
    (save ⟨"", []⟩ leftoverFiles "new/../c").2 = .ok () ∧
      Saved ⟨"", []⟩ leftoverFiles "new/../c" (save ⟨"", []⟩ leftoverFiles "new/../c").1 := by
  have done : (save ⟨"", []⟩ leftoverFiles "new/../c").2 = .ok () := by decide +kernel
  exact ⟨done, (atomic_save ⟨"", []⟩ leftoverFiles "new/../c").succeeded done⟩

/-- A path that leads through a directory of its own name names that directory as soon as it is
there. Saving fails then, and leaves it where there was nothing. -/
theorem save_leaves_directory :
    (save ⟨"", []⟩ (Files.emptyAt ["work"]) "a/../a").2 = .error .renaming ∧
      Files.contains (Files.emptyAt ["work"]) "a/../a" = false ∧
      Files.entry? (Files.emptyAt ["work"]) ["work", "a"] = none ∧
      Files.isDirectory (save ⟨"", []⟩ (Files.emptyAt ["work"]) "a/../a").1 "a/../a" = true ∧
      Files.entry? (save ⟨"", []⟩ (Files.emptyAt ["work"]) "a/../a").1 ["work", "a"] =
        some .directory := by
  decide +kernel

end Config

end PlatformClient
