import Mathlib.Data.List.Basic
import PlatformClient.Files.Path
import PlatformClient.Proofs.PreparedRequests
import PlatformClient.Proofs.SortedEntries

namespace PlatformClient

namespace Files

section Entries

theorem insertEntry_eq_set (location : Location) (entry : Entry)
    (entries : List (Location × Entry)) :
    insertEntry location entry entries = Entries.set location entry entries := by
  induction entries with
  | nil => rfl
  | cons first entries ih => simp only [insertEntry, Entries.set, ih]

theorem lookup_filter (location other : Location) (entries : List (Location × Entry)) :
    (entries.filter fun pair => pair.1 ≠ location).lookup other =
      if other = location then none else entries.lookup other := by
  induction entries with
  | nil => split_ifs <;> rfl
  | cons first entries ih =>
    obtain ⟨name, entry⟩ := first
    by_cases erased : name = location
    · rw [List.filter_cons_of_neg (by simpa using erased), ih, lookup_cons_ite, erased]
      split_ifs <;> rfl
    · rw [List.filter_cons_of_pos (by simpa using erased), lookup_cons_ite, lookup_cons_ite, ih]
      by_cases same : other = name
      · rw [if_pos same, same, if_neg erased, if_pos rfl]
      · rw [if_neg same, if_neg same]

theorem entryAt_put {location : Location} (inner : location ≠ []) (files : Files) (entry : Entry)
    (other : Location) :
    Files.entry? (files.put location entry) other =
      if other = location then some entry else files.entry? other := by
  unfold entry? put
  rw [insertEntry_eq_set, Entries.lookup_set]
  by_cases root : other = []
  · subst root
    simp [Ne.symm inner]
  · simp [root]

theorem entryAt_erase {location : Location} (inner : location ≠ []) (files : Files)
    (other : Location) :
    Files.entry? (files.erase location) other =
      if other = location then none else files.entry? other := by
  unfold entry? erase
  by_cases root : other = []
  · subst root
    simp [Ne.symm inner]
  · simp only [List.isEmpty_iff, root, if_false, lookup_filter]

end Entries

/-- What there is at a place. -/
def meet (files : Files) (location : Location) : Target :=
  match files.entry? location with
  | some entry => .found location entry
  | none => .free location

def Target.location : Target → Location
  | .found location _ => location
  | .free location => location

/-- What a place that a path has led to is now. A directory on the way back to the
root is taken for granted. -/
def revisit (files : Files) : Target → Target
  | .found location .directory => .found location .directory
  | target => files.meet target.location

/-- All directories of the first files are in the second ones as well. That is all that a
path needs on its way, so that it leads to the same place in both. -/
structure KeepsDirectories (files other : Files) : Prop where
  start : other.workingDirectory = files.workingDirectory
  stays : ∀ location, files.entry? location = some .directory →
    other.entry? location = some .directory

theorem KeepsDirectories.refl (files : Files) : files.KeepsDirectories files :=
  ⟨rfl, fun _ directory => directory⟩

variable {files other : Files}

theorem revisit_eq_meet {target : Target} (inner : ∀ location, target ≠ .found location .directory) :
    files.revisit target = files.meet target.location := by
  unfold revisit
  split
  · exact absurd rfl (inner _)
  · rfl

/-- At the end of a path there may be a file, or nothing yet. -/
theorem follow_at_end {rest : List String} (ends : rest.isEmpty = true) (next : Location) :
    (match files.entry? next with
      | some .directory => files.follow next rest
      | some (.file content) =>
        if rest.isEmpty then .ok (.found next (.file content)) else .error .notDirectory
      | none => if rest.isEmpty then .ok (.free next) else .error .missing) =
      (Except.ok (files.meet next) : Except Fault Target) := by
  rw [meet, List.isEmpty_iff.mp ends]
  cases files.entry? next with
  | none => rfl
  | some entry => cases entry <;> rfl

/-- A path leads through directories, so that only what is at its end depends on anything
else. By induction over the parts of the path: on the way each of them is a directory and
stays one. -/
theorem follow_kept (kept : files.KeepsDirectories other) {here : Location} {parts : List String}
    {target : Target} (leads : files.follow here parts = .ok target) :
    other.follow here parts = .ok (other.revisit target) := by
  induction parts generalizing here with
  | nil =>
    cases leads
    rfl
  | cons part rest ih =>
    rw [follow] at leads ⊢
    by_cases stay : part = "" ∨ part = "."
    · rw [if_pos stay] at leads ⊢
      exact ih leads
    rw [if_neg stay] at leads ⊢
    by_cases up : part = ".."
    · rw [if_pos up] at leads ⊢
      exact ih leads
    rw [if_neg up] at leads ⊢
    by_cases long : nameLimit < part.utf8ByteSize
    · rw [if_pos long] at leads
      cases leads
    rw [if_neg long] at leads ⊢
    dsimp only at leads ⊢
    cases known : files.entry? (here ++ [part]) with
    | none =>
      rw [known] at leads
      dsimp only at leads
      split_ifs at leads with ends
      cases leads
      refine (follow_at_end ends _).trans ?_
      rw [revisit_eq_meet (by intro location same; cases same)]
      rfl
    | some entry =>
      rw [known] at leads
      cases entry with
      | directory =>
        rw [kept.stays _ known]
        exact ih leads
      | file content =>
        dsimp only at leads
        split_ifs at leads with ends
        cases leads
        refine (follow_at_end ends _).trans ?_
        rw [revisit_eq_meet (by intro location same; cases same)]
        rfl

theorem locate_kept (kept : files.KeepsDirectories other) {path : String} {target : Target}
    {slash : Bool} (leads : files.locate path = .ok (target, slash)) :
    other.locate path = .ok (other.revisit target, slash) := by
  rw [locate, bind_eq_ok_iff] at leads ⊢
  obtain ⟨checked, fine, leads⟩ := leads
  refine ⟨checked, fine, ?_⟩
  dsimp only at leads ⊢
  rw [bind_eq_ok_iff] at leads ⊢
  obtain ⟨found, leads, same⟩ := leads
  cases same
  rw [kept.start]
  exact ⟨_, follow_kept kept leads, rfl⟩

theorem revisit_of_locate {path : String} {target : Target} {slash : Bool}
    (leads : files.locate path = .ok (target, slash)) : files.revisit target = target :=
  (Prod.mk.inj (Except.ok.inj ((locate_kept (.refl files) leads).symm.trans leads))).1

/-- A path names a place where there is a file or may be one. The place is what stays when
the file is written, moved or replaced. -/
def Names (files : Files) (path : String) (location : Location) : Prop :=
  files.locate path = .ok (files.meet location, false) ∧ files.entry? location ≠ some .directory

theorem inner_of_file {location : Location} (file : files.entry? location ≠ some .directory) :
    location ≠ [] := by
  rintro rfl
  exact file rfl

theorem Names.inner {path : String} {location : Location} (names : files.Names path location) :
    location ≠ [] := inner_of_file names.2

theorem Names.kept {path : String} {location : Location} (names : files.Names path location)
    (kept : files.KeepsDirectories other) (free : other.entry? location ≠ some .directory) :
    other.Names path location := by
  have seen : other.revisit (files.meet location) = other.meet location := by
    have file := names.2
    unfold meet revisit
    cases known : files.entry? location with
    | none => rfl
    | some entry =>
      cases entry with
      | directory => exact absurd known file
      | file content => rfl
  exact ⟨seen ▸ locate_kept kept names.1, free⟩

theorem find_of_names {path : String} {location : Location} {content : Bytes}
    (names : files.Names path location) (known : files.entry? location = some (.file content)) :
    files.find path = .ok (location, .file content) := by
  rw [find, names.1, meet, known]
  rfl

theorem read_of_names {path : String} {location : Location} {content : Bytes}
    (names : files.Names path location) (known : files.entry? location = some (.file content)) :
    files.read path = .ok content := by
  rw [read, find_of_names names known]
  rfl

theorem meet_eq_found_iff {location : Location} {entry : Entry} :
    files.meet location = .found location entry ↔ files.entry? location = some entry := by
  unfold meet
  cases files.entry? location <;> simp

theorem meet_eq_free_iff {location : Location} :
    files.meet location = .free location ↔ files.entry? location = none := by
  unfold meet
  cases files.entry? location <;> simp

theorem meet_of_locate {path : String} {target : Target} {slash : Bool}
    (leads : files.locate path = .ok (target, slash))
    (file : ∀ location, target ≠ .found location .directory) :
    files.meet target.location = target := by
  have same := revisit_of_locate leads
  unfold revisit at same
  split at same
  · exact absurd rfl (file _)
  · exact same

theorem names_of_target {path : String} {target : Target}
    (leads : files.locate path = .ok (target, false))
    (file : ∀ location, target ≠ .found location .directory) :
    files.Names path target.location := by
  have seen := meet_of_locate leads file
  refine ⟨by rw [seen, leads], fun directory => file target.location ?_⟩
  exact seen.symm.trans (meet_eq_found_iff.mpr directory)

theorem names_of_write {path : String} {content : Bytes} {written : Files}
    (success : files.write path content = .ok written) :
    ∃ location, files.Names path location ∧ written = files.put location (.file content) := by
  rw [write, bind_eq_ok_iff] at success
  obtain ⟨⟨target, slash⟩, leads, success⟩ := success
  cases target with
  | free location =>
    cases slash with
    | true => cases success
    | false =>
      cases success
      have names := names_of_target leads nofun
      exact ⟨location, names, rfl⟩
  | found location entry =>
    cases entry with
    | directory => cases success
    | file old =>
      cases slash with
      | true => cases success
      | false =>
        cases success
        have names := names_of_target leads nofun
        exact ⟨location, names, rfl⟩

theorem names_of_read {path : String} {content : Bytes} (known : files.read path = .ok content) :
    ∃ location, files.Names path location ∧ files.entry? location = some (.file content) := by
  obtain ⟨⟨location, entry⟩, found, known⟩ := bind_eq_ok_iff.mp known
  cases entry with
  | directory => cases known
  | file held =>
    cases known
    obtain ⟨⟨target, slash⟩, leads, found⟩ := bind_eq_ok_iff.mp found
    cases target with
    | free place => cases found
    | found place entry =>
      cases entry with
      | directory => cases found
      | file old =>
        cases slash with
        | true => cases found
        | false =>
          cases found
          have names := names_of_target leads nofun
          have seen := meet_of_locate leads nofun
          exact ⟨location, names, meet_eq_found_iff.mp seen⟩

/-- A file that is moved comes to lie where the path leads, and is gone from where it was.
Both places are known from the files before. -/
theorem names_of_rename {source target : String} {location : Location} {content : Bytes}
    {renamed : Files} (names : files.Names source location)
    (known : files.entry? location = some (.file content))
    (success : files.rename source target = .ok renamed) :
    ∃ place, files.Names target place ∧
      renamed = (files.erase location).put place (.file content) := by
  rw [rename, find_of_names names known, bind_eq_ok_iff] at success
  obtain ⟨given, same, success⟩ := success
  cases same
  rw [bind_eq_ok_iff] at success
  obtain ⟨⟨target, slash⟩, leads, success⟩ := success
  cases target with
  | free place =>
    cases slash with
    | true => cases success
    | false =>
      cases success
      have names := names_of_target leads nofun
      exact ⟨place, names, rfl⟩
  | found place entry =>
    cases entry with
    | directory => cases success
    | file old =>
      cases slash with
      | true => cases success
      | false =>
        cases success
        have names := names_of_target leads nofun
        exact ⟨place, names, rfl⟩

section Directories

/-- Nothing has changed but for directories where there was nothing. Every file is still
there with its content. -/
structure Grown (files grown : Files) : Prop where
  start : grown.workingDirectory = files.workingDirectory
  entries : ∀ location, grown.entry? location = files.entry? location ∨
    files.entry? location = none ∧ grown.entry? location = some .directory

theorem Grown.refl (files : Files) : files.Grown files := ⟨rfl, fun _ => Or.inl rfl⟩

theorem Grown.trans {first second third : Files} (grown : first.Grown second)
    (more : second.Grown third) : first.Grown third := by
  refine ⟨more.start.trans grown.start, fun location => ?_⟩
  rcases more.entries location with same | ⟨missing, made⟩
  · rw [same]
    exact grown.entries location
  · rcases grown.entries location with same | ⟨-, present⟩
    · exact Or.inr ⟨same ▸ missing, made⟩
    · rw [present] at missing
      cases missing

theorem Grown.keeps {files grown : Files} (more : files.Grown grown) {location : Location}
    {entry : Entry} (known : files.entry? location = some entry) :
    grown.entry? location = some entry := by
  rcases more.entries location with same | ⟨missing, -⟩
  · rw [same, known]
  · rw [known] at missing
    cases missing

theorem Grown.keepsDirectories {files grown : Files} (more : files.Grown grown) :
    files.KeepsDirectories grown := ⟨more.start, fun _ known => more.keeps known⟩

/-- What can be read can still be read when directories have been made. -/
theorem Grown.read {files grown : Files} (more : files.Grown grown) {path : String}
    {content : Bytes} (known : files.read path = .ok content) : grown.read path = .ok content := by
  obtain ⟨location, names, there⟩ := names_of_read known
  have still := more.keeps there
  refine read_of_names (names.kept more.keepsDirectories ?_) still
  rw [still]
  nofun

/-- A directory that a path leads to stays where it is. -/
theorem find_directory_kept (kept : files.KeepsDirectories other) {path : String}
    {location : Location} (found : files.find path = .ok (location, .directory)) :
    other.find path = .ok (location, .directory) := by
  obtain ⟨⟨target, slash⟩, leads, found⟩ := bind_eq_ok_iff.mp found
  cases target with
  | free place => cases found
  | found place entry =>
    cases entry with
    | directory =>
      cases found
      rw [find, locate_kept kept leads]
      rfl
    | file content => cases slash <;> cases found

/-- There is a directory now where there was nothing, and one of some paths leads there. -/
structure Gained (files : Files) (paths : List String) (grown : Files) (location : Location) :
    Prop where
  missing : files.entry? location = none
  made : grown.entry? location = some .directory
  named : ∃ path ∈ paths, grown.find path = .ok (location, .directory)

/-- Nothing has changed but for directories to which some paths lead. It says more than that
the files have grown: whose directories these are is known. -/
structure GrownBy (files : Files) (paths : List String) (grown : Files) : Prop where
  start : grown.workingDirectory = files.workingDirectory
  entries : ∀ location, grown.entry? location = files.entry? location ∨
    files.Gained paths grown location

theorem Gained.kept {paths : List String} {grown : Files} {location : Location}
    (gained : files.Gained paths grown location) (kept : grown.KeepsDirectories other) :
    files.Gained paths other location := by
  obtain ⟨path, member, found⟩ := gained.named
  exact ⟨gained.missing, kept.stays _ gained.made, path, member, find_directory_kept kept found⟩

variable {paths more : List String}

theorem GrownBy.refl (files : Files) (paths : List String) : files.GrownBy paths files :=
  ⟨rfl, fun _ => Or.inl rfl⟩

theorem GrownBy.grown {grown : Files} (by_paths : files.GrownBy paths grown) : files.Grown grown where
  start := by_paths.start
  entries := fun location => (by_paths.entries location).imp_right fun gained =>
    ⟨gained.missing, gained.made⟩

theorem GrownBy.mono {grown : Files} (by_paths : files.GrownBy paths grown)
    (subset : paths ⊆ more) : files.GrownBy more grown := by
  refine ⟨by_paths.start, fun location => (by_paths.entries location).imp_right fun gained => ?_⟩
  obtain ⟨path, member, found⟩ := gained.named
  exact ⟨gained.missing, gained.made, path, subset member, found⟩

theorem GrownBy.trans {first second third : Files} (grown : first.GrownBy paths second)
    (further : second.GrownBy paths third) : first.GrownBy paths third := by
  refine ⟨further.start.trans grown.start, fun location => ?_⟩
  rcases further.entries location with same | gained
  · rw [same]
    exact (grown.entries location).imp_right fun gained => gained.kept further.grown.keepsDirectories
  · rcases grown.entries location with same | earlier
    · exact Or.inr ⟨same ▸ gained.missing, gained.made, gained.named⟩
    · cases gained.missing.symm.trans earlier.made

/-- A directory that has been created is where its path leads, and there was nothing. -/
theorem createDirectory_eq_ok {path : String} {created : Files}
    (success : files.createDirectory path = .ok created) :
    ∃ location, files.entry? location = none ∧ location ≠ [] ∧
      created = files.put location .directory ∧ files.KeepsDirectories created ∧
      created.find path = .ok (location, .directory) := by
  rw [createDirectory, bind_eq_ok_iff] at success
  obtain ⟨⟨target, slash⟩, leads, success⟩ := success
  cases target with
  | found location entry => cases success
  | free location =>
    cases success
    have missing : files.entry? location = none :=
      meet_eq_free_iff.mp (meet_of_locate leads nofun)
    have inner : location ≠ [] := by
      rintro rfl
      cases missing
    have made : Files.entry? (files.put location .directory) location = some .directory := by
      rw [entryAt_put inner, if_pos rfl]
    have kept : files.KeepsDirectories (files.put location .directory) := by
      refine ⟨rfl, fun place directory => ?_⟩
      rw [entryAt_put inner]
      split_ifs
      · rfl
      · exact directory
    have free : ∀ place, Target.free location ≠ .found place .directory := nofun
    refine ⟨location, missing, inner, rfl, kept, ?_⟩
    rw [find, locate_kept kept leads, revisit_eq_meet free, Target.location, meet, made]
    rfl

theorem grownBy_createDirectory {path : String} {created : Files}
    (success : files.createDirectory path = .ok created) : files.GrownBy [path] created := by
  obtain ⟨location, missing, inner, rfl, kept, found⟩ := createDirectory_eq_ok success
  refine ⟨rfl, fun place => ?_⟩
  by_cases same : place = location
  · rw [same]
    have made : Files.entry? (files.put location .directory) location = some .directory := by
      rw [entryAt_put inner, if_pos rfl]
    exact Or.inr ⟨missing, made, path, List.mem_singleton_self path, found⟩
  · rw [entryAt_put inner, if_neg same]
    exact Or.inl rfl

theorem grownBy_createLowest {left above rest : List String} {created : Files}
    (success : createLowest files left above = .ok (created, rest)) :
    files.GrownBy (left ++ above) created ∧ rest ⊆ left ++ above := by
  induction above generalizing left with
  | nil =>
    cases success
    exact ⟨.refl files _, List.subset_append_left _ _⟩
  | cons path above ih =>
    rw [createLowest] at success
    split at success
    · rename_i made step
      cases success
      exact ⟨(grownBy_createDirectory step).mono (by simp), List.subset_append_left _ _⟩
    · split_ifs at success
      · obtain ⟨grown, subset⟩ := ih success
        have moved : path :: left ++ above ⊆ left ++ path :: above := by
          intro name member
          simp only [List.mem_append, List.mem_cons] at member ⊢
          tauto
        exact ⟨grown.mono moved, List.Subset.trans subset moved⟩
      · cases success
        exact ⟨.refl files _, List.subset_append_left _ _⟩

theorem grownBy_createEach (files : Files) (paths : List String) :
    files.GrownBy paths (createEach files paths).1 := by
  induction paths generalizing files with
  | nil => exact .refl files _
  | cons path rest ih =>
    rw [createEach]
    have later (files : Files) := (ih files).mono (List.subset_cons_self path rest)
    split
    · rename_i made step
      exact ((grownBy_createDirectory step).mono (by simp)).trans (later made)
    · split_ifs
      · exact later files
      · exact .refl files _

theorem grownBy_createDirectories (files : Files) (path : String) :
    files.GrownBy (path :: ancestors path) (files.createDirectories path).1 := by
  rw [createDirectories]
  split_ifs
  · exact .refl files _
  · split
    · exact .refl files _
    · rename_i made left lowest
      obtain ⟨grown, subset⟩ := grownBy_createLowest lowest
      exact grown.trans ((grownBy_createEach made left).mono subset)

theorem grown_createDirectories (files : Files) (path : String) :
    files.Grown (files.createDirectories path).1 := (grownBy_createDirectories files path).grown

end Directories

section Replacement

/-- A file comes to lie where there is no directory. -/
theorem keepsDirectories_put {location : Location} (file : files.entry? location ≠ some .directory)
    (content : Bytes) : files.KeepsDirectories (files.put location (.file content)) := by
  refine ⟨rfl, fun place directory => ?_⟩
  have other : place ≠ location := by
    rintro rfl
    exact file directory
  rw [entryAt_put (inner_of_file file), if_neg other, directory]

theorem keepsDirectories_erase {location : Location}
    (file : files.entry? location ≠ some .directory) :
    files.KeepsDirectories (files.erase location) := by
  refine ⟨rfl, fun place directory => ?_⟩
  have other : place ≠ location := by
    rintro rfl
    exact file directory
  rw [entryAt_erase (inner_of_file file), if_neg other, directory]

theorem KeepsDirectories.trans {first second third : Files} (kept : first.KeepsDirectories second)
    (more : second.KeepsDirectories third) : first.KeepsDirectories third :=
  ⟨more.start.trans kept.start, fun _ directory => more.stays _ (kept.stays _ directory)⟩

theorem Names.put {path : String} {location : Location} (names : files.Names path location)
    (content : Bytes) : (files.put location (.file content)).Names path location := by
  refine names.kept (keepsDirectories_put names.2 content) ?_
  rw [entryAt_put names.inner, if_pos rfl]
  nofun

/-- The files where one that has been written at one place is moved to another. -/
def replaced (files : Files) (draft place : Location) (content : Bytes) : Files :=
  ((files.put draft (.file content)).erase draft).put place (.file content)

variable {draft place : Location}

theorem entryAt_replaced (drafted : draft ≠ []) (inner : place ≠ []) (files : Files)
    (content : Bytes) (location : Location) :
    Files.entry? (files.replaced draft place content) location =
      if location = place then some (.file content)
      else if location = draft then none else files.entry? location := by
  rw [replaced, entryAt_put inner, entryAt_erase drafted, entryAt_put drafted]
  split_ifs <;> rfl

theorem keepsDirectories_replaced (drafted : files.entry? draft ≠ some .directory)
    (free : files.entry? place ≠ some .directory) (content : Bytes) :
    files.KeepsDirectories (files.replaced draft place content) := by
  refine ⟨rfl, fun location directory => ?_⟩
  rw [entryAt_replaced (inner_of_file drafted) (inner_of_file free)]
  split_ifs with target source
  · exact absurd (target ▸ directory) free
  · exact absurd (source ▸ directory) drafted
  · exact directory

/-- The path of a file leads there also when the file has been replaced. -/
theorem Names.replaced {path : String} {content : Bytes}
    (names : (files.put draft (.file content)).Names path place)
    (drafted : files.entry? draft ≠ some .directory) :
    (files.replaced draft place content).Names path place := by
  have written : Files.entry? (files.put draft (.file content)) draft ≠ some .directory := by
    rw [entryAt_put (inner_of_file drafted), if_pos rfl]
    nofun
  have kept := keepsDirectories_erase written
  have free : Files.entry? ((files.put draft (.file content)).erase draft) place ≠
      some .directory := by
    rw [entryAt_erase (inner_of_file drafted)]
    split_ifs
    · nofun
    · exact names.2
  refine names.kept (kept.trans (keepsDirectories_put free content)) ?_
  rw [entryAt_replaced (inner_of_file drafted) names.inner, if_pos rfl]
  nofun

/-- A file that is written beside another and then takes its place is read there. The path
leads to the same place before and after, as only files are written and moved. -/
theorem read_of_replaced {path beside : String} {content : Bytes} {written renamed : Files}
    (first : files.write beside content = .ok written)
    (second : written.rename beside path = .ok renamed) : renamed.read path = .ok content := by
  obtain ⟨source, names, rfl⟩ := names_of_write first
  have there : Files.entry? (files.put source (.file content)) source = some (.file content) := by
    rw [entryAt_put names.inner, if_pos rfl]
  obtain ⟨place, target, rfl⟩ := names_of_rename (names.put content) there second
  have known := entryAt_replaced names.inner target.inner files content place
  rw [if_pos rfl] at known
  exact read_of_names (target.replaced names.2) known

end Replacement

end Files

end PlatformClient
