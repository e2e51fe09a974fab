import Mathlib.Data.List.Basic
import PlatformClient.Proofs.PathParts

namespace PlatformClient.Files

variable {files other : Files} {path : String}

theorem isDirectory_iff :
    files.isDirectory path = true ↔ ∃ location, files.find path = .ok (location, .directory) := by
  unfold isDirectory
  rcases files.find path with fault | ⟨location, _ | content⟩ <;> simp

theorem contains_iff : files.contains path = true ↔ ∃ found, files.find path = .ok found := by
  unfold contains
  cases files.find path with
  | error fault => simp [Except.isOk, Except.toBool]
  | ok found => simp [Except.isOk, Except.toBool]

theorem contains_eq_false_of_free {location : Location} {slash : Bool}
    (leads : files.locate path = .ok (.free location, slash)) : files.contains path = false := by
  rw [contains, find, leads]
  rfl

theorem contains_eq_false_of_fault {fault : Fault} (leads : files.locate path = .error fault) :
    files.contains path = false := by
  rw [contains, find, leads]
  rfl

theorem locate_empty (files : Files) : files.locate "" = .error .missing := by
  rfl

theorem checkPath_eq_ok_iff : checkPath path = .ok () ↔
    '\x00' ∉ path.toList ∧ path ≠ "" ∧ path.utf8ByteSize ≤ pathLimit := by
  unfold checkPath
  by_cases nul : path.toList.contains '\x00' = true
  · simp [List.contains_iff_mem.mp nul]
  · have absent : '\x00' ∉ path.toList := fun inside => nul (List.contains_iff_mem.mpr inside)
    rw [if_neg nul]
    split_ifs with none long
    · simp [String.isEmpty_iff.mp none]
    · exact iff_of_false nofun fun ⟨_, _, fits⟩ => Nat.not_lt.mpr fits long
    · exact iff_of_true rfl ⟨absent, by simpa using none, Nat.not_lt.mp long⟩

theorem locate_eq_ok_iff {target : Target} {slash : Bool} :
    files.locate path = .ok (target, slash) ↔ checkPath path = .ok () ∧
      files.follow (files.startOf path) (Route.ofPath path).parts = .ok target ∧
      (Route.ofPath path).slash = slash := by
  rw [locate, bind_eq_ok_iff]
  constructor
  · rintro ⟨checked, fine, given⟩
    obtain ⟨found, leads, same⟩ := bind_eq_ok_iff.mp given
    cases same
    exact ⟨fine, leads, rfl⟩
  · rintro ⟨fine, leads, rfl⟩
    exact ⟨(), fine, bind_eq_ok_iff.mpr ⟨target, leads, rfl⟩⟩

/-- An entry is found where the path leads. -/
theorem locate_of_find {location : Location} {entry : Entry}
    (found : files.find path = .ok (location, entry)) :
    ∃ slash, files.locate path = .ok (.found location entry, slash) := by
  obtain ⟨⟨target, slash⟩, leads, found⟩ := bind_eq_ok_iff.mp found
  cases target with
  | free place => cases found
  | found place entry =>
    cases entry with
    | directory =>
      cases found
      exact ⟨slash, leads⟩
    | file content =>
      cases slash with
      | true => cases found
      | false =>
        cases found
        exact ⟨false, leads⟩

theorem isDirectory_kept (kept : files.KeepsDirectories other)
    (directory : files.isDirectory path = true) : other.isDirectory path = true := by
  obtain ⟨location, found⟩ := isDirectory_iff.mp directory
  exact isDirectory_iff.mpr ⟨location, find_directory_kept kept found⟩

theorem contains_of_isDirectory (directory : files.isDirectory path = true) :
    files.contains path = true := by
  obtain ⟨location, found⟩ := isDirectory_iff.mp directory
  exact contains_iff.mpr ⟨_, found⟩

theorem isDirectory_of_createDirectory {created : Files}
    (success : files.createDirectory path = .ok created) : created.isDirectory path = true := by
  obtain ⟨location, -, -, -, -, found⟩ := createDirectory_eq_ok success
  exact isDirectory_iff.mpr ⟨location, found⟩

section Above

variable {parent : String}

/-- The first parts of a path to a directory lead to a directory: from anything else the
path could not go on, not even by two dots. -/
theorem follow_front {here directory : Location} {front rest : List String}
    (leads : files.follow here (front ++ rest) = .ok (.found directory .directory)) :
    ∃ above, files.follow here front = .ok (.found above .directory) := by
  induction front generalizing here with
  | nil => exact ⟨here, rfl⟩
  | cons part front ih =>
    rw [List.cons_append] at leads
    rcases files.follow_part here part with ⟨next, step⟩ | ⟨fault, step⟩ | ⟨-, other, fault, step⟩
    · rw [step] at leads ⊢
      exact ih leads
    · rw [step] at leads
      cases leads
    · rw [step] at leads
      split_ifs at leads
      exact absurd (Except.ok.inj leads) (meet_ne_directory other directory)

theorem exists_split_of_splitAll {cs : List Char} {front rest : List (List Char)}
    (some : front ≠ []) (more : rest ≠ []) (split : Text.splitAll '/' cs = front ++ rest) :
    ∃ behind, cs = List.intercalate ['/'] front ++ '/' :: behind := by
  have slashless : ∀ part ∈ front ++ rest, '/' ∉ part := fun part inside =>
    slashless_of_mem_splitAll (split ▸ inside)
  have parts : (List.intercalate ['/'] front ++ '/' :: List.intercalate ['/'] rest).splitOn '/' =
      cs.splitOn '/' := by
    rw [List.splitOn_append_cons_self,
      List.splitOn_intercalate _ (fun part inside => slashless part (List.mem_append_left _ inside)) some,
      List.splitOn_intercalate _ (fun part inside => slashless part (List.mem_append_right _ inside)) more,
      ← split, Text.splitAll_eq_splitOn]
  refine ⟨List.intercalate ['/'] rest, ?_⟩
  calc cs
    _ = List.intercalate ['/'] (cs.splitOn '/') := (List.intercalate_splitOn '/').symm
    _ = _ := by rw [← parts, List.intercalate_splitOn]

/-- The directory above a path is the root, or written in the path in front of a slash. The
slashes at the end of the path and between its last two names are not in it, so the split
need not be at the last slash. -/
theorem parent?_cases (known : parent? path = some parent) :
    parent = "/" ∨ parent ≠ "" ∧ ∃ behind, path.toList = parent.toList ++ '/' :: behind := by
  obtain ⟨skipped, split⟩ := trimmedParts_suffix (Text.splitAll '/' path.toList).reverse
  unfold parent? at known
  rw [ancestors, reversedParts] at known
  cases parts : trimmedParts (Text.splitAll '/' path.toList).reverse with
  | nil =>
    rw [parts, ancestorsOf] at known
    cases known
  | cons name above =>
    rw [parts, ancestorsOf_cons] at known
    split_ifs at known with bare absolute
    · cases known
      exact Or.inl rfl
    · cases known
    · cases known
      obtain ⟨passed, further⟩ := trimmedParts_suffix above
      have whole : Text.splitAll '/' path.toList =
          (trimmedParts above).reverse ++ (skipped ++ name :: passed).reverse := by
        rw [← List.reverse_append, List.append_assoc, List.cons_append, further, ← parts, split,
          List.reverse_reverse]
      have some : trimmedParts above ≠ [] := by simpa using bare
      refine Or.inr ⟨fun empty => ?_, ?_⟩
      · have slashless : ∀ part ∈ trimmedParts above, '/' ∉ part := fun part inside =>
          slashless_of_mem_splitAll (whole ▸ List.mem_append_left _ (List.mem_reverse.mpr inside))
        have alone := splitAll_joinParts some slashless
        rw [empty] at alone
        have blank : trimmedParts above = [[]] := List.reverse_eq_iff.mp alone.symm
        have trimmed : trimmedParts (trimmedParts above) = trimmedParts above :=
          List.dropWhile_idempotent ..
        rw [blank] at trimmed
        cases trimmed
      · rw [joinParts, String.toList_ofList]
        exact exists_split_of_splitAll (by simpa using some) (by simp) whole

theorem rdropWhile_prefix_append {α : Type} (p : α → Bool) (front rest : List α) :
    front.rdropWhile p <+: (front ++ rest).rdropWhile p := by
  induction rest using List.reverseRecOn with
  | nil => exact ⟨[], by simp only [List.append_nil]⟩
  | append_singleton rest last ih =>
    rw [← List.append_assoc]
    by_cases dropped : p last = true
    · rwa [List.rdropWhile_concat_pos _ _ _ dropped]
    · rw [List.rdropWhile_concat_neg _ _ _ dropped, List.append_assoc]
      exact (List.rdropWhile_prefix p front).trans (List.prefix_append front _)

/-- What is written in front of a slash of a path to a directory leads to a directory. Both
texts start at the same place, the parts of the shorter one begin those of the other, and
its length is within the limit for paths. -/
theorem isDirectory_of_split {behind : List Char} (filled : parent ≠ "")
    (split : path.toList = parent.toList ++ '/' :: behind)
    (directory : files.isDirectory path = true) : files.isDirectory parent = true := by
  obtain ⟨location, found⟩ := isDirectory_iff.mp directory
  obtain ⟨slash, leads⟩ := locate_of_find found
  obtain ⟨checked, leads, -⟩ := locate_eq_ok_iff.mp leads
  have absolute : (Route.ofPath parent).absolute = (Route.ofPath path).absolute := by
    have some : parent.toList ≠ [] := by simpa using filled
    simp only [Route.ofPath, split, List.head?_append_of_ne_nil _ some]
  have start : files.startOf parent = files.startOf path := by rw [startOf, startOf, absolute]
  have front : (Route.ofPath parent).parts <+: (Route.ofPath path).parts := by
    have parts : Text.splitAll '/' path.toList =
        Text.splitAll '/' parent.toList ++ Text.splitAll '/' behind := by
      rw [split]
      simp only [Text.splitAll_eq_splitOn, List.splitOn_append_cons_self]
    simp only [Route.ofPath, parts, List.map_append]
    exact rdropWhile_prefix_append (· == "") _ _
  obtain ⟨rest, whole⟩ := front
  rw [← whole, ← start] at leads
  obtain ⟨above, leads⟩ := follow_front leads
  have fine : checkPath parent = .ok () := by
    obtain ⟨absent, -, fits⟩ := checkPath_eq_ok_iff.mp checked
    have text : path = parent ++ String.ofList ('/' :: behind) :=
      String.toList_injective (by rw [split, String.toList_append, String.toList_ofList])
    rw [text, String.utf8ByteSize_append] at fits
    refine checkPath_eq_ok_iff.mpr ⟨fun nul => absent ?_, filled, by omega⟩
    exact split ▸ List.mem_append_left _ nul
  refine isDirectory_iff.mpr ⟨above, ?_⟩
  rw [find, locate_eq_ok_iff.mpr ⟨fine, leads, rfl⟩]
  rfl

/-- Above a directory there are directories. The induction is on the ancestors as they are
listed, each of which is written in the one before it. -/
theorem isDirectory_of_mem_ancestors (directory : files.isDirectory path = true) :
    ∀ above ∈ ancestors path, files.isDirectory above = true := by
  induction known : ancestors path generalizing path with
  | nil => exact List.forall_mem_nil _
  | cons parent others ih =>
    have first : parent? path = some parent := congrArg List.head? known
    have upper : files.isDirectory parent = true := by
      rcases parent?_cases first with rfl | ⟨filled, behind, split⟩
      · rfl
      · exact isDirectory_of_split filled split directory
    obtain ⟨-, rest⟩ := List.cons.inj ((ancestors_eq_cons first).symm.trans known)
    exact List.forall_mem_cons.mpr ⟨upper, ih upper rest⟩

end Above

section Creation

variable {left above rest : List String}

/-- All paths of which directories have been made are those of directories, also in the end,
since no later step takes a directory away. -/
theorem isDirectory_of_createEach {paths : List String}
    (success : (createEach files paths).2 = .ok ()) :
    ∀ path ∈ paths, (createEach files paths).1.isDirectory path = true := by
  induction paths generalizing files with
  | nil => exact List.forall_mem_nil _
  | cons first rest ih =>
    have later (made : Files) := (grownBy_createEach made rest).grown.keepsDirectories
    rw [createEach] at success ⊢
    cases step : files.createDirectory first with
    | ok made =>
      rw [step] at success
      have directory := isDirectory_kept (later made) (isDirectory_of_createDirectory step)
      exact List.forall_mem_cons.mpr ⟨directory, ih success⟩
    | error fault =>
      rw [step] at success
      dsimp only at success ⊢
      split_ifs at success ⊢ with occupied
      exact List.forall_mem_cons.mpr ⟨isDirectory_kept (later files) occupied.2, ih success⟩

theorem createLowest_left {made : Files} (success : createLowest files left above = .ok (made, rest)) :
    left ⊆ rest := by
  induction above generalizing left with
  | nil =>
    cases success
    exact List.Subset.refl _
  | cons first above ih =>
    rw [createLowest] at success
    split at success
    · cases success
      exact List.Subset.refl _
    · split_ifs at success
      · exact List.Subset.trans (List.subset_cons_self first left) (ih success)
      · cases success
        exact List.Subset.refl _

/-- The first of the paths is that of a directory, or one is still to be made of it. It is
passed over only where something above it is missing, and then it is left for later. -/
theorem createLowest_first {made : Files}
    (success : createLowest files left (path :: above) = .ok (made, rest)) :
    path ∈ rest ∨ made.isDirectory path = true := by
  rw [createLowest] at success
  split at success
  · rename_i step
    cases success
    exact Or.inr (isDirectory_of_createDirectory step)
  · split_ifs at success with missing occupied
    · exact Or.inl (createLowest_left success List.mem_cons_self)
    · cases success
      exact Or.inr occupied.2

/-- What has been created with success is a directory, whether it was there before or was
made as the first or the last of its line. -/
theorem isDirectory_of_createDirectories (filled : path ≠ "")
    (success : (files.createDirectories path).2 = .ok ()) :
    (files.createDirectories path).1.isDirectory path = true := by
  have some : ¬ path.isEmpty = true := by simpa using filled
  rw [createDirectories, if_neg some] at success ⊢
  cases lowest : createLowest files [] (path :: ancestors path) with
  | error fault =>
    rw [lowest] at success
    cases success
  | ok found =>
    obtain ⟨made, left⟩ := found
    rw [lowest] at success
    rcases createLowest_first lowest with later | directory
    · exact isDirectory_of_createEach success path later
    · exact isDirectory_kept (grownBy_createEach made left).grown.keepsDirectories directory

/-- A directory that can neither be made nor is there is missing. This seems to say nothing,
but the fault is told by where the path leads: at a directory it is that the place is
occupied, and no other. -/
theorem isDirectory_of_blocked {fault : Fault} (step : files.createDirectory path = .error fault)
    (blocked : ¬ (fault = .occupied ∧ files.isDirectory path = true)) :
    files.isDirectory path = false := by
  refine Bool.eq_false_iff.mpr fun directory => blocked ⟨?_, directory⟩
  obtain ⟨location, found⟩ := isDirectory_iff.mp directory
  obtain ⟨slash, leads⟩ := locate_of_find found
  rw [createDirectory, leads] at step
  cases step
  rfl

theorem isDirectory_of_createEach_error {fault : Fault} {paths : List String}
    (failed : (createEach files paths).2 = .error fault) :
    ∃ path ∈ paths, (createEach files paths).1.isDirectory path = false := by
  induction paths generalizing files with
  | nil => cases failed
  | cons first rest ih =>
    rw [createEach] at failed ⊢
    cases step : files.createDirectory first with
    | ok made =>
      rw [step] at failed
      obtain ⟨path, later, missing⟩ := ih failed
      exact ⟨path, List.mem_cons_of_mem first later, missing⟩
    | error fault =>
      rw [step] at failed
      dsimp only at failed ⊢
      split_ifs at failed ⊢ with occupied
      · obtain ⟨path, later, missing⟩ := ih failed
        exact ⟨path, List.mem_cons_of_mem first later, missing⟩
      · exact ⟨first, List.mem_cons_self, isDirectory_of_blocked step occupied⟩

theorem isDirectory_of_createLowest_error {fault : Fault}
    (failed : createLowest files left above = .error fault) :
    ∃ path ∈ above, files.isDirectory path = false := by
  induction above generalizing left with
  | nil => cases failed
  | cons first above ih =>
    rw [createLowest] at failed
    split at failed
    · cases failed
    · rename_i step
      split_ifs at failed with missing occupied
      · obtain ⟨path, higher, missing⟩ := ih failed
        exact ⟨path, List.mem_cons_of_mem first higher, missing⟩
      · exact ⟨first, List.mem_cons_self, isDirectory_of_blocked step occupied⟩

/-- Creation fails where a directory on the way is missing afterwards. It need not be the
last one: the steps below it are not tried. -/
theorem isDirectory_of_createDirectories_error {fault : Fault}
    (failed : (files.createDirectories path).2 = .error fault) :
    ∃ above ∈ path :: ancestors path,
      (files.createDirectories path).1.isDirectory above = false := by
  rw [createDirectories] at failed ⊢
  split_ifs at failed ⊢ with empty
  cases lowest : createLowest files [] (path :: ancestors path) with
  | error fault => exact isDirectory_of_createLowest_error lowest
  | ok found =>
    obtain ⟨made, paths⟩ := found
    rw [lowest] at failed
    obtain ⟨above, inside, missing⟩ := isDirectory_of_createEach_error failed
    exact ⟨above, (grownBy_createLowest lowest).2 inside, missing⟩

/-- There is success exactly where there is a directory in the end. For the empty path
nothing is to be done. A failure shows in a directory on the way that is missing, and then
there is none at the path either, since above a directory there are directories. -/
theorem createDirectories_ok_iff : (files.createDirectories path).2 = .ok () ↔
    path = "" ∨ (files.createDirectories path).1.isDirectory path = true := by
  cases made : (files.createDirectories path).2 with
  | ok done =>
    refine iff_of_true rfl (or_iff_not_imp_left.mpr fun filled => ?_)
    exact isDirectory_of_createDirectories filled made
  | error fault =>
    refine iff_of_false nofun ?_
    rintro (rfl | directory)
    · cases made
    · obtain ⟨above, inside, missing⟩ := isDirectory_of_createDirectories_error made
      have upper : (files.createDirectories path).1.isDirectory above = true := by
        rcases List.mem_cons.mp inside with rfl | higher
        · exact directory
        · exact isDirectory_of_mem_ancestors directory above higher
      exact Bool.false_ne_true (missing.symm.trans upper)

/-- Where only the last name of a path is free, a directory comes to its place, and nothing
else is made. -/
theorem createDirectories_of_free {location : Location} {slash : Bool}
    (leads : files.locate path = .ok (.free location, slash)) :
    files.createDirectories path = (files.put location .directory, .ok ()) := by
  have some : ¬ path.isEmpty = true := by
    intro none
    rw [String.isEmpty_iff.mp none, locate_empty] at leads
    cases leads
  have step : files.createDirectory path = .ok (files.put location .directory) := by
    rw [createDirectory, leads]
    rfl
  rw [createDirectories, if_neg some, createLowest, step]
  rfl

/-- Where a path leads nowhere for another reason than that something is missing, nothing is
done. The other directories of the line are only tried for a missing one. -/
theorem createDirectories_of_fault {fault : Fault} (leads : files.locate path = .error fault)
    (other : fault ≠ .missing) : files.createDirectories path = (files, .error fault) := by
  have some : ¬ path.isEmpty = true := by
    intro none
    rw [String.isEmpty_iff.mp none, locate_empty] at leads
    cases leads
    exact other rfl
  have step : files.createDirectory path = .error fault := by
    rw [createDirectory, leads]
    rfl
  have nothing : ¬ (fault = .occupied ∧ files.isDirectory path = true) := by
    rintro ⟨-, directory⟩
    obtain ⟨location, found⟩ := isDirectory_iff.mp directory
    rw [find, leads] at found
    cases found
  rw [createDirectories, if_neg some, createLowest, step]
  dsimp only
  rw [if_neg other, if_neg nothing]

end Creation

section Below

/-- A path goes on from the directory to which its first parts lead, as if one started
there. -/
theorem follow_append {here directory : Location} {front : List String}
    (leads : files.follow here front = .ok (.found directory .directory)) (rest : List String) :
    files.follow here (front ++ rest) = files.follow directory rest := by
  induction front generalizing here with
  | nil =>
    cases leads
    rfl
  | cons part front ih =>
    rw [List.cons_append]
    rcases files.follow_part here part with ⟨next, step⟩ | ⟨fault, step⟩ | ⟨-, other, fault, step⟩
    · rw [step] at leads ⊢
      exact ih leads
    · rw [step] at leads
      cases leads
    · rw [step] at leads
      split_ifs at leads
      exact absurd (Except.ok.inj leads) (meet_ne_directory other directory)

/-- Behind a file, a path leads nowhere, not even by an empty part or by dots. -/
theorem follow_append_file {here location : Location} {content : Bytes} {front rest : List String}
    (leads : files.follow here front = .ok (.found location (.file content))) (more : rest ≠ []) :
    ∃ fault, files.follow here (front ++ rest) = .error fault := by
  induction front generalizing here with
  | nil => cases leads
  | cons part front ih =>
    rw [List.cons_append]
    rcases files.follow_part here part with ⟨next, step⟩ | ⟨fault, step⟩ | ⟨-, -, fault, step⟩
    · rw [step] at leads ⊢
      exact ih leads
    · exact ⟨fault, step _⟩
    · exact ⟨fault, by rw [step, if_neg (by simp [more])]⟩

theorem follow_blanks {here : Location} {blanks : List String} (blank : ∀ part ∈ blanks, part = "") :
    files.follow here blanks = .ok (.found here .directory) := by
  induction blanks with
  | nil => rfl
  | cons part blanks ih =>
    obtain ⟨first, others⟩ := List.forall_mem_cons.mp blank
    rw [follow, if_pos (Or.inl first), ih others]

variable {directory name : String}

/-- What is joined starts as the directory does, and has one name more at the end. A slash
at the end of the directory is not doubled, so the last part of the directory may be gone,
which is empty. -/
theorem join_parts (filled : directory ≠ "") (slashless : '/' ∉ name.toList) :
    (join directory name).toList.head? = directory.toList.head? ∧
      ∃ front : List String, Text.splitAll '/' (join directory name).toList =
          front.map String.toList ++ [name.toList] ∧
        (Text.splitAll '/' directory.toList = front.map String.toList ∨
          Text.splitAll '/' directory.toList = front.map String.toList ++ [[]]) := by
  have relative : ¬ name.toList.head? = some '/' := fun same => slashless (List.mem_of_mem_head? same)
  have texts (parts : List (List Char)) : (parts.map String.ofList).map String.toList = parts := by
    simp [Function.comp_def]
  have behind (cs : List Char) : Text.splitAll '/' (cs ++ '/' :: name.toList) =
      Text.splitAll '/' cs ++ [name.toList] := by
    rw [Text.splitAll_eq_splitOn, List.splitOn_append_cons_self, List.splitOn_eq_singleton slashless,
      Text.splitAll_eq_splitOn]
  have first : directory.toList ≠ [] := by simpa using filled
  rw [join, if_neg relative]
  by_cases ends : directory.toList.getLast? = some '/'
  · obtain ⟨cs, whole⟩ := List.getLast?_eq_some_iff.mp ends
    have joined : (directory ++ name).toList = cs ++ '/' :: name.toList := by
      rw [String.toList_append, whole, List.append_assoc]
      rfl
    rw [if_pos (Or.inr ends)]
    refine ⟨by rw [String.toList_append, List.head?_append_of_ne_nil _ first], ?_⟩
    refine ⟨(Text.splitAll '/' cs).map String.ofList, by rw [joined, behind, texts], Or.inr ?_⟩
    rw [whole, texts, Text.splitAll_eq_splitOn, List.splitOn_append_cons_self, List.splitOn_nil,
      Text.splitAll_eq_splitOn]
  · have neither : ¬ (directory.isEmpty = true ∨ directory.toList.getLast? = some '/') := by
      rintro (none | slash)
      · exact filled (String.isEmpty_iff.mp none)
      · exact ends slash
    have joined : (directory ++ "/" ++ name).toList = directory.toList ++ '/' :: name.toList := by
      simp
    rw [if_neg neither]
    refine ⟨by rw [joined, List.head?_append_of_ne_nil _ first], ?_⟩
    exact ⟨(Text.splitAll '/' directory.toList).map String.ofList, by rw [joined, behind, texts],
      Or.inl (texts _).symm⟩

/-- A joined path leads on from where the path of the directory leads. Between the two there
may be empty parts, for slashes at the end of the directory; they stay where they are. -/
theorem locate_join_eq (files : Files) (filled : directory ≠ "") (slashless : '/' ∉ name.toList)
    (named : name ≠ "") : ∃ blanks : List String, (∀ part ∈ blanks, part = "") ∧
      files.locate (join directory name) = do
        checkPath (join directory name)
        return (← files.follow (files.startOf directory)
          ((Route.ofPath directory).parts ++ (blanks ++ [name])), false) := by
  obtain ⟨start, front, joined, parts⟩ := join_parts filled slashless
  have kept : (Route.ofPath directory).parts = front.rdropWhile (· == "") := by
    have back (list : List String) : (list.map String.toList).map String.ofList = list := by
      simp [Function.comp_def]
    change ((Text.splitAll '/' directory.toList).map String.ofList).rdropWhile (· == "") = _
    rcases parts with whole | more
    · rw [whole, back]
    · rw [more, List.map_append, back]
      exact List.rdropWhile_concat_pos _ _ _ (by decide)
  have absolute : (Route.ofPath (join directory name)).absolute = (Route.ofPath directory).absolute := by
    simp only [Route.ofPath, start]
  have route : Route.ofPath (join directory name) =
      ⟨(Route.ofPath directory).absolute, front ++ [name], false⟩ := by
    have all : (Text.splitAll '/' (join directory name).toList).map String.ofList =
        front ++ [name] := by
      rw [joined]
      simp [Function.comp_def]
    have whole : (front ++ [name]).rdropWhile (· == "") = front ++ [name] :=
      List.rdropWhile_concat_neg _ _ _ (by simpa using named)
    rw [List.rdropWhile] at whole
    rw [← absolute]
    simp only [Route.ofPath, all, whole, Nat.lt_irrefl, decide_false]
  refine ⟨front.rtakeWhile (· == ""), fun part inside => ?_, ?_⟩
  · simpa using List.mem_rtakeWhile_imp inside
  · rw [locate, route, startOf, kept, ← List.append_assoc, List.rdropWhile_append_rtakeWhile]

theorem mem_join {c : Char} (inside : c ∈ (join directory name).toList) :
    c ∈ directory.toList ∨ c = '/' ∨ c ∈ name.toList := by
  unfold join at inside
  split_ifs at inside
  · exact Or.inr (Or.inr inside)
  · rw [String.toList_append, List.mem_append] at inside
    exact inside.imp_right Or.inr
  · rw [String.toList_append, String.toList_append, List.mem_append, List.mem_append] at inside
    rcases inside with (inside | slash) | inside
    · exact Or.inl inside
    · exact Or.inr (Or.inl (List.mem_singleton.mp slash))
    · exact Or.inr (Or.inr inside)

theorem join_ne_empty (filled : name ≠ "") : join directory name ≠ "" := by
  unfold join
  split_ifs
  · exact filled
  · simp [filled]
  · simp

/-- A name that can be given to an entry of a directory. -/
structure IsEntryName (name : String) : Prop extends IsName name where
  slashless : '/' ∉ name.toList
  nulless : '\x00' ∉ name.toList
  short : name.utf8ByteSize ≤ nameLimit

theorem follow_name {here : Location} (named : IsEntryName name) :
    files.follow here [name] = .ok (files.meet (here ++ [name])) := by
  have stay : ¬ (name = "" ∨ name = ".") := by
    rintro (same | same)
    · exact named.filled same
    · exact named.inner same
  rw [follow, if_neg stay, if_neg named.down, if_neg (Nat.not_lt.mpr named.short)]
  exact follow_at_end rfl _

/-- What lies under a name in a directory is found there. The only further condition is on
the length of the joined path, since that of the directory alone does not bound it. -/
theorem locate_join {location : Location} (found : files.find directory = .ok (location, .directory))
    (named : IsEntryName name) (fits : (join directory name).utf8ByteSize ≤ pathLimit) :
    files.locate (join directory name) = .ok (files.meet (location ++ [name]), false) := by
  obtain ⟨slash, leads⟩ := locate_of_find found
  obtain ⟨checked, leads, -⟩ := locate_eq_ok_iff.mp leads
  obtain ⟨absent, filled, -⟩ := checkPath_eq_ok_iff.mp checked
  obtain ⟨blanks, blank, joined⟩ := files.locate_join_eq filled named.slashless named.filled
  have fine : checkPath (join directory name) = .ok () := by
    refine checkPath_eq_ok_iff.mpr ⟨fun nul => ?_, join_ne_empty named.filled, fits⟩
    rcases mem_join nul with above | slash | inside
    · exact absent above
    · cases slash
    · exact named.nulless inside
  rw [joined, fine, follow_append leads, follow_append (follow_blanks blank), follow_name named]
  rfl

/-- Nothing can lie under a name in a file. No condition on the length is needed here: a
path that is too long leads nowhere either. -/
theorem locate_join_file {location : Location} {content : Bytes}
    (found : files.find directory = .ok (location, .file content)) (named : IsEntryName name) :
    ∃ fault, files.locate (join directory name) = .error fault := by
  obtain ⟨slash, leads⟩ := locate_of_find found
  obtain ⟨checked, leads, -⟩ := locate_eq_ok_iff.mp leads
  obtain ⟨-, filled, -⟩ := checkPath_eq_ok_iff.mp checked
  obtain ⟨blanks, -, joined⟩ := files.locate_join_eq filled named.slashless named.filled
  have behind : blanks ++ [name] ≠ [] := by simp
  obtain ⟨nowhere, ends⟩ := follow_append_file leads behind
  rw [joined, ends]
  cases checkPath (join directory name) with
  | error fault => exact ⟨fault, rfl⟩
  | ok checked => exact ⟨nowhere, rfl⟩

end Below

end PlatformClient.Files
