import Mathlib.Data.List.DropRight
import PlatformClient.Proofs.FileTrees
import PlatformClient.Proofs.TextParts

namespace PlatformClient.Files

section Names

/-- A name that leads to something in a directory, and not elsewhere. -/
structure IsName (name : String) : Prop where
  filled : name ≠ ""
  inner : name ≠ "."
  down : name ≠ ".."

variable {files : Files}

theorem location_meet (files : Files) (location : Location) :
    (files.meet location).location = location := by
  unfold meet
  cases files.entry? location <;> rfl

theorem meet_ne_directory {location : Location} (other : files.entry? location ≠ some .directory)
    (place : Location) : files.meet location ≠ .found place .directory := by
  intro same
  have here : location = place := by
    rw [← files.location_meet location, same]
    rfl
  exact other (meet_eq_found_iff.mp (here ▸ same))

/-- A part of a path leads on to a directory, or to nothing, or it is the name of something
behind which no path leads any further. A path to a file can only have its name at the end. -/
theorem follow_part (files : Files) (here : Location) (part : String) :
    (∃ next, ∀ rest, files.follow here (part :: rest) = files.follow next rest) ∨
      (∃ fault, ∀ rest, files.follow here (part :: rest) = .error fault) ∨
      IsName part ∧ files.entry? (here ++ [part]) ≠ some .directory ∧
        ∃ fault, ∀ rest, files.follow here (part :: rest) =
          if rest.isEmpty then .ok (files.meet (here ++ [part])) else .error fault := by
  by_cases stay : part = "" ∨ part = "."
  · exact Or.inl ⟨here, fun rest => by rw [follow, if_pos stay]⟩
  by_cases up : part = ".."
  · exact Or.inl ⟨here.dropLast, fun rest => by rw [follow, if_neg stay, if_pos up]⟩
  by_cases long : nameLimit < part.utf8ByteSize
  · exact Or.inr (Or.inl ⟨_, fun rest => by rw [follow, if_neg stay, if_neg up, if_pos long]⟩)
  have named : IsName part :=
    ⟨fun same => stay (Or.inl same), fun same => stay (Or.inr same), up⟩
  unfold meet
  cases known : files.entry? (here ++ [part]) with
  | none =>
    refine Or.inr (Or.inr ⟨named, by simp, .missing, fun rest => ?_⟩)
    rw [follow, if_neg stay, if_neg up, if_neg long]
    simp only [known]
  | some entry =>
    cases entry with
    | directory =>
      refine Or.inl ⟨here ++ [part], fun rest => ?_⟩
      rw [follow, if_neg stay, if_neg up, if_neg long]
      simp only [known]
    | file content =>
      refine Or.inr (Or.inr ⟨named, by simp, .notDirectory, fun rest => ?_⟩)
      rw [follow, if_neg stay, if_neg up, if_neg long]
      simp only [known]

/-- What is no directory is named by the last part of a path, in the directory to which the
parts in front of it lead. Parts that lead nowhere or up name directories only. -/
theorem follow_last {here : Location} {parts : List String} {target : Target}
    (leads : files.follow here parts = .ok target)
    (file : ∀ location, target ≠ .found location .directory) :
    ∃ front name directory, parts = front ++ [name] ∧ IsName name ∧
      files.follow here front = .ok (.found directory .directory) ∧
      target.location = directory ++ [name] := by
  induction parts generalizing here with
  | nil =>
    cases leads
    exact absurd rfl (file here)
  | cons part rest ih =>
    rcases files.follow_part here part with ⟨next, step⟩ | ⟨fault, step⟩ | ⟨named, -, fault, step⟩
    · obtain ⟨front, name, directory, rfl, named, above, place⟩ := ih (step rest ▸ leads)
      exact ⟨part :: front, name, directory, rfl, named, (step front).trans above, place⟩
    · rw [step] at leads
      cases leads
    · rw [step] at leads
      split_ifs at leads with ends
      cases leads
      exact ⟨[], part, here, by rw [List.isEmpty_iff.mp ends]; rfl, named, rfl,
        files.location_meet _⟩

end Names

section Spelling

theorem slashless_of_mem_splitAll {cs part : List Char} (member : part ∈ Text.splitAll '/' cs) :
    '/' ∉ part := by
  rw [Text.splitAll_eq_splitOn] at member
  intro slash
  have other := (Text.of_mem_splitOnP member '/' slash).2
  simp at other

/-- A text starts with a slash where its first part is empty, and is not the only one. -/
theorem head?_eq_slash_iff {cs : List Char} :
    cs.head? = some '/' ↔ ∃ part parts, Text.splitAll '/' cs = [] :: part :: parts := by
  cases cs with
  | nil => simp [Text.splitAll]
  | cons c rest =>
    obtain ⟨part, parts, split⟩ := List.exists_cons_of_ne_nil (List.splitOn_ne_nil '/' rest)
    rw [← Text.splitAll_eq_splitOn] at split
    by_cases same : c = '/'
    · simp [Text.splitAll, same, split]
    · simp [Text.splitAll, same, split]

/-- A path is made of the parts that lead to a directory, and of a name there. It is cut at
its last slash, and no slashes are left at its end. -/
structure Spells (path : String) (front : List String) (name : String) : Prop where
  parts : Text.splitAll '/' path.toList = front.map String.toList ++ [name.toList]
  named : IsName name

variable {path : String} {front : List String} {name : String}

/-- Whether a path starts at the root does not depend on the name at its end. -/
theorem Spells.absolute_iff (spells : Spells path front name) :
    (Route.ofPath path).absolute = true ↔ front.head? = some "" := by
  have filled : name.toList ≠ [] := by
    simpa using spells.named.filled
  rw [Route.ofPath, beq_iff_eq, head?_eq_slash_iff, spells.parts]
  cases front with
  | nil => simp [filled]
  | cons first front => cases front <;> simp

theorem Spells.unique {other : String} (spells : Spells path front name) {rest : List String}
    (again : Text.splitAll '/' path.toList = rest.map String.toList ++ [other.toList]) :
    rest = front ∧ other = name := by
  obtain ⟨fronts, names⟩ := List.append_inj' (again.symm.trans spells.parts) rfl
  exact ⟨List.map_injective_iff.mpr (fun _ _ same => String.toList_injective same) fronts,
    String.toList_injective (List.cons.inj names).1⟩

/-- A path with another name at its end leads through the same directories. -/
theorem Spells.absolute_congr {path other : String} {front : List String} {name draft : String}
    (spells : Spells path front name) (beside : Spells other front draft) :
    (Route.ofPath other).absolute = (Route.ofPath path).absolute :=
  Bool.eq_iff_iff.mpr (beside.absolute_iff.trans spells.absolute_iff.symm)

/-- Where a path starts. -/
def startOf (files : Files) (path : String) : Location :=
  if (Route.ofPath path).absolute then [] else files.workingDirectory

/-- Where no slashes are at the end of a path, its parts are all those between slashes. -/
theorem parts_of_slash_eq_false (bare : (Route.ofPath path).slash = false) :
    (Route.ofPath path).parts = (Text.splitAll '/' path.toList).map String.ofList := by
  have whole := Nat.le_of_not_lt (of_decide_eq_false bare)
  exact (List.rdropWhile_prefix (· == "") _).eq_of_length_le whole

/-- A path to a file ends with the name of the file in a directory. So a path with another
name at its end leads to a file beside it. -/
theorem Names.spells {files : Files} {location : Location} (names : files.Names path location) :
    ∃ front name directory, Spells path front name ∧
      files.follow (files.startOf path) front = .ok (.found directory .directory) ∧
      location = directory ++ [name] := by
  obtain ⟨leads, file⟩ := names
  rw [locate, bind_eq_ok_iff] at leads
  obtain ⟨-, -, leads⟩ := leads
  obtain ⟨target, leads, same⟩ := bind_eq_ok_iff.mp leads
  obtain ⟨rfl, bare⟩ := Prod.mk.inj (Except.ok.inj same)
  obtain ⟨front, name, directory, parts, named, above, place⟩ :=
    follow_last leads (meet_ne_directory file)
  refine ⟨front, name, directory, ⟨?_, named⟩, above, ?_⟩
  · rw [parts_of_slash_eq_false bare] at parts
    have texts := congrArg (List.map String.toList) parts
    simpa [Function.comp_def] using texts
  · rw [← place, location_meet]

end Spelling

section Siblings

variable {path extension : String} {front : List String} {name : String}

/-- No part of a path holds a slash. -/
theorem Spells.slashless (spells : Spells path front name) :
    ∀ part ∈ front ++ [name], '/' ∉ part.toList := by
  intro part member
  have inside : part.toList ∈ Text.splitAll '/' path.toList := by
    rw [spells.parts]
    simpa using List.mem_map_of_mem (f := String.toList) member
  exact slashless_of_mem_splitAll inside

theorem mem_of_mem_stem {name : List Char} {c : Char} (inside : c ∈ stem name) : c ∈ name := by
  unfold stem at inside
  split at inside
  · exact inside
  · rename_i ending before split
    obtain ⟨joined, -⟩ := Text.splitFirst_eq_some_iff.mp split
    split_ifs at inside with bare
    · exact inside
    · have reversed : c ∈ name.reverse := by
        rw [joined]
        exact List.mem_append_right _ (List.mem_cons_of_mem _ (List.mem_reverse.mp inside))
      exact List.mem_reverse.mp reversed

/-- An ending that has a dot in it is new at the end of any name. -/
theorem stem_append_ne {name ending : List Char} (dotted : '.' ∈ ending) :
    stem name ++ '.' :: ending ≠ name := by
  unfold stem
  split
  · simp
  · rename_i after before split
    split_ifs
    · simp
    · obtain ⟨joined, absent⟩ := Text.splitFirst_eq_some_iff.mp split
      intro same
      have reversed : ending.reverse ++ '.' :: before = after ++ '.' :: before := by
        simpa using (congrArg List.reverse same).trans joined
      obtain ⟨ends, -⟩ := List.append_inj' reversed rfl
      exact absent (ends ▸ List.mem_reverse.mpr dotted)

/-- A name with another ending. -/
def withEnding (name ending : String) : String :=
  String.ofList (stem name.toList ++ '.' :: ending.toList)

theorem withEnding_ne {name ending : String} (dotted : '.' ∈ ending.toList) :
    withEnding name ending ≠ name := by
  intro same
  have texts := congrArg String.toList same
  rw [withEnding, String.toList_ofList] at texts
  exact stem_append_ne dotted texts

theorem withExtension_spelled (spells : Spells path front name) (slashless : '/' ∉ extension.toList) :
    Text.splitAll '/' (withExtension path extension).toList =
      front.map String.toList ++ [(withEnding name extension).toList] := by
  have parts : reversedParts path = name.toList :: (front.map String.toList).reverse := by
    unfold reversedParts trimmedParts
    rw [spells.parts, List.reverse_append, List.reverse_singleton, List.singleton_append,
      List.dropWhile_cons_of_neg]
    have filled := spells.named.filled
    have inner : name.toList ≠ ['.'] := fun same =>
      spells.named.inner (String.toList_injective same)
    simpa using ⟨filled, inner⟩
  have down : name.toList ≠ ['.', '.'] := fun same =>
    spells.named.down (String.toList_injective same)
  rw [withEnding, String.toList_ofList]
  have pieces : ∀ part ∈ front.map String.toList ++ [stem name.toList ++ '.' :: extension.toList],
      '/' ∉ part := by
    intro part member
    rcases List.mem_append.mp member with above | ending
    · obtain ⟨text, inside, rfl⟩ := List.mem_map.mp above
      exact spells.slashless text (List.mem_append_left _ inside)
    · rw [List.mem_singleton.mp ending]
      simp only [List.mem_append, List.mem_cons, not_or]
      exact ⟨fun slash => spells.slashless name (by simp) (mem_of_mem_stem slash), by decide, slashless⟩
  unfold withExtension
  rw [parts]
  dsimp only
  rw [if_neg down, joinParts, String.toList_ofList, List.reverse_cons, List.reverse_reverse,
    Text.splitAll_eq_splitOn, List.splitOn_intercalate _ pieces (by simp)]

/-- A file whose path differs by the ending of its name lies beside the other one. Both
paths lead to the same directory, since they share all parts but the last. -/
theorem Names.withExtension {files : Files} {location place : Location}
    (names : files.Names path location) (slashless : '/' ∉ extension.toList)
    (beside : files.Names (withExtension path extension) place) :
    ∃ directory name, location = directory ++ [name] ∧
      place = directory ++ [withEnding name extension] := by
  obtain ⟨front, name, directory, spells, above, rfl⟩ := names.spells
  obtain ⟨others, draft, other, drafted, elsewhere, rfl⟩ := beside.spells
  obtain ⟨rfl, rfl⟩ := drafted.unique (withExtension_spelled spells slashless)
  have start : files.startOf (Files.withExtension path extension) = files.startOf path := by
    unfold startOf
    rw [spells.absolute_congr drafted]
  rw [start, above] at elsewhere
  cases elsewhere
  exact ⟨directory, name, rfl, rfl⟩

end Siblings

section Ancestors

theorem trimmedParts_suffix (parts : List (List Char)) : trimmedParts parts <:+ parts :=
  List.dropWhile_suffix _

/-- What is joined of parts falls into the same parts again. -/
theorem splitAll_joinParts {parts : List (List Char)} (some : parts ≠ [])
    (slashless : ∀ part ∈ parts, '/' ∉ part) :
    Text.splitAll '/' (joinParts parts).toList = parts.reverse := by
  rw [joinParts, String.toList_ofList, Text.splitAll_eq_splitOn,
    List.splitOn_intercalate _ (by simpa using slashless) (by simpa using some)]

/-- The first parts of a text decide whether it starts with a slash, unless there is one only. -/
theorem head?_eq_slash_congr {cs other : List Char} {first : List Char}
    {parts rest : List (List Char)} (filled : first ≠ [] ∨ parts ≠ [] ∧ rest ≠ [])
    (split : Text.splitAll '/' cs = first :: parts)
    (elsewhere : Text.splitAll '/' other = first :: rest) :
    cs.head? = some '/' ↔ other.head? = some '/' := by
  rw [head?_eq_slash_iff, head?_eq_slash_iff, split, elsewhere]
  rcases filled with filled | ⟨more, others⟩
  · simp [filled]
  · obtain ⟨part, parts, rfl⟩ := List.exists_cons_of_ne_nil more
    obtain ⟨part, rest, rfl⟩ := List.exists_cons_of_ne_nil others
    simp

theorem ancestorsOf_cons (absolute : Bool) (part : List Char) (above : List (List Char)) :
    ancestorsOf absolute (part :: above) =
      if (trimmedParts above).isEmpty then (if absolute then ["/"] else [])
      else joinParts (trimmedParts above) :: ancestorsOf absolute (trimmedParts above) := by
  rw [ancestorsOf]

/-- What is above a part of a path is above the path that ends there. -/
theorem ancestors_joinParts {path : String} {front rest : List (List Char)}
    (filled : rest ≠ []) (split : (Text.splitAll '/' path.toList).reverse = front ++ rest)
    (trimmed : trimmedParts rest = rest) :
    ancestors (joinParts rest) = ancestorsOf (path.toList.head? == some '/') rest := by
  have slashless : ∀ part ∈ rest, '/' ∉ part := by
    intro part member
    have inside : part ∈ (Text.splitAll '/' path.toList).reverse :=
      split ▸ List.mem_append_right front member
    exact slashless_of_mem_splitAll (List.mem_reverse.mp inside)
  have parts := splitAll_joinParts filled slashless
  have whole : Text.splitAll '/' path.toList = rest.reverse ++ front.reverse := by
    simpa using congrArg List.reverse split
  have absolute : ((joinParts rest).toList.head? == some '/') =
      (path.toList.head? == some '/') := by
    obtain ⟨first, others, order⟩ :=
      List.exists_cons_of_ne_nil (List.reverse_eq_nil_iff.not.mpr filled)
    rw [order] at parts whole
    rw [Bool.eq_iff_iff, beq_iff_eq, beq_iff_eq]
    refine head?_eq_slash_congr ?_ parts whole
    cases others with
    | cons part others => exact Or.inr ⟨nofun, nofun⟩
    | nil =>
      obtain rfl : rest = [first] := by simpa using congrArg List.reverse order
      refine Or.inl ?_
      rintro rfl
      cases trimmed
  rw [ancestors, absolute, reversedParts, parts, List.reverse_reverse, trimmed]

/-- The directories above a path are the lowest of them and those above that. -/
theorem ancestors_eq_cons {path parent : String} (known : parent? path = some parent) :
    ancestors path = parent :: ancestors parent := by
  obtain ⟨skipped, split⟩ := trimmedParts_suffix (Text.splitAll '/' path.toList).reverse
  unfold parent? at known
  rw [ancestors, reversedParts] at known ⊢
  cases parts : trimmedParts (Text.splitAll '/' path.toList).reverse with
  | nil =>
    rw [parts, ancestorsOf] at known
    cases known
  | cons name above =>
    rw [parts, ancestorsOf_cons] at known
    rw [ancestorsOf_cons]
    split_ifs at known ⊢ with bare absolute
    · cases known
      have root : reversedParts "/" = [] := by decide
      rw [ancestors, root, ancestorsOf]
    · cases known
    · cases known
      obtain ⟨passed, further⟩ := trimmedParts_suffix above
      have whole : (Text.splitAll '/' path.toList).reverse =
          (skipped ++ name :: passed) ++ trimmedParts above := by
        rw [List.append_assoc, List.cons_append, further, ← parts, split]
      rw [ancestors_joinParts (by simpa using bare) whole (List.dropWhile_idempotent ..)]

end Ancestors

end PlatformClient.Files
