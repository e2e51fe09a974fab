import PlatformClient.Proofs.ErrorCascade
import PlatformClient.Proofs.JsonDocuments

namespace PlatformClient.Problem

section Written

variable {α : Type} {write : α → Json} {kind : Json → Option α} {found other : α}

/-- What is written only if it is not empty is known from what is written of it: where
nothing is written it is the empty value, and otherwise the writing is injective. -/
theorem eq_of_written (empty : α) (injective : Function.Injective write)
    (either : ∀ value, value = write found ∧ found ≠ empty ↔ value = write other ∧ other ≠ empty) :
    found = other := by
  by_cases none : found = empty
  · by_contra apart
    exact ((either _).mpr ⟨rfl, fun same => apart (none.trans same.symm)⟩).2 none
  · exact injective ((either _).mp ⟨rfl, none⟩).1

/-- What is found among members of a kind is written as it is there, unless it is empty. A
member of another kind would be lost on the way, so the kinds of the members are assumed. -/
theorem written_iff {members : List (String × Json)} {name : String} {value : Json} {empty : α}
    (injective : Function.Injective write)
    (typed : ∀ member, members.lookup name = some member →
      ∃ content, member = write content ∧ kind (write content) = some content)
    (given : ((members.lookup name).bind kind).getD empty = found) :
    value = write found ∧ found ≠ empty ↔
      members.lookup name = some value ∧ value ≠ write empty := by
  cases known : members.lookup name with
  | none =>
    rw [known] at given
    simp [← given]
  | some member =>
    obtain ⟨content, rfl, of_kind⟩ := typed member known
    rw [known, Option.bind_some, of_kind] at given
    obtain rfl : content = found := given
    rw [Option.some.injEq, eq_comm]
    refine and_congr_right ?_
    rintro rfl
    exact injective.ne_iff.symm

theorem string_injective : Function.Injective Json.string := fun _ _ => Json.string.inj

theorem number_injective : Function.Injective fun number : Nat => Json.number (.whole number) := by
  intro number other same
  exact Int.natCast_inj.mp (Json.Number.whole.inj (Json.number.inj same))

end Written

section Lists

variable {members : List (String × Json)} {name key text : String} {value : Json}

theorem mem_textField_iff :
    (key, value) ∈ textField name text ↔ key = name ∧ value = .string text ∧ text ≠ "" := by
  unfold textField
  split_ifs with empty
  · simp [String.isEmpty_iff.mp empty]
  · simp [mt String.isEmpty_iff.mpr empty]

/-- A field of a problem is found under its name from either end of its members, since the
fields of a problem occur once. Of the other names the two ends can give different values. -/
theorem Proper.lookup_reverse (proper : Proper members) (known : name ∈ fieldNames) :
    members.reverse.lookup name = members.lookup name := by
  induction members using List.reverseRecOn with
  | nil => rfl
  | append_singleton members member ih =>
    obtain ⟨earlier, fits⟩ := proper_append.mp proper
    rw [List.reverse_append, List.reverse_singleton, List.singleton_append, lookup_cons_ite,
      lookup_behind, ih earlier]
    by_cases same : name = member.1
    · have fresh : members.lookup name = none := by
        refine List.lookup_eq_none_iff.mpr fun other inside => ?_
        have absent := fits.fresh (same ▸ known)
        simp only [bne_iff_ne, ne_eq]
        rintro rfl
        exact absent (same ▸ List.mem_map_of_mem inside)
      rw [if_pos same, if_pos same, fresh, Option.none_or]
    · rw [if_neg same, if_neg same, Option.or_none]

/-- What is unknown is found among what is unknown. -/
theorem lookup_filter_unknown (members : List (String × Json)) (unknown : name ∉ fieldNames) :
    (members.filter (·.1 ∉ fieldNames)).lookup name = members.lookup name := by
  induction members with
  | nil => rfl
  | cons member members ih =>
    obtain ⟨other, value⟩ := member
    by_cases known : other ∈ fieldNames
    · have apart : name ≠ other := fun same => unknown (same ▸ known)
      rw [List.filter_cons_of_neg (by simpa using known), ih, lookup_cons_ite, if_neg apart]
    · rw [List.filter_cons_of_pos (by simpa using known), lookup_cons_ite, lookup_cons_ite, ih]

/-- A text of a problem is the one among its members, unless that is empty. -/
theorem Proper.text_iff (proper : Proper members) (known : name ∈ textNames)
    (given : ((members.lookup name).bind Json.string?).getD "" = text) :
    value = .string text ∧ text ≠ "" ↔ members.lookup name = some value ∧ value ≠ .string "" := by
  refine written_iff string_injective (fun member found => ?_) given
  obtain ⟨content, same⟩ := (proper.typed _ (Entries.mem_of_lookup found)).text known
  obtain rfl : member = .string content := same
  exact ⟨content, rfl, rfl⟩

/-- So is its status, unless that is zero. -/
theorem Proper.status_iff (proper : Proper members) {number : Nat}
    (given : ((members.lookup "status").bind Json.uint16?).getD 0 = number) :
    value = .number (.whole number) ∧ number ≠ 0 ↔
      members.lookup "status" = some value ∧ value ≠ .number (.whole 0) := by
  refine written_iff number_injective (fun member found => ?_) given
  obtain ⟨content, same, small⟩ := (proper.typed _ (Entries.mem_of_lookup found)).status rfl
  obtain rfl : member = .number (.whole content) := same
  have range : 0 ≤ (content : Int) ∧ (content : Int) < 0x10000 := by omega
  exact ⟨content, rfl, by rw [Json.uint16?, if_pos range, Int.toNat_natCast]⟩

end Lists

section Fields

variable {problem : Problem} {members : List (String × Json)} {name : String} {value : Json}

/-- A member that says nothing of a problem: a text of its own that is empty, or a status
that is zero. Such a member is kept as its default and not written again. -/
def Unset (member : String × Json) : Prop :=
  (member.1 ∈ textNames ∧ member.2 = .string "") ∨
    (member.1 = "status" ∧ member.2 = .number (.whole 0))

/-- A problem as problems are kept. No extension has the name of a field, so that no two
members of one name can be written. -/
structure Sound (problem : Problem) : Prop where
  status : problem.status < 0x10000
  sorted : Entries.Sorted problem.extensions
  apart : ∀ field ∈ problem.extensions, field.1 ∉ fieldNames

theorem mem_fields_iff : (name, value) ∈ problem.fields ↔
    (name = "type" ∧ value = .string problem.type ∧ problem.type ≠ "") ∨
    (name = "title" ∧ value = .string problem.title ∧ problem.title ≠ "") ∨
    (name = "detail" ∧ value = .string problem.detail ∧ problem.detail ≠ "") ∨
    (name = "status" ∧ value = .number (.whole problem.status) ∧ problem.status ≠ 0) ∨
    (name = "instance" ∧ value = .string problem.occurrence ∧ problem.occurrence ≠ "") ∨
    (name, value) ∈ problem.extensions := by
  have status : (name, value) ∈ (if problem.status = 0 then []
      else [("status", Json.number (.whole problem.status))]) ↔
        name = "status" ∧ value = .number (.whole problem.status) ∧ problem.status ≠ 0 := by
    split_ifs with zero <;> simp [zero]
  simp only [fields, List.mem_append, mem_textField_iff, status, or_assoc]

theorem uint16?_lt {number : Nat} (known : Json.uint16? value = some number) :
    number < 0x10000 := by
  unfold Json.uint16? at known
  split at known
  · split_ifs at known with range
    cases known
    omega
  · cases known

/-- Whatever the members are, a sound problem is made of them: the names of fields are left
out of the extensions, and a status beyond 16 bits is not taken. -/
theorem sound_ofMembers (members : List (String × Json)) : Sound (ofMembers members) where
  status := by
    rw [ofMembers]
    cases known : (members.lookup "status").bind Json.uint16? with
    | none => exact Nat.zero_lt_succ _
    | some number =>
      obtain ⟨value, -, known⟩ := Option.bind_eq_some_iff.mp known
      exact uint16?_lt known
  sorted := Json.Fields.sorted_ofMembers _
  apart field inside := by
    have unknown := (List.mem_filter.mp (Json.Fields.mem_of_mem_ofMembers inside)).2
    simpa using unknown

/-- No name occurs twice in what is written of a problem: the fields have five names, each
written at most once, and the extensions have none of these. -/
theorem Sound.distinct (sound : Sound problem) : (problem.fields.map (·.1)).Nodup := by
  have text : ∀ name text, ((textField name text).map (·.1)).Sublist [name] := by
    intro name text
    unfold textField
    split_ifs
    · exact List.nil_sublist _
    · exact List.Sublist.refl _
  have status : ((if problem.status = 0 then []
      else [("status", Json.number (.whole problem.status))]).map (·.1)).Sublist ["status"] := by
    split_ifs
    · exact List.nil_sublist _
    · exact List.Sublist.refl _
  have own := ((((text "type" problem.type).append (text "title" problem.title)).append
    (text "detail" problem.detail)).append status).append (text "instance" problem.occurrence)
  simp only [fields, List.map_append]
  refine List.nodup_append.mpr ⟨List.Nodup.sublist own (by decide), sound.sorted.distinct, ?_⟩
  rintro name inside other last rfl
  obtain ⟨field, member, rfl⟩ := List.mem_map.mp last
  refine sound.apart field member ?_
  have known : ∀ name ∈ ["type"] ++ ["title"] ++ ["detail"] ++ ["status"] ++ ["instance"],
      name ∈ fieldNames := by decide
  exact known _ (own.subset inside)

theorem Sound.not_mem (sound : Sound problem) (known : name ∈ fieldNames) :
    (name, value) ∉ problem.extensions := fun inside => sound.apart _ inside known

/-- What is written of a problem describes one, so that it is not refused when it is read
again. -/
theorem Sound.proper (sound : Sound problem) : Proper problem.fields where
  once := sound.distinct.filter _
  typed := by
    rintro ⟨name, value⟩ inside
    rcases mem_fields_iff.mp inside with ⟨rfl, rfl, -⟩ | ⟨rfl, rfl, -⟩ | ⟨rfl, rfl, -⟩ |
      ⟨rfl, rfl, -⟩ | ⟨rfl, rfl, -⟩ | inside
    · exact (typed_text_iff (by decide) _).mpr rfl
    · exact (typed_text_iff (by decide) _).mpr rfl
    · exact (typed_text_iff (by decide) _).mpr rfl
    · have other : "status" ∉ textNames := by decide
      exact ⟨fun text => absurd text other, fun _ => ⟨problem.status, rfl, sound.status⟩⟩
    · exact (typed_text_iff (by decide) _).mpr rfl
    · exact typed_of_unknown (sound.apart _ inside)

/-- The text that a problem has under one of their names. -/
def text (problem : Problem) (name : String) : String :=
  if name = "type" then problem.type
  else if name = "title" then problem.title
  else if name = "detail" then problem.detail
  else problem.occurrence

theorem mem_textNames_iff :
    name ∈ textNames ↔ name = "type" ∨ name = "title" ∨ name = "detail" ∨ name = "instance" := by
  simp [textNames]

theorem Sound.mem_text_iff (sound : Sound problem) (known : name ∈ textNames) :
    (name, value) ∈ problem.fields ↔
      value = .string (problem.text name) ∧ problem.text name ≠ "" := by
  have absent : (name, value) ∉ problem.extensions := sound.not_mem (List.mem_cons_of_mem _ known)
  rcases mem_textNames_iff.mp known with rfl | rfl | rfl | rfl <;>
    simp [mem_fields_iff, absent, text]

theorem Sound.mem_status_iff (sound : Sound problem) : ("status", value) ∈ problem.fields ↔
    value = .number (.whole problem.status) ∧ problem.status ≠ 0 := by
  have absent : ("status", value) ∉ problem.extensions := sound.not_mem List.mem_cons_self
  simp [mem_fields_iff, absent]

theorem mem_fields_of_unknown (unknown : name ∉ fieldNames) :
    (name, value) ∈ problem.fields ↔ (name, value) ∈ problem.extensions := by
  simp only [fieldNames, List.mem_cons, mem_textNames_iff, not_or] at unknown
  simp [mem_fields_iff, unknown]

theorem Sound.not_unset (sound : Sound problem) (inside : (name, value) ∈ problem.fields) :
    ¬ Unset (name, value) := by
  rintro (⟨known, rfl⟩ | ⟨rfl, rfl⟩)
  · obtain ⟨same, some⟩ := (sound.mem_text_iff known).mp inside
    exact some (Json.string.inj same).symm
  · obtain ⟨same, some⟩ := sound.mem_status_iff.mp inside
    cases zero : problem.status with
    | zero => exact some zero
    | succ number =>
      rw [zero] at same
      cases same

/-- Problems of which the same is written are the same. What is not written is a default and
hence the same in both, and the extensions are sorted, so that their members determine them. -/
theorem Sound.ext {other : Problem} (sound : Sound problem) (again : Sound other)
    (same : ∀ name value, (name, value) ∈ problem.fields ↔ (name, value) ∈ other.fields) :
    problem = other := by
  have texts : ∀ name ∈ textNames, problem.text name = other.text name := by
    intro name known
    refine eq_of_written "" string_injective fun value => ?_
    rw [← sound.mem_text_iff known, ← again.mem_text_iff known, same]
  have status : problem.status = other.status := by
    refine eq_of_written 0 number_injective fun value => ?_
    rw [← sound.mem_status_iff, ← again.mem_status_iff, same]
  have extensions : problem.extensions = other.extensions := by
    refine sound.sorted.ext again.sorted fun name => Option.ext fun value => ?_
    rw [← sound.sorted.mem_iff_lookup, ← again.sorted.mem_iff_lookup]
    by_cases known : name ∈ fieldNames
    · exact iff_of_false (sound.not_mem known) (again.not_mem known)
    · rw [← mem_fields_of_unknown known, ← mem_fields_of_unknown known, same]
  obtain ⟨type, title, detail, number, occurrence, fields⟩ := problem
  obtain ⟨type', title', detail', number', occurrence', fields'⟩ := other
  simp only [Problem.mk.injEq]
  exact ⟨texts "type" (by decide), texts "title" (by decide), texts "detail" (by decide), status,
    texts "instance" (by decide), extensions⟩

/-- What is written of a problem is what its members say, of those of one name the last, but
for what is not set. For the fields the last is the only one; the extensions are a map, in
which a later member takes the place of an earlier one. -/
theorem mem_fields_ofMembers (proper : Proper members) :
    (name, value) ∈ (ofMembers members).fields ↔
      members.reverse.lookup name = some value ∧ ¬ Unset (name, value) := by
  have sound := sound_ofMembers members
  by_cases known : name ∈ fieldNames
  · rw [proper.lookup_reverse known]
    have other : "status" ∉ textNames := by decide
    rcases List.mem_cons.mp known with rfl | text
    · have given : ((members.lookup "status").bind Json.uint16?).getD 0 =
          (ofMembers members).status := rfl
      rw [sound.mem_status_iff, proper.status_iff given]
      simp [Unset, other]
    · have apart : name ≠ "status" := fun same => other (same ▸ text)
      have given : ((members.lookup name).bind Json.string?).getD "" =
          (ofMembers members).text name := by
        rcases mem_textNames_iff.mp text with rfl | rfl | rfl | rfl <;> rfl
      rw [sound.mem_text_iff text, proper.text_iff text given]
      simp [Unset, text, apart]
  · have set : ¬ Unset (name, value) := by
      rintro (⟨text, -⟩ | ⟨rfl, -⟩)
      · exact known (List.mem_cons_of_mem _ text)
      · exact known List.mem_cons_self
    rw [and_iff_left set, mem_fields_of_unknown known, ofMembers, Json.Fields.mem_ofMembers_iff,
      ← List.filter_reverse, lookup_filter_unknown _ known]

theorem Sound.lookup_reverse (sound : Sound problem) :
    problem.fields.reverse.lookup name = some value ↔ (name, value) ∈ problem.fields := by
  have distinct : (problem.fields.reverse.map (·.1)).Nodup := by
    rw [List.map_reverse]
    exact List.nodup_reverse.mpr sound.distinct
  rw [← Entries.mem_iff_lookup distinct, List.mem_reverse]

/-- What is written of a problem describes that problem. Both sides are sound, so it is
enough that the same is written of both. -/
theorem Sound.ofMembers_fields (sound : Sound problem) : ofMembers problem.fields = problem :=
  (sound_ofMembers _).ext sound fun name value => by
    rw [mem_fields_ofMembers sound.proper, sound.lookup_reverse]
    exact and_iff_left_of_imp sound.not_unset

end Fields

section Bodies

variable {problem : Problem} {members : List (String × Json)} {body : Bytes}

theorem read_eq_ok_iff : read body = .ok problem ↔
    ∃ members, Json.readMembers body = .ok members ∧ Proper members ∧
      problem = ofMembers members := by
  unfold read Json.readMembers
  simp only [Json.readWith_eq_ok_iff, reader_eq_ok_iff]
  constructor
  · rintro ⟨left, ⟨members, kept, proper, same⟩, done⟩
    exact ⟨members, ⟨left, kept, done⟩, proper, same⟩
  · rintro ⟨members, ⟨left, kept, done⟩, proper, same⟩
    exact ⟨left, ⟨members, kept, proper, same⟩, done⟩

theorem sound_of_readMembers (read : Json.readMembers body = .ok members) :
    ∀ member ∈ members, member.2.Whole → Json.Sound (Json.depthLimit - 1) member.2 := by
  obtain ⟨left, read, -⟩ := Json.readWith_eq_ok_iff.mp read
  obtain ⟨behind, -, read⟩ := Json.objectMembers_eq_ok_iff.mp read
  exact Json.forall_mem_members (fun read => Json.sound_of_value read) (List.forall_mem_nil _) read

/-- The members of what is written of a problem are what is to be written of it, in this
order and with nothing lost: the text is that of an object, whose values lie one level
deeper than the object itself. -/
theorem Sound.readMembers_encode (sound : Sound problem)
    (each : ∀ field ∈ problem.extensions, Json.Sound (Json.depthLimit - 1) field.2) :
    Json.readMembers (Text.encode problem.encode) = .ok problem.fields := by
  have all : ∀ field ∈ problem.fields, Json.Sound (Json.depthLimit - 1) field.2 := by
    rintro ⟨name, value⟩ inside
    rcases mem_fields_iff.mp inside with ⟨-, rfl, -⟩ | ⟨-, rfl, -⟩ | ⟨-, rfl, -⟩ | ⟨-, rfl, -⟩ |
      ⟨-, rfl, -⟩ | inside
    · exact .string _
    · exact .string _
    · exact .string _
    · have small := sound.status
      exact .number (by omega) (by omega)
    · exact .string _
    · exact each _ inside
  have text : Text.encode problem.encode = Json.compactText (.object problem.fields) ++ [] := by
    rw [Text.encode, encode, Json.compact, String.toList_ofList, List.append_nil]
    rfl
  rw [text]
  exact Json.readWith_eq_ok_iff.mpr ⟨[],
    Json.Layout.compact.objectMembers_text 0 (fun field inside => (all field inside).readsBack) [],
    rfl⟩

/-- What is kept of a body that describes a problem: no extension hides a field, the problem
is read again from what is written of it, and what is written are the members of the body. -/
structure KeepsFields (body : Bytes) (problem : Problem) : Prop where
  apart : ∀ field ∈ problem.extensions, field.1 ∉ fieldNames
  again : Problem.read (Text.encode problem.encode) = .ok problem
  /-- The members that are written have a name of their own each, and are those of the body, of
  those of one name the last, but for what is not set. -/
  members : ∃ members written, Json.readMembers body = .ok members ∧
    Json.readMembers (Text.encode problem.encode) = .ok written ∧
    (written.map (·.1)).Nodup ∧
    ∀ name value, (name, value) ∈ written ↔
      members.reverse.lookup name = some value ∧ ¬ Unset (name, value)
  /-- The object that is written has the fields of the body's, but for what is not set. -/
  object : ∃ fields written, Json.read body = .ok (.object fields) ∧
    Json.read (Text.encode problem.encode) = .ok (.object written) ∧
    ∀ field, field ∈ written ↔ field ∈ fields ∧ ¬ Unset field

/-- All that a body says of a problem is kept and written again. The numbers of the
extensions are to be whole, since those with a fraction are not carried by their digits; the
depth of the extensions needs no assumption, because the body was read. -/
theorem problem_keeps_fields (read : Problem.read body = .ok problem)
    (whole : ∀ field ∈ problem.extensions, field.2.Whole) : KeepsFields body problem := by
  obtain ⟨members, kept, proper, rfl⟩ := read_eq_ok_iff.mp read
  have sound := sound_ofMembers members
  have each : ∀ field ∈ (ofMembers members).extensions,
      Json.Sound (Json.depthLimit - 1) field.2 := by
    intro field inside
    have member := (List.mem_filter.mp (Json.Fields.mem_of_mem_ofMembers inside)).1
    exact sound_of_readMembers kept field member (whole field inside)
  have written := sound.readMembers_encode each
  refine ⟨sound.apart, ?_, ?_, ?_⟩
  · exact read_eq_ok_iff.mpr ⟨_, written, sound.proper, sound.ofMembers_fields.symm⟩
  · exact ⟨members, _, kept, written, sound.distinct, fun _ _ => mem_fields_ofMembers proper⟩
  · refine ⟨_, _, read_eq_object_iff.mpr ⟨_, kept, rfl⟩,
      read_eq_object_iff.mpr ⟨_, written, rfl⟩, ?_⟩
    rintro ⟨name, value⟩
    rw [Json.Fields.mem_ofMembers_iff, sound.lookup_reverse, mem_fields_ofMembers proper,
      Json.Fields.mem_ofMembers_iff]

/-- A body with a name twice, values in values, a title that is empty and a status that is zero. -/
def repeatedText : String :=
  "\x7b\"status\": 0, \"x\": 1, \"title\": \"\", \"type\": \"t\", " ++
    "\"x\": [-1, \x7b\"b\": null, \"a\": 18446744073709551615\x7d]\x7d"

/-- What is written of it. -/
def rewrittenText : String :=
  "\x7b\"type\":\"t\",\"x\":[-1,\x7b\"a\":18446744073709551615,\"b\":null\x7d]\x7d"

theorem problem_keeps_fields_repeated :
    ∃ problem, Problem.read (Text.encode repeatedText) = .ok problem ∧
      problem.encode = rewrittenText ∧ (∀ field ∈ problem.extensions, field.2.Whole) ∧
      KeepsFields (Text.encode repeatedText) problem := by
  have accepted : (Problem.read (Text.encode repeatedText)).toOption.any fun problem =>
      problem.encode = rewrittenText ∧ ∀ field ∈ problem.extensions, field.2.Whole := by
    decide +kernel
  cases read : Problem.read (Text.encode repeatedText) with
  | error why =>
    rw [read] at accepted
    cases accepted
  | ok problem =>
    rw [read] at accepted
    obtain ⟨encoded, whole⟩ := of_decide_eq_true accepted
    exact ⟨problem, rfl, encoded, whole, problem_keeps_fields read whole⟩

end Bodies

end PlatformClient.Problem
