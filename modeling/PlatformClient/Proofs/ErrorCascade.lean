import Mathlib.Data.List.DropRight
import Mathlib.Data.List.Induction
import Mathlib.Data.List.Nodup
import PlatformClient.Problem.Classification
import PlatformClient.Proofs.JsonFields
import PlatformClient.Proofs.JsonMembers
import PlatformClient.Proofs.Utf8RoundTrip

namespace PlatformClient

namespace Json

variable {rest left : Bytes} {depth : Nat}

/-- The text that a value is. -/
def string? : Json → Option String
  | .string text => some text
  | _ => none

/-- The whole number of 16 bits that a value is. -/
def uint16? : Json → Option Nat
  | .number (.whole value) => if 0 ≤ value ∧ value < 0x10000 then some value.toNat else none
  | _ => none

theorem unexpected_ne_ok {α : Type} {expected : String} {found : α} :
    unexpected expected rest ≠ .ok (found, left) := by
  have refused : ∀ {β : Type} {result : Except Failure (β × Bytes)} {cause : β × Bytes → Cause},
      (result >>= fun given => failHere (cause given) given.2) ≠ .ok (found, left) := by
    intro β result cause read
    obtain ⟨_, -, failed⟩ := bind_eq_ok_iff.mp read
    cases failed
  intro read
  unfold unexpected at read
  dsimp only at read
  split at read
  · cases read
  · exact refused read
  · exact refused read
  · exact refused read
  · exact refused read
  · cases read
  · cases read
  · split_ifs at read
    · exact refused read
    · cases read

/-- A text is what is read as a value that is a text. A reader for texts only and one for
all values take the same bytes. -/
theorem expectString_eq_ok_iff {text : String} :
    expectString rest = .ok (text, left) ↔
      ∃ found, value depth rest = .ok (found, left) ∧ string? found = some text := by
  simp only [value_eq_ok_iff]
  unfold expectString
  constructor
  · intro read
    split at read
    · rename_i behind ahead
      exact ⟨.string text, .string ahead read, rfl⟩
    · exact absurd read unexpected_ne_ok
  · rintro ⟨found, reads, same⟩
    cases reads with
    | string ahead body =>
      cases same
      simpa [ahead] using body
    | _ => cases same

theorem expectUInt16_eq_ok_iff {number : Nat} :
    expectUInt16 rest = .ok (number, left) ↔
      ∃ found, value depth rest = .ok (found, left) ∧ uint16? found = some number := by
  simp only [value_eq_ok_iff]
  unfold expectUInt16
  constructor
  · intro read
    split at read
    · cases read
    · rename_i byte behind ahead
      split_ifs at read with digit
      · obtain ⟨⟨found, rest⟩, body, read⟩ := bind_eq_ok_iff.mp read
        cases found with
        | double value => cases read
        | whole value =>
          dsimp only at read
          split_ifs at read with range
          · cases read
            exact ⟨.number (.whole value), .number ahead digit body, if_pos range⟩
          · cases read
      · exact absurd read unexpected_ne_ok
  · rintro ⟨found, reads, same⟩
    cases reads with
    | @number _ _ _ _ found _ ahead digit body =>
      cases found with
      | double value => cases same
      | whole value =>
        simp only [uint16?, Option.ite_none_right_eq_some, Option.some.injEq] at same
        obtain ⟨range, rfl⟩ := same
        simp [ahead, digit, body, range, bind, Except.bind]
    | _ => cases same

end Json

namespace Problem

/-- The fields of a problem that are texts. -/
def textNames : List String := ["type", "title", "detail", "instance"]

/-- All fields that a problem has of its own. -/
def fieldNames : List String := "status" :: textNames

/-- A member can be what its name says of it. -/
structure Typed (member : String × Json) : Prop where
  text : member.1 ∈ textNames → ∃ text, member.2 = .string text
  status : member.1 = "status" →
    ∃ number : Nat, member.2 = .number (.whole number) ∧ number < 0x10000

/-- Members that describe a problem. -/
structure Proper (members : List (String × Json)) : Prop where
  once : ((members.map (·.1)).filter (· ∈ fieldNames)).Nodup
  typed : ∀ member ∈ members, Typed member

/-- The problem that members describe. -/
def ofMembers (members : List (String × Json)) : Problem where
  type := ((members.lookup "type").bind Json.string?).getD ""
  title := ((members.lookup "title").bind Json.string?).getD ""
  detail := ((members.lookup "detail").bind Json.string?).getD ""
  status := ((members.lookup "status").bind Json.uint16?).getD 0
  occurrence := ((members.lookup "instance").bind Json.string?).getD ""
  extensions := Json.Fields.ofMembers (members.filter (·.1 ∉ fieldNames))

section Drafts

variable {rest left : Bytes} {depth : Nat}

/-- Takes a value of a kind where there has been none. -/
def addOnce {α : Type} (earlier : Option α) (kind : Json → Option α) (store : α → Draft)
    (value : Json) : Option Draft :=
  if earlier.isSome then none else (kind value).map store

/-- What a draft becomes with a member. -/
def Draft.add? (draft : Draft) (member : String × Json) : Option Draft :=
  if member.1 = "type" then
    addOnce draft.type Json.string? (fun text => { draft with type := some text }) member.2
  else if member.1 = "title" then
    addOnce draft.title Json.string? (fun text => { draft with title := some text }) member.2
  else if member.1 = "detail" then
    addOnce draft.detail Json.string? (fun text => { draft with detail := some text }) member.2
  else if member.1 = "status" then
    addOnce draft.status Json.uint16? (fun status => { draft with status := some status }) member.2
  else if member.1 = "instance" then
    addOnce draft.occurrence Json.string? (fun text => { draft with occurrence := some text })
      member.2
  else some { draft with extensions := draft.extensions.insert member.1 member.2 }

theorem takeOnce_eq_ok_iff {α : Type} {reader : Json.Reader α} {kind : Json → Option α}
    (reads : ∀ rest left (found : α), reader rest = .ok (found, left) ↔
      ∃ value, Json.value depth rest = .ok (value, left) ∧ kind value = some found)
    {earlier : Option α} {name : String} {store : α → Draft} {next : Draft} :
    takeOnce earlier name reader store rest = .ok (next, left) ↔
      ∃ value, Json.memberValue depth rest = .ok (value, left) ∧
        addOnce earlier kind store value = some next := by
  unfold takeOnce Json.memberValue addOnce
  cases earlier with
  | some found =>
    have failed : ∀ next : PUnit, Json.failInObject (.duplicateField name) rest ≠ .ok next := by
      intro next read
      unfold Json.failInObject at read
      split at read <;> cases read
    simp only [Option.isSome_some, if_true, bind_eq_ok_iff]
    constructor
    · rintro ⟨next, read, -⟩
      exact absurd read (failed next)
    · rintro ⟨_, -, none⟩
      cases none
  | none =>
    simp only [Option.isSome_none, Bool.false_eq_true, if_false, bind_eq_ok_iff, Prod.exists, reads,
      Option.map_eq_some_iff, pure, Except.pure, Except.ok.injEq, Prod.mk.injEq]
    constructor
    · rintro ⟨behind, mark, found, _, ⟨value, read, known⟩, rfl, rfl⟩
      exact ⟨value, ⟨behind, mark, read⟩, found, known, rfl⟩
    · rintro ⟨value, ⟨behind, mark, read⟩, found, known, rfl⟩
      exact ⟨behind, mark, found, left, ⟨value, read, known⟩, rfl, rfl⟩

theorem takeMember_takesBy : Json.TakesBy (Json.depthLimit - 1) takeMember Draft.add? := by
  intro draft name rest next left
  unfold takeMember Draft.add?
  split_ifs
  · exact takeOnce_eq_ok_iff fun _ _ _ => Json.expectString_eq_ok_iff
  · exact takeOnce_eq_ok_iff fun _ _ _ => Json.expectString_eq_ok_iff
  · exact takeOnce_eq_ok_iff fun _ _ _ => Json.expectString_eq_ok_iff
  · exact takeOnce_eq_ok_iff fun _ _ _ => Json.expectUInt16_eq_ok_iff
  · exact takeOnce_eq_ok_iff fun _ _ _ => Json.expectString_eq_ok_iff
  · simp only [Json.memberValue, bind_eq_ok_iff, Prod.exists, pure, Except.pure, Except.ok.injEq,
      Prod.mk.injEq, Option.some.injEq]
    constructor
    · rintro ⟨behind, mark, value, _, read, rfl, rfl⟩
      exact ⟨value, ⟨behind, mark, read⟩, rfl⟩
    · rintro ⟨value, ⟨behind, mark, read⟩, rfl⟩
      exact ⟨behind, mark, value, left, read, rfl, rfl⟩

/-- The draft of members of which all have been taken. -/
def Draft.ofMembers (members : List (String × Json)) : Draft where
  type := (members.lookup "type").bind Json.string?
  title := (members.lookup "title").bind Json.string?
  detail := (members.lookup "detail").bind Json.string?
  status := (members.lookup "status").bind Json.uint16?
  occurrence := (members.lookup "instance").bind Json.string?
  extensions := Json.Fields.ofMembers (members.filter (·.1 ∉ fieldNames))

/-- A member can follow others. -/
structure Fits (members : List (String × Json)) (member : String × Json) : Prop where
  typed : Typed member
  fresh : member.1 ∈ fieldNames → member.1 ∉ members.map (·.1)

theorem proper_append {members : List (String × Json)} {member : String × Json} :
    Proper (members ++ [member]) ↔ Proper members ∧ Fits members member := by
  have names : ((members ++ [member]).map (·.1)).filter (· ∈ fieldNames) =
      (members.map (·.1)).filter (· ∈ fieldNames) ++ [member.1].filter (· ∈ fieldNames) := by
    rw [List.map_append, List.filter_append]
    rfl
  constructor
  · rintro ⟨once, typed⟩
    rw [names, List.nodup_append] at once
    obtain ⟨earlier, -, apart⟩ := once
    refine ⟨⟨earlier, fun other inside => typed other (List.mem_append_left _ inside)⟩,
      typed member (List.mem_append_right _ List.mem_cons_self), fun known inside => ?_⟩
    exact apart member.1 (List.mem_filter.mpr ⟨inside, by simpa using known⟩) member.1
      (by simpa using known) rfl
  · rintro ⟨⟨once, typed⟩, fits⟩
    refine ⟨?_, ?_⟩
    · rw [names, List.nodup_append]
      refine ⟨once, (List.nodup_singleton _).filter _, ?_⟩
      rintro name inside other last rfl
      obtain ⟨last, known⟩ := List.mem_filter.mp last
      rw [List.mem_singleton.mp last] at inside known
      exact fits.fresh (by simpa using known) (List.mem_filter.mp inside).1
    · intro other inside
      rcases List.mem_append.mp inside with inside | last
      · exact typed other inside
      · rw [List.mem_singleton.mp last]
        exact fits.typed

theorem typed_text_iff {name : String} (text : name ∈ textNames) (value : Json) :
    Typed (name, value) ↔ (Json.string? value).isSome := by
  constructor
  · intro typed
    obtain ⟨content, same⟩ := typed.text text
    rw [show value = .string content from same]
    rfl
  · intro of_kind
    cases value with
    | string content =>
      refine ⟨fun _ => ⟨content, rfl⟩, fun same => ?_⟩
      rw [show name = "status" from same] at text
      exact absurd text (by decide)
    | _ => cases of_kind

theorem typed_status_iff (value : Json) :
    Typed ("status", value) ↔ (Json.uint16? value).isSome := by
  have other : "status" ∉ textNames := by decide
  constructor
  · intro typed
    obtain ⟨number, same, small⟩ := typed.status rfl
    rw [show value = .number (.whole number) from same, Json.uint16?, if_pos (by omega)]
    rfl
  · intro of_kind
    refine ⟨fun text => absurd text other, fun _ => ?_⟩
    cases value with
    | number number =>
      cases number with
      | whole number =>
        simp only [Json.uint16?, Option.isSome_ite] at of_kind
        exact ⟨number.toNat, by rw [Int.toNat_of_nonneg of_kind.1], by omega⟩
      | double number => cases of_kind
    | _ => cases of_kind

theorem typed_of_unknown {member : String × Json} (unknown : member.1 ∉ fieldNames) :
    Typed member where
  text known := absurd (List.mem_cons_of_mem _ known) unknown
  status same := absurd (same ▸ List.mem_cons_self) unknown

/-- A field takes a member of its name where there has been none and the value is of its kind. -/
theorem addOnce_eq_some_iff {α : Type} {kind : Json → Option α} {store : α → Draft}
    {members : List (String × Json)} (proper : Proper members) {name : String} {value : Json}
    {next : Draft} (known : name ∈ fieldNames)
    (typed : ∀ value, Typed (name, value) ↔ (kind value).isSome)
    (stored : ∀ found, kind value = some found → members.lookup name = none →
      store found = Draft.ofMembers (members ++ [(name, value)])) :
    addOnce ((members.lookup name).bind kind) kind store value = some next ↔
      Fits members (name, value) ∧ next = Draft.ofMembers (members ++ [(name, value)]) := by
  cases found : members.lookup name with
  | some earlier =>
    have inside := Entries.mem_of_lookup found
    rw [Option.bind_some, addOnce, if_pos ((typed earlier).mp (proper.typed _ inside))]
    constructor
    · exact nofun
    · rintro ⟨fits, -⟩
      exact absurd (List.mem_map.mpr ⟨_, inside, rfl⟩) (fits.fresh known)
  | none =>
    rw [Option.bind_none, addOnce, if_neg (by simp), Option.map_eq_some_iff]
    constructor
    · rintro ⟨content, of_kind, rfl⟩
      refine ⟨⟨(typed value).mpr (Option.isSome_of_eq_some of_kind), fun _ inside => ?_⟩,
        stored content of_kind found⟩
      obtain ⟨other, inside, same⟩ := List.mem_map.mp inside
      have apart := List.lookup_eq_none_iff.mp found other inside
      rw [show other.1 = name from same, bne_self_eq_false] at apart
      cases apart
    · rintro ⟨fits, rfl⟩
      obtain ⟨content, of_kind⟩ := Option.isSome_iff_exists.mp ((typed value).mp fits.typed)
      exact ⟨content, of_kind, stored content of_kind found⟩

theorem lookup_behind (members : List (String × Json)) (name key : String) (value : Json) :
    (members ++ [(name, value)]).lookup key =
      (members.lookup key).or (if key = name then some value else none) := by
  rw [List.lookup_append, List.lookup_cons, List.lookup_nil]
  by_cases same : key = name
  · simp [same]
  · simp [same, beq_false_of_ne same]

theorem filter_behind (members : List (String × Json)) (name : String) (value : Json) :
    (members ++ [(name, value)]).filter (·.1 ∉ fieldNames) =
      members.filter (·.1 ∉ fieldNames) ++ if name ∈ fieldNames then [] else [(name, value)] := by
  rw [List.filter_append, List.filter_cons, List.filter_nil]
  by_cases known : name ∈ fieldNames <;> simp [known]

/-- A draft of members takes one more exactly if it fits, and is then the draft of them all.
This is the step from which a whole object follows by induction. -/
theorem add?_ofMembers {members : List (String × Json)} (proper : Proper members)
    {member : String × Json} {next : Draft} :
    (Draft.ofMembers members).add? member = some next ↔
      Fits members member ∧ next = Draft.ofMembers (members ++ [member]) := by
  obtain ⟨name, value⟩ := member
  unfold Draft.add?
  dsimp only
  split_ifs with type title detail status occurrence
  · subst type
    refine addOnce_eq_some_iff proper (by decide) (typed_text_iff (by decide))
      fun text of_kind fresh => ?_
    simp [Draft.ofMembers, lookup_behind, fresh, of_kind, fieldNames, textNames]
  · subst title
    refine addOnce_eq_some_iff proper (by decide) (typed_text_iff (by decide))
      fun text of_kind fresh => ?_
    simp [Draft.ofMembers, lookup_behind, fresh, of_kind, fieldNames, textNames]
  · subst detail
    refine addOnce_eq_some_iff proper (by decide) (typed_text_iff (by decide))
      fun text of_kind fresh => ?_
    simp [Draft.ofMembers, lookup_behind, fresh, of_kind, fieldNames, textNames]
  · subst status
    refine addOnce_eq_some_iff proper (by decide) typed_status_iff fun number of_kind fresh => ?_
    simp [Draft.ofMembers, lookup_behind, fresh, of_kind, fieldNames, textNames]
  · subst occurrence
    refine addOnce_eq_some_iff proper (by decide) (typed_text_iff (by decide))
      fun text of_kind fresh => ?_
    simp [Draft.ofMembers, lookup_behind, fresh, of_kind, fieldNames, textNames]
  · have unknown : name ∉ fieldNames := by
      simp [fieldNames, textNames, type, title, detail, status, occurrence]
    have fits : Fits members (name, value) :=
      ⟨typed_of_unknown unknown, fun known => absurd known unknown⟩
    have extended : Draft.ofMembers (members ++ [(name, value)]) =
        { Draft.ofMembers members with
          extensions := (Draft.ofMembers members).extensions.insert name value } := by
      simp only [Draft.ofMembers, lookup_behind, filter_behind, Json.Fields.ofMembers_behind,
        if_neg unknown, if_neg (Ne.symm type), if_neg (Ne.symm title), if_neg (Ne.symm detail),
        if_neg (Ne.symm status), if_neg (Ne.symm occurrence), Option.or_none]
    rw [extended, Option.some.injEq]
    exact ⟨fun same => ⟨fits, same.symm⟩, fun both => both.2.symm⟩

/-- Members are taken one after the other exactly if they describe a problem. A second
member of one name, or one of the wrong kind, ends the reading. -/
theorem foldlM_add? {members : List (String × Json)} {draft : Draft} :
    members.foldlM Draft.add? {} = some draft ↔
      Proper members ∧ draft = Draft.ofMembers members := by
  induction members using List.reverseRecOn generalizing draft with
  | nil =>
    have proper : Proper [] := ⟨List.nodup_nil, nofun⟩
    constructor
    · intro same
      exact ⟨proper, (Option.some.inj same).symm⟩
    · rintro ⟨-, rfl⟩
      rfl
  | append_singleton members member ih =>
    rw [List.foldlM_append, proper_append]
    constructor
    · intro folded
      obtain ⟨earlier, first, last⟩ := Option.bind_eq_some_iff.mp folded
      obtain ⟨proper, rfl⟩ := ih.mp first
      rw [List.foldlM_cons] at last
      obtain ⟨next, added, same⟩ := Option.bind_eq_some_iff.mp last
      obtain ⟨fits, rfl⟩ := (add?_ofMembers proper).mp added
      exact ⟨⟨proper, fits⟩, (Option.some.inj same).symm⟩
    · rintro ⟨⟨proper, fits⟩, rfl⟩
      have added := (add?_ofMembers proper).mpr ⟨fits, rfl⟩
      rw [ih.mpr ⟨proper, rfl⟩]
      simp [added]

end Drafts

section Bodies

variable {body rest left : Bytes} {depth : Nat}

theorem reader_eq_ok_iff {problem : Problem} :
    reader rest = .ok (problem, left) ↔
      ∃ members, Json.objectMembers (Json.depthLimit - 1) rest = .ok (members, left) ∧
        Proper members ∧ problem = ofMembers members := by
  simp only [Json.objectMembers_eq_ok_iff]
  unfold reader
  constructor
  · intro read
    split at read
    · rename_i behind ahead
      obtain ⟨⟨draft, rest⟩, taken, same⟩ := map_eq_ok_iff.mp read
      obtain ⟨members, kept, folded⟩ := (Json.members_iff takeMember_takesBy []).mp taken
      obtain ⟨proper, rfl⟩ := foldlM_add?.mp folded
      cases same
      exact ⟨members, ⟨behind, ahead, kept⟩, proper, rfl⟩
    · exact absurd read Json.unexpected_ne_ok
  · rintro ⟨members, ⟨behind, ahead, kept⟩, proper, rfl⟩
    have folded := foldlM_add?.mpr ⟨proper, rfl⟩
    have taken := (Json.members_iff takeMember_takesBy []).mpr ⟨members, kept, folded⟩
    simp only [ahead]
    exact map_eq_ok_iff.mpr ⟨_, taken, rfl⟩

/-- What a body says of a problem: nothing at all, or what the members of an object say. It
speaks of the members as they are written, and not of how they are taken. -/
inductive Describes (body : Bytes) : Problem → Prop
  | null (document : Json.read body = .ok .null) : Describes body {}
  | object {members} (read : Json.readMembers body = .ok members) (proper : Proper members) :
    Describes body (ofMembers members)

theorem objectMembers_skipBlanks (rest : Bytes) :
    Json.objectMembers depth (Json.skipBlanks rest) = Json.objectMembers depth rest := by
  have same : Json.skipBlanks (Json.skipBlanks rest) = Json.skipBlanks rest :=
    List.dropWhile_idempotent _ rest
  rw [Json.objectMembers, Json.objectMembers, same]

theorem readNullable_eq_ok_iff {found : Option Problem} :
    readNullable body = .ok found ↔
      (Json.read body = .ok .null ∧ found = none) ∨
        ∃ members, Json.readMembers body = .ok members ∧ Proper members ∧
          found = some (ofMembers members) := by
  unfold readNullable Json.read Json.readMembers
  simp only [Json.readWith_eq_ok_iff, Json.value_eq_ok_iff]
  constructor
  · rintro ⟨left, read, done⟩
    split at read
    · rename_i behind ahead
      obtain ⟨rfl, word⟩ := Json.letters_eq_ok_iff.mp read
      exact Or.inl ⟨⟨left, .null ahead word, done⟩, rfl⟩
    · obtain ⟨⟨problem, rest⟩, read, same⟩ := map_eq_ok_iff.mp read
      obtain ⟨members, kept, proper, rfl⟩ := reader_eq_ok_iff.mp read
      rw [objectMembers_skipBlanks] at kept
      cases same
      exact Or.inr ⟨members, ⟨rest, kept, done⟩, proper, rfl⟩
  · rintro (⟨⟨left, reads, done⟩, rfl⟩ | ⟨members, ⟨left, kept, done⟩, proper, rfl⟩)
    · refine ⟨left, ?_, done⟩
      cases reads with
      | null ahead word =>
        simp only [ahead]
        exact Json.letters_eq_ok_iff.mpr ⟨rfl, word⟩
    · refine ⟨left, ?_, done⟩
      obtain ⟨behind, ahead, -⟩ := Json.objectMembers_eq_ok_iff.mp kept
      rw [← objectMembers_skipBlanks, ahead] at kept
      simp only [ahead]
      exact map_eq_ok_iff.mpr ⟨_, reader_eq_ok_iff.mpr ⟨members, kept, proper, rfl⟩, rfl⟩

/-- A problem is described exactly where one is read. The reader and the description agree
on every body, so that the cascade can be told without the reader. -/
theorem describes_iff {problem : Problem} :
    Describes body problem ↔ ∃ found, readNullable body = .ok found ∧ found.getD {} = problem := by
  simp only [readNullable_eq_ok_iff]
  constructor
  · intro describes
    cases describes with
    | null document => exact ⟨none, Or.inl ⟨document, rfl⟩, rfl⟩
    | object read proper => exact ⟨some _, Or.inr ⟨_, read, proper, rfl⟩, rfl⟩
  · rintro ⟨_, ⟨document, rfl⟩ | ⟨members, read, proper, rfl⟩, rfl⟩
    · exact .null document
    · exact .object read proper

/-- The object that a text consists of is what its members set one after the other. -/
theorem read_eq_object_iff {fields : Json.Fields} :
    Json.read body = .ok (.object fields) ↔
      ∃ members, Json.readMembers body = .ok members ∧ fields = Json.Fields.ofMembers members := by
  unfold Json.read Json.readMembers
  simp only [Json.readWith_eq_ok_iff, Json.value_eq_ok_iff]
  constructor
  · rintro ⟨left, reads, done⟩
    cases reads with
    | object kept => exact ⟨_, ⟨left, kept, done⟩, rfl⟩
  · rintro ⟨members, ⟨left, kept, done⟩, rfl⟩
    exact ⟨left, .object kept, done⟩

/-- What describes a problem is a document. -/
theorem Describes.document {problem : Problem} (describes : Describes body problem) :
    Json.read body = .ok .null ∨ ∃ fields, Json.read body = .ok (.object fields) := by
  cases describes with
  | null document => exact Or.inl document
  | object read proper => exact Or.inr ⟨_, read_eq_object_iff.mpr ⟨_, read, rfl⟩⟩

end Bodies

end Problem

namespace StatusError

variable {status : Http.Status} {body : Bytes}

/-- The error of a body that describes a problem, which has the status of the response where it
names none itself. -/
def ofProblem (status : Http.Status) (problem : Problem) : StatusError where
  status := status
  message := status.reason
  problem := some
    { problem with status := if problem.status = 0 then status.code else problem.status }

/-- The error of a body that is a document. -/
def ofDocument (status : Http.Status) (document : Json) : StatusError where
  status := status
  message := "status " ++ toString status.code ++ ", error response: " ++ document.compact
  problem := none

/-- The error of a body that is text. -/
def ofText (status : Http.Status) (body : Bytes) : StatusError where
  status := status
  message := "status: " ++ toString status.code ++ " " ++
    if body = [] then status.reason else Text.decodeLossy body
  problem := none

theorem ofProblem?_eq (status : Http.Status) (body : Bytes) :
    ofProblem? status body =
      (Problem.readNullable body).toOption.map fun found => ofProblem status (found.getD {}) := by
  unfold ofProblem? ofProblem
  cases (Problem.readNullable body).toOption with
  | none => rfl
  | some found =>
    dsimp only [Option.map_some]
    by_cases unset : (found.getD {}).status = 0 <;> simp [unset]

theorem ofDocument?_eq (status : Http.Status) (body : Bytes) :
    ofDocument? status body = (Json.read body).toOption.map (ofDocument status) := by
  unfold ofDocument?
  cases (Json.read body).toOption <;> rfl

theorem ofText?_eq (status : Http.Status) (body : Bytes) :
    ofText? status body = some (ofText status body) := by
  simp only [ofText?, ofText, Text.decodeLossy_isEmpty_iff]

/-- The readings are tried one after the other, and the last one always applies. So there is
an error for every body. -/
theorem findSome?_readings (status : Http.Status) (body : Bytes) :
    (readings.findSome? fun reading => reading status body) =
      some ((ofProblem? status body).getD
        ((ofDocument? status body).getD (ofText status body))) := by
  simp only [readings, List.findSome?_cons, ofText?_eq]
  cases ofProblem? status body <;> cases ofDocument? status body <;> rfl

theorem classify_of_problem {problem : Problem} (describes : Problem.Describes body problem) :
    classify status body = ofProblem status problem := by
  obtain ⟨found, read, rfl⟩ := Problem.describes_iff.mp describes
  rw [classify, findSome?_readings, ofProblem?_eq, read]
  rfl

theorem ofProblem?_eq_none (undescribed : ∀ problem, ¬ Problem.Describes body problem) :
    ofProblem? status body = none := by
  rw [ofProblem?_eq]
  cases read : Problem.readNullable body with
  | error failure => rfl
  | ok found => exact absurd (Problem.describes_iff.mpr ⟨found, read, rfl⟩) (undescribed _)

theorem classify_of_document (undescribed : ∀ problem, ¬ Problem.Describes body problem)
    {document : Json} (read : Json.read body = .ok document) :
    classify status body = ofDocument status document := by
  rw [classify, findSome?_readings, ofProblem?_eq_none undescribed, ofDocument?_eq, read]
  rfl

theorem classify_of_text (unread : ∀ document, Json.read body ≠ .ok document) :
    classify status body = ofText status body := by
  have undescribed : ∀ problem, ¬ Problem.Describes body problem := by
    intro problem describes
    rcases describes.document with null | ⟨fields, object⟩
    · exact unread _ null
    · exact unread _ object
  rw [classify, findSome?_readings, ofProblem?_eq_none undescribed, ofDocument?_eq]
  cases read : Json.read body with
  | error failure => rfl
  | ok document => exact absurd read (unread document)

/-- A body describes a problem, or is another document, or is no document. -/
theorem classify_cases (status : Http.Status) (body : Bytes) :
    (∃ problem, classify status body = ofProblem status problem) ∨
      (∃ document, classify status body = ofDocument status document) ∨
        classify status body = ofText status body := by
  by_cases described : ∃ problem, Problem.Describes body problem
  · obtain ⟨problem, describes⟩ := described
    exact Or.inl ⟨problem, classify_of_problem describes⟩
  · have undescribed := not_exists.mp described
    by_cases readable : ∃ document, Json.read body = .ok document
    · obtain ⟨document, read⟩ := readable
      exact Or.inr (Or.inl ⟨document, classify_of_document undescribed read⟩)
    · exact Or.inr (Or.inr (classify_of_text (not_exists.mp readable)))

theorem classify_keeps_status (status : Http.Status) (body : Bytes) :
    (classify status body).status = status := by
  rcases classify_cases status body with ⟨_, same⟩ | ⟨_, same⟩ | same <;> rw [same] <;> rfl

theorem problem_status_ne_zero {problem : Problem}
    (wraps : (classify status body).problem = some problem) : problem.status ≠ 0 := by
  rcases classify_cases status body with ⟨described, same⟩ | ⟨_, same⟩ | same <;> rw [same] at wraps
  · have lower := status.lower
    obtain rfl := Option.some.inj wraps
    dsimp only
    split_ifs <;> omega
  · cases wraps
  · cases wraps

/-- The error of a response without success. A body that describes a problem is wrapped, any
other document is told as it is, and what is no document is told as text. The cases exclude
each other and leave none out, as each of them is reached only where the ones before do not
apply. -/
theorem classify_cascade (status : Http.Status) (body : Bytes) :
    (classify status body).status = status ∧
      (∀ problem, Problem.Describes body problem →
        classify status body = ofProblem status problem) ∧
      ((∀ problem, ¬ Problem.Describes body problem) → ∀ document, Json.read body = .ok document →
        classify status body = ofDocument status document) ∧
      ((∀ document, Json.read body ≠ .ok document) →
        classify status body = ofText status body) ∧
      (∀ found, Problem.readNullable body = .ok found →
        Problem.Describes body (found.getD {}) ∧ ∃ document, Json.read body = .ok document) ∧
      (readings.findSome? fun reading => reading status body) ≠ none ∧
      ∀ problem, (classify status body).problem = some problem → problem.status ≠ 0 := by
  refine ⟨classify_keeps_status status body, fun _ => classify_of_problem,
    fun undescribed _ => classify_of_document undescribed, classify_of_text, fun found read => ?_,
    ?_, fun _ => problem_status_ne_zero⟩
  · have describes := Problem.describes_iff.mpr ⟨found, read, rfl⟩
    refine ⟨describes, ?_⟩
    rcases describes.document with null | ⟨fields, object⟩
    · exact ⟨_, null⟩
    · exact ⟨_, object⟩
  · rw [findSome?_readings]
    exact Option.some_ne_none _

end StatusError

end PlatformClient
