import PlatformClient.Proofs.JsonFields
import PlatformClient.Proofs.JsonMembers
import PlatformClient.Proofs.JsonNumbers
import PlatformClient.Proofs.JsonStrings

namespace PlatformClient.Json

section Items

variable {α : Type} {item : Reader α} {first : Bool} {list : List α} {rest left : Bytes}

/-- The text of an item, unless a list ends in front of it. -/
def openItem : Bytes → Option Bytes
  | [] => none
  | byte :: rest => if byte = 0x5D then none else some (byte :: rest)

/-- The text of the next item, where there is one. -/
def nextItem (first : Bool) (rest : Bytes) : Option Bytes :=
  if first then openItem (skipBlanks rest)
  else match skipBlanks rest with
    | [] => none
    | byte :: behind => if byte = 0x2C then openItem (skipBlanks behind) else none

theorem bind_item_iff {fuel : Nat} (behind : Bytes) :
    (do
      let (head, rest) ← item behind
      let (tail, rest) ← items item fuel false rest
      return (head :: tail, rest)) = .ok (list, left) ↔
    ∃ head between tail, item behind = .ok (head, between) ∧
      items item fuel false between = .ok (tail, left) ∧ list = head :: tail := by
  simp only [bind_eq_ok_iff, Prod.exists, pure, Except.pure, Except.ok.injEq, Prod.mk.injEq]
  constructor
  · rintro ⟨head, between, read, tail, left, others, rfl, rfl⟩
    exact ⟨head, between, tail, read, others, rfl⟩
  · rintro ⟨head, between, tail, read, others, rfl⟩
    exact ⟨head, between, read, tail, left, others, rfl, rfl⟩

/-- Items are at their end, or there is one more in front of the others. -/
theorem items_succ_iff {fuel : Nat} :
    items item (fuel + 1) first rest = .ok (list, left) ↔
      (skipBlanks rest = 0x5D :: left ∧ list = []) ∨
        ∃ behind head between tail, nextItem first rest = some behind ∧
          item behind = .ok (head, between) ∧
          items item fuel false between = .ok (tail, left) ∧ list = head :: tail := by
  conv_lhs => unfold items
  dsimp only
  split
  · rename_i ahead
    cases first <;> simp [nextItem, openItem, ahead]
  · rename_i behind ahead
    cases first <;> simp [nextItem, openItem, ahead, and_comm, eq_comm]
  · rename_i byte behind closing ahead
    have closing : byte ≠ 0x5D := closing
    have further : skipBlanks rest ≠ 0x5D :: left := by
      intro same
      rw [ahead] at same
      exact closing (List.cons.inj same).1
    simp only [further, false_and, false_or]
    cases first with
    | true =>
      rw [if_pos rfl, bind_item_iff]
      simp [nextItem, openItem, ahead, closing]
    | false =>
      by_cases comma : byte = 0x2C
      · subst comma
        simp only [nextItem, ahead, Bool.false_eq_true, if_false, if_true]
        split <;> rename_i beyond
        · simp [openItem, beyond]
        · simp [openItem, beyond, failHere]
        · rename_i some
          cases ahead : skipBlanks behind with
          | nil => exact absurd ahead some
          | cons byte others =>
            have more : byte ≠ 0x5D := fun same => beyond others (same ▸ ahead)
            rw [bind_item_iff]
            simp [openItem, more]
      · simp [nextItem, ahead, comma, failHere]

/-- Every item of a list has been read. -/
theorem forall_mem_items {p : α → Prop} (each : ∀ {rest value left}, item rest = .ok (value, left) →
    p value) {fuel : Nat} (read : items item fuel first rest = .ok (list, left)) :
    ∀ value ∈ list, p value := by
  induction fuel generalizing first rest list with
  | zero => cases read
  | succ fuel ih =>
    rcases items_succ_iff.mp read with ⟨-, rfl⟩ | ⟨_, head, _, tail, -, one, others, rfl⟩
    · exact List.forall_mem_nil _
    · exact List.forall_mem_cons.mpr ⟨each one, ih others⟩

end Items

section Blanks

variable {gap rest : Bytes}

/-- A text that counts for nothing. -/
def Blank (gap : Bytes) : Prop := ∀ byte ∈ gap, isBlankByte byte = true

theorem blank_nil : Blank [] := nofun

theorem skipBlanks_append (blank : Blank gap) : skipBlanks (gap ++ rest) = skipBlanks rest :=
  List.dropWhile_append_of_pos blank

theorem skipBlanks_cons {byte : UInt8} (seen : isBlankByte byte = false) :
    skipBlanks (byte :: rest) = byte :: rest := List.dropWhile_cons_of_neg (by simp [seen])

theorem isBlankByte_iff {byte : UInt8} :
    isBlankByte byte = true ↔ byte = 0x20 ∨ byte = 0x0A ∨ byte = 0x09 ∨ byte = 0x0D := by
  simp [isBlankByte, or_assoc]

/-- A number ends where there is a blank in front of what ends it. -/
theorem endsNumber_append (blank : Blank gap) (ends : EndsNumber rest) :
    EndsNumber (gap ++ rest) := by
  cases gap with
  | nil => exact ends
  | cons byte gap =>
    rcases isBlankByte_iff.mp (blank byte List.mem_cons_self) with rfl | rfl | rfl | rfl
    all_goals exact endsNumber_cons (by decide) (by decide) (by decide) (by decide) _

end Blanks

section Lists

variable {α : Type}

/-- A reader takes a value from its text, wherever a number would end behind it. The text
begins with a byte that is seen and closes no list. These conditions are enough to put texts
side by side in lists and objects. -/
structure ReadsBack (reader : Reader α) (text : Bytes) (value : α) : Prop where
  head : ∃ byte behind, text = byte :: behind ∧ isBlankByte byte = false ∧ byte ≠ 0x5D
  read : ∀ rest, EndsNumber rest → reader (text ++ rest) = .ok (value, rest)

theorem ReadsBack.openItem {reader : Reader α} {gap text : Bytes} {value : α}
    (back : ReadsBack reader text value) (blank : Blank gap) (rest : Bytes) :
    openItem (skipBlanks (gap ++ (text ++ rest))) = some (text ++ rest) := by
  obtain ⟨byte, behind, rfl, seen, other⟩ := back.head
  rw [skipBlanks_append blank, List.cons_append, skipBlanks_cons seen, Json.openItem, if_neg other]

/-- Texts that follow another one behind commas, and what closes the list. There may be a gap in
front of each text and of the end. -/
def following (gap last : Bytes) (close : UInt8) : List Bytes → Bytes
  | [] => last ++ [close]
  | text :: rest => 0x2C :: gap ++ text ++ following gap last close rest

/-- A list behind its opening mark. -/
def listed (gap last : Bytes) (close : UInt8) : List Bytes → Bytes
  | [] => [close]
  | text :: rest => gap ++ text ++ following gap last close rest

variable {gap last : Bytes} {close : UInt8} {texts : List Bytes}

theorem length_following : texts.length < (following gap last close texts).length := by
  induction texts with
  | nil => simp [following]
  | cons text rest ih =>
    simp only [following, List.length_cons, List.length_append]
    omega

/-- The text of a list is long enough to count its items. -/
theorem length_lt_listed {β : Type} (list : List β) (text : β → Bytes) (rest : Bytes) :
    list.length < (listed gap last close (list.map text) ++ rest).length + 1 := by
  cases list with
  | nil => exact Nat.zero_lt_succ _
  | cons value list =>
    have more : (list.map text).length < (following gap last close (list.map text)).length :=
      length_following
    rw [List.length_map] at more
    simp only [List.map_cons, listed, List.length_cons, List.length_append]
    omega

theorem endsNumber_following (blank : Blank last) (ends : ∀ rest, EndsNumber (close :: rest))
    (rest : Bytes) : EndsNumber (following gap last close texts ++ rest) := by
  cases texts with
  | nil =>
    rw [following, List.append_assoc]
    exact endsNumber_append blank (ends rest)
  | cons text texts =>
    exact endsNumber_cons (by decide) (by decide) (by decide) (by decide) _

variable {item : Reader α} {text : α → Bytes} {list : List α} {fuel : Nat}

theorem items_following (inner : Blank gap) (outer : Blank last)
    (each : ∀ value ∈ list, ReadsBack item (text value) value) (enough : list.length < fuel)
    (rest : Bytes) :
    items item fuel false (following gap last 0x5D (list.map text) ++ rest) = .ok (list, rest) := by
  have ends : ∀ rest, EndsNumber (0x5D :: rest) :=
    endsNumber_cons (by decide) (by decide) (by decide) (by decide)
  induction list generalizing fuel with
  | nil =>
    obtain ⟨fuel, rfl⟩ : ∃ n, fuel = n + 1 := ⟨fuel - 1, by omega⟩
    refine items_succ_iff.mpr (Or.inl ⟨?_, rfl⟩)
    rw [List.map_nil, following, List.append_assoc, skipBlanks_append outer]
    exact skipBlanks_cons (by decide)
  | cons value list ih =>
    obtain ⟨here, later⟩ := List.forall_mem_cons.mp each
    obtain ⟨fuel, rfl⟩ : ∃ n, fuel = n + 1 := ⟨fuel - 1, by omega⟩
    have comma : nextItem false (following gap last 0x5D ((value :: list).map text) ++ rest) =
        some (text value ++ (following gap last 0x5D (list.map text) ++ rest)) := by
      simp only [List.map_cons, following, List.cons_append, List.append_assoc]
      rw [nextItem, skipBlanks_cons (by decide)]
      exact here.openItem inner _
    exact items_succ_iff.mpr (Or.inr ⟨_, value, _, list, comma,
      here.read _ (endsNumber_following outer ends rest), ih later (by simpa using enough), rfl⟩)

/-- The items of a list are read as they are written. -/
theorem items_listed (inner : Blank gap) (outer : Blank last)
    (each : ∀ value ∈ list, ReadsBack item (text value) value) (enough : list.length < fuel)
    (rest : Bytes) :
    items item fuel true (listed gap last 0x5D (list.map text) ++ rest) = .ok (list, rest) := by
  have ends : ∀ rest, EndsNumber (0x5D :: rest) :=
    endsNumber_cons (by decide) (by decide) (by decide) (by decide)
  obtain ⟨fuel, rfl⟩ : ∃ n, fuel = n + 1 := ⟨fuel - 1, by omega⟩
  cases list with
  | nil => exact items_succ_iff.mpr (Or.inl ⟨skipBlanks_cons (by decide), rfl⟩)
  | cons value list =>
    obtain ⟨here, later⟩ := List.forall_mem_cons.mp each
    have first : nextItem true (listed gap last 0x5D ((value :: list).map text) ++ rest) =
        some (text value ++ (following gap last 0x5D (list.map text) ++ rest)) := by
      simp only [List.map_cons, listed, List.append_assoc]
      exact here.openItem inner _
    exact items_succ_iff.mpr (Or.inr ⟨_, value, _, list, first,
      here.read _ (endsNumber_following outer ends rest),
      items_following inner outer later (by simpa using enough) rest, rfl⟩)

end Lists

section Members

variable {gap last sep : Bytes} {text : Json → Bytes} {depth : Nat}
  {list earlier : List (String × Json)} {fuel : Nat}

/-- A member as it is written, with a gap in front of its value. -/
def memberText (sep : Bytes) (text : Json → Bytes) (member : String × Json) : Bytes :=
  Text.encodeChars (printedString member.1) ++ 0x3A :: (sep ++ text member.2)

/-- The text behind the quote that opens a member. -/
def nameText (sep : Bytes) (text : Json → Bytes) (member : String × Json) : Bytes :=
  Text.encodeChars (member.1.toList.flatMap printedChar) ++
    0x22 :: 0x3A :: (sep ++ text member.2)

theorem memberText_eq (member : String × Json) :
    memberText sep text member = 0x22 :: nameText sep text member := by
  have quote : String.utf8EncodeChar '"' = [0x22] := rfl
  simp [memberText, nameText, printedString, Text.encodeChars, quote]

theorem value_append (blank : Blank gap) (rest : Bytes) :
    value depth (gap ++ rest) = value depth rest := by
  unfold value
  rw [skipBlanks_append blank]

/-- A member is kept as it is written. -/
theorem keepMember_read {member : String × Json} (blank : Blank sep)
    (back : ReadsBack (value depth) (text member.2) member.2) {rest : Bytes}
    (ends : EndsNumber rest) :
    stringBody (nameText sep text member ++ rest) =
        .ok (member.1, 0x3A :: (sep ++ (text member.2 ++ rest))) ∧
      keepMember depth earlier member.1 (0x3A :: (sep ++ (text member.2 ++ rest))) =
        .ok (earlier ++ [member], rest) := by
  constructor
  · have regrouped : nameText sep text member ++ rest =
        Text.encodeChars (member.1.toList.flatMap printedChar) ++
          0x22 :: 0x3A :: (sep ++ (text member.2 ++ rest)) := by
      simp [nameText]
    rw [regrouped, stringBody_printed]
  · refine keepMember_eq_ok_iff.mpr ⟨member.2, ?_, rfl⟩
    have mark : colon (0x3A :: (sep ++ (text member.2 ++ rest))) =
        .ok (sep ++ (text member.2 ++ rest)) := by
      rw [colon, skipBlanks_cons (by decide)]
      rfl
    rw [memberValue, mark]
    exact (value_append blank _).trans (back.read rest ends)

theorem skipBlanks_memberText (blank : Blank gap) (member : String × Json) (rest : Bytes) :
    skipBlanks (gap ++ (memberText sep text member ++ rest)) =
      0x22 :: (nameText sep text member ++ rest) := by
  rw [skipBlanks_append blank, memberText_eq, List.cons_append, skipBlanks_cons (by decide)]

theorem members_following (inner : Blank gap) (outer : Blank last) (blank : Blank sep)
    (each : ∀ member ∈ list, ReadsBack (value depth) (text member.2) member.2)
    (enough : list.length < fuel) (rest : Bytes) :
    members (keepMember depth) fuel false earlier
        (following gap last 0x7D (list.map (memberText sep text)) ++ rest) =
      .ok (earlier ++ list, rest) := by
  have ends : ∀ rest, EndsNumber (0x7D :: rest) :=
    endsNumber_cons (by decide) (by decide) (by decide) (by decide)
  induction list generalizing fuel earlier with
  | nil =>
    obtain ⟨fuel, rfl⟩ : ∃ n, fuel = n + 1 := ⟨fuel - 1, by omega⟩
    refine members_succ_iff.mpr (Or.inl ⟨?_, (List.append_nil _).symm⟩)
    rw [List.map_nil, following, List.append_assoc, skipBlanks_append outer]
    exact skipBlanks_cons (by decide)
  | cons member list ih =>
    obtain ⟨here, later⟩ := List.forall_mem_cons.mp each
    obtain ⟨fuel, rfl⟩ : ∃ n, fuel = n + 1 := ⟨fuel - 1, by omega⟩
    have comma : nextName false
          (following gap last 0x7D ((member :: list).map (memberText sep text)) ++ rest) =
        some (nameText sep text member ++
          (following gap last 0x7D (list.map (memberText sep text)) ++ rest)) := by
      simp only [List.map_cons, following, List.cons_append, List.append_assoc]
      rw [nextName, skipBlanks_cons (by decide)]
      dsimp only
      rw [skipBlanks_memberText inner]
      rfl
    obtain ⟨body, kept⟩ := @keepMember_read sep text depth earlier member blank here _
      (endsNumber_following outer ends rest)
    have others := @ih (earlier ++ [member]) fuel later (by simpa using enough)
    rw [List.append_assoc, List.singleton_append] at others
    exact members_succ_iff.mpr (Or.inr ⟨_, member.1, _, _, _, comma, body, kept, others⟩)

/-- The value of every member of an object has been read. -/
theorem forall_mem_members {p : Json → Prop} {first : Bool} {rest left : Bytes}
    (each : ∀ {rest found left}, value depth rest = .ok (found, left) → p found)
    (before : ∀ member ∈ earlier, p member.2)
    (read : members (keepMember depth) fuel first earlier rest = .ok (list, left)) :
    ∀ member ∈ list, p member.2 := by
  induction fuel generalizing first earlier rest with
  | zero => exact absurd read members_zero
  | succ fuel ih =>
    rcases members_succ_iff.mp read with ⟨-, rfl⟩ | ⟨_, name, _, _, _, -, -, kept, others⟩
    · exact before
    · obtain ⟨found, taken, rfl⟩ := keepMember_eq_ok_iff.mp kept
      obtain ⟨_, -, taken⟩ := bind_eq_ok_iff.mp taken
      exact ih (List.forall_mem_append.mpr ⟨before, List.forall_mem_singleton.mpr (each taken)⟩)
        others

/-- The members of an object are read as they are written. -/
theorem members_listed (inner : Blank gap) (outer : Blank last) (blank : Blank sep)
    (each : ∀ member ∈ list, ReadsBack (value depth) (text member.2) member.2)
    (enough : list.length < fuel) (rest : Bytes) :
    members (keepMember depth) fuel true []
        (listed gap last 0x7D (list.map (memberText sep text)) ++ rest) = .ok (list, rest) := by
  have ends : ∀ rest, EndsNumber (0x7D :: rest) :=
    endsNumber_cons (by decide) (by decide) (by decide) (by decide)
  obtain ⟨fuel, rfl⟩ : ∃ n, fuel = n + 1 := ⟨fuel - 1, by omega⟩
  cases list with
  | nil => exact members_succ_iff.mpr (Or.inl ⟨skipBlanks_cons (by decide), rfl⟩)
  | cons member list =>
    obtain ⟨here, later⟩ := List.forall_mem_cons.mp each
    have first : nextName true
          (listed gap last 0x7D ((member :: list).map (memberText sep text)) ++ rest) =
        some (nameText sep text member ++
          (following gap last 0x7D (list.map (memberText sep text)) ++ rest)) := by
      simp only [List.map_cons, listed, List.append_assoc]
      rw [nextName, skipBlanks_memberText inner]
      rfl
    obtain ⟨body, kept⟩ := @keepMember_read sep text depth [] member blank here _
      (endsNumber_following outer ends rest)
    exact members_succ_iff.mpr (Or.inr ⟨_, member.1, _, _, _, first, body, kept,
      members_following inner outer blank later (by simpa using enough) rest⟩)

end Members

section Documents

variable {depth : Nat} {document : Json} {rest left : Bytes} {p q : Number → Prop}

/-- A document in which lists and objects are nested at most so deep, the fields of an
object are sorted, and something holds of all numbers. This is all that can keep a document
from being read again. -/
inductive Shaped (p : Number → Prop) : Nat → Json → Prop
  | null {depth : Nat} : Shaped p depth .null
  | bool {depth : Nat} (value : Bool) : Shaped p depth (.bool value)
  | number {depth : Nat} {value : Number} (held : p value) : Shaped p depth (.number value)
  | string {depth : Nat} (text : String) : Shaped p depth (.string text)
  | array {depth : Nat} {items : List Json} (each : ∀ item ∈ items, Shaped p depth item) :
      Shaped p (depth + 1) (.array items)
  | object {depth : Nat} {fields : Fields} (sorted : Entries.Sorted fields)
      (each : ∀ field ∈ fields, Shaped p depth field.2) : Shaped p (depth + 1) (.object fields)

mutual

/-- The numbers of a document. -/
def numbers : Json → List Number
  | .number value => [value]
  | .array items => itemNumbers items
  | .object fields => fieldNumbers fields
  | _ => []

def itemNumbers : List Json → List Number
  | [] => []
  | item :: rest => numbers item ++ itemNumbers rest

def fieldNumbers : List (String × Json) → List Number
  | [] => []
  | (_, value) :: rest => numbers value ++ fieldNumbers rest

end

theorem mem_itemNumbers {items : List Json} {number : Number} :
    number ∈ itemNumbers items ↔ ∃ item ∈ items, number ∈ item.numbers := by
  induction items with
  | nil => simp [itemNumbers]
  | cons item items ih => simp [itemNumbers, ih]

theorem mem_fieldNumbers {fields : Fields} {number : Number} :
    number ∈ fieldNumbers fields ↔ ∃ field ∈ fields, number ∈ field.2.numbers := by
  induction fields with
  | nil => simp [fieldNumbers]
  | cons field fields ih => simp [fieldNumbers, ih]

theorem Shaped.imp (shaped : Shaped p depth document)
    (each : ∀ number ∈ document.numbers, p number → q number) : Shaped q depth document := by
  induction shaped with
  | null => exact .null
  | bool value => exact .bool value
  | number held => exact .number (each _ (List.mem_singleton_self _) held)
  | string text => exact .string text
  | array inner ih =>
    exact .array fun item inside => ih item inside fun number found =>
      each number (mem_itemNumbers.mpr ⟨item, inside, found⟩)
  | object sorted inner ih =>
    exact .object sorted fun field inside => ih field inside fun number found =>
      each number (mem_fieldNumbers.mpr ⟨field, inside, found⟩)

/-- A document as it is kept: lists and objects are nested at most so deep, numbers are whole and
have 64 bits, and the fields of an object are sorted. -/
inductive Sound : Nat → Json → Prop
  | null {depth : Nat} : Sound depth .null
  | bool {depth : Nat} (value : Bool) : Sound depth (.bool value)
  | number {depth : Nat} {value : Int} (lower : -2 ^ 63 ≤ value) (upper : value < 2 ^ 64) :
      Sound depth (.number (.whole value))
  | string {depth : Nat} (text : String) : Sound depth (.string text)
  | array {depth : Nat} {items : List Json} (each : ∀ item ∈ items, Sound depth item) :
      Sound (depth + 1) (.array items)
  | object {depth : Nat} {fields : Fields} (sorted : Entries.Sorted fields)
      (each : ∀ field ∈ fields, Sound depth field.2) : Sound (depth + 1) (.object fields)

theorem Sound.shaped (sound : Sound depth document) : Shaped Number.Legible depth document := by
  induction sound with
  | null => exact .null
  | bool value => exact .bool value
  | number lower upper => exact .number (legible_whole lower upper)
  | string text => exact .string text
  | array each ih => exact .array ih
  | object sorted each ih => exact .object sorted ih

theorem sound_of_shaped (shaped : Shaped p depth document)
    (whole : ∀ number ∈ document.numbers, p number →
      ∃ value, number = .whole value ∧ -2 ^ 63 ≤ value ∧ value < 2 ^ 64) :
    Sound depth document := by
  induction shaped with
  | null => exact .null
  | bool value => exact .bool value
  | number held =>
    obtain ⟨value, rfl, lower, upper⟩ := whole _ (List.mem_singleton_self _) held
    exact .number lower upper
  | string text => exact .string text
  | array inner ih =>
    exact .array fun item inside => ih item inside fun number found =>
      whole number (mem_itemNumbers.mpr ⟨item, inside, found⟩)
  | object sorted inner ih =>
    exact .object sorted fun field inside => ih field inside fun number found =>
      whole number (mem_fieldNumbers.mpr ⟨field, inside, found⟩)

/-- A document all of whose numbers are whole. -/
inductive Whole : Json → Prop
  | null : Whole .null
  | bool (value : Bool) : Whole (.bool value)
  | number (value : Int) : Whole (.number (.whole value))
  | string (text : String) : Whole (.string text)
  | array {items : List Json} (each : ∀ item ∈ items, Whole item) : Whole (.array items)
  | object {fields : Fields} (each : ∀ field ∈ fields, Whole field.2) : Whole (.object fields)

theorem Whole.numbers (whole : document.Whole) :
    ∀ number ∈ document.numbers, ∃ value, number = .whole value := by
  induction whole with
  | null => exact nofun
  | bool value => exact nofun
  | number value => exact List.forall_mem_singleton.mpr ⟨value, rfl⟩
  | string text => exact nofun
  | array each ih =>
    intro number found
    obtain ⟨item, inside, found⟩ := mem_itemNumbers.mp found
    exact ih item inside number found
  | object each ih =>
    intro number found
    obtain ⟨field, inside, found⟩ := mem_fieldNumbers.mp found
    exact ih field inside number found

mutual

/-- Whether all numbers of a document are whole. -/
def isWhole : Json → Bool
  | .null => true
  | .bool _ => true
  | .number (.whole _) => true
  | .number (.double _) => false
  | .string _ => true
  | .array items => areWhole items
  | .object fields => fieldsWhole fields

def areWhole : List Json → Bool
  | [] => true
  | item :: rest => isWhole item && areWhole rest

def fieldsWhole : List (String × Json) → Bool
  | [] => true
  | (_, value) :: rest => isWhole value && fieldsWhole rest

end

mutual

theorem isWhole_iff : ∀ document : Json, document.isWhole = true ↔ document.Whole
  | .null => iff_of_true rfl .null
  | .bool value => iff_of_true rfl (.bool value)
  | .number (.whole value) => iff_of_true rfl (.number value)
  | .number (.double _) => iff_of_false nofun nofun
  | .string text => iff_of_true rfl (.string text)
  | .array items => by
    rw [isWhole, areWhole_iff items]
    exact ⟨.array, fun | .array each => each⟩
  | .object fields => by
    rw [isWhole, fieldsWhole_iff fields]
    exact ⟨.object, fun | .object each => each⟩

theorem areWhole_iff : ∀ items : List Json, areWhole items = true ↔ ∀ item ∈ items, item.Whole
  | [] => iff_of_true rfl (List.forall_mem_nil _)
  | item :: rest => by
    rw [areWhole, Bool.and_eq_true, isWhole_iff item, areWhole_iff rest, List.forall_mem_cons]

theorem fieldsWhole_iff :
    ∀ fields : List (String × Json), fieldsWhole fields = true ↔ ∀ field ∈ fields, field.2.Whole
  | [] => iff_of_true rfl (List.forall_mem_nil _)
  | (_, value) :: rest => by
    rw [fieldsWhole, Bool.and_eq_true, isWhole_iff value, fieldsWhole_iff rest,
      List.forall_mem_cons]

end

instance (document : Json) : Decidable document.Whole :=
  decidable_of_iff _ (isWhole_iff document)

/-- The text of a document on one line. -/
def compactText (document : Json) : Bytes := Text.encodeChars document.compactChars

theorem encodeChars_compactItems (items : List Json) :
    Text.encodeChars (compactItems items) = listed [] [] 0x5D (items.map compactText) := by
  have comma : String.utf8EncodeChar ',' = [0x2C] := rfl
  have close : Text.encodeChars [']'] = [0x5D] := rfl
  induction items with
  | nil => exact close
  | cons item items ih =>
    cases items with
    | nil => simp [compactItems, listed, following, compactText, Text.encodeChars_append, close]
    | cons next items =>
      rw [compactItems, Text.encodeChars_append, Text.encodeChars_cons, ih, comma]
      · simp [listed, following, compactText]
      · exact nofun

theorem encodeChars_compactFields (fields : Fields) :
    Text.encodeChars (compactFields fields) =
      listed [] [] 0x7D (fields.map (memberText [] compactText)) := by
  have comma : String.utf8EncodeChar ',' = [0x2C] := rfl
  have mark : String.utf8EncodeChar ':' = [0x3A] := rfl
  have close : Text.encodeChars ['\x7d'] = [0x7D] := rfl
  induction fields with
  | nil => exact close
  | cons field fields ih =>
    obtain ⟨name, value⟩ := field
    cases fields with
    | nil =>
      simp [compactFields, listed, following, memberText, compactText, Text.encodeChars_append,
        Text.encodeChars_cons, mark, close]
    | cons next fields =>
      rw [compactFields]
      · simp only [Text.encodeChars_append, Text.encodeChars_cons, ih, comma, mark]
        simp [listed, following, memberText, compactText]
      · exact nofun

/-- A document that is neither a list nor an object. -/
def isPlain : Json → Bool
  | .array _ => false
  | .object _ => false
  | _ => true

/-- A way to write documents that may put blanks in front of items and fields, of the ends
of lists and objects, and of the values of fields. How far it indents depends on the level.
Reading skips blanks in all these places, so that one proof serves every layout. -/
structure Layout where
  text : Nat → Json → Bytes
  gap : Nat → Bytes
  sep : Bytes
  blank_gap : ∀ level, Blank (gap level)
  blank_sep : Blank sep
  text_plain : ∀ (level : Nat) {document : Json}, document.isPlain = true →
    text level document = compactText document
  text_array : ∀ (level : Nat) (items : List Json), text level (.array items) =
    0x5B :: listed (gap (level + 1)) (gap level) 0x5D (items.map (text (level + 1)))
  text_object : ∀ (level : Nat) (fields : Fields), text level (.object fields) =
    0x7B :: listed (gap (level + 1)) (gap level) 0x7D
      (fields.map (memberText sep (text (level + 1))))

/-- The layout on one line. -/
def Layout.compact : Layout where
  text _ := compactText
  gap _ := []
  sep := []
  blank_gap _ := blank_nil
  blank_sep := blank_nil
  text_plain _ _ _ := rfl
  text_array level items := by
    have bracket : String.utf8EncodeChar '[' = [0x5B] := rfl
    rw [compactText, compactChars, Text.encodeChars_cons, encodeChars_compactItems, bracket]
    rfl
  text_object level fields := by
    have brace : String.utf8EncodeChar '\x7b' = [0x7B] := rfl
    rw [compactText, compactChars, Text.encodeChars_cons, encodeChars_compactFields, brace]
    rfl

theorem readsBack_null : ReadsBack (value depth) (compactText .null) .null :=
  ⟨⟨_, _, rfl, by decide, by decide⟩, fun rest _ => value_eq_ok_iff.mpr (.null rfl rfl)⟩

theorem readsBack_bool (given : Bool) :
    ReadsBack (value depth) (compactText (.bool given)) (.bool given) := by
  cases given with
  | true =>
    exact ⟨⟨_, _, rfl, by decide, by decide⟩, fun rest _ => value_eq_ok_iff.mpr (.yes rfl rfl)⟩
  | false =>
    exact ⟨⟨_, _, rfl, by decide, by decide⟩, fun rest _ => value_eq_ok_iff.mpr (.no rfl rfl)⟩

theorem readsBack_number {number : Number} (legible : number.Legible) :
    ReadsBack (value depth) (compactText (.number number)) (.number number) := by
  obtain ⟨byte, behind, begins, sign⟩ := legible.head
  have written : compactText (.number number) = byte :: behind := begins
  have seen : isBlankByte byte = false ∧ byte ≠ 0x5D := by
    refine ⟨eq_false_of_ne_true fun blank => ?_, ?_⟩
    · rcases isBlankByte_iff.mp blank with rfl | rfl | rfl | rfl <;> exact absurd sign (by decide)
    · rintro rfl
      exact absurd sign (by decide)
  refine ⟨⟨byte, behind, written, seen⟩, fun rest ends => value_eq_ok_iff.mpr ?_⟩
  have body := legible.read rest ends
  rw [begins, List.cons_append] at body
  rw [written, List.cons_append]
  exact .number (skipBlanks_cons seen.1) sign body

theorem readsBack_string (text : String) :
    ReadsBack (value depth) (compactText (.string text)) (.string text) := by
  have quote : String.utf8EncodeChar '"' = [0x22] := rfl
  have written : compactText (.string text) =
      0x22 :: (Text.encodeChars (text.toList.flatMap printedChar) ++ [0x22]) := by
    simp [compactText, compactChars, printedString, Text.encodeChars, quote]
  refine ⟨⟨_, _, written, by decide, by decide⟩, fun rest _ => value_eq_ok_iff.mpr ?_⟩
  rw [written, List.cons_append, List.append_assoc]
  exact .string (skipBlanks_cons (by decide)) (stringBody_printed text rest)

namespace Layout

variable (layout : Layout) (level : Nat)

theorem readsBack_plain (back : ReadsBack (value depth) (compactText document) document)
    (plain : document.isPlain = true) :
    ReadsBack (value depth) (layout.text level document) document := by
  rw [layout.text_plain level plain]
  exact back

/-- An object is read as it is written: with all its fields, in the same order. -/
theorem objectMembers_text {fields : Fields}
    (each : ∀ field ∈ fields,
      ReadsBack (value depth) (layout.text (level + 1) field.2) field.2) (rest : Bytes) :
    objectMembers depth (layout.text level (.object fields) ++ rest) = .ok (fields, rest) := by
  rw [layout.text_object, List.cons_append]
  exact objectMembers_eq_ok_iff.mpr ⟨_, skipBlanks_cons (by decide),
    members_listed (layout.blank_gap _) (layout.blank_gap _) layout.blank_sep each
      (length_lt_listed fields _ rest) rest⟩

theorem readsBack_array {items : List Json}
    (each : ∀ item ∈ items, ReadsBack (value depth) (layout.text (level + 1) item) item) :
    ReadsBack (value (depth + 1)) (layout.text level (.array items)) (.array items) := by
  refine ⟨⟨_, _, layout.text_array level items, by decide, by decide⟩, fun rest _ => ?_⟩
  rw [layout.text_array, List.cons_append]
  exact value_eq_ok_iff.mpr (.array (skipBlanks_cons (by decide)) (items_listed
    (layout.blank_gap _) (layout.blank_gap _) each (length_lt_listed items _ rest) rest))

theorem readsBack_object {fields : Fields} (sorted : Entries.Sorted fields)
    (each : ∀ field ∈ fields,
      ReadsBack (value depth) (layout.text (level + 1) field.2) field.2) :
    ReadsBack (value (depth + 1)) (layout.text level (.object fields)) (.object fields) := by
  refine ⟨⟨_, _, layout.text_object level fields, by decide, by decide⟩, fun rest _ => ?_⟩
  have reads := Reads.object (layout.objectMembers_text level each rest)
  rw [Fields.ofMembers_of_sorted sorted] at reads
  exact value_eq_ok_iff.mpr reads

/-- A document is read as it is written, whatever the layout, where all its numbers are. By
induction over the document: lists and objects are read when their parts are. -/
theorem readsBack (shaped : Shaped Number.Legible depth document) :
    ReadsBack (value depth) (layout.text level document) document := by
  induction shaped generalizing level with
  | null => exact layout.readsBack_plain level readsBack_null rfl
  | bool value => exact layout.readsBack_plain level (readsBack_bool value) rfl
  | number legible => exact layout.readsBack_plain level (readsBack_number legible) rfl
  | string text => exact layout.readsBack_plain level (readsBack_string text) rfl
  | array each ih => exact layout.readsBack_array level fun item inside => ih item inside (level + 1)
  | object sorted each ih =>
    exact layout.readsBack_object level sorted fun field inside => ih field inside (level + 1)

end Layout

theorem Sound.readsBack (sound : Sound depth document) :
    ReadsBack (value depth) (compactText document) document :=
  Layout.compact.readsBack 0 sound.shaped

/-- A document that is read is nested no deeper than is read, its fields are sorted, and its
numbers have been read. So what has been read once can be written and read again. -/
theorem shaped_of_value (read : value depth rest = .ok (document, left)) :
    Shaped (fun number => ∃ rest left, signed rest = .ok (number, left)) depth document := by
  induction depth using Nat.strongRecOn generalizing rest document left with
  | ind depth ih =>
    cases value_eq_ok_iff.mp read with
    | null => exact .null
    | yes => exact .bool true
    | no => exact .bool false
    | string => exact .string _
    | number _ _ body => exact .number ⟨_, _, body⟩
    | @array depth _ _ _ _ _ body =>
      exact .array (forall_mem_items (fun read => ih depth (Nat.lt_succ_self depth) read) body)
    | @object depth _ members _ body =>
      obtain ⟨behind, -, body⟩ := objectMembers_eq_ok_iff.mp body
      have shaped := forall_mem_members (fun read => ih depth (Nat.lt_succ_self depth) read)
        (List.forall_mem_nil _) body
      exact .object (Fields.sorted_ofMembers members) fun field inside =>
        shaped field (Fields.mem_of_mem_ofMembers inside)

/-- A document that is read is as documents are kept, unless a number is not whole. -/
theorem sound_of_value (read : value depth rest = .ok (document, left)) (whole : document.Whole) :
    Sound depth document := by
  refine sound_of_shaped (shaped_of_value read) ?_
  rintro number found ⟨rest, left, body⟩
  obtain ⟨value, rfl⟩ := whole.numbers number found
  exact ⟨value, rfl, bounds_of_signed body⟩

theorem sound_of_read {body : Bytes} (read : Json.read body = .ok document)
    (whole : document.Whole) : Sound depthLimit document := by
  obtain ⟨left, read, -⟩ := readWith_eq_ok_iff.mp read
  exact sound_of_value read whole

/-- A document is read as it is written on one line. This layout has no blanks at all. -/
theorem read_compact (sound : Sound depthLimit document) :
    Json.read (Text.encode document.compact) = .ok document := by
  have text : Text.encode document.compact = compactText document ++ [] := by
    rw [Text.encode, compact, String.toList_ofList, List.append_nil]
    rfl
  rw [text]
  exact readWith_eq_ok_iff.mpr ⟨[], sound.readsBack.read [] endsNumber_nil, rfl⟩

end Documents

end PlatformClient.Json
