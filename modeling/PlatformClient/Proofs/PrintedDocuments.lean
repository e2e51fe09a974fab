import PlatformClient.Proofs.CommandPlans
import PlatformClient.Proofs.DecodeExcerpts
import PlatformClient.Proofs.JsonDocuments

namespace PlatformClient

namespace Json

variable {document : Json} {body : Bytes}

/-- A number that is written as an integer: whole, or the zero behind a sign, which no whole
number can tell from zero and which is therefore kept as a double. -/
def Number.IsInteger : Number → Prop
  | .whole _ => True
  | .double value => value = negativeZero

instance : DecidablePred Number.IsInteger
  | .whole _ => inferInstanceAs (Decidable True)
  | .double value => inferInstanceAs (Decidable (value = negativeZero))

/-- A document all of whose numbers are integers. -/
def Integral (document : Json) : Prop := ∀ number ∈ document.numbers, number.IsInteger

instance (document : Json) : Decidable document.Integral :=
  inferInstanceAs (Decidable (∀ number ∈ document.numbers, number.IsInteger))

/-- A document that is read with integers only is legible as it is printed. That a whole
number is within its bounds is known from its digits having been read. -/
theorem shaped_of_read (read : Json.read body = .ok document) (integral : document.Integral) :
    Shaped Number.Legible depthLimit document := by
  obtain ⟨left, read, -⟩ := readWith_eq_ok_iff.mp read
  refine (shaped_of_value read).imp ?_
  rintro (value | value) inside ⟨rest, left, body⟩
  · obtain ⟨lower, upper⟩ := bounds_of_signed body
    exact legible_whole lower upper
  · have zero : value = negativeZero := integral _ inside
    rw [zero]
    exact legible_negativeZero

/-- The text of a document over several lines. -/
def prettyText (level : Nat) (document : Json) : Bytes :=
  Text.encodeChars (document.prettyChars level)

/-- The end of a line, and the indentation of the next. -/
def lineGap (level : Nat) : Bytes := Text.encodeChars (newLine level)

theorem blank_lineGap (level : Nat) : Blank (lineGap level) := by
  intro byte inside
  obtain ⟨c, member, encoded⟩ := List.mem_flatMap.mp inside
  rcases List.mem_cons.mp member with rfl | indented
  · obtain rfl := List.mem_singleton.mp encoded
    rfl
  · obtain rfl := List.eq_of_mem_replicate indented
    obtain rfl := List.mem_singleton.mp encoded
    rfl

theorem listed_cons_cons (gap last : Bytes) (close : UInt8) (text next : Bytes)
    (rest : List Bytes) : listed gap last close (text :: next :: rest) =
      gap ++ text ++ 0x2C :: listed gap last close (next :: rest) := by
  simp [listed, following]

theorem encodeChars_prettyItems (level : Nat) (item : Json) (items : List Json) :
    Text.encodeChars (prettyItems level (item :: items)) =
      listed (lineGap (level + 1)) (lineGap level) 0x5D
        ((item :: items).map (prettyText (level + 1))) := by
  have close : Text.encodeChars [']'] = [0x5D] := rfl
  have comma : String.utf8EncodeChar ',' = [0x2C] := rfl
  induction items generalizing item with
  | nil =>
    simp [prettyItems, listed, following, lineGap, prettyText, Text.encodeChars_append, close]
  | cons next items ih =>
    have first : prettyItems level (item :: next :: items) =
        newLine (level + 1) ++ prettyChars (level + 1) item ++
          ',' :: prettyItems level (next :: items) := by
      rw [prettyItems]
      exact List.cons_ne_nil _ _
    rw [first, Text.encodeChars_append, Text.encodeChars_append, Text.encodeChars_cons, ih, comma]
    simp only [List.map_cons, listed_cons_cons]
    rfl

theorem encodeChars_prettyFields (level : Nat) (field : String × Json) (fields : Fields) :
    Text.encodeChars (prettyFields level (field :: fields)) =
      listed (lineGap (level + 1)) (lineGap level) 0x7D
        ((field :: fields).map (memberText [0x20] (prettyText (level + 1)))) := by
  have close : Text.encodeChars ['\x7d'] = [0x7D] := rfl
  have comma : String.utf8EncodeChar ',' = [0x2C] := rfl
  have mark : String.utf8EncodeChar ':' = [0x3A] := rfl
  have blank : String.utf8EncodeChar ' ' = [0x20] := rfl
  have member (field : String × Json) : Text.encodeChars (printedString field.1 ++
      ':' :: ' ' :: prettyChars (level + 1) field.2) =
        memberText [0x20] (prettyText (level + 1)) field := by
    simp [memberText, prettyText, Text.encodeChars_append, Text.encodeChars_cons, mark, blank]
  induction fields generalizing field with
  | nil =>
    have only : prettyFields level [field] = newLine (level + 1) ++ (printedString field.1 ++
        ':' :: ' ' :: prettyChars (level + 1) field.2) ++ newLine level ++ ['\x7d'] := by
      simp [prettyFields]
    rw [only, Text.encodeChars_append, Text.encodeChars_append, Text.encodeChars_append, member,
      close]
    simp [listed, following, lineGap]
  | cons next fields ih =>
    have first : prettyFields level (field :: next :: fields) =
        newLine (level + 1) ++ (printedString field.1 ++
          ':' :: ' ' :: prettyChars (level + 1) field.2) ++
            ',' :: prettyFields level (next :: fields) := by
      rw [prettyFields]
      · simp
      · exact List.cons_ne_nil _ _
    rw [first, Text.encodeChars_append, Text.encodeChars_append, Text.encodeChars_cons, member, ih,
      comma]
    simp only [List.map_cons, listed_cons_cons]
    rfl

/-- The layout over several lines. Lists and objects without content stay on one. What is
known of layouts in general is thereby known of this one, so reading back is not proved a
second time. -/
def Layout.pretty : Layout where
  text := prettyText
  gap := lineGap
  sep := [0x20]
  blank_gap := blank_lineGap
  blank_sep := List.forall_mem_singleton.mpr rfl
  text_plain level document plain := by
    cases document with
    | null => rfl
    | bool value => cases value <;> rfl
    | number value => rfl
    | string text => rfl
    | array items => cases plain
    | object fields => cases plain
  text_array level items := by
    have bracket : String.utf8EncodeChar '[' = [0x5B] := rfl
    cases items with
    | nil => rfl
    | cons item items =>
      rw [prettyText, prettyChars, Text.encodeChars_cons, encodeChars_prettyItems, bracket]
      · rfl
      · exact List.cons_ne_nil _ _
  text_object level fields := by
    have brace : String.utf8EncodeChar '\x7b' = [0x7B] := rfl
    cases fields with
    | nil => rfl
    | cons field fields =>
      rw [prettyText, prettyChars, Text.encodeChars_cons, encodeChars_prettyFields, brace]
      · rfl
      · exact List.cons_ne_nil _ _

/-- A document is read as it is printed over several lines. -/
theorem read_pretty (shaped : Shaped Number.Legible depthLimit document) :
    Json.read (Text.encode document.pretty) = .ok document := by
  have text : Text.encode document.pretty = prettyText 0 document ++ [] := by
    rw [Text.encode, pretty, String.toList_ofList, List.append_nil]
    rfl
  rw [text]
  exact readWith_eq_ok_iff.mpr
    ⟨[], (Layout.pretty.readsBack 0 shaped).read [] endsNumber_nil, rfl⟩

end Json

namespace Payload

variable {body : Bytes} {document : Json} {text : String}

theorem formatBody_of_read (read : Json.read body = .ok document) :
    formatBody body = document.pretty := by
  rw [formatBody, read]

theorem formatBody_of_unread {error : Json.Error} (failed : Json.read body = .error error) :
    formatBody body = Text.decodeLossy body := by
  rw [formatBody, failed]

/-- What is printed of a document is read as that document again, and not merely as an equal
one up to the order of its fields: the fields have been sorted when the body was read. -/
theorem read_formatBody (read : Json.read body = .ok document) (integral : document.Integral) :
    Json.read (Text.encode (formatBody body)) = .ok document := by
  rw [formatBody_of_read read]
  exact Json.read_pretty (Json.shaped_of_read read integral)

/-- What is printed of a text is printed as it is, whether or not the text is a document. A
document is read from its own layout, and what is no document is the same text before and
after. -/
theorem formatBody_formatBody
    (integral : ∀ document, Json.read (Text.encode text) = .ok document → document.Integral) :
    formatBody (Text.encode (formatBody (Text.encode text))) = formatBody (Text.encode text) := by
  cases known : Json.read (Text.encode text) with
  | ok document =>
    have again := read_formatBody known (integral document known)
    rw [formatBody_of_read again, formatBody_of_read known]
  | error error =>
    rw [formatBody_of_unread known, Text.decodeLossy_encode, formatBody_of_unread known,
      Text.decodeLossy_encode]

theorem read_of_decode (decoded : decode (.document body) = .ok (some document)) :
    Json.read body = .ok document := by
  cases known : Json.read body with
  | ok value =>
    rw [decode, known] at decoded
    exact congrArg _ (Option.some.inj (Except.ok.inj decoded))
  | error error =>
    rw [decode, known] at decoded
    cases decoded

/-- What is printed of a body: the document that it is, if all its numbers are integers, laid out so
that it can be read and printed again, or else its text. It makes no difference whether the document
is read before it is presented. -/
structure Printed (body : Bytes) : Prop where
  document : ∀ document, Json.read body = .ok document → document.Integral →
    Json.read (Text.encode (formatBody body)) = .ok document
  other : ∀ error, Json.read body = .error error → formatBody body = Text.decodeLossy body
  again : ∀ text, body = Text.encode text →
    (∀ document, Json.read body = .ok document → document.Integral) →
      formatBody (Text.encode (formatBody body)) = formatBody body
  presented : ∀ document, decode (.document body) = .ok (some document) →
    Presentation.document.present (.ok (.document body)) = .ok (some document.pretty) ∧
      Presentation.payload.present (.ok (.document body)) = .ok (some document.pretty)

/-- The document is printed from what was read of the body, so all that matters is that its
layout is read as it. Where nothing could be read, the body is decoded as it stands, and
decoding leaves a text alone. -/
theorem printed_body (body : Bytes) : Printed body where
  document _ := read_formatBody
  other _ := formatBody_of_unread
  again := by
    rintro text rfl integral
    exact formatBody_formatBody integral
  presented document decoded := by
    have laidOut := formatBody_of_read (read_of_decode decoded)
    constructor
    · change Command.shown (decode (.document body)) = _
      rw [decoded]
      rfl
    · change Except.ok (some (formatBody body)) = _
      rw [laidOut]

/-- A document with a name twice, a negative zero, nothing in a list and in an object, and the
greatest number. -/
def nestedText : String :=
  "\x7b\"b\": [-0, [], \x7b\x7d], \"a\": 1, \"a\": \x7b\"\\u001f\": 18446744073709551615\x7d\x7d"

theorem printed_body_nested :
    ∃ document, Json.read (Text.encode nestedText) = .ok document ∧ document.Integral ∧
      formatBody (Text.encode nestedText) = String.intercalate "\n"
        ["\x7b", "  \"a\": \x7b", "    \"\\u001f\": 18446744073709551615", "  \x7d,", "  \"b\": [",
          "    -0.0,", "    [],", "    \x7b\x7d", "  ]", "\x7d"] ∧
      Json.read (Text.encode (formatBody (Text.encode nestedText))) = .ok document := by
  have accepted : (Json.read (Text.encode nestedText)).isOk = true := by decide +kernel
  obtain ⟨document, read⟩ := exists_eq_ok accepted
  have integral : document.Integral := by
    have each : (Json.read (Text.encode nestedText)).toOption.all fun document =>
        document.numbers.all fun number => decide number.IsInteger := by decide +kernel
    rw [read] at each
    simpa [Except.toOption, Json.Integral] using each
  exact ⟨document, read, integral, by decide +kernel,
    (printed_body (Text.encode nestedText)).document document read integral⟩

end Payload

end PlatformClient
