import Mathlib.Data.List.Infix
import PlatformClient.Call.Payload
import PlatformClient.Proofs.Utf8RoundTrip

namespace PlatformClient.Text

namespace Utf8State

/-- The pieces completed by some bytes, and where the decoder stands after them. Nothing is
said here of the end of the bytes, so that two parts of a text can be decoded one after the
other. -/
def run : Utf8State → Bytes → List Utf8Piece × Utf8State
  | state, [] => ([], state)
  | state, byte :: rest =>
    let (done, next) := state.step byte
    let (more, last) := next.run rest
    (done ++ more, last)

theorem pieces_append (state : Utf8State) (front rest : Bytes) :
    state.pieces (front ++ rest) = (state.run front).1 ++ (state.run front).2.pieces rest := by
  induction front generalizing state with
  | nil => rfl
  | cons byte front ih =>
    rw [List.cons_append, pieces_cons, ih, ← List.append_assoc]
    rfl

/-- What is cut off within the bytes of one character is one broken piece. The decoder has
completed nothing up to there, since the whole gives a single piece and what is left has to
complete it. -/
theorem pieces_of_cut {front rest : Bytes} {c : Char}
    (whole : boundary.pieces (front ++ rest) = [some c]) (begun : front ≠ []) (left : rest ≠ []) :
    boundary.pieces front = [none] := by
  have alone := pieces_append boundary front []
  rw [List.append_nil] at alone
  rw [pieces_append, List.append_eq_singleton_iff] at whole
  cases last : (boundary.run front).2 with
  | boundary =>
    rw [last] at whole alone
    rw [show boundary.pieces [] = [] from rfl, List.append_nil] at alone
    rcases whole with ⟨none, -⟩ | ⟨-, none⟩
    · exact absurd (pieces_eq_nil (alone.trans none)).2 begun
    · exact absurd (pieces_eq_nil none).2 left
  | inside low high later value =>
    rw [last] at whole alone
    rcases whole with ⟨none, -⟩ | ⟨-, none⟩
    · rw [alone, none]
      rfl
    · cases (pieces_eq_nil none).1

/-- How many characters are under way. -/
def begun : Utf8State → Nat
  | boundary => 0
  | inside .. => 1

/-- How many bytes some pieces have in a text in which the broken ones are replaced, each by
the three bytes of the replacement. -/
def weight (pieces : List Utf8Piece) : Nat := (encodeChars (pieces.map (·.getD replacement))).length

theorem weight_append (pieces more : List Utf8Piece) :
    weight (pieces ++ more) = weight pieces + weight more := by
  rw [weight, List.map_append, encodeChars_append, List.length_append]
  rfl

theorem weight_singleton (piece : Utf8Piece) :
    weight [piece] = (piece.getD replacement).utf8Size := by
  rw [← String.length_utf8EncodeChar]
  exact congrArg List.length (List.append_nil _)

/-- A byte at the boundary completes a short piece, or begins a character. -/
theorem atBoundary_bounds (byte : Nat) :
    (atBoundary byte).1.length + (atBoundary byte).2.begun ≤ 1 ∧
      weight (atBoundary byte).1 + 3 * (atBoundary byte).2.begun ≤ 3 := by
  unfold atBoundary
  split_ifs with ascii
  · have short : (Char.ofNat byte).utf8Size ≤ 3 := by
      revert byte
      decide
    exact ⟨le_rfl, (weight_singleton _).le.trans short⟩
  · split
    · rename_i state found
      cases state with
      | boundary => exact ⟨Nat.zero_le _, Nat.zero_le _⟩
      | inside low high later value => exact ⟨le_rfl, le_rfl⟩
    · exact ⟨le_rfl, (weight_singleton none).le.trans (by decide)⟩

/-- Each byte pays for one piece, and for three bytes of the text. A character under way
counts as a piece that is paid for already, because it can still turn out to be broken. -/
theorem step_bounds (state : Utf8State) (byte : UInt8) :
    (state.step byte).1.length + (state.step byte).2.begun ≤ state.begun + 1 ∧
      weight (state.step byte).1 + 3 * (state.step byte).2.begun ≤ 3 * state.begun + 3 := by
  obtain ⟨count, size⟩ := atBoundary_bounds byte.toNat
  cases state with
  | boundary => exact ⟨by simpa [begun, step] using count, by simpa [begun, step] using size⟩
  | inside low high later value =>
    by_cases continued : low ≤ byte.toNat ∧ byte.toNat ≤ high
    · cases later with
      | zero =>
        have short := Char.utf8Size_le_four (Char.ofNat (append value byte.toNat))
        simp only [step, if_pos continued, weight_singleton, Option.getD_some]
        exact ⟨by simp [begun], by simp only [begun]; omega⟩
      | succ later =>
        simp only [step, if_pos continued]
        exact ⟨by simp [begun], by simp [begun, weight, encodeChars]⟩
    · have first : weight [none] = 3 := by decide
      have both := weight_append [none] (atBoundary byte.toNat).1
      have under : (inside low high later value).begun = 1 := rfl
      rw [List.singleton_append] at both
      simp only [step, if_neg continued, List.length_cons, under]
      exact ⟨by omega, by omega⟩

theorem pieces_bounds (state : Utf8State) (bytes : Bytes) :
    (state.pieces bytes).length ≤ state.begun + bytes.length ∧
      weight (state.pieces bytes) ≤ 3 * (state.begun + bytes.length) := by
  induction bytes generalizing state with
  | nil =>
    cases state with
    | boundary => exact ⟨le_rfl, le_rfl⟩
    | inside low high later value => exact ⟨le_rfl, le_rfl⟩
  | cons byte rest ih =>
    obtain ⟨count, size⟩ := step_bounds state byte
    obtain ⟨counts, sizes⟩ := ih (state.step byte).2
    rw [pieces_cons, weight_append, List.length_append, List.length_cons]
    exact ⟨by omega, by omega⟩

end Utf8State

/-- Decoding gives no more characters than there are bytes, however the bytes are broken. -/
theorem length_decodeLossyChars_le (bytes : Bytes) : (decodeLossyChars bytes).length ≤ bytes.length := by
  have bound := (Utf8State.boundary.pieces_bounds bytes).1
  rw [decodeLossyChars, List.length_map]
  simpa [Utf8State.begun] using bound

/-- Decoding with losses can make three bytes of one, but no more, as each byte is paid for
when it is read. -/
theorem length_encode_decodeLossyChars_le (bytes : Bytes) :
    (encodeChars (decodeLossyChars bytes)).length ≤ 3 * bytes.length := by
  have bound := (Utf8State.boundary.pieces_bounds bytes).2
  rwa [Utf8State.begun, Nat.zero_add] at bound

/-- It does so where no byte belongs to a character. -/
example : (encodeChars (decodeLossyChars [0xFF, 0xC3])).length = 3 * 2 := by decide

theorem decodeLossy_encode (text : String) : decodeLossy (encode text) = text := by
  have pieces : (text.toList.map some).map (·.getD replacement) = text.toList := by
    rw [List.map_map]
    exact List.map_id _
  rw [decodeLossy, decodeLossyChars, encode, Utf8State.pieces_encodeChars, pieces,
    String.ofList_toList]

section Cut

/-- A limit of bytes lies between two characters of a text, or behind its end: some
characters from its start have just as many bytes as are kept. -/
def EndsCharacter (limit : Nat) (cs : List Char) : Prop :=
  ∃ front, front <+: cs ∧ (encodeChars front).length = min limit (encodeChars cs).length

/-- How the characters of a text are shown of which only the bytes up to a limit are kept:
as they are, up to the limit where it lies between two of them, or else with a replacement
for the one that the limit cuts. -/
inductive Cut (limit : Nat) : List Char → List Char → Prop
  | whole {cs : List Char} (short : (encodeChars cs).length ≤ limit) : Cut limit cs cs
  | between {front rest : List Char} (filled : (encodeChars front).length = limit) :
      Cut limit (front ++ rest) front
  | inside {front : List Char} {c : Char} {rest : List Char}
      (before : (encodeChars front).length < limit)
      (beyond : limit < (encodeChars front).length + c.utf8Size) :
      Cut limit (front ++ c :: rest) (front ++ [replacement])

variable {limit : Nat} {cs shown : List Char}

theorem length_encodeChars_cons (c : Char) (cs : List Char) :
    (encodeChars (c :: cs)).length = c.utf8Size + (encodeChars cs).length := by
  rw [encodeChars_cons, List.length_append, String.length_utf8EncodeChar]

theorem Cut.cons {c : Char} (fits : c.utf8Size ≤ limit) (cut : Cut (limit - c.utf8Size) cs shown) :
    Cut limit (c :: cs) (c :: shown) := by
  cases cut with
  | whole short => exact .whole (by rw [length_encodeChars_cons]; omega)
  | @between _ rest filled =>
    rw [← List.cons_append]
    exact .between (by rw [length_encodeChars_cons]; omega)
  | @inside front d rest before beyond =>
    rw [← List.cons_append, ← List.cons_append]
    refine .inside ?_ ?_
    · rw [length_encodeChars_cons]
      omega
    · rw [length_encodeChars_cons]
      omega

theorem decodeLossyChars_encodeChar (c : Char) (rest : Bytes) :
    decodeLossyChars (String.utf8EncodeChar c ++ rest) = c :: decodeLossyChars rest := by
  rw [decodeLossyChars, Utf8State.pieces_encodeChar]
  rfl

/-- A character of which not all bytes are kept is replaced, by one replacement however many
of its bytes are there. -/
theorem decodeLossyChars_of_cut {c : Char} (some : limit ≠ 0) (beyond : limit < c.utf8Size) :
    decodeLossyChars ((String.utf8EncodeChar c).take limit) = [replacement] := by
  have length := String.length_utf8EncodeChar c
  have whole := Utf8State.pieces_encodeChar c []
  rw [List.append_nil, ← List.take_append_drop limit (String.utf8EncodeChar c)] at whole
  have begun : (String.utf8EncodeChar c).take limit ≠ [] := by
    rw [← List.length_pos_iff, List.length_take]
    omega
  have left : (String.utf8EncodeChar c).drop limit ≠ [] := by
    rw [← List.length_pos_iff, List.length_drop]
    omega
  rw [decodeLossyChars, Utf8State.pieces_of_cut whole begun left]
  rfl

/-- By induction on the characters of the text, each of which takes its bytes off the limit.
The induction ends at the first that does not fit, and there the rest of the text is of no
account. -/
theorem cut_decodeLossyChars (limit : Nat) (cs : List Char) :
    Cut limit cs (decodeLossyChars ((encodeChars cs).take limit)) := by
  induction cs generalizing limit with
  | nil =>
    have none : (encodeChars []).take limit = [] := List.take_nil
    rw [none]
    exact .whole (Nat.zero_le limit)
  | cons c cs ih =>
    have length := String.length_utf8EncodeChar c
    rw [encodeChars_cons, List.take_append, length]
    by_cases fits : c.utf8Size ≤ limit
    · rw [List.take_of_length_le (by omega), decodeLossyChars_encodeChar]
      exact (ih (limit - c.utf8Size)).cons fits
    · rw [show limit - c.utf8Size = 0 by omega, List.take_zero, List.append_nil]
      by_cases nothing : limit = 0
      · rw [nothing, List.take_zero]
        exact @Cut.between 0 [] (c :: cs) rfl
      · rw [decodeLossyChars_of_cut nothing (by omega)]
        have none : (encodeChars []).length = 0 := rfl
        exact @Cut.inside limit [] c cs (by omega) (by omega)

theorem length_encodeChars_replaced (front : List Char) :
    (encodeChars (front ++ [replacement])).length = (encodeChars front).length + 3 := by
  rw [encodeChars_append, List.length_append]
  rfl

theorem length_encodeChars_mono {front : List Char} (start : front <+: cs) :
    (encodeChars front).length ≤ (encodeChars cs).length := by
  obtain ⟨rest, rfl⟩ := start
  rw [encodeChars_append, List.length_append]
  omega

/-- The replacement of one character can take two bytes more than were kept of it, since it
has three bytes itself and at least one was kept. -/
theorem Cut.length_le (cut : Cut limit cs shown) : (encodeChars shown).length ≤ limit + 2 := by
  cases cut with
  | whole short => omega
  | between filled => omega
  | inside before beyond =>
    rw [length_encodeChars_replaced]
    omega

/-- What is shown is within the limit and stands in the text exactly where no character is
cut. A text may well have the replacement for a character of its own; but this has three
bytes, so if it is the one that is cut, what is shown is beyond the limit. -/
theorem Cut.faithful_iff (cut : Cut limit cs shown) :
    (encodeChars shown).length ≤ limit ∧ shown <+: cs ↔ EndsCharacter limit cs := by
  cases cut with
  | whole short =>
    have ends : EndsCharacter limit cs := ⟨cs, List.prefix_rfl, by omega⟩
    exact iff_of_true ⟨short, List.prefix_rfl⟩ ends
  | @between _ rest filled =>
    have start : shown <+: shown ++ rest := List.prefix_append shown rest
    have ends : EndsCharacter limit (shown ++ rest) :=
      ⟨shown, start, by have := length_encodeChars_mono start; omega⟩
    exact iff_of_true ⟨filled.le, start⟩ ends
  | @inside front c rest before beyond =>
    have through : front ++ [c] <+: front ++ c :: rest := ⟨rest, by simp⟩
    have size : (encodeChars (front ++ [c])).length = (encodeChars front).length + c.utf8Size := by
      rw [encodeChars_append, List.length_append, length_encodeChars_cons]
      rfl
    refine iff_of_false ?_ ?_
    · rintro ⟨bounded, start⟩
      have same : replacement = c := by simpa using start
      rw [length_encodeChars_replaced] at bounded
      rw [← same] at beyond
      have three : replacement.utf8Size = 3 := by decide
      omega
    · rintro ⟨kept, start, filled⟩
      have total := length_encodeChars_mono through
      rcases List.prefix_or_prefix_of_prefix start through with earlier | later
      · rcases List.prefix_concat_iff.mp earlier with rfl | earlier
        · omega
        · have := length_encodeChars_mono earlier
          omega
      · have := length_encodeChars_mono later
        omega

end Cut

end PlatformClient.Text

namespace PlatformClient.CallError

/-- What is known of the excerpt of a body. The first two bounds hold for any bytes; the
others are about bodies that are texts, or at least begin with one. -/
structure Excerpts (body : Bytes) (excerpt : String) : Prop where
  characters : excerpt.length ≤ excerptLimit
  /-- A byte that belongs to no character is replaced by one of three bytes. -/
  bytes : (Text.encode excerpt).length ≤ 3 * excerptLimit
  /-- Where what is kept is a text, it is shown as it is, whatever comes behind it. -/
  kept : ∀ text : String, body.take excerptLimit = Text.encode text →
    excerpt = text ∧ (Text.encode excerpt).length ≤ excerptLimit
  cut : ∀ text : String, body = Text.encode text →
    Text.Cut excerptLimit text.toList excerpt.toList
  /-- Of a text, at most one character is replaced. -/
  near : ∀ text : String, body = Text.encode text →
    (Text.encode excerpt).length ≤ excerptLimit + 2
  /-- The excerpt of a text keeps to the limit and stands at the start of the text where the limit
  cuts no character, and only there. -/
  faithful_iff : ∀ text : String, body = Text.encode text →
    ((Text.encode excerpt).length ≤ excerptLimit ∧ excerpt.toList <+: text.toList ↔
      Text.EndsCharacter excerptLimit text.toList)

/-- The limit is on the bytes that are kept, not on what is shown, so all bounds come from
what decoding can make of that many bytes. -/
theorem excerpts_decodeLossy (body : Bytes) :
    Excerpts body (Text.decodeLossy (body.take excerptLimit)) := by
  have limited : (body.take excerptLimit).length ≤ excerptLimit := List.length_take_le ..
  have chars : (Text.decodeLossy (body.take excerptLimit)).toList =
      Text.decodeLossyChars (body.take excerptLimit) := String.toList_ofList
  have cut : ∀ text : String, body = Text.encode text →
      Text.Cut excerptLimit text.toList (Text.decodeLossy (body.take excerptLimit)).toList := by
    rintro text rfl
    rw [chars]
    exact Text.cut_decodeLossyChars excerptLimit text.toList
  exact {
    characters := by
      rw [← String.length_toList, chars]
      exact (Text.length_decodeLossyChars_le _).trans limited
    bytes := by
      rw [Text.encode, chars]
      have bound := Text.length_encode_decodeLossyChars_le (body.take excerptLimit)
      omega
    kept := fun text encoded => by
      rw [encoded, Text.decodeLossy_encode, ← encoded]
      exact ⟨rfl, limited⟩
    cut := cut
    near := fun text encoded => (cut text encoded).length_le
    faithful_iff := fun text encoded => (cut text encoded).faithful_iff }

/-- A body that is no document is shown by an excerpt. What is known of it does not depend
on why the body could not be read, or where: the excerpt is taken from the start in any
case. -/
theorem decode_excerpt {body : Bytes} {error : CallError}
    (failed : (Payload.document body).decode = .error error) :
    ∃ why excerpt, Json.read body = .error why ∧ error = .decode why excerpt ∧
      Excerpts body excerpt := by
  rw [Payload.decode] at failed
  cases read : Json.read body with
  | ok value =>
    rw [read] at failed
    cases failed
  | error why =>
    rw [read] at failed
    cases failed
    exact ⟨why, _, rfl, rfl, excerpts_decodeLossy body⟩

/-- A text of so many letters and a last character. -/
def splitText (start : Nat) (last : Char) : String :=
  String.ofList (List.replicate start 'x' ++ [last])

theorem encode_splitText (start : Nat) (last : Char) :
    Text.encode (splitText start last) = Text.encodeChars (List.replicate start 'x' ++ [last]) := by
  rw [Text.encode, splitText, String.toList_ofList]

/-- The bytes that are kept of the last character here are as many as its replacement has,
so the excerpt is within the limit and yet not of the text. -/
theorem decode_excerpt_of_four :
    ∃ error, (Payload.document (Text.encode (splitText 253 '😀'))).decode = .error error ∧
      ∃ why excerpt, Json.read (Text.encode (splitText 253 '😀')) = .error why ∧
        error = .decode why excerpt ∧ Excerpts (Text.encode (splitText 253 '😀')) excerpt := by
  have fails : (Payload.document (Text.encode (splitText 253 '😀'))).decode.isOk = false := by
    rw [encode_splitText]
    decide +kernel
  cases failed : (Payload.document (Text.encode (splitText 253 '😀'))).decode with
  | ok value =>
    rw [failed] at fails
    cases fails
  | error error => exact ⟨error, rfl, decode_excerpt failed⟩

/-- One byte of a character is replaced by three, which are beyond the limit and not of the
text. -/
theorem decode_excerpt_beyond :
    ∃ why excerpt, (Payload.document (Text.encode (splitText 255 'é'))).decode =
        .error (.decode why excerpt) ∧
      (Text.encode excerpt).length = excerptLimit + 2 ∧
      ¬ excerpt.toList <+: (splitText 255 'é').toList := by
  have fails : (Json.read (Text.encode (splitText 255 'é'))).isOk = false := by
    rw [encode_splitText]
    decide +kernel
  have shown : Text.decodeLossy ((Text.encode (splitText 255 'é')).take excerptLimit) =
      splitText 255 Text.replacement := by
    rw [encode_splitText]
    refine congrArg String.ofList ?_
    decide +kernel
  cases read : Json.read (Text.encode (splitText 255 'é')) with
  | ok value =>
    rw [read] at fails
    cases fails
  | error why =>
    refine ⟨why, splitText 255 Text.replacement, ?_, ?_, ?_⟩
    · rw [Payload.decode, read, ← shown]
      rfl
    · rw [encode_splitText]
      decide +kernel
    · simp only [splitText, String.toList_ofList, List.prefix_append_right_inj]
      decide

end PlatformClient.CallError
