import PlatformClient.Json.Printer
import PlatformClient.Json.Reader
import PlatformClient.Proofs.PercentEscapes
import PlatformClient.Proofs.Utf8RoundTrip

namespace PlatformClient.Json

variable {text more bytes others : Bytes} {c : Char}

/-- A text stands for these bytes in a string, whatever follows it there. Such texts can be
put in a row, and the row stands for the bytes in a row. -/
def Spells (text bytes : Bytes) : Prop :=
  ∀ rest, stringBytes (text ++ rest) =
    (stringBytes rest).map fun (following, left) => (bytes ++ following, left)

theorem Spells.nil : Spells [] [] := by
  intro rest
  cases known : stringBytes rest <;> simp [Except.map, known]

theorem Spells.append (first : Spells text bytes) (second : Spells more others) :
    Spells (text ++ more) (bytes ++ others) := by
  intro rest
  rw [List.append_assoc, first, second]
  cases stringBytes rest <;> simp [Except.map]

/-- A byte stands for itself unless it is a quote, a backslash or a control. -/
theorem spells_byte {byte : UInt8} (quote : byte ≠ 0x22) (backslash : byte ≠ 0x5C)
    (large : ¬ byte < 0x20) : Spells [byte] [byte] := by
  intro rest
  rw [List.singleton_append]
  conv_lhs => unfold stringBytes
  simp [quote, backslash, large]

theorem spells_beyond (beyond : ∀ byte ∈ bytes, 0x80 ≤ byte.toNat) : Spells bytes bytes := by
  induction bytes with
  | nil => exact .nil
  | cons byte rest ih =>
    obtain ⟨large, beyond⟩ := List.forall_mem_cons.mp beyond
    have other : ∀ mark : UInt8, mark.toNat < 0x80 → byte ≠ mark := by
      rintro mark small rfl
      omega
    refine Spells.append (spells_byte (other _ (by decide)) (other _ (by decide)) ?_) (ih beyond)
    rw [UInt8.lt_iff_toNat_lt]
    exact Nat.not_lt_of_le (Nat.le_trans (by decide) large)

theorem spells_short {letter byte : UInt8} (known : shortEscape letter = some byte) :
    Spells [0x5C, letter] [byte] := by
  have other : letter ≠ 0x75 := by
    rintro rfl
    cases known
  intro rest
  rw [List.cons_append, List.singleton_append]
  conv_lhs => unfold stringBytes
  simp [known, other]

theorem spells_quad {a b c d : UInt8} {unit : Nat} (known : hexQuad a b c d = some unit)
    (small : unit < 0xD800) : Spells [0x5C, 0x75, a, b, c, d] (encodeUnit unit) := by
  have leading : isLeading unit = false := by
    simp only [isLeading, Bool.and_eq_false_iff, decide_eq_false_iff_not]
    omega
  have trailing : isTrailing unit = false := by
    simp only [isTrailing, Bool.and_eq_false_iff, decide_eq_false_iff_not]
    omega
  intro rest
  simp only [List.cons_append, List.nil_append]
  conv_lhs => unfold stringBytes
  simp [known, leading, trailing]

/-- A character beyond the controls that is no quote and no backslash stands for itself. -/
theorem spells_plain (quote : c ≠ '"') (backslash : c ≠ '\\') (large : 0x20 ≤ c.toNat) :
    Spells (String.utf8EncodeChar c) (String.utf8EncodeChar c) := by
  rcases Url.Percent.utf8EncodeChar_cases c with ⟨ascii, encoded⟩ | ⟨-, byte, rest, encoded, beyond⟩
  · have small : c.toNat < UInt8.size := Nat.lt_trans ascii (by decide)
    have same : (UInt8.ofNat c.toNat).toNat = c.toNat := UInt8.toNat_ofNat_of_lt' small
    have other : ∀ mark : Char, mark.toNat < UInt8.size → c ≠ mark →
        UInt8.ofNat c.toNat ≠ UInt8.ofNat mark.toNat := by
      intro mark within apart equal
      refine apart (Char.toNat_inj.mp ?_)
      rw [← same, equal, UInt8.toNat_ofNat_of_lt' within]
    rw [encoded]
    refine spells_byte (other '"' (by decide) quote) (other '\\' (by decide) backslash) ?_
    rw [UInt8.lt_iff_toNat_lt, same]
    exact Nat.not_lt_of_le large
  · rw [encoded]
    exact spells_beyond beyond

theorem spells_printedChar (c : Char) :
    Spells (Text.encodeChars (printedChar c)) (String.utf8EncodeChar c) := by
  have named : ∀ {n : Nat}, c.toNat = n → c = Char.ofNat n := by
    rintro _ rfl
    exact (Char.ofNat_toNat c).symm
  unfold printedChar
  split_ifs with quote backslash backspace feed line carriage tab control
  · subst quote
    exact spells_short rfl
  · subst backslash
    exact spells_short rfl
  · rw [named backspace]
    exact spells_short rfl
  · rw [named feed]
    exact spells_short rfl
  · subst line
    exact spells_short rfl
  · subst carriage
    exact spells_short rfl
  · subst tab
    exact spells_short rfl
  · let digit (n : Nat) : UInt8 := UInt8.ofNat (Nat.digitChar n).toNat
    have digits : ∀ n < 0x20, Text.encodeChars
          ['\\', 'u', '0', '0', Nat.digitChar (n / 16), Nat.digitChar (n % 16)] =
        [0x5C, 0x75, 0x30, 0x30, digit (n / 16), digit (n % 16)] ∧
      hexQuad 0x30 0x30 (digit (n / 16)) (digit (n % 16)) = some n := by decide +kernel
    obtain ⟨written, known⟩ := digits c.toNat control
    have unit : encodeUnit c.toNat = String.utf8EncodeChar c := by
      rw [encodeUnit, Char.ofNat_toNat]
    rw [written, ← unit]
    exact spells_quad known (Nat.lt_trans control (by decide))
  · rw [Text.encodeChars, List.flatMap_singleton]
    exact spells_plain quote backslash (Nat.le_of_not_lt control)

/-- What is written between the quotes of a string stands for its text. By induction over
the characters, each of which is an escape or stands for itself. -/
theorem spells_printed (cs : List Char) :
    Spells (Text.encodeChars (cs.flatMap printedChar)) (Text.encodeChars cs) := by
  induction cs with
  | nil => exact .nil
  | cons c rest ih =>
    rw [List.flatMap_cons, Text.encodeChars_append, Text.encodeChars_cons]
    exact (spells_printedChar c).append ih

/-- A string is read as it was written, up to its closing quote. What is written in front of
it holds no quote that is not escaped. -/
theorem stringBody_printed (text : String) (rest : Bytes) :
    stringBody (Text.encodeChars (text.toList.flatMap printedChar) ++ 0x22 :: rest) =
      .ok (text, rest) := by
  have closed : stringBytes (0x22 :: rest) = .ok ([], rest) := by
    unfold stringBytes
    rfl
  have whole := spells_printed text.toList (0x22 :: rest)
  rw [closed] at whole
  have decoded : Text.decode? (Text.encodeChars text.toList) = some text :=
    Text.decode?_encode text
  unfold stringBody
  rw [whole]
  simp [Except.map, bind, Except.bind, decoded]

end PlatformClient.Json
