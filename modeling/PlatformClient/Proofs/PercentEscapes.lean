import Mathlib.Data.List.Basic
import PlatformClient.Url.Reader

namespace PlatformClient.Url.Percent

section Encoding

variable {set : EscapeSet} {cs : List Char}

/-- Nothing in a text is left to be escaped. Such a text is in ASCII, since all else is
always escaped. -/
def Escaped (set : EscapeSet) (cs : List Char) : Prop := ∀ c ∈ cs, set c = false ∧ c.toNat < 0x80

/-- Escapes are not escaped again. All sets of escapes leave the percent sign and the digits
alone, and that is what makes escaping end after one time. -/
structure Spares (set : EscapeSet) : Prop where
  percent : set '%' = false
  digit : ∀ n < 16, set (hexDigit n) = false

theorem spares_fragmentSet : Spares fragmentSet := ⟨rfl, by decide⟩

theorem spares_specialQuerySet : Spares specialQuerySet := ⟨rfl, by decide⟩

theorem spares_pathSet : Spares pathSet := ⟨rfl, by decide⟩

theorem spares_userInfoSet : Spares userInfoSet := ⟨rfl, by decide⟩

theorem hexDigit_ascii : ∀ n < 16, (hexDigit n).toNat < 0x80 := by decide

/-- What holds of escapes and of the characters that are left as they are holds of the escaped
text. -/
theorem forall_mem_encode {p : Char → Prop} (percent : p '%') (digit : ∀ n < 16, p (hexDigit n))
    (each : ∀ c ∈ cs, set c = false → c.toNat < 0x80 → p c) : ∀ c ∈ encode set cs, p c := by
  intro d inside
  obtain ⟨c, found, inside⟩ := List.mem_flatMap.mp inside
  unfold encodeChar at inside
  split_ifs at inside with escaped
  · obtain ⟨byte, -, inside⟩ := List.mem_flatMap.mp inside
    have small := byte.toNat_lt
    simp only [escapeByte, List.mem_cons, List.not_mem_nil, or_false] at inside
    rcases inside with rfl | rfl | rfl
    · exact percent
    · exact digit _ (by omega)
    · exact digit _ (by omega)
  · obtain ⟨outside, ascii⟩ := not_or.mp escaped
    rw [List.mem_singleton.mp inside]
    exact each c found (eq_false_of_ne_true outside) (Nat.lt_of_not_le ascii)

theorem escaped_encode (spares : Spares set) (cs : List Char) : Escaped set (encode set cs) :=
  forall_mem_encode ⟨spares.percent, by decide⟩
    (fun n small => ⟨spares.digit n small, hexDigit_ascii n small⟩)
    (fun _ _ outside ascii => ⟨outside, ascii⟩)

theorem encode_eq_self (escaped : Escaped set cs) : encode set cs = cs := by
  induction cs with
  | nil => rfl
  | cons c rest ih =>
    obtain ⟨⟨outside, ascii⟩, escaped⟩ := List.forall_mem_cons.mp escaped
    have plain : encodeChar set c = [c] := by
      rw [encodeChar, if_neg]
      rintro (inside | beyond)
      · exact absurd inside (ne_true_of_eq_false outside)
      · omega
    rw [encode, List.flatMap_cons, plain, ← encode, ih escaped, List.singleton_append]

/-- A character of ASCII is one byte, and any other has only bytes beyond ASCII. -/
theorem utf8EncodeChar_cases (c : Char) :
    (c.toNat < 0x80 ∧ String.utf8EncodeChar c = [UInt8.ofNat c.toNat]) ∨
      0x80 ≤ c.toNat ∧ ∃ byte rest, String.utf8EncodeChar c = byte :: rest ∧
        ∀ other ∈ byte :: rest, 0x80 ≤ other.toNat := by
  rw [String.utf8EncodeChar.eq_1, ← Char.toNat]
  have beyond : ∀ n, 0x80 ≤ n → n < 0x100 → 0x80 ≤ (UInt8.ofNat n).toNat := by
    intro n lower upper
    rw [UInt8.toNat_ofNat_of_lt' (by simpa using upper)]
    exact lower
  split_ifs with one two three
  · exact Or.inl ⟨by omega, rfl⟩
  all_goals
    refine Or.inr ⟨by omega, _, _, rfl, fun other inside => ?_⟩
    simp only [List.mem_cons, List.not_mem_nil, or_false] at inside
  · rcases inside with rfl | rfl <;> exact beyond _ (by omega) (by omega)
  · rcases inside with rfl | rfl | rfl <;> exact beyond _ (by omega) (by omega)
  · rcases inside with rfl | rfl | rfl | rfl <;> exact beyond _ (by omega) (by omega)

/-- A character is left as it is, or becomes escapes, of which the first stands for the
character itself or for a byte beyond ASCII. So an escape never stands for a character that
could have been left as it is. -/
theorem encodeChar_cases (set : EscapeSet) (c : Char) :
    encodeChar set c = [c] ∨ ∃ byte rest, encodeChar set c = escapeByte byte ++ rest ∧
      (set c = true ∧ byte.toNat = c.toNat ∨ 0x80 ≤ byte.toNat) := by
  unfold encodeChar
  split_ifs with escaped
  · refine Or.inr ?_
    rcases utf8EncodeChar_cases c with ⟨ascii, encoded⟩ | ⟨-, byte, rest, encoded, beyond⟩
    · have inside := escaped.resolve_right (by omega)
      refine ⟨UInt8.ofNat c.toNat, [], by rw [encoded]; rfl, Or.inl ⟨inside, ?_⟩⟩
      exact UInt8.toNat_ofNat_of_lt' (Nat.lt_trans ascii (by decide))
    · exact ⟨byte, rest.flatMap escapeByte, by rw [encoded, List.flatMap_cons],
        Or.inr (beyond byte List.mem_cons_self)⟩
  · exact Or.inl rfl

theorem encode_eq_nil_iff : encode set cs = [] ↔ cs = [] := by
  cases cs with
  | nil => exact iff_of_true rfl rfl
  | cons c rest =>
    refine iff_of_false (fun none => ?_) (List.cons_ne_nil _ _)
    obtain ⟨none, -⟩ := List.append_eq_nil_iff.mp none
    rcases encodeChar_cases set c with plain | ⟨byte, others, escaped, -⟩
    · cases plain.symm.trans none
    · cases escaped.symm.trans none

/-- What is no percent sign in front of an escaped text has been there before. -/
theorem encode_eq_cons {d : Char} {out : List Char} (other : d ≠ '%')
    (encoded : encode set cs = d :: out) : ∃ rest, cs = d :: rest ∧ out = encode set rest := by
  cases cs with
  | nil => cases encoded
  | cons c rest =>
    rw [encode, List.flatMap_cons, ← encode] at encoded
    rcases encodeChar_cases set c with plain | ⟨byte, others, escaped, -⟩
    · rw [plain, List.singleton_append] at encoded
      obtain ⟨rfl, rfl⟩ := List.cons.inj encoded
      exact ⟨rest, rfl, rfl⟩
    · rw [escaped] at encoded
      exact absurd (List.cons.inj encoded).1.symm other

/-- A percent sign in front of an escaped text has been there before, or begins an escape.
In the second case its byte is none that a dot or a digit has. -/
theorem encode_eq_percent {out : List Char} (encoded : encode set cs = '%' :: out) :
    (∃ rest, cs = '%' :: rest ∧ out = encode set rest) ∨
      ∃ byte rest, out = hexDigit (byte / 16) :: hexDigit (byte % 16) :: rest ∧ byte < 0x100 ∧
        ((∃ c, set c = true ∧ byte = c.toNat) ∨ 0x80 ≤ byte) := by
  cases cs with
  | nil => cases encoded
  | cons c rest =>
    rw [encode, List.flatMap_cons, ← encode] at encoded
    rcases encodeChar_cases set c with plain | ⟨byte, others, escaped, origin⟩
    · rw [plain, List.singleton_append] at encoded
      obtain ⟨rfl, rfl⟩ := List.cons.inj encoded
      exact Or.inl ⟨rest, rfl, rfl⟩
    · rw [escaped, escapeByte] at encoded
      refine Or.inr ⟨byte.toNat, _, (List.cons.inj encoded).2.symm, byte.toNat_lt, ?_⟩
      exact origin.imp_left fun inside => ⟨c, inside⟩

end Encoding

section Decoding

/-- A text without percent signs is left as it is. -/
theorem decode_eq_self {bytes : Bytes} (absent : 0x25 ∉ bytes) : decode bytes = bytes := by
  induction bytes with
  | nil => rfl
  | cons byte rest ih =>
    obtain ⟨other, absent⟩ := List.ne_and_not_mem_of_not_mem_cons absent
    rw [decode, ih absent]
    rintro high low rest rfl
    exact absurd rfl other

theorem percent_not_mem_encodeChars {cs : List Char} (ascii : ∀ c ∈ cs, c.toNat < 0x80)
    (absent : '%' ∉ cs) : 0x25 ∉ Text.encodeChars cs := by
  intro inside
  obtain ⟨c, found, inside⟩ := List.mem_flatMap.mp inside
  have plain : String.utf8EncodeChar c = [UInt8.ofNat c.toNat] := by
    rcases utf8EncodeChar_cases c with ⟨-, encoded⟩ | ⟨beyond, -⟩
    · exact encoded
    · exact absurd (ascii c found) (Nat.not_lt_of_le beyond)
  rw [plain, List.mem_singleton] at inside
  have same : c.toNat = '%'.toNat := by
    have small : c.toNat < UInt8.size := Nat.lt_trans (ascii c found) (by decide)
    rw [← UInt8.toNat_ofNat_of_lt' small, ← inside]
    rfl
  exact absent (Char.toNat_inj.mp same ▸ found)

end Decoding

end PlatformClient.Url.Percent
