import Mathlib.Data.List.Forall2
import PlatformClient.Shell.Quote

namespace PlatformClient.Shell

/-- The characters that part words. -/
def isBlank (c : Char) : Bool := c == ' ' || c == '\t'

/-- The characters that a shell may take for more than themselves where they
are not quoted: blanks and line ends, quotes and escapes, operators,
expansions, patterns, comments and assignments. -/
def isActive (c : Char) : Bool :=
  isBlank c || c.toNat == 0x60 ||
    ['\n', '\'', '"', '\\', '|', '&', ';', '<', '>', '(', ')', '$', '*', '?', '[', ']', '#', '~',
      '=', '%', '!', '^', '\x7b', '\x7d'].contains c

/-- Where a shell stands in a line: in the open, inside single quotes, or
behind a backslash. A word under way comes with what has been taken of it. -/
inductive Place where
  | plain (word : Option (List Char))
  | quoted (taken : List Char)
  | escaped (word : Option (List Char))

namespace Place

/-- Takes one character into the word under way. -/
def take (word : Option (List Char)) (c : Char) : Place := .plain (some (word.getD [] ++ [c]))

/-- The word that a character completes, and where the shell stands behind it. Single quotes
take everything up to the next one as it stands, and a backslash takes the next character,
or continues the line. There is no answer where a character is left to the shell to
interpret, so that a line with an answer holds nothing of that kind. -/
def step : Place → Char → Option (Option (List Char) × Place)
  | .quoted taken, c =>
    some (none, if c = '\'' then .plain (some taken) else .quoted (taken ++ [c]))
  | .escaped word, c => some (none, if c = '\n' then .plain word else take word c)
  | .plain word, c =>
    if c = '\\' then some (none, .escaped word)
    else if c = '\'' then some (none, .quoted (word.getD []))
    else if isBlank c then some (word, .plain none)
    else if isActive c then none
    else some (none, take word c)

/-- The words of the rest of a line, where all quotes are closed in it. -/
def words : Place → List Char → Option (List (List Char))
  | .plain word, [] => some word.toList
  | _, [] => none
  | place, c :: rest => do
    let (word, next) ← place.step c
    return word.toList ++ (← next.words rest)

end Place

/-- The words into which a shell parts a line. -/
def words? (line : List Char) : Option (List (List Char)) := (Place.plain none).words line

namespace Place

theorem words_cons {place next : Place} {c : Char} {word : Option (List Char)}
    (taken : place.step c = some (word, next)) (rest : List Char) :
    place.words (c :: rest) = (next.words rest).map (word.toList ++ ·) := by
  cases known : next.words rest <;> simp [words, taken, known]

theorem words_cons_silent {place next : Place} {c : Char} (taken : place.step c = some (none, next))
    (rest : List Char) : place.words (c :: rest) = next.words rest := by
  rw [words_cons taken]
  exact Option.map_id'

theorem step_inactive {c : Char} (inactive : isActive c = false) (word : Option (List Char)) :
    (plain word).step c = some (none, take word c) := by
  have other : ∀ mark, isActive mark = true → c ≠ mark := by
    rintro _ active rfl
    rw [inactive] at active
    cases active
  have blank : isBlank c = false := by
    simp only [isActive, Bool.or_eq_false_iff] at inactive
    exact inactive.1.1
  simp [step, other '\\' (by decide), other '\'' (by decide), blank, inactive]

theorem words_inactive {cs : List Char} (inactive : ∀ c ∈ cs, isActive c = false)
    (taken rest : List Char) :
    (plain (some taken)).words (cs ++ rest) = (plain (some (taken ++ cs))).words rest := by
  induction cs generalizing taken with
  | nil => rw [List.append_nil, List.nil_append]
  | cons c cs ih =>
    obtain ⟨first, inactive⟩ := List.forall_mem_cons.mp inactive
    rw [List.cons_append, words_cons_silent (step_inactive first _), take, ih inactive,
      Option.getD_some, List.append_assoc, List.singleton_append]

/-- Inside quotes a written character is taken as it was. -/
theorem words_quotedChar (c : Char) (taken rest : List Char) :
    (quoted taken).words (quotedChar c ++ rest) = (quoted (taken ++ [c])).words rest := by
  by_cases quote : c = '\''
  · have closed : (quoted taken).step '\'' = some (none, plain (some taken)) := rfl
    have escape : (plain (some taken)).step '\\' = some (none, escaped (some taken)) := rfl
    have kept :
        (escaped (some taken)).step '\'' = some (none, plain (some (taken ++ ['\'']))) := rfl
    have opened : (plain (some (taken ++ ['\'']))).step '\'' =
        some (none, quoted (taken ++ ['\''])) := rfl
    rw [quote, quotedChar, if_pos rfl]
    exact (words_cons_silent closed _).trans <| (words_cons_silent escape _).trans <|
      (words_cons_silent kept _).trans (words_cons_silent opened rest)
  · have step : (quoted taken).step c = some (none, quoted (taken ++ [c])) := by
      rw [Place.step, if_neg quote]
    rw [quotedChar, if_neg quote, List.singleton_append, words_cons_silent step]

theorem words_quotedChars (cs taken rest : List Char) :
    (quoted taken).words (cs.flatMap quotedChar ++ rest) = (quoted (taken ++ cs)).words rest := by
  induction cs generalizing taken with
  | nil => rw [List.append_nil, List.flatMap_nil, List.nil_append]
  | cons c cs ih =>
    rw [List.flatMap_cons, List.append_assoc, words_quotedChar, ih, List.append_assoc,
      List.singleton_append]

end Place

/-- Whatever follows it, a text between blanks is taken as one word. So texts can be put in
a row without looking at their neighbours. -/
def Denotes (text word : List Char) : Prop :=
  ∀ rest, (Place.plain none).words (text ++ rest) = (Place.plain (some word)).words rest

theorem denotes_inactive {word : List Char} (nonempty : word ≠ [])
    (inactive : word.all (!isActive ·) = true) : Denotes word word := by
  intro rest
  simp only [List.all_eq_true, Bool.not_eq_true'] at inactive
  cases word with
  | nil => exact absurd rfl nonempty
  | cons c cs =>
    obtain ⟨first, inactive⟩ := List.forall_mem_cons.mp inactive
    rw [List.cons_append, Place.words_cons_silent (Place.step_inactive first _)]
    exact Place.words_inactive inactive [c] rest

/-- Whatever a text holds, a shell takes it from its quotes as it was. A quote in it is
written outside of the quotes, and the word goes on behind it. -/
theorem denotes_quote (cs : List Char) : Denotes (quote cs) cs := by
  intro rest
  have opened : (Place.plain none).step '\'' = some (none, .quoted []) := rfl
  have closed : (Place.quoted cs).step '\'' = some (none, .plain (some cs)) := rfl
  calc (Place.plain none).words (quote cs ++ rest)
      = (Place.plain none).words ('\'' :: (cs.flatMap quotedChar ++ '\'' :: rest)) := by
        simp [quote]
    _ = (Place.quoted cs).words ('\'' :: rest) := by
        rw [Place.words_cons_silent opened, Place.words_quotedChars, List.nil_append]
    _ = (Place.plain (some cs)).words rest := Place.words_cons_silent closed rest

/-- A line of texts with blanks between them is parted into their words. By induction over
the texts, each of which ends at the blank behind it. -/
theorem words?_intercalate {texts words : List (List Char)}
    (denote : List.Forall₂ Denotes texts words) :
    words? (List.intercalate [' '] texts) = some words := by
  induction denote with
  | nil => rfl
  | @cons text word texts words first others ih =>
    cases others with
    | nil =>
      rw [List.intercalate_singleton, words?, ← List.append_nil text, first]
      rfl
    | @cons next _ texts _ second others =>
      have blank : (Place.plain (some word)).step ' ' = some (some word, .plain none) := rfl
      rw [words?] at ih
      rw [List.intercalate_cons_cons, words?, List.append_assoc, first, List.singleton_append,
        Place.words_cons blank, ih]
      rfl

example : words? "a 'b c' 'it'\\''s'".toList = some ["a".toList, "b c".toList, "it's".toList] := by
  decide

end PlatformClient.Shell
