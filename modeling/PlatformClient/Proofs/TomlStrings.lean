import Mathlib.Data.List.Basic
import PlatformClient.Toml.Printer
import PlatformClient.Toml.Reader

namespace PlatformClient.Toml

/-- What stands for a character behind a backslash, whatever follows it. The reader looks
ahead in three ways, and each of them has to take the code for this one character. -/
structure Escapes (code : List Char) (c : Char) : Prop where
  read : ∀ rest, escape (code ++ rest) = some (c, rest)
  length : ∀ rest, escapeLength (code ++ rest) = code.length
  stays : ∀ rest, endsLine (code ++ rest) = false

theorem escapes_short {letter c : Char}
    (known : (letter, c) ∈ [('b', Char.ofNat 8), ('t', '\t'), ('n', '\n'), ('f', Char.ofNat 12),
      ('r', '\r'), ('"', '"'), ('\\', '\\')]) : Escapes [letter] c := by
  simp only [List.mem_cons, List.not_mem_nil, or_false, Prod.mk.injEq] at known
  rcases known with ⟨rfl, rfl⟩ | ⟨rfl, rfl⟩ | ⟨rfl, rfl⟩ | ⟨rfl, rfl⟩ | ⟨rfl, rfl⟩ | ⟨rfl, rfl⟩ |
    ⟨rfl, rfl⟩ <;> exact ⟨fun _ => rfl, fun _ => rfl, fun _ => rfl⟩

theorem escapes_quote : Escapes ['"'] '"' := escapes_short (by simp)

theorem escapes_line : Escapes ['n'] '\n' := escapes_short (by simp)

/-- The four digits of a control stand for it. -/
theorem scalar?_hexDigits {c : Char} (control : isControl c = true) :
    scalar? [hexDigit (c.toNat / 4096), hexDigit (c.toNat / 256 % 16), hexDigit (c.toNat / 16 % 16),
      hexDigit (c.toNat % 16)] = some c := by
  have digits : ∀ n < 128, isControl (Char.ofNat n) = true →
      scalar? [hexDigit (n / 4096), hexDigit (n / 256 % 16), hexDigit (n / 16 % 16),
        hexDigit (n % 16)] = some (Char.ofNat n) := by
    decide +kernel
  have small : c.toNat < 128 := by
    simp only [isControl, Bool.or_eq_true, Bool.and_eq_true, decide_eq_true_eq,
      beq_iff_eq] at control
    omega
  have same : Char.ofNat c.toNat = c := Char.ofNat_toNat c
  have read := digits c.toNat small (by rw [same]; exact control)
  rwa [same] at read

theorem escapes_numeric {c : Char} (control : isControl c = true) :
    Escapes ((numericEscape c).drop 1) c := by
  refine ⟨fun rest => ?_, fun rest => rfl, fun rest => rfl⟩
  change (scalar? _).map _ = _
  rw [scalar?_hexDigits control]
  rfl

/-- What is written for a character that needs an escape is one. -/
theorem escapes_of_escape? {c : Char} {text : List Char} (known : escape? c = some text) :
    ∃ code, text = '\\' :: code ∧ Escapes code c := by
  have named : ∀ n, c.toNat = n → c = Char.ofNat n := by
    rintro n rfl
    exact (Char.ofNat_toNat c).symm
  unfold escape? at known
  split_ifs at known with back tab feed carriage slash control
  · cases known
    rw [named _ back]
    exact ⟨['b'], rfl, escapes_short (by simp)⟩
  · cases known
    subst tab
    exact ⟨['t'], rfl, escapes_short (by simp)⟩
  · cases known
    rw [named _ feed]
    exact ⟨['f'], rfl, escapes_short (by simp)⟩
  · cases known
    subst carriage
    exact ⟨['r'], rfl, escapes_short (by simp)⟩
  · cases known
    subst slash
    exact ⟨['\\'], rfl, escapes_short (by simp)⟩
  · cases known
    exact ⟨_, rfl, escapes_numeric control.2⟩

theorem isPlainChar_of_control {c : Char} (clear : isControl c = false) (line : c ≠ '\n') :
    isPlainChar c = true := by
  by_cases tab : c = '\t'
  · subst tab
    rfl
  · simp only [isControl, isPlainChar, Bool.or_eq_false_iff, Bool.and_eq_false_iff,
      decide_eq_false_iff_not, Bool.or_eq_true, Bool.and_eq_true, decide_eq_true_eq, bne_iff_ne,
      beq_eq_false_iff_ne, ne_eq, beq_iff_eq] at clear ⊢
    simp only [tab, line, false_or, or_false, bne_eq_false_iff_eq] at clear ⊢
    omega

/-- What is written as it is can be read as it is. -/
theorem plain_of_escape? {c : Char} (none : escape? c = none) :
    c ≠ '\\' ∧ c ≠ '\r' ∧ (c ≠ '\n' → isPlainChar c = true) := by
  unfold escape? at none
  split_ifs at none with back tab feed carriage slash control
  refine ⟨slash, carriage, fun line => ?_⟩
  have clear : isControl c = false := by simpa [line] using control
  exact isPlainChar_of_control clear line

/-- Puts a character in front of what a reader takes. -/
def before (c : Char) (taken : Option (List Char × List Char)) : Option (List Char × List Char) :=
  taken.map fun (more, rest) => (c :: more, rest)

section Basic

theorem basicString_skip (code rest : List Char) :
    basicString code.length (code ++ rest) = basicString 0 rest := by
  induction code with
  | nil => rfl
  | cons c code ih => exact ih

theorem basicString_escape {code : List Char} {c : Char} (escapes : Escapes code c)
    (rest : List Char) :
    basicString 0 ('\\' :: (code ++ rest)) = before c (basicString 0 rest) := by
  rw [basicString]
  simp only [escapes.read, escapes.length, basicString_skip]
  cases basicString 0 rest <;> rfl

theorem basicString_plain {c : Char} (quote : c ≠ '"') (slash : c ≠ '\\')
    (plain : isPlainChar c = true) (rest : List Char) :
    basicString 0 (c :: rest) = before c (basicString 0 rest) := by
  rw [basicString, if_neg quote, if_neg slash, if_pos plain]
  cases basicString 0 rest <;> rfl

/-- Every character of a string on one line is escaped or plain, and a quote is always
escaped, so that the first bare quote is the end. -/
theorem basicString_escaped (run : Nat) (cs rest : List Char) :
    basicString 0 (escaped 0 false run cs ++ '"' :: rest) = some (cs, rest) := by
  induction cs generalizing run with
  | nil => rfl
  | cons c cs ih =>
    have later : before c (basicString 0 (escaped 0 false 0 cs ++ '"' :: rest)) =
        some (c :: cs, rest) := by
      rw [ih]
      rfl
    rw [escaped]
    by_cases quote : c = '"'
    · subst quote
      rw [if_pos rfl, if_neg (Nat.not_lt_zero _)]
      exact (basicString_escape escapes_quote _).trans later
    rw [if_neg quote]
    by_cases line : c = '\n'
    · subst line
      rw [if_pos ⟨rfl, rfl⟩]
      exact (basicString_escape escapes_line _).trans later
    rw [if_neg fun both => line both.1]
    cases known : escape? c with
    | some text =>
      obtain ⟨code, rfl, escapes⟩ := escapes_of_escape? known
      simp only [List.cons_append, List.append_assoc]
      exact (basicString_escape escapes _).trans later
    | none =>
      obtain ⟨slash, -, plain⟩ := plain_of_escape? known
      exact (basicString_plain quote slash (plain line) _).trans later

end Basic

theorem literalString_plain {cs : List Char} (plain : ∀ c ∈ cs, c ≠ '\'' ∧ isPlainChar c = true)
    (rest : List Char) : literalString (cs ++ '\'' :: rest) = some (cs, rest) := by
  induction cs with
  | nil => rfl
  | cons c cs ih =>
    obtain ⟨first, plain⟩ := List.forall_mem_cons.mp plain
    rw [List.cons_append, literalString, if_neg first.1, if_pos first.2, ih plain]
    rfl

/-- Something is written for each character: an escape, or the character
itself. A quote is escaped where no more of them may stand in a row. -/
theorem escaped_head (quotes : Nat) (lines : Bool) (run : Nat) (c : Char) (cs : List Char) :
    (∃ more, escaped quotes lines run (c :: cs) = '\\' :: more) ∨
      (∃ more, escaped quotes lines run (c :: cs) = c :: more) ∧
        (c = '"' → run < quotes) ∧ c ≠ '\r' := by
  rw [escaped]
  by_cases quote : c = '"'
  · subst quote
    by_cases full : run < quotes
    · rw [if_pos rfl, if_pos full]
      exact Or.inr ⟨⟨_, rfl⟩, fun _ => full, by decide⟩
    · rw [if_pos rfl, if_neg full]
      exact Or.inl ⟨_, rfl⟩
  rw [if_neg quote]
  by_cases line : c = '\n' ∧ lines = false
  · rw [if_pos line]
    exact Or.inl ⟨_, rfl⟩
  rw [if_neg line]
  cases known : escape? c with
  | some text =>
    obtain ⟨code, rfl, -⟩ := escapes_of_escape? known
    exact Or.inl ⟨_, rfl⟩
  | none =>
    obtain ⟨-, carriage, -⟩ := plain_of_escape? known
    exact Or.inr ⟨⟨_, rfl⟩, fun same => absurd same quote, carriage⟩

/-- Behind the most quotes that may stand in a row, there is no further one. -/
theorem escaped_head_ne_quote {quotes run : Nat} {c : Char} (other : c ≠ '"' ∨ quotes ≤ run)
    (lines : Bool) (cs rest : List Char) :
    ∀ more, escaped quotes lines run (c :: cs) ++ rest ≠ '"' :: more := by
  intro more same
  rcases escaped_head quotes lines run c cs with ⟨text, written⟩ | ⟨⟨text, written⟩, few, -⟩ <;>
    rw [written, List.cons_append, List.cons.injEq] at same
  · exact absurd same.1 (by decide)
  · rcases other with other | full
    · exact other same.1
    · exact absurd (few same.1) (Nat.not_lt.mpr full)

section Triple

/-- The end of a string in triple quotes, and the end of its line. -/
def closing (quote : Char) (rest : List Char) : List Char := quote :: quote :: quote :: '\n' :: rest

theorem tripleBasic_skip (code rest : List Char) :
    tripleBasic code.length false (code ++ rest) = tripleBasic 0 false rest := by
  induction code with
  | nil => rfl
  | cons c code ih => exact ih

theorem tripleBasic_escape {code : List Char} {c : Char} (escapes : Escapes code c)
    (rest : List Char) :
    tripleBasic 0 false ('\\' :: (code ++ rest)) = before c (tripleBasic 0 false rest) := by
  rw [tripleBasic.eq_def]
  simp only [Bool.false_eq_true, false_and, if_false, Char.reduceEq, if_true,
    escapes.stays, escapes.read, escapes.length, Option.bind_eq_bind, Option.bind_some,
    tripleBasic_skip]
  cases tripleBasic 0 false rest <;> rfl

theorem tripleBasic_plain {c : Char} (quote : c ≠ '"') (slash : c ≠ '\\') (carriage : c ≠ '\r')
    (plain : isPlainChar c = true ∨ c = '\n') (rest : List Char) :
    tripleBasic 0 false (c :: rest) = before c (tripleBasic 0 false rest) := by
  rw [tripleBasic.eq_def]
  simp only [Bool.false_eq_true, false_and, if_false, if_neg carriage, if_neg quote, if_neg slash,
    if_pos plain]
  cases tripleBasic 0 false rest <;> rfl

/-- A quote that is not followed by two more is a part of the string. -/
theorem tripleBasic_quote {rest : List Char} (part : ∀ more, rest ≠ '"' :: '"' :: more) :
    tripleBasic 0 false ('"' :: rest) = before '"' (tripleBasic 0 false rest) := by
  rw [tripleBasic.eq_def]
  -- the pattern of three quotes is excluded by the hypothesis
  simp only [Bool.false_eq_true, false_and, if_false, Char.reduceEq, if_true]
  cases tripleBasic 0 false rest <;> rfl

/-- Behind a quote that stands as it is, two more follow only at the end. -/
theorem escaped_quotes {run : Nat} {cs : List Char} (more : cs ≠ [])
    (two : run = 0 → cs ≠ ['"']) (rest : List Char) :
    ∀ later, escaped 2 true (run + 1) cs ++ rest ≠ '"' :: '"' :: later := by
  intro later same
  obtain ⟨c, cs, rfl⟩ := List.exists_cons_of_ne_nil more
  by_cases other : c ≠ '"' ∨ 2 ≤ run + 1
  · exact escaped_head_ne_quote other _ _ _ _ same
  have quote : c = '"' := by
    by_contra different
    exact other (Or.inl different)
  have first : run = 0 := by omega
  subst quote first
  obtain ⟨d, cs, rfl⟩ := List.exists_cons_of_ne_nil fun (empty : cs = []) => two rfl (by rw [empty])
  rw [escaped, if_pos rfl, if_pos (by decide)] at same
  exact escaped_head_ne_quote (Or.inr (Nat.le_refl 2)) _ _ _ _ (List.cons.inj same).2

/-- Up to two quotes at the end belong to the string. -/
theorem tripleBasic_closing (rest : List Char) :
    ∀ quotes ∈ [[], ['"'], ['"', '"']],
      tripleBasic 0 false (quotes ++ closing '"' rest) = some (quotes, '\n' :: rest) := by
  simp only [List.forall_mem_cons]
  refine ⟨?_, ?_, ?_, List.forall_mem_nil _⟩ <;> cases rest <;>
    simp [tripleBasic, closing, tripleEnd]

/-- Quotes stand as they are only where they cannot be taken for the end. The run of quotes
that was written so far is the invariant: it never reaches the three that would close the
string. -/
theorem tripleBasic_escaped {run : Nat} (small : run ≤ 2) (cs rest : List Char) :
    tripleBasic 0 false (escaped 2 true run cs ++ closing '"' rest) = some (cs, '\n' :: rest) := by
  induction cs generalizing run with
  | nil =>
    rw [escaped]
    exact tripleBasic_closing rest _ (by simp)
  | cons c cs ih =>
    have later {run : Nat} (small : run ≤ 2) :
        before c (tripleBasic 0 false (escaped 2 true run cs ++ closing '"' rest)) =
          some (c :: cs, '\n' :: rest) := by
      rw [ih small]
      rfl
    by_cases quote : c = '"'
    · subst quote
      by_cases full : run < 2
      · rw [escaped, if_pos rfl, if_pos full]
        -- The last quotes of the string stand right before the three that close it.
        by_cases last : cs = []
        · rw [last, escaped]
          exact tripleBasic_closing rest _ (by simp)
        by_cases two : run = 0 ∧ cs = ['"']
        · rw [two.1, two.2]
          exact tripleBasic_closing rest _ (by simp [escaped])
        · exact (tripleBasic_quote (escaped_quotes last (fun first same => two ⟨first, same⟩) _)).trans
            (later full)
      · rw [escaped, if_pos rfl, if_neg full]
        exact (tripleBasic_escape escapes_quote _).trans (later (Nat.zero_le 2))
    rw [escaped, if_neg quote, if_neg (by simp)]
    cases known : escape? c with
    | some text =>
      obtain ⟨code, rfl, escapes⟩ := escapes_of_escape? known
      simp only [List.cons_append, List.append_assoc]
      exact (tripleBasic_escape escapes _).trans (later (Nat.zero_le 2))
    | none =>
      obtain ⟨slash, carriage, plain⟩ := plain_of_escape? known
      refine (tripleBasic_plain quote slash carriage ?_ _).trans (later (Nat.zero_le 2))
      by_cases line : c = '\n'
      · exact Or.inr line
      · exact Or.inl (plain line)

theorem longestRun_ge (mark : Char) (run : Nat) (cs : List Char) :
    run ≤ longestRun mark run cs := by
  induction cs generalizing run with
  | nil => exact Nat.le_refl run
  | cons c cs ih =>
    rw [longestRun]
    split_ifs
    · exact Nat.le_of_succ_le (ih (run + 1))
    · exact Nat.le_max_left _ _

/-- Where no character is followed by its like, none of them is there. -/
theorem not_mem_of_longestRun {mark : Char} {run : Nat} {cs : List Char}
    (few : longestRun mark run cs = 0) : mark ∉ cs := by
  induction cs generalizing run with
  | nil => exact List.not_mem_nil
  | cons c cs ih =>
    rw [longestRun] at few
    split_ifs at few with same
    · have := longestRun_ge mark (run + 1) cs
      omega
    · have later : longestRun mark 0 cs = 0 := by omega
      exact List.not_mem_cons_of_ne_of_not_mem (Ne.symm same) (ih later)

theorem tripleLiteral_plain {c : Char} (quote : c ≠ '\'') (plain : isPlainChar c = true ∨ c = '\n')
    (rest : List Char) : tripleLiteral (c :: rest) = before c (tripleLiteral rest) := by
  have carriage : c ≠ '\r' := by
    rintro rfl
    revert plain
    decide
  rw [tripleLiteral.eq_def]
  simp only [if_neg carriage, if_neg quote, if_pos plain]
  cases tripleLiteral rest <;> rfl

/-- A quote that is not followed by two more is a part of the string. -/
theorem tripleLiteral_quote {rest : List Char} (part : ∀ more, rest ≠ '\'' :: '\'' :: more) :
    tripleLiteral ('\'' :: rest) = before '\'' (tripleLiteral rest) := by
  rw [tripleLiteral.eq_def]
  -- the pattern of three quotes is excluded by the hypothesis
  simp only [Char.reduceEq, if_false, if_true]
  cases tripleLiteral rest <;> rfl

theorem tripleLiteral_closing (rest : List Char) :
    ∀ quotes ∈ [[], ['\''], ['\'', '\'']],
      tripleLiteral (quotes ++ closing '\'' rest) = some (quotes, '\n' :: rest) := by
  simp only [List.forall_mem_cons]
  refine ⟨?_, ?_, ?_, List.forall_mem_nil _⟩ <;> cases rest <;>
    simp [tripleLiteral, closing, tripleEnd]

/-- In a string without three quotes in a row, two more quotes follow one only
at the end. -/
theorem literal_quotes {run : Nat} {cs : List Char} (few : longestRun '\'' (run + 1) cs ≤ 2)
    (more : cs ≠ []) (two : cs ≠ ['\'']) (rest : List Char) :
    ∀ later, cs ++ rest ≠ '\'' :: '\'' :: later := by
  match cs, more, two with
  | [c], _, two =>
    intro later same
    exact two (by rw [(List.cons.inj same).1])
  | c :: d :: cs, _, _ =>
    intro later same
    simp only [List.cons_append, List.cons.injEq] at same
    obtain ⟨rfl, rfl, -⟩ := same
    have := longestRun_ge '\'' (run + 1 + 1 + 1) cs
    rw [longestRun, if_pos rfl, longestRun, if_pos rfl] at few
    omega

/-- Without three quotes in a row inside, the first three that are followed by the end of
the line close the string. -/
theorem tripleLiteral_closed {run : Nat} {cs : List Char} (few : longestRun '\'' run cs ≤ 2)
    (plain : ∀ c ∈ cs, isPlainChar c = true ∨ c = '\n') (rest : List Char) :
    tripleLiteral (cs ++ closing '\'' rest) = some (cs, '\n' :: rest) := by
  induction cs generalizing run with
  | nil => exact tripleLiteral_closing rest _ (by simp)
  | cons c cs ih =>
    obtain ⟨first, plain⟩ := List.forall_mem_cons.mp plain
    have later {run : Nat} (few : longestRun '\'' run cs ≤ 2) :
        before c (tripleLiteral (cs ++ closing '\'' rest)) = some (c :: cs, '\n' :: rest) := by
      rw [ih few plain]
      rfl
    rw [longestRun] at few
    split_ifs at few with quote
    · subst quote
      by_cases last : cs = []
      · rw [last]
        exact tripleLiteral_closing rest _ (by simp)
      by_cases two : cs = ['\'']
      · rw [two]
        exact tripleLiteral_closing rest _ (by simp)
      · exact (tripleLiteral_quote (literal_quotes few last two _)).trans (later few)
    · exact (tripleLiteral_plain quote first _).trans
        (later (Nat.le_trans (Nat.le_max_right _ _) few))

end Triple

section Styles

/-- The strings that a style can write so that they are read again. Literal styles have no
escapes and fit only what needs none. -/
def Style.Fits (cs : List Char) : Style → Prop
  | .literal => ∀ c ∈ cs, c ≠ '\'' ∧ isPlainChar c = true
  | .multilineLiteral =>
    longestRun '\'' 0 cs ≤ 2 ∧ ∀ c ∈ cs, isPlainChar c = true ∨ c = '\n'
  | _ => True

theorem isControl_of_traits {cs : List Char} (clear : (Traits.of cs).control = false) :
    ∀ c ∈ cs, c ≠ '\n' → isPlainChar c = true := fun c member line =>
  isPlainChar_of_control (by simpa using List.any_eq_false.mp clear c member) line

theorem fits_literal {cs : List Char} (clear : (Traits.of cs).control = false)
    (few : (Traits.of cs).singleRun = 0) (line : (Traits.of cs).newline = false) :
    Style.literal.Fits cs := by
  intro c member
  have quote : c ≠ '\'' := by
    rintro rfl
    exact not_mem_of_longestRun few member
  have within : c ≠ '\n' := by
    rintro rfl
    simp [Traits.of, member] at line
  exact ⟨quote, isControl_of_traits clear c member within⟩

theorem Style.fits_ofString (cs : List Char) : (Style.ofString (Traits.of cs)).Fits cs := by
  unfold Style.ofString
  split_ifs with basic literal multiline triple
  · trivial
  · simp only [Bool.not_eq_true] at literal
    exact fits_literal literal.1 literal.2.1 literal.2.2
  · trivial
  · simp only [Bool.not_eq_true] at triple
    refine ⟨triple.2, fun c member => ?_⟩
    by_cases line : c = '\n'
    · exact Or.inr line
    · exact Or.inl (isControl_of_traits triple.1 c member line)
  · trivial
  · trivial

theorem Style.fits_ofKey (cs : List Char) :
    (Style.ofKey (Traits.of cs)).Fits cs ∧
      (Style.ofKey (Traits.of cs) = .basic ∨ Style.ofKey (Traits.of cs) = .literal) := by
  simp only [Style.ofKey]
  split_ifs with basic literal
  · exact ⟨trivial, Or.inl rfl⟩
  · simp only [Bool.not_eq_true, Bool.or_eq_false_iff] at literal
    exact ⟨fits_literal literal.1.1 literal.2 literal.1.2, Or.inr rfl⟩
  · exact ⟨trivial, Or.inl rfl⟩

/-- A string on one line is read again, whatever follows it. -/
theorem lineString_write {style : Style} {cs : List Char}
    (line : style = .basic ∨ style = .literal) (fits : style.Fits cs) (rest : List Char) :
    lineString (style.write cs ++ rest) = some (String.ofList cs, rest) := by
  rcases line with rfl | rfl
  · simp only [Style.write, List.cons_append, List.append_assoc, List.nil_append, lineString,
      basicString_escaped]
    rfl
  · simp only [Style.write, List.cons_append, List.append_assoc, List.nil_append, lineString,
      literalString_plain fits]
    rfl

/-- A string in single quotes begins with three quotes in a row only where the
string itself begins with one. -/
theorem anyString_line {quote : Char} (quotes : quote ∈ ['"', '\'']) {text rest : List Char}
    (head : ∀ more, text ≠ quote :: more) :
    anyString (quote :: text ++ quote :: '\n' :: rest) =
      lineString (quote :: text ++ quote :: '\n' :: rest) := by
  have single : ∀ other ∈ ['"', '\''], ∀ more,
      quote :: text ++ quote :: '\n' :: rest ≠ other :: other :: other :: more := by
    intro other _ more same
    rw [List.cons_append, List.cons.injEq] at same
    obtain ⟨rfl, same⟩ := same
    cases text with
    | nil =>
      simp only [List.nil_append, List.cons.injEq, true_and] at same
      rw [← same.1] at quotes
      simp at quotes
    | cons c text =>
      rw [List.cons_append, List.cons.injEq] at same
      exact head text (by rw [same.1])
  simp only [List.forall_mem_cons] at single
  obtain ⟨basic, literal, -⟩ := single
  unfold anyString
  split
  · exact absurd ‹_› (basic _)
  · exact absurd ‹_› (literal _)
  · rfl

/-- A line end is put in front of a string that holds one, and left out again. -/
theorem skipFirstLineEnd_first {cs text : List Char}
    (head : cs.contains '\n' = false → ∀ c more, text = c :: more → c ≠ '\n' ∧ c ≠ '\r') :
    skipFirstLineEnd ((if cs.contains '\n' then ['\n'] else []) ++ text) = text := by
  cases line : cs.contains '\n' with
  | true => rfl
  | false =>
    simp only [Bool.false_eq_true, if_false, List.nil_append]
    unfold skipFirstLineEnd
    split
    · exact absurd rfl (head line _ _ rfl).1
    · exact absurd rfl (head line _ _ rfl).2
    · rfl

/-- An escaped string begins with a line end only if it holds one, since no other character is
written as such. -/
theorem skipFirstLineEnd_escaped (cs rest : List Char) :
    skipFirstLineEnd ((if cs.contains '\n' then ['\n'] else []) ++
      (escaped 2 true 0 cs ++ closing '"' rest)) = escaped 2 true 0 cs ++ closing '"' rest := by
  refine skipFirstLineEnd_first fun line c more same => ?_
  cases cs with
  | nil =>
    rw [escaped] at same
    obtain ⟨rfl, -⟩ := List.cons.inj same
    decide
  | cons d cs =>
    rcases escaped_head 2 true 0 d cs with ⟨text, written⟩ | ⟨⟨text, written⟩, -, carriage⟩ <;>
      rw [written] at same <;> obtain ⟨rfl, -⟩ := List.cons.inj same
    · decide
    · refine ⟨?_, carriage⟩
      rintro rfl
      simp at line

/-- A string that is written as it is begins with a line end only if it holds one, too. It holds
no carriage return, which could begin one as well. -/
theorem skipFirstLineEnd_plain {cs : List Char} (carriage : '\r' ∉ cs) (rest : List Char) :
    skipFirstLineEnd ((if cs.contains '\n' then ['\n'] else []) ++
      (cs ++ closing '\'' rest)) = cs ++ closing '\'' rest := by
  refine skipFirstLineEnd_first fun line c more same => ?_
  cases cs with
  | nil =>
    obtain ⟨rfl, -⟩ := List.cons.inj same
    decide
  | cons d cs =>
    obtain ⟨rfl, -⟩ := List.cons.inj same
    refine ⟨?_, ?_⟩ <;> rintro rfl
    · simp at line
    · exact carriage List.mem_cons_self

/-- What a style writes for a string that it fits is read as that string. The reader finds
out the style by the first characters, which is where the styles have to be kept apart. -/
theorem anyString_write {style : Style} {cs : List Char} (fits : style.Fits cs)
    (rest : List Char) :
    anyString (style.write cs ++ '\n' :: rest) = some (String.ofList cs, '\n' :: rest) := by
  cases style with
  | basic =>
    rw [← lineString_write (Or.inl rfl) fits]
    simp only [Style.write, List.append_assoc, List.singleton_append]
    refine anyString_line (by simp) fun more same => ?_
    cases cs with
    | nil => simp [escaped] at same
    | cons c cs =>
      exact escaped_head_ne_quote (Or.inr (Nat.zero_le 0)) false cs [] more (by simpa using same)
  | literal =>
    rw [← lineString_write (Or.inr rfl) fits]
    simp only [Style.write, List.append_assoc, List.singleton_append]
    refine anyString_line (by simp) fun more same => ?_
    exact (fits '\'' (by simp [same])).1 rfl
  | multilineBasic =>
    have written : Style.multilineBasic.write cs ++ '\n' :: rest = '"' :: '"' :: '"' ::
        ((if cs.contains '\n' then ['\n'] else []) ++ (escaped 2 true 0 cs ++ closing '"' rest)) := by
      simp [Style.write, closing]
    rw [written, anyString, skipFirstLineEnd_escaped, tripleBasic_escaped (Nat.zero_le 2)]
    rfl
  | multilineLiteral =>
    obtain ⟨few, plain⟩ := fits
    have carriage : '\r' ∉ cs := fun inside => absurd (plain _ inside) (by decide)
    have written : Style.multilineLiteral.write cs ++ '\n' :: rest = '\'' :: '\'' :: '\'' ::
        ((if cs.contains '\n' then ['\n'] else []) ++ (cs ++ closing '\'' rest)) := by
      simp [Style.write, closing]
    rw [written, anyString, skipFirstLineEnd_plain carriage, tripleLiteral_closed few plain]
    rfl

/-- What is written for a string, up to the end of its line, is that string. The style is
chosen by what the string holds, so that it always fits. -/
theorem anyString_printString (s : String) (rest : List Char) :
    anyString (printString s ++ '\n' :: rest) = some (s, '\n' :: rest) := by
  rw [printString, anyString_write (Style.fits_ofString _), String.ofList_toList]

theorem simpleKey_bare {name rest : List Char} (letters : name ≠ [])
    (bare : ∀ c ∈ name, isBareKeyChar c = true)
    (stop : ∀ c more, rest = c :: more → isBareKeyChar c = false) :
    simpleKey (name ++ rest) = some (String.ofList name, rest) := by
  have taken : (name ++ rest).takeWhile isBareKeyChar = name := by
    rw [List.takeWhile_append_of_pos bare]
    cases rest with
    | nil => simp
    | cons c more => simp [stop c more rfl]
  have left : (name ++ rest).dropWhile isBareKeyChar = rest := by
    rw [List.dropWhile_append_of_pos bare]
    cases rest with
    | nil => rfl
    | cons c more => simp [stop c more rfl]
  obtain ⟨c, name, rfl⟩ := List.exists_cons_of_ne_nil letters
  have unquoted : ¬ (c = '"' ∨ c = '\'') := by
    have first := bare c List.mem_cons_self
    rintro (rfl | rfl) <;> revert first <;> decide
  rw [List.cons_append] at taken left ⊢
  rw [simpleKey, if_neg unquoted, taken, left]

/-- A key is read up to the first character that no bare key has. Keys that have such
characters themselves are written as strings. -/
theorem simpleKey_printKey (s : String) {rest : List Char}
    (stop : ∀ c more, rest = c :: more → isBareKeyChar c = false) :
    simpleKey (printKey s ++ rest) = some (s, rest) := by
  simp only [printKey]
  split_ifs with bare
  · rw [simpleKey_bare (by simpa using bare.1) (List.all_eq_true.mp bare.2) stop,
      String.ofList_toList]
  · obtain ⟨fits, line⟩ := Style.fits_ofKey s.toList
    have read := lineString_write line fits rest
    rw [String.ofList_toList] at read
    rw [← read]
    rcases line with style | style <;> rw [style] <;> rfl

end Styles

end PlatformClient.Toml
