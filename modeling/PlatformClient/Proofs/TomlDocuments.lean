import PlatformClient.Proofs.TomlStrings

namespace PlatformClient.Toml

section Keys

/-- A key begins with a letter of a bare key or with a quote. -/
theorem printKey_head (s : String) :
    ∃ c more, printKey s = c :: more ∧ (isBareKeyChar c = true ∨ c = '"' ∨ c = '\'') := by
  simp only [printKey]
  split_ifs with bare
  · obtain ⟨c, more, same⟩ := List.exists_cons_of_ne_nil (by simpa using bare.1 : s.toList ≠ [])
    have first := List.all_eq_true.mp bare.2 c (by rw [same]; exact List.mem_cons_self)
    exact ⟨c, more, same, Or.inl first⟩
  · rcases (Style.fits_ofKey s.toList).2 with style | style <;> rw [style]
    · exact ⟨_, _, rfl, Or.inr (Or.inl rfl)⟩
    · exact ⟨_, _, rfl, Or.inr (Or.inr rfl)⟩

/-- What begins a key stands neither for a line of another kind nor for space. -/
theorem keyHead_ne {c other : Char} (head : isBareKeyChar c = true ∨ c = '"' ∨ c = '\'')
    (marks : other ∈ [' ', '\t', '\n', '\r', '#', '[']) : c ≠ other := by
  rintro rfl
  simp only [List.mem_cons, List.not_mem_nil, or_false] at marks
  rcases marks with rfl | rfl | rfl | rfl | rfl | rfl <;> revert head <;> decide

theorem skipSpaces_head {c : Char} (head : isBareKeyChar c = true ∨ c = '"' ∨ c = '\'')
    (more : List Char) : skipSpaces (c :: more) = c :: more := by
  have space : isSpace c = false := by
    simp [isSpace, keyHead_ne head (by simp : ' ' ∈ _), keyHead_ne head (by simp : '\t' ∈ _)]
  rw [skipSpaces, List.dropWhile_cons, space]
  rfl

theorem skipSpaces_printKey (s : String) (rest : List Char) :
    skipSpaces (printKey s ++ rest) = printKey s ++ rest := by
  obtain ⟨c, more, same, head⟩ := printKey_head s
  rw [same]
  exact skipSpaces_head head _

theorem dottedKey_last {limit : Nat} (name : String) {rest : List Char}
    (stop : ∀ c more, rest = c :: more → isBareKeyChar c = false)
    (dot : ∀ more, skipSpaces rest ≠ '.' :: more) :
    dottedKey (limit + 1) (printKey name ++ rest) = some ([name], skipSpaces rest) := by
  rw [dottedKey, skipSpaces_printKey, simpleKey_printKey name stop]
  simp only [Option.bind_eq_bind, Option.bind_some]
  rfl

theorem dottedKey_dot {limit : Nat} (name : String) (rest : List Char) :
    dottedKey (limit + 1) (printKey name ++ '.' :: rest) =
      (dottedKey limit rest).map fun (more, rest) => (name :: more, rest) := by
  have stop : ∀ c more, '.' :: rest = c :: more → isBareKeyChar c = false := by
    intro c more same
    rw [← (List.cons.inj same).1]
    decide
  rw [dottedKey, skipSpaces_printKey, simpleKey_printKey name stop]
  change (do let (more, rest) ← dottedKey limit rest; return (name :: more, rest)) = _
  cases dottedKey limit rest <;> rfl

/-- The parts of a header are read between its brackets. -/
theorem dottedKey_header (limit : Nat) (path : List String) (more : path ≠ [])
    (small : path.length ≤ limit) (rest : List Char) :
    dottedKey limit (List.intercalate ['.'] (path.map printKey) ++ ']' :: rest) =
      some (path, ']' :: rest) := by
  induction path generalizing limit with
  | nil => exact absurd rfl more
  | cons first path ih =>
    obtain ⟨limit, rfl⟩ : ∃ less, limit = less + 1 :=
      Nat.exists_eq_succ_of_ne_zero (Nat.ne_of_gt (Nat.lt_of_lt_of_le (Nat.succ_pos _) small))
    cases path with
    | nil =>
      have bracket : ∀ c more, ']' :: rest = c :: more → isBareKeyChar c = false := by
        intro c more same
        rw [← (List.cons.inj same).1]
        decide
      have alone : List.intercalate ['.'] ([first].map printKey) = printKey first := by
        simp [List.intercalate]
      rw [alone]
      exact dottedKey_last first bracket nofun
    | cons second path =>
      have written :
          List.intercalate ['.'] ((first :: second :: path).map printKey) ++ ']' :: rest =
            printKey first ++
              '.' :: (List.intercalate ['.'] ((second :: path).map printKey) ++ ']' :: rest) := by
        simp [List.intercalate]
      rw [written, dottedKey_dot, ih limit (List.cons_ne_nil _ _) (Nat.le_of_succ_le_succ small)]
      rfl

theorem headerKeys_head {path : List String} (more : path ≠ []) :
    ∃ c text, List.intercalate ['.'] (path.map printKey) = c :: text ∧
      (isBareKeyChar c = true ∨ c = '"' ∨ c = '\'') := by
  obtain ⟨first, path, rfl⟩ := List.exists_cons_of_ne_nil more
  obtain ⟨c, text, same, head⟩ := printKey_head first
  cases path with
  | nil => exact ⟨c, text, by simp [List.intercalate, same], head⟩
  | cons second path =>
    exact ⟨c, text ++ '.' :: List.intercalate ['.'] ((second :: path).map printKey),
      by simp [List.intercalate, same], head⟩

/-- A plain key is read up to its equals sign. -/
theorem key_entry (name : String) (rest : List Char) :
    key (printKey name ++ ' ' :: '=' :: rest) = some ([name], '=' :: rest) := by
  have space : ∀ c more, ' ' :: '=' :: rest = c :: more → isBareKeyChar c = false := by
    intro c more same
    rw [← (List.cons.inj same).1]
    decide
  exact dottedKey_last name space nofun

end Keys

section Lines

theorem printString_head (s : String) :
    ∃ c more, printString s = c :: more ∧ (c = '"' ∨ c = '\'') := by
  rw [printString]
  cases Style.ofString (Traits.of s.toList)
  · exact ⟨_, _, rfl, Or.inl rfl⟩
  · exact ⟨_, _, rfl, Or.inr rfl⟩
  · exact ⟨_, _, rfl, Or.inl rfl⟩
  · exact ⟨_, _, rfl, Or.inr rfl⟩

theorem value_printString (depth : Nat) (s : String) (rest : List Char) :
    value depth (printString s ++ '\n' :: rest) = some (.string s, '\n' :: rest) := by
  have read := anyString_printString s rest
  obtain ⟨c, more, same, quote⟩ := printString_head s
  rw [same, List.cons_append] at read ⊢
  unfold value
  rcases quote with rfl | rfl <;> simp [read]

theorem pair_printEntry (depth : Nat) (name text : String) (rest : List Char) :
    pair (value depth) (printEntry name text ++ rest) =
      some (([name], .string text), '\n' :: rest) := by
  obtain ⟨c, more, same, quote⟩ := printString_head text
  have written : printEntry name text ++ rest =
      printKey name ++ ' ' :: '=' :: (' ' :: (printString text ++ '\n' :: rest)) := by
    simp [printEntry]
  have space : skipSpaces (' ' :: (printString text ++ '\n' :: rest)) =
      printString text ++ '\n' :: rest := by
    rw [same]
    exact skipSpaces_head (Or.inr quote) _
  rw [written, pair, key_entry]
  simp only [Option.bind_eq_bind, Option.bind_some, space, value_printString]
  rfl

/-- A line adds its string to the table of the last header. -/
theorem assignment_printEntry {document : Document} {entries : Draft.Entries} {name text : String}
    (added : Draft.change .parent (Draft.assign [] name (.string text)) document.current .header
      document.entries = some entries) (rest : List Char) :
    assignment document (printEntry name text ++ rest) =
      some ({ document with entries }, rest) := by
  rw [assignment, pair_printEntry]
  simp only [Option.bind_eq_bind, Option.bind_some, splitKey, List.getLast?_singleton,
    Option.map_some, List.dropLast_singleton, added]
  rfl

/-- The header of a table opens that table. -/
theorem header_printHeader {document : Document} {entries : Draft.Entries} {path : List String}
    {last : String} (opened : Draft.openTable path last document.entries = some entries)
    (small : path.length < depthLimit) (rest : List Char) :
    header document (printHeader (path ++ [last]) ++ rest) =
      some (⟨entries, path ++ [last]⟩, rest) := by
  have parts : path ++ [last] ≠ [] := List.append_ne_nil_of_right_ne_nil _ (List.cons_ne_nil _ _)
  have read := dottedKey_header depthLimit (path ++ [last]) parts
    (by simpa using Nat.succ_le_of_lt small) ('\n' :: rest)
  obtain ⟨c, text, same, head⟩ := headerKeys_head parts
  have single : c ≠ '[' := keyHead_ne head (by simp)
  have written : printHeader (path ++ [last]) ++ rest =
      '[' :: (List.intercalate ['.'] ((path ++ [last]).map printKey) ++ ']' :: '\n' :: rest) := by
    simp [printHeader]
  rw [written]
  rw [same, List.cons_append] at read ⊢
  unfold header
  split
  · rename_i clash
    exact absurd (List.cons.inj (List.cons.inj clash).2).1 single
  · rename_i clash
    obtain rfl := (List.cons.inj clash).2
    rw [key, read]
    simp only [Option.bind_eq_bind, Option.bind_some, splitKey, List.getLast?_append,
      List.getLast?_singleton, Option.some_or, Option.map_some, List.dropLast_concat, opened]
    rfl
  · rename_i other
    exact absurd rfl (other _)

/-- From some lines on, a document is read to its end. Any fuel above the length of the text
will do, since every line takes at least one character of it. -/
def Reads (document : Document) (cs : List Char) (final : Document) : Prop :=
  ∀ fuel, cs.length < fuel → lines fuel document cs = some final

theorem reads_nil (document : Document) : Reads document [] document := by
  intro fuel enough
  obtain ⟨fuel, rfl⟩ := Nat.exists_eq_succ_of_ne_zero (Nat.ne_of_gt enough)
  rfl

theorem reads_blank {document final : Document} {rest : List Char}
    (later : Reads document rest final) : Reads document ('\n' :: rest) final := by
  intro fuel enough
  obtain ⟨fuel, rfl⟩ := Nat.exists_eq_succ_of_ne_zero (Nat.ne_of_gt (Nat.zero_lt_of_lt enough))
  exact later fuel (Nat.lt_of_succ_lt_succ enough)

theorem reads_entry {document final : Document} {entries : Draft.Entries} {name text : String}
    {rest : List Char}
    (added : Draft.change .parent (Draft.assign [] name (.string text)) document.current .header
      document.entries = some entries)
    (later : Reads { document with entries } rest final) :
    Reads document (printEntry name text ++ rest) final := by
  intro fuel enough
  obtain ⟨fuel, rfl⟩ := Nat.exists_eq_succ_of_ne_zero (Nat.ne_of_gt (Nat.zero_lt_of_lt enough))
  have shorter : rest.length < fuel := by
    simp [printEntry] at enough
    omega
  have read := assignment_printEntry added rest
  obtain ⟨c, more, same, head⟩ := printKey_head name
  have written : ∃ line, printEntry name text ++ rest = c :: line := by
    simp [printEntry, same]
  obtain ⟨line, written⟩ := written
  rw [written] at read ⊢
  have step : lines (fuel + 1) document (c :: line) =
      (assignment document (c :: line)).bind fun found => lines fuel found.1 found.2 := by
    -- every other kind of line is told by a character that begins no key
    have clash {mark : Char} {rest : List Char} (marks : mark ∈ [' ', '\t', '\n', '\r', '#', '['])
        (same : c :: line = mark :: rest) : False :=
      keyHead_ne head marks (List.cons.inj same).1
    rw [lines, skipSpaces_head head]
    split
    · exact absurd ‹c :: line = []› (List.cons_ne_nil _ _)
    · exact absurd ‹_› (clash (by simp))
    · exact absurd ‹_› (clash (by simp))
    · exact absurd ‹_› (clash (by simp))
    · exact absurd ‹_› (clash (by simp))
    · rfl
  rw [step, read]
  exact later fuel shorter

theorem reads_header {document final : Document} {entries : Draft.Entries} {path : List String}
    {last : String} {rest : List Char}
    (opened : Draft.openTable path last document.entries = some entries)
    (small : path.length < depthLimit) (later : Reads ⟨entries, path ++ [last]⟩ rest final) :
    Reads document (printHeader (path ++ [last]) ++ rest) final := by
  intro fuel enough
  obtain ⟨fuel, rfl⟩ := Nat.exists_eq_succ_of_ne_zero (Nat.ne_of_gt (Nat.zero_lt_of_lt enough))
  have shorter : rest.length < fuel := by
    simp [printHeader] at enough
    omega
  have read := header_printHeader opened small rest
  have first : ∃ line, printHeader (path ++ [last]) ++ rest = '[' :: line := ⟨_, rfl⟩
  obtain ⟨line, first⟩ := first
  rw [first] at read ⊢
  have step : lines (fuel + 1) document ('[' :: line) =
      (header document ('[' :: line)).bind fun found => lines fuel found.1 found.2 := rfl
  rw [step, read]
  exact later fuel shorter

/-- A document that does not begin with a mark of the byte order is made of its lines. -/
theorem readChars_of_reads {cs : List Char} {final : Document} (reads : Reads ⟨[], []⟩ cs final)
    (mark : ∀ c more, cs = c :: more → c.toNat ≠ 0xFEFF) :
    readChars cs = some (Draft.finishEntries final.entries) := by
  have read := reads (cs.length + 1) (Nat.lt_succ_self _)
  cases cs with
  | nil => simp only [readChars.eq_def, read, Option.map_some]
  | cons c rest => simp only [readChars.eq_def, if_neg (mark c rest rfl), read, Option.map_some]

end Lines

section Tables

/-- A table, by what stands before it in the table around it, its name and how
it came to be. -/
structure Level where
  before : Draft.Entries
  name : String
  origin : Origin

def Level.Fresh (level : Level) : Prop := level.name ∉ level.before.map (·.1)

/-- The entries of a document around those of its last table. All that is added to a
document is added there, at the end of the innermost level. -/
def within : List Level → Draft.Entries → Draft.Entries
  | [], inner => inner
  | level :: levels, inner =>
    level.before ++ [(level.name, .table level.origin (within levels inner))]

/-- How the innermost table came to be. -/
def innermost (here : Origin) (levels : List Level) : Origin :=
  levels.foldl (fun _ level => level.origin) here

theorem within_append (levels more : List Level) (inner : Draft.Entries) :
    within (levels ++ more) inner = within levels (within more inner) := by
  induction levels with
  | nil => rfl
  | cons level levels ih => rw [List.cons_append, within, ih, within]

theorem lookup_fresh {before : Draft.Entries} {name : String} (fresh : name ∉ before.map (·.1)) :
    before.lookup name = none := by
  refine List.lookup_eq_none_iff.mpr fun entry member => ?_
  exact bne_iff_ne.mpr fun same => fresh (List.mem_map.mpr ⟨entry, member, same.symm⟩)

theorem lookup_last {before : Draft.Entries} {name : String} (fresh : name ∉ before.map (·.1))
    (draft : Draft) : (before ++ [(name, draft)]).lookup name = some draft := by
  simp [List.lookup_append, lookup_fresh fresh]

theorem put_fresh {before : Draft.Entries} {name : String} (fresh : name ∉ before.map (·.1))
    (draft : Draft) : Draft.put name draft before = before ++ [(name, draft)] := by
  induction before with
  | nil => rfl
  | cons entry before ih =>
    rw [List.map_cons, List.mem_cons, not_or] at fresh
    rw [Draft.put, if_neg (Ne.symm fresh.1), ih fresh.2]
    rfl

theorem put_last {before : Draft.Entries} {name : String} (fresh : name ∉ before.map (·.1))
    (old new : Draft) : Draft.put name new (before ++ [(name, old)]) = before ++ [(name, new)] := by
  induction before with
  | nil => exact if_pos rfl
  | cons entry before ih =>
    rw [List.map_cons, List.mem_cons, not_or] at fresh
    rw [List.cons_append, Draft.put, if_neg (Ne.symm fresh.1), ih fresh.2]
    rfl

theorem change_within {f : Origin → Draft.Entries → Option Draft.Entries} {levels : List Level}
    {here : Origin} {inner changed : Draft.Entries} (fresh : ∀ level ∈ levels, level.Fresh)
    (change : f (innermost here levels) inner = some changed) :
    Draft.change .parent f (levels.map (·.name)) here (within levels inner) =
      some (within levels changed) := by
  induction levels generalizing here with
  | nil => exact change
  | cons level levels ih =>
    obtain ⟨first, fresh⟩ := List.forall_mem_cons.mp fresh
    rw [List.map_cons, Draft.change, within, lookup_last first]
    simp only [reduceCtorEq, false_and, if_false]
    rw [ih fresh change]
    simp only [Option.bind_eq_bind, Option.bind_some]
    rw [put_last first]
    rfl

theorem assign_fresh {origin : Origin} {entries : Draft.Entries} {name : String} {value : Toml}
    (plain : origin ≠ .dotted) (fresh : name ∉ entries.map (·.1)) :
    Draft.assign [] name value origin entries = some (entries ++ [(name, .leaf value)]) := by
  rw [Draft.assign, Draft.change, if_neg (by simp [plain]), lookup_fresh fresh]
  rfl

theorem openTable_within {levels : List Level} {inner : Draft.Entries} {name : String}
    (fresh : ∀ level ∈ levels, level.Fresh) (new : name ∉ inner.map (·.1)) :
    Draft.openTable (levels.map (·.name)) name (within levels inner) =
      some (within (levels ++ [⟨inner, name, .header⟩]) []) := by
  rw [within_append]
  refine change_within fresh ?_
  rw [lookup_fresh new]
  rfl

/-- A header makes the table around its own where that is missing. -/
theorem openTable_missing {entries : Draft.Entries} {outer name : String}
    (fresh : outer ∉ entries.map (·.1)) :
    Draft.openTable [outer] name entries =
      some (within [⟨entries, outer, .parent⟩, ⟨[], name, .header⟩] []) := by
  rw [Draft.openTable, Draft.change, lookup_fresh fresh]
  exact congrArg some (put_fresh fresh _)

def leaves (lines : List (String × String)) : Draft.Entries :=
  lines.map fun (name, text) => (name, .leaf (.string text))

/-- Lines with keys of their own are read into the last table. By induction over the lines:
each one adds its entry behind those that are there, and finds no other of its name. -/
theorem reads_entries {levels : List Level} {inner : Draft.Entries} {final : Document}
    {pairs : List (String × String)} {rest : List Char} (fresh : ∀ level ∈ levels, level.Fresh)
    (plain : innermost .header levels ≠ .dotted)
    (distinct : (inner.map (·.1) ++ pairs.map (·.1)).Nodup)
    (later : Reads ⟨within levels (inner ++ leaves pairs), levels.map (·.name)⟩ rest final) :
    Reads ⟨within levels inner, levels.map (·.name)⟩
      (pairs.flatMap (fun pair => printEntry pair.1 pair.2) ++ rest) final := by
  induction pairs generalizing inner with
  | nil => simpa [leaves] using later
  | cons pair pairs ih =>
    have new : pair.1 ∉ inner.map (·.1) := by
      intro member
      exact (List.nodup_append.mp distinct).2.2 _ member _ List.mem_cons_self rfl
    have added : Draft.change .parent (Draft.assign [] pair.1 (.string pair.2))
        (levels.map (·.name)) .header (within levels inner) = some _ :=
      change_within fresh (assign_fresh plain new)
    rw [List.flatMap_cons, List.append_assoc]
    refine reads_entry added (ih ?_ ?_)
    · simpa using distinct
    · simpa [leaves] using later

end Tables

theorem finishEntries_append (first rest : Draft.Entries) :
    Draft.finishEntries (first ++ rest) =
      Draft.finishEntries first ++ Draft.finishEntries rest := by
  induction first with
  | nil => rfl
  | cons entry first ih => rw [List.cons_append, Draft.finishEntries, Draft.finishEntries, ih]; rfl

theorem finishEntries_leaves (lines : List (String × String)) :
    Draft.finishEntries (leaves lines) = lines.map fun (name, text) => (name, .string text) := by
  induction lines with
  | nil => rfl
  | cons line lines ih => exact congrArg _ ih

end PlatformClient.Toml
