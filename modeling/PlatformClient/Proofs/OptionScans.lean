import Mathlib.Data.List.Find
import Mathlib.Data.String.Basic
import PlatformClient.Command.Reader
import PlatformClient.Proofs.TextParts

namespace PlatformClient

namespace Command

/-- An option as it is given, with its value if it has one. -/
abbrev Entry := Flag × Option String

namespace Entry

/-- An option in one argument. The equals sign keeps a value that begins with a hyphen from
being taken for another option. -/
def written : Entry → String
  | (flag, none) => "--" ++ flag.long
  | (flag, some value) => "--" ++ flag.long ++ "=" ++ value

/-- What is given for one option, in the order in which it is given. The order among
different options is lost here, and nothing depends on it. -/
def valuesOf (entries : List Entry) (flag : Flag) : List (Option String) :=
  (entries.filter fun entry => entry.1 == flag).map (·.2)

variable {entries before after : List Entry} {flag : Flag} {value : Option String}

theorem valuesOf_append (flag : Flag) :
    valuesOf (before ++ after) flag = valuesOf before flag ++ valuesOf after flag := by
  rw [valuesOf, List.filter_append, List.map_append]
  rfl

theorem mem_valuesOf : value ∈ valuesOf entries flag ↔ (flag, value) ∈ entries := by
  simp [valuesOf]

theorem valuesOf_eq_nil (absent : ∀ entry ∈ entries, entry.1 ≠ flag) :
    valuesOf entries flag = [] := by
  refine List.map_eq_nil_iff.mpr (List.filter_eq_nil_iff.mpr fun entry inside same => ?_)
  exact absent entry inside (beq_iff_eq.mp same)

theorem valuesOf_self_append (given : List Entry) (entry : Entry) (rest : List Entry) :
    valuesOf (given ++ entry :: rest) entry.1 =
      valuesOf given entry.1 ++ entry.2 :: valuesOf rest entry.1 := by
  rw [valuesOf_append]
  simp [valuesOf]

end Entry

namespace Scan

open Entry

variable {scan : Scan} {flag : Flag} {level : Level}

theorem has_eq : scan.has flag = !(valuesOf scan.given flag).isEmpty := by
  rw [has, valuesOf, Bool.eq_iff_iff, List.any_eq_true]
  simp

theorem values_eq : scan.values flag = (valuesOf scan.given flag).filterMap id := by
  rw [values, valuesOf, List.filterMap_map]
  rfl

theorem value?_eq : scan.value? flag = (valuesOf scan.given flag).getLast?.join := by
  rw [value?, valuesOf, ← List.head?_filter, List.filter_reverse, List.head?_reverse,
    List.getLast?_map]
  cases (scan.given.filter fun entry => entry.1 == flag).getLast? <;> rfl

theorem value?_of_single {value : Option String}
    (given : valuesOf scan.given flag = value.toList.map some) : scan.value? flag = value := by
  rw [value?_eq, given]
  cases value <;> rfl

theorem has_of_single {value : Option String}
    (given : valuesOf scan.given flag = value.toList.map some) : scan.has flag = value.isSome := by
  rw [has_eq, given]
  cases value <;> rfl

theorem values_of_all {texts : List String}
    (given : valuesOf scan.given flag = texts.map some) : scan.values flag = texts := by
  rw [values_eq, given, List.filterMap_map]
  exact List.filterMap_some

/-- An option that is taken where nothing waits for a value. It is added behind what has
been given, and nothing else of the scan changes. -/
theorem take_eq_ok {value : Option String} (arity : flag.hasValue = value.isSome)
    (shown : flag ≠ .help ∧ flag ≠ .version)
    (once : flag.arity = .repeated ∨ scan.has flag = false)
    (checked : ∀ text ∈ value, flag.check text = .ok ()) :
    scan.take flag value = .ok { scan with given := scan.given ++ [(flag, value)] } := by
  have fresh : ¬ (flag.arity ≠ .repeated ∧ scan.has flag = true) := by
    rintro ⟨single, given⟩
    rcases once with repeats | absent
    · exact single repeats
    · rw [given] at absent
      cases absent
  cases value with
  | none =>
    simp [take, arity, shown, fresh]
    rfl
  | some text =>
    have fine := checked text rfl
    simp [take, arity, shown, fresh, fine]

theorem option_eq_ok {given : List Entry} {value : Option String}
    (arity : flag.hasValue = value.isSome) (shown : flag ≠ .help ∧ flag ≠ .version)
    (once : flag.arity = .repeated ∨ Scan.has { given } flag = false)
    (checked : ∀ text ∈ value, flag.check text = .ok ()) :
    option { given } flag value = .ok { given := given ++ [(flag, value)] } := by
  have present : ¬ (flag.hasValue = true ∧ value.isNone = true) := by
    rw [arity]
    cases value <;> simp
  have taken := take_eq_ok arity shown once checked
  simp only [option, settle, bind, Except.bind, if_neg present, taken]
  rfl

theorem long_injective {other : Flag} (same : flag.long = other.long) : flag = other := by
  revert same
  cases flag <;> cases other <;> decide

theorem find?_long (known : flag ∈ level.flags) :
    level.flags.find? (·.long == flag.long) = some flag := by
  cases found : level.flags.find? (·.long == flag.long) with
  | none =>
    have other := List.find?_eq_none.mp found flag known
    simp at other
  | some other =>
    have same := List.find?_some found
    rw [long_injective (beq_iff_eq.mp same)]

/-- An argument that begins with two hyphens and goes on is an option by its name. -/
theorem argument_long {given : List Entry} {text : String} {c : Char} {cs : List Char}
    (begins : text.toList = '-' :: '-' :: c :: cs) :
    argument level { given } text = longOption level { given } (c :: cs) := by
  simp [argument, begins]

theorem long_toList (flag : Flag) : ∃ c cs, flag.long.toList = c :: cs ∧ '=' ∉ c :: cs := by
  cases flag <;> exact ⟨_, _, rfl, by decide⟩

/-- An option is taken as it is written: its name ends at the first equals sign, since no
name has one, and everything behind that is its value. -/
theorem argument_written {given : List Entry} {value : Option String}
    (known : flag ∈ level.flags) (arity : flag.hasValue = value.isSome)
    (shown : flag ≠ .help ∧ flag ≠ .version)
    (once : flag.arity = .repeated ∨ Scan.has { given } flag = false)
    (checked : ∀ text ∈ value, flag.check text = .ok ()) :
    argument level { given } (Entry.written (flag, value)) =
      .ok { given := given ++ [(flag, value)] } := by
  obtain ⟨c, cs, name, plain⟩ := long_toList flag
  rw [← option_eq_ok arity shown once checked]
  cases value with
  | none =>
    have begins : (Entry.written (flag, none)).toList = '-' :: '-' :: c :: cs := by
      simp [Entry.written, name]
    rw [argument_long begins, longOption, Text.splitFirst_eq_none plain, ← name,
      String.ofList_toList]
    dsimp only
    rw [find?_long known]
    simp
  | some text =>
    have begins : (Entry.written (flag, some text)).toList =
        '-' :: '-' :: c :: (cs ++ '=' :: text.toList) := by
      simp [Entry.written, name]
    rw [argument_long begins, longOption, ← List.cons_append, Text.splitFirst_append plain, ← name]
    simp only [String.ofList_toList]
    rw [find?_long known]
    simp [arity]

/-- Options that can be given together at a level, in whatever order: each is known there
and has a value exactly if it needs one, none of them asks for help, and only some are given
more than once. -/
structure Accepts (level : Level) (entries : List Entry) : Prop where
  known : ∀ entry ∈ entries, entry.1 ∈ level.flags
  arity : ∀ entry ∈ entries, entry.1.hasValue = entry.2.isSome
  shown : ∀ entry ∈ entries, entry.1 ≠ .help ∧ entry.1 ≠ .version
  checked : ∀ entry ∈ entries, ∀ text ∈ entry.2, entry.1.check text = .ok ()
  once : ∀ flag : Flag, flag.arity = .repeated ∨ (valuesOf entries flag).length ≤ 1

theorem not_contains_written (plain : ∀ name ∈ level.subcommands, name.toList.head? ≠ some '-')
    (entry : Entry) : level.subcommands.contains entry.written = false := by
  refine Bool.eq_false_iff.mpr fun inside => plain _ (List.contains_iff_mem.mp inside) ?_
  obtain ⟨flag, value⟩ := entry
  cases value <;> simp [Entry.written]

/-- Options are taken as they are written, one after the other. The induction is on the
options that are left, and what has been taken is any list, so that the condition on both
together is the invariant. -/
theorem arguments_written (plain : ∀ name ∈ level.subcommands, name.toList.head? ≠ some '-')
    {given entries : List Entry} (accepts : Accepts level (given ++ entries))
    (rest : List String) :
    arguments level { given } (entries.map Entry.written ++ rest) =
      arguments level { given := given ++ entries } rest := by
  induction entries generalizing given with
  | nil => rw [List.map_nil, List.nil_append, List.append_nil]
  | cons entry entries ih =>
    obtain ⟨flag, value⟩ := entry
    have inside : (flag, value) ∈ given ++ (flag, value) :: entries := by simp
    have once : flag.arity = .repeated ∨ Scan.has { given } flag = false := by
      refine (accepts.once flag).imp_right fun few => ?_
      have split := valuesOf_self_append given (flag, value) entries
      dsimp only at split
      rw [split, List.length_append, List.length_cons] at few
      have none : (valuesOf given flag).length = 0 := by omega
      rw [has_eq, List.length_eq_zero_iff.mp none]
      rfl
    have taken := argument_written (accepts.known _ inside) (accepts.arity _ inside)
      (accepts.shown _ inside) once (accepts.checked _ inside)
    have apart := not_contains_written plain (flag, value)
    rw [List.append_cons] at accepts
    have later := ih accepts
    rw [List.append_assoc, List.singleton_append] at later
    rw [List.map_cons, List.cons_append, arguments, apart, taken, ← later]
    rfl

theorem arguments_written_first (plain : ∀ name ∈ level.subcommands, name.toList.head? ≠ some '-')
    {entries : List Entry} (accepts : Accepts level entries) (rest : List String) :
    arguments level {} (entries.map Entry.written ++ rest) =
      arguments level { given := entries } rest :=
  @arguments_written level plain [] entries accepts rest

/-- Behind two hyphens, as many arguments are taken as there is room for, whatever they look
like. -/
theorem arguments_literal {given : List Entry} {earlier texts : List String}
    (room : earlier.length + texts.length ≤ level.positionals) :
    arguments level { given, positionals := earlier, literal := true } texts =
      .ok ({ given, positionals := earlier ++ texts, literal := true }, none) := by
  induction texts generalizing earlier with
  | nil => rw [List.append_nil, arguments]
  | cons text texts ih =>
    rw [List.length_cons] at room
    have here : earlier.length < level.positionals := by omega
    have taken : argument level { given, positionals := earlier, literal := true } text =
        .ok { given, positionals := earlier ++ [text], literal := true } := by
      simp only [argument, plain, positional, settle, if_pos here]
      rfl
    have later := @ih (earlier ++ [text]) (by rw [List.length_append, List.length_singleton]; omega)
    rw [List.append_assoc, List.singleton_append] at later
    rw [arguments, taken, ← later]
    rfl

/-- The arguments behind the options, which two hyphens tell from them. Where there are
none, the hyphens may be left out; otherwise they are there, since an argument may look like
an option. -/
def Closes (texts tail : List String) : Prop := tail = "--" :: texts ∨ texts = [] ∧ tail = []

theorem arguments_closed {given : List Entry} {texts tail : List String}
    (bare : level.subcommands = []) (room : texts.length ≤ level.positionals)
    (closes : Closes texts tail) :
    ∃ literal, arguments level { given } tail =
      .ok ({ given, positionals := texts, literal }, none) := by
  rcases closes with rfl | ⟨rfl, rfl⟩
  · refine ⟨true, ?_⟩
    have start : arguments level { given } ("--" :: texts) =
        arguments level { given, literal := true } texts := by
      rw [arguments, bare]
      rfl
    have rest : arguments level { given, literal := true } texts =
        .ok ({ given, positionals := [] ++ texts, literal := true }, none) :=
      arguments_literal (by simpa using room)
    rw [start, rest, List.nil_append]
  · exact ⟨false, rfl⟩

end Scan

end Command

end PlatformClient
