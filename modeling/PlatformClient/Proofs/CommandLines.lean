import PlatformClient.Proofs.InvocationOptions

namespace PlatformClient

namespace Command

open Entry

variable {scan : Scan} {command : Command} {flag : Flag} {before after : List Entry}
  {texts tail : List String}

/-- The options of a command's own have been taken: for each of them just what the command
gives. What is built of a scan depends on nothing else of it but the other arguments. -/
def Scan.Holds (scan : Scan) (command : Command) : Prop :=
  ∀ flag, flag ∉ globalFlags → valuesOf scan.given flag = (command.values flag).map some

theorem Scan.Holds.accept {path : String} {accept : Option String} {call : CallFlags}
    (holds : scan.Holds (.get path accept call)) : scan.value? .accept = accept := by
  have given := holds .accept (by decide)
  rw [Command.values, if_pos rfl, call.values_eq_nil (by decide), List.append_nil] at given
  exact Scan.value?_of_single given

theorem Scan.Holds.callFlagsOf_eq {call : CallFlags} (holds : scan.Holds command)
    (known : command.callFlags? = some call) (expected : ∀ code ∈ call.expected, code < 0x10000)
    (timeout : ∀ seconds ∈ call.timeout, seconds < 0x10000000000000000) :
    callFlagsOf scan = call := by
  have given (flag : Flag) (inside : flag ∈ callFlags) :
      valuesOf scan.given flag = (call.values flag).map some := by
    rw [holds flag (not_mem_globalFlags (List.mem_append_right _ inside)),
      values_of_callFlags known inside]
  have codes : (call.expected.map toString).filterMap readStatus = call.expected := by
    rw [List.filterMap_map]
    refine (List.filterMap_congr fun code inside => ?_).trans List.filterMap_some
    exact readStatus_toString (expected code inside)
  have limit : (call.timeout.map toString).bind readSeconds = call.timeout := by
    cases known : call.timeout with
    | none => rfl
    | some seconds => exact readSeconds_toDigits (timeout seconds known)
  obtain ⟨headers, expected, output, timeout⟩ := call
  simp only [callFlagsOf, CallFlags.mk.injEq]
  refine ⟨Scan.values_of_all (given .header (by decide)), ?_,
    Scan.value?_of_single (given .output (by decide)), ?_⟩
  · rw [Scan.values_of_all (given .expect (by decide))]
    exact codes
  · rw [Scan.value?_of_single (given .timeout (by decide))]
    exact limit

theorem Scan.Holds.bodyFlagsOf_eq {body : BodyFlags} {call : CallFlags}
    (holds : scan.Holds command) (sends : command.sending? = some (body, call)) :
    bodyFlagsOf scan = body := by
  have given (flag : Flag) (inside : flag ∈ bodyFlags) :
      valuesOf scan.given flag = (body.values flag).map some := by
    rw [holds flag (not_mem_globalFlags (List.mem_append_left _ inside)),
      values_of_bodyFlags sends inside]
  obtain ⟨data, dataFile, type⟩ := body
  simp only [bodyFlagsOf, BodyFlags.mk.injEq]
  exact ⟨Scan.value?_of_single (given .data (by decide)),
    Scan.value?_of_single (given .dataFile (by decide)),
    Scan.value?_of_single (given .contentType (by decide))⟩

/-- A scan shows by the presence of two options what a command gives twice. -/
theorem Scan.Holds.givesTwice_iff (holds : scan.Holds command) :
    scan.has .data = true ∧ scan.has .dataFile = true ↔ command.GivesTwice := by
  have data := holds .data (by decide)
  have dataFile := holds .dataFile (by decide)
  cases sends : command.sending? with
  | some pair =>
    obtain ⟨body, call⟩ := pair
    rw [values_of_bodyFlags sends (by decide)] at data dataFile
    rw [Scan.has_of_single data, Scan.has_of_single dataFile]
    constructor
    · exact fun both => ⟨body, call, sends, both⟩
    · rintro ⟨_, _, same, both⟩
      cases sends.symm.trans same
      exact both
  | none =>
    have absent : command.values .data = [] := by
      refine List.eq_nil_iff_forall_not_mem.mpr fun text given => ?_
      obtain ⟨body, call, other, -⟩ := mem_values_bodyFlags (by decide) given
      cases sends.symm.trans other
    rw [Scan.has_eq, data, absent]
    constructor
    · rintro ⟨given, -⟩
      cases given
    · rintro ⟨_, _, same, -⟩
      cases sends.symm.trans same

/-- A command is built of what has been taken for it. The numbers have to fit, since they
were written in digits and are read again. -/
theorem Scan.Holds.build_eq_ok (holds : scan.Holds command)
    (given : scan.positionals = command.texts)
    (expected : ∀ call, command.callFlags? = some call → ∀ code ∈ call.expected, code < 0x10000)
    (timeout : ∀ call, command.callFlags? = some call →
      ∀ seconds ∈ call.timeout, seconds < 0x10000000000000000) :
    command.name.build scan = .ok command := by
  have flags (call : CallFlags) (known : command.callFlags? = some call) :
      callFlagsOf scan = call :=
    holds.callFlagsOf_eq known (expected call known) (timeout call known)
  cases command with
  | get path accept call => simp [Command.name, Name.build, given, texts, flags call rfl, holds.accept]
  | delete path call => simp [Command.name, Name.build, given, texts, flags call rfl]
  | login => simp [Command.name, Name.build, given, texts]
  | post path body call =>
    simp [Command.name, Name.build, given, texts, flags call rfl, holds.bodyFlagsOf_eq rfl]
  | put path body call =>
    simp [Command.name, Name.build, given, texts, flags call rfl, holds.bodyFlagsOf_eq rfl]
  | patch path body call =>
    simp [Command.name, Name.build, given, texts, flags call rfl, holds.bodyFlagsOf_eq rfl]
  | request method path body call =>
    simp [Command.name, Name.build, given, texts, flags call rfl, holds.bodyFlagsOf_eq rfl]

theorem length_texts (command : Command) :
    command.texts.length ≤ command.name.level.positionals := by
  cases command <;> exact Nat.le_refl _

end Command

namespace Invocation

open Command Entry

variable {invocation : Invocation} {before after entries : List Entry} {tail : List String}
  {level : Level}

/-- Each part of the options of an invocation can be given where its options are known. What
holds of all of them together, that few are repeated, holds of a part. -/
theorem Arranged.accepts (arranged : invocation.Arranged before after) (valid : invocation.Valid)
    (part : entries.Sublist (before ++ after)) (known : ∀ entry ∈ entries, entry.1 ∈ level.flags) :
    Scan.Accepts level entries := by
  have given (entry : Entry) (inside : entry ∈ entries) :
      entry.2 ∈ invocation.values entry.1 := by
    rw [← arranged.values]
    exact mem_valuesOf.mpr (part.subset inside)
  refine ⟨known, fun entry inside => (mem_flags (given entry inside)).2, fun entry inside => ?_,
    fun entry inside text same => ?_, fun flag => ?_⟩
  · have own := (mem_flags (given entry inside)).1
    generalize invocation.command.name = name at own
    constructor
    · intro same
      rw [same] at own
      revert own
      cases name <;> decide
    · intro same
      rw [same] at own
      revert own
      cases name <;> decide
  · refine valid.check_eq_ok ?_
    rw [← Option.mem_def.mp same]
    exact given entry inside
  · refine (invocation.length_values_le flag).imp_right fun few => ?_
    rw [← arranged.values] at few
    have fewer : (valuesOf entries flag).length ≤ (valuesOf (before ++ after) flag).length :=
      ((part.filter _).map _).length_le
    omega

theorem Arranged.accepts_before (arranged : invocation.Arranged before after)
    (valid : invocation.Valid) : Scan.Accepts topLevel before :=
  arranged.accepts valid (List.sublist_append_left before after) fun entry inside =>
    List.mem_append_left _ (arranged.globals entry inside)

theorem Arranged.accepts_after (arranged : invocation.Arranged before after)
    (valid : invocation.Valid) : Scan.Accepts invocation.command.name.level after := by
  refine arranged.accepts valid (List.sublist_append_right before after) fun entry inside => ?_
  have given : entry.2 ∈ invocation.values entry.1 := by
    rw [← arranged.values]
    exact mem_valuesOf.mpr (List.mem_append_right before inside)
  exact List.mem_append_left _ (mem_flags given).1

/-- Only options that all commands have stand in front of the name, so those of the command's own
stand behind it. -/
theorem Arranged.holds (arranged : invocation.Arranged before after) {scan : Scan}
    (given : scan.given = after) : scan.Holds invocation.command := by
  intro flag outside
  have absent : valuesOf before flag = [] := by
    refine valuesOf_eq_nil fun entry inside same => outside ?_
    exact same ▸ arranged.globals entry inside
  have all := arranged.values flag
  rw [valuesOf_append, absent, List.nil_append, values_of_own outside] at all
  rw [given, all]

/-- An option that is given once is given either in front of the name or behind it, so it
does not matter which of the two places is asked first. -/
theorem or_of_split {early late : List (Option String)} {value : Option String}
    (split : early ++ late = value.toList.map some) :
    late.getLast?.join.or early.getLast?.join = value := by
  cases value with
  | none =>
    obtain ⟨rfl, rfl⟩ := List.append_eq_nil_iff.mp split
    rfl
  | some text => rcases List.append_eq_singleton_iff.mp split with ⟨rfl, rfl⟩ | ⟨rfl, rfl⟩ <;> rfl

theorem switch_of_split {early late : List (Option String)} {on : Bool}
    (split : early ++ late = if on then [none] else []) :
    (!late.isEmpty || !early.isEmpty) = on := by
  cases on with
  | false =>
    obtain ⟨rfl, rfl⟩ := List.append_eq_nil_iff.mp split
    rfl
  | true => rcases List.append_eq_singleton_iff.mp split with ⟨rfl, rfl⟩ | ⟨rfl, rfl⟩ <;> rfl

/-- The arguments of an invocation: options in front of the name of the command, and behind it
options and what belongs to none. -/
def line (invocation : Invocation) (before after : List Entry) (tail : List String) :
    List String :=
  before.map written ++ invocation.command.name.text :: (after.map written ++ tail)

/-- The arguments in front of the name of a command are read up to that name, and all
options there are taken at the top. -/
theorem Arranged.arguments_line (arranged : invocation.Arranged before after)
    (valid : invocation.Valid) (tail : List String) :
    Scan.arguments topLevel {} (invocation.line before after tail) =
      .ok ({ given := before }, some (invocation.command.name.text, after.map written ++ tail)) := by
  have plain : ∀ name ∈ topLevel.subcommands, name.toList.head? ≠ some '-' := by decide
  have command : topLevel.subcommands.contains invocation.command.name.text = true := by
    cases invocation.command.name <;> decide
  rw [line, Scan.arguments_written_first plain (arranged.accepts_before valid), Scan.arguments,
    if_pos ⟨Bool.false_ne_true, Bool.false_ne_true, command⟩]

/-- The arguments behind the name of a command are read as that command, unless what is sent
is given twice. Options that all commands have may stand here too; they are taken and have
no part in the command. -/
theorem Arranged.read_name (arranged : invocation.Arranged before after) (valid : invocation.Valid)
    (closes : Scan.Closes invocation.command.texts tail) :
    ∃ scan : Scan, scan.given = after ∧
      (¬ invocation.command.GivesTwice →
        invocation.command.name.read (after.map written ++ tail) =
          .ok (invocation.command, scan)) ∧
      (invocation.command.GivesTwice →
        invocation.command.name.read (after.map written ++ tail) = .error .conflict) := by
  obtain ⟨literal, closed⟩ := @Scan.arguments_closed invocation.command.name.level after
    invocation.command.texts tail rfl invocation.command.length_texts closes
  let scan : Scan := { given := after, positionals := invocation.command.texts, literal }
  have plain : ∀ name ∈ invocation.command.name.level.subcommands,
      name.toList.head? ≠ some '-' := List.forall_mem_nil _
  have taken : Scan.arguments invocation.command.name.level {} (after.map written ++ tail) =
      .ok (scan, none) := by
    rw [Scan.arguments_written_first plain (arranged.accepts_after valid), closed]
  have holds : scan.Holds invocation.command := arranged.holds rfl
  have twice := holds.givesTwice_iff
  have built := holds.build_eq_ok rfl valid.expected valid.timeout
  refine ⟨scan, rfl, fun once => ?_, fun both => ?_⟩
  · rw [Name.read, taken]
    have settled : scan.settle = .ok scan := rfl
    simp only [bind, Except.bind, settled, if_neg (mt twice.mp once), built]
    rfl
  · rw [Name.read, taken]
    have settled : scan.settle = .ok scan := rfl
    simp only [bind, Except.bind, settled, if_pos (twice.mpr both)]
    rfl

/-- However the options of an invocation are arranged, it is what is read of its arguments,
unless what is sent is given both on the command line and in a file: that is refused. The
two places are read one after the other, and for each option what they found is put together
as it was split. -/
theorem read_line (valid : invocation.Valid) (arranged : invocation.Arranged before after)
    (closes : Scan.Closes invocation.command.texts tail) :
    (¬ invocation.command.GivesTwice →
      Command.read (invocation.line before after tail) = .ok invocation) ∧
    (invocation.command.GivesTwice →
      Command.read (invocation.line before after tail) = .error .conflict) := by
  have front := arranged.arguments_line valid tail
  have known : Name.ofText? invocation.command.name.text = some invocation.command.name :=
    Name.ofText?_text _
  obtain ⟨scan, behind, single, double⟩ := arranged.read_name valid closes
  have split (flag : Flag) : valuesOf before flag ++ valuesOf after flag =
      invocation.values flag := by
    rw [← valuesOf_append, arranged.values]
  constructor
  · intro once
    rw [Command.read, front]
    simp only [bind, Except.bind, known, single once, Scan.settle, Scan.value?_eq, Scan.has_eq,
      behind, or_of_split (split .config), or_of_split (split .profile),
      switch_of_split (split .curl), switch_of_split (split .quiet),
      switch_of_split (split .verbose)]
    rfl
  · intro twice
    rw [Command.read, front]
    simp only [bind, Except.bind, known, double twice]

/-- Values that look like options, and arguments that do. -/
def hyphenated : Invocation where
  config := some "get"
  profile := some "--quiet"
  curl := true
  verbose := true
  command := .request "-X" "--" { dataFile := some "-", contentType := some "a=b" } {
    headers := ["--expect=1", "=", "--expect=1"], expected := [404, 65535], output := some "--"
    timeout := some 18446744073709551615 }

/-- A document that is given in two ways. -/
def givenTwice : Invocation where
  command := .put "/x" { data := some "\x7b\x7d", dataFile := some "--data" } {}

theorem read_line_hyphenated :
    Command.read ["--verbose", "--config=get", "request", "--expect=404", "--header=--expect=1",
        "--curl", "--data-file=-", "--header==", "--timeout=18446744073709551615",
        "--profile=--quiet", "--expect=65535", "--content-type=a=b", "--output=--",
        "--header=--expect=1", "--", "-X", "--"] = .ok hyphenated ∧
      Command.read ["put", "--data-file=--data", "--data=\x7b\x7d", "--", "/x"] =
        .error .conflict := by
  constructor
  · let before : List Entry := [(.verbose, none), (.config, some "get")]
    let after : List Entry := [(.expect, some "404"), (.header, some "--expect=1"), (.curl, none),
      (.dataFile, some "-"), (.header, some "="), (.timeout, some "18446744073709551615"),
      (.profile, some "--quiet"), (.expect, some "65535"), (.contentType, some "a=b"),
      (.output, some "--"), (.header, some "--expect=1")]
    have valid : hyphenated.Valid := by
      refine ⟨by decide, ?_, ?_, ?_⟩
      · rintro body call ⟨⟩
        decide
      · rintro call ⟨⟩
        decide
      · rintro call ⟨⟩ seconds ⟨⟩
        decide
    have arranged : hyphenated.Arranged before after := by
      refine ⟨by decide, fun flag => ?_⟩
      cases flag <;> decide +kernel
    have once : ¬ hyphenated.command.GivesTwice := by
      rintro ⟨body, call, ⟨⟩, data, -⟩
      cases data
    exact (read_line valid arranged (Or.inl rfl)).1 once
  · let after : List Entry := [(.dataFile, some "--data"), (.data, some "\x7b\x7d")]
    have valid : givenTwice.Valid := by
      refine ⟨by decide, ?_, ?_, ?_⟩
      · rintro body call ⟨⟩
        decide
      · rintro call ⟨⟩
        decide
      · rintro call ⟨⟩ seconds ⟨⟩
    have arranged : givenTwice.Arranged [] after := by
      refine ⟨by decide, fun flag => ?_⟩
      cases flag <;> decide +kernel
    exact (read_line valid arranged (Or.inl rfl)).2 ⟨_, _, rfl, rfl, rfl⟩

end Invocation

end PlatformClient
