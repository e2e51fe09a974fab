import Mathlib.Data.List.Induction
import Mathlib.Data.List.Nodup
import PlatformClient.Proofs.DedicatedHeaders
import PlatformClient.Proofs.TimeLimits

namespace PlatformClient

namespace CallerHeaders

theorem names_set (headers : CallerHeaders) (name value : String) :
    (headers.set name value).map (·.1) =
      if name ∈ headers.map (·.1) then headers.map (·.1) else headers.map (·.1) ++ [name] := by
  have known : headers.any (·.1 == name) = true ↔ name ∈ headers.map (·.1) := by
    simp [List.any_eq_true]
  rw [set]
  by_cases inside : name ∈ headers.map (·.1)
  · rw [if_pos (known.mpr inside), if_pos inside, List.map_map]
    refine List.map_congr_left fun header _ => ?_
    by_cases same : header.1 = name
    · simp [same]
    · simp [same]
  · rw [if_neg (inside ∘ known.mp), if_neg inside, List.map_append]
    rfl

theorem distinct_set {headers : CallerHeaders} (distinct : (headers.map (·.1)).Nodup)
    (name value : String) : ((headers.set name value).map (·.1)).Nodup := by
  rw [names_set]
  split_ifs with inside
  · exact distinct
  · exact List.nodup_append'.mpr ⟨distinct, List.nodup_singleton name, by simpa using inside⟩

end CallerHeaders

/-- A text states a header: its name and its value stand in front of and behind the first
equals sign, each with blanks around it, and something is left of the name. Of the value
nothing need be left. -/
def States (text name value : String) : Prop :=
  ∃ before after, text.toList = before ++ '=' :: after ∧ '=' ∉ before ∧
    Text.Trims before name.toList ∧ Text.Trims after value.toList ∧ name ≠ ""

/-- Of the texts that state a header of this name, the last one states this value. Names are
told apart by their case here, though headers are not. -/
def LastStates (texts : List String) (name value : String) : Prop :=
  ∃ before text after, texts = before ++ text :: after ∧ States text name value ∧
    ∀ later ∈ after, ∀ other, ¬ States later name other

/-- One more text decides for its own name and leaves the others, which is the step of
reading texts from the front. -/
theorem lastStates_concat {texts : List String} {text name value : String} :
    LastStates (texts ++ [text]) name value ↔
      States text name value ∨
        LastStates texts name value ∧ ∀ other, ¬ States text name other := by
  constructor
  · rintro ⟨before, found, after, split, states, last⟩
    rcases List.eq_nil_or_concat after with rfl | ⟨between, final, rfl⟩
    · obtain ⟨-, same⟩ := List.append_inj' split rfl
      cases same
      exact Or.inl states
    · rw [List.concat_eq_append, ← List.cons_append, ← List.append_assoc] at split
      obtain ⟨rfl, same⟩ := List.append_inj' split rfl
      cases same
      rw [List.concat_eq_append, List.forall_mem_append] at last
      exact Or.inr ⟨⟨before, found, between, rfl, states, last.1⟩, last.2 _ (by simp)⟩
  · rintro (states | ⟨⟨before, found, after, rfl, states, last⟩, apart⟩)
    · exact ⟨texts, text, [], rfl, states, nofun⟩
    · refine ⟨before, found, after ++ [text], by simp, states, ?_⟩
      exact List.forall_mem_append.mpr ⟨last, by simpa using apart⟩

namespace CallFlags

/-- The headers that the flags of a call give. The name of the output stands for the header
that names the file; all others are what the last text of their name states. Blanks around
the name of the output are kept. -/
def Gives (call : CallFlags) (name value : String) : Prop :=
  if name = fileNameHeader ∧ call.output.isSome then call.output = some value
  else LastStates call.headers name value

/-- The first text that states no header, or else the first number that is no status, even
where the number was given before the text. -/
def firstFault? (call : CallFlags) : Option InputError :=
  ((call.headers.find? (!statesHeader ·)).map .header).or
    ((call.expected.find? (!isStatus ·)).map .status)

/-- The first of the faults of some values is that of the first value that is at fault. -/
theorem head?_flatMap_faults {α : Type} (holds : α → Bool) (fault : α → InputError) (list : List α) :
    (list.flatMap fun value => if holds value then [] else [fault value]).head? =
      (list.find? (!holds ·)).map fault := by
  induction list with
  | nil => rfl
  | cons value rest ih =>
    rw [List.flatMap_cons, List.find?_cons]
    cases holds value with
    | true => exact ih
    | false => rfl

theorem head?_faults (call : CallFlags) : call.faults.head? = call.firstFault? := by
  rw [faults, List.head?_append]
  exact congrArg₂ Option.or (head?_flatMap_faults statesHeader .header call.headers)
    (head?_flatMap_faults isStatus .status call.expected)

end CallFlags

namespace Command

section Reading

variable {texts : List String} {text name value : String} {headers : CallerHeaders}

theorem readHeader_eq_ok_iff : readHeader text = .ok (name, value) ↔ States text name value := by
  unfold readHeader States
  constructor
  · intro read
    split at read
    · cases read
    · rename_i before after split
      obtain ⟨joined, absent⟩ := Text.splitFirst_eq_some_iff.mp split
      dsimp only at read
      split_ifs at read with blank
      cases read
      refine ⟨before, after, joined, absent, ?_, ?_, ?_⟩
      · rw [Text.trims_iff, String.toList_ofList]
      · rw [Text.trims_iff, String.toList_ofList]
      · simpa using blank
  · rintro ⟨before, after, joined, absent, named, valued, filled⟩
    have blank : ¬ (Text.trimChars before).isEmpty = true := by
      rw [Text.trims_iff.mp named]
      simpa using filled
    rw [joined, Text.splitFirst_append absent]
    dsimp only
    rw [if_neg blank, Text.trims_iff.mp named, Text.trims_iff.mp valued, String.ofList_toList,
      String.ofList_toList]

theorem readHeaders_concat : readHeaders (texts ++ [text]) = .ok headers ↔
    ∃ earlier name value, readHeaders texts = .ok earlier ∧ States text name value ∧
      headers = earlier.set name value := by
  rw [readHeaders, List.foldlM_append, bind_eq_ok_iff]
  refine exists_congr fun earlier => ?_
  simp only [List.foldlM_cons, List.foldlM_nil, bind_pure, map_eq_ok_iff, Prod.exists,
    readHeader_eq_ok_iff]
  constructor
  · rintro ⟨read, name, value, states, rfl⟩
    exact ⟨name, value, read, states, rfl⟩
  · rintro ⟨name, value, read, states, rfl⟩
    exact ⟨read, name, value, states, rfl⟩

/-- The last text that states a header decides its value. The induction is on the texts from
the last one, since each of them is set over what was read before. -/
theorem mem_of_readHeaders (read : readHeaders texts = .ok headers) :
    (name, value) ∈ headers ↔ LastStates texts name value := by
  induction texts using List.reverseRecOn generalizing headers with
  | nil =>
    cases read
    refine iff_of_false List.not_mem_nil ?_
    rintro ⟨before, found, after, split, -⟩
    simp at split
  | append_singleton texts text ih =>
    obtain ⟨earlier, last, told, first, states, rfl⟩ := readHeaders_concat.mp read
    have only (other said : String) : States text other said ↔ (other, said) = (last, told) := by
      rw [← readHeader_eq_ok_iff, readHeader_eq_ok_iff.mpr states, Except.ok.injEq, eq_comm]
    rw [CallerHeaders.mem_set, lastStates_concat, ih first, only]
    refine or_congr_right (and_congr_right fun _ => ?_)
    simp [only]

theorem distinct_of_readHeaders (read : readHeaders texts = .ok headers) :
    (headers.map (·.1)).Nodup := by
  induction texts using List.reverseRecOn generalizing headers with
  | nil =>
    cases read
    exact List.nodup_nil
  | append_singleton texts text ih =>
    obtain ⟨earlier, name, value, first, -, rfl⟩ := readHeaders_concat.mp read
    exact CallerHeaders.distinct_set (ih first) name value

/-- Statuses are read in their order and each as often as it is given, and they are nothing
but their codes. -/
theorem readStatuses_eq_ok_iff {codes : List Nat} {statuses : List Http.Status} :
    readStatuses codes = .ok statuses ↔ statuses.map (·.code) = codes := by
  induction codes generalizing statuses with
  | nil =>
    rw [List.map_eq_nil_iff]
    exact ⟨fun read => (Except.ok.inj read).symm, fun none => none ▸ rfl⟩
  | cons code rest ih =>
    rw [readStatuses, List.mapM_cons, bind_eq_ok_iff]
    constructor
    · rintro ⟨status, valid, read⟩
      obtain ⟨further, others, same⟩ := bind_eq_ok_iff.mp read
      cases same
      split at valid
      · rename_i found
        cases valid
        rw [List.map_cons, ih.mp others, Http.Status.code_of_ofNat? found]
      · cases valid
    · intro given
      obtain ⟨status, further, rfl, rfl, others⟩ := List.map_eq_cons_iff.mp given
      refine ⟨status, by rw [Http.Status.ofNat?_code], bind_eq_ok_iff.mpr ?_⟩
      exact ⟨further, ih.mpr others, rfl⟩

end Reading

section Options

variable {call : CallFlags} {quiet : Bool} {now : Nat} {options : CallOptions}

/-- Options say what the flags of their call say, and nothing else. With the headers having
distinct names, the first field determines them but for their order. -/
structure MadeOf (quiet : Bool) (call : CallFlags) (options : CallOptions) : Prop where
  headers : ∀ name value, (name, value) ∈ options.headers ↔ call.Gives name value
  distinct : (options.headers.map (·.1)).Nodup
  expected : options.expected.map (·.code) = call.expected
  cancellable : options.cancellable = true
  quiet : options.quiet = quiet
  timeLimit : options.timeLimit = call.timeout
  responseHeaders : options.responseHeaders = none

theorem madeOf_of_callOptions (made : callOptions call quiet now = .ok options) :
    MadeOf quiet call options := by
  obtain ⟨headers, expected, read, statuses, rfl⟩ := parts_of_callOptions made
  refine ⟨fun name value => ?_, ?_, readStatuses_eq_ok_iff.mp statuses, rfl, rfl, rfl, rfl⟩
  · rw [CallFlags.Gives]
    cases call.output with
    | none =>
      rw [if_neg (by simp)]
      exact mem_of_readHeaders read
    | some fileName =>
      rw [CallerHeaders.mem_set, mem_of_readHeaders read, Prod.mk.injEq]
      by_cases named : name = fileNameHeader
      · simp [named, eq_comm]
      · simp [named]
  · cases call.output with
    | none => exact distinct_of_readHeaders read
    | some fileName => exact CallerHeaders.distinct_set (distinct_of_readHeaders read) _ _

/-- While the clock can hold the end of a call, its flags are refused exactly where a header
or a status among them is malformed. The first one is named, headers before statuses.
Without any, the options are made of the flags. The list of all faults decides both: its
first member is the error, and where it is empty there are options. -/
theorem options_of_flags (held : ¬ call.Overruns now) :
    ((∃ error, callOptions call quiet now = .error error) ↔
      (∃ text ∈ call.headers, statesHeader text = false) ∨
        ∃ code ∈ call.expected, code < 100 ∨ 999 < code) ∧
    (∀ error, callOptions call quiet now = .error error ↔
      call.firstFault?.map .input = some error) ∧
    (call.firstFault? = none →
      ∃ options, callOptions call quiet now = .ok options ∧ MadeOf quiet call options) := by
  have refused : RefusedFor (callOptions call quiet now) (call.faults.map .input) := by
    have read : RefusedFor (callOptions call quiet now) _ := refusedFor_callOptions_clock call
    rwa [CallFlags.clockFaults_eq_nil_iff.mpr held, List.append_nil] at read
  have named (error : OptionsError) : callOptions call quiet now = .error error ↔
      call.firstFault?.map .input = some error := by
    rw [refused.error_iff, List.head?_map, CallFlags.head?_faults]
  refine ⟨?_, named, fun sound => ?_⟩
  · have invalid (code : Nat) : (!isStatus code) = true ↔ code < 100 ∨ 999 < code := by
      rw [isStatus, Bool.not_eq_true', Bool.and_eq_false_iff, decide_eq_false_iff_not,
        decide_eq_false_iff_not]
      omega
    rw [exists_congr named, ← Option.isSome_iff_exists, Option.isSome_map, CallFlags.firstFault?,
      Option.isSome_or, Bool.or_eq_true, Option.isSome_map, Option.isSome_map, List.find?_isSome,
      List.find?_isSome]
    simp only [invalid, Bool.not_eq_true']
  · have faultless : call.faults.map OptionsError.input = [] := by
      rw [List.map_eq_nil_iff, ← List.head?_eq_none_iff, CallFlags.head?_faults, sound]
    obtain ⟨options, made⟩ := refused.ok_iff.mpr faultless
    exact ⟨options, made, madeOf_of_callOptions made⟩

example : callOptions { headers := ["a=1", " =2", "b"], expected := [42] } false 0 =
    .error (.input (.header " =2")) := by
  decide +kernel

/-- Headers that are stated more than once, in more than one case, with equals signs and blanks in
them, and a file that is named twice. -/
def tracingFlags : CallFlags where
  headers := [" X-Trace = a=b", "solutionFileName=old.zip", "Empty= ", "X-Trace\t=\u00A0c = d \n",
    "x-trace=1"]
  expected := [404, 100, 999, 404]
  output := some " new.zip"
  timeout := some 5

theorem options_of_flags_tracing :
    ¬ tracingFlags.Overruns 0 ∧
      ∃ options, callOptions tracingFlags true 0 = .ok options ∧
        MadeOf true tracingFlags options ∧
        options.headers = [("X-Trace", "c = d"), (fileNameHeader, " new.zip"), ("Empty", ""),
          ("x-trace", "1")] := by
  have held : ¬ tracingFlags.Overruns 0 := by
    rintro ⟨seconds, limit, beyond⟩
    cases limit
    exact absurd beyond (by decide)
  have faultless : tracingFlags.firstFault? = none := by decide +kernel
  obtain ⟨-, -, made⟩ := @options_of_flags tracingFlags true 0 held
  obtain ⟨options, read, madeOf⟩ := made faultless
  have headers : (callOptions tracingFlags true 0).map (·.headers) =
      .ok [("X-Trace", "c = d"), (fileNameHeader, " new.zip"), ("Empty", ""), ("x-trace", "1")] := by
    decide +kernel
  rw [read] at headers
  exact ⟨held, options, read, madeOf, Except.ok.inj headers⟩

end Options

end Command

end PlatformClient
