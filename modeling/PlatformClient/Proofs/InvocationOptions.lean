import PlatformClient.Proofs.BodyContracts
import PlatformClient.Proofs.OptionScans
import PlatformClient.Proofs.TimeLimits

namespace PlatformClient

open Command (Entry Flag Name callFlags bodyFlags globalFlags)

/-- What is given for an option of a call. -/
def CallFlags.values (call : CallFlags) : Flag → List String
  | .header => call.headers
  | .expect => call.expected.map toString
  | .output => call.output.toList
  | .timeout => (call.timeout.map toString).toList
  | _ => []

def BodyFlags.values (body : BodyFlags) : Flag → List String
  | .data => body.data.toList
  | .dataFile => body.dataFile.toList
  | .contentType => body.contentType.toList
  | _ => []

namespace Command

def name : Command → Name
  | .get .. => .get
  | .delete .. => .delete
  | .post .. => .post
  | .put .. => .put
  | .patch .. => .patch
  | .request .. => .request
  | .login => .login

/-- The arguments of a command that belong to no option. -/
def texts : Command → List String
  | .get path _ _ => [path]
  | .delete path _ => [path]
  | .post path _ _ => [path]
  | .put path _ _ => [path]
  | .patch path _ _ => [path]
  | .request method path _ _ => [method, path]
  | .login => []

/-- What is given for an option of a command's own. -/
def values (command : Command) (flag : Flag) : List String :=
  match command with
  | .get _ accept call => (if flag = .accept then accept.toList else []) ++ call.values flag
  | .delete _ call => call.values flag
  | .post _ body call => body.values flag ++ call.values flag
  | .put _ body call => body.values flag ++ call.values flag
  | .patch _ body call => body.values flag ++ call.values flag
  | .request _ _ body call => body.values flag ++ call.values flag
  | .login => []

/-- What is sent is given on the command line and in a file at once. -/
def GivesTwice (command : Command) : Prop :=
  ∃ body call, command.sending? = some (body, call) ∧
    body.data.isSome = true ∧ body.dataFile.isSome = true

end Command

namespace Invocation

/-- What is given for an option. A switch is given without a value. -/
def values (invocation : Invocation) : Flag → List (Option String)
  | .config => invocation.config.toList.map some
  | .profile => invocation.profile.toList.map some
  | .curl => if invocation.curl then [none] else []
  | .quiet => if invocation.quiet then [none] else []
  | .verbose => if invocation.verbose then [none] else []
  | flag => (invocation.command.values flag).map some

/-- An invocation whose numbers fit, and whose paths are not empty. All of this is checked
while an option is taken. -/
structure Valid (invocation : Invocation) : Prop where
  config : invocation.config ≠ some ""
  dataFile : ∀ body call, invocation.command.sending? = some (body, call) →
    body.dataFile ≠ some ""
  expected : ∀ call, invocation.command.callFlags? = some call →
    ∀ code ∈ call.expected, code < 0x10000
  timeout : ∀ call, invocation.command.callFlags? = some call →
    ∀ seconds ∈ call.timeout, seconds < 0x10000000000000000

/-- Options in front of the name of a command and behind it are those of an invocation: for
each option just what the invocation says is given, in its order, and only options that all
commands have stand in front. How different options follow each other is left open. -/
structure Arranged (invocation : Invocation) (before after : List Entry) : Prop where
  globals : ∀ entry ∈ before, entry.1 ∈ globalFlags
  values : ∀ flag, Entry.valuesOf (before ++ after) flag = invocation.values flag

end Invocation

section Values

variable {flag : Flag} {text : String} {command : Command} {invocation : Invocation}
  {before after : List Entry} {value : Option String}

theorem CallFlags.mem_callFlags {call : CallFlags} (given : text ∈ call.values flag) :
    flag ∈ callFlags := by
  cases flag <;> first | decide | exact absurd given List.not_mem_nil

theorem BodyFlags.mem_bodyFlags {body : BodyFlags} (given : text ∈ body.values flag) :
    flag ∈ bodyFlags := by
  cases flag <;> first | decide | exact absurd given List.not_mem_nil

theorem CallFlags.values_eq_nil (call : CallFlags) (outside : flag ∉ callFlags) :
    call.values flag = [] :=
  List.eq_nil_iff_forall_not_mem.mpr fun _ given => outside (mem_callFlags given)

theorem BodyFlags.values_eq_nil (body : BodyFlags) (outside : flag ∉ bodyFlags) :
    body.values flag = [] :=
  List.eq_nil_iff_forall_not_mem.mpr fun _ given => outside (mem_bodyFlags given)

theorem Command.mem_ownFlags (given : text ∈ command.values flag) :
    flag ∈ command.name.ownFlags := by
  have sending {body : BodyFlags} {call : CallFlags}
      (given : text ∈ body.values flag ++ call.values flag) : flag ∈ bodyFlags ++ callFlags :=
    List.mem_append.mpr
      ((List.mem_append.mp given).imp BodyFlags.mem_bodyFlags CallFlags.mem_callFlags)
  cases command with
  | get path accept call =>
    rcases List.mem_append.mp given with given | given
    · split_ifs at given with own
      · exact own ▸ List.mem_cons_self
      · cases given
    · exact List.mem_cons_of_mem _ (CallFlags.mem_callFlags given)
  | delete path call => exact CallFlags.mem_callFlags given
  | post path body call => exact sending given
  | put path body call => exact sending given
  | patch path body call => exact sending given
  | request method path body call => exact sending given
  | login => cases given

/-- What is given for an option of a call is what the flags of the call say, since no
command has such an option of its own. -/
theorem Command.values_of_callFlags {call : CallFlags} (known : command.callFlags? = some call)
    (inside : flag ∈ callFlags) : command.values flag = call.values flag := by
  have other : flag ∉ bodyFlags ∧ flag ≠ .accept := by
    revert inside
    cases flag <;> decide
  cases command with
  | get path accept options =>
    cases known
    rw [values, if_neg other.2, List.nil_append]
  | delete path options =>
    cases known
    rfl
  | login => cases known
  | _ =>
    cases known
    rw [values, BodyFlags.values_eq_nil _ other.1, List.nil_append]

theorem Command.values_of_bodyFlags {body : BodyFlags} {call : CallFlags}
    (sends : command.sending? = some (body, call)) (inside : flag ∈ bodyFlags) :
    command.values flag = body.values flag := by
  have other : flag ∉ callFlags := by
    revert inside
    cases flag <;> decide
  cases command with
  | get path accept options => cases sends
  | delete path options => cases sends
  | login => cases sends
  | _ =>
    cases sends
    rw [values, call.values_eq_nil other, List.append_nil]

theorem Command.mem_values_callFlags (inside : flag ∈ callFlags)
    (given : text ∈ command.values flag) :
    ∃ call, command.callFlags? = some call ∧ text ∈ call.values flag := by
  cases known : command.callFlags? with
  | some call => exact ⟨call, rfl, values_of_callFlags known inside ▸ given⟩
  | none =>
    cases command with
    | login => cases given
    | _ => cases known

/-- An option for what is sent has a value only in a command that sends something. -/
theorem Command.mem_values_bodyFlags (inside : flag ∈ bodyFlags)
    (given : text ∈ command.values flag) :
    ∃ body call, command.sending? = some (body, call) ∧ text ∈ body.values flag := by
  have other : flag ∉ callFlags ∧ flag ≠ .accept := by
    revert inside
    cases flag <;> decide
  cases known : command.sending? with
  | some pair => exact ⟨pair.1, pair.2, rfl, values_of_bodyFlags known inside ▸ given⟩
  | none =>
    cases command with
    | get path accept call =>
      rw [values, if_neg other.2, call.values_eq_nil other.1] at given
      cases given
    | delete path call =>
      rw [values, call.values_eq_nil other.1] at given
      cases given
    | login => cases given
    | _ => cases known

theorem length_toList_le {α : Type} (value : Option α) : value.toList.length ≤ 1 := by
  cases value <;> simp

/-- No option is given more than once by a command but those that may be: all others are
kept in one optional value each. -/
theorem Command.length_values_le (single : flag.arity ≠ .repeated) :
    (command.values flag).length ≤ 1 := by
  have call (call : CallFlags) : (call.values flag).length ≤ 1 := by
    cases flag with
    | header => exact absurd rfl single
    | expect => exact absurd rfl single
    | output => exact length_toList_le _
    | timeout => exact length_toList_le _
    | _ => exact Nat.zero_le 1
  have sending (body : BodyFlags) (options : CallFlags) :
      (body.values flag ++ options.values flag).length ≤ 1 := by
    by_cases inside : flag ∈ bodyFlags
    · have outside : flag ∉ callFlags := by
        revert inside
        cases flag <;> decide
      rw [options.values_eq_nil outside, List.append_nil]
      cases flag with
      | data => exact length_toList_le _
      | dataFile => exact length_toList_le _
      | contentType => exact length_toList_le _
      | _ => exact Nat.zero_le 1
    · rw [body.values_eq_nil inside, List.nil_append]
      exact call options
  cases command with
  | get path accept options =>
    rw [values]
    split_ifs with own
    · rw [options.values_eq_nil (own ▸ by decide), List.append_nil]
      exact length_toList_le accept
    · exact call options
  | delete path options => exact call options
  | post path body options => exact sending body options
  | put path body options => exact sending body options
  | patch path body options => exact sending body options
  | request method path body options => exact sending body options
  | login => exact Nat.zero_le 1

theorem not_mem_globalFlags (own : flag ∈ bodyFlags ++ callFlags) : flag ∉ globalFlags := by
  revert own
  cases flag <;> decide

theorem Invocation.values_of_own (own : flag ∉ globalFlags) :
    invocation.values flag = (invocation.command.values flag).map some := by
  cases flag <;> first | rfl | exact absurd (by decide) own

theorem hasValue_of_mem_ownFlags {name : Name} (own : flag ∈ name.ownFlags) :
    flag.hasValue = true := by
  revert own
  cases name <;> cases flag <;> decide

/-- What an invocation gives for an option is known to its command, and has a value exactly
if the option needs one. -/
theorem Invocation.mem_flags (given : value ∈ invocation.values flag) :
    flag ∈ invocation.command.name.ownFlags ++ globalFlags ∧ flag.hasValue = value.isSome := by
  by_cases all : flag ∈ globalFlags
  · refine ⟨List.mem_append_right _ all, ?_⟩
    have switch {on : Bool} (given : value ∈ if on then [none] else []) : value = none := by
      split_ifs at given
      · exact List.mem_singleton.mp given
      · cases given
    cases flag with
    | config =>
      obtain ⟨text, -, rfl⟩ := List.mem_map.mp given
      rfl
    | profile =>
      obtain ⟨text, -, rfl⟩ := List.mem_map.mp given
      rfl
    | curl => rw [switch given]; rfl
    | quiet => rw [switch given]; rfl
    | verbose => rw [switch given]; rfl
    | _ => exact absurd all (by decide)
  · rw [values_of_own all] at given
    obtain ⟨text, listed, rfl⟩ := List.mem_map.mp given
    have own := Command.mem_ownFlags listed
    exact ⟨List.mem_append_left _ own, hasValue_of_mem_ownFlags own⟩

theorem Invocation.length_values_le (flag : Flag) :
    flag.arity = .repeated ∨ (invocation.values flag).length ≤ 1 := by
  by_cases single : flag.arity = .repeated
  · exact Or.inl single
  · refine Or.inr ?_
    have switch (on : Bool) : (if on then [none] else [] : List (Option String)).length ≤ 1 := by
      cases on <;> simp
    cases flag with
    | config => exact (List.length_map ..).trans_le (length_toList_le _)
    | profile => exact (List.length_map ..).trans_le (length_toList_le _)
    | curl => exact switch _
    | quiet => exact switch _
    | verbose => exact switch _
    | _ => exact (List.length_map ..).trans_le (Command.length_values_le single)

namespace Command

theorem readStatus_of_readInteger {value : Int} (read : readInteger text.toList = some value)
    (fits : 0 ≤ value ∧ value < 0x10000) : readStatus text = some value.toNat := by
  unfold readStatus
  rw [read]
  simp only [Option.bind_eq_bind, Option.bind_some, if_pos fits]

/-- A number that fits is read from its digits. It need not be a status: that is looked at
later. -/
theorem readStatus_toString {code : Nat} (fits : code < 0x10000) :
    readStatus (toString code) = some code := by
  have digits : (toString code).toList = Nat.toDigits 10 code := String.toList_ofList
  have read : readInteger (toString code).toList = some (code : Int) := by
    rw [digits]
    unfold readInteger
    split
    · rename_i same
      exact absurd same (toDigits_ne_cons (by decide) code _)
    · rename_i same
      exact absurd same (toDigits_ne_cons (by decide) code _)
    · rw [readDigits_toDigits, Option.map_some]
      rfl
  have bounds : 0 ≤ (code : Int) ∧ (code : Int) < 0x10000 :=
    ⟨Int.natCast_nonneg code, by omega⟩
  rw [readStatus_of_readInteger read bounds, Int.toNat_natCast]

end Command

/-- The values of a valid invocation pass the check of their option. -/
theorem Invocation.Valid.check_eq_ok (valid : invocation.Valid)
    (given : some text ∈ invocation.values flag) : flag.check text = .ok () := by
  have own (outside : flag ∉ globalFlags) : text ∈ invocation.command.values flag := by
    rw [values_of_own outside] at given
    obtain ⟨_, inside, same⟩ := List.mem_map.mp given
    exact Option.some.inj same ▸ inside
  have filled {value : Option String} (inside : text ∈ value.toList) (other : value ≠ some "") :
      text.isEmpty ≠ true := by
    intro empty
    rw [String.isEmpty_iff] at empty
    exact other (empty ▸ Option.mem_toList.mp inside)
  cases flag with
  | config =>
    obtain ⟨_, inside, same⟩ := List.mem_map.mp given
    rw [Option.some.inj same] at inside
    exact if_neg (filled inside valid.config)
  | dataFile =>
    obtain ⟨body, call, sends, inside⟩ := Command.mem_values_bodyFlags (by decide) (own (by decide))
    exact if_neg (filled inside (valid.dataFile body call sends))
  | expect =>
    obtain ⟨call, known, inside⟩ := Command.mem_values_callFlags (by decide) (own (by decide))
    obtain ⟨code, listed, rfl⟩ := List.mem_map.mp inside
    have read := Command.readStatus_toString (valid.expected call known code listed)
    exact if_pos (by rw [read]; rfl)
  | timeout =>
    obtain ⟨call, known, inside⟩ := Command.mem_values_callFlags (by decide) (own (by decide))
    obtain ⟨seconds, limit, rfl⟩ := Option.map_eq_some_iff.mp (Option.mem_toList.mp inside)
    have read := Command.readSeconds_toDigits (valid.timeout call known seconds limit)
    exact if_pos (Option.isSome_iff_exists.mpr ⟨seconds, read⟩)
  | _ => rfl

end Values

end PlatformClient
