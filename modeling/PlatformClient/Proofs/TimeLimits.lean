import PlatformClient.Command.Reader
import PlatformClient.Proofs.RefusedInput

namespace PlatformClient

/-- The clock cannot hold the time at which a call that begins now is to be given up.
Without a time limit there is no such time. -/
def CallFlags.Overruns (now : Nat) (call : CallFlags) : Prop :=
  ∃ seconds, call.timeout = some seconds ∧ clockLimit ≤ now + seconds

theorem CallFlags.clockFaults_eq_nil_iff {now : Nat} {call : CallFlags} :
    call.clockFaults now = [] ↔ ¬ call.Overruns now := by
  unfold clockFaults Overruns
  cases call.timeout with
  | none => simp
  | some seconds => simp

theorem CallFlags.head?_clockFaults_iff {now : Nat} {call : CallFlags} {error : OptionsError} :
    (call.clockFaults now).head? = some error ↔ error = .beyondClock ∧ call.Overruns now := by
  unfold clockFaults Overruns
  cases call.timeout with
  | none => simp
  | some seconds =>
    dsimp only
    split_ifs with beyond
    · simp [beyond, eq_comm]
    · simp [beyond]

namespace Command

section Numbers

theorem readDigits_toDigits (n : Nat) : readDigits (Nat.toDigits 10 n) = some n := by
  have digits : (Nat.toDigits 10 n).all Char.isDigit = true := List.all_eq_true.mpr fun _ inside =>
    Nat.isDigit_of_mem_toDigits (by decide) (by decide) inside
  have value : Nat.ofDigitChars 10 (Nat.toDigits 10 n) 0 = n := Nat.ofDigitChars_ten_toDigits
  rw [Nat.ofDigitChars_eq_foldl] at value
  rw [readDigits, if_pos ⟨by simp, digits⟩]
  simp only [mul_comm _ 10, value]

/-- What is written of a number begins with no sign. -/
theorem toDigits_ne_cons {c : Char} (other : c.isDigit = false) (n : Nat) (cs : List Char) :
    Nat.toDigits 10 n ≠ c :: cs := by
  intro same
  have inside : c ∈ Nat.toDigits 10 n := same ▸ List.mem_cons_self
  have digit := Nat.isDigit_of_mem_toDigits (by decide) (by decide) inside
  rw [other] at digit
  cases digit

theorem readSeconds_toDigits {n : Nat} (fits : n < 0x10000000000000000) :
    readSeconds (String.ofList (Nat.toDigits 10 n)) = some n := by
  rw [readSeconds, String.toList_ofList]
  split
  · rename_i cs same
    exact absurd same (toDigits_ne_cons (by decide) n cs)
  · rw [readDigits_toDigits]
    exact if_pos fits

theorem lt_of_readSeconds {text : String} {seconds : Nat} (read : readSeconds text = some seconds) :
    seconds < 0x10000000000000000 := by
  have limited : ∀ value : Nat, (if value < 0x10000000000000000 then some value else none) =
      some seconds → seconds < 0x10000000000000000 := by
    intro value given
    split_ifs at given with fits
    exact Option.some.inj given ▸ fits
  unfold readSeconds at read
  split at read
  all_goals
    obtain ⟨value, -, given⟩ := Option.bind_eq_some_iff.mp read
    exact limited value given

/-- A number of seconds can be given where it fits into 64 bits: its digits are then a text
for it. There are others, with a sign or with zeros in front. -/
theorem exists_readSeconds_iff {seconds : Nat} :
    (∃ text, readSeconds text = some seconds) ↔ seconds < 0x10000000000000000 :=
  ⟨fun ⟨_, read⟩ => lt_of_readSeconds read, fun fits => ⟨_, readSeconds_toDigits fits⟩⟩

end Numbers

/-- What comes of the flags of a call at some second of the clock: options, a refusal, or
neither, where the clock is overrun. -/
structure OptionsOutcome (quiet : Bool) (now : Nat) (call : CallFlags) : Prop where
  /-- The first fault counts, whatever the clock can hold. -/
  refused_iff : ∀ error,
    callOptions call quiet now = .error (.input error) ↔ call.faults.head? = some error
  made_iff : (∃ options, callOptions call quiet now = .ok options) ↔
    call.faults = [] ∧ ¬ call.Overruns now
  beyond_iff : callOptions call quiet now = .error .beyondClock ↔
    call.faults = [] ∧ call.Overruns now
  /-- All numbers of 64 bits can be given, and half of them are beyond the clock at any time. -/
  given : ∀ seconds, (∃ text, readSeconds text = some seconds) ↔ seconds < 2 * clockLimit

/-- The three ends exclude each other and there is no fourth. The clock is asked last, when
nothing else is wrong with the flags, so the conditions are read off one list of faults to
which the fault of the clock is appended. -/
theorem call_options_outcome (quiet : Bool) (now : Nat) (call : CallFlags) :
    OptionsOutcome quiet now call := by
  have refused : RefusedFor (callOptions call quiet now) _ := refusedFor_callOptions_clock call
  have input (error : InputError) :
      callOptions call quiet now = .error (.input error) ↔ call.faults.head? = some error := by
    rw [refused.error_iff, List.head?_append, List.head?_map, Option.or_eq_some_iff]
    simp [CallFlags.head?_clockFaults_iff]
  have beyond : callOptions call quiet now = .error .beyondClock ↔
      call.faults = [] ∧ call.Overruns now := by
    rw [refused.error_iff, List.head?_append, List.head?_map, Option.or_eq_some_iff]
    simp [CallFlags.head?_clockFaults_iff]
  refine ⟨input, ?_, beyond, ?_⟩
  · rw [refused.ok_iff, List.append_eq_nil_iff, List.map_eq_nil_iff, CallFlags.clockFaults_eq_nil_iff]
  · intro seconds
    exact exists_readSeconds_iff

/-- The highest number of seconds that can be given is too much for a clock at its very
start, and so at any later time. -/
theorem call_options_overrun :
    read ["get", "/x", "--timeout", "18446744073709551615"] = .ok
      { command := .get "/x" none { timeout := some 18446744073709551615 } } ∧
    callOptions { timeout := some 18446744073709551615 } false 0 = .error .beyondClock := by
  decide +kernel

end Command

end PlatformClient
