import PlatformClient.Proofs.CommandPlans
import PlatformClient.Proofs.TextParts
import PlatformClient.Proofs.TokenPersistence

namespace PlatformClient

section Order

variable {ε ε' α β σ : Type}

/-- A result is refused for the first of some faults, and not refused where there is none.
The list tells more than the result does: all that is at fault, and in which order it is
looked at. -/
def RefusedFor : Except ε α → List ε → Prop
  | .ok _, faults => faults = []
  | .error error, faults => faults.head? = some error

theorem RefusedFor.error_iff {result : Except ε α} {faults : List ε}
    (refused : RefusedFor result faults) {error : ε} :
    result = .error error ↔ faults.head? = some error := by
  cases result with
  | ok value =>
    rw [show faults = [] from refused]
    exact ⟨nofun, nofun⟩
  | error first =>
    rw [show faults.head? = some first from refused]
    exact ⟨fun same => by cases same; rfl, fun same => by cases same; rfl⟩

theorem RefusedFor.ok_iff {result : Except ε α} {faults : List ε}
    (refused : RefusedFor result faults) : (∃ value, result = .ok value) ↔ faults = [] := by
  cases result with
  | ok value => exact iff_of_true ⟨value, rfl⟩ refused
  | error first =>
    refine iff_of_false nofun fun none => ?_
    rw [none] at refused
    cases refused

/-- What is looked at later has a say only where nothing is refused before. So the faults of
two parts in a row are put in a row. -/
theorem RefusedFor.bind {result : Except ε α} {next : α → Except ε β} {faults others : List ε}
    (refused : RefusedFor result faults) (later : ∀ value, RefusedFor (next value) others) :
    RefusedFor (result >>= next) (faults ++ others) := by
  cases result with
  | ok value =>
    rw [show faults = [] from refused]
    exact later value
  | error first =>
    obtain ⟨rest, rfl⟩ : ∃ rest, faults = first :: rest := List.head?_eq_some_iff.mp refused
    exact rfl

theorem RefusedFor.map {result : Except ε α} {faults : List ε} (refused : RefusedFor result faults)
    (f : α → β) : RefusedFor (result.map f) faults := by
  cases result with
  | ok value => exact refused
  | error first => exact refused

theorem RefusedFor.mapError {result : Except ε α} {faults : List ε}
    (refused : RefusedFor result faults) (f : ε → ε') :
    RefusedFor (result.mapError f) (faults.map f) := by
  cases result with
  | ok value =>
    rw [show faults = [] from refused]
    exact rfl
  | error first =>
    obtain ⟨rest, rfl⟩ : ∃ rest, faults = first :: rest := List.head?_eq_some_iff.mp refused
    exact rfl

/-- Of several that are looked at in order, the first that is at fault counts. What has been
gathered until then makes no difference. -/
theorem RefusedFor.foldlM {step : σ → α → Except ε σ} {faults : α → List ε}
    (each : ∀ state value, RefusedFor (step state value) (faults value)) (list : List α)
    (start : σ) : RefusedFor (list.foldlM step start) (list.flatMap faults) := by
  induction list generalizing start with
  | nil => exact rfl
  | cons value rest ih =>
    rw [List.foldlM_cons, List.flatMap_cons]
    exact (each start value).bind ih

theorem RefusedFor.mapM {f : α → Except ε β} {faults : α → List ε}
    (each : ∀ value, RefusedFor (f value) (faults value)) (list : List α) :
    RefusedFor (list.mapM f) (list.flatMap faults) := by
  induction list with
  | nil => exact rfl
  | cons value rest ih =>
    rw [List.mapM_cons, List.flatMap_cons]
    exact (each value).bind fun first => ih.map (first :: ·)

end Order

/-- Case decides nothing about the characters of a token. -/
theorem Http.isTokenChar_toUpper (c : Char) : Http.isTokenChar c.toUpper = Http.isTokenChar c := by
  by_cases ascii : c.toNat < 0x80
  · exact Text.forall_ascii (by decide +kernel) ascii
  · rw [Text.toUpper_of_not_ascii ascii]

/-- A text states a header where a name that is not blank stands in front of the first equals
sign. -/
def statesHeader (text : String) : Bool :=
  text.toList.contains '=' && (text.toList.takeWhile (· != '=')).any (!Text.isBlank ·)

/-- A text can name a method. -/
def namesMethod (text : String) : Bool :=
  !text.toList.isEmpty && text.toList.all Http.isTokenChar

/-- A number is that of a status. -/
def isStatus (code : Nat) : Bool := 100 ≤ code && code < 1000

def headerFaults (text : String) : List InputError :=
  if statesHeader text then [] else [.header text]

def statusFaults (code : Nat) : List InputError := if isStatus code then [] else [.status code]

def methodFaults (text : String) : List InputError :=
  if namesMethod text then [] else [.method text]

/-- What is wrong with the headers that are given, and with the statuses that are expected. -/
def CallFlags.faults (call : CallFlags) : List InputError :=
  call.headers.flatMap headerFaults ++ call.expected.flatMap statusFaults

/-- The clock cannot hold the end of a call that begins at some second of it. -/
def CallFlags.clockFaults (now : Nat) (call : CallFlags) : List OptionsError :=
  match call.timeout with
  | some seconds => if clockLimit ≤ now + seconds then [.beyondClock] else []
  | none => []

/-- What is wrong with what is to be sent: bytes without a type have to be a document. -/
def BodyFlags.contentFaults (body : BodyFlags) (content : Bytes) : List InputError :=
  if body.contentType.isSome then [] else
    match Json.read content with
    | .ok _ => []
    | .error error => [.body error]

def BodyFlags.faults (files : Files) (body : BodyFlags) : List InputError :=
  match body.data, body.dataFile with
  | some data, _ => body.contentFaults (Text.encode data)
  | none, some path =>
    match files.read path with
    | .error fault => [.dataFile path fault]
    | .ok content => body.contentFaults content
  | none, none => []

/-- All that is wrong with the input of a command, where the files are these. -/
def Command.faults (files : Files) : Command → List InputError
  | .get _ _ call => call.faults
  | .delete _ call => call.faults
  | .post _ body call => call.faults ++ body.faults files
  | .put _ body call => call.faults ++ body.faults files
  | .patch _ body call => call.faults ++ body.faults files
  | .request method _ body call => methodFaults method ++ (call.faults ++ body.faults files)
  | .login => []

namespace Command

/-- A text is refused as a header where it has no equals sign, or nothing but blanks in
front of it. What is behind the sign is always accepted here. -/
theorem refusedFor_readHeader (text : String) : RefusedFor (readHeader text) (headerFaults text) := by
  unfold readHeader headerFaults
  cases split : Text.splitFirst '=' text.toList with
  | none =>
    have absent : statesHeader text = false := by
      rw [statesHeader, Bool.and_eq_false_iff]
      refine Or.inl (Bool.eq_false_iff.mpr fun equals => ?_)
      obtain ⟨name, value, joined, absent⟩ :=
        List.eq_append_cons_of_mem (List.contains_iff_mem.mp equals)
      rw [joined, Text.splitFirst_append absent] at split
      cases split
    rw [absent]
    exact rfl
  | some found =>
    obtain ⟨name, value⟩ := found
    obtain ⟨joined, absent⟩ := Text.splitFirst_eq_some_iff.mp split
    have front : text.toList.takeWhile (· != '=') = name := by
      have inside : ∀ c ∈ name, (c != '=') = true := by
        intro c member
        exact bne_iff_ne.mpr fun same => absent (same ▸ member)
      rw [joined, List.takeWhile_append_of_pos inside]
      simp
    have states : statesHeader text = true ↔ ¬ Text.trimChars name = [] := by
      rw [statesHeader, front, Text.trimChars_eq_nil_iff, joined]
      simp
    dsimp only
    by_cases blank : Text.trimChars name = []
    · rw [if_pos (List.isEmpty_iff.mpr blank), if_neg (not_not_intro blank ∘ states.mp)]
      exact rfl
    · rw [if_neg (by simpa using blank), if_pos (states.mpr blank)]
      exact rfl

theorem refusedFor_readStatuses (codes : List Nat) :
    RefusedFor (readStatuses codes) (codes.flatMap statusFaults) := by
  refine .mapM (fun code => ?_) codes
  have valid_iff : isStatus code = true ↔ 100 ≤ code ∧ code < 1000 := by simp [isStatus]
  unfold Http.Status.ofNat? statusFaults
  by_cases valid : 100 ≤ code ∧ code < 1000
  · rw [dif_pos valid, if_pos (valid_iff.mpr valid)]
    exact rfl
  · rw [dif_neg valid, if_neg (valid ∘ valid_iff.mp)]
    exact rfl

theorem refusedFor_readMethod (text : String) : RefusedFor (readMethod text) (methodFaults text) := by
  have names : namesMethod text = true ↔ ¬ (text.toList.map Char.toUpper).isEmpty ∧
      (text.toList.map Char.toUpper).all Http.isTokenChar := by
    simp [namesMethod, Http.isTokenChar_toUpper]
  unfold readMethod Http.Method.ofString? methodFaults
  rw [String.toList_ofList]
  by_cases named : namesMethod text = true
  · rw [if_pos (names.mp named), if_pos named]
    exact rfl
  · rw [if_neg (named ∘ names.mpr), if_neg named]
    exact rfl

theorem refusedFor_readHeaders (texts : List String) :
    RefusedFor (readHeaders texts) (texts.flatMap headerFaults) :=
  .foldlM (fun _ text => (refusedFor_readHeader text).map _) texts []

theorem refusedFor_bodyOf (body : BodyFlags) (content : Bytes) :
    RefusedFor (bodyOf body content) (body.contentFaults content) := by
  unfold bodyOf BodyFlags.contentFaults
  split_ifs
  · exact rfl
  · cases Json.read content <;> exact rfl

theorem refusedFor_contentIn (files : Files) (body : BodyFlags) :
    RefusedFor (body.contentIn files) (body.faults files) := by
  unfold BodyFlags.contentIn BodyFlags.faults
  cases body.data with
  | some data => exact (refusedFor_bodyOf body _).map some
  | none =>
    cases body.dataFile with
    | none => exact rfl
    | some path =>
      dsimp only
      cases files.read path with
      | error fault => exact rfl
      | ok content => exact (refusedFor_bodyOf body content).map some

section Plans

variable {quiet : Bool} {now : Nat}

/-- The flags are looked at before the clock. -/
theorem refusedFor_callOptions_clock (call : CallFlags) :
    RefusedFor (callOptions call quiet now)
      (call.faults.map OptionsError.input ++ call.clockFaults now) := by
  unfold callOptions CallFlags.faults CallFlags.clockFaults
  rw [List.map_append, List.append_assoc]
  refine ((refusedFor_readHeaders call.headers).mapError OptionsError.input).bind fun headers => ?_
  refine ((refusedFor_readStatuses call.expected).mapError OptionsError.input).bind fun expected => ?_
  cases call.timeout with
  | none => exact rfl
  | some seconds =>
    dsimp only
    split_ifs <;> exact rfl

/-- Where the clock can hold the end of a call, nothing but its flags is refused. -/
theorem refusedFor_callOptions {call : CallFlags}
    (clock : ∀ seconds, call.timeout = some seconds → now + seconds < clockLimit) :
    RefusedFor (callOptions call quiet now) (call.faults.map OptionsError.input) := by
  have held : call.clockFaults now = [] := by
    unfold CallFlags.clockFaults
    cases limit : call.timeout with
    | none => rfl
    | some seconds => exact if_neg (Nat.not_le.mpr (clock seconds limit))
  have read : RefusedFor (callOptions call quiet now) _ := refusedFor_callOptions_clock call
  rwa [held, List.append_nil] at read

theorem refusedFor_planWithBody (files : Files) (method : Http.Method) (path : String)
    (body : BodyFlags) {call : CallFlags}
    (clock : ∀ seconds, call.timeout = some seconds → now + seconds < clockLimit) :
    RefusedFor (planWithBody quiet now files method path body call)
      ((call.faults ++ body.faults files).map OptionsError.input) := by
  unfold planWithBody
  rw [List.map_append]
  refine (refusedFor_callOptions clock).bind fun options => ?_
  exact ((refusedFor_contentIn files body).mapError OptionsError.input).map _

/-- A command is refused for the first fault of its input. The method is looked at first,
then the flags, and then what is to be sent, which is why the faults are listed in this
order. -/
theorem refusedFor_plan? (files : Files) {command : Command} (clock : command.OnClock now) :
    RefusedFor (command.plan? quiet now files) ((command.faults files).map OptionsError.input) := by
  cases command with
  | get path accept call => exact (refusedFor_callOptions (clock call · rfl)).map _
  | delete path call => exact (refusedFor_callOptions (clock call · rfl)).map _
  | post path body call => exact refusedFor_planWithBody files _ path body (clock call · rfl)
  | put path body call => exact refusedFor_planWithBody files _ path body (clock call · rfl)
  | patch path body call => exact refusedFor_planWithBody files _ path body (clock call · rfl)
  | request method path body call =>
    unfold plan? faults
    rw [List.map_append]
    exact ((refusedFor_readMethod method).mapError OptionsError.input).bind fun verb =>
      refusedFor_planWithBody files verb path body (clock call · rfl)
  | login => exact rfl

end Plans

section Runs

variable {client : Client} {world : World} {quiet : Bool} {now : Nat} {command : Command}
  {error : InputError}

theorem plan?_eq_input_iff (files : Files) (clock : command.OnClock now) :
    command.plan? quiet now files = .error (.input error) ↔
      (command.faults files).head? = some error := by
  rw [(refusedFor_plan? files clock).error_iff, List.head?_map]
  simp

theorem present_ne_input (presentation : Presentation) (result : Except CallError Payload) :
    presentation.present result ≠ .error (.input error) := by
  have called {α : Type} (given : Except CallError α) (text? : α → Option String) :
      (given.mapError CommandError.call).map text? ≠ .error (.input error) := by
    cases given <;> nofun
  cases presentation with
  | document => exact called _ _
  | payload => exact called _ _
  | nothing => exact called _ _

/-- A command fails by its input where it stands for nothing that can be done. It has then
read files at most, and everything is as it was. No other failure of a command is counted as
one of its input. -/
theorem run_eq_input_iff :
    (world.run (command.run client quiet now)).1 = some (.error (.input error)) ↔
      command.plan? quiet now world.files = .error (.input error) := by
  have course := command.course client world quiet now
  generalize command.plan? quiet now world.files = planned at course
  cases course with
  | rejected run reads =>
    rw [run]
    simp
  | beyondClock run =>
    rw [run]
    simp
  | planned reading run steps reads =>
    rw [run]
    simp [present_ne_input]
  | @login halt result run steps ends =>
    rw [run]
    rcases halt with _ | failure | why
    · obtain ⟨text, rfl⟩ := ends
      simp
    · obtain rfl := ends
      simp
    · obtain rfl := ends
      simp

theorem idle_of_input
    (refused : (world.run (command.run client quiet now)).1 = some (.error (.input error))) :
    (world.run (command.run client quiet now)).2 = world ∧
      OnlyReads (world.steps (command.run client quiet now)) := by
  have course := command.course client world quiet now
  rw [run_eq_input_iff.mp refused] at course
  cases course with
  | rejected run reads =>
    rw [run]
    exact ⟨rfl, reads⟩

end Runs

end Command

namespace Launch

section Opening

variable {invocation : Invocation} {environment : Config.Environment} {world : World}
  (opening : Opening invocation environment world.files)

/-- Where the input of its command is refused, a run ends as it has begun. The token has not
changed, so that nothing is saved. -/
theorem runInvocation_refused {now : Nat} {profile : Profile} {url : Url} {error : InputError}
    (selected : opening.selected = .ok profile) (usable : profile.baseUrl = .ok url)
    (refused : (opening.commandEnd now profile).1 = some (.error (.input error))) :
    runInvocation invocation environment now world =
      (complaint CommandError.invalidInput error.message,
        { world with files := opening.files, profile := profile }) := by
  have idle : (opening.commandEnd now profile).2 =
      { world with files := opening.files, profile := profile } :=
    (Command.idle_of_input refused).1
  have written : ending (some (.error (.input error))) =
      complaint CommandError.invalidInput error.message := by
    unfold ending complaint Command.outcome CommandError.report
    simp [CommandError.problem?, CommandError.message, CommandError.exitCode]
  rw [opening.runInvocation_goes now selected usable, refused, idle, if_pos rfl, written]

/-- What becomes of a run whose input is refused, or that has no profile to use. Of all that
a run could do, it sends nothing, begins no login, writes no file and keeps no token. -/
structure RefusesInput (now : Nat) : Prop where
  /-- The first fault counts: in the method, then in the headers and in the statuses in the order
  given, then in the file for what is sent, and then in its document. -/
  first : ∀ (client : Client) (world : World) quiet error,
    (world.run (invocation.command.run client quiet now)).1 = some (.error (.input error)) ↔
      (invocation.command.faults world.files).head? = some error
  /-- Nothing is sent, no login begins, nothing is told to anyone, and nothing is changed. -/
  idle : ∀ (client : Client) (world : World) quiet error,
    (world.run (invocation.command.run client quiet now)).1 = some (.error (.input error)) →
      (world.run (invocation.command.run client quiet now)).2 = world ∧
        OnlyReads (world.steps (invocation.command.run client quiet now))
  unselected : ∀ error, opening.selected = .error error →
    runInvocation invocation environment now world =
      (complaint CommandError.invalidInput error.message, { world with files := opening.files })
  unusable : ∀ profile error, opening.selected = .ok profile → profile.baseUrl = .error error →
    runInvocation invocation environment now world =
      (complaint CommandError.failure error.message, { world with files := opening.files })
  refused : ∀ profile url error, opening.selected = .ok profile → profile.baseUrl = .ok url →
    (invocation.command.faults opening.files).head? = some error →
      runInvocation invocation environment now world =
        (complaint CommandError.invalidInput error.message,
          { world with files := opening.files, profile := profile })
  /-- Before that, directories may have been created, and nothing else. -/
  grown : world.files.Grown opening.files
  untouched : opening.Untouched opening.files

/-- A run refuses input before it does anything with it. What a command stands for is made
from its input first, and only if there is something to be done does the first step of a
call follow. -/
theorem refused_input {now : Nat} (clock : invocation.command.OnClock now) :
    RefusesInput opening now where
  first := fun client world quiet error =>
    Command.run_eq_input_iff.trans (Command.plan?_eq_input_iff world.files clock)
  idle := fun client world quiet error => Command.idle_of_input
  unselected := fun error known => by rw [opening.runInvocation_eq now, known]
  unusable := fun profile error selected known => by
    rw [opening.runInvocation_eq now, selected]
    dsimp only
    rw [known]
  refused := fun profile url error selected usable fault => by
    refine runInvocation_refused opening selected usable ?_
    exact Command.run_eq_input_iff.mpr ((Command.plan?_eq_input_iff _ clock).mpr fault)
  grown := opening.grown
  untouched := opening.untouched_files

end Opening

/-- A request of which hardly anything is right. -/
def faultyRequest : Invocation where
  command := .request "NO METHOD" "/x" { dataFile := some "missing.json" }
    { headers := ["A=b", "=c", "d"], expected := [404, 42] }

def faultyOpening : Opening faultyRequest inDirectory serviceWorld.files where
  path := serviceOpening.path
  files := serviceOpening.files
  config := serviceOpening.config
  found := serviceOpening.found
  loaded := serviceOpening.loaded

/-- Of all that is wrong with it, the method is named, and no login begins. -/
theorem refused_input_of_faulty :
    faultyRequest.command.faults faultyOpening.files =
        [.method "NO METHOD", .header "=c", .header "d", .status 42,
          .dataFile "missing.json" .missing] ∧
      runInvocation faultyRequest inDirectory 0 serviceWorld =
        (⟨3, "", "Error: invalid HTTP method \"NO METHOD\"\n"⟩,
          { serviceWorld with files := faultyOpening.files, profile := serviceProfile }) := by
  have faults : faultyRequest.command.faults faultyOpening.files =
      [.method "NO METHOD", .header "=c", .header "d", .status 42,
        .dataFile "missing.json" .missing] := by decide +kernel
  have clock : faultyRequest.command.OnClock 0 := by
    intro call seconds given limit
    cases given
    cases limit
  have usable : serviceProfile.baseUrl.isOk = true := by decide +kernel
  have written : complaint CommandError.invalidInput (InputError.method "NO METHOD").message =
      ⟨3, "", "Error: invalid HTTP method \"NO METHOD\"\n"⟩ := by decide +kernel
  have selected : faultyOpening.selected = .ok serviceProfile := rfl
  have first : (faultyRequest.command.faults faultyOpening.files).head? =
      some (.method "NO METHOD") := by
    rw [faults]
    rfl
  cases url : serviceProfile.baseUrl with
  | error error =>
    rw [url] at usable
    cases usable
  | ok base =>
    rw [← written]
    exact ⟨faults, (refused_input faultyOpening clock).refused serviceProfile base _ selected url first⟩

end Launch

end PlatformClient
