import PlatformClient.Call.Progress
import PlatformClient.Files.Fault
import PlatformClient.Http.Exchange
import PlatformClient.Login.Error

namespace PlatformClient

inductive LogLevel where
  | info
  | warning
  | error
  deriving DecidableEq, Repr

/-- What a request is sent for. -/
inductive Purpose where
  | call
  | token
  deriving DecidableEq, Repr

/-- Why something that may wait for the remote side came to nothing. An interruption
is told apart from a failure, since only the call knows what to make of it. -/
inductive Halt (ε : Type) where
  | failed (error : ε)
  | interrupted (why : Http.Interruption)
  deriving DecidableEq, Repr

/-- What can be seen of a call besides its result, in the order in which it happens.
The effect on files is not among these; it shows in the files. -/
inductive Event where
  | progress (event : ProgressEvent)
  | log (level : LogLevel) (message : String)
  /-- A command that repeats a request. -/
  | command (text : String)
  | loginBegun
  /-- A login is over. It has come to nothing where there is a reason for that. -/
  | loginEnded (halt : Option (Halt LoginError))
  | exchange (purpose : Purpose) (request : Http.Request) (reply : Http.Reply)
  deriving DecidableEq, Repr

/-- One step of a program that the surroundings take part in. A profile may be
shared by several programs, and each step on it is indivisible. Between two steps
the others may take theirs. -/
inductive Effect where
  | readProfile
  | storeToken (token : String)
  | send (purpose : Purpose) (request : Http.Request)
  /-- Obtains a token from elsewhere. -/
  | askForToken
  | readFile (path : String)
  | writeFile (path : String) (content : Bytes)
  | record (event : Event)
  deriving DecidableEq, Repr

/-- A step that leaves the course of a call to others: it sends no request of a
call, shows no command, tells the indicator of progress nothing and neither begins
nor ends a login. A login may take all steps of this kind and no others. -/
def Effect.isIncidental : Effect → Bool
  | .send purpose _ => purpose = .token
  | .record (.log ..) => true
  | .record _ => false
  | _ => true

/-- What a step gives. -/
abbrev Effect.Outcome : Effect → Type
  | .readProfile => Profile
  | .storeToken _ => Unit
  | .send .. => Http.Reply
  | .askForToken => Except (Halt LoginError) String
  | .readFile _ => Except Files.Fault Bytes
  | .writeFile .. => Except Files.Fault Unit
  | .record _ => Unit

/-- A computation in steps: it is done, or it performs one step and goes on with
what that gives. What the surroundings are is left open, so that one program can be
run alone or among others. -/
inductive Program (α : Type) where
  | done (value : α)
  | perform (effect : Effect) (next : effect.Outcome → Program α)

namespace Program

def bind {α β : Type} (program : Program α) (next : α → Program β) : Program β :=
  match program with
  | .done value => next value
  | .perform effect rest => .perform effect fun outcome => (rest outcome).bind next

instance : Monad Program where
  pure := .done
  bind := bind

theorem bind_done {α : Type} (program : Program α) : program.bind .done = program := by
  induction program with
  | done value => rfl
  | perform effect rest ih => simp only [bind, ih]

theorem bind_assoc {α β γ : Type} (program : Program α) (f : α → Program β)
    (g : β → Program γ) : (program.bind f).bind g = program.bind fun value => (f value).bind g := by
  induction program with
  | done value => rfl
  | perform effect rest ih => simp only [bind, ih]

instance : LawfulMonad Program :=
  .mk' Program bind_done (fun _ _ => rfl) bind_assoc

def step (effect : Effect) : Program effect.Outcome := .perform effect .done

def readProfile : Program Profile := step .readProfile

def storeToken (token : String) : Program Unit := step (.storeToken token)

def send (purpose : Purpose) (request : Http.Request) : Program Http.Reply :=
  step (.send purpose request)

def askForToken : Program (Except (Halt LoginError) String) := step .askForToken

def readFile (path : String) : Program (Except Files.Fault Bytes) := step (.readFile path)

def writeFile (path : String) (content : Bytes) : Program (Except Files.Fault Unit) :=
  step (.writeFile path content)

def record (event : Event) : Program Unit := step (.record event)

def log (level : LogLevel) (message : String) : Program Unit := record (.log level message)

/-- A program that takes steps of one kind only, whatever they give. The
surroundings need not be any that exist, so this can be known of a program before it
is run. -/
inductive Uses {α : Type} (allowed : Effect → Prop) : Program α → Prop
  | done (value : α) : Uses allowed (.done value)
  | perform {effect : Effect} {next : effect.Outcome → Program α} (kind : allowed effect)
      (rest : ∀ outcome, Uses allowed (next outcome)) : Uses allowed (.perform effect next)

theorem uses_step {allowed : Effect → Prop} {effect : Effect} (kind : allowed effect) :
    (step effect).Uses allowed := .perform kind fun outcome => .done outcome

theorem Uses.bind {α β : Type} {allowed : Effect → Prop} {program : Program α}
    {next : α → Program β} (first : program.Uses allowed)
    (later : ∀ value, (next value).Uses allowed) : (program >>= next).Uses allowed := by
  induction first with
  | done value => exact later value
  | perform kind _ ih => exact .perform kind ih

end Program

/-- A program that may fail. -/
abbrev Attempt (ε α : Type) := ExceptT ε Program α

namespace Attempt

theorem uses_result {ε α : Type} {allowed : Effect → Prop} (result : Except ε α) :
    (ExceptT.mk (pure result) : Attempt ε α).run.Uses allowed := .done result

theorem uses_lift {ε α : Type} {allowed : Effect → Prop} {program : Program α}
    (uses : program.Uses allowed) : (liftM program : Attempt ε α).run.Uses allowed :=
  uses.bind fun value => .done (Except.ok value)

theorem uses_bind {ε α β : Type} {allowed : Effect → Prop} {attempt : Attempt ε α}
    {next : α → Attempt ε β} (first : attempt.run.Uses allowed)
    (later : ∀ value, (next value).run.Uses allowed) : (attempt >>= next).run.Uses allowed := by
  rw [ExceptT.run_bind]
  refine first.bind fun result => ?_
  cases result with
  | ok value => exact later value
  | error error => exact .done (Except.error error)

end Attempt

end PlatformClient
