import PlatformClient.Call.Program
import PlatformClient.Files.Basic

namespace PlatformClient

/-- What the remote side does next, where there is one. A signal is no answer but
reaches this process instead, while the request is on its way. -/
inductive RemoteStep where
  | answer (answer : Http.Answer)
  | signal
  deriving DecidableEq, Repr

/-- The other side of the connection: none at all, or one that takes the
requests that arrive one after the other. -/
inductive Remote where
  | unconnected
  | script (steps : List RemoteStep)
  /-- Exchanges end as arranged beforehand, those of calls apart from those for
  tokens, and wherever they go. -/
  | arranged (calls tokens : List Http.Reply)
  deriving DecidableEq, Repr

/-- How a login elsewhere ends. -/
inductive LoginStep where
  | token (text : String)
  | failure (error : LoginError)
  | silence (ending : Http.Interruption)
  deriving DecidableEq, Repr

/-- The surroundings of a program, and what has been seen of it so far. Events and
deliveries only grow, and nothing that a program does depends on them. -/
structure World where
  profile : Profile
  files : Files
  remote : Remote := .unconnected
  logins : List LoginStep := []
  events : List Event := []
  deliveries : List Http.Delivery := []
  deriving DecidableEq, Repr

namespace World

def record (world : World) (event : Event) : World :=
  { world with events := world.events ++ [event] }

/-- What a login elsewhere gives when no more are prepared. -/
def noLoginLeft : LoginError := .invalidResponse "no token scripted"

def signalMessage : String := "Interrupted, cancelling the call in flight"

/-- Lets a request arrive at the remote side, which takes its next step. Where it
has none left, the connection is lost. -/
def deliver (world : World) (request : Http.Request) (steps : List RemoteStep) :
    Http.Reply × World :=
  let world := { world with deliveries := world.deliveries ++ [request.deliver] }
  match steps with
  | [] => (.lost, world)
  | .answer answer :: rest => (answer.reply request.method, { world with remote := .script rest })
  | .signal :: rest =>
    (.interrupted .cancelled,
      { world with remote := .script rest }.record (.log .warning signalMessage))

/-- Lets an exchange end with the next of the replies that are arranged. -/
def arrangedReply (world : World) (calls tokens : List Http.Reply) :
    Purpose → Http.Reply × World
  | .call => (calls.headD .lost, { world with remote := .arranged calls.tail tokens })
  | .token => (tokens.headD .lost, { world with remote := .arranged calls tokens.tail })

/-- Sends a request. Unless the replies are arranged, no secured connection comes
about, and some addresses cannot be sent to at all. An exchange that does not come
about takes no step of the remote side. -/
def send (world : World) (purpose : Purpose) (request : Http.Request) : Http.Reply × World :=
  match world.remote with
  | .arranged calls tokens => world.arrangedReply calls tokens purpose
  | .unconnected => (if request.url.isReachable then .lost else .unsendable, world)
  | .script steps =>
    if ¬ request.url.isReachable then (.unsendable, world)
    else if request.url.scheme = "https" then (.lost, world)
    else world.deliver request steps

def takeLogin (world : World) : Except (Halt LoginError) String × World :=
  match world.logins with
  | [] => (.error (.failed noLoginLeft), world)
  | .token text :: rest => (.ok text, { world with logins := rest })
  | .failure error :: rest => (.error (.failed error), { world with logins := rest })
  | .silence ending :: rest => (.error (.interrupted ending), { world with logins := rest })

/-- Takes part in one step of a program. A file that cannot be written is left as it
was. -/
def answer (world : World) : (effect : Effect) → effect.Outcome × World
  | .readProfile => (world.profile, world)
  | .storeToken token => ((), { world with profile := { world.profile with token := token } })
  | .send purpose request =>
    let (reply, after) := world.send purpose request
    (reply, after.record (.exchange purpose request reply))
  | .askForToken => world.takeLogin
  | .readFile path => (world.files.read path, world)
  | .writeFile path content =>
    match world.files.write path content with
    | .error fault => (.error fault, world)
    | .ok files => (.ok (), { world with files := files })
  | .record event => ((), world.record event)

/-- Runs a program to its end, where no one else takes part. -/
def run {α : Type} (world : World) : Program α → α × World
  | .done value => (value, world)
  | .perform effect next =>
    let (outcome, world) := world.answer effect
    world.run (next outcome)

theorem run_bind {α β : Type} (world : World) (program : Program α) (next : α → Program β) :
    world.run (program >>= next) = (world.run program).2.run (next (world.run program).1) := by
  induction program generalizing world with
  | done value => rfl
  | perform effect rest ih => exact ih (world.answer effect).1 (world.answer effect).2

end World

end PlatformClient
