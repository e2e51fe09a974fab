namespace PlatformClient

/-- What the indicator of progress is told. -/
inductive ProgressEvent where
  | start (label : String)
  | stop (success : Bool)
  | hidden
  deriving DecidableEq, Repr

/-- How one run of the indicator ends: with a result, without a trace, or because
what it stands for was given up. The last is what becomes of a run that no one has
ended. -/
inductive ProgressEnding where
  | finished (success : Bool)
  | hidden
  | dropped
  deriving DecidableEq, Repr

namespace ProgressEnding

/-- What has been given up is shown as a failure, so that no run stays on the
screen. -/
def event : ProgressEnding → ProgressEvent
  | .finished success => .stop success
  | .hidden => .hidden
  | .dropped => .stop false

/-- What the indicator is told in one run. -/
def session (label : String) (ending : ProgressEnding) : List ProgressEvent :=
  [.start label, ending.event]

end ProgressEnding

end PlatformClient
