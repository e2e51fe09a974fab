import PlatformClient.Proofs.Surroundings

namespace PlatformClient

/-- The replies to the requests of one purpose. -/
def replies (purpose : Purpose) (steps : List Step) : List Http.Reply :=
  steps.filterMap fun
    | ⟨.send given _, reply⟩ => if given = purpose then some reply else none
    | _ => none

namespace World

/-- The other side gives these replies to a program, as far as it is asked. How it comes to
them is left open. -/
structure Follows {α : Type} (world : World) (program : Program α)
    (calls tokens : List Http.Reply) : Prop where
  calls : replies .call (world.steps program) <+: calls
  tokens : replies .token (world.steps program) <+: tokens

/-- Surroundings in which the replies of some steps are arranged, and more behind
them, and which are otherwise like the given ones. -/
structure Arranges (world other : World) (steps : List Step) (calls tokens : List Http.Reply) :
    Prop where
  profile : other.profile = world.profile
  files : other.files = world.files
  logins : other.logins = world.logins
  remote : other.remote =
    .arranged (replies .call steps ++ calls) (replies .token steps ++ tokens)

theorem deliver_logins (world : World) (request : Http.Request) (script : List RemoteStep) :
    (world.deliver request script).2.logins = world.logins := by
  unfold deliver
  split <;> rfl

theorem send_logins (world : World) (purpose : Purpose) (request : Http.Request) :
    (world.send purpose request).2.logins = world.logins := by
  unfold send
  split
  · cases purpose <;> rfl
  · rfl
  · split
    · rfl
    · split
      · rfl
      · exact deliver_logins ..

variable {world other : World} {calls tokens : List Http.Reply}

theorem Arranges.send {purpose : Purpose} {request : Http.Request} {rest : List Step}
    (arranges : world.Arranges other
      (⟨.send purpose request, (world.send purpose request).1⟩ :: rest) calls tokens) :
    (other.answer (.send purpose request)).1 = (world.answer (.send purpose request)).1 ∧
      (world.answer (.send purpose request)).2.Arranges
        (other.answer (.send purpose request)).2 rest calls tokens := by
  have profile := (world.send_profile purpose request).symm
  have files := (world.send_files purpose request).symm
  have logins := (world.send_logins purpose request).symm
  have sent : other.send purpose request = other.arrangedReply
      (replies .call (⟨.send purpose request, (world.send purpose request).1⟩ :: rest) ++ calls)
      (replies .token (⟨.send purpose request, (world.send purpose request).1⟩ :: rest) ++ tokens)
      purpose := by
    unfold World.send
    rw [arranges.remote]
    rfl
  have answered : other.answer (.send purpose request) = ((other.send purpose request).1,
      (other.send purpose request).2.record
        (.exchange purpose request (other.send purpose request).1)) := rfl
  rw [answered, sent]
  cases purpose with
  | call =>
    exact ⟨rfl, arranges.profile.trans profile, arranges.files.trans files,
      arranges.logins.trans logins, rfl⟩
  | token =>
    exact ⟨rfl, arranges.profile.trans profile, arranges.files.trans files,
      arranges.logins.trans logins, rfl⟩

theorem Arranges.takeLogin {given : Except (Halt LoginError) String} {rest : List Step}
    (arranges : world.Arranges other (⟨.askForToken, given⟩ :: rest) calls tokens) :
    other.takeLogin.1 = world.takeLogin.1 ∧
      world.takeLogin.2.Arranges other.takeLogin.2 rest calls tokens := by
  obtain ⟨profile, files, logins, remote⟩ := arranges
  unfold World.takeLogin
  rw [logins]
  cases found : world.logins with
  | nil => exact ⟨rfl, profile, files, logins, remote⟩
  | cons step steps => cases step <;> exact ⟨rfl, profile, files, rfl, remote⟩

/-- One step goes the same way where its reply is arranged, and takes the reply from what is
arranged. The rest is arranged for the rest of the steps. -/
theorem Arranges.answer {effect : Effect} {rest : List Step}
    (arranges : world.Arranges other (⟨effect, (world.answer effect).1⟩ :: rest) calls tokens) :
    (other.answer effect).1 = (world.answer effect).1 ∧
      (world.answer effect).2.Arranges (other.answer effect).2 rest calls tokens := by
  obtain ⟨profile, files, logins, remote⟩ := id arranges
  cases effect with
  | send purpose request => exact arranges.send
  | readProfile => exact ⟨profile, profile, files, logins, remote⟩
  | storeToken token =>
    refine ⟨rfl, ?_, files, logins, remote⟩
    exact congrArg (fun given : Profile => { given with token := token }) profile
  | askForToken => exact arranges.takeLogin
  | readFile path => exact ⟨congrArg (·.read path) files, profile, files, logins, remote⟩
  | writeFile path content =>
    rw [answer_writeFile, answer_writeFile, files]
    cases world.files.write path content with
    | error fault => exact ⟨rfl, profile, files, logins, remote⟩
    | ok written => exact ⟨rfl, profile, rfl, logins, remote⟩
  | record event => exact ⟨rfl, profile, files, logins, remote⟩

/-- A program goes the same way where its replies are arranged. The replies are handed out
by purpose, in the order in which they were given, so that the next reply is the right one
at each step. -/
theorem Arranges.run_eq {α : Type} {program : Program α}
    (arranges : world.Arranges other (world.steps program) calls tokens) :
    other.steps program = world.steps program ∧
      (other.run program).1 = (world.run program).1 ∧
      (other.run program).2.files = (world.run program).2.files := by
  induction program generalizing world other with
  | done value => exact ⟨rfl, rfl, arranges.files⟩
  | perform effect next ih =>
    obtain ⟨outcome, later⟩ := arranges.answer
    simp only [steps, run]
    rw [outcome]
    obtain ⟨steps, value, files⟩ := ih (world.answer effect).1 later
    exact ⟨by rw [steps], value, files⟩

/-- Whatever the other side does, its replies can be arranged beforehand. So two other sides
that give alike replies can be compared, however they come to them. -/
theorem Follows.run_arranged {α : Type} {program : Program α}
    (follows : world.Follows program calls tokens) :
    { world with remote := .arranged calls tokens }.steps program = world.steps program ∧
      ({ world with remote := .arranged calls tokens }.run program).1 = (world.run program).1 ∧
      ({ world with remote := .arranged calls tokens }.run program).2.files =
        (world.run program).2.files := by
  obtain ⟨moreCalls, rfl⟩ := follows.calls
  obtain ⟨moreTokens, rfl⟩ := follows.tokens
  exact Arranges.run_eq ⟨rfl, rfl, rfl, rfl⟩

end World

end PlatformClient
