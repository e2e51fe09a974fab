import Mathlib.Logic.Function.Basic
import PlatformClient.Proofs.Surroundings

namespace PlatformClient

/-- What a step makes of the profile that it works on. -/
def Effect.leave (profile : Profile) : Effect → Profile
  | .storeToken token => { profile with token := token }
  | _ => profile

theorem Effect.leave_of_spares {effect : Effect} (spares : effect.sparesProfile = true)
    (profile : Profile) : effect.leave profile = profile := by
  cases effect with
  | storeToken token => cases spares
  | _ => rfl

theorem World.answer_leave (world : World) (effect : Effect) :
    (world.answer effect).2.profile = effect.leave world.profile := by
  cases spares : effect.sparesProfile with
  | true => rw [world.answer_profile spares, Effect.leave_of_spares spares]
  | false =>
    cases effect with
    | storeToken token => rfl
    | _ => cases spares

/-- A step that can be taken while the profile is this one. Only what is read of the
profile is given by it. -/
def Step.Fits (profile : Profile) : Step → Prop
  | ⟨.readProfile, given⟩ => given = profile
  | _ => True

/-- What a step may give while the profile is this one. -/
def Effect.conceivable (profile : Profile) : (effect : Effect) → effect.Outcome
  | .readProfile => profile
  | .storeToken _ => ()
  | .send .. => Http.Reply.lost
  | .askForToken => Except.error (.interrupted .cancelled)
  | .readFile _ => Except.ok []
  | .writeFile .. => Except.ok ()
  | .record _ => ()

theorem Effect.fits_conceivable (profile : Profile) (effect : Effect) :
    Step.Fits profile ⟨effect, effect.conceivable profile⟩ := by
  cases effect with
  | readProfile => rfl
  | _ => exact True.intro

/-- Every program can go on to its end, whatever the profile is. -/
theorem Program.runs_of_profile {α : Type} (program : Program α) (profile : Profile) :
    ∃ steps value, program.Runs steps value ∧ ∀ step ∈ steps, step.Fits profile := by
  induction program with
  | done value => exact ⟨[], value, .done value, List.forall_mem_nil _⟩
  | perform effect next ih =>
    obtain ⟨steps, value, runs, later⟩ := ih (effect.conceivable profile)
    exact ⟨_, value, .perform _ runs,
      List.forall_mem_cons.mpr ⟨effect.fits_conceivable profile, later⟩⟩

/-- What has been done around a profile, in order, and by whom. -/
abbrev History (ι : Type) := List (ι × Step)

namespace History

variable {ι : Type} {history earlier later : History ι} {profile : Profile}

/-- What becomes of a profile. -/
def leave (profile : Profile) (history : History ι) : Profile :=
  history.foldl (fun profile move => move.2.effect.leave profile) profile

@[simp]
theorem leave_append (profile : Profile) (earlier later : History ι) :
    (earlier ++ later).leave profile = later.leave (earlier.leave profile) := List.foldl_append ..

/-- Only the token of a profile ever changes. -/
theorem leave_eq (profile : Profile) (history : History ι) :
    history.leave profile = { profile with token := (history.leave profile).token } := by
  induction history generalizing profile with
  | nil => rfl
  | cons move rest ih =>
    obtain ⟨who, effect, outcome⟩ := move
    change leave (effect.leave profile) rest =
      { profile with token := (leave (effect.leave profile) rest).token }
    rw [ih]
    cases effect <;> rfl

theorem leave_authMethod (profile : Profile) (history : History ι) :
    (history.leave profile).authMethod = profile.authMethod := by
  rw [leave_eq]

/-- Where no token that is stored is empty, a token is never lost. Storing another one is
the only thing that happens to it. -/
theorem leave_hasToken
    (filled : ∀ who token, (who, ⟨.storeToken token, ()⟩) ∈ history → token.isEmpty = false)
    (found : profile.hasToken = true) : (history.leave profile).hasToken = true := by
  induction history generalizing profile with
  | nil => exact found
  | cons move rest ih =>
    refine ih (fun who token member => filled who token (List.mem_cons_of_mem _ member)) ?_
    obtain ⟨who, effect, outcome⟩ := move
    cases effect with
    | storeToken token =>
      have some := filled who token List.mem_cons_self
      simp [Effect.leave, Profile.hasToken, some]
    | _ => simpa only [Effect.leave] using found

/-- The token is the one that was stored last, or the one from the beginning. By induction
over what has been done, the latest step at the end. -/
theorem leave_token (profile : Profile) (history : History ι) :
    (∀ move ∈ history, move.2.effect.sparesProfile = true) ∧
        (history.leave profile).token = profile.token ∨
      ∃ (before : History ι) (who : ι) (token : String) (after : History ι),
        history = before ++ (who, ⟨.storeToken token, ()⟩) :: after ∧
        (∀ move ∈ after, move.2.effect.sparesProfile = true) ∧
        (history.leave profile).token = token := by
  induction history generalizing profile with
  | nil => exact Or.inl ⟨List.forall_mem_nil _, rfl⟩
  | cons move rest ih =>
    rcases ih (move.2.effect.leave profile) with ⟨spares, same⟩ |
      ⟨before, who, token, after, rfl, spares, same⟩
    · obtain ⟨who, effect, outcome⟩ := move
      cases effect with
      | storeToken token => exact Or.inr ⟨[], who, token, rest, rfl, spares, same⟩
      | _ => exact Or.inl ⟨List.forall_mem_cons.mpr ⟨rfl, spares⟩, same⟩
    · exact Or.inr ⟨move :: before, who, token, after, rfl, spares, same⟩

variable [DecidableEq ι] {who : ι}

/-- What one of them has done. -/
def doneBy (who : ι) (history : History ι) : List Step :=
  history.filterMap fun move => if move.1 = who then some move.2 else none

@[simp]
theorem doneBy_append (who : ι) (earlier later : History ι) :
    (earlier ++ later).doneBy who = earlier.doneBy who ++ later.doneBy who :=
  List.filterMap_append

theorem doneBy_cons_self (who : ι) (step : Step) (later : History ι) :
    doneBy who ((who, step) :: later) = step :: later.doneBy who :=
  List.filterMap_cons_some (if_pos rfl)

theorem doneBy_cons_of_ne {other : ι} (ne : other ≠ who) (step : Step) (later : History ι) :
    doneBy who ((other, step) :: later) = later.doneBy who :=
  List.filterMap_cons_none (if_neg ne)

theorem mem_doneBy {step : Step} : step ∈ history.doneBy who ↔ (who, step) ∈ history := by
  rw [doneBy, List.mem_filterMap]
  constructor
  · rintro ⟨⟨other, given⟩, member, same⟩
    split at same
    · cases same
      rename_i same
      cases same
      exact member
    · cases same
  · intro member
    exact ⟨_, member, if_pos rfl⟩

/-- What comes before a step for the one who takes it, comes before it for all. The steps of
the others lie in between and change nothing of the order. -/
theorem split_of_doneBy {before after : List Step} {step : Step}
    (split : history.doneBy who = before ++ step :: after) :
    ∃ earlier later : History ι,
      history = earlier ++ (who, step) :: later ∧ earlier.doneBy who = before := by
  induction history generalizing before with
  | nil => cases before <;> cases split
  | cons move rest ih =>
    obtain ⟨other, given⟩ := move
    by_cases same : other = who
    · subst same
      rw [doneBy_cons_self] at split
      cases before with
      | nil =>
        obtain ⟨rfl, -⟩ := List.cons.inj split
        exact ⟨[], rest, rfl, rfl⟩
      | cons first before =>
        obtain ⟨rfl, tail⟩ := List.cons.inj split
        obtain ⟨earlier, later, rfl, done⟩ := ih tail
        exact ⟨_ :: earlier, later, rfl, by rw [doneBy_cons_self, done]⟩
    · rw [doneBy_cons_of_ne same] at split
      obtain ⟨earlier, later, rfl, done⟩ := ih split
      exact ⟨_ :: earlier, later, rfl, by rw [doneBy_cons_of_ne same, done]⟩

end History

/-- A profile, and what is left to do for those who share it. -/
structure Sharing (ι : Type) where
  profile : Profile
  programs : ι → Program Unit

namespace Sharing

variable {ι : Type} [DecidableEq ι] {first now : Sharing ι} {history : History ι}

/-- One who is not done takes the next step. In which order they do so is open, and so is
whether they come to their ends. What a step gives is open as well, but for the profile,
which is read as it is. -/
inductive Reaches (first : Sharing ι) : History ι → Sharing ι → Prop
  | start : Reaches first [] first
  | step {history : History ι} {now : Sharing ι} {who : ι} {effect : Effect}
      {next : effect.Outcome → Program Unit} (earlier : Reaches first history now)
      (running : now.programs who = .perform effect next) (outcome : effect.Outcome)
      (fits : Step.Fits now.profile ⟨effect, outcome⟩) :
      Reaches first (history ++ [(who, ⟨effect, outcome⟩)])
        ⟨effect.leave now.profile, Function.update now.programs who (next outcome)⟩

theorem Reaches.profile_eq (reached : Reaches first history now) :
    now.profile = history.leave first.profile := by
  induction reached with
  | start => rfl
  | step earlier running outcome fits ih =>
    rw [History.leave_append, ← ih]
    rfl

/-- Who reads the profile finds it as it is at that moment, whoever has stored what stands
in it. -/
theorem Reaches.fits (reached : Reaches first history now) {earlier later : History ι} {who : ι}
    {step : Step} (split : history = earlier ++ (who, step) :: later) :
    step.Fits (earlier.leave first.profile) := by
  induction reached generalizing later with
  | start => cases earlier <;> cases split
  | @step history now other effect next reached running outcome fits ih =>
    rcases List.eq_nil_or_concat later with rfl | ⟨later, last, rfl⟩
    · obtain ⟨rfl, same⟩ := List.append_inj' split rfl
      cases same
      rw [← reached.profile_eq]
      exact fits
    · rw [List.concat_eq_append, ← List.cons_append, ← List.append_assoc] at split
      exact ih (List.append_inj' split rfl).1

/-- What one of them has done is the begin of what it would do. By induction over the steps
of all: those of the others leave its program where it was. -/
theorem Reaches.runs (reached : Reaches first history now) {who : ι} {steps : List Step}
    (runs : (now.programs who).Runs steps ()) :
    (first.programs who).Runs (history.doneBy who ++ steps) () := by
  induction reached generalizing steps with
  | start => exact runs
  | @step history now other effect next reached running outcome fits ih =>
    rw [History.doneBy_append, List.append_assoc]
    by_cases same : other = who
    · subst same
      rw [History.doneBy_cons_self]
      refine ih ?_
      rw [running]
      simp only [Function.update_self] at runs
      exact .perform outcome runs
    · rw [History.doneBy_cons_of_ne same]
      simp only [Function.update_of_ne (Ne.symm same)] at runs
      exact ih runs

/-- What one of them has done is the begin of a whole run, in which the profile is found as
others leave it. So all that holds of every run of a single call holds of each of them,
however the others come in between. -/
theorem Reaches.whole (reached : Reaches first history now) (who : ι) :
    ∃ rest, (first.programs who).Runs (history.doneBy who ++ rest) () ∧
      ∀ step ∈ rest, step.Fits now.profile := by
  obtain ⟨rest, _, runs, fits⟩ := (now.programs who).runs_of_profile now.profile
  exact ⟨rest, reached.runs runs, fits⟩

end Sharing

/-- Lets those who share the profile of a world take steps in a given order. Who is
done is passed over. -/
def World.interleave {ι : Type} [DecidableEq ι] (world : World) (programs : ι → Program Unit) :
    List ι → History ι × Sharing ι
  | [] => ([], ⟨world.profile, programs⟩)
  | who :: order => match programs who with
    | .done () => world.interleave programs order
    | .perform effect next =>
      let (outcome, after) := world.answer effect
      let (history, final) := after.interleave (Function.update programs who (next outcome)) order
      ((who, ⟨effect, outcome⟩) :: history, final)

theorem World.fits_answer (world : World) (effect : Effect) :
    Step.Fits world.profile ⟨effect, (world.answer effect).1⟩ := by
  cases effect with
  | readProfile => rfl
  | _ => exact True.intro

theorem World.interleave_reaches {ι : Type} [DecidableEq ι] {first : Sharing ι}
    {history : History ι} {world : World} {programs : ι → Program Unit} (order : List ι)
    (reached : Sharing.Reaches first history ⟨world.profile, programs⟩) :
    Sharing.Reaches first (history ++ (world.interleave programs order).1)
      (world.interleave programs order).2 := by
  induction order generalizing history world programs with
  | nil => simpa [interleave] using reached
  | cons who order ih =>
    rw [interleave]
    split
    · exact ih reached
    · rename_i effect next running
      have moved := reached.step running _ (world.fits_answer effect)
      rw [← world.answer_leave effect] at moved
      simpa using ih moved

/-- Every order of steps in a world is one that those who share its profile can take. -/
theorem World.interleave_reaches_start {ι : Type} [DecidableEq ι] (world : World)
    (programs : ι → Program Unit) (order : List ι) :
    Sharing.Reaches ⟨world.profile, programs⟩ (world.interleave programs order).1
      (world.interleave programs order).2 := interleave_reaches order .start

end PlatformClient
