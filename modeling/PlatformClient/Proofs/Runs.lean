import PlatformClient.Call.World

namespace PlatformClient

/-- A step that a program has taken, with what it was given. -/
structure Step where
  effect : Effect
  outcome : effect.Outcome

/-- The step by which something becomes known. -/
def Step.recorded (event : Event) : Step := ⟨.record event, ()⟩

namespace Program

/-- A way that a program can go: the steps that it takes and the value at its end.
What the steps give is left open, so that others may work on the surroundings in
between. -/
inductive Runs {α : Type} : Program α → List Step → α → Prop
  | done (value : α) : Runs (.done value) [] value
  | perform {effect : Effect} {next : effect.Outcome → Program α} {steps : List Step} {value : α}
      (outcome : effect.Outcome) (rest : Runs (next outcome) steps value) :
      Runs (.perform effect next) (⟨effect, outcome⟩ :: steps) value

theorem runs_pure_iff {α : Type} {given value : α} {steps : List Step} :
    (pure given : Program α).Runs steps value ↔ steps = [] ∧ value = given := by
  constructor
  · intro runs
    cases runs
    exact ⟨rfl, rfl⟩
  · rintro ⟨rfl, rfl⟩
    exact .done _

theorem runs_perform_iff {α : Type} {effect : Effect} {next : effect.Outcome → Program α}
    {steps : List Step} {value : α} :
    (Program.perform effect next).Runs steps value ↔
      ∃ outcome rest, steps = ⟨effect, outcome⟩ :: rest ∧ (next outcome).Runs rest value := by
  constructor
  · intro runs
    cases runs with
    | perform outcome rest => exact ⟨outcome, _, rfl, rest⟩
  · rintro ⟨outcome, rest, rfl, runs⟩
    exact .perform outcome runs

/-- The steps of two programs in a row are those of the first and then those of
the second, which goes on with what the first has given. -/
theorem runs_bind_iff {α β : Type} {program : Program α} {next : α → Program β}
    {steps : List Step} {value : β} :
    (program >>= next).Runs steps value ↔
      ∃ first middle rest,
        steps = first ++ rest ∧ program.Runs first middle ∧ (next middle).Runs rest value := by
  induction program generalizing steps with
  | done given =>
    constructor
    · intro runs
      exact ⟨[], given, steps, rfl, .done given, runs⟩
    · rintro ⟨first, middle, rest, rfl, start, later⟩
      obtain ⟨rfl, rfl⟩ := runs_pure_iff.mp start
      exact later
  | perform effect continuation ih =>
    change
      (Program.perform effect fun outcome => continuation outcome >>= next).Runs steps value ↔ _
    rw [runs_perform_iff]
    constructor
    · rintro ⟨outcome, later, rfl, runs⟩
      obtain ⟨first, middle, rest, rfl, start, final⟩ := (ih outcome).mp runs
      exact ⟨_, middle, rest, rfl, .perform outcome start, final⟩
    · rintro ⟨first, middle, rest, rfl, start, final⟩
      obtain ⟨outcome, earlier, rfl, runs⟩ := runs_perform_iff.mp start
      exact ⟨outcome, _, rfl, (ih outcome).mpr ⟨earlier, middle, rest, rfl, runs, final⟩⟩

theorem runs_step_iff {effect : Effect} {steps : List Step} {value : effect.Outcome} :
    (step effect).Runs steps value ↔ steps = [⟨effect, value⟩] := by
  rw [step, runs_perform_iff]
  constructor
  · rintro ⟨outcome, rest, rfl, runs⟩
    obtain ⟨rfl, rfl⟩ := runs_pure_iff.mp runs
    rfl
  · rintro rfl
    exact ⟨value, [], rfl, .done value⟩

theorem runs_record_iff {event : Event} {steps : List Step} {value : Unit} :
    (record event).Runs steps value ↔ steps = [Step.recorded event] := runs_step_iff

/-- A program that takes steps of one kind only takes no others in any run. The program is
looked at once, and each of its runs has the property by induction. -/
theorem Uses.steps {α : Type} {allowed : Effect → Prop} {program : Program α} {steps : List Step}
    {value : α} (uses : program.Uses allowed) (runs : program.Runs steps value) :
    ∀ step ∈ steps, allowed step.effect := by
  induction runs with
  | done => simp
  | perform outcome _ ih =>
    cases uses with
    | perform kind rest =>
      intro step member
      rcases List.mem_cons.mp member with rfl | later
      · exact kind
      · exact ih (rest outcome) step later

end Program

namespace Attempt

variable {ε ε' α β : Type} {steps : List Step}

theorem runs_result_iff {given result : Except ε α} :
    (ExceptT.mk (pure given) : Attempt ε α).run.Runs steps result ↔
      steps = [] ∧ result = given := Program.runs_pure_iff

theorem runs_lift_iff {program : Program α} {result : Except ε α} :
    (liftM program : Attempt ε α).run.Runs steps result ↔
      ∃ value, program.Runs steps value ∧ result = .ok value := by
  change (program >>= fun value => pure (Except.ok value)).Runs steps result ↔ _
  rw [Program.runs_bind_iff]
  constructor
  · rintro ⟨first, value, rest, rfl, runs, final⟩
    obtain ⟨rfl, rfl⟩ := Program.runs_pure_iff.mp final
    exact ⟨value, by rwa [List.append_nil], rfl⟩
  · rintro ⟨value, runs, rfl⟩
    exact ⟨steps, value, [], by rw [List.append_nil], runs, .done _⟩

/-- An attempt goes on behind the first part unless that fails. -/
theorem runs_bind_iff {attempt : Attempt ε α} {next : α → Attempt ε β} {result : Except ε β} :
    (attempt >>= next).run.Runs steps result ↔
      (∃ error, attempt.run.Runs steps (.error error) ∧ result = .error error) ∨
        ∃ first value rest, steps = first ++ rest ∧ attempt.run.Runs first (.ok value) ∧
          (next value).run.Runs rest result := by
  rw [ExceptT.run_bind, Program.runs_bind_iff]
  constructor
  · rintro ⟨first, middle, rest, rfl, start, later⟩
    cases middle with
    | ok value => exact Or.inr ⟨first, value, rest, rfl, start, later⟩
    | error error =>
      obtain ⟨rfl, rfl⟩ := Program.runs_pure_iff.mp later
      exact Or.inl ⟨error, by rwa [List.append_nil], rfl⟩
  · rintro (⟨error, runs, rfl⟩ | ⟨first, value, rest, rfl, start, later⟩)
    · exact ⟨steps, _, [], by rw [List.append_nil], runs, .done _⟩
    · exact ⟨first, _, rest, rfl, start, later⟩

theorem runs_lift_bind_iff {program : Program α} {next : α → Attempt ε β} {result : Except ε β} :
    ((liftM program : Attempt ε α) >>= next).run.Runs steps result ↔
      ∃ first value rest, steps = first ++ rest ∧ program.Runs first value ∧
        (next value).run.Runs rest result := by
  rw [runs_bind_iff]
  constructor
  · rintro (⟨error, runs, -⟩ | ⟨first, value, rest, rfl, start, later⟩)
    · obtain ⟨value, -, impossible⟩ := runs_lift_iff.mp runs
      cases impossible
    · obtain ⟨given, runs, same⟩ := runs_lift_iff.mp start
      cases same
      exact ⟨first, value, rest, rfl, runs, later⟩
  · rintro ⟨first, value, rest, rfl, start, later⟩
    exact Or.inr ⟨first, value, rest, rfl, runs_lift_iff.mpr ⟨value, start, rfl⟩, later⟩

theorem runs_adapt_iff {attempt : Attempt ε α} {translate : ε → ε'} {result : Except ε' α} :
    (attempt.adapt translate).run.Runs steps result ↔
      ∃ inner, attempt.run.Runs steps inner ∧ result = inner.mapError translate := by
  change (Except.mapError translate <$> attempt.run).Runs steps result ↔ _
  rw [map_eq_pure_bind, Program.runs_bind_iff]
  constructor
  · rintro ⟨first, inner, rest, rfl, runs, final⟩
    obtain ⟨rfl, rfl⟩ := Program.runs_pure_iff.mp final
    exact ⟨inner, by rwa [List.append_nil], rfl⟩
  · rintro ⟨inner, runs, rfl⟩
    exact ⟨steps, inner, [], by rw [List.append_nil], runs, .done _⟩

end Attempt

namespace World

/-- The steps of a program that runs in a world. -/
def steps {α : Type} (world : World) : Program α → List Step
  | .done _ => []
  | .perform effect next =>
    let (outcome, after) := world.answer effect
    ⟨effect, outcome⟩ :: after.steps (next outcome)

/-- The world behind some steps. -/
def after (world : World) (steps : List Step) : World :=
  steps.foldl (fun world step => (world.answer step.effect).2) world

/-- A world in which steps give what they say. -/
def Allows : World → List Step → Prop
  | _, [] => True
  | world, step :: rest =>
    (world.answer step.effect).1 = step.outcome ∧ (world.answer step.effect).2.Allows rest

theorem after_append (world : World) (first rest : List Step) :
    world.after (first ++ rest) = (world.after first).after rest := List.foldl_append ..

theorem allows_append {world : World} {first rest : List Step} :
    world.Allows (first ++ rest) ↔ world.Allows first ∧ (world.after first).Allows rest := by
  induction first generalizing world with
  | nil => simp [Allows, after]
  | cons step first ih =>
    simp only [List.cons_append, Allows, ih, after, List.foldl_cons, and_assoc]

theorem allows_steps {α : Type} (world : World) (program : Program α) :
    world.Allows (world.steps program) := by
  induction program generalizing world with
  | done value => trivial
  | perform effect next ih => exact ⟨rfl, ih _ _⟩

/-- The steps in a world are a way that the program can go. What is proved of all runs
therefore holds in every world, whatever the surroundings give in it. -/
theorem runs_steps {α : Type} (world : World) (program : Program α) :
    program.Runs (world.steps program) (world.run program).1 := by
  induction program generalizing world with
  | done value => exact .done value
  | perform effect next ih => exact .perform _ (ih _ _)

theorem after_steps {α : Type} (world : World) (program : Program α) :
    world.after (world.steps program) = (world.run program).2 := by
  induction program generalizing world with
  | done value => rfl
  | perform effect next ih => exact ih _ _

/-- The steps of two programs in a row in a world. The second begins in the world that the
first has left. -/
theorem steps_bind {α β : Type} (world : World) (program : Program α) (next : α → Program β) :
    world.steps (program >>= next) =
      world.steps program ++ (world.run program).2.steps (next (world.run program).1) := by
  induction program generalizing world with
  | done value => rfl
  | perform effect rest ih => exact congrArg (_ :: ·) (ih _ (world.answer effect).2)

theorem run_map {α β : Type} (world : World) (f : α → β) (program : Program α) :
    world.run (f <$> program) = (f (world.run program).1, (world.run program).2) := by
  rw [map_eq_pure_bind, run_bind]
  rfl

/-- What is made of the value of a program takes no steps. -/
theorem steps_map {α β : Type} (world : World) (f : α → β) (program : Program α) :
    world.steps (f <$> program) = world.steps program := by
  rw [map_eq_pure_bind, steps_bind]
  exact List.append_nil _

/-- A world allows one way to go only: what it gives at each step decides the next one. So a
run that a world allows is the run in that world. -/
theorem run_of_allows {α : Type} {world : World} {program : Program α} {steps : List Step}
    {value : α} (runs : program.Runs steps value) (allows : world.Allows steps) :
    world.run program = (value, world.after steps) := by
  induction runs generalizing world with
  | done value => rfl
  | perform outcome _ ih =>
    obtain ⟨same, later⟩ := allows
    simp only [] at same
    subst same
    exact ih later

theorem steps_of_allows {α : Type} {world : World} {program : Program α} {steps : List Step}
    {value : α} (runs : program.Runs steps value) (allows : world.Allows steps) :
    world.steps program = steps := by
  induction runs generalizing world with
  | done value => rfl
  | perform outcome _ ih =>
    obtain ⟨same, later⟩ := allows
    simp only [] at same
    subst same
    exact congrArg _ (ih later)

end World

end PlatformClient
