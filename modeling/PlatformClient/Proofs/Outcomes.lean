namespace PlatformClient

variable {ε α β : Type} {result : Except ε α} {value : β}

theorem exists_eq_ok (fine : result.isOk = true) : ∃ value, result = .ok value := by
  cases result with
  | error error => cases fine
  | ok value => exact ⟨value, rfl⟩

theorem bind_eq_ok_iff {next : α → Except ε β} :
    (result >>= next) = .ok value ↔ ∃ given, result = .ok given ∧ next given = .ok value := by
  cases result with
  | error error => exact ⟨nofun, nofun⟩
  | ok given =>
    constructor
    · intro same
      exact ⟨given, rfl, same⟩
    · rintro ⟨_, found, same⟩
      cases found
      exact same

theorem bind_eq_error_iff {next : α → Except ε β} {error : ε} :
    (result >>= next) = .error error ↔
      result = .error error ∨ ∃ given, result = .ok given ∧ next given = .error error := by
  cases result with
  | error other =>
    constructor
    · intro same
      cases same
      exact Or.inl rfl
    · rintro (same | ⟨_, found, -⟩)
      · cases same
        rfl
      · cases found
  | ok given =>
    constructor
    · intro same
      exact Or.inr ⟨given, rfl, same⟩
    · rintro (failed | ⟨_, found, same⟩)
      · cases failed
      · cases found
        exact same

theorem map_eq_ok_iff {f : α → β} :
    result.map f = .ok value ↔ ∃ given, result = .ok given ∧ f given = value := by
  cases result with
  | error error => exact ⟨nofun, nofun⟩
  | ok given => simp [Except.map]

theorem mapError_eq_ok_iff {ε' : Type} {translate : ε → ε'} {result : Except ε β} :
    result.mapError translate = .ok value ↔ result = .ok value := by
  cases result with
  | error error => exact ⟨nofun, nofun⟩
  | ok given =>
    constructor <;> exact fun same => congrArg Except.ok (Except.ok.inj same)

/-- A function gives all its results where it gives each of them. -/
theorem mapM_eq_some_iff {f : α → Option β} {list : List α} {results : List β} :
    list.mapM f = some results ↔ list.map f = results.map some := by
  induction list generalizing results with
  | nil => cases results <;> simp
  | cons first rest ih =>
    rw [List.mapM_cons, List.map_cons]
    cases results with
    | nil => cases f first <;> cases rest.mapM f <;> simp
    | cons result results =>
      rw [List.map_cons, List.cons.injEq, ← ih]
      cases f first <;> cases rest.mapM f <;> simp

end PlatformClient
