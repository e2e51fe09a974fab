import PlatformClient.Proofs.ProcessTurns

namespace PlatformClient.Launch

/-- Two processes that share their files, and how far they have come. -/
structure Shared where
  files : Files
  stage : Bool → Stage

namespace Shared

def start (files : Files) : Shared := ⟨files, fun _ => .started⟩

/-- One of the processes takes its next step. -/
def turn (processes : Bool → Process) (shared : Shared) (who : Bool) : Shared :=
  let next := (processes who).turn (shared.files, shared.stage who)
  ⟨next.1, Function.update shared.stage who next.2⟩

/-- The processes take their steps in some order. -/
def run (processes : Bool → Process) (shared : Shared) (schedule : List Bool) : Shared :=
  schedule.foldl (turn processes) shared

variable {processes : Bool → Process} {directory : String} {shared next : Shared} {who : Bool}

/-- Both processes have loaded the configuration, and neither is at its end. What the one
saves is then not known to the other. -/
def Overlap (shared : Shared) : Prop := ∀ who, (shared.stage who).Underway

/-- A process has not begun where the other has saved already. It will load what the other
has left. -/
def Behind (who : Bool) (shared : Shared) : Prop :=
  shared.stage who = .started ∧ ∃ left, shared.stage (!who) = .saved left

/-- What a step of one of the processes does. -/
structure Turned (processes : Bool → Process) (path : String) (who : Bool)
    (shared next : Shared) : Prop where
  turns : (processes who).Turns path (shared.files, shared.stage who) (next.files, next.stage who)
  other : next.stage (!who) = shared.stage (!who)

/-- What holds at every moment. Where nobody is underway any more and somebody has saved,
the document is what one of those has left. While somebody is underway nothing is said of
the document, since a command may write a response in its place. -/
structure Sound (processes : Bool → Process) (path : String) (shared : Shared) : Prop where
  holds : ∀ who, (processes who).Holds (shared.stage who)
  document : (∃ who left, shared.stage who = .saved left) →
    (∀ who, (shared.stage who).Resting) →
      ∃ last left, shared.stage last = .saved left ∧
        Config.load shared.files path = .ok ((processes last).document left)

theorem sound_start (path : String) (files : Files) : (start files).Sound processes path where
  holds _ := trivial
  document := by
    rintro ⟨who, left, saved⟩
    cases saved

theorem turned_turn (place : ∀ who, Config.directory? (processes who).chosen = some directory)
    (sound : shared.Sound processes (Files.join directory "config.toml")) (who : Bool) :
    Turned processes (Files.join directory "config.toml") who shared
      (shared.turn processes who) where
  turns := by
    have same : (shared.turn processes who).stage who =
        ((processes who).turn (shared.files, shared.stage who)).2 := Function.update_self ..
    rw [same]
    exact Process.turns_turn (place who) (sound.holds who) shared.files
  other := Function.update_of_ne (Bool.not_ne_self who) ..

theorem Turned.eq_of_same {path : String} (turned : Turned processes path who shared next)
    (same : (next.files, next.stage who) = (shared.files, shared.stage who)) : next = shared := by
  obtain ⟨files, stage⟩ := next
  obtain ⟨rfl, here⟩ := Prod.mk.inj same
  refine congrArg (Shared.mk _) (funext fun side => ?_)
  rcases Bool.eq_or_eq_not side who with rfl | rfl
  · exact here
  · exact turned.other

theorem Turned.sound {path : String} (turned : Turned processes path who shared next)
    (sound : shared.Sound processes path) : next.Sound processes path where
  holds side := by
    rcases Bool.eq_or_eq_not side who with rfl | rfl
    · exact turned.turns.holds (sound.holds side)
    · rw [turned.other]
      exact sound.holds _
  document someone resting := by
    have idle : (next.files, next.stage who).2.Resting := resting who
    cases turned.turns with
    | ends unsaved now =>
      rw [now] at idle
      exact idle.elim
    | loads before now =>
      rw [now] at idle
      exact idle.elim
    | calls before now =>
      rw [now] at idle
      exact idle.elim
    | saves before now made changed loaded => exact ⟨who, _, now, loaded⟩
    | rests before now =>
      rw [turned.eq_of_same now] at someone resting ⊢
      exact sound.document someone resting

theorem sound_run (place : ∀ who, Config.directory? (processes who).chosen = some directory)
    (sound : shared.Sound processes (Files.join directory "config.toml")) (schedule : List Bool) :
    (shared.run processes schedule).Sound processes (Files.join directory "config.toml") := by
  induction schedule generalizing shared with
  | nil => exact sound
  | cons who rest ih => exact ih ((turned_turn place sound who).sound sound)

/-- Somebody has not begun, and nobody has saved; or somebody is over without a save. -/
def Undecided (shared : Shared) : Prop :=
  (∃ who, shared.stage who = .started ∧ ∀ left, shared.stage (!who) ≠ .saved left) ∨
    ∃ who outcome, shared.stage who = .finished outcome

/-- From there it goes on, or comes to an overlap, or to one who is behind the other. These
are all the moments that there can be on the way to two saves. -/
theorem Turned.undecided {path : String} (turned : Turned processes path who shared next)
    (undecided : shared.Undecided) :
    next.Undecided ∨ next.Overlap ∨ ∃ side, next.Behind side := by
  rcases undecided with ⟨side, started, unsaved⟩ | ⟨side, outcome, finished⟩
  · rcases Bool.eq_or_eq_not side who with rfl | rfl
    -- The one that has not begun takes a step, and the other is as before.
    · rcases turned.turns.of_started started with
        ⟨outcome, now⟩ | ⟨config, profile, now, -⟩
      · exact Or.inl (Or.inr ⟨side, outcome, now⟩)
      · change next.stage side = _ at now
        have other := turned.other
        cases there : shared.stage (!side) with
        | started =>
          refine Or.inl (Or.inl ⟨!side, other.trans there, fun left => ?_⟩)
          rw [Bool.not_not, now]
          nofun
        | loaded | called =>
          refine Or.inr (Or.inl fun which => ?_)
          rcases Bool.eq_or_eq_not which side with rfl | rfl
          · rw [now]
            trivial
          · rw [other, there]
            trivial
        | saved left => exact absurd there (unsaved left)
        | finished outcome => exact Or.inl (Or.inr ⟨!side, outcome, other.trans there⟩)
    · have still : next.stage (!who) = .started := turned.other.trans started
      by_cases saved : ∃ left, next.stage (!!who) = .saved left
      · exact Or.inr (Or.inr ⟨!who, still, saved⟩)
      · exact Or.inl (Or.inl ⟨!who, still, fun left there => saved ⟨left, there⟩⟩)
  · rcases Bool.eq_or_eq_not side who with rfl | rfl
    · obtain ⟨outcome, now⟩ := turned.turns.of_finished finished
      exact Or.inl (Or.inr ⟨side, outcome, now⟩)
    · exact Or.inl (Or.inr ⟨!who, outcome, turned.other.trans finished⟩)

/-- Until both have saved, there is a moment at which both are underway, or one at which one
of them is behind the other. By induction over the schedule: as long as it is undecided,
somebody has not saved. -/
theorem overlap_or_behind (place : ∀ who, Config.directory? (processes who).chosen = some directory)
    (sound : shared.Sound processes (Files.join directory "config.toml"))
    (undecided : shared.Undecided) {schedule : List Bool}
    (saved : ∀ who, ∃ left, (shared.run processes schedule).stage who = .saved left) :
    ∃ moment, moment <+: schedule ∧ ((shared.run processes moment).Overlap ∨
      ∃ who, (shared.run processes moment).Behind who) := by
  induction schedule generalizing shared with
  | nil =>
    rcases undecided with ⟨who, -, unsaved⟩ | ⟨who, outcome, finished⟩
    · obtain ⟨left, there⟩ := saved (!who)
      exact absurd there (unsaved left)
    · obtain ⟨left, there⟩ := saved who
      cases finished.symm.trans there
  | cons who rest ih =>
    have turned := turned_turn place sound who
    rcases turned.undecided undecided with later | decided
    · obtain ⟨moment, inside, decided⟩ := ih (turned.sound sound) later saved
      exact ⟨who :: moment, List.cons_prefix_cons.mpr ⟨rfl, inside⟩, decided⟩
    · exact ⟨[who], List.cons_prefix_cons.mpr ⟨rfl, List.nil_prefix⟩, decided⟩

/-- What a process does that begins behind the other, which has left a configuration. It
carries that configuration through its stages until it has put its own token into it. -/
def Follows (process : Process) (path : String) (config : Config) (files : Files) : Stage → Prop
  | .started => Config.load files path = .ok config
  | .loaded loaded _ => loaded = config
  | .called loaded _ _ _ => loaded = config
  | .saved left => left.config = config ∧ Config.load files path = .ok (process.document left)
  | .finished _ => True

theorem Turned.follows {path name : String} {config : Config} {profile : Profile} {left : TokenSave}
    {side : Bool} (turned : Turned processes path side shared next)
    (known : config.profile name = .ok profile)
    (other : shared.stage (!who) = .saved left)
    (follows : Follows (processes who) path config shared.files (shared.stage who)) :
    next.stage (!who) = .saved left ∧
      Follows (processes who) path config next.files (next.stage who) := by
  rcases Bool.eq_or_eq_not side who with rfl | rfl
  · refine ⟨turned.other.trans other, ?_⟩
    have own : Follows (processes side) path config shared.files
      (shared.files, shared.stage side).2 := follows
    change Follows (processes side) path config next.files (next.files, next.stage side).2
    cases turned.turns with
    | ends unsaved now =>
      rw [now]
      trivial
    | loads before now grown loaded uses =>
      rw [before] at own
      rw [now]
      exact Except.ok.inj (loaded.symm.trans (Config.load_grown grown own
        (Config.profile_eq_ok_iff.mp known)))
    | calls before now same =>
      rw [before] at own
      rw [now]
      exact own
    | saves before now made changed loaded =>
      rw [before] at own
      rw [now]
      refine ⟨?_, loaded⟩
      rw [made]
      exact own
    | rests before now =>
      rw [turned.eq_of_same now]
      exact follows
  · rw [turned.eq_of_same (turned.turns.of_saved other)]
    exact ⟨other, follows⟩

theorem follows_run (place : ∀ who, Config.directory? (processes who).chosen = some directory)
    (sound : shared.Sound processes (Files.join directory "config.toml")) {name : String}
    {config : Config} {profile : Profile} {left : TokenSave}
    (known : config.profile name = .ok profile)
    (other : shared.stage (!who) = .saved left)
    (follows : Follows (processes who) (Files.join directory "config.toml") config shared.files
      (shared.stage who)) (schedule : List Bool) :
    (shared.run processes schedule).stage (!who) = .saved left ∧
      Follows (processes who) (Files.join directory "config.toml") config
        (shared.run processes schedule).files ((shared.run processes schedule).stage who) := by
  induction schedule generalizing shared with
  | nil => exact ⟨other, follows⟩
  | cons side rest ih =>
    have turned := turned_turn place sound side
    obtain ⟨other, follows⟩ := turned.follows known other follows
    exact ih (turned.sound sound) other follows

theorem run_cons (processes : Bool → Process) (shared : Shared) (who : Bool) (rest : List Bool) :
    shared.run processes (who :: rest) = (shared.turn processes who).run processes rest := rfl

theorem run_append (processes : Bool → Process) (shared : Shared) (first rest : List Bool) :
    shared.run processes (first ++ rest) = (shared.run processes first).run processes rest :=
  List.foldl_append

/-- One that begins behind the other has loaded what that has left, and puts its own token
into it. So the tokens of both are in the document, and that of the other is kept although
it is written again. -/
theorem Behind.run (behind : shared.Behind who)
    (place : ∀ who, Config.directory? (processes who).chosen = some directory)
    (sound : shared.Sound processes (Files.join directory "config.toml")) {rest : List Bool}
    {saves : Bool → TokenSave}
    (ends : ∀ who, (shared.run processes rest).stage who = .saved (saves who)) :
    (saves who).config = (processes !who).document (saves !who) ∧
      Config.load (shared.run processes rest).files (Files.join directory "config.toml") =
        .ok ((processes who).document (saves who)) := by
  obtain ⟨started, left, saved⟩ := behind
  obtain ⟨last, found, there, loaded⟩ := sound.document ⟨_, _, saved⟩ fun side => by
    rcases Bool.eq_or_eq_not side who with rfl | rfl
    · rw [started]
      trivial
    · rw [saved]
      trivial
  obtain rfl : last = !who := by
    refine (Bool.eq_or_eq_not last who).resolve_left fun same => ?_
    rw [same, started] at there
    cases there
  cases saved.symm.trans there
  have holds : (processes !who).Holds (.saved left) := saved ▸ sound.holds _
  have first : Follows (processes who) (Files.join directory "config.toml")
      ((processes !who).document left) shared.files (shared.stage who) := by
    rw [started]
    exact loaded
  obtain ⟨other, follows⟩ :=
    follows_run place sound (Process.profile_document holds) saved first rest
  cases (ends !who).symm.trans other
  rw [ends who] at follows
  exact follows

end Shared

/-- What becomes of the tokens that two processes save in one document. It depends on the
order of their steps: one behind the other keeps both tokens, and an overlap keeps that of
the last one. -/
structure TokensSaved (processes : Bool → Process) (path : String) (files : Files)
    (schedule : List Bool) (saves : Bool → TokenSave) (final : Config) : Prop where
  loaded : Config.load ((Shared.start files).run processes schedule).files path = .ok final
  /-- At some moment one has saved and the other has not begun, or both are underway. -/
  orders : ∃ moment, moment <+: schedule ∧
    ((∃ who, ((Shared.start files).run processes moment).Behind who) ∨
      ((Shared.start files).run processes moment).Overlap)
  /-- Where one begins behind the other, the document has both. -/
  kept : ∀ moment who, moment <+: schedule →
    ((Shared.start files).run processes moment).Behind who →
      ∀ side, final.profile ((processes side).name (saves side).config) = .ok (saves side).profile
  /-- In any case the last to save leaves what it has loaded, with its own token in place. Where
  the other has loaded the same, the token of the other is lost. -/
  replaced : ∃ last, final = (processes last).document (saves last) ∧
    final.profile ((processes last).name (saves last).config) = .ok (saves last).profile ∧
    ((saves !last).config = (saves last).config →
      final.profile ((processes !last).name (saves !last).config) ≠ .ok (saves !last).profile)

/-- Two processes save their tokens in one document, in whatever order they take their
steps. Each writes the whole configuration as it has loaded it, so that the token of the
other is in it only if that was saved before. -/
theorem shared_tokens {processes : Bool → Process} {directory : String}
    (place : ∀ who, Config.directory? (processes who).chosen = some directory) {files : Files}
    {schedule : List Bool} {saves : Bool → TokenSave}
    (ends : ∀ who, ((Shared.start files).run processes schedule).stage who = .saved (saves who))
    (apart : (processes false).name (saves false).config ≠
      (processes true).name (saves true).config) :
    ∃ final, TokensSaved processes (Files.join directory "config.toml") files schedule saves
      final := by
  have start : (Shared.start files).Sound processes (Files.join directory "config.toml") :=
    Shared.sound_start _ _
  have sound := Shared.sound_run place start schedule
  have holds : ∀ who, (processes who).Holds (.saved (saves who)) := fun who =>
    ends who ▸ sound.holds who
  have others : ∀ who, (processes !who).name (saves !who).config ≠
      (processes who).name (saves who).config := by
    rintro (_ | _)
    · exact apart.symm
    · exact apart
  obtain ⟨last, left, saved, loaded⟩ := sound.document ⟨true, _, ends true⟩ fun who => by
    rw [ends who]
    trivial
  cases saved.symm.trans (ends last)
  refine ⟨_, loaded, ?_, fun moment who inside behind side => ?_, last, rfl, ?_, fun same => ?_⟩
  · obtain ⟨moment, inside, decided⟩ := Shared.overlap_or_behind place start
      (Or.inl ⟨false, rfl, nofun⟩) fun who => ⟨_, ends who⟩
    exact ⟨moment, inside, decided.symm⟩
  · obtain ⟨rest, rfl⟩ := inside
    rw [Shared.run_append] at ends loaded
    obtain ⟨followed, final⟩ := behind.run place (Shared.sound_run place start moment) ends
    rw [Except.ok.inj (loaded.symm.trans final)]
    rcases Bool.eq_or_eq_not side who with rfl | rfl
    · exact Process.profile_document (holds side)
    · rw [Process.profile_document_of_ne (others who), followed]
      exact Process.profile_document (holds !who)
  · exact Process.profile_document (holds last)
  · rw [Process.profile_document_of_ne (others last), ← same]
    exact Process.profile_of_holds (holds !last)

section Runs

/-- The files behind the search for the document. -/
def opened (files : Files) : Files :=
  (Config.findDocument inDirectory (prepareLogs inDirectory files)).1

def sharedConfig : Config where
  currentProfile := "service"
  profiles := [("backup", serviceProfile), ("service", serviceProfile)]

/-- A process that logs in with a profile, and is given a token. -/
def loggingIn (name token : String) : Process where
  invocation := { profile := some name, command := .login }
  environment := inDirectory
  now := 0
  surroundings :=
    { profile := {}
      files := Files.emptyAt ["work"]
      remote := .script [.answer (.response Http.ok []
        (Text.encode ("\x7b\"access_token\":\"" ++ token ++ "\"\x7d")))] }

def services : Bool → Process
  | false => loggingIn "backup" "first"
  | true => loggingIn "service" "second"

def serviceName (who : Bool) : String := if who then "service" else "backup"

theorem load_loggingIn {name token : String} {files : Files} {config : Config}
    (found : (Config.findDocument inDirectory (prepareLogs inDirectory files)).2 =
      .ok "cfg/config.toml")
    (loaded : Config.load files "cfg/config.toml" = .ok config)
    (selected : config.profile name = .ok serviceProfile) :
    (loggingIn name token).load files = (opened files, .loaded config serviceProfile) := by
  have usable : serviceProfile.baseUrl.isOk = true := by decide +kernel
  obtain ⟨url, reached⟩ := exists_eq_ok usable
  have known := Config.profile_eq_ok_iff.mp selected
  have reloaded := Config.load_grown (grown_opening inDirectory files) loaded known
  have opening : loadConfig inDirectory (prepareLogs inDirectory files) =
      (opened files, .ok config) := by
    unfold loadConfig opened
    generalize Config.findDocument inDirectory (prepareLogs inDirectory files) = ends at *
    obtain ⟨after, result⟩ := ends
    cases found
    dsimp only at reloaded ⊢
    rw [reloaded]
    rfl
  have chosen : (loggingIn name token).chosen = inDirectory := rfl
  have taken : selectedProfile config (loggingIn name token).invocation.profile =
      .ok serviceProfile := selected
  rw [Process.load, chosen, opening]
  dsimp only
  rw [taken]
  dsimp only
  rw [reached]

/-- One of them has loaded this configuration. -/
def loading (shared : Shared) (who : Bool) (config : Config) : Shared where
  files := opened shared.files
  stage := Function.update shared.stage who (.loaded config serviceProfile)

theorem turn_services {shared : Shared} {who : Bool} {config : Config}
    (started : shared.stage who = .started)
    (found : (Config.findDocument inDirectory (prepareLogs inDirectory shared.files)).2 =
      .ok "cfg/config.toml")
    (loaded : Config.load shared.files "cfg/config.toml" = .ok config)
    (selected : config.profile (serviceName who) = .ok serviceProfile) :
    shared.turn services who = loading shared who config := by
  have next : (services who).turn (shared.files, shared.stage who) =
      (opened shared.files, .loaded config serviceProfile) := by
    rw [started]
    cases who <;> exact load_loggingIn found loaded selected
  rw [Shared.turn, next]
  rfl

theorem place_services (who : Bool) : Config.directory? (services who).chosen = some "cfg" := by
  cases who <;> rfl

theorem load_services {shared : Shared} {who : Bool} {left : TokenSave}
    (sound : shared.Sound services (Files.join "cfg" "config.toml"))
    (unsaved : (shared.stage who).saved? = none)
    (saved : ((shared.turn services who).stage who).saved? = some left) :
    Config.load (shared.turn services who).files "cfg/config.toml" =
      .ok ((services who).document left) := by
  have path : Files.join "cfg" "config.toml" = "cfg/config.toml" := by decide +kernel
  rw [← path]
  refine (Shared.turned_turn place_services sound who).turns.load_document (fun left there => ?_)
    (Stage.saved?_eq_some_iff.mp saved)
  rw [Stage.saved?_eq_some_iff.mpr there] at unsaved
  cases unsaved

def served : Shared := Shared.start (filesWith sharedConfig.print)

theorem sound_served (schedule : List Bool) :
    (served.run services schedule).Sound services (Files.join "cfg" "config.toml") :=
  Shared.sound_run place_services (Shared.sound_start _ _) schedule

theorem load_served : Config.load served.files "cfg/config.toml" = .ok sharedConfig :=
  Config.load_of_read (read_filesWith _) (List.pairwise_pair.mpr (by decide +kernel))

theorem turn_served : served.turn services false = loading served false sharedConfig :=
  turn_services rfl (by decide +kernel) load_served rfl

def newToken (who : Bool) : String := if who then "second" else "first"

/-- What one of them leaves that has loaded a configuration. -/
def leaving (config : Config) (who : Bool) : TokenSave :=
  ⟨config, { serviceProfile with token := newToken who },
    ⟨0, "Logged in (service-principal)\n", ""⟩⟩

/-- The second begins when the first is over. -/
def behindServed : Shared := (loading served false sharedConfig).run services [false, false]

def behindConfig : Config := sharedConfig.withToken "backup" "first"

theorem shared_tokens_in_turn :
    ∃ final,
      Config.load (served.run services [false, false, false, true, true, true]).files
        "cfg/config.toml" = .ok final ∧
      ∀ who, final.profile (serviceName who) =
        .ok { serviceProfile with token := newToken who } := by
  have behind : served.run services [false, false, false] = behindServed := by
    rw [Shared.run_cons, turn_served, behindServed]
  have first : (behindServed.stage false).saved? = some (leaving sharedConfig false) := by
    decide +kernel
  have loaded : Config.load behindServed.files "cfg/config.toml" = .ok behindConfig := by
    rw [← behind] at first ⊢
    refine load_services (sound_served [false, false]) ?_ first
    rw [Shared.run_cons, turn_served]
    decide +kernel
  have next : behindServed.turn services true = loading behindServed true behindConfig :=
    turn_services rfl (by decide +kernel) loaded rfl
  have final : served.run services [false, false, false, true, true, true] =
      (loading behindServed true behindConfig).run services [true, true] := by
    have parts := Shared.run_append services served [false, false, false] [true, true, true]
    rw [behind, Shared.run_cons, next] at parts
    exact parts
  have ends : ∀ who, (served.run services [false, false, false, true, true, true]).stage who =
      .saved (leaving (if who then behindConfig else sharedConfig) who) := by
    rw [final]
    intro who
    rw [← Stage.saved?_eq_some_iff]
    cases who <;> decide +kernel
  obtain ⟨last, result⟩ := shared_tokens place_services ends (by decide)
  have path : Files.join "cfg" "config.toml" = "cfg/config.toml" := by decide +kernel
  refine ⟨last, path ▸ result.loaded, fun who => ?_⟩
  have kept := result.kept [false, false, false] true (by decide)
  rw [← served, behind] at kept
  have both := kept ⟨rfl, _, Stage.saved?_eq_some_iff.mp first⟩ who
  cases who <;> exact both

/-- Where both have loaded the same, the last to save takes the new token of the other away. -/
theorem shared_tokens_overlapping :
    Config.load (served.run services [false, true, false, false, true, true]).files
        "cfg/config.toml" = .ok (sharedConfig.withToken "service" "second") ∧
      (∀ who, (served.run services [false, true, false, false, true, true]).stage who =
        .saved (leaving sharedConfig who)) ∧
      (sharedConfig.withToken "service" "second").profile "backup" = .ok serviceProfile := by
  have reloaded : Config.load (opened served.files) "cfg/config.toml" = .ok sharedConfig :=
    Config.load_grown (grown_opening _ _) load_served (Config.profile_eq_ok_iff.mp
      (show sharedConfig.profile "service" = .ok serviceProfile from rfl))
  have next : (loading served false sharedConfig).turn services true =
      loading (loading served false sharedConfig) true sharedConfig :=
    turn_services rfl (by decide +kernel) reloaded rfl
  have reached : ∀ rest, served.run services (false :: true :: rest) =
      (loading (loading served false sharedConfig) true sharedConfig).run services rest := by
    intro rest
    rw [Shared.run_cons, Shared.run_cons, turn_served, next]
  have ends : ∀ who, (served.run services [false, true, false, false, true, true]).stage who =
      .saved (leaving sharedConfig who) := by
    rw [reached]
    intro who
    rw [← Stage.saved?_eq_some_iff]
    cases who <;> decide +kernel
  refine ⟨?_, ends, rfl⟩
  refine load_services (sound_served [false, true, false, false, true]) ?_
    (Stage.saved?_eq_some_iff.mpr (ends true))
  rw [reached]
  decide +kernel

end Runs

end PlatformClient.Launch
