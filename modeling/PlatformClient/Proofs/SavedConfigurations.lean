import PlatformClient.Config.Location
import PlatformClient.Proofs.ConfigDocuments
import PlatformClient.Proofs.FileTrees
import PlatformClient.Proofs.Utf8RoundTrip

namespace PlatformClient.Files

theorem contains_of_read {files : Files} {path : String} {content : Bytes}
    (known : files.read path = .ok content) : files.contains path = true := by
  rw [read, bind_eq_ok_iff] at known
  obtain ⟨entry, found, -⟩ := known
  rw [contains, found]
  rfl

end PlatformClient.Files

namespace PlatformClient.Config

section Store

theorem sorted_load {files : Files} {path : String} {config : Config}
    (loaded : load files path = .ok config) : Sorted config.profiles := by
  rw [load] at loaded
  split_ifs at loaded with present
  · split at loaded
    · cases loaded
    · split at loaded
      · cases loaded
      · rename_i known
        rw [← Except.ok.inj loaded]
        exact sorted_read known
  · rw [← Except.ok.inj loaded]
    exact List.Pairwise.nil

/-- What a document holds is loaded from the file with its text. -/
theorem load_of_read {files : Files} {path : String} {config : Config}
    (known : files.read path = .ok (Text.encode config.print)) (sorted : Sorted config.profiles) :
    load files path = .ok config := by
  have present := Files.contains_of_read known
  have text : (files.read path).toOption.bind Text.decode? = some config.print := by
    rw [known, Except.toOption, Option.bind_some, Text.decode?_encode]
  rw [load, if_neg (not_not_intro present), text]
  simp only [read_print sorted]

/-- A configuration that has been saved is loaded again. The file that is written beside the
document takes its place, so what is read there is what was printed. -/
theorem load_of_save {config : Config} {files : Files} {path : String}
    (sorted : Sorted config.profiles) (success : (config.save files path).2 = .ok ()) :
    load (config.save files path).1 path = .ok config := by
  rw [save] at success ⊢
  split at success
  · cases success
  · rename_i made _
    rw [replaceDocument] at success ⊢
    split at success
    · cases success
    · rename_i written first
      split at success
      · cases success
      · rename_i renamed second
        exact load_of_read (Files.read_of_replaced first second) sorted

/-- A configuration is what its document holds, whatever its texts are, and what has been
saved is loaded again. Nothing is asked of the texts: names and values with quotes, line
ends or controls are written in a way in which they can be read. -/
theorem document_round_trip {config : Config} (sorted : Sorted config.profiles) :
    read config.print = some config ∧
      ∀ files path, (config.save files path).2 = .ok () →
        load (config.save files path).1 path = .ok config :=
  ⟨read_print sorted, fun _ _ success => load_of_save sorted success⟩

/-- Texts that are hard to write: empty ones, quotes of both kinds, line ends and controls. -/
def awkwardConfig : Config where
  currentProfile := "it's \"here\"\\\n"
  profiles := [
    ("", { url := "" }),
    ("a.b\t\"'", {
      url := "'''\"\"\"\n", authMethod := .servicePrincipal, token := "\u0000\u007f\\",
      clientSecret := "\n'\"\"\" \\" }),
    ("ünï", {
      url := "http://h/", authMethod := .local, tenantId := "\r\n",
      identity := ⟨"C:\\temp", "漢字", ""⟩ })]

theorem document_round_trip_awkward :
    Sorted awkwardConfig.profiles ∧
      (awkwardConfig.save (Files.emptyAt ["work"]) "cfg/config.toml").2 = .ok () ∧
      load (awkwardConfig.save (Files.emptyAt ["work"]) "cfg/config.toml").1 "cfg/config.toml" =
        .ok awkwardConfig := by
  have sorted : Sorted awkwardConfig.profiles := by
    simp only [Sorted, awkwardConfig]
    decide +kernel
  have success : (awkwardConfig.save (Files.emptyAt ["work"]) "cfg/config.toml").2 = .ok () := by
    decide +kernel
  exact ⟨sorted, success, (document_round_trip sorted).2 _ _ success⟩

theorem profile_eq_ok_iff {config : Config} {name : String} {profile : Profile} :
    config.profile name = .ok profile ↔ config.profiles.lookup name = some profile := by
  rw [Config.profile]
  cases config.profiles.lookup name <;> simp

theorem lookup_of_mem {profiles : List (String × Profile)} (sorted : Sorted profiles)
    {entry : String × Profile} (member : entry ∈ profiles) :
    profiles.lookup entry.1 = some entry.2 := (Entries.Sorted.mem_iff_lookup sorted).mp member

/-- Where there is a profile, there is a document. -/
theorem read_of_load {files : Files} {path name : String} {config : Config} {profile : Profile}
    (loaded : load files path = .ok config)
    (known : config.profiles.lookup name = some profile) :
    ∃ content, files.read path = .ok content := by
  rw [load] at loaded
  split_ifs at loaded with present
  · cases read : files.read path with
    | ok content => exact ⟨content, rfl⟩
    | error fault =>
      rw [read] at loaded
      cases loaded
  · rw [← Except.ok.inj loaded] at known
    cases known

/-- Directories that are created do not matter to a document that is there. A missing
document would be another matter, since a directory could come to lie in its place. -/
theorem load_grown {files grown : Files} {path name : String} {config : Config}
    {profile : Profile} (more : files.Grown grown) (loaded : load files path = .ok config)
    (known : config.profiles.lookup name = some profile) : load grown path = .ok config := by
  obtain ⟨content, read⟩ := read_of_load loaded known
  have kept := more.read read
  rw [load, if_neg (not_not_intro (Files.contains_of_read read)), read] at loaded
  rw [load, if_neg (not_not_intro (Files.contains_of_read kept)), kept]
  exact loaded

/-- The configuration with another token in one of its profiles. -/
def withToken (config : Config) (name token : String) : Config :=
  { config with
    profiles := config.profiles.map fun entry =>
      if entry.1 = name then (name, { entry.2 with token := token }) else entry }

/-- The profile of a name has the new token, and every other is what it was. -/
theorem lookup_withToken (config : Config) (name token other : String) :
    (config.withToken name token).profiles.lookup other =
      (config.profiles.lookup other).map fun profile =>
        if other = name then { profile with token := token } else profile := by
  rw [withToken]
  dsimp only
  induction config.profiles with
  | nil => rfl
  | cons entry rest ih =>
    obtain ⟨key, profile⟩ := entry
    have head : (if key = name then (name, { profile with token := token }) else (key, profile)) =
        (key, if key = name then { profile with token := token } else profile) := by
      split_ifs with same
      · rw [same]
      · rfl
    rw [List.map_cons, head, lookup_cons_ite, lookup_cons_ite, ih]
    by_cases here : other = key
    · rw [if_pos here, if_pos here, here, Option.map_some]
    · rw [if_neg here, if_neg here]

/-- Setting a profile that differs in its token only changes nothing else. The profile is
replaced in its place, and all others stay in theirs. -/
theorem upsert_eq_withToken {config : Config} (sorted : Sorted config.profiles) {name : String}
    {profile : Profile} (known : config.profiles.lookup name = some profile) (token : String) :
    config.upsert name { profile with token := token } = config.withToken name token := by
  have member := Entries.mem_of_lookup known
  have there : name ∈ config.profiles.map (·.1) := List.mem_map.mpr ⟨_, member, rfl⟩
  rw [upsert, withToken, insertProfile_replaces sorted there]
  refine congrArg _ (List.map_congr_left fun entry inside => ?_)
  by_cases same : entry.1 = name
  · have found := lookup_of_mem sorted inside
    rw [same, known] at found
    rw [if_pos same, if_pos same, Option.some.inj found]
  · rw [if_neg same, if_neg same]

end Store

section Location

theorem grown_findDirectory (environment : Environment) (files : Files) :
    files.Grown (findDirectory environment files).1 := by
  rw [findDirectory]
  split
  · exact .refl files
  · rename_i directory _
    have grown := files.grown_createDirectories directory
    rw [ensureDirectory]
    split_ifs
    · exact .refl files
    · split
      · rename_i known
        rwa [known] at grown
      · rename_i known
        rwa [known] at grown

theorem grown_findDocument (environment : Environment) (files : Files) :
    files.Grown (findDocument environment files).1 := grown_findDirectory environment files

theorem grown_findLogDirectory (environment : Environment) (files : Files) :
    files.Grown (findLogDirectory environment files).1 := by
  have grown := grown_findDirectory environment files
  rw [findLogDirectory]
  split
  · rename_i known
    rwa [known] at grown
  · rename_i found directory known
    rw [known] at grown
    have more := found.grown_createDirectories (Files.join directory "logs")
    dsimp only
    split
    · rename_i made
      rw [made] at more
      exact grown.trans more
    · rename_i made
      rw [made] at more
      exact grown.trans more

end Location

end PlatformClient.Config
