import Mathlib.Data.String.Basic
import PlatformClient.Config.Document
import PlatformClient.Proofs.SortedEntries
import PlatformClient.Proofs.TomlDocuments

namespace PlatformClient.Config

open Toml

section Lines

/-- The line of a text that may be empty. -/
def optionalLine (name text : String) : List (String × String) :=
  if text.isEmpty then [] else [(name, text)]

def profileLines (profile : Profile) : List (String × String) :=
  [("url", profile.url), ("auth_method", profile.authMethod.name)] ++
    optionalLine "token" profile.token ++ optionalLine "tenant_id" profile.tenantId ++
    optionalLine "client_id" profile.clientId ++ optionalLine "client_secret" profile.clientSecret

def identityLines (identity : LocalIdentity) : List (String × String) :=
  [("principal_type", identity.principalType), ("principal_id", identity.principalId),
    ("tenant_id", identity.tenantId)]

def printLines (lines : List (String × String)) : List Char :=
  lines.flatMap fun line => printEntry line.1 line.2

theorem printLines_optionalLine (name text : String) :
    printLines (optionalLine name text) = printOptional name text := by
  unfold optionalLine printOptional
  split_ifs
  · rfl
  · exact List.append_nil _

theorem printLines_append (first rest : List (String × String)) :
    printLines (first ++ rest) = printLines first ++ printLines rest := List.flatMap_append

/-- A profile is printed as two tables of lines. -/
theorem printProfile_eq (name : String) (profile : Profile) (rest : List Char) :
    printProfile name profile ++ rest =
      '\n' :: (printHeader (["profiles"] ++ [name]) ++ (printLines (profileLines profile) ++
        '\n' :: (printHeader (["profiles", name] ++ ["local_auth"]) ++
          (printLines (identityLines profile.identity) ++ rest)))) := by
  have optional := printLines_optionalLine
  simp only [printProfile, profileLines, printLines_append, optional]
  simp [printLines, identityLines]

theorem names_profileLines (profile : Profile) :
    ((profileLines profile).map (·.1)).Sublist
      ["url", "auth_method", "token", "tenant_id", "client_id", "client_secret"] := by
  have optional (name text : String) : ((optionalLine name text).map (·.1)).Sublist [name] := by
    unfold optionalLine
    split_ifs
    · exact List.nil_sublist _
    · exact List.Sublist.refl _
  simp only [profileLines, List.map_append]
  exact ((((List.Sublist.refl ["url", "auth_method"]).append (optional "token" _)).append
    (optional "tenant_id" _)).append (optional "client_id" _)).append (optional "client_secret" _)

end Lines

section Drafts

def profileDraft (profile : Profile) : Draft.Entries :=
  leaves (profileLines profile) ++
    [("local_auth", .table .header (leaves (identityLines profile.identity)))]

def profileDrafts (profiles : List (String × Profile)) : Draft.Entries :=
  profiles.map fun (name, profile) => (name, .table .header (profileDraft profile))

/-- The line of the current profile. -/
def currentDraft (config : Config) : Draft.Entries :=
  leaves [("current_profile", config.currentProfile)]

/-- The table of all profiles, behind the line of the current one. -/
def profilesLevel (config : Config) : Level := ⟨currentDraft config, "profiles", .parent⟩

theorem fresh_profilesLevel (config : Config) : (profilesLevel config).Fresh := by
  change "profiles" ∉ ["current_profile"]
  decide

/-- The tables of a profile are read behind those of other profiles. Its own header opens a
table in that of all profiles, and the header of the identity opens one within it. -/
theorem reads_profile {config : Config} {earlier : List (String × Profile)} {name : String}
    {profile : Profile} {document final : Document} {rest : List Char}
    (fresh : name ∉ earlier.map (·.1))
    (opened : Draft.openTable ["profiles"] name document.entries =
      some (within [profilesLevel config, ⟨profileDrafts earlier, name, .header⟩] []))
    (later : Reads ⟨within [profilesLevel config] (profileDrafts (earlier ++ [(name, profile)])),
      ["profiles", name, "local_auth"]⟩ rest final) :
    Reads document (printProfile name profile ++ rest) final := by
  have names : (profileDrafts earlier).map (·.1) = earlier.map (·.1) := by
    simp [profileDrafts]
  have keys : (leaves (profileLines profile)).map (·.1) = (profileLines profile).map (·.1) := by
    simp [leaves]
  have sub := names_profileLines profile
  have outer : ∀ level ∈ [profilesLevel config, ⟨profileDrafts earlier, name, .header⟩],
      level.Fresh := by
    simp only [List.forall_mem_cons]
    refine ⟨fresh_profilesLevel config, ?_, List.forall_mem_nil _⟩
    rwa [Level.Fresh, names]
  have inner : "local_auth" ∉ (leaves (profileLines profile)).map (·.1) := by
    rw [keys]
    intro member
    exact absurd (sub.subset member) (by decide)
  have openedIdentity : Draft.openTable ["profiles", name] "local_auth"
      (within [profilesLevel config, ⟨profileDrafts earlier, name, .header⟩]
        ([] ++ leaves (profileLines profile))) = some _ := openTable_within outer inner
  have headed : innermost .header [profilesLevel config, ⟨profileDrafts earlier, name, .header⟩] ≠
      .dotted := by
    intro same
    cases same
  have headedIdentity : innermost .header
      ([profilesLevel config, ⟨profileDrafts earlier, name, .header⟩] ++
        [⟨[] ++ leaves (profileLines profile), "local_auth", .header⟩]) ≠ .dotted := by
    intro same
    cases same
  rw [printProfile_eq]
  refine reads_blank (reads_header opened (Nat.lt_of_sub_eq_succ rfl) ?_)
  refine reads_entries outer headed (by simpa using sub.nodup (by decide)) ?_
  refine reads_blank (reads_header openedIdentity (Nat.lt_of_sub_eq_succ rfl) ?_)
  refine reads_entries ?_ headedIdentity (by simp [identityLines]) ?_
  · intro level member
    rcases List.mem_append.mp member with member | member
    · exact outer level member
    · rw [List.mem_singleton.mp member]
      exact inner
  · rw [profileDrafts, List.map_append] at later
    exact later

/-- A configuration without profiles has an empty table of them. -/
def finalEntries (config : Config) : Draft.Entries :=
  if config.profiles.isEmpty then currentDraft config ++ [("profiles", .table .header [])]
  else within [profilesLevel config] (profileDrafts config.profiles)

theorem reads_profiles (config : Config) {earlier later : List (String × Profile)}
    (distinct : ((earlier ++ later).map (·.1)).Nodup) (current : List String) :
    ∃ final, final.entries = within [profilesLevel config] (profileDrafts (earlier ++ later)) ∧
      Reads ⟨within [profilesLevel config] (profileDrafts earlier), current⟩
        (later.flatMap fun (name, profile) => printProfile name profile) final := by
  -- The profiles that have been read stand complete in front of the table of the next one.
  induction later generalizing earlier current with
  | nil => exact ⟨_, by rw [List.append_nil], reads_nil _⟩
  | cons entry later ih =>
    obtain ⟨name, profile⟩ := entry
    have fresh : name ∉ earlier.map (·.1) := by
      rw [List.map_append, List.map_cons] at distinct
      intro member
      exact (List.nodup_append.mp distinct).2.2 _ member _ List.mem_cons_self rfl
    have opened : Draft.openTable ["profiles"] name
        (within [profilesLevel config] (profileDrafts earlier)) =
          some (within [profilesLevel config, ⟨profileDrafts earlier, name, .header⟩] []) := by
      have outer : ∀ level ∈ [profilesLevel config], level.Fresh :=
        List.forall_mem_singleton.mpr (fresh_profilesLevel config)
      exact openTable_within outer (by simpa [profileDrafts] using fresh)
    have rest : ((earlier ++ [(name, profile)] ++ later).map (·.1)).Nodup := by simpa using distinct
    obtain ⟨final, entries, reads⟩ := ih rest ["profiles", name, "local_auth"]
    exact ⟨final, by simpa using entries, reads_profile fresh opened reads⟩

/-- The lines of a printed configuration are its tables. The current profile comes first,
outside of all tables, and the profiles follow by induction. -/
theorem reads_print {config : Config} (distinct : (config.profiles.map (·.1)).Nodup) :
    ∃ final, final.entries = finalEntries config ∧ Reads ⟨[], []⟩ config.print.toList final := by
  have current : Draft.change .parent
      (Draft.assign [] "current_profile" (.string config.currentProfile))
      [] .header [] = some (currentDraft config) := rfl
  rw [print, String.toList_ofList, printProfiles, finalEntries]
  cases profiles : config.profiles with
  | nil =>
    have opened : Draft.openTable [] "profiles" (currentDraft config) =
        some (currentDraft config ++ [("profiles", .table .header [])]) :=
      openTable_within (List.forall_mem_nil _) (fresh_profilesLevel config)
    have few : ([] : List String).length < depthLimit := by decide
    have table : Reads ⟨currentDraft config, []⟩ (printHeader ([] ++ ["profiles"]) ++ []) _ :=
      reads_header opened few (reads_nil _)
    rw [List.append_nil] at table
    exact ⟨_, rfl, reads_entry current (reads_blank table)⟩
  | cons entry later =>
    obtain ⟨name, profile⟩ := entry
    have opened : Draft.openTable ["profiles"] name (currentDraft config) =
        some (within [profilesLevel config, ⟨profileDrafts [], name, .header⟩] []) :=
      openTable_missing (fresh_profilesLevel config)
    rw [profiles] at distinct
    have rest : (([(name, profile)] ++ later).map (·.1)).Nodup := distinct
    obtain ⟨final, entries, reads⟩ := reads_profiles config rest ["profiles", name, "local_auth"]
    exact ⟨final, entries, reads_entry current (reads_profile List.not_mem_nil opened reads)⟩

end Drafts

section Values

/-- Lines as the entries of a table. -/
def textEntries (lines : List (String × String)) : Toml.Entries :=
  lines.map fun (name, text) => (name, .string text)

theorem lookup_textEntries (lines : List (String × String)) (key : String) :
    (textEntries lines).lookup key = (lines.lookup key).map Toml.string := by
  induction lines with
  | nil => rfl
  | cons line lines ih =>
    obtain ⟨name, text⟩ := line
    rw [textEntries, List.map_cons, List.lookup_cons, List.lookup_cons]
    cases key == name
    · exact ih
    · rfl

theorem lookup_optionalLine (name text key : String) :
    (optionalLine name text).lookup key =
      if key = name ∧ ¬ text.isEmpty then some text else none := by
  unfold optionalLine
  by_cases empty : text.isEmpty
  · simp [empty]
  · by_cases same : key = name
    · simp [empty, same]
    · simp [empty, same, List.lookup_cons, beq_false_of_ne same]

/-- A text that is left out where it is empty is read as it was. -/
theorem optionalText_of_lookup {entries : Toml.Entries} {key text : String}
    (found : entries.lookup key = (if ¬ text.isEmpty then some text else none).map Toml.string) :
    optionalText entries key = some text := by
  rw [optionalText, Entries.get?, found]
  by_cases empty : text.isEmpty
  · simp [String.isEmpty_iff.mp empty]
  · simp [empty, Toml.string?]

theorem readIdentity_lines (identity : LocalIdentity) :
    readIdentity (.table (textEntries (identityLines identity))) = some identity := rfl

/-- The entries of a profile in a document. -/
def profileEntries (profile : Profile) : Toml.Entries :=
  textEntries (profileLines profile) ++
    [("local_auth", .table (textEntries (identityLines profile.identity)))]

theorem lookup_profileEntries (profile : Profile) {key : String} (other : key ≠ "local_auth") :
    (profileEntries profile).lookup key = ((profileLines profile).lookup key).map Toml.string := by
  rw [profileEntries, List.lookup_append, lookup_textEntries, List.lookup_cons,
    beq_false_of_ne other]
  simp

theorem optionalText_profileEntries (profile : Profile) :
    ∀ line ∈ [("token", profile.token), ("tenant_id", profile.tenantId),
      ("client_id", profile.clientId), ("client_secret", profile.clientSecret)],
      optionalText (profileEntries profile) line.1 = some line.2 := by
  intro line member
  refine optionalText_of_lookup ?_
  simp only [List.mem_cons, List.not_mem_nil, or_false] at member
  rcases member with rfl | rfl | rfl | rfl <;>
    simp [lookup_profileEntries, profileLines, List.lookup_append, lookup_optionalLine,
      List.lookup_cons]

theorem readProfile_entries (profile : Profile) :
    readProfile (.table (profileEntries profile)) = some profile := by
  have url : (profileEntries profile).get? "url" = some (.string profile.url) := by
    simp [Entries.get?, lookup_profileEntries, profileLines]
  have method : (profileEntries profile).get? "auth_method" =
      some (.string profile.authMethod.name) := by
    simp [Entries.get?, lookup_profileEntries, profileLines, List.lookup_cons]
  have identity : (profileEntries profile).get? "local_auth" =
      some (.table (textEntries (identityLines profile.identity))) := by
    simp [Entries.get?, profileEntries, List.lookup_append, lookup_textEntries, profileLines,
      lookup_optionalLine, List.lookup_cons]
  have optional := optionalText_profileEntries profile
  simp only [List.forall_mem_cons] at optional
  obtain ⟨token, tenant, client, secret, -⟩ := optional
  have known : AuthMethod.ofName? profile.authMethod.name = some profile.authMethod :=
    AuthMethod.ofName?_name _
  simp [readProfile, Toml.record?, url, method, identity, token, tenant, client, secret,
    readIdentity_lines, readAuthMethod, Toml.choice?, Toml.string?, known]

end Values

section Order

/-- Profiles are kept sorted by name, each of which is there once. -/
def Sorted (profiles : List (String × Profile)) : Prop := profiles.Pairwise (·.1 < ·.1)

theorem insertProfile_eq_set (name : String) (profile : Profile)
    (profiles : List (String × Profile)) :
    insertProfile name profile profiles = Entries.set name profile profiles := by
  induction profiles with
  | nil => rfl
  | cons first profiles ih => simp only [insertProfile, Entries.set, ih]

theorem insertProfile_last {profiles : List (String × Profile)} {name : String}
    (smaller : ∀ entry ∈ profiles, entry.1 < name) (profile : Profile) :
    insertProfile name profile profiles = profiles ++ [(name, profile)] := by
  rw [insertProfile_eq_set, Entries.set_last smaller]

theorem sorted_insertProfile {profiles : List (String × Profile)} (sorted : Sorted profiles)
    (name : String) (profile : Profile) : Sorted (insertProfile name profile profiles) := by
  rw [insertProfile_eq_set]
  exact Entries.Sorted.set sorted name profile

/-- A profile that is there already is replaced in its place. The profiles are sorted by
name, so that its place is the only one where it can be. -/
theorem insertProfile_replaces {profiles : List (String × Profile)} (sorted : Sorted profiles)
    {name : String} (known : name ∈ profiles.map (·.1)) (profile : Profile) :
    insertProfile name profile profiles =
      profiles.map fun entry => if entry.1 = name then (name, profile) else entry := by
  induction profiles with
  | nil => exact absurd known List.not_mem_nil
  | cons first profiles ih =>
    obtain ⟨smaller, rest⟩ := List.pairwise_cons.mp sorted
    rw [insertProfile, List.map_cons]
    by_cases same : name = first.1
    · have others : ∀ entry ∈ profiles, ¬ entry.1 = name := fun entry member =>
        ne_of_gt (same ▸ smaller entry member)
      have kept : (profiles.map fun entry => if entry.1 = name then (name, profile) else entry) =
          profiles := by
        refine (List.map_congr_left fun entry member => ?_).trans (List.map_id profiles)
        exact if_neg (others entry member)
      rw [if_neg (same ▸ String.lt_irrefl _), if_pos same, if_pos same.symm, kept]
    · have later : name ∈ profiles.map (·.1) := by
        rw [List.map_cons, List.mem_cons] at known
        exact known.resolve_left same
      obtain ⟨entry, member, rfl⟩ := List.mem_map.mp later
      rw [if_neg (String.lt_asymm (smaller entry member)), if_neg same, if_neg (Ne.symm same),
        ih rest later]

theorem sorted_readProfiles {entries : Toml.Entries} {profiles : List (String × Profile)}
    (read : readProfiles entries = some profiles) : Sorted profiles := by
  suffices kept : ∀ earlier, Sorted earlier →
      entries.foldlM (fun profiles entry =>
        (readProfile entry.2).map (insertProfile entry.1 · profiles)) earlier = some profiles →
      Sorted profiles from kept [] List.Pairwise.nil read
  clear read
  induction entries with
  | nil =>
    intro earlier sorted same
    cases same
    exact sorted
  | cons entry entries ih =>
    intro earlier sorted read
    obtain ⟨name, value⟩ := entry
    rw [List.foldlM_cons] at read
    obtain ⟨next, step, read⟩ := Option.bind_eq_some_iff.mp read
    obtain ⟨profile, -, rfl⟩ := Option.map_eq_some_iff.mp step
    exact ih _ (sorted_insertProfile sorted name profile) read

theorem readProfiles_entries {profiles : List (String × Profile)} (sorted : Sorted profiles) :
    readProfiles (profiles.map fun (name, profile) => (name, .table (profileEntries profile))) =
      some profiles := by
  suffices appended : ∀ later earlier, Sorted (earlier ++ later) →
      (later.map fun (name, profile) => (name, Toml.table (profileEntries profile))).foldlM
        (fun profiles entry => (readProfile entry.2).map (insertProfile entry.1 · profiles))
          earlier = some (earlier ++ later) from
    appended profiles [] sorted
  intro later
  induction later with
  | nil =>
    intro earlier _
    rw [List.append_nil]
    rfl
  | cons entry later ih =>
    intro earlier sorted
    obtain ⟨name, profile⟩ := entry
    have smaller : ∀ entry ∈ earlier, entry.1 < name := fun entry member =>
      (List.pairwise_append.mp sorted).2.2 entry member _ List.mem_cons_self
    rw [List.append_cons] at sorted ⊢
    have step : (readProfile (.table (profileEntries profile))).map (insertProfile name · earlier) =
        some (earlier ++ [(name, profile)]) := by
      rw [readProfile_entries, Option.map_some, insertProfile_last smaller]
    rw [List.map_cons, List.foldlM_cons]
    exact Option.bind_eq_some_iff.mpr ⟨_, step, ih _ sorted⟩

/-- What has been read of a document is sorted, in whatever order its tables stand: each
profile is put in its place as it is read. -/
theorem sorted_read {text : String} {config : Config} (known : read text = some config) :
    Sorted config.profiles := by
  unfold read at known
  obtain ⟨entries, -, known⟩ := Option.bind_eq_some_iff.mp known
  dsimp only at known
  -- whether a current profile is given, and whether there is a table of profiles
  split at known <;> split at known <;>
    simp only [Option.bind_eq_bind, Option.bind_some, Option.bind_none, Option.bind_fun_none,
      Option.bind_eq_some_iff, Option.pure_def, Option.some.injEq, reduceCtorEq] at known
  · rw [← known]
    exact List.Pairwise.nil
  · obtain ⟨profiles, table, rfl⟩ := known
    exact sorted_readProfiles table
  · obtain ⟨current, -, rfl⟩ := known
    exact List.Pairwise.nil
  · obtain ⟨current, -, profiles, table, rfl⟩ := known
    exact sorted_readProfiles table

theorem finishEntries_profileDrafts (profiles : List (String × Profile)) :
    Draft.finishEntries (profileDrafts profiles) =
      profiles.map fun (name, profile) => (name, .table (profileEntries profile)) := by
  induction profiles with
  | nil => rfl
  | cons entry profiles ih =>
    obtain ⟨name, profile⟩ := entry
    have finished : Draft.finishEntries (profileDraft profile) = profileEntries profile := by
      rw [profileDraft, finishEntries_append, finishEntries_leaves]
      rfl
    rw [profileDrafts, List.map_cons, Draft.finishEntries, Draft.finish, finished, List.map_cons]
    exact congrArg _ ih

theorem lookup_finalEntries (config : Config) :
    Entries.get? (Draft.finishEntries (finalEntries config)) "current_profile" =
        some (.string config.currentProfile) ∧
      Entries.get? (Draft.finishEntries (finalEntries config)) "profiles" =
        some (.table (config.profiles.map fun (name, profile) =>
          (name, .table (profileEntries profile)))) := by
  unfold finalEntries
  split_ifs with none
  · rw [List.isEmpty_iff.mp none]
    exact ⟨rfl, rfl⟩
  · rw [← finishEntries_profileDrafts]
    exact ⟨rfl, rfl⟩

/-- A configuration is read as it was printed. The text is read into the tables that were
printed, and these give back the values; fields that were left out for being empty are empty
again. -/
theorem read_print {config : Config} (sorted : Sorted config.profiles) :
    read config.print = some config := by
  obtain ⟨final, entries, reads⟩ := reads_print (Entries.Sorted.distinct sorted)
  have first : ∀ c more, config.print.toList = c :: more → c.toNat ≠ 0xFEFF := by
    intro c more same
    rw [print, String.toList_ofList] at same
    rw [← (List.cons.inj same).1]
    decide
  have text : Toml.read config.print = some (Draft.finishEntries (finalEntries config)) := by
    rw [Toml.read, readChars_of_reads reads first, entries]
  obtain ⟨current, profiles⟩ := lookup_finalEntries config
  rw [read, text]
  simp only [Option.bind_eq_bind, Option.bind_some, current, profiles, Toml.string?,
    readProfiles_entries sorted]
  rfl

end Order

end PlatformClient.Config
