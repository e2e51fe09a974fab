import PlatformClient.Proofs.Authorities
import PlatformClient.Proofs.PathSegments

namespace PlatformClient.Url

section Blanks

variable {cs : List Char}

/-- Nothing in a text counts for nothing. -/
def Visible (cs : List Char) : Prop := ∀ c ∈ cs, 0x20 < c.toNat

theorem dropWhile_isOuterBlank (visible : Visible cs) : cs.dropWhile isOuterBlank = cs := by
  cases cs with
  | nil => rfl
  | cons c rest =>
    have large := visible c List.mem_cons_self
    exact List.dropWhile_cons_of_neg (by simpa [isOuterBlank] using large)

theorem withoutOuterBlanks_eq_self (visible : Visible cs) : withoutOuterBlanks cs = cs := by
  have reversed : Visible cs.reverse := fun c inside => visible c (List.mem_reverse.mp inside)
  rw [withoutOuterBlanks, dropWhile_isOuterBlank visible, dropWhile_isOuterBlank reversed,
    List.reverse_reverse]

theorem withoutIgnored_eq_self (visible : Visible cs) : withoutIgnored cs = cs := by
  refine List.filter_eq_self.mpr fun c inside => ?_
  have large := visible c inside
  have other : ∀ {mark : Char}, mark.toNat ≤ 0x20 → (c == mark) = false := by
    intro mark small
    refine beq_false_of_ne fun same => ?_
    rw [same] at large
    omega
  rw [isIgnored, other (by decide), other (by decide), other (by decide)]
  rfl

end Blanks

section Sets

open Percent

variable {cs : List Char}

theorem visible_of_controls {c : Char} (outside : controls c = false) (space : c ≠ ' ') :
    0x20 < c.toNat := by
  simp only [controls, Bool.or_eq_false_iff, decide_eq_false_iff_not] at outside
  have other : c.toNat ≠ 0x20 := fun same => space (Char.toNat_inj.mp same)
  omega

theorem visible_fragment (escaped : Escaped fragmentSet cs) : Visible cs := by
  intro c inside
  have outside := (escaped c inside).1
  simp only [fragmentSet, Bool.or_eq_false_iff, beq_eq_false_iff_ne] at outside
  exact visible_of_controls (by simp [outside]) (by simp [outside])

theorem visible_query (escaped : Escaped specialQuerySet cs) : Visible cs := by
  intro c inside
  have outside := (escaped c inside).1
  simp only [specialQuerySet, querySet, Bool.or_eq_false_iff, beq_eq_false_iff_ne] at outside
  exact visible_of_controls (by simp [outside]) (by simp [outside])

theorem hash_not_mem_query (escaped : Escaped specialQuerySet cs) : '#' ∉ cs :=
  fun inside => absurd (escaped _ inside).1 (by decide)

end Sets

/-- An address of the web as it comes out of reading one. Each part is escaped in its own
way, and these ways keep the marks between the parts out of the parts. -/
structure Sound (url : Url) : Prop where
  web : IsWeb url.scheme
  authority : ∃ authority, url.authority = some authority ∧ authority.Sound url.scheme
  path : ∃ names, url.path = .segments names ∧ AreSegments names
  query : ∀ query ∈ url.query, Percent.Escaped Percent.specialQuerySet query.toList
  fragment : ∀ fragment ∈ url.fragment, Percent.Escaped Percent.fragmentSet fragment.toList

section Printing

variable {scheme : String} {authority : Authority} {names : List String}

theorem within_printSegments (segments : ∀ name ∈ names, IsSegment name.toList) :
    ∀ c ∈ Path.printSegments names, 0x20 < c.toNat ∧ c ≠ '?' ∧ c ≠ '#' := by
  intro c inside
  obtain ⟨name, found, inside⟩ := List.mem_flatMap.mp inside
  rcases List.mem_cons.mp inside with rfl | inside
  · decide
  · have outside := ((segments name found).escaped c inside).1
    simp only [Percent.pathSet, Percent.fragmentSet, Bool.or_eq_false_iff, beq_eq_false_iff_ne]
      at outside
    exact ⟨visible_of_controls (by simp [outside]) (by simp [outside]), by simp [outside],
      by simp [outside]⟩

theorem within_authority (sound : authority.Sound scheme) :
    ∀ c ∈ authority.print, 0x20 < c.toNat ∧ c ≠ '?' ∧ c ≠ '#' := by
  intro c inside
  obtain ⟨visible, hash, -, question, -⟩ :=
    Host.endsAuthority_eq_false_iff.mp (sound.within c inside)
  exact ⟨visible, question, hash⟩

theorem visible_scheme (web : IsWeb scheme) : Visible scheme.toList := by
  rcases web with rfl | rfl <;> simp [Visible]

theorem readScheme_web (web : IsWeb scheme) (rest : List Char) :
    readScheme (scheme.toList ++ ':' :: rest) = some (scheme, rest) := by
  rcases web with rfl | rfl <;> rfl

/-- The parts that are written one behind the other are found again. The first number sign
begins the fragment, and the first question mark in front of it the query. -/
theorem split_print {hierarchy : List Char} {query fragment : Option String}
    (noQuery : '?' ∉ hierarchy) (noFragment : '#' ∉ hierarchy)
    (plain : ∀ text ∈ query, '#' ∉ text.toList) :
    Parts.split (hierarchy ++ printQuery query ++ printFragment fragment) =
      ⟨hierarchy, query.map String.toList, fragment.map String.toList⟩ := by
  have front : '#' ∉ hierarchy ++ printQuery query := by
    intro inside
    rcases List.mem_append.mp inside with inside | inside
    · exact noFragment inside
    · cases query with
      | none => cases inside
      | some text =>
        exact plain text rfl ((List.mem_cons.mp inside).resolve_left (by decide))
  have back : Text.splitFirst '?' (hierarchy ++ printQuery query) =
      query.map fun text => (hierarchy, text.toList) := by
    cases query with
    | none => rw [printQuery, List.append_nil, Text.splitFirst_eq_none noQuery, Option.map_none]
    | some text => rw [printQuery, Text.splitFirst_append noQuery, Option.map_some]
  cases fragment with
  | none =>
    rw [printFragment, List.append_nil, Parts.split, Text.splitFirst_eq_none front]
    dsimp only
    rw [back]
    cases query <;> simp [printQuery]
  | some text =>
    rw [printFragment, Parts.split, Text.splitFirst_append front]
    dsimp only
    rw [back]
    cases query <;> simp [printQuery]

/-- Behind an authority, everything from the first slash on is the path. The authority
itself holds none. -/
theorem readHierarchy_slash (web : IsWeb scheme) (sound : authority.Sound scheme) (path : List Char)
    (query fragment : Option (List Char)) :
    readHierarchy scheme ⟨'/' :: '/' :: authority.print ++ '/' :: path, query, fragment⟩ =
      .ok (some authority, .segments (readSegments scheme ('/' :: path))) := by
  have plain : ∀ c ∈ authority.print, isSlash true c = false := by
    intro c inside
    obtain ⟨-, -, slash, -, backslash⟩ := Host.endsAuthority_eq_false_iff.mp (sound.within c inside)
    simp [isSlash, slash, backslash]
  have behind :
      ('/' :: '/' :: authority.print ++ '/' :: path).dropWhile (isSlash true) =
        authority.print ++ '/' :: path := by
    obtain ⟨c, rest, text⟩ := List.exists_cons_of_ne_nil sound.print_ne_nil
    have other : ¬ isSlash true c = true := by
      rw [plain c (text ▸ List.mem_cons_self)]
      exact Bool.false_ne_true
    rw [List.cons_append, List.cons_append, List.dropWhile_cons_of_pos rfl,
      List.dropWhile_cons_of_pos rfl, text, List.cons_append, List.dropWhile_cons_of_neg other]
  have within : ∀ c ∈ authority.print, (!isSlash true c) = true := by
    intro c inside
    rw [plain c inside]
    rfl
  have front : (authority.print ++ '/' :: path).takeWhile (!isSlash true ·) = authority.print := by
    rw [List.takeWhile_append_of_pos within]
    exact List.append_nil _
  have back : (authority.print ++ '/' :: path).dropWhile (!isSlash true ·) = '/' :: path := by
    rw [List.dropWhile_append_of_pos within]
    rfl
  rw [readHierarchy]
  dsimp only
  rw [if_neg web.ne_file, if_pos web.special, behind, readAfterSlashes, web.special, back, front,
    readAuthority_print web sound]
  rfl

theorem readHierarchy_print (web : IsWeb scheme) (sound : authority.Sound scheme)
    (areSegments : AreSegments names) (query fragment : Option (List Char)) :
    readHierarchy scheme
        ⟨'/' :: '/' :: authority.print ++ Path.printSegments names, query, fragment⟩ =
      .ok (some authority, .segments names) := by
  obtain ⟨path, begins⟩ : ∃ path, Path.printSegments names = '/' :: path := by
    obtain ⟨name, rest, rfl⟩ := List.exists_cons_of_ne_nil areSegments.nonempty
    exact ⟨_, rfl⟩
  rw [begins, readHierarchy_slash web sound, ← begins,
    readSegments_print web.special web.ne_file areSegments]

end Printing

section RoundTrip

variable {url : Url}

theorem Sound.within_hierarchy (sound : Sound url) :
    ∀ c ∈ url.printHierarchy, 0x20 < c.toNat ∧ c ≠ '?' ∧ c ≠ '#' := by
  obtain ⟨authority, host, authoritySound⟩ := sound.authority
  obtain ⟨names, path, areSegments⟩ := sound.path
  rw [printHierarchy, host, path]
  exact List.forall_mem_cons.mpr ⟨by decide, List.forall_mem_cons.mpr ⟨by decide,
    List.forall_mem_append.mpr
      ⟨within_authority authoritySound, within_printSegments areSegments.each⟩⟩⟩

theorem printChars_eq (url : Url) : url.printChars = url.scheme.toList ++ ':' ::
    (url.printHierarchy ++ printQuery url.query ++ printFragment url.fragment) := by
  simp [printChars]

theorem Sound.visible (sound : Sound url) : Visible url.printChars := by
  have query : Visible (printQuery url.query) := by
    cases known : url.query with
    | none => exact nofun
    | some text =>
      exact List.forall_mem_cons.mpr ⟨by decide, visible_query (sound.query text known)⟩
  have fragment : Visible (printFragment url.fragment) := by
    cases known : url.fragment with
    | none => exact nofun
    | some text =>
      exact List.forall_mem_cons.mpr ⟨by decide, visible_fragment (sound.fragment text known)⟩
  rw [printChars_eq]
  exact List.forall_mem_append.mpr ⟨visible_scheme sound.web, List.forall_mem_cons.mpr ⟨by decide,
    List.forall_mem_append.mpr ⟨List.forall_mem_append.mpr
      ⟨fun c inside => (sound.within_hierarchy c inside).1, query⟩, fragment⟩⟩⟩

/-- An address of the web is read from what is written of it. No character is dropped or
escaped on the way, as it has all been done when the address was read first. -/
theorem read_print (sound : Sound url) : read url.print = .ok url := by
  have visible := sound.visible
  have noQuery : '?' ∉ url.printHierarchy := fun inside => (sound.within_hierarchy _ inside).2.1 rfl
  have noFragment : '#' ∉ url.printHierarchy :=
    fun inside => (sound.within_hierarchy _ inside).2.2 rfl
  have plain : ∀ text ∈ url.query, '#' ∉ text.toList :=
    fun text known => hash_not_mem_query (sound.query text known)
  obtain ⟨authority, host, authoritySound⟩ := sound.authority
  obtain ⟨names, path, areSegments⟩ := sound.path
  have hierarchy : url.printHierarchy =
      '/' :: '/' :: authority.print ++ Path.printSegments names := by
    rw [printHierarchy, host, path]
    rfl
  have query : (url.query.map String.toList).map (encodeQuery url.scheme) = url.query := by
    cases known : url.query with
    | none => rfl
    | some text =>
      rw [Option.map_some, Option.map_some, encodeQuery, if_pos sound.web.special,
        Percent.encode_eq_self (sound.query text known), String.ofList_toList]
  have fragment : (url.fragment.map String.toList).map encodeFragment = url.fragment := by
    cases known : url.fragment with
    | none => rfl
    | some text =>
      rw [Option.map_some, Option.map_some, encodeFragment,
        Percent.encode_eq_self (sound.fragment text known), String.ofList_toList]
  rw [read, print, String.toList_ofList, readChars, withoutOuterBlanks_eq_self visible,
    withoutIgnored_eq_self visible, printChars_eq, readScheme_web sound.web]
  dsimp only
  rw [split_print noQuery noFragment plain, hierarchy,
    readHierarchy_print sound.web authoritySound areSegments]
  simp only [bind, Except.bind, pure, Except.pure, query, fragment]
  rw [← host, ← path]

theorem escaped_encodeQuery {scheme : String} (web : IsWeb scheme) (cs : List Char) :
    Percent.Escaped Percent.specialQuerySet (encodeQuery scheme cs).toList := by
  rw [encodeQuery, if_pos web.special, String.toList_ofList]
  exact Percent.escaped_encode Percent.spares_specialQuerySet cs

/-- Every address of the web that is read is one. So what holds of sound addresses holds of
all that a profile or a call can have. -/
theorem sound_of_read {text : String} (known : read text = .ok url) (web : IsWeb url.scheme) :
    Sound url := by
  rw [read, readChars] at known
  split at known
  · cases known
  · obtain ⟨⟨authority, path⟩, hierarchy, known⟩ := bind_eq_ok_iff.mp known
    cases known
    rw [readHierarchy] at hierarchy
    dsimp only at hierarchy web
    rw [if_neg web.ne_file, if_pos web.special, readAfterSlashes] at hierarchy
    obtain ⟨authority, read, hierarchy⟩ := bind_eq_ok_iff.mp hierarchy
    cases hierarchy
    refine ⟨web, ⟨authority, rfl, sound_of_readAuthority web read⟩,
      ⟨_, rfl, areSegments_readSegments web.special web.ne_file _⟩, ?_, ?_⟩
    · intro query inside
      obtain ⟨cs, -, rfl⟩ := Option.map_eq_some_iff.mp inside
      exact escaped_encodeQuery web cs
    · intro fragment inside
      obtain ⟨cs, -, rfl⟩ := Option.map_eq_some_iff.mp inside
      rw [encodeFragment, String.toList_ofList]
      exact Percent.escaped_encode Percent.spares_fragmentSet cs

end RoundTrip

end PlatformClient.Url
