import PlatformClient.Proofs.CallAddresses

namespace PlatformClient

namespace Text

variable {cs : List Char} {limit : Nat}

theorem abbreviateChars_of_le (short : cs.length ≤ limit) : abbreviateChars cs limit = cs :=
  if_pos short

theorem abbreviateChars_zero (cs : List Char) : abbreviateChars cs 0 = [] := by
  rw [abbreviateChars]
  split_ifs with short
  · exact List.length_eq_zero_iff.mp (Nat.le_zero.mp short)
  · rfl

theorem abbreviateChars_of_lt {kept : Nat} (long : kept + 1 < cs.length) :
    abbreviateChars cs (kept + 1) = cs.take kept ++ [ellipsis] :=
  if_neg (Nat.not_le.mpr long)

theorem length_abbreviateChars (cs : List Char) (limit : Nat) :
    (abbreviateChars cs limit).length = min cs.length limit := by
  rcases Nat.lt_or_ge limit cs.length with long | short
  · cases limit with
    | zero => rw [abbreviateChars_zero, Nat.min_zero, List.length_nil]
    | succ kept =>
      rw [abbreviateChars_of_lt long, List.length_append, List.length_take, List.length_singleton]
      omega
  · rw [abbreviateChars_of_le short, Nat.min_eq_left short]

/-- What is abbreviated twice is cut at the lower one of both limits: a lower second limit
takes the ellipsis of the first cut off again. -/
theorem abbreviateChars_abbreviateChars (cs : List Char) (first second : Nat) :
    abbreviateChars (abbreviateChars cs first) second = abbreviateChars cs (min first second) := by
  have length := length_abbreviateChars cs first
  rcases Nat.lt_or_ge second first with below | within
  · rw [Nat.min_eq_right below.le]
    rcases Nat.lt_or_ge first cs.length with long | short
    · obtain ⟨left, rfl⟩ : ∃ left, first = left + 1 := ⟨first - 1, by omega⟩
      cases second with
      | zero => rw [abbreviateChars_zero, abbreviateChars_zero]
      | succ kept =>
        have within : kept ≤ (cs.take left).length := by
          rw [List.length_take]
          omega
        -- The ellipsis of the first cut is behind the second cut.
        rw [abbreviateChars_of_lt (by omega : kept + 1 < (abbreviateChars cs (left + 1)).length),
          abbreviateChars_of_lt long, abbreviateChars_of_lt (below.trans long),
          List.take_append_of_le_length within, List.take_take,
          Nat.min_eq_left (by omega : kept ≤ left)]
    · rw [abbreviateChars_of_le short]
  · rw [abbreviateChars_of_le (by omega), Nat.min_eq_left within]

theorem toList_abbreviate (s : String) (limit : Nat) :
    (abbreviate s limit).toList = abbreviateChars s.toList limit := String.toList_ofList

/-- A text is the short form of another one for a limit on its length. The ellipsis counts
as one of the characters, so there is none within a limit of zero. -/
structure Abbreviates (s : String) (limit : Nat) (short : String) : Prop where
  length : short.length = min s.length limit
  whole : s.length ≤ limit → short = s
  cut : limit < s.length →
    short = if limit = 0 then "" else String.ofList (s.toList.take (limit - 1) ++ [ellipsis])

theorem abbreviates_abbreviate (s : String) (limit : Nat) :
    Abbreviates s limit (abbreviate s limit) where
  length := by
    rw [← String.length_toList, toList_abbreviate, length_abbreviateChars, String.length_toList]
  whole short := by
    rw [abbreviate, abbreviateChars_of_le (by rwa [String.length_toList]), String.ofList_toList]
  cut long := by
    rw [← String.length_toList] at long
    rw [abbreviate]
    cases limit with
    | zero => rw [abbreviateChars_zero, if_pos rfl, String.ofList_nil]
    | succ kept => rw [abbreviateChars_of_lt long, if_neg kept.succ_ne_zero, Nat.add_sub_cancel]

theorem abbreviate_abbreviate (s : String) (first second : Nat) :
    abbreviate (abbreviate s first) second = abbreviate s (min first second) := by
  rw [abbreviate, toList_abbreviate, abbreviateChars_abbreviateChars, abbreviate]

theorem of_mem_abbreviateChars {c : Char} (inside : c ∈ abbreviateChars cs limit) :
    c ∈ cs ∨ c = ellipsis := by
  rcases Nat.lt_or_ge limit cs.length with long | short
  · cases limit with
    | zero =>
      rw [abbreviateChars_zero] at inside
      cases inside
    | succ kept =>
      rw [abbreviateChars_of_lt long, List.mem_append, List.mem_singleton] at inside
      exact inside.imp_left List.mem_of_mem_take
  · rw [abbreviateChars_of_le short] at inside
    exact Or.inl inside

end Text

namespace Url

/-- The addresses that there are: those that are read, and those that calls make of them.
What is made has no query but that of its call. -/
inductive Made : Url → Prop
  | read {text : String} {url : Url} : Url.read text = .ok url → Made url
  | join {base url : Url} {callPath : String} : Made base → base.join? callPath = some url → Made url

variable {url : Url}

theorem scheme_of_join? {base : Url} {callPath : String} (joined : base.join? callPath = some url) :
    url.scheme = base.scheme := by
  rw [join?] at joined
  split_ifs at joined
  cases joined
  rfl

/-- Every address of the web is sound, however many calls it has been made by. Joining keeps
the scheme, so the address it all began with is one of the web too. -/
theorem Made.sound (made : Made url) (web : IsWeb url.scheme) : Sound url := by
  induction made with
  | read known => exact sound_of_read known web
  | @join base url callPath _ joined ih =>
    have sound : Sound base := ih (scheme_of_join? joined ▸ web)
    obtain ⟨names, areSegments, made⟩ := join?_eq sound callPath
    cases joined.symm.trans (made base.query base.fragment)
    refine ⟨web, sound.authority, ⟨names, rfl, areSegments⟩, fun query inside => ?_, nofun⟩
    obtain ⟨cs, -, rfl⟩ := Option.map_eq_some_iff.mp inside
    exact escaped_encodeQuery web _

/-- A question mark in a path is escaped, so none of them is left to be mistaken for the one
in front of a query. -/
theorem question_not_mem_path (sound : Sound url) : '?' ∉ url.path.print := by
  obtain ⟨names, path, areSegments⟩ := sound.path
  rw [path]
  exact fun inside => (within_printSegments areSegments.each '?' inside).2.1 rfl

theorem displayPath_of_none (none : url.query = none ∨ url.query = some "") :
    url.displayPath = Text.abbreviate url.pathText displayedPathLength := by
  rw [displayPath, Text.abbreviate, pathText, String.toList_ofList]
  rcases none with none | empty
  · simp [none]
  · simp [empty]

theorem displayPath_of_query {query : String} (known : url.query = some query)
    (filled : query ≠ "") : url.displayPath =
      Text.abbreviate url.pathText displayedPathLength ++ "?" ++
        Text.abbreviate query displayedQueryLength := by
  have shown : query.isEmpty = false := by simpa using filled
  rw [← String.toList_inj, displayPath, Text.abbreviate, Text.abbreviate, pathText, known]
  simp [shown]

theorem length_displayPath_le (url : Url) :
    url.displayPath.length ≤ displayedPathLength + 1 + displayedQueryLength := by
  have path := (Text.abbreviates_abbreviate url.pathText displayedPathLength).length
  by_cases none : url.query = none ∨ url.query = some ""
  · rw [displayPath_of_none none, path]
    omega
  · obtain ⟨absent, empty⟩ := not_or.mp none
    obtain ⟨query, known⟩ := Option.ne_none_iff_exists'.mp absent
    have rest := (Text.abbreviates_abbreviate query displayedQueryLength).length
    rw [displayPath_of_query known fun same => empty (same ▸ known), String.length_append,
      String.length_append, path, rest]
    have mark : "?".length = 1 := rfl
    omega

/-- A text is abbreviated to a limit, and twice as to the lower one of two limits. So the
label of an address is short, and in that of an address of the web the first question mark
parts the path from the query. The bound holds of any address, while the parting needs one
that is sound: the query of a label may well have further question marks. -/
theorem abbreviated_labels :
    (∀ (s : String) (limit : Nat), Text.Abbreviates s limit (Text.abbreviate s limit)) ∧
    (∀ (s : String) (first second : Nat), Text.abbreviate (Text.abbreviate s first) second =
      Text.abbreviate s (min first second)) ∧
    (∀ url : Url, url.displayPath.length ≤ 57) ∧
    ∀ url : Url, Made url → IsWeb url.scheme →
      (url.query = none ∨ url.query = some "" →
        url.displayPath = Text.abbreviate url.pathText 50 ∧ '?' ∉ url.displayPath.toList) ∧
      ∀ query, url.query = some query → query ≠ "" →
        url.displayPath.toList = (Text.abbreviate url.pathText 50).toList ++
          '?' :: (Text.abbreviate query 6).toList ∧
        '?' ∉ (Text.abbreviate url.pathText 50).toList := by
  refine ⟨Text.abbreviates_abbreviate, Text.abbreviate_abbreviate, length_displayPath_le,
    fun url made web => ?_⟩
  have plain : '?' ∉ (Text.abbreviate url.pathText 50).toList := by
    rw [Text.toList_abbreviate, pathText, String.toList_ofList]
    intro inside
    rcases Text.of_mem_abbreviateChars inside with path | mark
    · exact question_not_mem_path (made.sound web) path
    · cases mark
  refine ⟨fun absent => ?_, fun query known filled => ?_⟩
  · have path : url.displayPath = Text.abbreviate url.pathText 50 := displayPath_of_none absent
    exact ⟨path, path ▸ plain⟩
  · have parted : url.displayPath = Text.abbreviate url.pathText 50 ++ "?" ++
        Text.abbreviate query 6 := displayPath_of_query known filled
    rw [parted]
    exact ⟨by simp, plain⟩

/-- A base with a query and a fragment of its own. -/
def storeBase : Url where
  scheme := "http"
  authority := some ⟨"", none, .domain "platform.test", none⟩
  path := .segments ["store"]
  query := some "old"
  fragment := some "top"

/-- An address of which both the path and the query are too long for a label. -/
def objectAddress : Url where
  scheme := "http"
  authority := storeBase.authority
  path := .segments ["store", "objects", "0123456789", "0123456789", "0123456789", "0123456789"]
  query := some "filter=?a"
  fragment := none

theorem abbreviated_labels_cut :
    Made objectAddress ∧ IsWeb objectAddress.scheme ∧ objectAddress.query = some "filter=?a" ∧
      objectAddress.displayPath = "/store/objects/0123456789/0123456789/0123456789/0…?filte…" ∧
      objectAddress.displayPath.toList = (Text.abbreviate objectAddress.pathText 50).toList ++
        '?' :: (Text.abbreviate "filter=?a" 6).toList ∧
      '?' ∉ (Text.abbreviate objectAddress.pathText 50).toList := by
  have known : read "http://platform.test/store?old#top" = .ok storeBase := by decide +kernel
  have joined : storeBase.join?
      "objects/0123456789/0123456789/0123456789/0123456789?filter=?a" = some objectAddress := by
    decide +kernel
  have made : Made objectAddress := .join (.read known) joined
  obtain ⟨-, -, -, labels⟩ := abbreviated_labels
  have parted := (labels objectAddress made (Or.inl rfl)).2 "filter=?a" rfl (by decide)
  exact ⟨made, Or.inl rfl, rfl, by decide +kernel, parted⟩

end Url

end PlatformClient
