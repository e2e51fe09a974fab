import Mathlib.Data.List.DropRight
import PlatformClient.Proofs.CallAddresses
import PlatformClient.Proofs.PreparedRequests
import PlatformClient.Proofs.ProfileLogins

namespace PlatformClient.Login

open Url (AreSegments IsSegment IsWeb Parts Path Sound Visible directory isSlash walk)
open Url.Percent (Escaped fragmentSet specialQuerySet)

section Slashes

variable {front : List Char} {names : List String}

theorem withoutFinalSlashes_concat (cs : List Char) {c : Char} (other : c ≠ '/') :
    withoutFinalSlashes (cs ++ [c]) = cs ++ [c] :=
  List.rdropWhile_concat_neg _ _ _ (by simpa using other)

theorem withoutFinalSlashes_concat_slash (cs : List Char) :
    withoutFinalSlashes (cs ++ ['/']) = withoutFinalSlashes cs :=
  List.rdropWhile_concat_pos _ _ _ rfl

/-- No slash is taken away from in front of another character. -/
theorem withoutFinalSlashes_append_cons (front back : List Char) {c : Char} (other : c ≠ '/') :
    withoutFinalSlashes (front ++ c :: back) = front ++ c :: withoutFinalSlashes back := by
  induction back using List.reverseRecOn with
  | nil => exact withoutFinalSlashes_concat front other
  | append_singleton back last ih =>
    have regrouped : front ++ c :: (back ++ [last]) = front ++ c :: back ++ [last] := by simp
    rw [regrouped]
    by_cases slash : last = '/'
    · rw [slash, withoutFinalSlashes_concat_slash, withoutFinalSlashes_concat_slash, ih]
    · rw [withoutFinalSlashes_concat _ slash, withoutFinalSlashes_concat _ slash, regrouped]

/-- The slashes at the end of a path are those of its empty segments. -/
theorem withoutFinalSlashes_printSegments (kept : withoutFinalSlashes front = front)
    (segments : ∀ name ∈ names, IsSegment name.toList) :
    withoutFinalSlashes (front ++ Path.printSegments names) =
      front ++ Path.printSegments (directory (.segments names)).reverse := by
  induction names using List.reverseRecOn with
  | nil =>
    change withoutFinalSlashes (front ++ []) = front ++ []
    rw [List.append_nil, kept]
  | append_singleton names name ih =>
    obtain ⟨others, last⟩ := List.forall_mem_append.mp segments
    have written : Path.printSegments (names ++ [name]) =
        Path.printSegments names ++ '/' :: name.toList := by
      simp [Path.printSegments]
    rw [written, directory, List.reverse_append, List.reverse_singleton, List.singleton_append]
    rcases name.toList.eq_nil_or_concat with empty | ⟨start, c, ends⟩
    · have dropped : name.isEmpty = true := by simpa using empty
      rw [List.dropWhile_cons_of_pos dropped, empty, ← directory, ← ih others,
        ← List.append_assoc]
      exact withoutFinalSlashes_concat_slash _
    · have inside : c ∈ name.toList := by simp [ends]
      have other : c ≠ '/' := by
        rintro rfl
        exact absurd ((List.forall_mem_singleton.mp last).whole _ inside) (by decide)
      have filled : ¬ name.isEmpty = true := by
        rw [String.isEmpty_iff, ← String.toList_eq_nil_iff, ends, List.concat_eq_append]
        exact List.append_ne_nil_of_right_ne_nil _ (List.cons_ne_nil _ _)
      have regrouped : front ++ (Path.printSegments names ++ '/' :: name.toList) =
          front ++ (Path.printSegments names ++ '/' :: start) ++ [c] := by
        simp [ends]
      rw [List.dropWhile_cons_of_neg filled, List.reverse_cons, List.reverse_reverse, written,
        regrouped, withoutFinalSlashes_concat _ other]

end Slashes

section Continued

variable {base : Url} {cs : List Char}

/-- A text that is written as it is in every part of an address, and that ends none. It
means the same letters wherever it comes to stand. -/
def Plain (cs : List Char) : Prop :=
  ∀ c ∈ cs, (0x20 < c.toNat ∧ c ≠ '?' ∧ c ≠ '#') ∧
    (specialQuerySet c = false ∧ fragmentSet c = false) ∧ c.toNat < 0x80

/-- An address that ends with its path is read from what is written of its machine and any
path that stays within its bounds. -/
theorem readChars_path {scheme : String} {authority : Url.Authority} (web : IsWeb scheme)
    (sound : authority.Sound scheme)
    (within : ∀ c ∈ cs, 0x20 < c.toNat ∧ c ≠ '?' ∧ c ≠ '#') :
    Url.readChars (scheme.toList ++ ':' :: ('/' :: '/' :: authority.print ++ '/' :: cs)) = .ok
      ⟨scheme, some authority, .segments (Url.readSegments scheme ('/' :: cs)), none, none⟩ := by
  have hierarchy : ∀ c ∈ '/' :: '/' :: authority.print ++ '/' :: cs,
      0x20 < c.toNat ∧ c ≠ '?' ∧ c ≠ '#' :=
    List.forall_mem_cons.mpr ⟨by decide, List.forall_mem_cons.mpr ⟨by decide,
      List.forall_mem_append.mpr ⟨Url.within_authority sound,
        List.forall_mem_cons.mpr ⟨by decide, within⟩⟩⟩⟩
  have visible : Visible (scheme.toList ++ ':' :: ('/' :: '/' :: authority.print ++ '/' :: cs)) :=
    List.forall_mem_append.mpr ⟨Url.visible_scheme web, List.forall_mem_cons.mpr ⟨by decide,
      fun c inside => (hierarchy c inside).1⟩⟩
  have split : Parts.split ('/' :: '/' :: authority.print ++ '/' :: cs) =
      ⟨'/' :: '/' :: authority.print ++ '/' :: cs, none, none⟩ := by
    rw [Parts.split, Text.splitFirst_eq_none fun inside => (hierarchy _ inside).2.2 rfl]
    dsimp only
    rw [Text.splitFirst_eq_none fun inside => (hierarchy _ inside).2.1 rfl]
  rw [Url.readChars, Url.withoutOuterBlanks_eq_self visible, Url.withoutIgnored_eq_self visible,
    Url.readScheme_web web]
  dsimp only
  rw [split, Url.readHierarchy_slash web sound]
  rfl

theorem plain_within (plain : Plain cs) : ∀ c ∈ cs, 0x20 < c.toNat ∧ c ≠ '?' ∧ c ≠ '#' :=
  fun c inside => (plain c inside).1

/-- The machine of an address keeps its slashes. -/
theorem withoutFinalSlashes_authority {scheme : String} {authority : Url.Authority}
    (sound : authority.Sound scheme) (front : List Char) :
    withoutFinalSlashes (front ++ authority.print) = front ++ authority.print := by
  rcases authority.print.eq_nil_or_concat with empty | ⟨start, c, ends⟩
  · exact absurd empty sound.print_ne_nil
  · have inside : c ∈ authority.print := by simp [ends]
    have other : c ≠ '/' :=
      (Url.Host.endsAuthority_eq_false_iff.mp (sound.within c inside)).2.2.1
    rw [ends, List.concat_eq_append, ← List.append_assoc, withoutFinalSlashes_concat _ other]

theorem isSegment_directory (sound : Sound base) :
    ∀ name ∈ (directory base.path).reverse, IsSegment name.toList := by
  obtain ⟨names, path, areSegments⟩ := sound.path
  exact fun name inside =>
    Url.isSegment_of_directory path areSegments name (List.mem_reverse.mp inside)

/-- What is written behind the segments of a directory is read as a path that goes on from it. -/
theorem readSegments_directory (sound : Sound base) (plain : Plain cs) {further : List Char}
    (behind : Path.printSegments (directory base.path).reverse ++ '/' :: cs = '/' :: further) :
    Path.segments (Url.readSegments base.scheme ('/' :: further)) = base.extendPath cs := by
  have above := isSegment_directory sound
  have slash : isSlash true '/' = true := rfl
  have parted := Url.splitOnP_printSegments_append above cs
  rw [behind, List.splitOnP_cons_eq_if_modifyHead, if_pos slash] at parted
  have taken : Url.withoutIgnored cs = cs :=
    Url.withoutIgnored_eq_self fun c inside => (plain c inside).1.1
  rw [Url.readSegments, Url.extendPath, sound.web.special, if_pos slash, taken,
    Url.splitSegments_eq_splitOnP, Url.splitSegments_eq_splitOnP, (List.cons.inj parted).2,
    beq_false_of_ne sound.web.ne_file, Url.walk_append above (List.splitOnP_ne_nil _ _),
    List.reverse_reverse, List.append_nil]

/-- Where the base ends with its path, the text behind it continues the path as a call does.
The slashes that were taken away are those that a call takes away too. -/
theorem readChars_continued (sound : Sound base) (noQuery : base.query = none)
    (noFragment : base.fragment = none) (plain : Plain cs) :
    Url.readChars (withoutFinalSlashes base.printChars ++ '/' :: cs) =
      .ok { base with path := base.extendPath cs } := by
  obtain ⟨authority, host, authoritySound⟩ := sound.authority
  obtain ⟨names, path, areSegments⟩ := sound.path
  obtain ⟨further, behind⟩ : ∃ further,
      Path.printSegments (directory base.path).reverse ++ '/' :: cs = '/' :: further := by
    cases (directory base.path).reverse with
    | nil => exact ⟨cs, rfl⟩
    | cons name names => exact ⟨_, rfl⟩
  have within : ∀ c ∈ '/' :: further, 0x20 < c.toNat ∧ c ≠ '?' ∧ c ≠ '#' := by
    rw [← behind]
    exact List.forall_mem_append.mpr ⟨Url.within_printSegments (isSegment_directory sound),
      List.forall_mem_cons.mpr ⟨by decide, plain_within plain⟩⟩
  have printed : base.printChars = base.scheme.toList ++ [':', '/', '/'] ++ authority.print ++
      Path.printSegments names := by
    rw [Url.printChars_eq, Url.printHierarchy, host, path, noQuery, noFragment]
    simp [Url.printQuery, Url.printFragment, Path.print]
  have text : withoutFinalSlashes base.printChars ++ '/' :: cs =
      base.scheme.toList ++ ':' :: ('/' :: '/' :: authority.print ++ '/' :: further) := by
    rw [printed, withoutFinalSlashes_printSegments
      (withoutFinalSlashes_authority authoritySound _) areSegments.each, ← path, List.append_assoc,
      behind]
    simp
  rw [text, readChars_path sound.web authoritySound (List.forall_mem_cons.mp within).2,
    readSegments_directory sound plain behind, ← host, noQuery, noFragment]

theorem readChars_printChars (sound : Sound base) : Url.readChars base.printChars = .ok base := by
  have known := Url.read_print sound
  rwa [Url.read, Url.print, String.toList_ofList] at known

/-- What is left of a text without the slashes at its end has been there before. -/
theorem escaped_continued {set : Url.Percent.EscapeSet} {text : List Char}
    (escaped : Escaped set text) (plain : ∀ c ∈ cs, set c = false ∧ c.toNat < 0x80) :
    Escaped set (withoutFinalSlashes text ++ cs) :=
  List.forall_mem_append.mpr
    ⟨fun c inside => escaped c ((List.rdropWhile_prefix _ text).subset inside), plain⟩

/-- Where the base has a query, the text behind the base continues the query. Nothing of the
text can end the query, so that the path stays that of the base. -/
theorem readChars_behind_query (sound : Sound base) {query : String}
    (known : base.query = some query) (noFragment : base.fragment = none) (plain : Plain cs) :
    Url.readChars (withoutFinalSlashes base.printChars ++ cs) =
      .ok { base with query := some (String.ofList (withoutFinalSlashes query.toList ++ cs)) } := by
  have continued : Sound
      { base with query := some (String.ofList (withoutFinalSlashes query.toList ++ cs)) } := by
    refine { sound with query := fun text same => ?_ }
    obtain rfl := Option.some.inj same
    rw [String.toList_ofList]
    exact escaped_continued (sound.query query known)
      fun c inside => ⟨(plain c inside).2.1.1, (plain c inside).2.2⟩
  have printed : base.printChars =
      (base.scheme.toList ++ ':' :: base.printHierarchy) ++ '?' :: query.toList := by
    rw [Url.printChars_eq, known, noFragment]
    simp [Url.printQuery, Url.printFragment]
  have text : withoutFinalSlashes base.printChars ++ cs = Url.printChars
      { base with query := some (String.ofList (withoutFinalSlashes query.toList ++ cs)) } := by
    rw [printed, withoutFinalSlashes_append_cons _ _ (by decide), Url.printChars_eq, noFragment]
    simp [Url.printQuery, Url.printFragment, Url.printHierarchy]
  rw [text, readChars_printChars continued]

/-- Where the base has a fragment, the text behind the base continues the fragment. -/
theorem readChars_behind_fragment (sound : Sound base) {fragment : String}
    (known : base.fragment = some fragment) (plain : Plain cs) :
    Url.readChars (withoutFinalSlashes base.printChars ++ cs) =
      .ok { base with
        fragment := some (String.ofList (withoutFinalSlashes fragment.toList ++ cs)) } := by
  have continued : Sound { base with
      fragment := some (String.ofList (withoutFinalSlashes fragment.toList ++ cs)) } := by
    refine { sound with fragment := fun text same => ?_ }
    obtain rfl := Option.some.inj same
    rw [String.toList_ofList]
    exact escaped_continued (sound.fragment fragment known)
      fun c inside => ⟨(plain c inside).2.1.2, (plain c inside).2.2⟩
  have printed : base.printChars = (base.scheme.toList ++
      ':' :: (base.printHierarchy ++ Url.printQuery base.query)) ++ '#' :: fragment.toList := by
    rw [Url.printChars_eq, known]
    simp [Url.printFragment]
  have text : withoutFinalSlashes base.printChars ++ cs = Url.printChars { base with
      fragment := some (String.ofList (withoutFinalSlashes fragment.toList ++ cs)) } := by
    rw [printed, withoutFinalSlashes_append_cons _ _ (by decide), Url.printChars_eq]
    simp [Url.printFragment, Url.printHierarchy]
  rw [text, readChars_printChars continued]

end Continued

section Tenants

/-- A character that stands for itself in every part of an address. -/
def isUnreserved (c : Char) : Bool :=
  c.isAlphanum || c == '-' || c == '.' || c == '_' || c == '~'

theorem ascii_of_isUnreserved {c : Char} (unreserved : isUnreserved c = true) :
    c.toNat < 0x80 := by
  simp only [isUnreserved, Bool.or_eq_true, beq_iff_eq] at unreserved
  rcases unreserved with (((alphanumeric | rfl) | rfl) | rfl) | rfl
  · exact Text.ascii_of_isAlphanum alphanumeric
  all_goals decide

theorem plain_of_isUnreserved {cs : List Char}
    (unreserved : ∀ c ∈ cs, isUnreserved c = true ∨ c = '/') : Plain cs := by
  intro c inside
  have ascii : c.toNat < 0x80 := by
    rcases unreserved c inside with unreserved | rfl
    · exact ascii_of_isUnreserved unreserved
    · decide
  have known : isUnreserved c = true ∨ c = '/' → (0x20 < c.toNat ∧ c ≠ '?' ∧ c ≠ '#') ∧
      specialQuerySet c = false ∧ fragmentSet c = false :=
    Text.forall_ascii (by decide +kernel) ascii
  obtain ⟨within, sets⟩ := known (unreserved c inside)
  exact ⟨within, sets, ascii⟩

/-- The way from the base to where the tokens of a tenant are given out. -/
def tokenSegments (tenantId : String) : List Char :=
  "auth/".toList ++ tenantId.toList ++ "/default/oauth2/token".toList

/-- The path of a call to where the tokens of a tenant are given out. -/
def tokenPath (tenantId : String) : String := "/auth/" ++ tenantId ++ "/default/oauth2/token"

theorem toList_tokenPath (tenantId : String) :
    (tokenPath tenantId).toList = '/' :: tokenSegments tenantId := by
  simp [tokenPath, tokenSegments]

theorem plain_tokenSegments {tenantId : String}
    (unreserved : ∀ c ∈ tenantId.toList, isUnreserved c = true) :
    Plain (tokenSegments tenantId) :=
  plain_of_isUnreserved <| List.forall_mem_append.mpr ⟨List.forall_mem_append.mpr
    ⟨by simp [isUnreserved], fun c inside => Or.inl (unreserved c inside)⟩, by simp [isUnreserved]⟩

end Tenants

section Addresses

variable {base : Url} {tenantId : String}

theorem tokenUrl_eq (clientId clientSecret : String) :
    tokenUrl ⟨base, tenantId, clientId, clientSecret⟩ =
      Url.readChars (withoutFinalSlashes base.printChars ++ '/' :: tokenSegments tenantId) := by
  simp [tokenUrl, tokenSegments]

/-- The address of a call to where the tokens of a tenant are given out. -/
def tokenCallUrl (base : Url) (tenantId : String) : Url :=
  { base with path := base.extendPath (tokenSegments tenantId), query := none, fragment := none }

theorem join?_tokenPath (sound : Sound base) (plain : Plain (tokenSegments tenantId)) :
    base.join? (tokenPath tenantId) = some (tokenCallUrl base tenantId) := by
  obtain ⟨names, path, -⟩ := sound.path
  have whole : '?' ∉ '/' :: tokenSegments tenantId := by
    intro inside
    rcases List.mem_cons.mp inside with same | inside
    · cases same
    · exact (plain _ inside).1.2.1 rfl
  rw [Url.join?_of_segments path, toList_tokenPath, Url.splitCallPath,
    Text.splitFirst_eq_none whole]
  simp [tokenCallUrl, tokenSegments]

/-- The two ways to compose an address agree where the base ends with its path. Behind a
query or a fragment there is no path to continue: the one way writes the text behind
everything, the other one puts it into the path. -/
theorem tokenUrl_of_base (sound : Sound base) (plain : Plain (tokenSegments tenantId))
    (clientId clientSecret : String) :
    ∃ posted, tokenUrl ⟨base, tenantId, clientId, clientSecret⟩ = .ok posted ∧
      (posted = tokenCallUrl base tenantId ↔ base.query = none ∧ base.fragment = none) ∧
      (posted ≠ tokenCallUrl base tenantId →
        posted.authority = base.authority ∧ posted.path = base.path) := by
  have slashed : Plain ('/' :: tokenSegments tenantId) :=
    List.forall_mem_cons.mpr ⟨by decide, plain⟩
  rw [tokenUrl_eq]
  cases fragment : base.fragment with
  | some text =>
    refine ⟨_, readChars_behind_fragment sound fragment slashed, ?_, fun _ => ⟨rfl, rfl⟩⟩
    exact iff_of_false (fun same => nomatch congrArg Url.fragment same) (fun none => nomatch none.2)
  | none =>
    cases query : base.query with
    | some text =>
      refine ⟨_, readChars_behind_query sound query fragment slashed, ?_, fun _ => ⟨rfl, rfl⟩⟩
      exact iff_of_false (fun same => nomatch congrArg Url.query same) (fun none => nomatch none.1)
    | none =>
      have same : ({ base with path := base.extendPath (tokenSegments tenantId) } : Url) =
          tokenCallUrl base tenantId := by
        rw [tokenCallUrl, query, fragment]
      refine ⟨_, readChars_continued sound query fragment plain, ?_, fun other => absurd same other⟩
      exact iff_of_true same ⟨rfl, rfl⟩

theorem serviceCredentials_eq {profile : Profile} (known : profile.baseUrl = .ok base)
    (tenant : profile.tenantId ≠ "") (client : profile.clientId ≠ "")
    (secret : profile.clientSecret ≠ "") :
    serviceCredentials profile =
      .ok ⟨base, profile.tenantId, profile.clientId, profile.clientSecret⟩ := by
  simp [serviceCredentials, known, Except.mapError, tenant, client, secret, bind, Except.bind, pure,
    Except.pure]

/-- A login that knows all it needs posts one request, before all else. What its request is,
is decided by the profile as it is read at that moment. -/
theorem ServiceCourse.posts {userAgent : Option Bytes} {profile : Profile} {request : Http.Request}
    {steps : List Step} {result : Except (Halt LoginError) Unit}
    (known : serviceRequest userAgent profile = .ok request)
    (course : ServiceCourse userAgent (⟨.readProfile, profile⟩ :: steps) result) :
    ∃ reply rest, steps = ⟨.send .token request, reply⟩ :: rest ∧
      ∀ purpose other reply, ⟨.send purpose other, reply⟩ ∉ rest := by
  cases course with
  | unsent unknown => cases known.symm.trans unknown
  | ungranted same =>
    cases known.symm.trans same
    exact ⟨_, [], rfl, fun _ _ _ => List.not_mem_nil⟩
  | granted message same =>
    cases known.symm.trans same
    refine ⟨_, _, rfl, fun purpose other reply inside => ?_⟩
    rcases List.mem_cons.mp inside with same | inside
    · cases same
    · cases List.mem_singleton.mp inside

/-- The login of a service and the calls under the same profile agree on where the platform
is as long as the address in the profile ends with its path. If it has a query or a
fragment, the request for a token goes to the base itself, and the way to the tokens is lost
behind it. The login writes its path behind the printed base and reads the result, while a
call changes the parts of the base. -/
theorem token_address {profile : Profile} (known : profile.baseUrl = .ok base)
    (web : base.scheme = "http" ∨ base.scheme = "https") (tenant : profile.tenantId ≠ "")
    (unreserved : ∀ c ∈ profile.tenantId.toList, isUnreserved c = true)
    (client : profile.clientId ≠ "") (secret : profile.clientSecret ≠ "") :
    ∃ url posted, base.join? (tokenPath profile.tenantId) = some url ∧
      (∀ call options request, call.path = tokenPath profile.tenantId →
        profile.requestOf call options = .ok request → request.url = url) ∧
      (∀ userAgent steps result,
        (serviceLogin userAgent).run.Runs (⟨.readProfile, profile⟩ :: steps) result →
          ∃ request reply rest, steps = ⟨.send .token request, reply⟩ :: rest ∧
            request.method = .post ∧ request.url = posted ∧
            ∀ purpose other reply, ⟨.send purpose other, reply⟩ ∉ rest) ∧
      (posted = url ↔ base.query = none ∧ base.fragment = none) ∧
      (posted ≠ url → posted.authority = base.authority ∧ posted.path = base.path) := by
  have sound := Url.sound_of_read (mapError_eq_ok_iff.mp known) web
  have plain := plain_tokenSegments unreserved
  have joined := join?_tokenPath sound plain
  obtain ⟨posted, address, agree, differ⟩ :=
    tokenUrl_of_base sound plain profile.clientId profile.clientSecret
  refine ⟨_, posted, joined, ?_, ?_, agree, differ⟩
  · intro call options request path built
    obtain ⟨context, found, made⟩ := Profile.requestOf_eq_ok_iff.mp built
    obtain ⟨_, url, _, _, -, reached, -, -, rfl⟩ := CallContext.request_eq_ok_iff.mp made
    obtain ⟨other, same, rfl⟩ := Profile.context_eq_ok_iff.mp found
    cases known.symm.trans same
    rw [CallContext.callUrl_eq_ok_iff, path, joined] at reached
    exact (Option.some.inj reached).symm
  · intro userAgent steps result runs
    have asked : ∃ request, serviceRequest userAgent profile = .ok request ∧
        request.method = .post ∧ request.url = posted := by
      let request :=
        tokenRequest ⟨base, profile.tenantId, profile.clientId, profile.clientSecret⟩ posted
      refine ⟨{ request with headers := request.headers.signed userAgent }, ?_, rfl, rfl⟩
      rw [serviceRequest, serviceCredentials_eq known tenant client secret]
      simp only [bind, Except.bind, address, Except.mapError]
      rfl
    obtain ⟨request, asked, method, url⟩ := asked
    obtain ⟨reply, rest, rfl, silent⟩ := (ServiceCourse.of_runs runs).posts asked
    exact ⟨request, reply, rest, rfl, method, url, silent⟩

/-- A profile whose address has a user and ends with slashes, for a tenant that leads upwards. -/
def slashedProfile : Profile where
  url := "https://me:pw@platform.test:8443/api//v1///"
  authMethod := .servicePrincipal
  tenantId := ".."
  clientId := "svc"
  clientSecret := "s3cret"

def slashedBase : Url where
  scheme := "https"
  authority := some ⟨"me", some "pw", .domain "platform.test", some 8443⟩
  path := .segments ["api", "", "v1", "", "", ""]
  query := none
  fragment := none

theorem token_address_slashed :
    slashedProfile.baseUrl = .ok slashedBase ∧
      ∃ url, slashedBase.join? (tokenPath "..") = some url ∧
        url.print = "https://me:pw@platform.test:8443/api//v1/default/oauth2/token" ∧
        ∀ userAgent steps result,
          (serviceLogin userAgent).run.Runs (⟨.readProfile, slashedProfile⟩ :: steps) result →
            ∃ request reply rest, steps = ⟨.send .token request, reply⟩ :: rest ∧
              request.url = url := by
  have known : slashedProfile.baseUrl = .ok slashedBase := by decide +kernel
  have printed : (slashedBase.join? (tokenPath "..")).map Url.print =
      some "https://me:pw@platform.test:8443/api//v1/default/oauth2/token" := by
    decide +kernel
  obtain ⟨url, posted, joined, -, posts, agree, -⟩ := token_address known (Or.inr rfl)
    (by decide) (by simp [slashedProfile, isUnreserved]) (by decide) (by decide)
  change slashedBase.join? (tokenPath "..") = some url at joined
  obtain rfl := agree.mpr ⟨rfl, rfl⟩
  refine ⟨known, posted, joined, ?_, fun userAgent steps result runs => ?_⟩
  · rw [joined] at printed
    exact Option.some.inj printed
  · obtain ⟨request, reply, rest, sent, -, same, -⟩ := posts userAgent steps result runs
    exact ⟨request, reply, rest, sent, same⟩

/-- Behind a query, the request for a token goes astray. -/
theorem token_address_astray :
    ∃ base, Url.read "http://platform.test/?x=1" = .ok base ∧
      (base.join? (tokenPath "t1")).map Url.print =
        some "http://platform.test/auth/t1/default/oauth2/token" ∧
      (tokenUrl ⟨base, "t1", "svc", "s3cret"⟩).toOption.map Url.print =
        some "http://platform.test/?x=1/auth/t1/default/oauth2/token" := by
  let authority : Url.Authority := ⟨"", none, .domain "platform.test", none⟩
  refine ⟨⟨"http", some authority, .segments [""], some "x=1", none⟩, ?_, ?_, ?_⟩ <;> decide +kernel

end Addresses

end PlatformClient.Login
