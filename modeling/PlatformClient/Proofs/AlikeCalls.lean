import PlatformClient.Proofs.AlikeRequests

namespace PlatformClient

/-- Results that fail in the same way, or have related values. The error is the same and not
just alike, because errors are shown. -/
inductive AlikeResults {ε α β : Type} (related : α → β → Prop) : Except ε α → Except ε β → Prop
  | error (error : ε) : AlikeResults related (.error error) (.error error)
  | ok {value : α} {other : β} (alike : related value other) :
      AlikeResults related (.ok value) (.ok other)

namespace AlikeResults

variable {ε ε' α β γ δ : Type} {related : α → β → Prop} {further : γ → δ → Prop}
  {result : Except ε α} {other : Except ε β}

theorem refl {same : α → α → Prop} (reflexive : ∀ value, same value value) (result : Except ε α) :
    AlikeResults same result result := by
  cases result with
  | error error => exact .error error
  | ok value => exact .ok (reflexive value)

theorem bind {next : α → Except ε γ} {otherNext : β → Except ε δ}
    (first : AlikeResults related result other)
    (later : ∀ value otherValue, related value otherValue →
      AlikeResults further (next value) (otherNext otherValue)) :
    AlikeResults further (result >>= next) (other >>= otherNext) := by
  cases first with
  | error error => exact .error error
  | ok alike => exact later _ _ alike

theorem map {change : α → γ} {otherChange : β → δ} (alike : AlikeResults related result other)
    (changes : ∀ value otherValue, related value otherValue →
      further (change value) (otherChange otherValue)) :
    AlikeResults further (result.map change) (other.map otherChange) := by
  cases alike with
  | error error => exact .error error
  | ok alike => exact .ok (changes _ _ alike)

theorem mapError (translate : ε → ε') (alike : AlikeResults related result other) :
    AlikeResults related (result.mapError translate) (other.mapError translate) := by
  cases alike with
  | error error => exact .error _
  | ok alike => exact .ok alike

theorem foldlM {step : γ → α → Except ε γ} {otherStep : δ → β → Except ε δ} {values : List α}
    {others : List β} (alike : List.Forall₂ related values others)
    (steps : ∀ state otherState value otherValue, further state otherState →
      related value otherValue →
      AlikeResults further (step state value) (otherStep otherState otherValue))
    {state : γ} {otherState : δ} (start : further state otherState) :
    AlikeResults further (values.foldlM step state) (others.foldlM otherStep otherState) := by
  induction alike generalizing state otherState with
  | nil => exact .ok start
  | cons same _ ih =>
    rw [List.foldlM_cons, List.foldlM_cons]
    exact (steps _ _ _ _ start same).bind fun _ _ next => ih next

theorem eq_of_eq {given : Except ε α} (alike : AlikeResults (· = ·) result given) :
    result = given := by
  cases alike with
  | error error => rfl
  | ok same => rw [same]

end AlikeResults

/-- Two headers of a caller under one name. Their values differ where they are
authorizations only. -/
structure AlikeAsked (header other : String × String) : Prop where
  name : header.1 = other.1
  value : AlikeSecrets header.2 other.2
  plain : Http.HeaderName.ofString? header.1 ≠ some .authorization → header.2 = other.2

theorem AlikeAsked.refl (header : String × String) : AlikeAsked header header :=
  ⟨rfl, .refl _, fun _ => rfl⟩

namespace CallerHeaders

/-- Headers of a caller that differ in the values of authorizations at most. -/
def Alike (headers other : CallerHeaders) : Prop := List.Forall₂ AlikeAsked headers other

variable {headers other : CallerHeaders}

theorem Alike.asksFor_eq (name : String) (alike : headers.Alike other) :
    headers.asksFor name = other.asksFor name := by
  induction alike with
  | nil => rfl
  | @cons first second rest others same _ ih =>
    obtain ⟨given, value⟩ := first
    obtain ⟨otherName, otherValue⟩ := second
    obtain rfl : given = otherName := same.name
    have filled : value.isEmpty = otherValue.isEmpty := same.value.isEmpty_eq
    unfold asksFor at ih ⊢
    simp only [List.any_cons, ih, filled]

theorem Alike.get?_eq {name : String}
    (plain : Http.HeaderName.ofString? name ≠ some .authorization) (alike : headers.Alike other) :
    headers.get? name = other.get? name := by
  induction alike with
  | nil => rfl
  | @cons first second rest others same _ ih =>
    obtain ⟨given, value⟩ := first
    obtain ⟨otherName, otherValue⟩ := second
    obtain rfl : given = otherName := same.name
    unfold get? at ih ⊢
    rw [List.lookup_cons, List.lookup_cons, ih]
    split
    · rename_i asked
      obtain rfl : name = given := by simpa using asked
      obtain rfl : value = otherValue := same.plain plain
      rfl
    · rfl

theorem Alike.any_name (name : String) (alike : headers.Alike other) :
    headers.any (·.1 == name) = other.any (·.1 == name) := by
  induction alike with
  | nil => rfl
  | cons same _ ih => rw [List.any_cons, List.any_cons, ih, same.name]

theorem Alike.set {name value otherValue : String}
    (header : AlikeAsked (name, value) (name, otherValue)) (alike : headers.Alike other) :
    (headers.set name value).Alike (other.set name otherValue) := by
  unfold CallerHeaders.set
  rw [alike.any_name name]
  split
  · refine List.rel_map (R := AlikeAsked) (P := AlikeAsked) (fun first second same => ?_) alike
    rw [same.name]
    split
    · exact header
    · exact same
  · exact List.rel_append alike (.cons header .nil)

end CallerHeaders

/-- Options of calls that differ in what a caller states as authorization at most. -/
structure CallOptions.Alike (options other : CallOptions) : Prop where
  headers : options.headers.Alike other.headers
  rest : other = { options with headers := other.headers }

/-- Profiles that differ in their secrets at most. -/
structure Profile.Alike (profile other : Profile) : Prop where
  token : AlikeSecrets profile.token other.token
  clientSecret : profile.clientSecret.isEmpty = other.clientSecret.isEmpty
  rest : other = { profile with token := other.token, clientSecret := other.clientSecret }

/-- Moments of a profile that differ in the token at most. -/
structure CallContext.Alike (context other : CallContext) : Prop where
  token : AlikeSecrets context.token other.token
  rest : other = { context with token := other.token }

namespace Profile

variable {profile other : Profile}

theorem Alike.hasToken_eq (alike : profile.Alike other) : profile.hasToken = other.hasToken := by
  rw [hasToken, hasToken, alike.token.isEmpty_eq]

theorem Alike.authMethod_eq (alike : profile.Alike other) :
    profile.authMethod = other.authMethod := by
  rw [alike.rest]

theorem Alike.storeToken {token otherToken : String} (alike : profile.Alike other)
    (tokens : AlikeSecrets token otherToken) :
    Alike { profile with token := token } { other with token := otherToken } := by
  obtain ⟨-, secret, rest⟩ := alike
  refine ⟨tokens, secret, ?_⟩
  rw [rest]

theorem Alike.context (alike : profile.Alike other) :
    AlikeResults CallContext.Alike profile.context other.context := by
  rw [alike.rest]
  unfold Profile.context
  refine AlikeResults.bind (.refl (fun _ => rfl) profile.baseUrl) fun url otherUrl same => ?_
  subst same
  exact .ok ⟨alike.token, rfl⟩

end Profile

namespace CallContext

variable {context other : CallContext} {headers otherHeaders : CallerHeaders}

theorem encodeBody_eq (body : Option CallBody) (asked : headers.Alike otherHeaders) :
    encodeBody headers body = encodeBody otherHeaders body := by
  unfold encodeBody
  rw [asked.asksFor_eq]

theorem contentHeaders_eq (method : Http.Method) (body : Option CallBody)
    (asked : headers.Alike otherHeaders) :
    contentHeaders method headers body = contentHeaders method otherHeaders body := by
  unfold contentHeaders
  rw [asked.asksFor_eq]

/-- The authorization that stands for a token. -/
theorem headerValue?_bearer {token otherToken : String} (alike : AlikeSecrets token otherToken) :
    (Http.headerValue? ("Bearer " ++ token) = none ∧
      Http.headerValue? ("Bearer " ++ otherToken) = none) ∨
    ∃ value otherValue, Http.headerValue? ("Bearer " ++ token) = some value ∧
      Http.headerValue? ("Bearer " ++ otherToken) = some otherValue := by
  rcases alike with rfl | ⟨-, valid, otherValid⟩
  · cases found : Http.headerValue? ("Bearer " ++ token) with
    | none => exact Or.inl ⟨rfl, rfl⟩
    | some value => exact Or.inr ⟨value, value, rfl, rfl⟩
  · have bearer : (Http.headerValue? "Bearer ").isSome = true := by decide
    refine Or.inr ⟨_, _, Option.eq_some_of_isSome ?_, Option.eq_some_of_isSome ?_⟩
    · rw [Http.headerValue?_append_isSome, bearer, valid]
      rfl
    · rw [Http.headerValue?_append_isSome, bearer, otherValid]
      rfl

theorem addTo_alike (identity : LocalIdentity) {result otherResult : Http.Headers}
    (results : result.Alike otherResult) :
    (identity.addTo result).2 = (identity.addTo otherResult).2 ∧
      (identity.addTo result).1.Alike (identity.addTo otherResult).1 := by
  have named := (results.insert (.refl (LocalIdentity.principalTypeHeader, Text.encode
    (Text.Base64.encode (Text.encode identity.principalType))))).insert
      (.refl (LocalIdentity.principalIdHeader, Text.encode
        (Text.Base64.encode (Text.encode identity.principalId))))
  unfold LocalIdentity.addTo
  cases Http.headerValue? identity.tenantId with
  | none => exact ⟨rfl, named⟩
  | some value => exact ⟨rfl, named.insert (.refl _)⟩

/-- Adds the identity where it is taken on trust. -/
def identified (context : CallContext) (target : String) (sent : Http.Headers) :
    Except CallError Http.Headers :=
  if context.authMethod = .local then
    match context.identity.addTo sent with
    | (complete, true) => .ok complete
    | (_, false) => .error (.construction target .identity)
  else .ok sent

theorem identified_alike (target : String) {sent otherSent : Http.Headers}
    (senders : sent.Alike otherSent) :
    AlikeResults Http.Headers.Alike (context.identified target sent)
      (context.identified target otherSent) := by
  obtain ⟨named, identities⟩ := addTo_alike context.identity senders
  unfold identified
  split
  · rcases added : context.identity.addTo sent with ⟨complete, _ | _⟩ <;>
      rcases otherAdded : context.identity.addTo otherSent with ⟨otherComplete, _ | _⟩ <;>
        rw [added, otherAdded] at named identities
    · exact .error _
    · cases named
    · cases named
    · exact .ok identities
  · exact .ok senders

theorem Alike.addSender {result otherResult : Http.Headers} (target : String)
    (alike : context.Alike other) (asked : headers.Alike otherHeaders)
    (results : result.Alike otherResult) :
    AlikeResults Http.Headers.Alike (context.addSender target headers result)
      (other.addSender target otherHeaders otherResult) := by
  have identity : other.identity = context.identity := by rw [alike.rest]
  have authMethod : other.authMethod = context.authMethod := by rw [alike.rest]
  unfold CallContext.addSender
  rw [identity, authMethod, ← asked.asksFor_eq]
  simp only []
  split
  · exact identified_alike target results
  · rcases headerValue?_bearer alike.token with
      ⟨invalid, otherInvalid⟩ | ⟨value, otherValue, valid, otherValid⟩
    · rw [invalid, otherInvalid]
      exact .error _
    · rw [valid, otherValid]
      exact identified_alike target (results.insert_authorization value otherValue)

theorem addCallerHeader_alike {result otherResult : Http.Headers}
    {header otherHeader : String × String} (target : String) (results : result.Alike otherResult) (asked : AlikeAsked header otherHeader) :
    AlikeResults Http.Headers.Alike (addCallerHeader target result header)
      (addCallerHeader target otherResult otherHeader) := by
  obtain ⟨name, value⟩ := header
  obtain ⟨otherName, otherValue⟩ := otherHeader
  obtain rfl : name = otherName := asked.name
  have values : AlikeSecrets value otherValue := asked.value
  have plain := asked.plain
  simp only at plain
  unfold addCallerHeader
  simp only [values.isEmpty_eq]
  split
  · exact .ok results
  cases known : Http.HeaderName.ofString? name with
  | none => exact .error _
  | some given =>
    rcases values with rfl | ⟨-, valid, otherValid⟩
    · cases Http.headerValue? value with
      | none => exact .error _
      | some bytes => exact .ok (results.insert (.refl _))
    · obtain ⟨bytes, found⟩ := Option.isSome_iff_exists.mp valid
      obtain ⟨otherBytes, otherFound⟩ := Option.isSome_iff_exists.mp otherValid
      rw [found, otherFound]
      refine .ok (results.insert ⟨rfl, fun differs => ?_⟩)
      have same : value = otherValue := plain fun secret => differs (by
        rw [known] at secret
        exact Option.some.inj secret)
      subst same
      exact Option.some.inj (found.symm.trans otherFound)

/-- The requests of alike calls are alike, or cannot be made for the same reason. A secret
is looked at in one place only, where its header is made, and there alike secrets succeed
together. -/
theorem Alike.request (method : Http.Method) (path : String) (body : Option CallBody)
    (alike : context.Alike other) (asked : headers.Alike otherHeaders) :
    AlikeResults Http.Request.Alike (context.request method path body headers)
      (other.request method path body otherHeaders) := by
  unfold CallContext.request
  have url : other.callUrl path = context.callUrl path := by rw [alike.rest]; rfl
  rw [← encodeBody_eq body asked, url, ← contentHeaders_eq method body asked]
  refine AlikeResults.bind (.refl (fun _ => rfl) _) fun content _ same => ?_
  subst same
  refine AlikeResults.bind (.refl (fun _ => rfl) _) fun url _ same => ?_
  subst same
  refine (alike.addSender _ asked (.refl _)).bind fun result otherResult results => ?_
  refine AlikeResults.bind (.foldlM asked ?_ results) fun final otherFinal finals => ?_
  · exact fun _ _ _ _ so header => addCallerHeader_alike _ so header
  · exact .ok ⟨rfl, rfl, finals, rfl⟩

end CallContext

end PlatformClient
