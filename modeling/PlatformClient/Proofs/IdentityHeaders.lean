import PlatformClient.Proofs.Base64RoundTrip
import PlatformClient.Proofs.UsableTokens

namespace PlatformClient

namespace Http

theorem headerValue?_eq_none_iff {text : String} : headerValue? text = none ↔
    ∃ byte ∈ Text.encode text, byte.toNat < 32 ∧ byte.toNat ≠ 9 ∨ byte.toNat = 127 := by
  have refused (byte : UInt8) : ¬ isHeaderByte byte = true ↔
      byte.toNat < 32 ∧ byte.toNat ≠ 9 ∨ byte.toNat = 127 := by
    rw [isHeaderByte_iff]
    omega
  rw [headerValue?]
  split_ifs with proper
  · refine iff_of_false not_false ?_
    rintro ⟨byte, inside, other⟩
    exact (refused byte).mpr other (List.all_eq_true.mp proper byte inside)
  · obtain ⟨byte, inside, other⟩ := List.all_eq_false.mp (eq_false_of_ne_true proper)
    exact iff_of_true rfl ⟨byte, inside, (refused byte).mp other⟩

/-- What is written in base 64 can be the value of a header, whatever the bytes are: all
digits are visible characters of ASCII. -/
theorem headerValue?_encode (bytes : Bytes) :
    headerValue? (Text.Base64.encode bytes) =
      some (Text.encode (Text.Base64.encode bytes)) := by
  have visible : ∀ n < 64, 0x20 ≤ (Text.Base64.digit n).toNat ∧
      (Text.Base64.digit n).toNat ≠ 0x7F := by decide +kernel
  have written : IsHeaderText (Text.Base64.encode bytes) := by
    rw [IsHeaderText, Text.Base64.encode, String.toList_ofList]
    exact Text.Base64.forall_mem_encodeChars (fun n small => Or.inr (visible n small))
      (by decide) bytes
  obtain ⟨value, given⟩ := Option.isSome_iff_exists.mp (headerValue?_isSome_iff.mpr written)
  rw [given, headerValue?_eq_some given]

end Http

namespace LocalIdentity

open Http (Headers HeaderName)

variable {headers : Headers} {name : HeaderName}

/-- The only value of a header can be sent, and stands for these bytes in base 64. -/
def Encodes (headers : Headers) (name : HeaderName) (content : Bytes) : Prop :=
  ∃ text value, headers.values name = [value] ∧ Http.headerValue? text = some value ∧
    Text.Base64.decode? text = some content

theorem encodes_insert (content : Bytes) :
    Encodes (headers.insert name (Text.encode (Text.Base64.encode content))) name content :=
  ⟨Text.Base64.encode content, _, Headers.values_insert_self, Http.headerValue?_encode content,
    Text.Base64.decode?_encode content⟩

theorem Encodes.insert {other : HeaderName} {content : Bytes} (encodes : Encodes headers name content)
    (apart : name ≠ other) (value : Bytes) : Encodes (headers.insert other value) name content := by
  rw [Encodes, Headers.values_insert_of_ne apart]
  exact encodes

/-- Headers in which the principal of an identity is stated. -/
def withPrincipal (identity : LocalIdentity) (headers : Headers) : Headers :=
  (headers.insert principalTypeHeader
    (Text.encode (Text.Base64.encode (Text.encode identity.principalType)))).insert
    principalIdHeader (Text.encode (Text.Base64.encode (Text.encode identity.principalId)))

/-- The principal is stated in any case, and the tenant where it can be. -/
theorem addTo_eq (identity : LocalIdentity) (headers : Headers) : identity.addTo headers =
    match Http.headerValue? identity.tenantId with
    | none => (identity.withPrincipal headers, false)
    | some value => ((identity.withPrincipal headers).insert tenantIdHeader value, true) := rfl

theorem values_withPrincipal_of_ne (identity : LocalIdentity) (kind : name ≠ principalTypeHeader)
    (principal : name ≠ principalIdHeader) :
    (identity.withPrincipal headers).values name = headers.values name := by
  rw [withPrincipal, Headers.values_insert_of_ne principal, Headers.values_insert_of_ne kind]

/-- An identity has been added to headers, as a whole or but for its tenant. The tenant is
written as it is, so a control character in it cannot be sent, where the principal is
written in base 64. -/
structure Added (identity : LocalIdentity) (headers result : Headers) (whole : Bool) : Prop where
  broken_iff : whole = false ↔ ∃ byte ∈ Text.encode identity.tenantId,
    byte.toNat < 32 ∧ byte.toNat ≠ 9 ∨ byte.toNat = 127
  principalType : Encodes result principalTypeHeader (Text.encode identity.principalType)
  principalId : Encodes result principalIdHeader (Text.encode identity.principalId)
  tenantId : result.values tenantIdHeader =
    if whole then [Text.encode identity.tenantId] else headers.values tenantIdHeader
  others : ∀ name, name ≠ principalTypeHeader → name ≠ principalIdHeader → name ≠ tenantIdHeader →
    result.values name = headers.values name

/-- An identity can be read from the headers that are added for it. Where its tenant cannot
be sent, the principal has been added nevertheless, and everything else is as it was. The
three names differ, so none of the headers takes the place of another. -/
theorem identity_added (identity : LocalIdentity) (headers : Headers) :
    Added identity headers (identity.addTo headers).1 (identity.addTo headers).2 := by
  have kind : Encodes (identity.withPrincipal headers) principalTypeHeader
      (Text.encode identity.principalType) :=
    (encodes_insert _).insert (by decide) _
  have principal : Encodes (identity.withPrincipal headers) principalIdHeader
      (Text.encode identity.principalId) := encodes_insert _
  have others := fun (name : HeaderName) => @values_withPrincipal_of_ne headers name identity
  rw [addTo_eq]
  cases given : Http.headerValue? identity.tenantId with
  | none =>
    refine ⟨iff_of_true rfl (Http.headerValue?_eq_none_iff.mp given), kind, principal, ?_,
      fun name apart from_id _ => others name apart from_id⟩
    exact others tenantIdHeader (by decide) (by decide)
  | some value =>
    have proper : ¬ Http.headerValue? identity.tenantId = none := by simp [given]
    refine ⟨iff_of_false nofun (proper ∘ Http.headerValue?_eq_none_iff.mpr),
      kind.insert (by decide) value, principal.insert (by decide) value, ?_, ?_⟩
    · rw [Headers.values_insert_self, Http.headerValue?_eq_some given]
      rfl
    · intro name apart from_id from_tenant
      rw [Headers.values_insert_of_ne from_tenant, others name apart from_id]

example : ({ principalType := "user", tenantId := "bad\nvalue" } : LocalIdentity).addTo .empty =
    (⟨[(principalIdHeader, []), (principalTypeHeader, Text.encode "dXNlcg==")]⟩, false) := by
  decide +kernel

end LocalIdentity

end PlatformClient
