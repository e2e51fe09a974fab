import Mathlib.Data.List.Forall2
import PlatformClient.Call.Request
import PlatformClient.Http.Curl

namespace PlatformClient

/-- Two secrets that headers can carry, both there or both missing, or twice the same. More
must not differ: whether a secret is there, and whether a header can hold it, is something
that a program shows. -/
def AlikeSecrets (secret other : String) : Prop :=
  secret = other ∨ secret.isEmpty = other.isEmpty ∧ (Http.headerValue? secret).isSome = true ∧
    (Http.headerValue? other).isSome = true

namespace AlikeSecrets

variable {secret other : String}

theorem refl (secret : String) : AlikeSecrets secret secret := Or.inl rfl

theorem isEmpty_eq (alike : AlikeSecrets secret other) : secret.isEmpty = other.isEmpty := by
  rcases alike with rfl | ⟨same, -⟩
  · rfl
  · exact same

end AlikeSecrets

namespace Http

theorem headerValue?_append_isSome (first rest : String) :
    (headerValue? (first ++ rest)).isSome =
      ((headerValue? first).isSome && (headerValue? rest).isSome) := by
  have joined : Text.encode (first ++ rest) = Text.encode first ++ Text.encode rest := by
    simp [Text.encode, Text.encodeChars]
  unfold headerValue?
  rw [joined, List.all_append]
  cases (Text.encode first).all isHeaderByte <;> cases (Text.encode rest).all isHeaderByte <;> rfl

/-- Two header lines that differ in the value of an authorization at most. -/
def AlikeLines (line other : HeaderName × Bytes) : Prop :=
  line.1 = other.1 ∧ (line.1 ≠ .authorization → line.2 = other.2)

theorem AlikeLines.refl (line : HeaderName × Bytes) : AlikeLines line line := ⟨rfl, fun _ => rfl⟩

namespace Headers

/-- Headers that differ in the values of authorizations at most. -/
def Alike (headers other : Headers) : Prop := List.Forall₂ AlikeLines headers.lines other.lines

variable {headers other : Headers}

theorem Alike.refl (headers : Headers) : headers.Alike headers :=
  List.forall₂_same.mpr fun line _ => .refl line

theorem filter_alike (keeps : HeaderName → Bool) {lines others : List (HeaderName × Bytes)}
    (alike : List.Forall₂ AlikeLines lines others) :
    List.Forall₂ AlikeLines (lines.filter fun line => keeps line.1)
      (others.filter fun line => keeps line.1) := by
  refine List.rel_filter (fun line other same => ?_) alike
  simp only [same.1]

theorem appendLine_alike {name : HeaderName} {value different : Bytes}
    {lines others : List (HeaderName × Bytes)} (line : AlikeLines (name, value) (name, different))
    (alike : List.Forall₂ AlikeLines lines others) :
    List.Forall₂ AlikeLines (appendLine name value lines) (appendLine name different others) := by
  induction alike with
  | nil => exact .cons line .nil
  | @cons first second rest others same alike ih =>
    obtain ⟨firstName, firstValue⟩ := first
    obtain ⟨secondName, secondValue⟩ := second
    obtain rfl : firstName = secondName := same.1
    unfold Headers.appendLine
    split
    · exact .cons line (.cons same alike)
    · exact .cons same ih

theorem Alike.append {name : HeaderName} {value different : Bytes}
    (line : AlikeLines (name, value) (name, different)) (alike : headers.Alike other) :
    (headers.append name value).Alike (other.append name different) := appendLine_alike line alike

theorem Alike.erase (name : HeaderName) (alike : headers.Alike other) :
    (headers.erase name).Alike (other.erase name) :=
  filter_alike (fun given => given ≠ name) alike

theorem Alike.insert {name : HeaderName} {value different : Bytes}
    (line : AlikeLines (name, value) (name, different)) (alike : headers.Alike other) :
    (headers.insert name value).Alike (other.insert name different) :=
  (alike.erase name).append line

theorem Alike.insert_authorization (value different : Bytes) (alike : headers.Alike other) :
    (headers.insert .authorization value).Alike (other.insert .authorization different) :=
  alike.insert ⟨rfl, fun differs => absurd rfl differs⟩

theorem Alike.length_values (name : HeaderName) (alike : headers.Alike other) :
    (headers.values name).length = (other.values name).length := by
  have kept := filter_alike (fun given => given = name) alike
  rw [values, values, List.length_map, List.length_map]
  exact kept.length_eq

theorem Alike.get?_isNone (name : HeaderName) (alike : headers.Alike other) :
    (headers.get? name).isNone = (other.get? name).isNone := by
  have same := alike.length_values name
  unfold get?
  cases first : headers.values name <;> cases second : other.values name <;> simp_all

theorem Alike.values_eq {name : HeaderName} (plain : name ≠ .authorization)
    (alike : headers.Alike other) : headers.values name = other.values name := by
  obtain ⟨lines⟩ := headers
  obtain ⟨others⟩ := other
  simp only [Alike] at alike
  unfold values
  induction alike with
  | nil => rfl
  | @cons first second rest others same _ ih =>
    obtain ⟨firstName, firstValue⟩ := first
    obtain ⟨secondName, secondValue⟩ := second
    obtain rfl : firstName = secondName := same.1
    by_cases asked : firstName = name
    · obtain rfl : firstValue = secondValue := same.2 (asked ▸ plain)
      simpa [asked] using ih
    · simpa [asked] using ih

theorem Alike.get?_eq {name : HeaderName} (plain : name ≠ .authorization)
    (alike : headers.Alike other) : headers.get? name = other.get? name := by
  rw [get?, get?, alike.values_eq plain]

theorem Alike.override {upper otherUpper : Headers} (alike : headers.Alike other)
    (above : upper.Alike otherUpper) :
    (headers.override upper).Alike (other.override otherUpper) := by
  have kept : Alike ⟨headers.lines.filter fun line => (upper.get? line.1).isNone⟩
      ⟨other.lines.filter fun line => (otherUpper.get? line.1).isNone⟩ := by
    simp only [above.get?_isNone]
    exact filter_alike (fun name => (otherUpper.get? name).isNone) alike
  refine List.rel_foldl (P := Alike) (R := AlikeLines) (fun lower otherLower so => ?_) kept above
  intro line otherLine same
  obtain ⟨name, value⟩ := line
  obtain ⟨otherName, otherValue⟩ := otherLine
  obtain rfl : name = otherName := same.1
  exact so.append same

theorem Alike.signed (userAgent : Option Bytes) (alike : headers.Alike other) :
    (headers.signed userAgent).Alike (other.signed userAgent) := by
  unfold Headers.signed
  rw [alike.get?_eq (by decide)]
  split
  · exact alike.insert (.refl _)
  · exact alike

end Headers

namespace Request

/-- Requests that differ in the values of authorizations at most. -/
structure Alike (request other : Request) : Prop where
  method : request.method = other.method
  url : request.url = other.url
  headers : request.headers.Alike other.headers
  body : request.body = other.body

variable {request other : Request}

theorem Alike.sentBy (userAgent : Option Bytes) (alike : request.Alike other) :
    (request.sentBy userAgent).Alike (other.sentBy userAgent) where
  method := alike.method
  url := alike.url
  headers := by
    unfold Request.sentBy
    rw [alike.url]
    exact ((Headers.Alike.refl _).override alike.headers).signed userAgent
  body := alike.body

end Request

namespace Curl

/-- The one line that may differ is replaced by a fixed text, and the lines are sorted only
afterwards. -/
theorem shownHeaders_eq {headers other : Headers} (alike : headers.Alike other) :
    shownHeaders headers = shownHeaders other := by
  have lines : headers.lines.filter (fun line => line.1 ≠ .authorization) =
      other.lines.filter (fun line => line.1 ≠ .authorization) := by
    obtain ⟨lines⟩ := headers
    obtain ⟨others⟩ := other
    simp only [Headers.Alike] at alike
    induction alike with
    | nil => rfl
    | @cons first second rest others same _ ih =>
      obtain ⟨name, value⟩ := first
      obtain ⟨otherName, otherValue⟩ := second
      obtain rfl : name = otherName := same.1
      by_cases secret : name = .authorization
      · simpa [secret] using ih
      · obtain rfl : value = otherValue := same.2 secret
        simpa [secret] using ih
  unfold shownHeaders
  rw [lines]

/-- The command that repeats a request tells nothing of its authorization. Method, address
and body are the same in alike requests, and the headers are shown alike. -/
theorem command_eq {request other : Request} (alike : request.Alike other) :
    command request = command other := by
  have multipart : isMultipart request = isMultipart other := by
    unfold isMultipart
    rw [alike.headers.get?_eq (by decide)]
  have data : data? request = data? other := by
    unfold data?
    rw [multipart, alike.body]
  unfold command words
  rw [data, shownHeaders_eq alike.headers, alike.method, alike.url]

end Curl

end Http

end PlatformClient
