import Mathlib.Data.List.Forall2
import Mathlib.Data.String.Basic
import PlatformClient.Call.Options
import PlatformClient.Http.Curl
import PlatformClient.Proofs.ShellWords
import PlatformClient.Proofs.TextParts

namespace PlatformClient

namespace Http.Curl

/-- The name that is shown is the name of the header, in another case. Names of headers are
compared without their case, so that nothing of it is lost. -/
theorem displayName_lower (name : HeaderName) :
    (displayName name).toList.map Char.toLower = name.text.toList.map Char.toLower := by
  have part : ∀ cs : List Char, (capitalized cs).map Char.toLower = cs.map Char.toLower := by
    intro cs
    cases cs with
    | nil => rfl
    | cons c cs => rw [capitalized, List.map_cons, Text.toLower_toUpper, List.map_cons]
  have joined : ∀ parts : List (List Char),
      (List.intercalate ['-'] (parts.map capitalized)).map Char.toLower =
        (List.intercalate ['-'] parts).map Char.toLower := by
    intro parts
    induction parts with
    | nil => rfl
    | cons first parts ih =>
      cases parts with
      | nil => simpa using part first
      | cons next parts =>
        rw [List.map_cons] at ih
        rw [List.map_cons, List.map_cons, List.intercalate_cons_cons, List.intercalate_cons_cons,
          List.map_append, List.map_append, List.map_append, List.map_append, ih, part]
  rw [displayName, String.toList_ofList, joined, Text.splitAll_eq_splitOn, List.intercalate_splitOn]

theorem precedes_iff (line other : String × String) :
    precedes line other = true ↔ line.1 < other.1 ∨ line.1 = other.1 ∧ line.2 ≤ other.2 := by
  rw [precedes, Bool.or_eq_true, Bool.and_eq_true, decide_eq_true_eq, beq_iff_eq, Bool.not_eq_true',
    decide_eq_false_iff_not, not_lt]

/-- The lines shown are those of the request and one that stands for the authorization. The
line of the request's own authorization, if there is one, is left out. -/
theorem shownHeaders_perm (headers : Headers) :
    (shownHeaders headers).Perm
      (("Authorization", redactedAuthorization) ::
        (headers.lines.filter fun line => line.1 ≠ .authorization).map fun line =>
          (displayName line.1, Text.decodeLossy line.2)) :=
  (List.mergeSort_perm _ _).trans List.perm_append_comm

theorem shownHeaders_sorted (headers : Headers) :
    (shownHeaders headers).Pairwise fun line other =>
      line.1 < other.1 ∨ line.1 = other.1 ∧ line.2 ≤ other.2 := by
  have trans : ∀ a b c, precedes a b → precedes b c → precedes a c := by
    intro a b c
    simp only [precedes_iff]
    rintro (less | ⟨same, le⟩) (more | ⟨again, more⟩)
    · exact Or.inl (less.trans more)
    · exact Or.inl (again ▸ less)
    · exact Or.inl (same ▸ more)
    · exact Or.inr ⟨same.trans again, le.trans more⟩
  have total : ∀ a b, precedes a b || precedes b a := by
    intro a b
    simp only [Bool.or_eq_true, precedes_iff]
    rcases lt_trichotomy a.1 b.1 with less | same | more
    · exact Or.inl (Or.inl less)
    · exact (le_total a.2 b.2).imp (fun le => Or.inr ⟨same, le⟩) (fun le => Or.inr ⟨same.symm, le⟩)
    · exact Or.inr (Or.inl more)
  exact (List.pairwise_mergeSort trans total _).imp fun {line other} => (precedes_iff line other).mp

/-- The first content type can be read, and is that of an upload of several parts. -/
def Multipart (request : Request) : Prop :=
  ∃ value type, (request.headers.values .contentType).head? = some value ∧
    readableValue? value = some type ∧ "multipart/form-data".toList <+: type.toList

theorem isMultipart_iff (request : Request) : isMultipart request = true ↔ Multipart request := by
  unfold isMultipart Multipart
  rw [Headers.get?]
  cases (request.headers.values .contentType).head? with
  | none => simp
  | some value => cases known : readableValue? value <;> simp [known]

/-- The words of a command before any of them is quoted, in the order in which curl is given
them. -/
def meantWords (request : Request) : List String :=
  ["curl", "-X", request.method.name] ++
    ((data? request).toList.flatMap fun text => ["-d", text]) ++
    (shownHeaders request.headers).flatMap (fun line => ["-H", line.1 ++ ": " ++ line.2]) ++
    [request.url.print]

theorem denotes_data (data : Option String) :
    List.Forall₂ Shell.Denotes
      (match data with
        | none => []
        | some text => ["-d".toList, Shell.quote text.toList])
      ((data.toList.flatMap fun text => ["-d", text]).map String.toList) := by
  cases data with
  | none => exact .nil
  | some text =>
    exact .cons (Shell.denotes_inactive (by decide) (by decide))
      (.cons (Shell.denotes_quote _) .nil)

theorem denotes_headers (lines : List (String × String)) :
    List.Forall₂ Shell.Denotes
      (lines.flatMap fun (name, value) =>
        ["-H".toList, Shell.quote (name.toList ++ ':' :: ' ' :: value.toList)])
      ((lines.flatMap fun line => ["-H", line.1 ++ ": " ++ line.2]).map String.toList) := by
  have option : Shell.Denotes "-H".toList "-H".toList :=
    Shell.denotes_inactive (by decide) (by decide)
  induction lines with
  | nil => exact .nil
  | cons line lines ih =>
    have text : (line.1 ++ ": " ++ line.2).toList =
        line.1.toList ++ ':' :: ' ' :: line.2.toList := by simp
    rw [List.flatMap_cons, List.flatMap_cons, List.map_append, List.map_cons, List.map_cons, text]
    exact .cons option (.cons (Shell.denotes_quote _) ih)

theorem words_denote (request : Request) :
    List.Forall₂ Shell.Denotes (words request) ((meantWords request).map String.toList) := by
  have curl : Shell.Denotes "curl".toList "curl".toList :=
    Shell.denotes_inactive (by decide) (by decide)
  have method : Shell.Denotes "-X".toList "-X".toList :=
    Shell.denotes_inactive (by decide) (by decide)
  have url : Shell.Denotes (Shell.quote request.url.printChars) request.url.print.toList := by
    rw [Url.print, String.toList_ofList]
    exact Shell.denotes_quote _
  have start : List.Forall₂ Shell.Denotes
      ["curl".toList, "-X".toList, Shell.quote request.method.name.toList]
      (["curl", "-X", request.method.name].map String.toList) :=
    .cons curl (.cons method (.cons (Shell.denotes_quote _) .nil))
  rw [meantWords, List.map_append, List.map_append, List.map_append]
  exact List.rel_append
    (List.rel_append (List.rel_append start (denotes_data _)) (denotes_headers _)) (.cons url .nil)

/-- A shell takes the parts of a request from its command word for word, and finds nothing
in them to interpret. Every part that could hold anything but plain characters stands in
quotes, and quoting is undone by the shell whatever the text is. -/
theorem command_words (request : Request) :
    ∃ (data : List String) (shown : List (String × String)),
      Shell.words? (command request).toList = some (List.map String.toList <|
        ["curl", "-X", request.method.name] ++ data ++
          shown.flatMap (fun line => ["-H", line.1 ++ ": " ++ line.2]) ++ [request.url.print]) ∧
      (Multipart request → data = ["-d", "@/file/path/REDACTED"]) ∧
      (¬ Multipart request →
        data = request.body.toList.flatMap fun body => ["-d", Text.decodeLossy body]) ∧
      shown.Perm (("Authorization", "Bearer REDACTED") ::
        (request.headers.lines.filter fun line => line.1 ≠ .authorization).map fun line =>
          (displayName line.1, Text.decodeLossy line.2)) ∧
      (∀ name, CallerHeaders.sameName (displayName name) name.text) ∧
      (shown.Pairwise fun line other =>
        line.1 < other.1 ∨ line.1 = other.1 ∧ line.2 ≤ other.2) ∧
      (Multipart request → ∀ body, command { request with body := body } = command request) := by
  refine ⟨(data? request).toList.flatMap fun text => ["-d", text], shownHeaders request.headers,
    ?_, ?_, ?_, shownHeaders_perm _, ?_, shownHeaders_sorted _, ?_⟩
  · rw [command, String.toList_ofList]
    exact Shell.words?_intercalate (words_denote request)
  · intro multipart
    rw [data?, if_pos ((isMultipart_iff request).mpr multipart)]
    rfl
  · intro single
    rw [data?, if_neg (mt (isMultipart_iff request).mp single)]
    cases request.body <;> rfl
  · intro name
    exact beq_iff_eq.mpr (displayName_lower name)
  · intro multipart body
    have upload : isMultipart request = true := (isMultipart_iff request).mpr multipart
    have same : isMultipart { request with body := body } = true := upload
    rw [command, command, words, words, data?, data?, if_pos upload, if_pos same]

end Http.Curl

end PlatformClient
