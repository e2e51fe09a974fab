import PlatformClient.Proofs.TokenAddresses

namespace PlatformClient.Url

open Login (isUnreserved)
open Percent (Escaped pathSet specialQuerySet)

section Written

/-- A character that can stand in the path of a call as it is: what a segment consists of, the slash
between two of them, and the percent sign of an escape. -/
def isPathChar (c : Char) : Bool :=
  isUnreserved c || "!$&'()*+,;=:@/%".toList.contains c

/-- A character that can stand in the query of a call as it is. -/
def isQueryChar (c : Char) : Bool :=
  isUnreserved c || "!$&()*+,;=:@/?%".toList.contains c

/-- A segment that means one or two dots, whether these are escaped or not. Such segments
are followed and not attached. -/
def IsDotSegment (name : List Char) : Prop :=
  Percent.decode (Text.encodeChars name) = Text.encode "." ∨
    Percent.decode (Text.encodeChars name) = Text.encode ".."

instance (name : List Char) : Decidable (IsDotSegment name) :=
  inferInstanceAs (Decidable (_ ∨ _))

variable {c : Char}

theorem ascii_of_marked {marks : List Char} (small : ∀ mark ∈ marks, mark.toNat < 0x80)
    (known : (isUnreserved c || marks.contains c) = true) : c.toNat < 0x80 := by
  rcases Bool.or_eq_true_iff.mp known with unreserved | marked
  · exact Login.ascii_of_isUnreserved unreserved
  · exact small c (List.contains_iff_mem.mp marked)

theorem ascii_of_isPathChar (known : isPathChar c = true) : c.toNat < 0x80 :=
  ascii_of_marked (by simp) known

theorem ascii_of_isQueryChar (known : isQueryChar c = true) : c.toNat < 0x80 :=
  ascii_of_marked (by simp) known

/-- A character of a path is seen, does not end the path, is not escaped, and is no slash but the
slash itself. -/
theorem pathChar_bounds (known : isPathChar c = true) :
    (0x20 < c.toNat ∧ c ≠ '?') ∧ pathSet c = false ∧ isSlash true c = (c == '/') := by
  have bounds : isPathChar c = true →
      (0x20 < c.toNat ∧ c ≠ '?') ∧ pathSet c = false ∧ isSlash true c = (c == '/') :=
    Text.forall_ascii (by decide +kernel) (ascii_of_isPathChar known)
  exact bounds known

theorem escaped_of_isQueryChar {cs : List Char} (known : ∀ c ∈ cs, isQueryChar c = true) :
    Escaped specialQuerySet cs := by
  intro c inside
  have ascii := ascii_of_isQueryChar (known c inside)
  have outside : isQueryChar c = true → specialQuerySet c = false :=
    Text.forall_ascii (by decide +kernel) ascii
  exact ⟨outside (known c inside), ascii⟩

end Written

section Dots

variable {name rest : List Char}

theorem decode_of_skipDot (dot : skipDot name = some rest) :
    Percent.decode (Text.encodeChars name) =
      Text.encode "." ++ Percent.decode (Text.encodeChars rest) := by
  unfold skipDot at dot
  split at dot <;> cases dot <;> rfl

theorem isSingleDot_eq_false (other : ¬ IsDotSegment name) : isSingleDot name = false := by
  refine eq_false_of_ne_true fun dot => other (Or.inl ?_)
  rw [decode_of_skipDot (beq_iff_eq.mp dot)]
  rfl

theorem isDoubleDot_eq_false (other : ¬ IsDotSegment name) : isDoubleDot name = false := by
  refine eq_false_of_ne_true fun dots => other (Or.inr ?_)
  obtain ⟨rest, first, second⟩ := Option.bind_eq_some_iff.mp (beq_iff_eq.mp dots)
  rw [decode_of_skipDot first, decode_of_skipDot second]
  rfl

end Dots

section Paths

variable {base : Url} {relative : List Char}

/-- Segments are written as a slash and the text that they are the parts of. -/
theorem printSegments_eq_intercalate {names : List String} (nonempty : names ≠ []) :
    Path.printSegments names = '/' :: ['/'].intercalate (names.map String.toList) := by
  induction names with
  | nil => exact absurd rfl nonempty
  | cons name rest ih =>
    rw [Path.printSegments, List.flatMap_cons, ← Path.printSegments]
    cases rest with
    | nil => simp [Path.printSegments]
    | cons next rest =>
      rw [ih (List.cons_ne_nil _ _)]
      simp [List.intercalate_cons_cons]

theorem printSegments_splitOn (cs : List Char) :
    Path.printSegments ((cs.splitOn '/').map String.ofList) = '/' :: cs := by
  have nonempty : (cs.splitOn '/').map String.ofList ≠ [] :=
    List.map_eq_nil_iff.not.mpr (List.splitOn_ne_nil _ _)
  rw [printSegments_eq_intercalate nonempty]
  simp [Function.comp_def, List.intercalate_splitOn]

/-- The parts of a text in which every character can stand are segments as they are. None of
them is escaped, and those that would lead nowhere or up have been left out. -/
theorem areSegments_splitOn (chars : ∀ c ∈ relative, isPathChar c = true)
    (noDots : ∀ name ∈ relative.splitOn '/', ¬ IsDotSegment name) :
    AreSegments ((relative.splitOn '/').map String.ofList) where
  nonempty := List.map_eq_nil_iff.not.mpr (List.splitOn_ne_nil _ _)
  each := by
    simp only [List.forall_mem_map, String.toList_ofList]
    intro name inside
    have within : ∀ c ∈ name, isPathChar c = true ∧ (c == '/') = false := fun c found =>
      (Text.of_mem_splitOnP inside c found).imp_left (chars c)
    refine ⟨fun c found => ?_, fun c found => ?_, isSingleDot_eq_false (noDots name inside),
      isDoubleDot_eq_false (noDots name inside)⟩
    · exact ⟨(pathChar_bounds (within c found).1).2.1, ascii_of_isPathChar (within c found).1⟩
    · rw [(pathChar_bounds (within c found).1).2.2, (within c found).2]

/-- A path goes on along such a text behind the slashes at its end, which the text replaces.
The directory of the base keeps all its other segments. -/
theorem print_extendPath (sound : Sound base) (chars : ∀ c ∈ relative, isPathChar c = true)
    (noDots : ∀ name ∈ relative.splitOn '/', ¬ IsDotSegment name) :
    (base.extendPath relative).print =
      base.path.print.rdropWhile (· == '/') ++ '/' :: relative := by
  obtain ⟨names, path, areSegments⟩ := sound.path
  have trimmed : base.path.print.rdropWhile (· == '/') =
      Path.printSegments (directory base.path).reverse := by
    have none : Login.withoutFinalSlashes [] = [] := rfl
    rw [path]
    exact Login.withoutFinalSlashes_printSegments none areSegments.each
  have taken : withoutIgnored relative = relative :=
    withoutIgnored_eq_self fun c inside => (pathChar_bounds (chars c inside)).1.1
  have parted : relative.splitOnP (isSlash true) =
      ((relative.splitOn '/').map String.ofList).map String.toList := by
    rw [Text.splitOnP_congr fun c inside => (pathChar_bounds (chars c inside)).2.2]
    simp [List.splitOn, Function.comp_def]
  rw [extendPath, sound.web.special, taken, splitSegments_eq_splitOnP, parted,
    beq_false_of_ne sound.web.ne_file, walk_of_segments (areSegments_splitOn chars noDots),
    finishPath, if_neg sound.web.ne_file, Path.print, Path.printSegments, List.flatMap_append,
    ← Path.printSegments, ← Path.printSegments, printSegments_splitOn, trimmed]

theorem splitCallPath_written {front : List Char} (chars : ∀ c ∈ front, isPathChar c = true)
    (query : Option String) :
    splitCallPath (front ++ printQuery query) =
      (front, (query.filter (· ≠ "")).map String.toList) := by
  have whole : '?' ∉ front := fun inside => (pathChar_bounds (chars _ inside)).1.2 rfl
  cases query with
  | none => rw [printQuery, List.append_nil, splitCallPath, Text.splitFirst_eq_none whole]; rfl
  | some query =>
    rw [printQuery, splitCallPath, Text.splitFirst_append whole]
    by_cases empty : query = ""
    · subst empty
      rfl
    · simp [Option.filter, empty]

/-- What a call says of its path and its query is attached to the base as it is written.
Only the slashes at the seam become one, and no escape is resolved or made on the way. The
characters are those that are left as they are in both parts, so that nothing in the text
gives a reason to change it. -/
theorem call_path_as_written {text : String} (known : read text = .ok base)
    (web : base.scheme = "http" ∨ base.scheme = "https") {callPath : String} {front : List Char}
    {query : Option String} (written : callPath.toList = front ++ printQuery query)
    (chars : ∀ c ∈ front, isPathChar c = true)
    (noDots : ∀ name ∈ (front.dropWhile (· == '/')).splitOn '/', ¬ IsDotSegment name) :
    ∃ url, base.join? callPath = some url ∧
      (front.dropWhile (· == '/') = [] → url.path = base.path) ∧
      (front.dropWhile (· == '/') ≠ [] → url.path.print =
        base.path.print.rdropWhile (· == '/') ++ '/' :: front.dropWhile (· == '/')) ∧
      ((∀ text ∈ query, ∀ c ∈ text.toList, isQueryChar c = true) →
        url.query = query.filter (· ≠ "")) := by
  have sound := sound_of_read known web
  obtain ⟨names, path, -⟩ := sound.path
  refine ⟨_, join?_of_segments path callPath, fun bare => ?_, fun filled => ?_, fun escaped => ?_⟩
  · rw [written, splitCallPath_written chars]
    exact if_pos (List.isEmpty_iff.mpr bare)
  · have inner : ∀ c ∈ front.dropWhile (· == '/'), isPathChar c = true := fun c inside =>
      chars c ((List.dropWhile_sublist _).subset inside)
    rw [written, splitCallPath_written chars]
    dsimp only
    rw [if_neg (mt List.isEmpty_iff.mp filled), print_extendPath sound inner noDots]
  · rw [written, splitCallPath_written chars]
    cases kept : query.filter (· ≠ "") with
    | none => rfl
    | some text =>
      have escaped := escaped_of_isQueryChar (escaped text (Option.filter_eq_some_iff.mp kept).1)
      rw [Option.map_some, Option.map_some, withoutIgnored_eq_self (visible_query escaped),
        encodeQuery, if_pos sound.web.special, Percent.encode_eq_self escaped, String.ofList_toList]

/-- A base whose path has an escaped slash and ends with slashes. -/
def stackedBase : Url where
  scheme := "https"
  authority := some ⟨"", none, .domain "platform.test", none⟩
  path := .segments ["api", "", "v%2f1", "", ""]
  query := some "x=1"
  fragment := some "top"

/-- A path of a call that has slashes at its seam, escapes, dots that are a name, and two question
marks. -/
def slashedCall : String := "//files/100%25%2Fmore//a;b=1/.../?q=%27?next&all=/"

theorem call_path_as_written_seam :
    read "https://platform.test/api//v%2f1//?x=1#top" = .ok stackedBase ∧
      ∃ url, stackedBase.join? slashedCall = some url ∧
        String.ofList url.path.print = "/api//v%2f1/files/100%25%2Fmore//a;b=1/.../" ∧
        url.query = some "q=%27?next&all=/" := by
  have known : read "https://platform.test/api//v%2f1//?x=1#top" = .ok stackedBase := by
    decide +kernel
  have written : slashedCall.toList = "//files/100%25%2Fmore//a;b=1/.../".toList ++
      printQuery (some "q=%27?next&all=/") := by
    decide +kernel
  obtain ⟨url, joined, -, path, query⟩ := call_path_as_written known (Or.inr rfl) written
    (by simp [isPathChar, isUnreserved]) (by decide +kernel)
  refine ⟨known, url, joined, ?_, query ?_⟩
  · rw [path (by simp)]
    decide +kernel
  · rintro text ⟨⟩
    simp [isQueryChar, isUnreserved]

end Paths

end PlatformClient.Url
