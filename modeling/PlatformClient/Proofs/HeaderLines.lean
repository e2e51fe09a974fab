import Mathlib.Data.List.Perm.Basic
import Mathlib.Data.List.Sort
import Mathlib.Data.String.Basic
import PlatformClient.Http.Headers

namespace PlatformClient

namespace Http

theorem HeaderName.ext_text {name other : HeaderName} (same : name.text = other.text) :
    name = other := by
  cases name
  cases other
  exact congrArg mk same

theorem mem_appendLine {name : HeaderName} {value : Bytes} {line : HeaderName × Bytes}
    {lines : List (HeaderName × Bytes)} :
    line ∈ Headers.appendLine name value lines ↔ line = (name, value) ∨ line ∈ lines := by
  induction lines with
  | nil => simp [Headers.appendLine]
  | cons first rest ih =>
    rw [Headers.appendLine]
    split
    · exact List.mem_cons
    · rw [List.mem_cons, ih, List.mem_cons]
      tauto

theorem filter_appendLine {name other : HeaderName} (value : Bytes) (ne : other ≠ name)
    (lines : List (HeaderName × Bytes)) :
    (Headers.appendLine name value lines).filter (fun line => line.1 = other) =
      lines.filter fun line => line.1 = other := by
  induction lines with
  | nil => simp [Headers.appendLine, ne.symm]
  | cons first rest ih =>
    rw [Headers.appendLine]
    split
    · exact List.filter_cons_of_neg (by simpa using ne.symm)
    · rw [List.filter_cons, List.filter_cons, ih]

namespace Headers

variable {headers upper : Headers} {name other : HeaderName} {value : Bytes}

theorem mem_insert {line : HeaderName × Bytes} :
    line ∈ (headers.insert name value).lines ↔
      line = (name, value) ∨ line ∈ headers.lines ∧ line.1 ≠ name := by
  simp [insert, append, erase, mem_appendLine]

theorem mem_values : value ∈ headers.values name ↔ (name, value) ∈ headers.lines := by
  simp [values]

theorem values_append_of_ne (ne : other ≠ name) :
    (headers.append name value).values other = headers.values other := by
  rw [values, append, filter_appendLine value ne, values]

theorem values_append_self (absent : headers.values name = []) :
    (headers.append name value).values name = [value] := by
  have placed : ∀ lines : List (HeaderName × Bytes), (∀ line ∈ lines, line.1 ≠ name) →
      (appendLine name value lines).filter (fun line => line.1 = name) = [(name, value)] := by
    intro lines others
    induction lines with
    | nil => simp [appendLine]
    | cons first rest ih =>
      obtain ⟨ne, others⟩ := List.forall_mem_cons.mp others
      rw [appendLine]
      split
      · rw [List.filter_cons_of_pos (by simp), List.filter_eq_nil_iff.mpr]
        simpa using ⟨ne, fun a b member => others (a, b) member⟩
      · rw [List.filter_cons_of_neg (by simpa using ne), ih others]
  rw [values, append, placed]
  · rfl
  · rintro line member rfl
    have found := mem_values.mpr member
    rw [absent] at found
    cases found

theorem values_erase_self : (headers.erase name).values name = [] := by
  rw [values, erase, List.filter_filter, List.filter_eq_nil_iff.mpr]
  · rfl
  · simp

theorem values_erase_of_ne (ne : other ≠ name) :
    (headers.erase name).values other = headers.values other := by
  rw [values, erase, List.filter_filter, values]
  congr 1
  refine List.filter_congr fun line _ => ?_
  by_cases same : line.1 = other
  · simp [same, ne]
  · simp [same]

theorem values_insert_of_ne (ne : other ≠ name) :
    (headers.insert name value).values other = headers.values other := by
  rw [insert, values_append_of_ne ne, values_erase_of_ne ne]

theorem values_insert_self : (headers.insert name value).values name = [value] :=
  values_append_self values_erase_self

theorem values_insert : (headers.insert name value).values other =
    if other = name then [value] else headers.values other := by
  split
  · subst other
    exact values_insert_self
  · exact values_insert_of_ne ‹_›

/-- Adds some lines, one after the other. -/
def appendAll (headers : Headers) (lines : List (HeaderName × Bytes)) : Headers :=
  lines.foldl (fun result (name, value) => result.append name value) headers

theorem values_appendAll_of_absent {lines : List (HeaderName × Bytes)}
    (others : ∀ line ∈ lines, line.1 ≠ name) :
    (headers.appendAll lines).values name = headers.values name := by
  induction lines generalizing headers with
  | nil => rfl
  | cons line rest ih =>
    obtain ⟨ne, others⟩ := List.forall_mem_cons.mp others
    exact (ih others).trans (values_append_of_ne ne.symm)

theorem values_appendAll {lines : List (HeaderName × Bytes)} (absent : headers.values name = [])
    (only : (lines.filter fun line => line.1 = name).map (·.2) = [value]) :
    (headers.appendAll lines).values name = [value] := by
  induction lines generalizing headers with
  | nil => cases only
  | cons line rest ih =>
    by_cases same : line.1 = name
    · rw [List.filter_cons_of_pos (by simpa using same), List.map_cons, List.cons.injEq,
        List.map_eq_nil_iff, List.filter_eq_nil_iff] at only
      obtain ⟨rfl, others⟩ := only
      subst same
      have kept : (appendAll (headers.append line.1 line.2) rest).values line.1 =
          (headers.append line.1 line.2).values line.1 :=
        values_appendAll_of_absent fun other member => by simpa using others other member
      exact kept.trans (values_append_self absent)
    · rw [List.filter_cons_of_neg (by simpa using same)] at only
      exact ih ((values_append_of_ne (Ne.symm same)).trans absent) only

/-- A name that the second headers have one value for has that value. -/
theorem values_override (only : upper.values name = [value]) :
    (headers.override upper).values name = [value] := by
  refine values_appendAll ?_ only
  rw [values, List.map_eq_nil_iff, List.filter_filter, List.filter_eq_nil_iff]
  rintro line - both
  simp only [Bool.and_eq_true, decide_eq_true_eq, Option.isNone_iff_eq_none] at both
  obtain ⟨rfl, none⟩ := both
  rw [get?, only] at none
  cases none

/-- One line for each name, in the order of the names. Setting a header keeps it so, which
makes the order in which headers are set invisible. -/
def Ordered (headers : Headers) : Prop :=
  headers.lines.Pairwise fun line other => line.1.text < other.1.text

theorem Ordered.empty : Ordered empty := List.Pairwise.nil

theorem Ordered.insert (ordered : headers.Ordered) (name : HeaderName) (value : Bytes) :
    (headers.insert name value).Ordered := by
  have placed : ∀ lines : List (HeaderName × Bytes), (∀ line ∈ lines, line.1 ≠ name) →
      lines.Pairwise (fun line other => line.1.text < other.1.text) →
      (appendLine name value lines).Pairwise fun line other => line.1.text < other.1.text := by
    intro lines others sorted
    induction lines with
    | nil => simp [appendLine]
    | cons first rest ih =>
      obtain ⟨ne, others⟩ := List.forall_mem_cons.mp others
      obtain ⟨least, sorted⟩ := List.pairwise_cons.mp sorted
      rw [appendLine]
      split
      · rename_i before
        refine List.pairwise_cons.mpr ⟨?_, List.pairwise_cons.mpr ⟨least, sorted⟩⟩
        intro line member
        rcases List.mem_cons.mp member with rfl | member
        · exact before
        · exact lt_trans before (least line member)
      · rename_i late
        refine List.pairwise_cons.mpr ⟨?_, ih others sorted⟩
        intro line member
        rcases mem_appendLine.mp member with rfl | member
        · exact lt_of_le_of_ne (not_lt.mp late) fun same => ne (HeaderName.ext_text same)
        · exact least line member
  exact placed _ (fun line member => by simpa using (List.mem_filter.mp member).2)
    (ordered.sublist List.filter_sublist)

theorem Ordered.nodup (ordered : headers.Ordered) : headers.lines.Nodup := by
  refine List.Pairwise.imp ?_ ordered
  rintro line _ before rfl
  exact lt_irrefl _ before

/-- Where each name has one line, the values of the names are all there is to know. Two
lists of headers are then compared name by name. -/
theorem Ordered.ext (ordered : headers.Ordered) (sorted : upper.Ordered)
    (same : ∀ name, headers.values name = upper.values name) : headers = upper := by
  have perm : headers.lines.Perm upper.lines := by
    refine (List.perm_ext_iff_of_nodup ordered.nodup sorted.nodup).mpr ?_
    rintro ⟨name, value⟩
    rw [← mem_values, ← mem_values, same name]
  have lines := perm.eq_of_pairwise (fun _ _ _ _ before after => absurd before (lt_asymm after))
    ordered sorted
  exact congrArg Headers.mk lines

/-- Sets the only values of some names. -/
def setAll (headers : Headers) (lines : List (HeaderName × Bytes)) : Headers :=
  lines.foldl (fun result line => result.insert line.1 line.2) headers

theorem setAll_cons (line : HeaderName × Bytes) (rest : List (HeaderName × Bytes)) :
    headers.setAll (line :: rest) = (headers.insert line.1 line.2).setAll rest := rfl

theorem Ordered.setAll (ordered : headers.Ordered) (lines : List (HeaderName × Bytes)) :
    (headers.setAll lines).Ordered := by
  induction lines generalizing headers with
  | nil => exact ordered
  | cons line rest ih => exact ih (ordered.insert line.1 line.2)

theorem values_setAll_of_not_mem {lines : List (HeaderName × Bytes)}
    (absent : name ∉ lines.map (·.1)) :
    (headers.setAll lines).values name = headers.values name := by
  induction lines generalizing headers with
  | nil => rfl
  | cons line rest ih =>
    rw [List.map_cons, List.mem_cons, not_or] at absent
    rw [setAll_cons, ih absent.2, values_insert_of_ne absent.1]

theorem values_setAll_of_mem {lines : List (HeaderName × Bytes)}
    (distinct : (lines.map (·.1)).Nodup) (member : (name, value) ∈ lines) :
    (headers.setAll lines).values name = [value] := by
  induction lines generalizing headers with
  | nil => cases member
  | cons line rest ih =>
    rw [List.map_cons, List.nodup_cons] at distinct
    rw [setAll_cons]
    rcases List.mem_cons.mp member with rfl | member
    · rw [values_setAll_of_not_mem distinct.1, values_insert_self]
    · exact ih distinct.2 member

theorem setAll_append (before after : List (HeaderName × Bytes)) :
    headers.setAll (before ++ after) = (headers.setAll before).setAll after := List.foldl_append

/-- The last line of a name is the one that stays. -/
theorem values_setAll_of_last {before after : List (HeaderName × Bytes)}
    (later : name ∉ after.map (·.1)) :
    (headers.setAll (before ++ (name, value) :: after)).values name = [value] := by
  rw [setAll_append, setAll_cons, values_setAll_of_not_mem later, values_insert_self]

/-- The order in which different names are set does not matter. Each name has the value that
is set for it, and headers are determined by their values. -/
theorem setAll_perm (ordered : headers.Ordered) {lines visited : List (HeaderName × Bytes)}
    (perm : visited.Perm lines) (distinct : (lines.map (·.1)).Nodup) :
    headers.setAll visited = headers.setAll lines := by
  refine (ordered.setAll visited).ext (ordered.setAll lines) fun name => ?_
  by_cases set : name ∈ lines.map (·.1)
  · obtain ⟨⟨_, value⟩, member, rfl⟩ := List.mem_map.mp set
    rw [values_setAll_of_mem distinct member,
      values_setAll_of_mem ((perm.map _).nodup_iff.mpr distinct) (perm.mem_iff.mpr member)]
  · rw [values_setAll_of_not_mem set,
      values_setAll_of_not_mem fun member => set ((perm.map _).mem_iff.mp member)]

/-- Headers that can be sent: one line for each name, and all names can be read. -/
structure WellFormed (headers : Headers) : Prop where
  ordered : headers.Ordered
  named : ∀ line ∈ headers.lines, ∃ text, HeaderName.ofString? text = some line.1

theorem WellFormed.empty : WellFormed empty := ⟨.empty, nofun⟩

theorem WellFormed.insert (formed : headers.WellFormed) {text : String}
    (proper : HeaderName.ofString? text = some name) (value : Bytes) :
    (headers.insert name value).WellFormed where
  ordered := formed.ordered.insert name value
  named := by
    intro line member
    rcases mem_insert.mp member with rfl | ⟨member, -⟩
    · exact ⟨text, proper⟩
    · exact formed.named line member

theorem WellFormed.setAll (formed : headers.WellFormed) {lines : List (HeaderName × Bytes)}
    (proper : ∀ line ∈ lines, ∃ text, HeaderName.ofString? text = some line.1) :
    (headers.setAll lines).WellFormed := by
  induction lines generalizing headers with
  | nil => exact formed
  | cons line rest ih =>
    obtain ⟨⟨text, first⟩, proper⟩ := List.forall_mem_cons.mp proper
    exact ih (formed.insert first line.2) proper

end Headers

theorem HeaderName.ofString?_text {text : String} {name : HeaderName}
    (proper : HeaderName.ofString? text = some name) :
    name.text = String.ofList (text.toList.map Char.toLower) := by
  simp only [ofString?] at proper
  split at proper
  · cases proper
    rfl
  · cases proper

theorem headerValue?_eq_some {text : String} {value : Bytes}
    (proper : headerValue? text = some value) : value = Text.encode text := by
  unfold headerValue? at proper
  split at proper
  · exact (Option.some.inj proper).symm
  · cases proper

end Http

end PlatformClient
