import PlatformClient.Proofs.PercentEscapes
import PlatformClient.Proofs.TextParts
import PlatformClient.Url.Join

namespace PlatformClient.Url

section Dots

open Percent (Escaped encode encode_eq_cons encode_eq_percent encode_eq_nil_iff hexDigit pathSet)

variable {cs out : List Char}

/-- A dot in front of an escaped text has been there before it was escaped, as itself or as
an escape of its own. Escaping never makes one, since a dot is in no set of escapes. -/
theorem skipDot_encode (dot : skipDot (encode pathSet cs) = some out) :
    ∃ rest, skipDot cs = some rest ∧ out = encode pathSet rest := by
  have two : ∀ {cs rest : List Char} {mark : Char}, mark ≠ '%' →
      encode pathSet cs = '2' :: mark :: rest →
        ∃ others, cs = '2' :: mark :: others ∧ rest = encode pathSet others := by
    intro cs rest mark other encoded
    obtain ⟨behind, rfl, more⟩ := encode_eq_cons (by decide) encoded
    obtain ⟨others, rfl, same⟩ := encode_eq_cons other more.symm
    exact ⟨others, rfl, same⟩
  -- No escape that is made stands for a dot.
  have digits : ∀ byte < 0x100, hexDigit (byte / 16) = '2' → hexDigit (byte % 16) = 'E' →
      byte = 0x2E := by decide +kernel
  have upper : ∀ n < 16, hexDigit n ≠ 'e' := by decide
  unfold skipDot at dot
  split at dot
  · rename_i rest encoded
    cases dot
    obtain ⟨others, rfl, same⟩ := encode_eq_cons (by decide) encoded
    exact ⟨others, rfl, same⟩
  · rename_i rest encoded
    cases dot
    rcases encode_eq_percent encoded with ⟨behind, rfl, more⟩ | ⟨byte, others, escape, small, -⟩
    · obtain ⟨others, rfl, same⟩ := two (by decide) more.symm
      exact ⟨others, rfl, same⟩
    · obtain ⟨-, low⟩ := List.cons.inj escape
      exact absurd (List.cons.inj low).1.symm (upper _ (Nat.mod_lt _ (by decide)))
  · rename_i rest encoded
    cases dot
    rcases encode_eq_percent encoded with ⟨behind, rfl, more⟩ |
      ⟨byte, others, escape, small, origin⟩
    · obtain ⟨others, rfl, same⟩ := two (by decide) more.symm
      exact ⟨others, rfl, same⟩
    · obtain ⟨high, low⟩ := List.cons.inj escape
      obtain rfl := digits byte small high.symm (List.cons.inj low).1.symm
      rcases origin with ⟨c, inside, same⟩ | beyond
      · rw [show c = '.' from Char.toNat_inj.mp same.symm] at inside
        cases inside
      · omega
  · cases dot

theorem isSingleDot_encode (other : isSingleDot cs = false) :
    isSingleDot (encode pathSet cs) = false := by
  refine eq_false_of_ne_true fun dot => ?_
  obtain ⟨rest, skipped, none⟩ := skipDot_encode (beq_iff_eq.mp dot)
  rw [encode_eq_nil_iff.mp none.symm] at skipped
  exact ne_true_of_eq_false other (beq_iff_eq.mpr skipped)

theorem isDoubleDot_encode (other : isDoubleDot cs = false) :
    isDoubleDot (encode pathSet cs) = false := by
  refine eq_false_of_ne_true fun dots => ?_
  obtain ⟨out, first, second⟩ := Option.bind_eq_some_iff.mp (beq_iff_eq.mp dots)
  obtain ⟨behind, skipped, rfl⟩ := skipDot_encode first
  obtain ⟨rest, last, none⟩ := skipDot_encode second
  rw [encode_eq_nil_iff.mp none.symm] at last
  refine ne_true_of_eq_false other (beq_iff_eq.mpr ?_)
  rw [skipped, Option.bind_some, last]

end Dots

section Segments

variable {cs : List Char} {above names : List String}

/-- A segment as it comes out of reading a path. It holds no slash, and it is none of the
segments that lead nowhere or up. -/
structure IsSegment (cs : List Char) : Prop where
  escaped : Percent.Escaped Percent.pathSet cs
  whole : ∀ c ∈ cs, isSlash true c = false
  single : isSingleDot cs = false
  double : isDoubleDot cs = false

theorem isSegment_nil : IsSegment [] := ⟨nofun, nofun, rfl, rfl⟩

theorem isSegment_encode (whole : ∀ c ∈ cs, isSlash true c = false)
    (single : isSingleDot cs = false) (double : isDoubleDot cs = false) :
    IsSegment (Percent.encode Percent.pathSet cs) where
  escaped := Percent.escaped_encode Percent.spares_pathSet cs
  whole := Percent.forall_mem_encode rfl (by decide) fun c inside _ _ => whole c inside
  single := isSingleDot_encode single
  double := isDoubleDot_encode double

/-- The segments of a text are the parts that the library finds. -/
theorem splitSegments_eq_splitOnP (special : Bool) (cs : List Char) :
    splitSegments special cs = cs.splitOnP (isSlash special) := by
  induction cs with
  | nil => rfl
  | cons c rest ih =>
    rw [splitSegments, List.splitOnP_cons_eq_if_modifyHead, ih]
    split_ifs
    · rfl
    · cases split : rest.splitOnP (isSlash special) with
      | nil => exact absurd split (List.splitOnP_ne_nil _ rest)
      | cons name names => rfl

/-- The segments of a path in an address. -/
structure AreSegments (names : List String) : Prop where
  nonempty : names ≠ []
  each : ∀ name ∈ names, IsSegment name.toList

theorem isSegment_segment (whole : ∀ c ∈ cs, isSlash true c = false)
    (single : isSingleDot cs = false) (double : isDoubleDot cs = false) :
    IsSegment (segment false cs).toList := by
  rw [segment, Bool.false_and, if_neg Bool.false_ne_true, encodeSegment, String.toList_ofList]
  exact isSegment_encode whole single double

theorem areSegments_reverse {last : String} (segment : IsSegment last.toList)
    (segments : ∀ name ∈ above, IsSegment name.toList) : AreSegments (last :: above).reverse where
  nonempty := List.reverse_ne_nil_iff.mpr (List.cons_ne_nil last above)
  each name inside := by
    rcases List.mem_cons.mp (List.mem_reverse.mp inside) with rfl | inside
    · exact segment
    · exact segments name inside

theorem mem_goUp {name : String} (inside : name ∈ goUp false above) : name ∈ above := by
  cases above with
  | nil => exact inside
  | cons last above => exact List.mem_cons_of_mem _ inside

/-- Going down from segments leads to segments. Segments that lead nowhere or up are
followed on the way, and so none of them is left at the end. -/
theorem areSegments_walk {below : List (List Char)} (nonempty : below ≠ [])
    (whole : ∀ name ∈ below, ∀ c ∈ name, isSlash true c = false)
    (segments : ∀ name ∈ above, IsSegment name.toList) : AreSegments (walk false above below) := by
  have upward : ∀ {above : List String}, (∀ name ∈ above, IsSegment name.toList) →
      ∀ name ∈ goUp false above, IsSegment name.toList :=
    fun segments name inside => segments name (mem_goUp inside)
  induction below generalizing above with
  | nil => exact absurd rfl nonempty
  | cons name rest ih =>
    obtain ⟨here, further⟩ := List.forall_mem_cons.mp whole
    cases rest with
    | nil =>
      rw [walk]
      split_ifs with double single
      · exact areSegments_reverse isSegment_nil (upward segments)
      · exact areSegments_reverse isSegment_nil segments
      · exact areSegments_reverse (isSegment_segment here (eq_false_of_ne_true single)
          (eq_false_of_ne_true double)) segments
    | cons next rest =>
      rw [walk]
      · split_ifs with double single
        · exact ih nofun further (upward segments)
        · exact ih nofun further segments
        · refine ih nofun further (List.forall_mem_cons.mpr ⟨?_, segments⟩)
          exact isSegment_segment here (eq_false_of_ne_true single) (eq_false_of_ne_true double)
      · exact nofun

theorem segment_of_isSegment {name : String} (known : IsSegment name.toList) :
    segment false name.toList = name := by
  rw [segment, Bool.false_and, if_neg Bool.false_ne_true, encodeSegment,
    Percent.encode_eq_self known.escaped, String.ofList_toList]

/-- Segments are gone down as they are. None of them is a dot segment, so that each is
simply put behind those above it. -/
theorem walk_of_segments (areSegments : AreSegments names) :
    walk false above (names.map String.toList) = above.reverse ++ names := by
  obtain ⟨nonempty, each⟩ := areSegments
  induction names generalizing above with
  | nil => exact absurd rfl nonempty
  | cons name rest ih =>
    obtain ⟨known, each⟩ := List.forall_mem_cons.mp each
    cases rest with
    | nil =>
      rw [List.map_singleton, walk, if_neg (ne_true_of_eq_false known.double),
        if_neg (ne_true_of_eq_false known.single), segment_of_isSegment known, List.reverse_cons]
    | cons next rest =>
      rw [List.map_cons, walk, if_neg (ne_true_of_eq_false known.double),
        if_neg (ne_true_of_eq_false known.single), segment_of_isSegment known, ih nofun each]
      · simp
      · exact nofun

/-- Behind segments that are gone down as they are, the way goes on from the last of them. -/
theorem walk_append {more : List (List Char)} (segments : ∀ name ∈ names, IsSegment name.toList)
    (nonempty : more ≠ []) :
    walk false above (names.map String.toList ++ more) =
      walk false (names.reverse ++ above) more := by
  induction names generalizing above with
  | nil => rfl
  | cons name rest ih =>
    obtain ⟨known, segments⟩ := List.forall_mem_cons.mp segments
    rw [List.map_cons, List.cons_append, walk, if_neg (ne_true_of_eq_false known.double),
      if_neg (ne_true_of_eq_false known.single), segment_of_isSegment known, ih segments,
      List.reverse_cons, List.append_assoc, List.singleton_append]
    exact fun none => nonempty (List.append_eq_nil_iff.mp none).2

/-- The segments that are written are found again. The slashes between them are the only
ones. -/
theorem splitOnP_printSegments {first : String}
    (segments : ∀ name ∈ first :: names, IsSegment name.toList) :
    (first.toList ++ Path.printSegments names).splitOnP (isSlash true) =
      (first :: names).map String.toList := by
  induction names generalizing first with
  | nil =>
    rw [Path.printSegments, List.flatMap_nil, List.append_nil]
    exact List.splitOnP_eq_singleton (segments first List.mem_cons_self).whole
  | cons next rest ih =>
    obtain ⟨known, others⟩ := List.forall_mem_cons.mp segments
    rw [Path.printSegments, List.flatMap_cons, List.cons_append, ← Path.printSegments,
      List.splitOnP_append_cons_of_forall_mem known.whole '/' rfl, ih others]
    rfl

/-- The segments that are written in front of a slash are found again, behind nothing. -/
theorem splitOnP_printSegments_append (segments : ∀ name ∈ names, IsSegment name.toList)
    (cs : List Char) :
    (Path.printSegments names ++ '/' :: cs).splitOnP (isSlash true) =
      [] :: (names.map String.toList ++ cs.splitOnP (isSlash true)) := by
  have empty : IsSegment "".toList := isSegment_nil
  have written : (Path.printSegments names).splitOnP (isSlash true) =
      ("" :: names).map String.toList :=
    splitOnP_printSegments (List.forall_mem_cons.mpr ⟨empty, segments⟩)
  rw [List.splitOnP_append_cons _ _ rfl, written]
  rfl

end Segments

section Paths

variable {scheme : String} {above names : List String}

theorem readSegments_print (special : isSpecial scheme = true) (other : scheme ≠ "file")
    (areSegments : AreSegments names) :
    readSegments scheme (Path.printSegments names) = names := by
  obtain ⟨name, rest, rfl⟩ := List.exists_cons_of_ne_nil areSegments.nonempty
  have slash : isSlash true '/' = true := rfl
  rw [Path.printSegments, List.flatMap_cons, List.cons_append, ← Path.printSegments, readSegments,
    special, if_pos slash, splitSegments_eq_splitOnP, splitOnP_printSegments areSegments.each,
    beq_false_of_ne other, walk_of_segments areSegments, finishPath, if_neg other]
  rfl

/-- What is read from the segments of a text in an address are segments. -/
theorem areSegments_of_text (segments : ∀ name ∈ above, IsSegment name.toList) (cs : List Char) :
    AreSegments (walk false above (splitSegments true cs)) := by
  rw [splitSegments_eq_splitOnP]
  exact areSegments_walk (List.splitOnP_ne_nil _ cs)
    (fun _ inside c found => (Text.of_mem_splitOnP inside c found).2) segments

theorem areSegments_readSegments (special : isSpecial scheme = true) (other : scheme ≠ "file")
    (cs : List Char) : AreSegments (readSegments scheme cs) := by
  cases cs with
  | nil =>
    rw [readSegments, if_pos special]
    exact ⟨List.cons_ne_nil _ _, List.forall_mem_singleton.mpr isSegment_nil⟩
  | cons c rest =>
    rw [readSegments, special, finishPath, if_neg other, beq_false_of_ne other]
    exact areSegments_of_text (List.forall_mem_nil _) _

theorem isSegment_of_directory {path : Path} (known : path = .segments names)
    (areSegments : AreSegments names) : ∀ name ∈ directory path, IsSegment name.toList := by
  intro name inside
  rw [known, directory] at inside
  exact areSegments.each name (List.mem_reverse.mp ((List.dropWhile_sublist _).subset inside))

/-- A path goes on from segments along any text, and has segments again. It cannot leave
them upwards: there is nothing above the first. -/
theorem extendPath_eq_segments {url : Url} (special : isSpecial url.scheme = true)
    (other : url.scheme ≠ "file") (known : url.path = .segments names)
    (areSegments : AreSegments names) (cs : List Char) :
    ∃ names, url.extendPath cs = .segments names ∧ AreSegments names := by
  refine ⟨_, rfl, ?_⟩
  rw [special, finishPath, if_neg other, beq_false_of_ne other]
  exact areSegments_of_text (isSegment_of_directory known areSegments) _

end Paths

end PlatformClient.Url
