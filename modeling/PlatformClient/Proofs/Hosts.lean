import Mathlib.Data.List.TakeWhile
import PlatformClient.Proofs.Numerals
import PlatformClient.Proofs.PercentEscapes
import PlatformClient.Proofs.TextParts
import PlatformClient.Proofs.Utf8RoundTrip

namespace PlatformClient.Url.Host

section Version4

variable {address : Nat} {cs : List Char}

theorem forall_mem_intercalate {p : Char → Prop} {mark : Char} (separator : p mark)
    {parts : List (List Char)} (each : ∀ part ∈ parts, ∀ c ∈ part, p c) :
    ∀ c ∈ List.intercalate [mark] parts, p c := by
  induction parts with
  | nil => exact nofun
  | cons part parts ih =>
    obtain ⟨first, others⟩ := List.forall_mem_cons.mp each
    cases parts with
    | nil => rwa [List.intercalate_singleton]
    | cons next parts =>
      rw [List.intercalate_cons_cons]
      exact List.forall_mem_append.mpr
        ⟨List.forall_mem_append.mpr ⟨first, List.forall_mem_singleton.mpr separator⟩, ih others⟩

theorem ipv4Part_toDigits (n : Nat) : ipv4Part (Nat.toDigits 10 n) = some n := by
  rcases Nat.eq_zero_or_pos n with rfl | positive
  · rfl
  · obtain ⟨c, rest, digits, other⟩ := toDigits_head_ne_zero positive
    have read := numeral_toDigits (show 1 < 10 by decide) (by decide) n
    rw [digits] at read ⊢
    simpa [ipv4Part, other] using read

/-- The four numbers of an address of version 4. -/
def octets (address : Nat) : List Nat :=
  [address / 0x1000000, address / 0x10000 % 256, address / 256 % 256, address % 256]

theorem domainParts_printIpv4 (address : Nat) :
    domainParts (printIpv4 address) = (octets address).map (Nat.toDigits 10) := by
  have point : ∀ part ∈ (octets address).map (Nat.toDigits 10), '.' ∉ part :=
    fun part inside found => forall_mem_map_toDigits (p := (· ≠ '.')) (show 1 < 10 by decide)
      (by decide) (by decide) _ part inside _ found rfl
  have split : Text.splitAll '.' (printIpv4 address) = (octets address).map (Nat.toDigits 10) := by
    rw [Text.splitAll_eq_splitOn]
    exact List.splitOn_intercalate '.' point (by simp)
  have last : ((octets address).map (Nat.toDigits 10)).getLast? ≠ some [] := by
    simp [octets, Nat.toDigits_ne_nil]
  rw [domainParts, split]
  exact if_neg last

theorem endsInNumber_printIpv4 (address : Nat) : endsInNumber (printIpv4 address) = true := by
  have digits : (Nat.toDigits 10 (address % 256)).all Char.isDigit = true :=
    List.all_eq_true.mpr fun _ => Nat.isDigit_of_mem_toDigits (by decide) (by decide)
  rw [endsInNumber, domainParts_printIpv4]
  simp [octets, Nat.toDigits_ne_nil, digits]

theorem readIpv4_printIpv4 (small : address < 0x100000000) :
    readIpv4 (printIpv4 address) = .ok (.ipv4 address) := by
  have numbers : ((octets address).map (Nat.toDigits 10)).mapM ipv4Part =
      some (octets address) := by
    rw [mapM_eq_some_iff, List.map_map]
    exact List.map_congr_left fun n _ => ipv4Part_toDigits n
  have value : ipv4Value (octets address) 4 = some address := by
    have first : address / 0x1000000 < 256 := by omega
    simp [octets, ipv4Value, first, Nat.mod_lt]
    omega
  rw [readIpv4, domainParts_printIpv4, numbers]
  dsimp only
  rw [if_neg (by simp [octets]), value]

/-- An address has as many places as it has parts at most. A last part may fill the places
that are left, and no part more than its own. -/
theorem ipv4Value_lt {numbers : List Nat} {places : Nat} (short : numbers.length ≤ places)
    (found : ipv4Value numbers places = some address) : address < 256 ^ places := by
  induction numbers generalizing places address with
  | nil => cases found
  | cons first rest ih =>
    cases rest with
    | nil =>
      rw [ipv4Value] at found
      split_ifs at found with small
      exact Option.some.inj found ▸ small
    | cons next rest =>
      cases places with
      | zero => simp at short
      | succ places =>
        have shorter : (next :: rest).length ≤ places := Nat.le_of_succ_le_succ short
        change (if first < 256 then (ipv4Value (next :: rest) places).map (first * 256 ^ places + ·)
          else none) = some address at found
        split_ifs at found with small
        obtain ⟨value, known, rfl⟩ := Option.map_eq_some_iff.mp found
        have bound := ih shorter known
        calc first * 256 ^ places + value
          _ < first * 256 ^ places + 256 ^ places := by omega
          _ = (first + 1) * 256 ^ places := (Nat.succ_mul ..).symm
          _ ≤ 256 * 256 ^ places := Nat.mul_le_mul_right _ small
          _ = 256 ^ (places + 1) := (Nat.pow_succ' ..).symm

theorem readIpv4_eq_ok {host : Host} (read : readIpv4 cs = .ok host) :
    ∃ address < 0x100000000, host = .ipv4 address := by
  rw [readIpv4] at read
  split at read
  · rename_i numbers known
    split_ifs at read with long
    split at read
    · rename_i address found
      have length : (domainParts cs).length = numbers.length := by
        simpa using congrArg List.length (mapM_eq_some_iff.mp known)
      exact ⟨address, ipv4Value_lt (by omega) found, (Except.ok.inj read).symm⟩
    · cases read
  · cases read

end Version4

section Version6

variable {groups : List Nat} {cs : List Char}

theorem splitCompressed_append {digits : List Char} (plain : ':' ∉ digits) (rest : List Char) :
    splitCompressed (digits ++ rest) =
      (splitCompressed rest).map fun (before, after) => (digits ++ before, after) := by
  induction digits with
  | nil => simp
  | cons c digits ih =>
    obtain ⟨other, plain⟩ := List.ne_and_not_mem_of_not_mem_cons plain
    rw [List.cons_append, splitCompressed, ih plain]
    · cases splitCompressed rest <;> rfl
    · rintro rest rfl
      exact absurd rfl other

theorem colon_not_mem_toDigits (n : Nat) : ':' ∉ Nat.toDigits 16 n := fun found =>
  forall_mem_toDigits (p := (· ≠ ':')) (by decide) (Nat.le_refl 16) (by decide) n _ found rfl

theorem printGroups_cons_cons (group next : Nat) (groups : List Nat) :
    printGroups (group :: next :: groups) =
      Nat.toDigits 16 group ++ ':' :: printGroups (next :: groups) := by
  simp [printGroups]

theorem printGroups_singleton (group : Nat) : printGroups [group] = Nat.toDigits 16 group := by
  simp [printGroups]

theorem printGroups_cons_head (group : Nat) (groups : List Nat) :
    ∃ c rest, printGroups (group :: groups) = c :: rest ∧ c ≠ ':' := by
  obtain ⟨c, rest, digits⟩ :=
    List.exists_cons_of_ne_nil (Nat.toDigits_ne_nil (n := group) (b := 16))
  have other : c ≠ ':' := fun same =>
    colon_not_mem_toDigits group (digits ▸ same ▸ List.mem_cons_self)
  cases groups with
  | nil => exact ⟨c, rest, by rw [printGroups_singleton, digits], other⟩
  | cons next groups =>
    exact ⟨c, _, by rw [printGroups_cons_cons, digits, List.cons_append], other⟩

/-- There is no pair of colons among groups. Where one is found in a printed address, it
stands for the zeros that were left out. -/
theorem splitCompressed_printGroups (groups : List Nat) (rest : List Char) :
    splitCompressed (printGroups groups ++ rest) =
      (splitCompressed rest).map fun (before, after) => (printGroups groups ++ before, after) := by
  induction groups with
  | nil => simp [printGroups]
  | cons group groups ih =>
    cases groups with
    | nil =>
      rw [printGroups_singleton]
      exact splitCompressed_append (colon_not_mem_toDigits group) rest
    | cons next groups =>
      have colon : splitCompressed (':' :: (printGroups (next :: groups) ++ rest)) =
          (splitCompressed (printGroups (next :: groups) ++ rest)).map
            fun (before, after) => (':' :: before, after) := by
        obtain ⟨c, others, printed, other⟩ := printGroups_cons_head next groups
        rw [printed, List.cons_append, splitCompressed]
        rintro _ _ same
        exact absurd (List.cons.inj same).1 other
      rw [printGroups_cons_cons, List.append_assoc, List.cons_append,
        splitCompressed_append (colon_not_mem_toDigits group), colon, ih]
      cases splitCompressed rest <;> simp

theorem colonParts_printGroups (groups : List Nat) :
    colonParts (printGroups groups) = groups.map (Nat.toDigits 16) := by
  cases groups with
  | nil => rfl
  | cons group groups =>
    obtain ⟨c, rest, printed, -⟩ := printGroups_cons_head group groups
    have plain : ∀ part ∈ (group :: groups).map (Nat.toDigits 16), ':' ∉ part :=
      fun part inside found => forall_mem_map_toDigits (p := (· ≠ ':')) (by decide) (Nat.le_refl 16)
        (by decide) _ part inside _ found rfl
    rw [colonParts, if_neg (by rw [printed]; exact nofun), Text.splitAll_eq_splitOn]
    exact List.splitOn_intercalate ':' plain (by simp)

theorem ipv6Groups_toDigits (small : ∀ group ∈ groups, group < 0x10000) :
    ipv6Groups (groups.map (Nat.toDigits 16)) = some groups := by
  induction groups with
  | nil => rfl
  | cons group groups ih =>
    obtain ⟨short, small⟩ := List.forall_mem_cons.mp small
    have shape : ¬ ((Nat.toDigits 16 group).isEmpty ∨ 4 < (Nat.toDigits 16 group).length) := by
      rintro (empty | long)
      · exact Nat.toDigits_ne_nil (List.isEmpty_iff.mp empty)
      · have bound := (Nat.length_toDigits_le_iff (by decide) (by decide)).mpr
          (show group < 16 ^ 4 from short)
        omega
    have read := numeral_toDigits (show 1 < 16 by decide) (by decide) group
    cases groups with
    | nil =>
      have point : ¬ (Nat.toDigits 16 group).contains '.' = true := by
        rw [List.contains_iff_mem]
        exact fun found => forall_mem_toDigits (p := (· ≠ '.')) (show 1 < 16 by decide) (by decide)
          (by decide) group _ found rfl
      rw [List.map_singleton, ipv6Groups, if_neg point, if_neg shape, read]
      rfl
    | cons next groups =>
      rw [List.map_cons, ipv6Groups, if_neg shape, read, ih small]
      · rfl
      · exact nofun

theorem longestZeros_spec {position start length : Nat}
    (found : longestZeros position groups = (start, length)) (several : length ≠ 0) :
    ∃ before after, groups = before ++ List.replicate length 0 ++ after ∧
      start = position + before.length := by
  induction groups generalizing position start length with
  | nil => cases found; exact absurd rfl several
  | cons group groups ih =>
    rw [longestZeros] at found
    dsimp only at found
    split_ifs at found with longer
    · obtain ⟨rfl, rfl⟩ := Prod.mk.inj found
      refine ⟨[], (group :: groups).dropWhile (· == 0), ?_, by simp⟩
      have zeros : (group :: groups).takeWhile (· == 0) =
          List.replicate ((group :: groups).takeWhile (· == 0)).length 0 :=
        List.eq_replicate_of_mem fun n inside => by simpa using List.mem_takeWhile_imp inside
      rw [List.nil_append, ← zeros, List.takeWhile_append_dropWhile]
    · obtain ⟨before, after, rfl, rfl⟩ := ih found several
      exact ⟨group :: before, after, rfl, by simp; omega⟩

/-- A run of zeros is left out, or everything is written. Reading does not depend on which
run it was. -/
theorem printIpv6_cases (groups : List Nat) :
    (∃ before count after, groups = before ++ List.replicate count 0 ++ after ∧ 2 ≤ count ∧
      printIpv6 groups = printGroups before ++ ':' :: ':' :: printGroups after) ∨
      printIpv6 groups = printGroups groups := by
  rw [printIpv6]
  cases zeros : longestZeros 0 groups with
  | mk start count =>
    dsimp only
    split_ifs with several
    · obtain ⟨before, after, rfl, rfl⟩ := longestZeros_spec zeros (by omega)
      refine Or.inl ⟨before, count, after, rfl, several, ?_⟩
      simp
    · exact Or.inr rfl

theorem forall_mem_printGroups {p : Char → Prop} (separator : p ':')
    (each : ∀ d < 16, p d.digitChar) (groups : List Nat) : ∀ c ∈ printGroups groups, p c :=
  forall_mem_intercalate separator
    (forall_mem_map_toDigits (by decide) (Nat.le_refl 16) each groups)

theorem readIpv6_printIpv6 (eight : groups.length = 8)
    (small : ∀ group ∈ groups, group < 0x10000) :
    readIpv6 (printIpv6 groups) = .ok (.ipv6 groups) := by
  rcases printIpv6_cases groups with ⟨before, count, after, rfl, several, printed⟩ | printed
  · have split : splitCompressed (printIpv6 (before ++ List.replicate count 0 ++ after)) =
        some (printGroups before, printGroups after) := by
      rw [printed, splitCompressed_printGroups]
      simp [splitCompressed]
    have point : ¬ (printGroups before).contains '.' = true := by
      rw [List.contains_iff_mem]
      exact fun found =>
        forall_mem_printGroups (p := (· ≠ '.')) (by decide) (by decide) _ _ found rfl
    have left : ipv6Groups (colonParts (printGroups before)) = some before := by
      rw [colonParts_printGroups, ipv6Groups_toDigits]
      exact fun group inside => small group (by simp [inside])
    have right : ipv6Groups (colonParts (printGroups after)) = some after := by
      rw [colonParts_printGroups, ipv6Groups_toDigits]
      exact fun group inside => small group (by simp [inside])
    simp only [List.length_append, List.length_replicate] at eight
    have missing : 8 - before.length - after.length = count := by omega
    have room : before.length + after.length ≤ 7 := by omega
    rw [readIpv6, split]
    dsimp only
    rw [if_neg point, left, right]
    simp [room, missing]
  · have split : splitCompressed (printIpv6 groups) = none := by
      rw [printed, ← List.append_nil (printGroups groups), splitCompressed_printGroups]
      rfl
    rw [readIpv6, split, printed, colonParts_printGroups, ipv6Groups_toDigits small]
    simp [Option.filter, eight]

theorem ipv4Groups_lt (found : ipv4Groups cs = some groups) :
    ∀ group ∈ groups, group < 0x10000 := by
  rw [ipv4Groups] at found
  obtain ⟨numbers, known, found⟩ := Option.bind_eq_some_iff.mp found
  have values := mapM_eq_some_iff.mp known
  have small : ∀ n ∈ numbers, n < 256 := by
    intro n inside
    have found : some n ∈ (Text.splitAll '.' cs).map _ := values ▸ List.mem_map_of_mem inside
    obtain ⟨part, -, known⟩ := List.mem_map.mp found
    split at known
    · cases known
    · cases known
      decide
    · cases known
    · simpa using (Option.filter_eq_some_iff.mp known).2
  split at found
  · cases found
    simp only [List.forall_mem_cons] at small ⊢
    obtain ⟨a, b, c, d, none⟩ := small
    exact ⟨by omega, by omega, nofun⟩
  · cases found

theorem ipv6Groups_lt {parts : List (List Char)} (found : ipv6Groups parts = some groups) :
    ∀ group ∈ groups, group < 0x10000 := by
  have short : ∀ {part group}, numeral 16 part = some group →
      ¬ (part.isEmpty ∨ 4 < part.length) → group < 0x10000 := by
    intro part group known shape
    calc group
      _ < 16 ^ part.length := numeral_lt known
      _ ≤ 16 ^ 4 := Nat.pow_le_pow_right (by decide) (by omega)
  induction parts generalizing groups with
  | nil =>
    cases found
    exact nofun
  | cons part parts ih =>
    cases parts with
    | nil =>
      rw [ipv6Groups] at found
      split_ifs at found with point shape
      · exact ipv4Groups_lt found
      · obtain ⟨group, known, rfl⟩ := Option.map_eq_some_iff.mp found
        exact List.forall_mem_singleton.mpr (short known shape)
    | cons next parts =>
      rw [ipv6Groups] at found
      · split_ifs at found with shape
        obtain ⟨group, known, found⟩ := Option.bind_eq_some_iff.mp found
        obtain ⟨others, further, found⟩ := Option.bind_eq_some_iff.mp found
        cases found
        exact List.forall_mem_cons.mpr ⟨short known shape, ih further⟩
      · exact nofun

theorem readIpv6_eq_ok {host : Host} (read : readIpv6 cs = .ok host) :
    ∃ groups, groups.length = 8 ∧ (∀ group ∈ groups, group < 0x10000) ∧ host = .ipv6 groups := by
  rw [readIpv6] at read
  split at read
  · rename_i groups found
    obtain rfl := Except.ok.inj read
    split at found
    · obtain ⟨known, eight⟩ := Option.filter_eq_some_iff.mp found
      exact ⟨groups, by simpa using eight, ipv6Groups_lt known, rfl⟩
    · rename_i before after _
      split_ifs at found with point
      · cases found
      · obtain ⟨left, first, found⟩ := Option.bind_eq_some_iff.mp found
        obtain ⟨right, second, found⟩ := Option.bind_eq_some_iff.mp found
        obtain ⟨room, same⟩ := Option.ite_none_right_eq_some.mp found
        obtain rfl := Option.some.inj same
        refine ⟨_, ?_, ?_, rfl⟩
        · simp only [List.length_append, List.length_replicate]
          omega
        · have zeros : ∀ group ∈ List.replicate (8 - left.length - right.length) 0,
              group < 0x10000 := by
            intro group inside
            rw [List.eq_of_mem_replicate inside]
            decide
          exact List.forall_mem_append.mpr ⟨List.forall_mem_append.mpr
            ⟨ipv6Groups_lt first, zeros⟩, ipv6Groups_lt second⟩
  · cases read

end Version6

section Reading

variable {cs : List Char} {host : Host}

/-- A text that a domain can be, in lower case. Reading it once more changes nothing of it. -/
structure Settled (cs : List Char) : Prop where
  nonempty : cs ≠ []
  allowed : ∀ c ∈ cs, isForbidden c = false
  lower : cs.map Char.toLower = cs

theorem Settled.ascii (settled : Settled cs) : ∀ c ∈ cs, c.toNat < 0x80 := by
  intro c inside
  have allowed := settled.allowed c inside
  simp only [isForbidden, Bool.or_eq_false_iff, decide_eq_false_iff_not] at allowed
  omega

theorem Settled.absent (settled : Settled cs) {c : Char} (forbidden : isForbidden c = true) :
    c ∉ cs := fun inside => absurd forbidden (ne_true_of_eq_false (settled.allowed c inside))

theorem settled_printIpv4 (address : Nat) : Settled (printIpv4 address) := by
  have each : ∀ {p : Char → Prop}, p '.' → (∀ d < 16, p d.digitChar) →
      ∀ c ∈ printIpv4 address, p c := fun point digit =>
    forall_mem_intercalate point (forall_mem_map_toDigits (by decide) (by decide) digit _)
  refine ⟨?_, each rfl (by decide), ?_⟩
  · rw [printIpv4, List.map_cons, List.map_cons, List.intercalate_cons_cons]
    simp
  · have same : ∀ c ∈ printIpv4 address, c.toLower = id c := each rfl (by decide)
    rw [List.map_congr_left same, List.map_id]

/-- A settled text has no escapes to resolve. -/
theorem readSpecial_eq (settled : Settled cs) :
    readSpecial cs = if endsInNumber cs then readIpv4 cs else .ok (.domain (String.ofList cs)) := by
  have plain : 0x25 ∉ Text.encodeChars cs :=
    Percent.percent_not_mem_encodeChars settled.ascii (settled.absent rfl)
  have allowed : ¬ cs.any isForbidden = true := by
    rw [List.any_eq_true]
    rintro ⟨c, inside, forbidden⟩
    exact settled.absent forbidden inside
  have filled : ¬ cs.isEmpty = true := fun empty => settled.nonempty (List.isEmpty_iff.mp empty)
  unfold readSpecial
  split
  · exact absurd rfl settled.nonempty
  · exact absurd List.mem_cons_self (settled.absent rfl)
  · rw [readDomain, Percent.decode_eq_self plain, Text.decodeChars?_encodeChars]
    dsimp only
    rw [settled.lower, if_neg allowed, if_neg filled]

/-- A host as it comes out of reading one. Numbers are within their bounds, and a domain is
none that would be read as a number. -/
inductive Sound : Host → Prop
  | domain {name : List Char} (settled : Settled name) (named : endsInNumber name = false) :
    Sound (.domain (String.ofList name))
  | ipv4 {address : Nat} (small : address < 0x100000000) : Sound (.ipv4 address)
  | ipv6 {groups : List Nat} (eight : groups.length = 8)
    (small : ∀ group ∈ groups, group < 0x10000) : Sound (.ipv6 groups)

/-- A host is read from what is written of it. The three kinds of host cannot be taken for
each other: one is in brackets, one ends in a number, and a domain does neither. -/
theorem readSpecial_print (sound : Sound host) : readSpecial host.print = .ok host := by
  cases sound with
  | domain settled named =>
    rw [print, String.toList_ofList, readSpecial_eq settled, if_neg (ne_true_of_eq_false named)]
  | @ipv4 address small =>
    rw [print, readSpecial_eq (settled_printIpv4 address), if_pos (endsInNumber_printIpv4 address),
      readIpv4_printIpv4 small]
  | ipv6 eight small =>
    rw [print, List.cons_append, readSpecial, readBracketed, if_pos List.getLast?_concat,
      List.dropLast_concat, readIpv6_printIpv6 eight small]

/-- A domain that is read is settled. Its letters have been put in lower case, and what is
not allowed was looked for behind that. -/
theorem sound_of_readDomain (read : readDomain cs = .ok host) : Sound host := by
  rw [readDomain] at read
  split at read
  · cases read
  · rename_i decoded _
    dsimp only at read
    split_ifs at read with forbidden empty numbered
    · obtain ⟨address, small, rfl⟩ := readIpv4_eq_ok read
      exact .ipv4 small
    · cases read
      refine .domain ⟨fun none => empty (List.isEmpty_iff.mpr none), fun c inside => ?_, ?_⟩
        (eq_false_of_ne_true numbered)
      · exact eq_false_of_ne_true fun marked => forbidden (List.any_eq_true.mpr ⟨c, inside, marked⟩)
      · rw [List.map_map]
        exact List.map_congr_left fun c _ => Text.toLower_toLower c

theorem sound_of_readSpecial (read : readSpecial cs = .ok host) : Sound host := by
  unfold readSpecial at read
  split at read
  · cases read
  · rw [readBracketed] at read
    split_ifs at read with closed
    · obtain ⟨groups, eight, small, rfl⟩ := readIpv6_eq_ok read
      exact .ipv6 eight small
  · exact sound_of_readDomain read

/-- What is written of a host, in brackets or not. -/
theorem Sound.written (sound : Sound host) :
    Settled host.print ∨ ∃ inner, host.print = '[' :: inner ++ [']'] ∧
      ∀ c ∈ inner, c = ':' ∨ ∃ d < 16, c = Nat.digitChar d := by
  cases sound with
  | domain settled named => exact Or.inl (by rwa [print, String.toList_ofList])
  | ipv4 small => exact Or.inl (settled_printIpv4 _)
  | @ipv6 groups eight small =>
    refine Or.inr ⟨printIpv6 groups, rfl, ?_⟩
    have each : ∀ groups, ∀ c ∈ printGroups groups, c = ':' ∨ ∃ d < 16, c = Nat.digitChar d :=
      forall_mem_printGroups (Or.inl rfl) fun d small => Or.inr ⟨d, small, rfl⟩
    rcases printIpv6_cases groups with ⟨before, _, after, -, -, printed⟩ | printed
    · rw [printed]
      intro c inside
      simp only [List.mem_append, List.mem_cons] at inside
      rcases inside with inside | same | same | inside
      · exact each before c inside
      · exact Or.inl same
      · exact Or.inl same
      · exact each after c inside
    · rw [printed]
      exact each groups

theorem print_ne_nil (sound : Sound host) : host.print ≠ [] := by
  rcases sound.written with settled | ⟨inner, written, -⟩
  · exact settled.nonempty
  · rw [written]
    exact nofun

/-- A character that ends an authority, or is left out of it. -/
def endsAuthority (c : Char) : Bool := c.toNat ≤ 0x20 || ['#', '/', '?', '\\'].contains c

theorem endsAuthority_eq_false_iff {c : Char} : endsAuthority c = false ↔
    0x20 < c.toNat ∧ c ≠ '#' ∧ c ≠ '/' ∧ c ≠ '?' ∧ c ≠ '\\' := by
  simp [endsAuthority]

/-- A host stays within its authority, and apart from what is in front of it. No character
of it ends an authority or is the mark of a user. -/
theorem within_print (sound : Sound host) :
    ∀ c ∈ host.print, endsAuthority c = false ∧ c ≠ '@' := by
  have digits : ∀ d < 16, endsAuthority d.digitChar = false ∧ d.digitChar ≠ '@' := by decide
  rcases sound.written with settled | ⟨inner, written, each⟩
  · intro c inside
    have allowed := settled.allowed c inside
    simp only [isForbidden, List.contains_cons, List.contains_nil, Bool.or_eq_false_iff,
      beq_eq_false_iff_ne, decide_eq_false_iff_not, Nat.not_le] at allowed
    rw [endsAuthority_eq_false_iff]
    simp [allowed]
  · rw [written]
    intro c inside
    simp only [List.mem_append, List.mem_cons, List.not_mem_nil, or_false] at inside
    rcases inside with (rfl | inside) | rfl
    · decide
    · rcases each c inside with rfl | ⟨d, small, rfl⟩
      · decide
      · exact digits d small
    · decide

theorem splitHost_outside {front : List Char} (plain : ∀ c ∈ front, c ≠ ':' ∧ c ≠ '[')
    (rest : List Char) :
    splitHost false (front ++ rest) =
      (front ++ (splitHost false rest).1, (splitHost false rest).2) := by
  induction front with
  | nil => rfl
  | cons c front ih =>
    obtain ⟨⟨colon, bracket⟩, plain⟩ := List.forall_mem_cons.mp plain
    rw [List.cons_append, splitHost, if_neg fun both => colon both.1, if_neg bracket, ite_self]
    dsimp only
    rw [ih plain]
    rfl

theorem splitHost_inside {inner : List Char} (plain : ']' ∉ inner) (rest : List Char) :
    splitHost true (inner ++ ']' :: rest) =
      (inner ++ ']' :: (splitHost false rest).1, (splitHost false rest).2) := by
  induction inner with
  | nil => rfl
  | cons c inner ih =>
    obtain ⟨other, plain⟩ := List.ne_and_not_mem_of_not_mem_cons plain
    rw [List.cons_append, splitHost, if_neg nofun, if_neg (Ne.symm other), ite_self]
    dsimp only
    rw [ih plain]
    rfl

/-- A host ends at the colon of the port. -/
theorem splitHost_print (sound : Sound host) {port : List Char}
    (behind : port = [] ∨ ∃ digits, port = ':' :: digits) :
    splitHost false (host.print ++ port) = (host.print, port) := by
  have ended : splitHost false port = ([], port) := by
    rcases behind with rfl | ⟨digits, rfl⟩
    · rfl
    · rw [splitHost, if_pos ⟨rfl, rfl⟩]
  rcases sound.written with settled | ⟨inner, written, each⟩
  · have plain : ∀ c ∈ host.print, c ≠ ':' ∧ c ≠ '[' := by
      intro c inside
      exact ⟨fun same => settled.absent rfl (same ▸ inside),
        fun same => settled.absent rfl (same ▸ inside)⟩
    rw [splitHost_outside plain, ended, List.append_nil]
  · have plain : ']' ∉ inner := by
      intro inside
      have digits : ∀ d < 16, ']' ≠ Nat.digitChar d := by decide
      rcases each _ inside with same | ⟨d, small, same⟩
      · exact absurd same (by decide)
      · exact digits d small same
    have opened : splitHost false ('[' :: (inner ++ ']' :: port)) =
        ('[' :: (splitHost true (inner ++ ']' :: port)).1,
          (splitHost true (inner ++ ']' :: port)).2) := rfl
    rw [written, List.append_assoc, List.cons_append, List.singleton_append, opened,
      splitHost_inside plain, ended, List.cons_append]

end Reading

end PlatformClient.Url.Host
