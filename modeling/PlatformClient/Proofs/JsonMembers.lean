import Mathlib.Data.List.Basic
import PlatformClient.Json.Expect
import PlatformClient.Proofs.Outcomes

namespace PlatformClient.Json

section Members

variable {σ : Type} {take : σ → String → Reader σ} {first : Bool} {state final : σ}
  {rest left : Bytes} {depth : Nat}

/-- The text behind a quote in front of it. -/
def behindQuote : Bytes → Option Bytes
  | [] => none
  | byte :: rest => if byte = 0x22 then some rest else none

/-- The text behind the quote that opens the name of the next member, where there is one. -/
def nextName (first : Bool) (rest : Bytes) : Option Bytes :=
  match skipBlanks rest with
  | [] => none
  | byte :: behind =>
    if first then behindQuote (byte :: behind)
    else if byte = 0x2C then behindQuote (skipBlanks behind)
    else none

theorem members_zero : members take 0 first state rest ≠ .ok (final, left) := nofun

/-- A member is its name, what is taken behind it, and the members after it. -/
theorem bind_member_iff {fuel : Nat} (behind : Bytes) :
    (do
      let (name, rest) ← stringBody behind
      let (state, rest) ← take state name rest
      members take fuel false state rest) = .ok (final, left) ↔
    ∃ name between next after, stringBody behind = .ok (name, between) ∧
      take state name between = .ok (next, after) ∧
      members take fuel false next after = .ok (final, left) := by
  simp only [bind_eq_ok_iff, Prod.exists]
  constructor
  · rintro ⟨name, between, body, next, after, taken, others⟩
    exact ⟨name, between, next, after, body, taken, others⟩
  · rintro ⟨name, between, next, after, body, taken, others⟩
    exact ⟨name, between, body, next, after, taken, others⟩

/-- Members are at their end, or there is one more in front of the others. This is all that
the loop over the members of an object does in one turn. -/
theorem members_succ_iff {fuel : Nat} :
    members take (fuel + 1) first state rest = .ok (final, left) ↔
      (skipBlanks rest = 0x7D :: left ∧ state = final) ∨
        ∃ behind name between next after, nextName first rest = some behind ∧
          stringBody behind = .ok (name, between) ∧ take state name between = .ok (next, after) ∧
          members take fuel false next after = .ok (final, left) := by
  conv_lhs => unfold members
  dsimp only
  split
  · rename_i ahead
    simp [nextName, ahead]
  · rename_i behind ahead
    simp [nextName, behindQuote, ahead, and_comm]
  · rename_i byte behind closing ahead
    have further : skipBlanks rest ≠ 0x7D :: left := by
      intro same
      rw [ahead] at same
      exact closing (List.cons.inj same).1
    simp only [further, false_and, false_or]
    cases first with
    | true =>
      by_cases quote : byte = 0x22
      · subst quote
        simp [nextName, behindQuote, ahead, bind_member_iff]
      · simp [nextName, behindQuote, ahead, quote, failHere]
    | false =>
      by_cases comma : byte = 0x2C
      · subst comma
        simp only [nextName, ahead, Bool.false_eq_true, if_false, if_true]
        split <;> rename_i beyond
        · simp [behindQuote, beyond]
        · simp [behindQuote, beyond, bind_member_iff]
        · simp [behindQuote, beyond, failHere]
        · rename_i byte _ unquoted _
          have unquoted : byte ≠ 0x22 := unquoted
          simp [behindQuote, beyond, failHere, unquoted]
      · simp [nextName, ahead, comma, failHere]

/-- The value of a member behind its name. -/
def memberValue (depth : Nat) : Reader Json := fun rest => do value depth (← colon rest)

/-- Keeps a member behind the earlier ones, whether or not its name is among them. -/
def keepMember (depth : Nat) (earlier : List (String × Json)) (name : String) :
    Reader (List (String × Json)) := fun rest =>
  (memberValue depth rest).map fun (value, rest) => (earlier ++ [(name, value)], rest)

theorem keepMember_eq_ok_iff {earlier list : List (String × Json)} {name : String} :
    keepMember depth earlier name rest = .ok (list, left) ↔
      ∃ value, memberValue depth rest = .ok (value, left) ∧ earlier ++ [(name, value)] = list := by
  simp only [keepMember, map_eq_ok_iff, Prod.exists, Prod.mk.injEq]
  constructor
  · rintro ⟨value, _, read, same, rfl⟩
    exact ⟨value, read, same⟩
  · rintro ⟨value, read, same⟩
    exact ⟨value, left, read, same, rfl⟩

theorem members_keepMember {fuel : Nat} {earlier list : List (String × Json)}
    (read : members (keepMember depth) fuel first earlier rest = .ok (list, left)) :
    ∃ later, list = earlier ++ later := by
  induction fuel generalizing first earlier rest with
  | zero => exact absurd read members_zero
  | succ fuel ih =>
    rcases members_succ_iff.mp read with ⟨-, rfl⟩ | ⟨_, name, _, _, _, -, -, kept, others⟩
    · exact ⟨[], (List.append_nil _).symm⟩
    · obtain ⟨value, -, rfl⟩ := keepMember_eq_ok_iff.mp kept
      obtain ⟨later, rfl⟩ := ih others
      exact ⟨(name, value) :: later, List.append_cons .. |>.symm⟩

/-- What a state takes from a member hangs on its name and its value alone. A reader may
look at the text behind the name in its own way, as long as it takes a whole value from it. -/
def TakesBy (depth : Nat) (take : σ → String → Reader σ) (add : σ → String × Json → Option σ) :
    Prop :=
  ∀ state name rest next left, take state name rest = .ok (next, left) ↔
    ∃ value, memberValue depth rest = .ok (value, left) ∧ add state (name, value) = some next

/-- Members are read first and then taken one after the other. What is made of an object can
so be told apart from how it is written, and different readers of one text agree on its
members. -/
theorem members_iff {add : σ → String × Json → Option σ} (takes : TakesBy depth take add)
    {fuel : Nat} (earlier : List (String × Json)) :
    members take fuel first state rest = .ok (final, left) ↔
      ∃ list, members (keepMember depth) fuel first earlier rest = .ok (earlier ++ list, left) ∧
        list.foldlM add state = some final := by
  induction fuel generalizing first state rest earlier with
  | zero =>
    constructor
    · intro read
      exact absurd read members_zero
    · rintro ⟨list, read, -⟩
      exact absurd read members_zero
  | succ fuel ih =>
    rw [members_succ_iff]
    simp only [members_succ_iff]
    constructor
    · rintro (⟨closed, rfl⟩ | ⟨behind, name, between, next, after, opened, body, taken, others⟩)
      · exact ⟨[], Or.inl ⟨closed, (List.append_nil _).symm⟩, rfl⟩
      · obtain ⟨value, read, added⟩ := (takes ..).mp taken
        obtain ⟨later, kept, folded⟩ := (ih (earlier ++ [(name, value)])).mp others
        refine ⟨(name, value) :: later, Or.inr ⟨behind, name, between, earlier ++ [(name, value)],
          after, opened, body, keepMember_eq_ok_iff.mpr ⟨value, read, rfl⟩, ?_⟩, ?_⟩
        · rw [kept, ← List.append_cons]
        · rw [List.foldlM_cons, added]
          exact folded
    · rintro ⟨list, ⟨closed, none⟩ |
        ⟨behind, name, between, next, after, opened, body, step, others⟩, folded⟩
      · obtain rfl : list = [] := by simpa using none
        exact Or.inl ⟨closed, Option.some.inj folded⟩
      · obtain ⟨value, read, rfl⟩ := keepMember_eq_ok_iff.mp step
        obtain ⟨later, split⟩ := members_keepMember others
        rw [← List.append_cons] at split
        obtain rfl := List.append_cancel_left split
        rw [List.foldlM_cons] at folded
        obtain ⟨next, added, folded⟩ := Option.bind_eq_some_iff.mp folded
        rw [List.append_cons earlier (name, value) later] at others
        exact Or.inr ⟨behind, name, between, next, after, opened, body,
          (takes ..).mpr ⟨value, read, added⟩, (ih _).mpr ⟨later, others, folded⟩⟩

end Members

section Documents

variable {rest left : Bytes} {depth : Nat}

/-- The members of an object, in the order in which they are written. -/
def objectMembers (depth : Nat) : Reader (List (String × Json)) := fun rest =>
  match skipBlanks rest with
  | 0x7B :: rest => members (keepMember depth) (rest.length + 1) true [] rest
  | rest => failHere .expectedValue rest

/-- The members of the object that a text consists of, in the order in which they are
written. Of several members of one name all are there. -/
def readMembers (input : Bytes) : Except Error (List (String × Json)) :=
  readWith (objectMembers (depthLimit - 1)) input

theorem readWith_eq_ok_iff {α : Type} {reader : Reader α} {input : Bytes} {value : α} :
    readWith reader input = .ok value ↔
      ∃ left, reader input = .ok (value, left) ∧ skipBlanks left = [] := by
  unfold readWith
  cases reader input with
  | error failure => simp
  | ok result =>
    obtain ⟨found, left⟩ := result
    dsimp only
    split
    · rename_i done
      simp [done]
    · rename_i more
      simp [more]

theorem objectMembers_eq_ok_iff {list : List (String × Json)} :
    objectMembers depth rest = .ok (list, left) ↔
      ∃ behind, skipBlanks rest = 0x7B :: behind ∧
        members (keepMember depth) (behind.length + 1) true [] behind = .ok (list, left) := by
  unfold objectMembers
  split
  · rename_i behind ahead
    simp [ahead]
  · rename_i other
    constructor
    · exact nofun
    · rintro ⟨behind, ahead, -⟩
      exact absurd ahead (other behind)

theorem letters_eq_ok_iff {α : Type} {word found : α} {cs : List Char} :
    letters word cs rest = .ok (found, left) ↔
      found = word ∧ letters () cs rest = .ok ((), left) := by
  induction cs generalizing rest with
  | nil => simp [letters, eq_comm]
  | cons c cs ih =>
    cases rest with
    | nil => simp [letters]
    | cons byte rest =>
      rw [letters, letters]
      split_ifs
      · exact ih
      · simp [failHere]

/-- What a value is told by its first byte, and read behind it. -/
inductive Reads : Nat → Bytes → Json → Bytes → Prop
  | null {depth rest behind left} (ahead : skipBlanks rest = 0x6E :: behind)
      (word : letters () ['u', 'l', 'l'] behind = .ok ((), left)) : Reads depth rest .null left
  | yes {depth rest behind left} (ahead : skipBlanks rest = 0x74 :: behind)
      (word : letters () ['r', 'u', 'e'] behind = .ok ((), left)) :
      Reads depth rest (.bool true) left
  | no {depth rest behind left} (ahead : skipBlanks rest = 0x66 :: behind)
      (word : letters () ['a', 'l', 's', 'e'] behind = .ok ((), left)) :
      Reads depth rest (.bool false) left
  | string {depth rest behind text left} (ahead : skipBlanks rest = 0x22 :: behind)
      (body : stringBody behind = .ok (text, left)) : Reads depth rest (.string text) left
  | array {depth rest behind list left} (ahead : skipBlanks rest = 0x5B :: behind)
      (body : items (value depth) (behind.length + 1) true behind = .ok (list, left)) :
      Reads (depth + 1) rest (.array list) left
  | object {depth rest list left} (body : objectMembers depth rest = .ok (list, left)) :
      Reads (depth + 1) rest (.object (Fields.ofMembers list)) left
  | number {depth rest byte behind number left} (ahead : skipBlanks rest = byte :: behind)
      (digit : byte = 0x2D ∨ isDigitByte byte)
      (body : signed (byte :: behind) = .ok (number, left)) : Reads depth rest (.number number) left

/-- The fields of an object are those that its members set one after the other. -/
theorem members_setting_iff {fuel : Nat} {fields : Fields} :
    members (fun (fields : Fields) name rest => do
        let (value, rest) ← value depth (← colon rest)
        return (fields.insert name value, rest)) fuel true [] rest = .ok (fields, left) ↔
      ∃ list, members (keepMember depth) fuel true [] rest = .ok (list, left) ∧
        fields = Fields.ofMembers list := by
  have takes : TakesBy depth (fun (fields : Fields) name rest => do
        let (value, rest) ← value depth (← colon rest)
        return (fields.insert name value, rest))
      (fun fields member => some (fields.insert member.1 member.2)) := by
    intro fields name rest next left
    simp only [memberValue, bind_eq_ok_iff, Prod.exists, pure, Except.pure, Except.ok.injEq,
      Prod.mk.injEq, Option.some.injEq]
    constructor
    · rintro ⟨behind, mark, value, left, read, rfl, rfl⟩
      exact ⟨value, ⟨behind, mark, read⟩, rfl⟩
    · rintro ⟨value, ⟨behind, mark, read⟩, rfl⟩
      exact ⟨behind, mark, value, left, read, rfl, rfl⟩
  have folded : ∀ (list : List (String × Json)) (earlier : Fields),
      list.foldlM (fun fields member => some (fields.insert member.1 member.2)) earlier =
        some (list.foldl (fun fields member => fields.insert member.1 member.2) earlier) := by
    intro list earlier
    exact List.foldlM_pure
  rw [members_iff takes []]
  simp only [folded, List.nil_append, Option.some.injEq, Fields.ofMembers, eq_comm]

/-- The first byte behind the blanks decides in which way a value is read, so that no two of them
ever compete. -/
theorem reads_of_value {document : Json} (read : value depth rest = .ok (document, left)) :
    Reads depth rest document left := by
  unfold value at read
  split at read
  · cases read
  · rename_i behind ahead
    obtain ⟨rfl, word⟩ := letters_eq_ok_iff.mp read
    exact .null ahead word
  · rename_i behind ahead
    obtain ⟨rfl, word⟩ := letters_eq_ok_iff.mp read
    exact .yes ahead word
  · rename_i behind ahead
    obtain ⟨rfl, word⟩ := letters_eq_ok_iff.mp read
    exact .no ahead word
  · rename_i behind ahead
    obtain ⟨⟨text, rest⟩, body, same⟩ := map_eq_ok_iff.mp read
    cases same
    exact .string ahead body
  · rename_i behind ahead
    split at read
    · cases read
    · obtain ⟨⟨list, rest⟩, body, same⟩ := map_eq_ok_iff.mp read
      cases same
      exact .array ahead body
  · rename_i behind ahead
    split at read
    · cases read
    · obtain ⟨⟨fields, rest⟩, body, same⟩ := map_eq_ok_iff.mp read
      cases same
      obtain ⟨list, kept, rfl⟩ := members_setting_iff.mp body
      exact .object (objectMembers_eq_ok_iff.mpr ⟨behind, ahead, kept⟩)
  · rename_i byte behind _ _ _ _ _ _ ahead
    split_ifs at read with digit
    · obtain ⟨⟨number, rest⟩, body, same⟩ := map_eq_ok_iff.mp read
      cases same
      exact .number ahead digit body
    · cases read

theorem value_of_reads {document : Json} (reads : Reads depth rest document left) :
    value depth rest = .ok (document, left) := by
  cases reads with
  | null ahead word => simpa [value, ahead] using letters_eq_ok_iff.mpr ⟨rfl, word⟩
  | yes ahead word => simpa [value, ahead] using letters_eq_ok_iff.mpr ⟨rfl, word⟩
  | no ahead word => simpa [value, ahead] using letters_eq_ok_iff.mpr ⟨rfl, word⟩
  | string ahead body => simp [value, ahead, body, Except.map]
  | array ahead body => simp [value, ahead, body, Except.map]
  | object body =>
    obtain ⟨behind, ahead, kept⟩ := objectMembers_eq_ok_iff.mp body
    have set := members_setting_iff.mpr ⟨_, kept, rfl⟩
    unfold value
    simp only [ahead]
    exact map_eq_ok_iff.mpr ⟨_, set, rfl⟩
  | @number _ _ byte behind number _ ahead digit body =>
    have none : ([0x6E, 0x74, 0x66, 0x22, 0x5B, 0x7B] : Bytes).all
        (fun mark => ! decide (mark = 0x2D ∨ isDigitByte mark)) = true := by decide
    have other : ∀ mark ∈ ([0x6E, 0x74, 0x66, 0x22, 0x5B, 0x7B] : Bytes), byte ≠ mark := by
      rintro mark member rfl
      have refused := List.all_eq_true.mp none byte member
      simp [digit] at refused
    simp only [List.forall_mem_cons] at other
    obtain ⟨null, yes, no, string, array, object, -⟩ := other
    unfold value
    simp [ahead, digit, body, Except.map]

/-- A value is read exactly in one of these ways. -/
theorem value_eq_ok_iff {document : Json} :
    value depth rest = .ok (document, left) ↔ Reads depth rest document left :=
  ⟨reads_of_value, value_of_reads⟩

end Documents

end PlatformClient.Json
