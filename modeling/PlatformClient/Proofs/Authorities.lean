import PlatformClient.Proofs.Hosts

namespace PlatformClient.Url

open Percent (Escaped userInfoSet)

variable {scheme : String} {authority : Authority} {cs : List Char}

/-- The schemes of the web. -/
def IsWeb (scheme : String) : Prop := scheme = "http" ∨ scheme = "https"

theorem IsWeb.special (web : IsWeb scheme) : isSpecial scheme = true := by
  rcases web with rfl | rfl <;> decide

theorem IsWeb.ne_file (web : IsWeb scheme) : scheme ≠ "file" := by
  rcases web with rfl | rfl <;> decide

/-- An authority as it comes out of reading one. User and password are escaped, an empty
password is none, and a port that goes without saying is left out. -/
structure Authority.Sound (scheme : String) (authority : Authority) : Prop where
  userName : Escaped userInfoSet authority.userName.toList
  password : ∀ password ∈ authority.password, password ≠ "" ∧ Escaped userInfoSet password.toList
  host : authority.host.Sound
  port : ∀ port ∈ authority.port, port < 0x10000 ∧ defaultPort scheme ≠ some port

/-- A name stays within its authority, and apart from the password and the host. -/
theorem within_userInfo (escaped : Escaped userInfoSet cs) :
    ∀ c ∈ cs, Host.endsAuthority c = false ∧ c ≠ '@' ∧ c ≠ ':' := by
  intro c inside
  obtain ⟨outside, -⟩ := escaped c inside
  simp only [userInfoSet, Percent.pathSet, Percent.fragmentSet, Percent.controls,
    Bool.or_eq_false_iff, beq_eq_false_iff_ne, decide_eq_false_iff_not] at outside
  have space : c.toNat ≠ 0x20 := fun same =>
    absurd (Char.toNat_inj.mp (same.trans (show 0x20 = ' '.toNat from rfl))) (by simp [outside])
  have large : 0x20 < c.toNat := by omega
  rw [Host.endsAuthority_eq_false_iff]
  simp [large, outside]

/-- What is written of a user is nothing, or has an `@` behind it. It is the only one, so
that the user is found again in front of it. -/
theorem Authority.Sound.userInfo (sound : authority.Sound scheme) :
    (authority.printUserInfo = [] ∧ authority.userName = "" ∧ authority.password = none) ∨
      ∃ info, authority.printUserInfo = info ++ ['@'] ∧ info ≠ [] ∧
        readUserInfo info = (authority.userName, authority.password) ∧
        ∀ c ∈ info, Host.endsAuthority c = false ∧ c ≠ '@' := by
  have name := within_userInfo sound.userName
  have apart : ':' ∉ authority.userName.toList := fun inside => (name _ inside).2.2 rfl
  cases known : authority.password with
  | none =>
    by_cases empty : authority.userName = ""
    · exact Or.inl ⟨by simp [Authority.printUserInfo, known, empty], empty, rfl⟩
    · have filled : authority.userName.toList ≠ [] := by simpa using empty
      refine Or.inr ⟨authority.userName.toList, ?_, filled, ?_,
        fun c inside => ⟨(name c inside).1, (name c inside).2.1⟩⟩
      · simp [Authority.printUserInfo, known, empty]
      · rw [readUserInfo, Text.splitFirst_eq_none apart]
        dsimp only
        rw [Percent.encode_eq_self sound.userName, String.ofList_toList]
  | some password =>
    obtain ⟨nonempty, escaped⟩ := sound.password password known
    have secret := within_userInfo escaped
    have filled : ¬ password.toList.isEmpty = true := by simpa using nonempty
    refine Or.inr ⟨authority.userName.toList ++ ':' :: password.toList, ?_, by simp, ?_, ?_⟩
    · simp [Authority.printUserInfo, known]
    · rw [readUserInfo, Text.splitFirst_append apart]
      dsimp only
      rw [if_neg filled, Percent.encode_eq_self sound.userName, Percent.encode_eq_self escaped,
        String.ofList_toList, String.ofList_toList]
    · intro c inside
      rcases List.mem_append.mp inside with inside | inside
      · exact ⟨(name c inside).1, (name c inside).2.1⟩
      · rcases List.mem_cons.mp inside with rfl | inside
        · decide
        · exact ⟨(secret c inside).1, (secret c inside).2.1⟩

theorem splitUserInfo_eq_none (absent : '@' ∉ cs) : splitUserInfo cs = none := by
  rw [splitUserInfo, Text.splitFirst_eq_none (mt List.mem_reverse.mp absent), Option.map_none]

theorem splitUserInfo_append {info rest : List Char} (absent : '@' ∉ rest) :
    splitUserInfo (info ++ '@' :: rest) = some (info, rest) := by
  have reversed : (info ++ '@' :: rest).reverse = rest.reverse ++ '@' :: info.reverse := by simp
  rw [splitUserInfo, reversed, Text.splitFirst_append (mt List.mem_reverse.mp absent),
    Option.map_some]
  dsimp only
  rw [List.reverse_reverse, List.reverse_reverse]

/-- The port behind a host, with its colon. -/
def printPort : Option Nat → List Char
  | some port => ':' :: Nat.toDigits 10 port
  | none => []

theorem readPort_toDigits {port : Nat} (small : port < 0x10000)
    (other : defaultPort scheme ≠ some port) :
    readPort scheme (Nat.toDigits 10 port) = .ok (some port) := by
  have read := Host.numeral_toDigits (show 1 < 10 by decide) (by decide) port
  have kept : ¬ ((Nat.toDigits 10 port).isEmpty ∨ defaultPort scheme = some port) := by
    rintro (empty | same)
    · exact Nat.toDigits_ne_nil (List.isEmpty_iff.mp empty)
    · exact other same
  rw [readPort, read]
  dsimp only
  rw [if_neg (Nat.not_le_of_lt small), if_neg kept]

theorem print_eq (authority : Authority) : authority.print =
    authority.printUserInfo ++ (authority.host.print ++ printPort authority.port) := by
  rw [Authority.print, List.append_assoc]
  rfl

theorem within_printPort (port : Option Nat) :
    ∀ c ∈ printPort port, Host.endsAuthority c = false ∧ c ≠ '@' := by
  cases port with
  | none => exact nofun
  | some port =>
    exact List.forall_mem_cons.mpr ⟨by decide,
      Host.forall_mem_toDigits (show 1 < 10 by decide) (by decide) (by decide) port⟩

/-- What is written behind a user. -/
theorem Authority.Sound.within_behind (sound : authority.Sound scheme) :
    ∀ c ∈ authority.host.print ++ printPort authority.port,
      Host.endsAuthority c = false ∧ c ≠ '@' :=
  List.forall_mem_append.mpr ⟨Host.within_print sound.host, within_printPort authority.port⟩

/-- An authority stays within its bounds. -/
theorem Authority.Sound.within (sound : authority.Sound scheme) :
    ∀ c ∈ authority.print, Host.endsAuthority c = false := by
  have behind := fun c inside => (sound.within_behind c inside).1
  rw [print_eq]
  rcases sound.userInfo with ⟨none, -, -⟩ | ⟨info, written, -, -, within⟩
  · rwa [none, List.nil_append]
  · rw [written]
    exact List.forall_mem_append.mpr ⟨List.forall_mem_append.mpr
      ⟨fun c inside => (within c inside).1, List.forall_mem_singleton.mpr rfl⟩, behind⟩

theorem Authority.Sound.print_ne_nil (sound : authority.Sound scheme) : authority.print ≠ [] := by
  rw [print_eq]
  intro none
  exact Host.print_ne_nil sound.host
    (List.append_eq_nil_iff.mp (List.append_eq_nil_iff.mp none).2).1

theorem host_ne_empty {host : Host} (sound : host.Sound) : host ≠ .empty := by
  rintro rfl
  cases sound

/-- An authority is read from a text whose user has been found. -/
theorem readAuthority_of_split (web : IsWeb scheme) (sound : authority.Sound scheme)
    {info : List Char} (filled : (splitUserInfo cs).isSome → info ≠ [])
    (split : (splitUserInfo cs).getD ([], cs) =
      (info, authority.host.print ++ printPort authority.port))
    (user : readUserInfo info = (authority.userName, authority.password)) (more : Bool) :
    readAuthority scheme cs more = .ok authority := by
  have named := host_ne_empty sound.host
  have host : readHost scheme authority.host.print = .ok authority.host := by
    rw [readHost, if_pos web.special, Host.readSpecial_print sound.host]
  have shape : printPort authority.port = [] ∨
      ∃ digits, printPort authority.port = ':' :: digits := by
    cases authority.port with
    | none => exact Or.inl rfl
    | some port => exact Or.inr ⟨_, rfl⟩
  rw [readAuthority, split]
  dsimp only
  rw [user, Host.splitHost_print sound.host shape]
  dsimp only
  rw [if_neg fun all => filled all.1 (List.isEmpty_iff.mp all.2.1), host]
  cases known : authority.port with
  | none =>
    simp only [printPort, bind, Except.bind, pure, Except.pure, named, false_and, if_false]
    rw [← known]
  | some port =>
    obtain ⟨small, other⟩ := sound.port port known
    simp only [printPort, bind, Except.bind, pure, Except.pure, named, false_and, if_false,
      readPort_toDigits small other]
    rw [← known]

/-- An authority is read from what is written of it: the user up to the sign behind it, the
host up to the colon of the port, and the port up to the end. -/
theorem readAuthority_print (web : IsWeb scheme) (sound : authority.Sound scheme) (more : Bool) :
    readAuthority scheme authority.print more = .ok authority := by
  have absent : '@' ∉ authority.host.print ++ printPort authority.port :=
    fun inside => (sound.within_behind _ inside).2 rfl
  rcases sound.userInfo with ⟨none, noName, noPassword⟩ | ⟨info, written, filled, user, -⟩
  · have text : authority.print = authority.host.print ++ printPort authority.port := by
      rw [print_eq, none, List.nil_append]
    have split := splitUserInfo_eq_none (text ▸ absent)
    have nobody : readUserInfo [] = (authority.userName, authority.password) := by
      rw [noName, noPassword]
      rfl
    exact readAuthority_of_split web sound (by rw [split]; exact nofun)
      (by rw [split, Option.getD_none, text]) nobody more
  · have split : splitUserInfo authority.print =
        some (info, authority.host.print ++ printPort authority.port) := by
      rw [print_eq, written, List.append_assoc, List.singleton_append, splitUserInfo_append absent]
    exact readAuthority_of_split web sound (fun _ => filled) (by rw [split, Option.getD_some]) user
      more

theorem readUserInfo_escaped (info : List Char) :
    Escaped userInfoSet (readUserInfo info).1.toList ∧
      ∀ password ∈ (readUserInfo info).2, password ≠ "" ∧ Escaped userInfoSet password.toList := by
  have escaped : ∀ cs,
      Escaped userInfoSet (String.ofList (Percent.encode userInfoSet cs)).toList := by
    intro cs
    rw [String.toList_ofList]
    exact Percent.escaped_encode Percent.spares_userInfoSet cs
  rw [readUserInfo]
  split
  · exact ⟨escaped _, nofun⟩
  · rename_i name secret _
    refine ⟨escaped _, fun password inside => ?_⟩
    obtain ⟨filled, same⟩ := Option.ite_none_left_eq_some.mp inside
    obtain rfl := Option.some.inj same
    refine ⟨fun empty => filled ?_, escaped _⟩
    rw [String.ofList_eq_empty_iff, Percent.encode_eq_nil_iff] at empty
    exact List.isEmpty_iff.mpr empty

theorem readPort_eq_ok {digits : List Char} {found : Option Nat}
    (read : readPort scheme digits = .ok found) :
    ∀ port ∈ found, port < 0x10000 ∧ defaultPort scheme ≠ some port := by
  rw [readPort] at read
  split at read
  · cases read
  · rename_i port _
    split_ifs at read with large usual
    · cases read
      exact nofun
    · cases read
      rintro port same
      obtain rfl := Option.some.inj same
      exact ⟨Nat.lt_of_not_le large, fun same => usual (Or.inr same)⟩

/-- What is read as an authority is a sound one, since its parts are escaped, put in lower
case or checked as they are read. -/
theorem sound_of_readAuthority (web : IsWeb scheme) {more : Bool}
    (read : readAuthority scheme cs more = .ok authority) : authority.Sound scheme := by
  rw [readAuthority] at read
  dsimp only at read
  split_ifs at read with refused
  · cases read
  · obtain ⟨host, known, read⟩ := bind_eq_ok_iff.mp read
    rw [readHost, if_pos web.special] at known
    have sound := Host.sound_of_readSpecial known
    have named := host_ne_empty sound
    simp only [named, false_and, if_false] at read
    have user := readUserInfo_escaped ((splitUserInfo cs).getD ([], cs)).1
    split at read
    · cases read
      exact ⟨user.1, user.2, sound, nofun⟩
    · obtain ⟨port, found, read⟩ := bind_eq_ok_iff.mp read
      cases read
      exact ⟨user.1, user.2, sound, readPort_eq_ok found⟩

end PlatformClient.Url
