import PlatformClient.Proofs.BodyContracts
import PlatformClient.Proofs.SharedCredential

namespace PlatformClient

namespace CallerHeaders

variable {headers merged visited : CallerHeaders} {name value text : String}
  {entry : String × String}

theorem mem_set : entry ∈ headers.set name value ↔
    entry = (name, value) ∨ entry ∈ headers ∧ entry.1 ≠ name := by
  have found (list : CallerHeaders) : entry ∈ list ↔ list.any (· == entry) = true := by
    rw [List.any_beq', List.elem_iff]
  rw [found, any_set, Bool.or_eq_true, beq_iff_eq, eq_comm, List.any_eq_true]
  refine or_congr_right ⟨?_, fun ⟨member, apart⟩ => ⟨entry, member, by simp [apart]⟩⟩
  rintro ⟨header, member, same⟩
  obtain ⟨apart, same⟩ := Bool.and_eq_true_iff.mp same
  obtain rfl := beq_iff_eq.mp same
  exact ⟨member, bne_iff_ne.mp apart⟩

/-- The entries that ask for another value than this under a name that they spell in another
way. -/
def rivals (headers : CallerHeaders) (text value : String) : CallerHeaders :=
  headers.filter fun header => header.1 != text && sameName header.1 text &&
    (!header.2.isEmpty && header.2 != value)

theorem mem_rivals : entry ∈ headers.rivals text value ↔ entry ∈ headers ∧ entry.1 ≠ text ∧
    sameName entry.1 text = true ∧ entry.2.isEmpty = false ∧ entry.2 ≠ value := by
  simp [rivals, and_assoc]

/-- Entries under a name are those that are given, but for one of exactly that name. Only
entries under this name are spoken of, since setting a file name changes those under
another. -/
def Merges (headers merged : CallerHeaders) (text value : String) : Prop :=
  ∀ entry : String × String, sameName entry.1 text = true →
    (entry ∈ merged ↔ entry = (text, value) ∨ entry ∈ headers ∧ entry.1 ≠ text)

/-- A name of its own leaves the entries under another name as they are. -/
theorem Merges.of_set (headers : CallerHeaders) (text value : String) :
    headers.Merges (headers.set text value) text value := fun _ _ => mem_set

theorem Merges.of_set_set {other : String} (apart : sameName other text = false)
    (headers : CallerHeaders) (fileName value : String) :
    headers.Merges ((headers.set other fileName).set text value) text value := by
  intro entry same
  have ne : entry.1 ≠ other := by
    rintro rfl
    rw [apart] at same
    cases same
  have kept : entry ∈ headers.set other fileName ↔ entry ∈ headers := by
    rw [mem_set]
    refine ⟨?_, fun member => Or.inr ⟨member, ne⟩⟩
    rintro (rfl | ⟨member, -⟩)
    · exact absurd rfl ne
    · exact member
  rw [mem_set, kept]

/-- Where nothing else is asked for under the name, what is set there is found in every
order. Entries without a value are no rivals, since nothing is asked for by them, and
neither are those with the same value. -/
theorem Merges.lastValue?_of_alone (merges : headers.Merges merged text value) (filled : value ≠ "")
    (alone : headers.rivals text value = []) (perm : visited.Perm merged) :
    visited.lastValue? text = some value := by
  have self : sameName text text = true := sameName_iff.mpr rfl
  have member : (text, value) ∈ visited :=
    perm.mem_iff.mpr ((merges (text, value) self).mpr (Or.inl rfl))
  have asks : visited.asksFor text = true :=
    List.any_eq_true.mpr ⟨(text, value), member, by simp [self, filled]⟩
  rw [← lastValue?_isSome] at asks
  obtain ⟨last, found⟩ := Option.isSome_iff_exists.mp asks
  obtain ⟨before, other, after, split, same, given, -⟩ := lastValue?_eq_some.mp found
  have entry : (other, last) ∈ merged := perm.mem_iff.mp (by simp [split])
  rcases (merges (other, last) same).mp entry with equal | ⟨asked, apart⟩
  · cases equal
    exact found
  · by_contra differs
    have rival : (other, last) ∈ headers.rivals text value := by
      refine mem_rivals.mpr ⟨asked, apart, same, given, ?_⟩
      rintro rfl
      exact differs found
    rw [alone] at rival
    cases rival

/-- What else is asked for under the name is found in some order: the one in which it comes
last. -/
theorem Merges.exists_order (merges : headers.Merges merged text value) {rival : String × String}
    (member : rival ∈ headers.rivals text value) :
    ∃ visited : CallerHeaders, visited.Perm merged ∧ visited.lastValue? text = some rival.2 := by
  obtain ⟨asked, apart, same, filled, -⟩ := mem_rivals.mp member
  have entry : rival ∈ merged := (merges rival same).mpr (Or.inr ⟨asked, apart⟩)
  refine ⟨merged.erase rival ++ [rival], ?_, ?_⟩
  · exact List.perm_append_comm.trans (List.perm_cons_erase entry).symm
  · exact lastValue?_eq_some.mpr ⟨_, rival.1, [], rfl, same, filled, rfl⟩

end CallerHeaders

/-- A request that the call of a plan sends, for some client and in some world, where its
headers are visited in this order. Nothing else about the plan depends on the order. -/
def Plan.Sends (plan : Plan) (visited : CallerHeaders) (request : Http.Request) : Prop :=
  ∃ (client : Client) (world : World) (reply : Http.Reply), (request, reply) ∈ exchanges
    (proceedings (world.steps (Call.execute client plan.call
      { plan.options with headers := visited })))

/-- Of what is asked for under one name, what comes last is sent, in each of the requests of
a call. The agent is left out because a client states it for itself. -/
theorem Plan.Sends.values {plan : Plan} {visited : CallerHeaders} {request : Http.Request}
    {name : Http.HeaderName} {text value : String} (sends : plan.Sends visited request)
    (other : name ≠ .userAgent) (proper : Http.HeaderName.ofString? text = some name)
    (last : visited.lastValue? text = some value) :
    request.headers.values name = [Text.encode value] := by
  obtain ⟨client, world, reply, sent⟩ := sends
  obtain ⟨profile, built, made, rfl⟩ := Call.built_of_execute sent
  obtain ⟨context, -, made⟩ := Profile.requestOf_eq_ok_iff.mp made
  exact Http.Request.values_sentBy other (CallContext.request_values_of_last made proper last) _

namespace Command

/-- The header for which a command has an option of its own, and what is given with that
option. The type of what is sent needs something to send; without it the option comes to
nothing. -/
def ownHeader? : Command → Option (Http.HeaderName × String)
  | .get _ accept _ => accept.map fun type => (.accept, type)
  | command => command.sending?.bind fun (body, _) =>
    if body.Bodiless then none else body.contentType.map fun type => (.contentType, type)

variable {quiet : Bool} {now : Nat} {files : Files} {command : Command} {plan : Plan}
  {name : Http.HeaderName} {type : String}

theorem ownHeader?_cases (own : command.ownHeader? = some (name, type)) :
    (name = .accept ∧ ∃ path call, command = .get path (some type) call) ∨
      name = .contentType ∧ ∃ body call, command.sending? = some (body, call) ∧
        ¬ body.Bodiless ∧ body.contentType = some type := by
  have sending {body : BodyFlags} {call : CallFlags} (sends : command.sending? = some (body, call))
      (given : (if body.Bodiless then none
        else body.contentType.map fun type => (Http.HeaderName.contentType, type)) =
          some (name, type)) :
      name = .contentType ∧ ∃ body call, command.sending? = some (body, call) ∧
        ¬ body.Bodiless ∧ body.contentType = some type := by
    split_ifs at given with bodiless
    obtain ⟨found, typed, same⟩ := Option.map_eq_some_iff.mp given
    cases same
    exact ⟨rfl, body, call, sends, bodiless, typed⟩
  cases command with
  | get path accept call =>
    obtain ⟨found, rfl, same⟩ := Option.map_eq_some_iff.mp own
    cases same
    exact Or.inl ⟨rfl, path, call, rfl⟩
  | post path body call => exact Or.inr (sending rfl own)
  | put path body call => exact Or.inr (sending rfl own)
  | patch path body call => exact Or.inr (sending rfl own)
  | request method path body call => exact Or.inr (sending rfl own)
  | delete path call => cases own
  | login => cases own

theorem callFlags?_of_sending {body : BodyFlags} {call : CallFlags}
    (sends : command.sending? = some (body, call)) : command.callFlags? = some call := by
  cases command <;> cases sends <;> rfl

theorem merges_of_callOptions {call : CallFlags} {options : CallOptions} {text : String}
    (made : callOptions call quiet now = .ok options)
    (apart : CallerHeaders.sameName fileNameHeader text = false) (value : String) :
    ∃ headers, readHeaders call.headers = .ok headers ∧
      headers.Merges (options.headers.set text value) text value := by
  obtain ⟨headers, read, given⟩ := headers_of_callOptions made
  refine ⟨headers, read, ?_⟩
  rw [given]
  cases call.output with
  | none => exact .of_set headers text value
  | some fileName => exact .of_set_set apart headers fileName value

/-- The headers of a call are those that are given, with what the option of its own says in
place of the one that is spelled like it. An output file is set before, under another name
than these two. -/
theorem merges_of_plan? (own : command.ownHeader? = some (name, type))
    (planned : command.plan? quiet now files = .ok (some plan)) :
    ∃ call headers, command.callFlags? = some call ∧ readHeaders call.headers = .ok headers ∧
      headers.Merges plan.options.headers name.text type := by
  have apart : CallerHeaders.sameName fileNameHeader Http.HeaderName.accept.text = false ∧
      CallerHeaders.sameName fileNameHeader Http.HeaderName.contentType.text = false := by decide
  rcases ownHeader?_cases own with
    ⟨rfl, path, call, rfl⟩ | ⟨rfl, body, call, sends, filled, typed⟩
  · obtain ⟨options, made, same⟩ := bind_eq_ok_iff.mp planned
    cases same
    obtain ⟨headers, read, merges⟩ := merges_of_callOptions made apart.1 type
    exact ⟨call, headers, rfl, read, merges⟩
  · obtain ⟨method, path, planned⟩ := planWithBody_of_plan? sends planned
    obtain ⟨options, made, planned⟩ := bind_eq_ok_iff.mp planned
    obtain ⟨content, found, same⟩ := bind_eq_ok_iff.mp planned
    cases same
    obtain ⟨headers, read, merges⟩ := merges_of_callOptions made apart.2 type
    refine ⟨call, headers, callFlags?_of_sending sends, read, ?_⟩
    rcases contentIn_cases (mapError_eq_ok_iff.mp found) with
      ⟨bodiless, -⟩ | ⟨-, _, rfl, ⟨untyped, -⟩ | ⟨given, bytes, known, rfl⟩⟩
    · exact absurd bodiless filled
    · cases untyped.symm.trans typed
    · rw [typed]
      exact merges

/-- The header of an option of its own is sent with what the option says, in whatever order
the headers are visited, unless another spelling of the name is given with another value:
each of these is what is sent in some order. The order is not known, because the headers are
kept in a map without one, so it stands for any permutation here. -/
theorem own_header (own : command.ownHeader? = some (name, type)) (filled : type ≠ "")
    (planned : command.plan? quiet now files = .ok (some plan)) :
    ∃ call headers, command.callFlags? = some call ∧ readHeaders call.headers = .ok headers ∧
      (∀ (client : Client) (world : World), world.files = files →
        ∀ exchange ∈ exchanges (proceedings (world.steps (command.run client quiet now))),
          plan.Sends plan.options.headers exchange.1) ∧
      (headers.rivals name.text type = [] →
        ∀ visited : CallerHeaders, visited.Perm plan.options.headers →
          ∀ request, plan.Sends visited request →
            request.headers.values name = [Text.encode type]) ∧
      ∀ rival ∈ headers.rivals name.text type,
        ∃ visited : CallerHeaders, visited.Perm plan.options.headers ∧
          ∀ request, plan.Sends visited request →
            request.headers.values name = [Text.encode rival.2] := by
  have proper : Http.HeaderName.ofString? name.text = some name ∧ name ≠ .userAgent := by
    rcases ownHeader?_cases own with ⟨rfl, -⟩ | ⟨rfl, -⟩ <;> decide
  obtain ⟨call, headers, given, read, merges⟩ := merges_of_plan? own planned
  refine ⟨call, headers, given, read, ?_, fun alone visited perm request sends => ?_,
    fun rival member => ?_⟩
  · rintro client world rfl ⟨request, reply⟩ sent
    rw [exchanges_of_planned planned] at sent
    exact ⟨client, world, reply, sent⟩
  · exact sends.values proper.2 proper.1 (merges.lastValue?_of_alone filled alone perm)
  · obtain ⟨visited, perm, last⟩ := merges.exists_order member
    exact ⟨visited, perm, fun request sends => sends.values proper.2 proper.1 last⟩

/-- A document in a type of its own, of which nothing but the option says another. -/
def puttingNotes : Command :=
  .put "/notes" { data := some "milk", contentType := some "text/plain" }
    { headers := ["content-type=text/csv", "CONTENT-TYPE=text/plain", "Content-Type="] }

theorem own_header_uncontested :
    ∃ plan, puttingNotes.plan? false 0 acceptingWorld.files = .ok (some plan) ∧
      (exchanges (proceedings (acceptingWorld.steps (puttingNotes.run .handing false 0)))).length =
        1 ∧
      ∀ visited : CallerHeaders, visited.Perm plan.options.headers →
        ∀ request, plan.Sends visited request →
          request.headers.values .contentType = [Text.encode "text/plain"] := by
  have accepted : (puttingNotes.plan? false 0 acceptingWorld.files).isOk = true := by
    decide +kernel
  obtain ⟨_ | plan, planned⟩ := exists_eq_ok accepted
  · exact absurd planned planWithBody_ne_none
  · obtain ⟨call, headers, given, read, -, sent, -⟩ := own_header rfl (by decide) planned
    refine ⟨plan, planned, by decide +kernel, sent ?_⟩
    cases given
    cases read
    decide +kernel

/-- What is asked for with the option, and then in two more spellings. -/
def gettingRows : Command :=
  .get "/rows" (some "text/csv") { headers := ["accept=text/html", "Accept=application/zip"] }

theorem own_header_contested :
    gettingRows.ownHeader? = some (.accept, "text/csv") ∧
      (exchanges (proceedings (acceptingWorld.steps (gettingRows.run .handing false 0)))).map
          (·.1.headers.values .accept) =
        [[Text.encode "application/zip"]] := by
  decide +kernel

end Command

end PlatformClient
