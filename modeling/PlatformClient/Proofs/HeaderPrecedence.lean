import PlatformClient.Proofs.HeaderLines
import PlatformClient.Proofs.PreparedRequests

namespace PlatformClient

open Http

namespace CallerHeaders

variable {headers visited : CallerHeaders} {header : String × String} {text other : String}
  {name : HeaderName}

/-- The entries that ask for something. -/
def asked (headers : CallerHeaders) : CallerHeaders :=
  headers.filter fun header => !header.2.isEmpty

/-- No name is asked for twice, in whatever case it is written. -/
def Distinct (headers : CallerHeaders) : Prop :=
  headers.asked.Pairwise fun header other => sameName header.1 other.1 = false

instance (headers : CallerHeaders) : Decidable headers.Distinct :=
  inferInstanceAs (Decidable (List.Pairwise _ _))

/-- An entry that asks for something and is no header. -/
def isInvalid (header : String × String) : Bool :=
  !header.2.isEmpty &&
    ((HeaderName.ofString? header.1).isNone || (headerValue? header.2).isNone)

/-- What is asked for under a name, in whatever case it is written. -/
def value? (headers : CallerHeaders) (text : String) : Option Bytes :=
  (headers.asked.find? fun header => sameName header.1 text).map fun header => Text.encode header.2

/-- The line that an entry sets. -/
def line? (header : String × String) : Option (HeaderName × Bytes) :=
  if header.2.isEmpty then none
  else match HeaderName.ofString? header.1, headerValue? header.2 with
    | some name, some value => some (name, value)
    | _, _ => none

/-- Why an entry cannot be set. -/
def fault? (header : String × String) : Option ConstructionFault :=
  if header.2.isEmpty then none
  else match HeaderName.ofString? header.1, headerValue? header.2 with
    | none, _ => some (.headerName header.1)
    | some _, none => some (.headerValue header.1)
    | some _, some _ => none

theorem sameName_iff : sameName text other = true ↔
    text.toList.map Char.toLower = other.toList.map Char.toLower := by
  rw [sameName, beq_iff_eq]

theorem sameName_iff_of_proper (proper : HeaderName.ofString? text = some name)
    {found : HeaderName} (known : HeaderName.ofString? other = some found) :
    sameName other text = true ↔ found = name := by
  rw [sameName_iff]
  constructor
  · intro same
    refine HeaderName.ext_text ?_
    rw [HeaderName.ofString?_text known, HeaderName.ofString?_text proper, same]
  · rintro rfl
    have texts := (HeaderName.ofString?_text known).symm.trans (HeaderName.ofString?_text proper)
    exact String.ofList_injective texts

theorem asksFor_eq_isSome : headers.asksFor text = (headers.value? text).isSome := by
  rw [value?, Option.isSome_map, asked, Bool.eq_iff_iff, List.find?_isSome, asksFor,
    List.any_eq_true]
  simp only [List.mem_filter, Bool.and_eq_true]
  constructor
  · rintro ⟨header, member, same, filled⟩
    exact ⟨header, ⟨member, filled⟩, same⟩
  · rintro ⟨header, ⟨member, filled⟩, same⟩
    exact ⟨header, member, same, filled⟩

theorem asksFor_congr (same : text.toList.map Char.toLower = other.toList.map Char.toLower) :
    headers.asksFor text = headers.asksFor other := by
  simp only [asksFor, sameName, same]

theorem asksFor_eq_of_proper {found : HeaderName} (proper : HeaderName.ofString? text = some name)
    (known : HeaderName.ofString? other = some found) (same : found = name) :
    headers.asksFor other = headers.asksFor text :=
  asksFor_congr (sameName_iff.mp ((sameName_iff_of_proper proper known).mpr same))

theorem asksFor_perm (perm : visited.Perm headers) (text : String) :
    visited.asksFor text = headers.asksFor text := perm.any_eq

/-- What is asked for under a name by the last entry that does. -/
def lastValue? (headers : CallerHeaders) (text : String) : Option String :=
  (headers.reverse.find? fun header => sameName header.1 text && !header.2.isEmpty).map (·.2)

theorem lastValue?_eq_some {value : String} : headers.lastValue? text = some value ↔
    ∃ (before : CallerHeaders) (other : String) (after : CallerHeaders),
      headers = before ++ (other, value) :: after ∧ sameName other text = true ∧
      value.isEmpty = false ∧ after.asksFor text = false := by
  rw [lastValue?, Option.map_eq_some_iff]
  constructor
  · rintro ⟨⟨other, value⟩, found, rfl⟩
    obtain ⟨asks, late, early, split, silent⟩ := List.find?_eq_some_iff_append.mp found
    obtain ⟨same, filled⟩ := Bool.and_eq_true_iff.mp asks
    refine ⟨early.reverse, other, late.reverse, ?_, same, by simpa using filled, ?_⟩
    · rw [← List.reverse_reverse headers, split, List.reverse_append, List.reverse_cons,
        List.append_assoc, List.singleton_append]
    · rw [asksFor, List.any_reverse, List.any_eq_false]
      exact fun header member => by simpa [imp_iff_not_or] using silent header member
  · rintro ⟨before, other, after, rfl, same, filled, silent⟩
    refine ⟨(other, value), ?_, rfl⟩
    have passed : ∀ header ∈ after.reverse,
        (!(sameName header.1 text && !header.2.isEmpty)) = true := by
      intro header member
      have quiet := List.any_eq_false.mp silent header (List.mem_reverse.mp member)
      simpa [imp_iff_not_or] using quiet
    rw [List.reverse_append, List.reverse_cons, List.append_assoc, List.singleton_append]
    exact List.find?_eq_some_iff_append.mpr
      ⟨by simp [same, filled], after.reverse, before.reverse, rfl, passed⟩

theorem lastValue?_isSome : (headers.lastValue? text).isSome = headers.asksFor text := by
  rw [lastValue?, Option.isSome_map, Bool.eq_iff_iff, List.find?_isSome, asksFor, List.any_eq_true]
  simp only [List.mem_reverse]

theorem asksFor_asked (headers : CallerHeaders) (text : String) :
    headers.asked.asksFor text = headers.asksFor text := by
  rw [asksFor, asked, List.any_filter, asksFor]
  congr 1
  funext header
  rw [← Bool.and_assoc, Bool.and_comm _ (sameName _ _), Bool.and_assoc, Bool.and_self]

theorem fault?_isSome (header : String × String) : (fault? header).isSome = isInvalid header := by
  rw [fault?, isInvalid]
  cases header.2.isEmpty with
  | true => rfl
  | false =>
    cases HeaderName.ofString? header.1 with
    | none => rfl
    | some name =>
      cases headerValue? header.2 with
      | none => rfl
      | some value => rfl

theorem line?_eq_some {line : HeaderName × Bytes} : line? header = some line ↔
    header.2.isEmpty = false ∧ HeaderName.ofString? header.1 = some line.1 ∧
      headerValue? header.2 = some line.2 := by
  obtain ⟨name, value⟩ := line
  rw [line?]
  cases header.2.isEmpty with
  | true => simp
  | false =>
    cases HeaderName.ofString? header.1 with
    | none => simp
    | some found => cases headerValue? header.2 <;> simp

/-- An entry that asks for something sets a line, where it is a header. -/
theorem line?_of_sound (filled : header.2.isEmpty = false) (sound : fault? header = none) :
    ∃ name, HeaderName.ofString? header.1 = some name ∧
      line? header = some (name, Text.encode header.2) := by
  rw [fault?, filled] at sound
  cases known : HeaderName.ofString? header.1 with
  | none =>
    rw [known] at sound
    cases sound
  | some name =>
    cases given : headerValue? header.2 with
    | none =>
      rw [known, given] at sound
      cases sound
    | some value =>
      refine ⟨name, rfl, line?_eq_some.mpr ⟨filled, known, ?_⟩⟩
      rw [given, headerValue?_eq_some given]

theorem filterMap_line?_distinct (distinct : headers.Distinct) :
    ((headers.filterMap line?).map (·.1)).Nodup := by
  have pairs : headers.Pairwise fun header other =>
      header.2.isEmpty = false → other.2.isEmpty = false → sameName header.1 other.1 = false := by
    simpa [Distinct, asked, List.pairwise_filter] using distinct
  rw [List.Nodup, List.pairwise_map, List.pairwise_filterMap]
  refine pairs.imp ?_
  intro header other apart line set line' set' same
  obtain ⟨filled, known, -⟩ := line?_eq_some.mp set
  obtain ⟨filled', known', -⟩ := line?_eq_some.mp set'
  have equal := (sameName_iff_of_proper known' known).mpr same
  rw [apart filled filled'] at equal
  cases equal

theorem filterMap_asked {β : Type} {f : String × String → Option β}
    (passed : ∀ header : String × String, header.2.isEmpty = true → f header = none) :
    headers.asked.filterMap f = headers.filterMap f := by
  rw [asked, List.filterMap_filter]
  congr 1
  funext header
  cases silent : header.2.isEmpty with
  | true => exact (passed header silent).symm
  | false => rfl

/-- The lines that are set have a name that is asked for. -/
theorem not_mem_lines (proper : HeaderName.ofString? text = some name)
    (absent : headers.asksFor text = false) : name ∉ (headers.filterMap line?).map (·.1) := by
  intro member
  obtain ⟨line, set, rfl⟩ := List.mem_map.mp member
  obtain ⟨header, entry, set⟩ := List.mem_filterMap.mp set
  obtain ⟨filled, known, -⟩ := line?_eq_some.mp set
  have asks : headers.asksFor text = true := by
    refine List.any_eq_true.mpr ⟨header, entry, Bool.and_eq_true_iff.mpr ⟨?_, by rw [filled]; rfl⟩⟩
    exact (sameName_iff_of_proper proper known).mpr rfl
  rw [asks] at absent
  cases absent

/-- What is asked for under a name is the line that is set for it. -/
theorem mem_lines (sound : headers.filterMap fault? = []) {value : Bytes}
    (proper : HeaderName.ofString? text = some name) (found : headers.value? text = some value) :
    (name, value) ∈ headers.filterMap line? := by
  obtain ⟨header, first, rfl⟩ := Option.map_eq_some_iff.mp found
  have same := List.find?_some first
  obtain ⟨entry, filled⟩ := List.mem_filter.mp (List.mem_of_find?_eq_some first)
  obtain ⟨found, known, set⟩ := line?_of_sound (by simpa using filled)
    (List.filterMap_eq_nil_iff.mp sound header entry)
  cases (sameName_iff_of_proper proper known).mp same
  exact List.mem_filterMap.mpr ⟨header, entry, set⟩

end CallerHeaders

namespace LocalIdentity

/-- The header that states an identity under a name. -/
def header? (identity : LocalIdentity) (name : HeaderName) : Option Bytes :=
  if name = tenantIdHeader then some (Text.encode identity.tenantId)
  else if name = principalIdHeader then
    some (Text.encode (Text.Base64.encode (Text.encode identity.principalId)))
  else if name = principalTypeHeader then
    some (Text.encode (Text.Base64.encode (Text.encode identity.principalType)))
  else none

/-- Where an identity can be stated, its headers replace others of their names and
leave the rest. -/
theorem values_of_addTo {identity : LocalIdentity} {headers result : Headers}
    (added : identity.addTo headers = (result, true)) (name : HeaderName) :
    result.values name = ((identity.header? name).map fun value => [value]).getD
      (headers.values name) := by
  simp only [addTo] at added
  split at added
  · cases added
  · rename_i value given
    cases added
    rw [header?, headerValue?_eq_some given]
    simp only [Headers.values_insert]
    split_ifs <;> rfl

end LocalIdentity

namespace CallContext

variable {context : CallContext} {method : Method} {path target text : String}
  {body : Option CallBody} {headers visited : CallerHeaders} {name : HeaderName}

/-- The type of what is sent, where its caller does not state it. -/
def contentType? (method : Method) : Option CallBody → Option Bytes
  | some (.document _) => some (Text.encode (documentType method))
  | _ => none

/-- The header that a call has under a name without its caller. -/
def synthesized? (context : CallContext) (method : Method) (body : Option CallBody)
    (name : HeaderName) : Option Bytes :=
  if name = .authorization then some (Text.encode ("Bearer " ++ context.token))
  else if name = .accept then some (Text.encode "application/json")
  else if name = .contentType then contentType? method body
  else none

/-- The header that a call has under a name: what its caller asks for, or else the
identity where it is taken on trust, or else what belongs to every call. -/
def header? (context : CallContext) (method : Method) (body : Option CallBody)
    (headers : CallerHeaders) (text : String) (name : HeaderName) : Option Bytes :=
  headers.value? text <|>
    (if context.authMethod = .local then context.identity.header? name else none) <|>
    context.synthesized? method body name

theorem contentHeaders_wellFormed (method : Method) (headers : CallerHeaders)
    (body : Option CallBody) : (contentHeaders method headers body).WellFormed := by
  have accept : HeaderName.ofString? "accept" = some .accept := by decide
  have contentType : HeaderName.ofString? "content-type" = some .contentType := by decide
  unfold contentHeaders
  split
  · split
    · exact Headers.WellFormed.empty.insert contentType _
    · exact (Headers.WellFormed.empty.insert contentType _).insert accept _
  · split
    · exact Headers.WellFormed.empty
    · exact Headers.WellFormed.empty.insert accept _

theorem addTo_wellFormed {identity : LocalIdentity} {lower result : Headers} {all : Bool}
    (formed : lower.WellFormed) (added : identity.addTo lower = (result, all)) :
    result.WellFormed := by
  have kind : HeaderName.ofString? "appd-pty" = some LocalIdentity.principalTypeHeader := by decide
  have principal : HeaderName.ofString? "appd-pid" = some LocalIdentity.principalIdHeader := by
    decide
  have tenant : HeaderName.ofString? "appd-tid" = some LocalIdentity.tenantIdHeader := by decide
  simp only [LocalIdentity.addTo] at added
  split at added
  · cases added
    exact (formed.insert kind _).insert principal _
  · cases added
    exact ((formed.insert kind _).insert principal _).insert tenant _

theorem identified_eq_ok {bearer result : Headers}
    (stated : (if context.authMethod = .local then
        match context.identity.addTo bearer with
        | (result, true) => return result
        | (_, false) => throw (.construction target .identity)
      else return bearer : Except CallError Headers) = .ok result) :
    if context.authMethod = .local then context.identity.addTo bearer = (result, true)
    else result = bearer := by
  split at stated
  · rename_i trusted
    rw [if_pos trusted]
    split at stated
    · rename_i added
      cases stated
      exact added
    · cases stated
  · rename_i method
    rw [if_neg method]
    cases stated
    rfl

/-- The headers with the token, unless the caller states an authorization. -/
def withBearer (context : CallContext) (headers : CallerHeaders) (lower : Headers) : Headers :=
  if headers.asksFor "authorization" then lower
  else lower.insert .authorization (Text.encode ("Bearer " ++ context.token))

/-- Where the sender can be stated, it is the token, unless the caller states an
authorization, and on top of that the identity where it is taken on trust. The identity is
set last and so replaces lines of its own names. -/
theorem addSender_eq_ok {lower result : Headers}
    (sender : context.addSender target headers lower = .ok result) :
    if context.authMethod = .local then
      context.identity.addTo (context.withBearer headers lower) = (result, true)
    else result = context.withBearer headers lower := by
  unfold addSender at sender
  rw [withBearer]
  simp only [] at sender
  split at sender
  · rename_i asked
    rw [if_pos asked]
    exact identified_eq_ok sender
  · rename_i silent
    rw [if_neg silent]
    split at sender
    · rename_i value given
      rw [← headerValue?_eq_some given]
      exact identified_eq_ok sender
    · cases sender

theorem withBearer_wellFormed {lower : Headers} (formed : lower.WellFormed)
    (context : CallContext) (headers : CallerHeaders) :
    (context.withBearer headers lower).WellFormed := by
  have authorization : HeaderName.ofString? "authorization" = some .authorization := by decide
  rw [withBearer]
  split
  · exact formed
  · exact formed.insert authorization _

theorem addSender_wellFormed {lower result : Headers} (formed : lower.WellFormed)
    (sender : context.addSender target headers lower = .ok result) : result.WellFormed := by
  have bearer := withBearer_wellFormed formed context headers
  have sent := addSender_eq_ok sender
  split at sent
  · exact addTo_wellFormed bearer sent
  · exact sent ▸ bearer

theorem contentHeaders_values (method : Method) (headers : CallerHeaders)
    (body : Option CallBody) (name : HeaderName) :
    (contentHeaders method headers body).values name =
      if name = .accept ∧ headers.asksFor "accept" = false then [Text.encode "application/json"]
      else if name = .contentType then (contentType? method body).toList
      else [] := by
  have accepted : ∀ typed : Headers, (if headers.asksFor "accept" then typed
      else typed.insert .accept (Text.encode "application/json")).values name =
        if name = .accept ∧ headers.asksFor "accept" = false then [Text.encode "application/json"]
        else typed.values name := by
    intro typed
    split
    · rename_i asked
      rw [asked, if_neg (by simp)]
    · rename_i silent
      rw [Headers.values_insert]
      simp only [silent, and_true]
  unfold contentHeaders
  rw [accepted]
  congr 1
  match body with
  | some (.document _) => exact Headers.values_insert
  | some (.bytes _) => exact (ite_self _).symm
  | none => exact (ite_self _).symm

/-- What no caller asks for has the value that is set without callers. -/
theorem addSender_values {lower : Headers}
    (sender : context.addSender target headers (contentHeaders method headers body) = .ok lower)
    (proper : HeaderName.ofString? text = some name) (absent : headers.asksFor text = false) :
    lower.values name = ((if context.authMethod = .local then context.identity.header? name
      else none) <|> context.synthesized? method body name).toList := by
  have unasked : ∀ {other : String} {found : HeaderName}, HeaderName.ofString? other = some found →
      name = found → headers.asksFor other = false := by
    rintro other found known rfl
    exact (CallerHeaders.asksFor_eq_of_proper proper known rfl).trans absent
  have bearer : (context.withBearer headers (contentHeaders method headers body)).values name =
      (context.synthesized? method body name).toList := by
    have sent : (context.withBearer headers (contentHeaders method headers body)).values name =
        if name = .authorization then [Text.encode ("Bearer " ++ context.token)]
        else (contentHeaders method headers body).values name := by
      rw [withBearer]
      split
      · rename_i asked
        rw [if_neg]
        intro same
        rw [unasked (by decide : HeaderName.ofString? "authorization" = _) same] at asked
        cases asked
      · exact Headers.values_insert
    rw [sent, contentHeaders_values, synthesized?]
    by_cases authorized : name = .authorization
    · rw [if_pos authorized, if_pos authorized]
      rfl
    rw [if_neg authorized, if_neg authorized]
    by_cases accepted : name = .accept
    · rw [if_pos accepted, if_pos ⟨accepted, unasked (by decide) accepted⟩]
      rfl
    rw [if_neg accepted, if_neg fun both => accepted both.1]
    split <;> rfl
  have sent := addSender_eq_ok sender
  split at sent
  · rename_i trusted
    rw [LocalIdentity.values_of_addTo sent, bearer, if_pos trusted]
    cases context.identity.header? name <;> rfl
  · rename_i method
    rw [sent, bearer, if_neg method]
    rfl

theorem addCallerHeader_eq (target : String) (lower : Headers) (header : String × String) :
    addCallerHeader target lower header = match CallerHeaders.fault? header with
      | some fault => .error (.construction target fault)
      | none => .ok (lower.setAll (CallerHeaders.line? header).toList) := by
  obtain ⟨name, value⟩ := header
  simp only [addCallerHeader, CallerHeaders.fault?, CallerHeaders.line?]
  cases value.isEmpty with
  | true => rfl
  | false =>
    cases HeaderName.ofString? name with
    | none => rfl
    | some name => cases headerValue? value <;> rfl

/-- The first entry that cannot be set decides. Where there is none, all are set. So setting
the entries one after the other comes down to two lists, that of the faults and that of the
lines. -/
theorem foldlM_addCallerHeader (target : String) (lower : Headers) (headers : CallerHeaders) :
    headers.foldlM (addCallerHeader target) lower =
      match headers.filterMap CallerHeaders.fault? with
      | fault :: _ => .error (.construction target fault)
      | [] => .ok (lower.setAll (headers.filterMap CallerHeaders.line?)) := by
  induction headers generalizing lower with
  | nil => rfl
  | cons header rest ih =>
    rw [List.foldlM_cons, addCallerHeader_eq]
    cases faulty : CallerHeaders.fault? header with
    | some fault =>
      rw [List.filterMap_cons_some faulty]
      rfl
    | none =>
      rw [List.filterMap_cons_none faulty]
      refine (ih _).trans ?_
      cases set : CallerHeaders.line? header with
      | none => rw [List.filterMap_cons_none set]; rfl
      | some line => rw [List.filterMap_cons_some set]; rfl

theorem addSender_congr (target : String) (lower : Headers)
    (same : ∀ text, visited.asksFor text = headers.asksFor text) :
    context.addSender target visited lower = context.addSender target headers lower := by
  unfold addSender
  rw [same]

/-- A request depends on the headers that its caller asks for by which names are asked for,
and by what comes of setting them. Nothing else of a request looks at them. -/
theorem request_congr (same : ∀ text, visited.asksFor text = headers.asksFor text)
    (set : ∀ target lower, lower.Ordered → visited.foldlM (addCallerHeader target) lower =
      headers.foldlM (addCallerHeader target) lower) :
    context.request method path body visited = context.request method path body headers := by
  have encoded : encodeBody visited body = encodeBody headers body := by
    unfold encodeBody
    simp only [same]
  have content : contentHeaders method visited body = contentHeaders method headers body := by
    unfold contentHeaders
    simp only [same]
  unfold request
  rw [encoded, content]
  congr 1
  funext content
  congr 1
  funext url
  rw [addSender_congr _ _ same]
  cases sender : context.addSender url.print headers (contentHeaders method headers body) with
  | error error => rfl
  | ok lower =>
    have formed := addSender_wellFormed (contentHeaders_wellFormed method headers body) sender
    show (visited.foldlM (addCallerHeader url.print) lower >>= _) =
      (headers.foldlM (addCallerHeader url.print) lower >>= _)
    rw [set _ _ formed.ordered]

/-- In whatever order the entries are visited, the same request is made. Different names do
not get in each other's way, and of one fault at most the first is always the same. -/
theorem request_perm (distinct : headers.Distinct)
    (faults : headers.countP CallerHeaders.isInvalid ≤ 1) (perm : visited.Perm headers) :
    context.request method path body visited = context.request method path body headers := by
  refine request_congr (CallerHeaders.asksFor_perm perm) fun target lower ordered => ?_
  have same : visited.filterMap CallerHeaders.fault? = headers.filterMap CallerHeaders.fault? := by
    have one : (headers.filterMap CallerHeaders.fault?).length ≤ 1 := by
      rw [List.length_filterMap_eq_countP]
      simpa only [CallerHeaders.fault?_isSome] using faults
    have moved := perm.filterMap CallerHeaders.fault?
    rcases Nat.le_one_iff_eq_zero_or_eq_one.mp one with none | one
    · rw [List.length_eq_zero_iff.mp none] at moved ⊢
      exact moved.eq_nil
    · obtain ⟨fault, only⟩ := List.length_eq_one_iff.mp one
      rw [only] at moved ⊢
      exact List.perm_singleton.mp moved
  rw [foldlM_addCallerHeader, foldlM_addCallerHeader, same,
    Headers.setAll_perm ordered (perm.filterMap _) (CallerHeaders.filterMap_line?_distinct distinct)]

/-- An entry with an empty value is as if it was not there. It asks for nothing, sets no
line and is no fault. -/
theorem request_asked : context.request method path body headers.asked =
    context.request method path body headers := by
  refine request_congr headers.asksFor_asked fun target lower _ => ?_
  rw [foldlM_addCallerHeader, foldlM_addCallerHeader, CallerHeaders.filterMap_asked,
    CallerHeaders.filterMap_asked]
  · intro header silent
    rw [CallerHeaders.line?, silent, if_pos rfl]
  · intro header silent
    rw [CallerHeaders.fault?, silent, if_pos rfl]

/-- The headers of a request: those that every call has, and what its caller sets. The
caller comes last, which is why it takes precedence. -/
theorem request_headers {request : Request}
    (made : context.request method path body headers = .ok request) :
    headers.filterMap CallerHeaders.fault? = [] ∧ ∃ target lower,
      context.addSender target headers (contentHeaders method headers body) = .ok lower ∧
        request.headers = lower.setAll (headers.filterMap CallerHeaders.line?) := by
  obtain ⟨content, url, lower, upper, -, -, sender, asked, rfl⟩ := request_eq_ok_iff.mp made
  rw [foldlM_addCallerHeader] at asked
  split at asked
  · cases asked
  · cases asked
    exact ⟨‹_›, _, lower, sender, rfl⟩

theorem request_wellFormed {request : Request}
    (made : context.request method path body headers = .ok request) :
    request.headers.WellFormed := by
  obtain ⟨-, target, lower, sender, same⟩ := request_headers made
  rw [same]
  refine (addSender_wellFormed (contentHeaders_wellFormed method headers body) sender).setAll ?_
  intro line set
  obtain ⟨header, -, set⟩ := List.mem_filterMap.mp set
  exact ⟨header.1, (CallerHeaders.line?_eq_some.mp set).2.1⟩

/-- Under each name a request has the value that takes precedence there, or none. Either the
caller's line was set last, or the caller has left the name alone and it is as the call
itself has set it. -/
theorem request_values {request : Request} (distinct : headers.Distinct)
    (made : context.request method path body headers = .ok request)
    (proper : HeaderName.ofString? text = some name) :
    request.headers.values name = (context.header? method body headers text name).toList := by
  obtain ⟨sound, target, lower, sender, same⟩ := request_headers made
  rw [same, header?]
  cases found : headers.value? text with
  | some value =>
    exact Headers.values_setAll_of_mem (CallerHeaders.filterMap_line?_distinct distinct)
      (CallerHeaders.mem_lines sound proper found)
  | none =>
    have absent : headers.asksFor text = false := by
      rw [CallerHeaders.asksFor_eq_isSome, found]
      rfl
    rw [Headers.values_setAll_of_not_mem (CallerHeaders.not_mem_lines proper absent),
      addSender_values sender proper absent]
    rfl

/-- Of what is asked for under one name, in whatever case it is written, the last counts. -/
theorem request_values_of_last {request : Request} {value : String}
    (made : context.request method path body headers = .ok request)
    (proper : HeaderName.ofString? text = some name) (last : headers.lastValue? text = some value) :
    request.headers.values name = [Text.encode value] := by
  obtain ⟨before, other, after, rfl, asks, filled, silent⟩ :=
    CallerHeaders.lastValue?_eq_some.mp last
  obtain ⟨sound, target, lower, -, same⟩ := request_headers made
  have passed : CallerHeaders.fault? (other, value) = none :=
    List.filterMap_eq_nil_iff.mp sound _ (by simp)
  obtain ⟨found, known, set⟩ := CallerHeaders.line?_of_sound filled passed
  obtain rfl := (CallerHeaders.sameName_iff_of_proper proper known).mp asks
  rw [same, List.filterMap_append, List.filterMap_cons_some set,
    Headers.values_setAll_of_last (CallerHeaders.not_mem_lines proper silent)]

/-- A request whose caller states no authorization carries the token that was known when
it was made. -/
theorem request_bearer {request : Request}
    (made : context.request method path body headers = .ok request)
    (silent : headers.asksFor "authorization" = false) :
    request.headers.values .authorization = [Text.encode ("Bearer " ++ context.token)] := by
  have proper : HeaderName.ofString? "authorization" = some .authorization := by decide
  obtain ⟨-, target, lower, sender, same⟩ := request_headers made
  rw [same, Headers.values_setAll_of_not_mem (CallerHeaders.not_mem_lines proper silent),
    addSender_values sender proper silent]
  split <;> rfl

/-- Where no name is asked for twice and at most one entry is no header, the order of the
entries and those with empty values mean nothing, and a request that is made has under each
name what its caller asks for, or else what belongs to the call, and no other header. The
entries come in the order of a hash table, so that nothing may depend on it. -/
theorem header_precedence (context : CallContext) (method : Method) (path : String)
    (body : Option CallBody) {headers : CallerHeaders} (distinct : headers.Distinct)
    (faults : headers.countP CallerHeaders.isInvalid ≤ 1) :
    (∀ visited : CallerHeaders, visited.Perm headers →
      context.request method path body visited = context.request method path body headers) ∧
    context.request method path body headers.asked =
      context.request method path body headers ∧
    ∀ request, context.request method path body headers = .ok request →
      (∀ line ∈ request.headers.lines, ∃ text, HeaderName.ofString? text = some line.1) ∧
      ∀ text name, HeaderName.ofString? text = some name →
        request.headers.values name = (context.header? method body headers text name).toList :=
  ⟨fun _ perm => request_perm distinct faults perm, request_asked, fun _ made =>
    ⟨(request_wellFormed made).named, fun _ _ proper => request_values distinct made proper⟩⟩

end CallContext

/-- A platform on the same machine, and who asks there. -/
def trustingContext : CallContext where
  baseUrl := ⟨"http", some ⟨"", none, .domain "localhost", some 8080⟩, .segments [""], none, none⟩
  token := "idle"
  authMethod := .local
  identity := ⟨"user", "dev@platform.example", "tenant-1"⟩

/-- Entries in mixed case, one of which replaces an identity and one of which asks for
nothing. -/
def mixedEntries : CallerHeaders :=
  [("ACCEPT", "text/csv"), ("Appd-Tid", "tenant-2"), ("authorization", "")]

/-- The caller has its own tenant and type of answer, and the rest is what every call to
such a platform has. -/
theorem CallContext.header_precedence_mixed_case :
    mixedEntries.Distinct ∧ mixedEntries.countP CallerHeaders.isInvalid ≤ 1 ∧
      ∃ request, trustingContext.request .patch "/objects" (some (.document .null))
            mixedEntries = .ok request ∧
        trustingContext.request .patch "/objects" (some (.document .null))
            mixedEntries.reverse = .ok request ∧
        ["Accept", "APPD-TID", "appd-pty", "Authorization", "Content-Type"].map (fun text =>
            (HeaderName.ofString? text).map request.headers.values) =
          ["text/csv", "tenant-2", "dXNlcg==", "Bearer idle", "application/merge-patch+json"].map
            fun text => some [Text.encode text] := by
  have distinct : mixedEntries.Distinct := by decide +kernel
  have faults : mixedEntries.countP CallerHeaders.isInvalid ≤ 1 := by decide +kernel
  obtain ⟨perm, -, precedence⟩ := header_precedence trustingContext .patch "/objects"
    (some (.document .null)) distinct faults
  cases made : trustingContext.request .patch "/objects" (some (.document .null)) mixedEntries with
  | error error =>
    have succeeds : (trustingContext.request .patch "/objects" (some (.document .null))
      mixedEntries).toOption.isSome = true := by decide +kernel
    rw [made] at succeeds
    cases succeeds
  | ok request =>
    refine ⟨distinct, faults, request, rfl, ?_, ?_⟩
    · rw [perm _ (List.reverse_perm _), made]
    · have named : ["Accept", "APPD-TID", "appd-pty", "Authorization", "Content-Type"].map
          HeaderName.ofString? = [some .accept, some LocalIdentity.tenantIdHeader,
            some LocalIdentity.principalTypeHeader, some .authorization, some .contentType] := by
        decide +kernel
      simp only [List.map_cons, List.map_nil, List.cons.injEq, and_true] at named ⊢
      obtain ⟨accept, tenant, kind, authorization, content⟩ := named
      obtain ⟨-, values⟩ := precedence request made
      rw [accept, tenant, kind, authorization, content]
      simp only [Option.map_some, Option.some.injEq]
      rw [values _ _ accept, values _ _ tenant, values _ _ kind, values _ _ authorization,
        values _ _ content]
      decide +kernel

end PlatformClient
