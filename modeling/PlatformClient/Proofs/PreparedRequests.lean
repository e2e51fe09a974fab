import PlatformClient.Proofs.Course
import PlatformClient.Proofs.Outcomes

namespace PlatformClient

/-- The reasons for which a request cannot be made. -/
inductive CallError.Unmade : CallError → Prop
  | construction (target : String) (fault : ConstructionFault) : Unmade (.construction target fault)
  | misuse (what : Misuse) : Unmade (.misuse what)
  | profile (error : ProfileError) : Unmade (.profile error)

namespace CallContext

/-- A request that can be made: what is sent, where to, who sends, and what the caller asks
for on top. The parts are made in this order, each from what is known before it, so that a
request can be taken apart into them again. -/
theorem request_eq_ok_iff {context : CallContext} {method : Http.Method} {path : String}
    {body : Option CallBody} {headers : CallerHeaders} {request : Http.Request} :
    context.request method path body headers = .ok request ↔
      ∃ content url lower upper, encodeBody headers body = .ok content ∧
        context.callUrl path = .ok url ∧
        context.addSender url.print headers (contentHeaders method headers body) = .ok lower ∧
        headers.foldlM (addCallerHeader url.print) lower = .ok upper ∧
        request = ⟨method, url, upper, content⟩ := by
  simp only [CallContext.request, bind_eq_ok_iff, pure, Except.pure, Except.ok.injEq]
  constructor
  · rintro ⟨content, encoded, url, address, lower, sender, upper, asked, rfl⟩
    exact ⟨content, url, lower, upper, encoded, address, sender, asked, rfl⟩
  · rintro ⟨content, url, lower, upper, encoded, address, sender, asked, rfl⟩
    exact ⟨content, encoded, url, address, lower, sender, upper, asked, rfl⟩

theorem callUrl_eq_ok_iff {context : CallContext} {path : String} {url : Url} :
    context.callUrl path = .ok url ↔ context.baseUrl.join? path = some url := by
  rw [callUrl]
  cases context.baseUrl.join? path <;> simp

theorem encodeBody_unmade {headers : CallerHeaders} {body : Option CallBody} {error : CallError}
    (refused : encodeBody headers body = .error error) : error.Unmade := by
  unfold encodeBody at refused
  split at refused <;> try split at refused
  all_goals cases refused
  all_goals exact .misuse _

theorem callUrl_error {context : CallContext} {path : String} {error : CallError}
    (refused : context.callUrl path = .error error) :
    error = .construction context.baseUrl.print .baseWithoutPath := by
  unfold callUrl at refused
  split at refused <;> cases refused
  rfl

theorem addSender_error {context : CallContext} {target : String} {headers : CallerHeaders}
    {result : Http.Headers} {error : CallError}
    (refused : context.addSender target headers result = .error error) :
    ∃ fault, error = .construction target fault := by
  unfold addSender at refused
  simp only [pure_bind] at refused
  split at refused
  · split at refused
    · split at refused <;> cases refused
      exact ⟨_, rfl⟩
    · cases refused
  · split at refused
    · split at refused
      · split at refused <;> cases refused
        exact ⟨_, rfl⟩
      · cases refused
    · cases refused
      exact ⟨_, rfl⟩

theorem addCallerHeader_error {target : String} {result : Http.Headers} {header : String × String}
    {error : CallError} (refused : addCallerHeader target result header = .error error) :
    ∃ fault, error = .construction target fault := by
  unfold addCallerHeader at refused
  dsimp only at refused
  split at refused
  · cases refused
  · split at refused <;> cases refused <;> exact ⟨_, rfl⟩

theorem foldlM_addCallerHeader_error {target : String} {headers : CallerHeaders}
    {result : Http.Headers} {error : CallError}
    (refused : headers.foldlM (addCallerHeader target) result = .error error) :
    ∃ fault, error = .construction target fault := by
  induction headers generalizing result with
  | nil => cases refused
  | cons header headers ih =>
    rw [List.foldlM_cons] at refused
    rcases bind_eq_error_iff.mp refused with failed | ⟨next, -, failed⟩
    · exact addCallerHeader_error failed
    · exact ih failed

/-- A request cannot be made because of its body, or else for a fault in one of its parts.
The body comes first: whoever breaks the rules for it learns of nothing else. -/
theorem request_error {context : CallContext} {method : Http.Method} {path : String}
    {body : Option CallBody} {headers : CallerHeaders} {error : CallError}
    (refused : context.request method path body headers = .error error) :
    encodeBody headers body = .error error ∨
      ∃ target fault, error = .construction target fault := by
  rcases bind_eq_error_iff.mp refused with failed | ⟨content, -, refused⟩
  · exact Or.inl failed
  rcases bind_eq_error_iff.mp refused with failed | ⟨url, -, refused⟩
  · exact Or.inr ⟨_, _, callUrl_error failed⟩
  rcases bind_eq_error_iff.mp refused with failed | ⟨lower, -, refused⟩
  · exact Or.inr ⟨_, addSender_error failed⟩
  rcases bind_eq_error_iff.mp refused with failed | ⟨upper, -, made⟩
  · exact Or.inr ⟨_, foldlM_addCallerHeader_error failed⟩
  · cases made

theorem request_unmade {context : CallContext} {method : Http.Method} {path : String}
    {body : Option CallBody} {headers : CallerHeaders} {error : CallError}
    (refused : context.request method path body headers = .error error) : error.Unmade := by
  rcases request_error refused with failed | ⟨target, fault, rfl⟩
  · exact encodeBody_unmade failed
  · exact .construction target fault

end CallContext

namespace Profile

variable {profile : Profile} {call : Call} {options : CallOptions} {request : Http.Request}

theorem context_eq_ok_iff {context : CallContext} : profile.context = .ok context ↔
    ∃ base, profile.baseUrl = .ok base ∧
      context = ⟨base, profile.token, profile.authMethod, profile.identity⟩ := by
  rw [Profile.context, bind_eq_ok_iff]
  refine exists_congr fun base => and_congr_right fun _ => ?_
  constructor
  · intro same
    cases same
    rfl
  · rintro rfl
    rfl

theorem requestOf_eq_ok_iff :
    profile.requestOf call options = .ok request ↔
      ∃ context, profile.context = .ok context ∧
        context.request call.method call.path call.body options.headers = .ok request := by
  rw [requestOf, bind_eq_ok_iff]
  constructor
  · rintro ⟨context, found, made⟩
    cases known : profile.context with
    | error error =>
      rw [known] at found
      cases found
    | ok given =>
      rw [known] at found
      cases found
      exact ⟨context, rfl, made⟩
  · rintro ⟨context, found, made⟩
    exact ⟨context, by rw [found]; rfl, made⟩

theorem requestOf_method (built : profile.requestOf call options = .ok request) :
    request.method = call.method := by
  obtain ⟨context, -, made⟩ := requestOf_eq_ok_iff.mp built
  obtain ⟨_, _, _, _, -, -, -, -, rfl⟩ := CallContext.request_eq_ok_iff.mp made
  rfl

/-- No request can be made where the profile does not say where to, or where it cannot be made as
the profile says. -/
theorem requestOf_eq_error_iff {error : CallError} :
    profile.requestOf call options = .error error ↔
      (∃ why, profile.baseUrl = .error why ∧ error = .profile why) ∨
      ∃ base, profile.baseUrl = .ok base ∧
        CallContext.request ⟨base, profile.token, profile.authMethod, profile.identity⟩ call.method
          call.path call.body options.headers = .error error := by
  rw [requestOf, Profile.context]
  cases profile.baseUrl with
  | error why =>
    constructor
    · intro failed
      cases failed
      exact Or.inl ⟨why, rfl, rfl⟩
    · rintro (⟨_, same, rfl⟩ | ⟨_, same, -⟩)
      · cases same
        rfl
      · cases same
  | ok base =>
    constructor
    · exact fun failed => Or.inr ⟨base, rfl, failed⟩
    · rintro (⟨_, same, -⟩ | ⟨_, same, failed⟩)
      · cases same
      · cases same
        exact failed

theorem requestOf_unmade {error : CallError}
    (refused : profile.requestOf call options = .error error) :
    error.Unmade := by
  rcases requestOf_eq_error_iff.mp refused with ⟨why, -, rfl⟩ | ⟨base, -, failed⟩
  · exact .profile why
  · exact CallContext.request_unmade failed

end Profile

end PlatformClient
