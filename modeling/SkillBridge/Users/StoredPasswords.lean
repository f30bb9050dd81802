import SkillBridge.Api.Validation
import SkillBridge.Onboarding.Profiles

set_option autoImplicit false

/-! Where the passwords that are stored come from. -/

namespace SkillBridge

open Interleaving Prog

/-- The hash that a call stores is that of the password of the request, and only a Google sign-up stores none. -/
def StoresHash (req : Request) : ApiCall → List ApiCall → Prop
  | ⟨.insertUser tx payload, _⟩, past => (tx = none → payload.password ≠ none) ∧
    ∀ hash, payload.password = some hash → ∃ text, req.password = some text ∧ done (.hashText text) hash ∈ past
  | ⟨.updateUser _ payload, _⟩, past => ∀ hash, payload.password = some (some hash) →
    ∃ text, req.password = some text ∧ done (.hashText text) hash ∈ past
  | _, _ => True

variable {env : Env} {req : Request} {past : List ApiCall} {α : Type}

theorem storesHash_of_plain {call : ApiCall} (h : call.1.Plain) : StoresHash req call past := by
  obtain ⟨o, reply⟩ := call
  cases o <;> trivial

theorem plain_storesHash {p : Action α} (h : p.Calls Op.Plain) : p.Along (StoresHash req) (fun _ _ => True) past :=
  along_of_calls (fun _ _ h => storesHash_of_plain h) h fun _ _ _ => trivial

theorem storesHash_of_explained {call : ApiCall} (h : Explained env req call past)
    (hcreate : ∀ c dto, req ≠ .createUser c dto) (hupdate : ∀ c id dto, req ≠ .updateUser c id dto) :
    StoresHash req call past := by
  obtain ⟨o, reply⟩ := call
  cases o with
  | insertUser tx payload =>
    change UserInsert req tx payload past at h
    cases h with
    | register password =>
      refine ⟨fun _ hnone => ?_, fun hash hhash => ⟨_, rfl, ?_⟩⟩
      · rw [password] at hnone
        cases hnone
      · rw [password] at hhash
        cases hhash
        exact List.mem_cons_self
    | createUser => exact absurd rfl (hcreate _ _)
    | googleCallback email password =>
      refine ⟨fun hnone => (by cases hnone), fun hash hhash => ?_⟩
      rw [password] at hhash
      cases hhash
  | updateUser id payload =>
    change UserWrite env req id payload past at h
    rintro hash hhash
    cases h with
    | resetPassword =>
      cases hhash
      exact ⟨_, rfl, List.mem_cons_self⟩
    | updateUser => exact absurd rfl (hupdate _ _ _)
    | _ => cases hhash
  | _ => trivial

theorem guarded_storesHash {roles : List UserRole} {c : Credentials} {handler : AuthenticatedUser → Action Response}
    (h : ∀ user past, (handler user).Along (StoresHash req) (fun _ _ => True) past) :
    (guarded env roles c handler).Along (StoresHash req) (fun _ _ => True) past := by
  apply along_bind
  have hplain : (jwtAuthGuard env c).Calls Op.Plain := by
    apply calls_imp (jwtAuthGuard_authenticates c)
    rintro o (_ | _) <;> trivial
  apply (plain_storesHash hplain).mono
  intro r l _
  cases r with
  | error e => trivial
  | ok user =>
    apply along_bind
    unfold rolesGuard
    split_ifs
    · exact h user l
    · trivial

theorem create_storesHash (c : Credentials) (dto : CreateUserDto) :
    (UsersService.create dto).Along (StoresHash (.createUser c dto)) (fun _ _ => True) past := by
  refine along_perform_bind (fun r => trivial) (fun e => trivial) fun found => ?_
  cases found with
  | some user => trivial
  | none =>
    refine along_perform_bind (fun r => trivial) (fun e => trivial) fun hash => along_perform fun r => ⟨?_, ?_⟩
    · refine ⟨fun _ h => (by cases h), fun hash' hhash => ⟨dto.password, rfl, ?_⟩⟩
      cases hhash
      exact List.mem_cons_self
    · cases r <;> trivial

theorem updateUser_storesHash {c : Credentials} {id : UserId} {dto : UpdateUserDto}
    {password : Option (Option (Digest String))} (hpassword : ∀ hash, password = some (some hash) →
      ∃ text, dto.password.join = some text ∧ done (.hashText text) hash ∈ past) :
    (perform (.updateUser id (UsersService.UpdateUserDto.toPayload dto password)) >>= fun updated =>
      match (updated : Option User) with
      | some updated => pure updated
      | none => MonadExcept.throw (internalServerError ErrorMessages.UPDATE_FAILED)).Along
    (StoresHash (.updateUser c id dto)) (fun _ _ => True) past := by
  refine along_perform_bind (fun r => hpassword) (fun e => trivial) fun updated => ?_
  cases updated <;> trivial

theorem update_storesHash (c : Credentials) (id : UserId) (dto : UpdateUserDto) :
    (UsersService.update id dto).Along (StoresHash (.updateUser c id dto)) (fun _ _ => True) past := by
  have hfind : (UsersService.findOne id).Calls Op.Plain := UsersService.calls_findOne trivial
  apply along_bind
  apply (plain_storesHash hfind).mono
  intro r l _
  cases r with
  | error e => trivial
  | ok user =>
    show (UsersService.hashPassword dto.password >>= fun password => _).Along _ _ _
    rcases hdto : dto.password with _ | _ | text
    · exact updateUser_storesHash fun hash h => by cases h
    · exact updateUser_storesHash fun hash h => by cases h
    · apply along_bind
      apply along_perform_bind
      · exact fun r => trivial
      · exact fun e => trivial
      refine fun hash => updateUser_storesHash fun hash' h => ⟨text, by rw [hdto]; rfl, ?_⟩
      cases h
      exact List.mem_cons_self

theorem handle_storesHash (req : Request) : (handle env req).Along (StoresHash req) (fun _ _ => True) [] := by
  cases hreq : req with
  | createUser c dto => exact guarded_storesHash fun user past => along_map (create_storesHash c dto)
  | updateUser c id dto => exact guarded_storesHash fun user past => along_map (update_storesHash c id dto)
  | _ =>
    rw [← hreq]
    apply ((handle_along env req).imp fun call past h => ?_).mono fun _ _ _ => trivial
    exact storesHash_of_explained h (by simp [hreq]) (by simp [hreq])

end SkillBridge
