import SkillBridge.Api.Footprint
import SkillBridge.Database.OpenWrites

set_option autoImplicit false

/-! What a process has written in a transaction before it writes on, and before it commits. -/

namespace SkillBridge

open Interleaving Prog

inductive ProfileKind
  | talent
  | employer
  deriving DecidableEq

def Write.profile : Write → Option (ProfileKind × UserId)
  | insertTalentProfile profile => some (.talent, profile.user_id)
  | insertEmployerProfile profile => some (.employer, profile.user_id)
  | _ => none

inductive FindsProfile (tx : TxId) (id : UserId) : Op → Prop
  | talent : FindsProfile tx id (.findTalentProfile tx id)
  | employer : FindsProfile tx id (.findEmployerProfile tx id)

inductive SavesProfile (tx : TxId) (id : UserId) : Op → Prop
  | talent {profile : ℕ → TalentProfile} (owner : ∀ n, (profile n).user_id = id) :
      SavesProfile tx id (.insertTalentProfile tx profile)
  | employer {profile : ℕ → EmployerProfile} (owner : ∀ n, (profile n).user_id = id) :
      SavesProfile tx id (.insertEmployerProfile tx profile)

inductive Checked (tx : TxId) (id : UserId) : List ApiCall → Prop
  | intro {o : Op} {reply : Reply o} {row : Option User} {past : List ApiCall} (finds : FindsProfile tx id o) :
      Checked tx id (⟨o, reply⟩ :: done (.findUser (some tx) id) row :: done .startTransaction tx :: past)

inductive Saved (tx : TxId) (id : UserId) : List ApiCall → Prop
  | intro {o : Op} {r : o.Res} {past : List ApiCall} (saves : SavesProfile tx id o) (checked : Checked tx id past) :
      Saved tx id (done o r :: past)

inductive Committing (tx : TxId) : List ApiCall → Prop
  | onboarding {id : UserId} {past : List ApiCall} (saved : Saved tx id past) :
      Committing tx (done (.markOnboardingComplete tx id) () :: past)
  | signUp {user account : _} {row : Option User} {payload : NewUser} {provider providerId : String}
      {past : List ApiCall} : Committing tx (done (.findUser (some tx) user.id) row ::
        done (.insertOauthAccount (some tx) user.id provider providerId) account ::
        done (.insertUser (some tx) payload) user :: done .startTransaction tx :: past)

def TransactionHistory : Op → List ApiCall → Prop
  | .insertTalentProfile tx profile, past => ∃ id, Checked tx id past ∧ ∀ n, (profile n).user_id = id
  | .insertEmployerProfile tx profile, past => ∃ id, Checked tx id past ∧ ∀ n, (profile n).user_id = id
  | .markOnboardingComplete tx id, past => Saved tx id past
  | .commitTransaction tx, past => Committing tx past
  | _, _ => True

def Transacts (call : ApiCall) (past : List ApiCall) : Prop := Owns call past ∧ TransactionHistory call.1 past

theorem Transacts.of_outside {call : ApiCall} {past : List ApiCall} (h : call.1.transaction = none) :
    Transacts call past := by
  obtain ⟨o, reply⟩ := call
  refine ⟨fun tx htx => ?_, ?_⟩
  · rw [h] at htx
    cases htx
  · cases o <;> trivial

variable {env : Env} {past : List ApiCall} {α β : Type}

section Services

def Op.Outside (o : Op) : Prop := o.transaction = none

theorem outside_transacts {p : Action α} (hp : p.Calls Op.Outside) :
    p.Along Transacts (fun _ _ => True) past :=
  along_of_calls (fun _ _ h => .of_outside h) hp fun _ _ _ => trivial

theorem perform_bind_transacts {o : Op} {f : o.Res → Action β} {Q : Except Failure β → List ApiCall → Prop}
    (h : ∀ reply, Transacts ⟨o, reply⟩ past) (failed : ∀ e, Q (.error e) (⟨o, .error e⟩ :: past))
    (hf : ∀ r, (f r).Along Transacts Q (done o r :: past)) : (perform o >>= f).Along Transacts Q past :=
  along_perform_bind h failed hf

theorem Transacts.inside {o : Op} {reply : Reply o} {tx : TxId} (h : o.transaction = some tx)
    (hstarted : done .startTransaction tx ∈ past) (history : TransactionHistory o past) :
    Transacts ⟨o, reply⟩ past := by
  refine ⟨fun tx' htx => ?_, history⟩
  obtain rfl : tx = tx' := Option.some.inj (h.symm.trans htx)
  exact hstarted

theorem rollback_transacts {tx : TxId} {e : Failure} (h : done .startTransaction tx ∈ past) :
    (rollback tx e : Action α).Along Transacts (fun _ _ => True) past := by
  apply along_bind
  apply along_tryCatch
  apply along_perform
  intro r
  refine ⟨.inside rfl h trivial, ?_⟩
  cases r <;> trivial

/-- What a body leaves behind in its transaction: the transaction is its own, and may be committed. -/
def Committable (tx : TxId) (r : Except Failure α) (past : List ApiCall) : Prop :=
  done .startTransaction tx ∈ past ∧ ∀ a, r = .ok a → Committing tx past

theorem transaction_transacts {body : TxId → Action α}
    (h : ∀ tx, (body tx).Along Transacts (Committable tx) (done .startTransaction tx :: past)) :
    (transaction body).Along Transacts (fun _ _ => True) past := by
  apply perform_bind_transacts
  · exact fun r => .of_outside rfl
  · exact fun e => trivial
  intro tx
  apply along_tryCatch
  apply along_bind
  apply (h tx).mono
  rintro r past' ⟨hstarted, hcommitting⟩
  cases r with
  | error e => exact rollback_transacts hstarted
  | ok a =>
    apply perform_bind_transacts
    · exact fun r => .inside rfl hstarted (hcommitting a rfl)
    · exact fun e => rollback_transacts (List.mem_cons_of_mem _ hstarted)
    · exact fun _ => trivial

theorem createUserWithOauthLink_transacts (tx : TxId) (params : CreateVerifiedUserWithOauthLinkParams) :
    (UserModelAction.createUserWithOauthLink tx params).Along Transacts (Committable tx)
      (done .startTransaction tx :: past) := by
  have failed : ∀ {o : Op} {e : Failure} {past : List ApiCall}, done .startTransaction tx ∈ past →
      Committable tx (.error e : Except Failure User) (⟨o, .error e⟩ :: past) :=
    fun h => ⟨List.mem_cons_of_mem _ h, fun a ha => by cases ha⟩
  have hstart : done .startTransaction tx ∈ done .startTransaction tx :: past := List.mem_cons_self
  apply perform_bind_transacts
  · exact fun r => .inside rfl hstart trivial
  · exact fun e => failed hstart
  intro user
  have huser := List.mem_cons_of_mem (done (.insertUser (some tx) _) user) hstart
  apply perform_bind_transacts
  · exact fun r => .inside rfl huser trivial
  · exact fun e => failed huser
  intro account
  have haccount := List.mem_cons_of_mem (done (.insertOauthAccount (some tx) user.id _ _) account) huser
  apply perform_bind_transacts
  · exact fun r => .of_outside rfl
  · exact fun e => failed haccount
  intro row
  cases row with
  | none => exact ⟨List.mem_cons_of_mem _ haccount, fun a ha => by cases ha⟩
  | some created => exact ⟨List.mem_cons_of_mem _ haccount, fun a _ => .signUp⟩

variable {Profile : Type} {id : UserId} {find : TxId → Action (Option Profile)} {save : TxId → Action Profile}

structure OnboardingCalls (id : UserId) (find : TxId → Action (Option Profile)) (save : TxId → Action Profile) :
    Prop where
  find : ∀ tx past (Q : Except Failure (Option Profile) → List ApiCall → Prop),
    (∀ r o reply, FindsProfile tx id o → Q r (⟨o, reply⟩ :: past)) → (find tx).Along Transacts Q past
  save : ∀ tx past (Q : Except Failure Profile → List ApiCall → Prop), done .startTransaction tx ∈ past →
    Checked tx id past → (∀ e o, Q (.error e) (⟨o, .error e⟩ :: past)) →
    (∀ a o r, SavesProfile tx id o → Q (.ok a) (done o r :: past)) → (save tx).Along Transacts Q past

theorem along_finds {o : Op} {tx : TxId} {Q : Except Failure o.Res → List ApiCall → Prop} (h : FindsProfile tx id o)
    (found : ∀ r o reply, FindsProfile tx id o → Q r (⟨o, reply⟩ :: past)) : (perform o).Along Transacts Q past := by
  have houtside : o.Outside := by cases h <;> rfl
  apply along_perform
  intro r
  exact ⟨.of_outside houtside, found r o r h⟩

theorem SavesProfile.transacts {o : Op} {reply : Reply o} {tx : TxId} (h : SavesProfile tx id o)
    (hstarted : done .startTransaction tx ∈ past) (checked : Checked tx id past) : Transacts ⟨o, reply⟩ past := by
  cases h with
  | talent owner => exact .inside rfl hstarted ⟨id, checked, owner⟩
  | employer owner => exact .inside rfl hstarted ⟨id, checked, owner⟩

theorem along_saves {o : Op} {tx : TxId} {Q : Except Failure o.Res → List ApiCall → Prop} (h : SavesProfile tx id o)
    (hstarted : done .startTransaction tx ∈ past) (checked : Checked tx id past)
    (failed : ∀ e o, Q (.error e) (⟨o, .error e⟩ :: past))
    (saved : ∀ a o r, SavesProfile tx id o → Q (.ok a) (done o r :: past)) : (perform o).Along Transacts Q past := by
  apply along_perform
  intro r
  refine ⟨h.transacts hstarted checked, ?_⟩
  cases r with
  | ok row => exact saved row o row h
  | error e => exact failed e o

theorem talent_calls (id : UserId) {profile : ℕ → TalentProfile} (owner : ∀ n, (profile n).user_id = id) :
    OnboardingCalls id (fun tx => perform (.findTalentProfile tx id))
      (fun tx => perform (.insertTalentProfile tx profile)) :=
  ⟨fun _ _ _ => along_finds .talent, fun _ _ _ => along_saves (.talent owner)⟩

theorem employer_calls (id : UserId) {profile : ℕ → EmployerProfile} (owner : ∀ n, (profile n).user_id = id) :
    OnboardingCalls id (fun tx => perform (.findEmployerProfile tx id))
      (fun tx => perform (.insertEmployerProfile tx profile)) :=
  ⟨fun _ _ _ => along_finds .employer, fun _ _ _ => along_saves (.employer owner)⟩

theorem saveProfile_transacts (h : OnboardingCalls id find save) (profileExists : String) (tx : TxId) :
    (Onboarding.saveProfile id find profileExists save tx).Along Transacts (Committable tx)
      (done .startTransaction tx :: past) := by
  have failed : ∀ {e : Failure} {past : List ApiCall}, done .startTransaction tx ∈ past →
      Committable tx (.error e : Except Failure Profile) past := fun h => ⟨h, fun a ha => by cases ha⟩
  have hstart : done .startTransaction tx ∈ done .startTransaction tx :: past := List.mem_cons_self
  apply along_bind
  apply along_tryCatch
  apply perform_bind_transacts
  · exact fun r => .of_outside rfl
  · intro e
    have hread := List.mem_cons_of_mem ⟨.findUser (some tx) id, .error e⟩ hstart
    dsimp only
    split_ifs <;> exact failed hread
  intro row
  have hread := List.mem_cons_of_mem (done (.findUser (some tx) id) row) hstart
  cases row with
  | none =>
    show (if _ then _ else _ : Action User).Along _ _ _
    split_ifs <;> exact failed hread
  | some user =>
    show (if _ then _ else _ : Action Profile).Along _ _ _
    split_ifs
    · exact failed hread
    apply along_bind
    apply h.find
    intro r o reply finds
    have hfound := List.mem_cons_of_mem (⟨o, reply⟩ : ApiCall) hread
    rcases r with e | _ | existing
    · exact failed hfound
    · apply along_bind
      apply h.save tx _ _ hfound (.intro finds)
      · exact fun e o => failed (List.mem_cons_of_mem _ hfound)
      intro saved o' r' saves
      have hsaved := List.mem_cons_of_mem (done o' r') hfound
      apply perform_bind_transacts
      · exact fun r => .inside rfl hsaved (.intro saves (.intro finds))
      · exact fun e => failed (List.mem_cons_of_mem _ hsaved)
      · exact fun _ => ⟨List.mem_cons_of_mem _ hsaved, fun a _ => .onboarding (.intro saves (.intro finds))⟩
    · exact failed hfound

theorem issueTokens_outside (user : User) (message : String) :
    (AuthService.issueTokens env user message).Calls Op.Outside := by
  refine calls_bind (calls_bind (calls_perform rfl) fun _ => calls_bind (calls_perform rfl) fun _ => trivial)
    fun _ => ?_
  refine calls_bind ?_ fun _ => trivial
  exact calls_bind (calls_perform rfl) fun _ => calls_bind (calls_perform rfl) fun _ => trivial

theorem issueSessionForUser_outside (id : UserId) (message : String) :
    (AuthService.issueSessionForUser env id message).Calls Op.Outside :=
  calls_bind (UsersService.calls_findOne rfl) fun user => issueTokens_outside user message

theorem completeOnboarding_transacts (h : OnboardingCalls id find save) (profileExists message : String) :
    (Onboarding.completeOnboarding env id find profileExists save message).Along Transacts (fun _ _ => True) past := by
  apply along_bind
  apply (transaction_transacts (saveProfile_transacts h profileExists)).mono
  intro r past' _
  cases r with
  | error e => trivial
  | ok profile =>
    apply outside_transacts
    exact calls_bind (issueSessionForUser_outside id message) fun _ => trivial

theorem resolve_transacts (provider : String) (payload : OAuthProfilePayload)
    (signupRole : Option OAuthSignupRole) :
    (UsersService.resolveOAuthUserFromProviderProfile provider payload signupRole).Along Transacts
      (fun _ _ => True) past := by
  apply perform_bind_transacts
  · exact fun r => .of_outside rfl
  · exact fun e => trivial
  intro linked
  cases linked with
  | some linked => trivial
  | none =>
    apply perform_bind_transacts
    · exact fun r => .of_outside rfl
    · exact fun e => trivial
    intro byEmail
    cases byEmail with
    | some user => exact outside_transacts (UsersService.calls_linkByEmail rfl rfl rfl rfl rfl)
    | none =>
      apply along_tryCatch
      apply Along.mono (Q := fun _ _ => True)
      · cases signupRole with
        | none => trivial
        | some role => exact transaction_transacts fun tx => createUserWithOauthLink_transacts tx _
      intro r past' _
      cases r with
      | ok user => trivial
      | error e =>
        apply outside_transacts
        split_ifs
        · refine calls_bind (calls_perform rfl) fun raced => ?_
          cases raced with
          | some raced => exact UsersService.calls_linkByEmail rfl rfl rfl rfl rfl
          | none => trivial
        · trivial

end Services

section Endpoints

theorem guarded_transacts {roles : List UserRole} {c : Credentials} {handler : AuthenticatedUser → Action Response}
    (h : ∀ user past, (handler user).Along Transacts (fun _ _ => True) past) :
    (guarded env roles c handler).Along Transacts (fun _ _ => True) past := by
  have hguard : (jwtAuthGuard env c).Calls Op.Outside := by
    unfold jwtAuthGuard
    split
    · trivial
    · refine calls_bind (calls_perform rfl) fun now => ?_
      split
      · trivial
      · refine calls_bind (calls_perform rfl) fun row => ?_
        cases row <;> trivial
  apply along_bind
  apply (outside_transacts hguard).mono
  intro r past' _
  cases r with
  | error e => trivial
  | ok user =>
    apply along_bind
    unfold rolesGuard
    split_ifs
    · exact h user past'
    · trivial

theorem transacts_of_onboarding {req : Request} (h : req.onboarding.isSome = true) : req.transacts = true := by
  cases req <;> first | rfl | cases h

theorem footprint_outside {req : Request} (hreq : req.transacts = false) {o : Op} (h : Footprint req o) :
    o.Outside := by
  cases o
  case insertUser tx payload =>
    obtain ⟨-, -, rfl | htransacts⟩ := h
    · rfl
    · rw [hreq] at htransacts
      cases htransacts
  case insertOauthAccount tx userId provider providerId =>
    obtain ⟨profile, signupRole, rfl⟩ := h
    cases hreq
  case insertTalentProfile tx profile =>
    obtain ⟨c, dto, rfl⟩ := h
    cases hreq
  case insertEmployerProfile tx profile =>
    obtain ⟨c, dto, rfl⟩ := h
    cases hreq
  case markOnboardingComplete tx id =>
    rw [transacts_of_onboarding h] at hreq
    cases hreq
  case commitTransaction tx =>
    change req.transacts = true at h
    rw [hreq] at h
    cases h
  case rollbackTransaction tx =>
    change req.transacts = true at h
    rw [hreq] at h
    cases h
  all_goals rfl

theorem handle_transacts (req : Request) : (handle env req).Along Transacts (fun _ _ => True) [] := by
  cases hreq : req.transacts with
  | false => exact outside_transacts (calls_imp (handle_footprint env req) fun o => footprint_outside hreq)
  | true =>
    cases req with
    | googleCallback profile signupRole =>
      apply along_tryCatch
      apply along_bind
      apply along_bind
      apply (resolve_transacts _ _ _).mono
      intro r past _
      cases r with
      | error e => trivial
      | ok user =>
        apply (outside_transacts (issueTokens_outside user _)).mono
        intro r past _
        cases r <;> trivial
    | talentOnboarding c dto =>
      refine guarded_transacts fun user past => along_map ?_
      exact completeOnboarding_transacts (talent_calls user.sub fun _ => rfl) _ _
    | employerOnboarding c dto =>
      refine guarded_transacts fun user past => along_map ?_
      exact completeOnboarding_transacts (employer_calls user.sub fun _ => rfl) _ _
    | _ => cases hreq

end Endpoints

end SkillBridge
