import SkillBridge.Interleaving.Faults
import SkillBridge.Security.PasswordReset

set_option autoImplicit false

/-! What `resetPassword` and `verifyEmail` leave behind when one of their steps fails. -/

namespace SkillBridge

open Interleaving Prog

inductive OtpRequest
  | verifyEmail (email otp : String)
  | resetPassword (email otp password : String)

def OtpRequest.toRequest : OtpRequest → Request
  | verifyEmail email otp => .verifyEmail email otp
  | resetPassword email otp password => .resetPassword email otp password

/-- The account is in the state for which the code was spent. -/
def OtpRequest.Done (t : Database) : OtpRequest → Prop
  | verifyEmail email _ => ∃ row ∈ t.tables.users, row.email = email ∧ row.is_verified = true
  | resetPassword email _ password =>
    ∃ row ∈ t.tables.users, row.email = trim email ∧ ∃ hash, row.password = some hash ∧ hash.plain = password

def SameRows (db t : Database) : Prop := t.tables.users = db.tables.users ∧ t.tables.otps = db.tables.otps

/-- A rejected request leaves the accounts and the codes as they were, and a code is spent only for its purpose. -/
def AllOrNothing (req : OtpRequest) (db t : Database) (result : Except Failure Response) : Prop :=
  ((∃ e, result = .error e) → SameRows db t) ∧ (t.tables.otps ≠ db.tables.otps → req.Done t)

/-- The steps up to the one that marks the code as used. -/
def Op.untilUse : Op → Bool
  | findUserByEmail _ => true
  | findLatestOtp _ _ => true
  | markOtpUsed _ _ => true
  | _ => false

def FailsEarly (l : List ApiCall) : Prop := ∀ o e, (⟨o, .error e⟩ : ApiCall) ∈ l → o.untilUse = true

section Steps

variable {db s t : Database} {α β : Type} {Next : α → Database → Prop}

/-- What follows the marking gets to `Next`, or one of its steps fails; the codes stay as they are. -/
def Completes (db : Database) (Next : α → Database → Prop) (l : List ApiCall) (result : Except Failure α)
    (t : Database) : Prop :=
  t.tables.otps = db.tables.otps ∧ ((∃ a, result = .ok a ∧ Next a t) ∧ FailsEarly l ∨
    (∃ e, result = .error e) ∧ ¬ FailsEarly l)

theorem failsEarly_nil : FailsEarly [] := by
  intro o e h
  cases h

theorem failsEarly_cons {o : Op} {reply : Reply o} {l : List ApiCall} :
    FailsEarly (⟨o, reply⟩ :: l) ↔ ((∃ e, reply = .error e) → o.untilUse = true) ∧ FailsEarly l := by
  constructor
  · intro h
    refine ⟨?_, fun o' e he => h o' e (List.mem_cons_of_mem _ he)⟩
    rintro ⟨e, rfl⟩
    exact h o e List.mem_cons_self
  · rintro ⟨ho, hl⟩ o' e he
    rcases List.mem_cons.mp he with heq | he
    · obtain ⟨rfl, hreply⟩ := Sigma.mk.inj heq
      exact ho ⟨e, (eq_of_heq hreply).symm⟩
    · exact hl o' e he

theorem failsEarly_append {l l' : List ApiCall} : FailsEarly (l ++ l') ↔ FailsEarly l ∧ FailsEarly l' := by
  simp only [FailsEarly, List.mem_append]
  constructor
  · exact fun h => ⟨fun o e he => h o e (.inl he), fun o e he => h o e (.inr he)⟩
  · rintro ⟨h, h'⟩ o e (he | he)
    · exact h o e he
    · exact h' o e he

theorem completes_ret {a : α} (kept : s.tables.otps = db.tables.otps) (next : Next a s) :
    (ret a : Action α).Traced server s (Completes db Next) :=
  ⟨kept, .inl ⟨⟨a, rfl, next⟩, failsEarly_nil⟩⟩

theorem completes_bind {Mid : β → Database → Prop} {p : Action β} {f : β → Action α}
    (hp : p.Traced server s (Completes db Mid)) (hf : ∀ b t, Mid b t → t.tables.otps = db.tables.otps →
      (f b).Traced server t (Completes db Next)) : (p >>= f).Traced server s (Completes db Next) := by
  apply traced_bind
  apply hp.mono
  rintro l result t ⟨kept, ⟨⟨b, rfl, hmid⟩, hl⟩ | ⟨⟨e, rfl⟩, hl⟩⟩
  · apply (hf b t hmid kept).mono
    rintro l' result u ⟨kept', ⟨hok, hl'⟩ | ⟨herr, hl'⟩⟩
    · exact ⟨kept', .inl ⟨hok, failsEarly_append.mpr ⟨hl, hl'⟩⟩⟩
    · exact ⟨kept', .inr ⟨herr, fun h => hl' (failsEarly_append.mp h).2⟩⟩
  · exact ⟨kept, .inr ⟨⟨e, rfl⟩, hl⟩⟩

theorem completes_perform {o : Op} {Next : o.Res → Database → Prop} (late : o.untilUse = false)
    (kept : s.tables.otps = db.tables.otps) (replied : ∀ ω reply t, Database.exec o ω s = some (reply, t) →
      (∃ r, reply = .ok r ∧ Next r t) ∧ t.tables.otps = db.tables.otps) :
    (perform o).Traced server s (Completes db Next) := by
  apply traced_perform
  · intro ω reply t h
    obtain ⟨⟨r, rfl, hnext⟩, hkept⟩ := replied ω reply t h
    refine ⟨hkept, .inl ⟨⟨r, rfl, hnext⟩, failsEarly_cons.mpr ⟨?_, failsEarly_nil⟩⟩⟩
    rintro ⟨e, he⟩
    cases he
  · intro e _
    refine ⟨kept, .inr ⟨⟨e, rfl⟩, fun h => ?_⟩⟩
    have huse := (failsEarly_cons.mp h).1 ⟨e, rfl⟩
    rw [late] at huse
    cases huse

theorem exists_findById {users : List User} {id : UserId} {user : User} (mem : user ∈ users) (hid : user.id = id) :
    ∃ row, Database.findById users id = some row ∧ row.id = id := by
  have hsome : (Database.findById users id).isSome = true := by
    rw [Database.findById, List.find?_isSome]
    exact ⟨user, mem, by simpa using hid⟩
  obtain ⟨row, hrow⟩ := Option.isSome_iff_exists.mp hsome
  exact ⟨row, hrow, by simpa using List.find?_some hrow⟩

theorem exec_updateUser {id : UserId} {payload : UserPayload} {user : User} {ω : Draw}
    {reply : Reply (.updateUser id payload)} (notNull : payload.violatesNotNull = false) (fits : payload.fits = true)
    (email : payload.email = none) (mem : user ∈ s.tables.users) (hid : user.id = id)
    (h : Database.exec (.updateUser id payload) ω s = some (reply, t)) :
    (∃ row, reply = .ok (some row)) ∧ t = s.update id payload := by
  obtain ⟨row, hrow, -⟩ := exists_findById mem hid
  change s.updateUser id payload = some (reply, t) at h
  by_cases hlocked : (s.others none).any (Write.locks id) = true
  · simp only [Database.updateUser, hrow, hlocked, fits, Bool.not_true, Bool.false_eq_true, ↓reduceIte] at h
    cases h
  · rw [Database.updateUser_eq hrow (by simpa using hlocked) notNull fits email] at h
    cases h
    exact ⟨⟨_, rfl⟩, rfl⟩

theorem completes_updateUser {id : UserId} {payload : UserPayload} {user : User}
    (notNull : payload.violatesNotNull = false) (fits : payload.fits = true) (email : payload.email = none)
    (mem : user ∈ s.tables.users) (hid : user.id = id) (kept : s.tables.otps = db.tables.otps) :
    (perform (.updateUser id payload)).Traced server s (Completes db fun _ t => t = s.update id payload) := by
  refine completes_perform rfl kept fun ω reply t h => ?_
  obtain ⟨⟨row, rfl⟩, rfl⟩ := exec_updateUser notNull fits email mem hid h
  exact ⟨⟨_, rfl, rfl⟩, kept⟩

theorem completes_draw {o : Op} {r : o.Res} (late : o.untilUse = false) (kept : s.tables.otps = db.tables.otps)
    (draws : ∀ ω, Database.exec o ω s = some (.ok r, s.tick)) :
    (perform o).Traced server s (Completes db fun r' t => r' = r ∧ t = s.tick) := by
  refine completes_perform late kept fun ω reply t h => ?_
  obtain ⟨rfl, rfl⟩ := Prod.mk.inj (Option.some.inj ((draws ω).symm.trans h))
  exact ⟨⟨_, rfl, rfl, rfl⟩, kept⟩

theorem completes_findOne {id : UserId} {user : User} (mem : user ∈ s.tables.users) (hid : user.id = id)
    (kept : s.tables.otps = db.tables.otps) :
    (UsersService.findOne id).Traced server s (Completes db fun row t => row.id = id ∧ t = s) := by
  obtain ⟨row, hrow, hrowId⟩ := exists_findById mem hid
  have hfind : (perform (.findUser none id)).Traced server s
      (Completes db fun found t => found = some row ∧ t = s) := by
    refine completes_perform rfl kept fun ω reply t h => ?_
    obtain ⟨rfl, rfl⟩ := Prod.mk.inj (Option.some.inj h)
    exact ⟨⟨_, rfl, hrow, rfl⟩, kept⟩
  refine completes_bind hfind ?_
  rintro found t ⟨rfl, rfl⟩ kept
  exact completes_ret kept ⟨hrowId, rfl⟩

end Steps

section Consume

variable {db : Database} {table : OtpTable} {userId : UserId} {code : String}

theorem markOtpUsed_ne {id : OtpId} (h : (db.markOtpUsed table id).1 = true) :
    (db.markOtpUsed table id).2.tables.users = db.tables.users ∧
      (db.markOtpUsed table id).2.tables.otps ≠ db.tables.otps := by
  unfold Database.markOtpUsed at h ⊢
  split_ifs at h ⊢ with hany
  · refine ⟨rfl, fun heq => ?_⟩
    obtain ⟨otp, hmem, hotp⟩ := List.any_eq_true.mp hany
    simp only [Bool.and_eq_true, decide_eq_true_eq] at hotp
    have htable := congrFun heq table
    simp only [Database.setOtps, ↓reduceIte] at htable
    have hsame := List.map_inj_left.mp (htable.trans (List.map_id _).symm) otp hmem
    rw [if_pos hotp] at hsame
    have hused : some db.dbNow = otp.usedAt := congrArg Otp.usedAt hsame
    rw [hotp.2] at hused
    cases hused

theorem markOtpUsed_eq {id : OtpId} (h : (db.markOtpUsed table id).1 ≠ true) : (db.markOtpUsed table id).2 = db := by
  unfold Database.markOtpUsed at h ⊢
  split_ifs at h ⊢ with hany
  · exact absurd rfl h
  · rfl

theorem consume_traced : (Otp.consume table userId code).Traced server db fun l result t => FailsEarly l ∧
    match result with
    | .ok valid => if valid then t.tables.users = db.tables.users ∧ t.tables.otps ≠ db.tables.otps else t = db
    | .error _ => t = db := by
  have hone : ∀ {o : Op} {reply : Reply o}, o.untilUse = true → FailsEarly [⟨o, reply⟩] :=
    fun h => failsEarly_cons.mpr ⟨fun _ => h, failsEarly_nil⟩
  apply traced_bind
  apply traced_perform
  · intro ω reply t h
    obtain ⟨rfl, rfl⟩ := Prod.mk.inj (Option.some.inj h)
    dsimp only
    cases db.findLatestOtp table userId ω.number with
    | none => exact ⟨hone rfl, rfl⟩
    | some otp =>
      dsimp only
      by_cases hverify : otp.otpHash.verify code = true
      · simp only [hverify, ↓reduceIte]
        refine @traced_perform backend _ _ _ server db (.markOtpUsed table otp.id) _ ?_ ?_
        · intro ω reply t h
          obtain ⟨rfl, rfl⟩ := Prod.mk.inj (Option.some.inj h)
          refine ⟨failsEarly_append.mpr ⟨hone rfl, hone rfl⟩, ?_⟩
          dsimp only
          split_ifs with hused
          · exact markOtpUsed_ne hused
          · exact markOtpUsed_eq hused
        · exact fun e _ => ⟨failsEarly_append.mpr ⟨hone rfl, hone rfl⟩, rfl⟩
      · simp only [hverify]
        exact ⟨hone rfl, rfl⟩
  · exact fun e _ => ⟨hone rfl, rfl⟩

end Consume

section Requests

variable {env : Env} {db s t : Database} {l : List ApiCall} {result : Except Failure Response} {req : OtpRequest}

theorem untouched_iff (h : SameRows db t) (hl : FailsEarly l) : AllOrNothing req db t result ↔ FailsEarly l :=
  ⟨fun _ => hl, fun _ => ⟨fun _ => h, fun hne => absurd h.2 hne⟩⟩

theorem completes_iff {α : Type} {l' : List ApiCall} {result : Except Failure α} {f : α → Response}
    (spent : s.tables.otps ≠ db.tables.otps) (hl : FailsEarly l)
    (h : Completes s (fun _ t => req.Done t) l' result t) :
    AllOrNothing req db t (result.map f) ↔ FailsEarly (l ++ l') := by
  obtain ⟨hotps, ⟨⟨a, rfl, hdone⟩, hl'⟩ | ⟨⟨e, rfl⟩, hl'⟩⟩ := h
  · refine ⟨fun _ => failsEarly_append.mpr ⟨hl, hl'⟩, fun _ => ⟨?_, fun _ => hdone⟩⟩
    rintro ⟨e, he⟩
    cases he
  · refine ⟨fun h => absurd (h.1 ⟨e, rfl⟩).2 ?_, fun h => absurd (failsEarly_append.mp h).2 hl'⟩
    rw [hotps]
    exact spent

theorem updatePassword_completes {email password : String} (otp : String) {hash : Digest String} {user : User}
    (mem : user ∈ s.tables.users) (hemail : user.email = trim email) (hhash : hash.plain = password)
    (kept : s.tables.otps = db.tables.otps) : (UsersService.updatePassword user.id hash).Traced server s
      (Completes db fun _ t => (OtpRequest.resetPassword email otp password).Done t) := by
  refine completes_bind (completes_updateUser rfl rfl rfl mem rfl kept) ?_
  rintro row t rfl kept
  exact completes_ret kept ⟨_, Database.mem_update mem rfl, hemail, hash, rfl, hhash⟩

theorem signTokens_completes (user : User) (kept : s.tables.otps = db.tables.otps) :
    (AuthService.signTokens env user).Traced server s (Completes db fun _ t => t.tables = s.tables) := by
  refine completes_bind (completes_draw rfl kept fun ω => rfl) ?_
  rintro access t ⟨-, rfl⟩ kept
  refine completes_bind (completes_draw rfl kept fun ω => rfl) ?_
  rintro refresh t ⟨-, rfl⟩ kept
  exact completes_ret kept rfl

theorem issueTokens_completes {email otp message : String} {user row : User} (mem : row ∈ s.tables.users)
    (hid : row.id = user.id) (hemail : row.email = email) (verified : row.is_verified = true)
    (kept : s.tables.otps = db.tables.otps) : (AuthService.issueTokens env user message).Traced server s
      (Completes db fun _ t => (OtpRequest.verifyEmail email otp).Done t) := by
  refine completes_bind (signTokens_completes user kept) ?_
  intro tokens t htables kept
  refine completes_bind (completes_bind (completes_draw rfl kept fun ω => rfl) ?_) fun _ t hdone kept =>
    completes_ret kept hdone
  rintro hash u ⟨-, rfl⟩ kept
  have hmem : row ∈ t.tick.tables.users := by
    show row ∈ t.tables.users
    rw [htables]
    exact mem
  refine completes_bind (completes_updateUser rfl rfl rfl hmem hid kept) ?_
  rintro updated t rfl kept
  exact completes_ret kept ⟨_, Database.mem_update hmem hid, hemail, verified⟩

theorem markVerified_completes {user : User} (mem : user ∈ s.tables.users) :
    (UsersService.markVerified user.id).Traced server s (Completes s fun verifiedUser t =>
      verifiedUser.id = user.id ∧ UserPayload.apply { is_verified := some true } user ∈ t.tables.users) := by
  refine completes_bind (completes_updateUser rfl rfl rfl mem rfl rfl) ?_
  rintro updated t rfl kept
  have hmem : UserPayload.apply { is_verified := some true } user ∈
      (s.update user.id { is_verified := some true }).tables.users := Database.mem_update mem rfl
  apply (completes_findOne hmem rfl kept).mono
  rintro l result t ⟨kept, ⟨⟨row, rfl, hid, rfl⟩, hl⟩ | hfailed⟩
  · exact ⟨kept, .inl ⟨⟨row, rfl, hid, hmem⟩, hl⟩⟩
  · exact ⟨kept, .inr hfailed⟩

theorem verified_completes {email otp message : String} {user : User} (mem : user ∈ s.tables.users)
    (hemail : user.email = email) :
    (do let verifiedUser ← if user.is_verified then pure user else UsersService.markVerified user.id
        AuthService.issueTokens env verifiedUser message : Action AuthResult).Traced server s
      (Completes s fun _ t => (OtpRequest.verifyEmail email otp).Done t) := by
  cases hverified : user.is_verified with
  | true => exact issueTokens_completes mem rfl hemail hverified rfl
  | false =>
    refine completes_bind (markVerified_completes mem) ?_
    rintro verifiedUser t ⟨hid, hmem⟩ kept
    exact issueTokens_completes hmem hid.symm hemail rfl kept

theorem spend_traced {α : Type} {email code : String} {table : OtpTable} {rest : User → Action α} {f : α → Response}
    {rejected : Failure} (hrest : ∀ user s, user ∈ s.tables.users → user.email = email →
      (rest user).Traced server s (Completes s fun _ t => req.Done t)) :
    (do match ← UsersService.findByEmail email with
        | none => MonadExcept.throw rejected
        | some user =>
          let valid ← Otp.consume table user.id code
          if valid then rest user else MonadExcept.throw rejected : Action α).Traced server db fun l result t =>
      AllOrNothing req db t (result.map f) ↔ FailsEarly l := by
  have hearly : ∀ reply : Reply (.findUserByEmail email), FailsEarly [⟨.findUserByEmail email, reply⟩] :=
    fun reply => failsEarly_cons.mpr ⟨fun _ => rfl, failsEarly_nil⟩
  apply traced_bind
  apply traced_perform
  · intro ω reply t h
    obtain ⟨rfl, rfl⟩ := Prod.mk.inj (Option.some.inj h)
    dsimp only
    cases hfind : db.tables.users.find? fun user => user.email = email with
    | none => exact untouched_iff ⟨rfl, rfl⟩ (hearly _)
    | some user =>
      have hemail : user.email = email := by simpa using List.find?_some hfind
      apply traced_bind
      apply consume_traced.mono
      rintro l result t ⟨hl, hresult⟩
      have hl : FailsEarly (⟨.findUserByEmail email, .ok (some user)⟩ :: l) :=
        failsEarly_cons.mpr ⟨fun _ => rfl, hl⟩
      cases result with
      | error e => exact untouched_iff ⟨congrArg _ (congrArg _ hresult), congrArg _ (congrArg _ hresult)⟩ hl
      | ok valid =>
        cases valid with
        | false =>
          refine untouched_iff ⟨congrArg _ (congrArg _ hresult), congrArg _ (congrArg _ hresult)⟩ ?_
          rw [List.append_nil]
          exact hl
        | true =>
          obtain ⟨husers, hotps⟩ := hresult
          have hmem : user ∈ t.tables.users := by
            rw [husers]
            exact List.mem_of_find?_eq_some hfind
          apply (hrest user t hmem hemail).mono
          intro l' result u hcompletes
          exact completes_iff (l := ⟨.findUserByEmail email, .ok (some user)⟩ :: l) hotps hl hcompletes
  · exact fun e _ => untouched_iff ⟨rfl, rfl⟩ (hearly _)

/-- `resetPassword` and `verifyEmail` are all or nothing exactly when none of their steps fails after the one that
marks the code as used. -/
theorem otp_request_all_or_nothing_iff (h : Trail server (handle env req.toRequest) db l result t) :
    AllOrNothing req db t result ↔ FailsEarly l := by
  refine h.of_traced (Q := fun l result t => AllOrNothing req db t result ↔ FailsEarly l) ?_
  cases req with
  | verifyEmail email otp =>
    refine traced_map (f := fun result : AuthResult => Response.session result.message result.user result.tokens) ?_
    exact spend_traced fun user s mem hemail => verified_completes mem hemail
  | resetPassword email otp password =>
    refine traced_map (f := Response.message) ?_
    refine spend_traced fun user s mem hemail => ?_
    refine completes_bind (completes_draw rfl rfl fun ω => rfl) ?_
    rintro hash t ⟨rfl, rfl⟩ kept
    refine completes_bind (updatePassword_completes otp mem hemail rfl kept) fun _ t hdone kept => ?_
    exact completes_ret kept hdone

end Requests

section Trails

def resetRequest : OtpRequest := .resetPassword "user@example.com" "654321" "new password"

def resetTrail (script : List (Draw ⊕ Failure)) : Option (List ApiCall × Except Failure Response × Database) :=
  (handle sampleEnv resetRequest.toRequest).replay server resetDatabase script

theorem resetTrail_isSome : (resetTrail [.inl {}, .inl {}, .inl {}, .inl {}, .inl {}]).isSome = true := by
  decide +kernel

theorem resetRequest_all_or_nothing : ∃ l result t,
    resetTrail [.inl {}, .inl {}, .inl {}, .inl {}, .inl {}] = some (l, result, t) ∧
    (AllOrNothing resetRequest resetDatabase t result ↔ FailsEarly l) :=
  ⟨_, _, _, (Option.some_get resetTrail_isSome).symm,
    @otp_request_all_or_nothing_iff sampleEnv _ _ _ _ resetRequest
      (trail_of_replay (Option.some_get resetTrail_isSome).symm)⟩

theorem failedTrail_isSome :
    (resetTrail [.inl {}, .inl {}, .inl {}, .inr (.error "argon2")]).isSome = true := by
  decide +kernel

/-- The hash of the new password fails, and the code is spent. -/
theorem code_lost : ¬ ∀ (env : Env) (req : OtpRequest) (db t : Database) (l : List ApiCall)
    (result : Except Failure Response), Trail server (handle env req.toRequest) db l result t →
    AllOrNothing req db t result := by
  intro h
  have hall := h sampleEnv resetRequest resetDatabase _ _ _
    (trail_of_replay (Option.some_get failedTrail_isSome).symm)
  have hotps := congrFun (hall.1 ⟨_, rfl⟩).2 .password_reset_otps
  exact absurd (congrArg (List.map Otp.usedAt) hotps) (by decide +kernel)

end Trails

end SkillBridge
