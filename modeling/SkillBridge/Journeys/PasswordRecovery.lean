import SkillBridge.Journeys.Refinement

set_option autoImplicit false

/-! A user who has forgotten the password gets back in, whatever the other users do meanwhile. -/

namespace SkillBridge

open Interleaving Prog Database

def Request.usesResetCode : Request → Bool
  | deliverPasswordReset _ | resetPassword _ _ _ => true
  | _ => false

def Request.changesPassword : Request → Bool
  | resetPassword _ _ _ => true
  | _ => false

def HttpRequest.is (P : Request → Bool) : HttpRequest → Bool
  | validated req _ => P req
  | _ => false

def HttpRequest.usesResetCode : HttpRequest → Bool := HttpRequest.is Request.usesResetCode

def HttpRequest.changesPassword : HttpRequest → Bool := HttpRequest.is Request.changesPassword

namespace Account.Step

variable {env : Env} {c d : Clocks} {a b : Account} {req : Request} {result : Except Failure Response} {out : List Op}
  {email code password : String} {mail : Mail} {expiresAt : ℕ}

theorem identity (h : a.Step env c d req result out b) :
    b.profile.id = a.profile.id ∧ b.profile.email = a.profile.email := by
  cases h <;> exact ⟨rfl, rfl⟩

theorem stays_verified (h : a.Step env c d req result out b) (hverified : a.profile.is_verified = true) :
    b.profile.is_verified = true := by
  cases h <;> first | exact hverified | rfl

theorem resetCode_eq (h : a.Step env c d req result out b) (hreq : req.usesResetCode = false) :
    b.codes.live .password_reset_otps = a.codes.live .password_reset_otps := by
  cases h with
  | resetCodeSent | passwordReset | resetRefused => cases hreq
  | emailVerified | resent => simp [Codes.use, Codes.send]
  | _ => rfl

theorem password_eq (h : a.Step env c d req result out b) (hreq : req.changesPassword = false) :
    b.password = a.password := by
  cases h with
  | passwordReset | resetRefused => cases hreq
  | _ => rfl

theorem delivered (h : a.Step env c d req result out b) (hmail : .sendPasswordReset mail ∈ out) :
    mail.toAddress = a.profile.email ∧
      b.codes.live .password_reset_otps = some ⟨mail.otp, mail.expiresAt⟩ := by
  cases h with
  | resetCodeSent time =>
    obtain rfl := Op.sendPasswordReset.inj (List.mem_singleton.mp hmail)
    simp [Codes.send, Account.mail]
  | forgotPassword | resent => cases List.mem_singleton.mp hmail
  | _ => cases hmail

theorem reset_accepted (h : a.Step env c d (.resetPassword email code password) result out b)
    (hlive : a.codes.live .password_reset_otps = some ⟨code, expiresAt⟩) (fresh : d.db < expiresAt) :
    result = .ok (.message SuccessMessages.PASSWORD_UPDATED) ∧ b.password = some password := by
  cases h with
  | passwordReset h time accepted => exact ⟨rfl, rfl⟩
  | resetRefused h time refused =>
    exact absurd ⟨_, hlive, rfl, Nat.lt_of_le_of_lt time.2 fresh⟩ refused
  | lapsed hreq => cases hreq

theorem reset_password (h : a.Step env c d (.resetPassword email code password) result out b)
    (hresult : result = .ok (.message SuccessMessages.PASSWORD_UPDATED)) : b.password = some password := by
  cases h with
  | passwordReset h time accepted => rfl
  | resetRefused h time refused => cases hresult
  | lapsed hreq => cases hresult

theorem login_accepted (h : a.Step env c d (.login email password) result out b)
    (hpassword : a.password = some password) (hverified : a.profile.is_verified = true) :
    (∃ tokens, result = .ok (.session SuccessMessages.LOGIN a.profile tokens)) ∨
      ∃ token, result = .ok (.twoFaNeeded ErrorMessages.TWO_FA_REQUIRED token) := by
  cases h with
  | unverified h =>
    rw [hverified] at h
    cases h
  | secondFactorNeeded verified enabled time => exact .inr ⟨_, rfl⟩
  | loggedIn verified disabled h granted => exact .inl ⟨_, rfl⟩
  | wrongPassword verified disabled h => exact absurd hpassword h
  | lapsed hreq => cases hreq

end Account.Step

section Visits

variable {env : Env} {a b : TimedAccount} {turns : List Visit} {turn : Visit} {req : Request}
  {h : req.carriesRole = false}

theorem TimedAccount.Visited.step_of_eq (hv : TimedAccount.Visited env a turn b) (hreq : turn.req = .validated req h) :
    a.account.Step env a.clocks b.clocks req turn.result (sent turn.calls) b.account := by
  obtain ⟨req', h', hreq', hstep⟩ := hv.step
  rw [hreq] at hreq'
  cases hreq'
  exact hstep

/-- What only the requests that satisfy `P` can end holds as long as none of them comes. -/
theorem visited_invariant {P : Request → Bool} {I : Account → Prop} (hs : Serial (TimedAccount.Visited env) a turns b)
    (hturns : ∀ turn ∈ turns, turn.req.is P = false) (start : I a.account)
    (step : ∀ {x y : Account} {c d : Clocks} {req : Request} {result : Except Failure Response} {out : List Op},
      x.Step env c d req result out y → P req = false → I x → I y) : I b.account := by
  refine hs.invariant (I := fun x => I x.account) start fun x t y hx ht hv => ?_
  obtain ⟨req, h, hreq, hstep⟩ := hv.step
  have hP := hturns t ht
  rw [hreq] at hP
  exact step hstep hP hx

theorem visited_identity (hs : Serial (TimedAccount.Visited env) a turns b) :
    b.account.profile.id = a.account.profile.id ∧ b.account.profile.email = a.account.profile.email := by
  refine visited_invariant (P := fun _ => false) (I := fun x => x.profile.id = a.account.profile.id ∧
    x.profile.email = a.account.profile.email) hs (fun turn _ => ?_) ⟨rfl, rfl⟩ fun hstep _ hx => ?_
  · cases turn.req <;> rfl
  · exact ⟨hstep.identity.1.trans hx.1, hstep.identity.2.trans hx.2⟩

theorem visited_verified (hs : Serial (TimedAccount.Visited env) a turns b)
    (hverified : a.account.profile.is_verified = true) : b.account.profile.is_verified = true := by
  refine visited_invariant (P := fun _ => false) (I := fun x => x.profile.is_verified = true) hs (fun turn _ => ?_)
    hverified fun hstep _ hx => hstep.stays_verified hx
  cases turn.req <;> rfl

end Visits

variable {env : Env} {cookies : CookieEnv} {validator : Validator} {user : User} {db : Database} {q r : HttpPool}
  {early mid mid' : List Visit} {deliver reset login : Visit} {mail : Mail} {email password : String}

/-- A verified user resets the password with the code that was mailed, before it expires, and signs in with the new
one: this works, whatever runs meanwhile that does not concern the user, and whatever other requests of the user's own
come in between. -/
theorem password_recovered (hc : db.Constraints) (hotps : ∀ table, OtpKeys table db)
    (hpending : Pending (fun w => w.references user.id = false) db)
    (found : findById db.tables.users user.id = some user)
    (single : ∀ table, (db.activeOtps table user.id).length ≤ 1) (verified : user.is_verified = true)
    (h : (reliableHttp env cookies validator).Visits (HttpRequest.OwnedBy env (db.tables.ownerOf user))
      (fun req => req.concerns env (db.tables.ownerOf user) = false) (.start db)
      (reset :: (mid ++ deliver :: early)) q)
    (delivered : .sendPasswordReset mail ∈ sent deliver.calls)
    (hmid : ∀ turn ∈ mid, turn.req.usesResetCode = false)
    (hreset : reset.req = .validated (.resetPassword email mail.otp password) rfl)
    (fresh : q.world.state.dbNow < mail.expiresAt)
    (h' : (reliableHttp env cookies validator).Visits (HttpRequest.OwnedBy env (db.tables.ownerOf user))
      (fun req => req.concerns env (db.tables.ownerOf user) = false) q (login :: mid') r)
    (hmid' : ∀ turn ∈ mid', turn.req.changesPassword = false)
    (hlogin : login.req = .validated (.login user.email password) rfl) :
    mail.toAddress = user.email ∧ reset.result = .ok (.message SuccessMessages.PASSWORD_UPDATED) ∧
      ((∃ profile tokens, login.result = .ok (.session SuccessMessages.LOGIN profile tokens)) ∨
        ∃ token, login.result = .ok (.twoFaNeeded ErrorMessages.TWO_FA_REQUIRED token)) := by
  obtain ⟨b, hserial, hb⟩ := account_refined hc hotps hpending found single h
  have hresult : mail.toAddress = user.email ∧
      reset.result = .ok (.message SuccessMessages.PASSWORD_UPDATED) := by
    cases hserial with
    | @turn _ x _ _ hbefore hv =>
      obtain ⟨y, z, hearly, hdeliver, hbetween⟩ := hbefore.split
      obtain ⟨req, hrole, hreq, hstep⟩ := hdeliver.step
      obtain ⟨haddress, hlive⟩ := hstep.delivered delivered
      refine ⟨haddress.trans (visited_identity hearly).2, ?_⟩
      have hkept : x.account.codes.live .password_reset_otps = some ⟨mail.otp, mail.expiresAt⟩ :=
        visited_invariant (I := fun a => a.codes.live .password_reset_otps = some ⟨mail.otp, mail.expiresAt⟩) hbetween
          hmid hlive fun h hreq hx => (h.resetCode_eq hreq).trans hx
      obtain ⟨user', codes', -, hstored⟩ := hb
      exact ((hv.step_of_eq hreset).reset_accepted hkept (Nat.lt_of_le_of_lt hstored.db_le fresh)).1
  refine ⟨hresult.1, hresult.2, ?_⟩
  obtain ⟨e, hserial', -⟩ := account_refined hc hotps hpending found single (h.trans h')
  cases hserial' with
  | @turn _ x _ _ hbefore hv =>
    obtain ⟨y, z, hearly, hreset', hbetween⟩ := hbefore.split
    have hpassword := (hreset'.step_of_eq hreset).reset_password hresult.2
    have hkept : x.account.password = some password :=
      visited_invariant (I := fun a => a.password = some password) hbetween hmid' hpassword fun h hreq hx =>
        (h.password_eq hreq).trans hx
    have hverified := visited_verified hbefore verified
    rcases (hv.step_of_eq hlogin).login_accepted hkept hverified with ⟨tokens, hok⟩ | htoken
    · exact .inl ⟨_, tokens, hok⟩
    · exact .inr htoken

section Runs

def resetMail : Mail := ⟨"ada@example.com", "000000", 1700000900000, "Ada"⟩

theorem recovered_in_newPasswordRun : resetMail.toAddress = otherUser.email ∧
    resetVisit.result = .ok (.message SuccessMessages.PASSWORD_UPDATED) ∧
      ((∃ profile tokens, loginVisit.result = .ok (.session SuccessMessages.LOGIN profile tokens)) ∨
        ∃ token, loginVisit.result = .ok (.twoFaNeeded ErrorMessages.TWO_FA_REQUIRED token)) := by
  have hfound : findById twoUsers.tables.users otherUser.id = some otherUser := rfl
  have hsent : sent deliverVisit.calls = [.sendPasswordReset resetMail] := rfl
  refine password_recovered twoUsers_constraints
    (fun table => ⟨List.nodup_nil, by simp [twoUsers, sampleDatabase]⟩) (Pending.of_idle rfl) hfound
    (fun table => Nat.zero_le 1) rfl resetVisit_visits ?_ (fun _ h => nomatch h) rfl ?_ loginVisit_visits
    (fun _ h => nomatch h) rfl
  · rw [hsent]
    exact List.mem_singleton_self _
  · decide +kernel

end Runs

end SkillBridge
