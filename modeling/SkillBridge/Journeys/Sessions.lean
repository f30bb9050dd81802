import SkillBridge.Journeys.PasswordRecovery

set_option autoImplicit false

/-! A user who keeps up with the refresh tokens stays signed in. -/

namespace SkillBridge

open Interleaving Prog Database

def Request.writesSession : Request → Bool
  | login _ _ | verifyEmail _ _ | verify2fa _ _ | resetPassword _ _ _ | refresh _ | logout _ => true
  | _ => false

def HttpRequest.writesSession : HttpRequest → Bool := HttpRequest.is Request.writesSession

theorem Account.Grants.subject {env : Env} {c d : Clocks} {a : Account} {tokens : AuthTokens}
    (h : a.Grants env c d tokens) : tokens.accessToken.payload.sub = a.profile.id ∧
      tokens.refreshToken.payload.sub = a.profile.id := by
  obtain ⟨m, -, n, -, i, j, rfl⟩ := h
  exact ⟨rfl, rfl⟩

namespace Account.Step

variable {env : Env} {c d : Clocks} {a b : Account} {req : Request} {result : Except Failure Response} {out : List Op}
  {response : Response} {tokens : AuthTokens} {token : Jwt}

theorem session_eq (h : a.Step env c d req result out b) (hreq : req.writesSession = false) :
    b.session = a.session := by
  cases h with
  | loggedIn | passwordReset | emailVerified | refreshed | loggedOut | secondFactorPassed => cases hreq
  | _ => rfl

theorem granted (h : a.Step env c d req (.ok response) out b) (htokens : response.authTokens = some tokens) :
    b.session = some tokens.refreshToken := by
  cases h with
  | loggedIn | emailVerified | refreshed | secondFactorPassed =>
    cases htokens
    rfl
  | _ => cases htokens

theorem refresh_accepted (h : a.Step env c d (.refresh (some token)) result out b) (hsession : a.session = some token)
    (fresh : d.app / 1000 < token.exp) :
    ∃ tokens, result = .ok (.refreshed SuccessMessages.TOKEN_REFRESHED tokens) ∧ a.Grants env c d tokens := by
  cases h with
  | refreshed passes h granted => exact ⟨_, rfl, granted⟩
  | refreshLapsed h =>
    obtain ⟨-, -, now, ⟨-, hle⟩, hlapsed⟩ := h
    have := Nat.div_le_div_right (c := 1000) hle
    omega
  | refreshRevoked passes h =>
    rw [hsession] at h
    cases h
  | refreshReplaced passes h ne =>
    rw [hsession] at h
    cases h
    exact absurd rfl ne
  | lapsed hreq => cases hreq

end Account.Step

variable {env : Env} {cookies : CookieEnv} {validator : Validator} {user : User} {db : Database} {q : HttpPool}
  {early mid : List Visit} {grant refresh : Visit} {response : Response} {tokens : AuthTokens}

/-- The refresh token of the last answer is exchanged for the user's next tokens until it expires, unless the user has
signed in anew, signed out or changed the password since. -/
theorem session_continues (hc : db.Constraints) (hotps : ∀ table, OtpKeys table db)
    (hpending : Pending (fun w => w.references user.id = false) db)
    (found : findById db.tables.users user.id = some user)
    (single : ∀ table, (db.activeOtps table user.id).length ≤ 1)
    (h : (reliableHttp env cookies validator).Visits (HttpRequest.OwnedBy env (db.tables.ownerOf user))
      (fun req => req.concerns env (db.tables.ownerOf user) = false) (.start db)
      (refresh :: (mid ++ grant :: early)) q)
    (granted : grant.result = .ok response) (htokens : response.authTokens = some tokens)
    (hmid : ∀ turn ∈ mid, turn.req.writesSession = false)
    (hrefresh : refresh.req = .validated (.refresh (some tokens.refreshToken)) rfl)
    (fresh : q.world.state.appNow / 1000 < tokens.refreshToken.exp) :
    ∃ next, refresh.result = .ok (.refreshed SuccessMessages.TOKEN_REFRESHED next) ∧
      next.accessToken.payload.sub = user.id ∧ next.refreshToken.payload.sub = user.id := by
  obtain ⟨b, hserial, hb⟩ := account_refined hc hotps hpending found single h
  cases hserial with
  | @turn _ x _ _ hbefore hv =>
    obtain ⟨y, z, hearly, hgrant, hbetween⟩ := hbefore.split
    obtain ⟨req, hrole, hreq, hstep⟩ := hgrant.step
    rw [granted] at hstep
    have hsession : x.account.session = some tokens.refreshToken :=
      visited_invariant (I := fun a => a.session = some tokens.refreshToken) hbetween hmid (hstep.granted htokens)
        fun h hreq hx => (h.session_eq hreq).trans hx
    obtain ⟨user', codes', -, hstored⟩ := hb
    have hlt : b.clocks.app / 1000 < tokens.refreshToken.exp :=
      Nat.lt_of_le_of_lt (Nat.div_le_div_right hstored.app_le) fresh
    obtain ⟨next, hnext, hgrants⟩ := (hv.step_of_eq hrefresh).refresh_accepted hsession hlt
    have hidentity := (visited_identity hbefore).1
    exact ⟨next, hnext, hgrants.subject.1.trans hidentity, hgrants.subject.2.trans hidentity⟩

section Runs

def nextTokens : AuthTokens :=
  ⟨mint sampleEnv.JWT_ACCESS_SECRET { AuthService.sessionPayload otherUser with jti := some 17 }
      sampleEnv.JWT_ACCESS_EXPIRES_IN 1700000000000,
    mint sampleEnv.JWT_REFRESH_SECRET { AuthService.sessionPayload otherUser with jti := some 18 }
      sampleEnv.JWT_REFRESH_EXPIRES_IN 1700000000000⟩

def refreshedRun : Option HttpPool :=
  newPasswordRun.bind fun p => (reliableHttp sampleEnv {} sampleValidator).play p
    [.spawn (.validated (.refresh (some newTokens.refreshToken)) rfl), .run 4 {}, .run 4 {}, .run 4 {}, .run 4 {},
      .run 4 {}, .run 4 {}]

theorem refreshedRun_isSome : refreshedRun.isSome = true := rfl

def refreshVisit : Visit :=
  ⟨.validated (.refresh (some newTokens.refreshToken)) rfl,
    .ok (.refreshed SuccessMessages.TOKEN_REFRESHED nextTokens),
    calls 4 (refreshedRun.get refreshedRun_isSome).world.trace⟩

theorem refreshVisit_visits : (reliableHttp sampleEnv {} sampleValidator).Visits
    (HttpRequest.OwnedBy sampleEnv (twoUsers.tables.ownerOf otherUser))
    (fun req => req.concerns sampleEnv (twoUsers.tables.ownerOf otherUser) = false)
    (newPasswordRun.get newPasswordRun_isSome) [refreshVisit] (refreshedRun.get refreshedRun_isSome) := by
  obtain ⟨p, hp, hplay⟩ := Option.bind_eq_some_iff.mp (Option.some_get refreshedRun_isSome).symm
  obtain rfl : newPasswordRun.get newPasswordRun_isSome = p := Option.get_of_eq_some _ hp
  exact .turn .start (System.reachable_of_play hplay) (Nat.le_refl 4) rfl (signedFor_iff.mpr ⟨_, rfl, rfl, rfl⟩)
    (foreign_of_all rfl)

theorem session_continues_in_refreshedRun :
    ∃ next, refreshVisit.result = .ok (.refreshed SuccessMessages.TOKEN_REFRESHED next) ∧
      next.accessToken.payload.sub = otherUser.id ∧ next.refreshToken.payload.sub = otherUser.id := by
  have hfound : findById twoUsers.tables.users otherUser.id = some otherUser := rfl
  have hvisits := (resetVisit_visits.trans loginVisit_visits).trans refreshVisit_visits
  refine session_continues twoUsers_constraints (fun table => ⟨List.nodup_nil, by simp [twoUsers, sampleDatabase]⟩)
    (Pending.of_idle rfl) hfound (fun table => Nat.zero_le 1) hvisits rfl rfl (fun _ h => nomatch h) rfl ?_
  decide +kernel

end Runs

end SkillBridge
