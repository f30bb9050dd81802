import SkillBridge.Api.Progress
import SkillBridge.Interleaving.Client
import SkillBridge.Journeys.OneTimeCodes
import SkillBridge.Journeys.TwoFactor

set_option autoImplicit false

/-! Every user has an account of his or her own: the API, with all its requests, refines it. -/

namespace SkillBridge

open Interleaving Prog Database

/-- The requests of the user's own that neither open a transaction nor come from an administrator. -/
def Request.OwnedBy (env : Env) (owner : Owner) : Request → Prop
  | .verifyEmail email _ | .resendVerification email | .login email _ => email = owner.email
  | .forgotPassword email | .resetPassword email _ _ => trim email = owner.email
  | .deliverPasswordReset userId => userId = owner.id
  | .refresh refreshToken | .logout refreshToken => signedFor env.JWT_REFRESH_SECRET owner.id refreshToken = true
  | .verify2fa authorization _ => signedFor env.JWT_ACCESS_SECRET owner.id authorization = true
  | .me c | .setup2faTotp c | .enable2faTotp c _ | .disable2fa c _ =>
      signedFor env.JWT_ACCESS_SECRET owner.id c.token = true
  | _ => False

def HttpRequest.OwnedBy (env : Env) (owner : Owner) : HttpRequest → Prop
  | .validated req _ => req.OwnedBy env owner
  | _ => False

abbrev Visit : Type := Turn backend HttpRequest Response

structure TimedAccount where
  account : Account
  clocks : Clocks

structure TimedAccount.Visited (env : Env) (a : TimedAccount) (turn : Visit) (b : TimedAccount) : Prop where
  step : ∃ req h, turn.req = .validated req h ∧
    a.account.Step env a.clocks b.clocks req turn.result (sent turn.calls) b.account
  app_le : a.clocks.app ≤ b.clocks.app
  db_le : a.clocks.db ≤ b.clocks.db

def TimedAccount.In (owner : Owner) (a : TimedAccount) (db : Database) : Prop :=
  ∃ user codes, a.account = user.account codes ∧ Stored owner user codes a.clocks db

/-- The codes of a user who has at most one active code of each kind. -/
def Database.codesOf (db : Database) (id : UserId) : Codes where
  live table := (db.activeOtps table id).head?.map Otp.live
  resends := db.tables.resendsOf id

variable {env : Env} {cookies : CookieEnv} {validator : Validator} {owner : Owner} {user : User} {codes : Codes}
  {c : Clocks} {db s : Database} {q : HttpPool} {turns : List Visit}

theorem signedFor_iff {secret : String} {id : UserId} {presented : Option Jwt} :
    signedFor secret id presented = true ↔ ∃ token, presented = some token ∧ token.secret = secret ∧
      token.payload.sub = id := by
  cases presented <;> simp [signedFor]

theorem serves_own {req : Request} (hown : req.OwnedBy env owner) (h : Stored owner user codes c s) :
    owner.Serves (Answered env owner c (user.account codes) req) (handle env req) [] s := by
  cases req with
  | verifyEmail email otp =>
    cases hown
    exact serves_verifyEmail h
  | resendVerification email =>
    cases hown
    exact serves_resendVerification h
  | login email password =>
    cases hown
    exact serves_login h
  | forgotPassword email => exact serves_forgotPassword h hown
  | deliverPasswordReset userId =>
    cases hown
    exact serves_deliverPasswordReset h
  | resetPassword email otp password => exact serves_resetPassword h hown
  | refresh refreshToken =>
    obtain ⟨token, rfl, hsecret, hsub⟩ := signedFor_iff.mp hown
    exact serves_refresh h hsecret hsub
  | logout refreshToken =>
    obtain ⟨token, rfl, hsecret, hsub⟩ := signedFor_iff.mp hown
    exact serves_logout h hsecret hsub
  | verify2fa authorization code =>
    obtain ⟨token, rfl, hsecret, hsub⟩ := signedFor_iff.mp hown
    exact serves_verify2fa h hsecret hsub
  | me credentials =>
    obtain ⟨token, htoken, hsecret, hsub⟩ := signedFor_iff.mp hown
    exact serves_me h htoken hsecret hsub
  | setup2faTotp credentials =>
    obtain ⟨token, htoken, hsecret, hsub⟩ := signedFor_iff.mp hown
    exact serves_setup2faTotp h htoken hsecret hsub
  | enable2faTotp credentials code =>
    obtain ⟨token, htoken, hsecret, hsub⟩ := signedFor_iff.mp hown
    exact serves_enable2faTotp h htoken hsecret hsub
  | disable2fa credentials code =>
    obtain ⟨token, htoken, hsecret, hsub⟩ := signedFor_iff.mp hown
    exact serves_disable2fa h htoken hsecret hsub
  | _ => cases hown

theorem reliableHttp_company : Company owner.anyone owner.others (reliableHttp env cookies validator) where
  same _ := Iff.rfl
  wider _ _ h := h.toKeepsCodes
  env m _ hs := hs.tick m

theorem reliable_answers {o : Op} {s t : Database} {reply : Reply o} (h : server.reliable.Answers o s reply t) :
    server.Answers o s reply t :=
  .inl (exec_of_reliable h)

theorem stored_of_found (found : findById db.tables.users user.id = some user)
    (single : ∀ table, (db.activeOtps table user.id).length ≤ 1) :
    Stored (db.tables.ownerOf user) user (db.codesOf user.id) db.clocks db := by
  refine ⟨found, rfl, fun table => ?_, rfl, Nat.le_refl _, Nat.le_refl _⟩
  have hsingle := single table
  have hcodes : (db.codesOf user.id).live table = (db.activeOtps table user.id).head?.map Otp.live := rfl
  rw [hcodes]
  change (db.activeOtps table user.id).map Otp.live = _
  cases hactive : db.activeOtps table user.id with
  | nil => rfl
  | cons otp rest =>
    rw [hactive] at hsingle
    obtain rfl := List.eq_nil_of_length_eq_zero (Nat.le_zero.mp (Nat.le_of_succ_le_succ hsingle))
    have hmem : otp ∈ db.activeOtps table user.id := by simp [hactive]
    have hlt : db.dbNow < otp.expiresAt := by
      have h := (Bool.and_eq_true _ _).mp (List.mem_filter.mp hmem).2
      exact (of_decide_eq_true h.2).2
    simp [Otp.live, hlt, Option.filter]

theorem TimedAccount.In.now {a : TimedAccount} (h : a.In owner s) :
    TimedAccount.In owner ⟨a.account, s.clocks⟩ s := by
  obtain ⟨user, codes, ha, hs⟩ := h
  exact ⟨user, codes, ha, (hs.at_app (Nat.le_refl _)).at_db (Nat.le_refl _)⟩

theorem visits_refined {p : HttpPool} {a : TimedAccount}
    (hp : Crowd owner.anyone owner.others (reliableHttp env cookies validator).toMachine p)
    (ha : a.In owner p.world.state)
    (h : (reliableHttp env cookies validator).Visits (HttpRequest.OwnedBy env owner)
      (fun req => req.concerns env owner = false) p turns q) :
    Crowd owner.anyone owner.others (reliableHttp env cookies validator).toMachine q ∧
      ∃ b, Serial (TimedAccount.Visited env) a turns b ∧ b.In owner q.world.state := by
  refine h.serial reliableHttp_company (fun req hreq l s => ?_) (fun a s t ha hst => ?_) (fun req hown a s ha => ?_)
    hp ha
  · exact (serve_alone req hreq l s).of_answers fun _ _ _ _ ha => reliable_answers ha
  · obtain ⟨user, codes, ha, hs⟩ := ha
    exact ⟨user, codes, ha, hs.later hst⟩
  · obtain ⟨a, c⟩ := a
    obtain ⟨user, codes, rfl, hs⟩ := ha
    cases req with
    | validated req hrole =>
      have hserves := (serves_own hown hs).since (fun _ _ (h : Untouched _ _ _) => h.toKeepsCodes)
        (KeepsCodes.refl _ s)
      refine hserves.mono fun result l t hanswered => ?_
      obtain ⟨⟨user', codes', hstep, ht⟩, hkeeps⟩ := hanswered
      refine ⟨⟨user'.account codes', t.clocks⟩, ⟨⟨req, hrole, rfl, hstep⟩, ?_, ?_⟩, user', codes', rfl, ht⟩
      · exact Nat.le_trans hs.app_le hkeeps.appNow_le
      · exact Nat.le_trans hs.db_le hkeeps.dbNow_le
    | _ => cases hown

theorem start_refined (hc : db.Constraints) (hotps : ∀ table, OtpKeys table db)
    (hpending : Pending (fun w => w.references user.id = false) db)
    (found : findById db.tables.users user.id = some user)
    (single : ∀ table, (db.activeOtps table user.id).length ≤ 1) :
    Crowd (db.tables.ownerOf user).anyone (db.tables.ownerOf user).others
        (reliableHttp env cookies validator).toMachine (.start db : HttpPool) ∧
      TimedAccount.In (db.tables.ownerOf user) ⟨user.account (db.codesOf user.id), db.clocks⟩ db :=
  ⟨fun _ => among_start (standing_of_found hc hotps found hpending), user, _, rfl, stored_of_found found single⟩

/-- The answers to a user, and what is sent and stored for the user, are those of the account alone. -/
theorem account_refined (hc : db.Constraints) (hotps : ∀ table, OtpKeys table db)
    (hpending : Pending (fun w => w.references user.id = false) db)
    (found : findById db.tables.users user.id = some user)
    (single : ∀ table, (db.activeOtps table user.id).length ≤ 1)
    (h : (reliableHttp env cookies validator).Visits (HttpRequest.OwnedBy env (db.tables.ownerOf user))
      (fun req => req.concerns env (db.tables.ownerOf user) = false) (.start db) turns q) :
    ∃ b, Serial (TimedAccount.Visited env) ⟨user.account (db.codesOf user.id), db.clocks⟩ turns b ∧
      b.In (db.tables.ownerOf user) q.world.state := by
  obtain ⟨hcrowd, hin⟩ := start_refined hc hotps hpending found single
  exact (visits_refined hcrowd hin h).2

section Runs

def resetCodeRun : Option HttpPool :=
  (reliableHttp sampleEnv {} sampleValidator).play (.start twoUsers)
    [.spawn otherDelivery, .spawn (.validated (.login "user@example.com" "correct horse") rfl), .run 0 {}, .run 1 {},
      .run 0 {}, .run 0 {}, .run 1 {}, .run 0 {}, .run 0 {}, .run 0 {}, .run 0 {}]

def passwordResetRun : Option HttpPool :=
  resetCodeRun.bind fun p => (reliableHttp sampleEnv {} sampleValidator).play p
    [.spawn (.validated (.resetPassword "ada@example.com" "000000" "a new horse") rfl), .run 2 {}, .run 2 {}, .run 2 {},
      .run 2 {}, .run 2 {}]

def newPasswordRun : Option HttpPool :=
  passwordResetRun.bind fun p => (reliableHttp sampleEnv {} sampleValidator).play p
    [.spawn (.validated (.login "ada@example.com" "a new horse") rfl), .run 3 {}, .run 3 {}, .run 3 {}, .run 3 {},
      .run 3 {}]

theorem newPasswordRun_isSome : newPasswordRun.isSome = true := rfl

theorem passwordResetRun_isSome : passwordResetRun.isSome = true := rfl

theorem resetCodeRun_isSome : resetCodeRun.isSome = true := rfl

def deliverVisit : Visit :=
  ⟨otherDelivery, .ok .noContent, calls 0 (resetCodeRun.get resetCodeRun_isSome).world.trace⟩

def resetVisit : Visit :=
  ⟨.validated (.resetPassword "ada@example.com" "000000" "a new horse") rfl,
    .ok (.message SuccessMessages.PASSWORD_UPDATED),
    calls 2 (passwordResetRun.get passwordResetRun_isSome).world.trace⟩

def newTokens : AuthTokens :=
  ⟨mint sampleEnv.JWT_ACCESS_SECRET { AuthService.sessionPayload otherUser with jti := some 14 }
      sampleEnv.JWT_ACCESS_EXPIRES_IN 1700000000000,
    mint sampleEnv.JWT_REFRESH_SECRET { AuthService.sessionPayload otherUser with jti := some 15 }
      sampleEnv.JWT_REFRESH_EXPIRES_IN 1700000000000⟩

def loginVisit : Visit :=
  ⟨.validated (.login "ada@example.com" "a new horse") rfl,
    .ok (.session SuccessMessages.LOGIN (AuthService.toAuthUser otherUser) newTokens),
    calls 3 (newPasswordRun.get newPasswordRun_isSome).world.trace⟩

def othersForeign (n pid : ℕ) (p : HttpPool) : Bool :=
  p.procs.zipIdx.all fun entry => entry.2 < n || entry.2 = pid ||
    entry.1.req.concerns sampleEnv (twoUsers.tables.ownerOf otherUser) = false

theorem foreign_of_all {n pid : ℕ} {p : HttpPool} (h : othersForeign n pid p = true) (i : ℕ)
    (proc : Proc backend HttpRequest Response) (hproc : p.procs[i]? = some proc) (hi : n ≤ i) (hpid : i ≠ pid) :
    proc.req.concerns sampleEnv (twoUsers.tables.ownerOf otherUser) = false := by
  have hmem : (proc, i) ∈ p.procs.zipIdx := List.mem_zipIdx_iff_getElem?.mpr hproc
  have hforeign := List.all_eq_true.mp h _ hmem
  simp only [Bool.or_eq_true, decide_eq_true_eq] at hforeign
  rcases hforeign with (hlt | hown) | hforeign
  · omega
  · exact absurd hown hpid
  · exact hforeign

theorem resetVisit_visits : (reliableHttp sampleEnv {} sampleValidator).Visits
    (HttpRequest.OwnedBy sampleEnv (twoUsers.tables.ownerOf otherUser))
    (fun req => req.concerns sampleEnv (twoUsers.tables.ownerOf otherUser) = false) (.start twoUsers)
    (resetVisit :: ([] ++ deliverVisit :: [])) (passwordResetRun.get passwordResetRun_isSome) := by
  have hdeliver := System.reachable_of_play (Option.some_get resetCodeRun_isSome).symm
  obtain ⟨p, hp, hplay⟩ := Option.bind_eq_some_iff.mp (Option.some_get passwordResetRun_isSome).symm
  obtain rfl : resetCodeRun.get resetCodeRun_isSome = p := Option.get_of_eq_some _ hp
  have hreset := System.reachable_of_play hplay
  exact .turn (.turn .start hdeliver (Nat.zero_le _) rfl rfl (foreign_of_all rfl)) hreset (Nat.le_refl 2) rfl rfl
    (foreign_of_all rfl)

theorem loginVisit_visits : (reliableHttp sampleEnv {} sampleValidator).Visits
    (HttpRequest.OwnedBy sampleEnv (twoUsers.tables.ownerOf otherUser))
    (fun req => req.concerns sampleEnv (twoUsers.tables.ownerOf otherUser) = false)
    (passwordResetRun.get passwordResetRun_isSome) [loginVisit] (newPasswordRun.get newPasswordRun_isSome) := by
  obtain ⟨p, hp, hplay⟩ := Option.bind_eq_some_iff.mp (Option.some_get newPasswordRun_isSome).symm
  obtain rfl : passwordResetRun.get passwordResetRun_isSome = p := Option.get_of_eq_some _ hp
  exact .turn .start (System.reachable_of_play hplay) (Nat.le_refl 3) rfl rfl (foreign_of_all rfl)

theorem refined_in_newPasswordRun : ∃ b,
    Serial (TimedAccount.Visited sampleEnv) ⟨otherUser.account (twoUsers.codesOf otherUser.id), twoUsers.clocks⟩
      [loginVisit, resetVisit, deliverVisit] b ∧
    b.In (twoUsers.tables.ownerOf otherUser) (newPasswordRun.get newPasswordRun_isSome).world.state := by
  have hfound : findById twoUsers.tables.users otherUser.id = some otherUser := rfl
  exact account_refined twoUsers_constraints (fun table => ⟨List.nodup_nil, by simp [twoUsers, sampleDatabase]⟩)
    (Pending.of_idle rfl) hfound (fun table => Nat.zero_le 1) (resetVisit_visits.trans loginVisit_visits)

end Runs

end SkillBridge
