import SkillBridge.Auth.Rules

set_option autoImplicit false

/-! Sequences of `setup2faTotp`, `enableTotp2fa` and `disable2fa` calls for one account. -/

namespace SkillBridge

open Interleaving Prog

def User.acceptsTotp (env : Env) (now : ℕ) (code : String) (account : User) : Bool :=
  match account.two_fa_totp_secret with
  | none => false
  | some stored =>
    match Encryption.decrypt env.aes env.encryptionKey stored with
    | .error _ => false
    | .ok secret =>
      match env.otplib.verifySync secret code now with
      | .error _ => false
      | .ok valid => valid

section Rules

variable {env : Env} {failure : Failure → Bool} {db : Database} {id : UserId} {account : User}

theorem wp_checkTotp {Q : Except Failure Unit → Database → Prop} {code : String}
    (accepted : account.acceptsTotp env db.appNow code = true → Q (.ok ()) db)
    (rejected : ∀ e, account.acceptsTotp env db.appNow code = false ∨ failure e = true → Q (.error e) db) :
    (AuthService.checkTotp env account code).Wp (server.failing failure) Q db := by
  unfold AuthService.checkTotp
  unfold User.acceptsTotp at accepted rejected
  cases hstored : account.two_fa_totp_secret with
  | none =>
    rw [hstored] at rejected
    exact rejected _ (.inl rfl)
  | some stored =>
    simp only [hstored] at accepted rejected ⊢
    apply wp_bind
    apply wp_liftExcept
    cases hsecret : Encryption.decrypt env.aes env.encryptionKey stored with
    | error e =>
      rw [hsecret] at rejected
      exact rejected e (.inl rfl)
    | ok secret =>
      simp only [hsecret] at accepted rejected ⊢
      apply wp_bind
      apply wp_bind
      refine wp_perform_of_eq (fun _ => rfl) ?_ fun e he => rejected e (.inr he)
      apply wp_liftExcept
      cases hvalid : env.otplib.verifySync secret code db.appNow with
      | error e =>
        rw [hvalid] at rejected
        exact rejected e (.inl rfl)
      | ok valid =>
        simp only [hvalid] at accepted rejected ⊢
        cases valid with
        | true => exact accepted rfl
        | false => exact rejected _ (.inl rfl)

theorem wp_set2faTotpActiveState {Q : Except Failure Unit → Database → Prop} (h : db.HasAccount id account)
    (state : Bool)
    (updated : Q (.ok ()) (db.update id
      { two_fa_enabled := some state
        two_fa_method := some (some .totp)
        two_fa_totp_secret := if state then none else some none }))
    (failed : ∀ e, failure e = true → Q (.error e) db) :
    (UsersService.set2faTotpActiveState id state).Wp (server.failing failure) Q db := by
  apply wp_bind
  exact wp_updateUser h rfl rfl rfl updated failed

theorem wp_encrypt {Q : Except Failure String → Database → Prop} {secret : String}
    (encrypted : env.encryptionKey.length = 32 → ∀ stored,
      Encryption.decrypt env.aes env.encryptionKey stored = .ok secret → Q (.ok stored) db)
    (failed : ∀ e, env.encryptionKey.length ≠ 32 ∨ failure e = true → Q (.error e) db) :
    (encrypt env secret).Wp (server.failing failure) Q db := by
  have answered : ∃ ω reply t, (server.failing failure).exec (.randomBytes 12) ω db = some (reply, t) :=
    ⟨{ bytes := List.replicate 12 0 }, .ok (List.replicate 12 (0 : UInt8)), db, rfl⟩
  apply wp_bind
  refine wp_perform answered (fun ω reply t h => ?_) fun e he => failed e (.inr he)
  change Database.exec (.randomBytes 12) ω db = some (reply, t) at h
  simp only [Database.exec] at h
  split_ifs at h
  cases h
  apply wp_liftExcept
  by_cases hkey : env.encryptionKey.length = 32
  · obtain ⟨stored, hstored, hsecret⟩ := Encryption.encrypt_ok env.aes hkey ω.bytes secret
    rw [hstored]
    exact encrypted hkey stored hsecret
  · rw [Encryption.encrypt_error env.aes hkey]
    exact failed _ (.inl hkey)

theorem wp_setup2faTotpFailed {Q : Except Failure Unit → Database → Prop} {error : Failure}
    (h : ∀ e, Q (.error e) db) : (UsersService.setup2faTotpFailed error).Wp (server.failing failure) Q db := by
  unfold UsersService.setup2faTotpFailed
  split
  · exact h _
  · exact h _

theorem wp_users_setup2faTotp {Q : Except Failure Unit → Database → Prop} {encryptedSecret : String}
    (h : db.HasAccount id account)
    (updated : account.two_fa_method = none →
      Q (.ok ()) (db.update id { two_fa_totp_secret := some (some encryptedSecret) }))
    (refused : account.two_fa_method ≠ none → Q (.error (conflictError ErrorMessages.TWO_FA_ALREADY_ACTIVE)) db)
    (failed : (∃ e, failure e = true) → ∀ e, Q (.error e) db) :
    (UsersService.setup2faTotp id encryptedSecret).Wp (server.failing failure) Q db := by
  apply wp_tryCatch
  apply wp_bind
  refine wp_findUser h ?_ fun e he => wp_setup2faTotpFailed (failed ⟨e, he⟩)
  by_cases hmethod : account.two_fa_method = none
  · simp only [hmethod, ne_eq, not_true_eq_false, ↓reduceIte]
    apply wp_bind
    exact wp_updateUser h rfl rfl rfl (updated hmethod) fun e he => wp_setup2faTotpFailed (failed ⟨e, he⟩)
  · simp only [hmethod, ne_eq, not_false_eq_true, ↓reduceIte]
    exact refused hmethod

theorem wp_setup2faTotp {Q : Except Failure TotpSetup → Database → Prop} {user : AuthenticatedUser}
    (h : db.HasAccount user.sub account)
    (updated : env.encryptionKey.length = 32 → account.two_fa_method = none → ∀ setup stored,
      Encryption.decrypt env.aes env.encryptionKey stored = .ok setup.secret →
        Q (.ok setup) (db.update user.sub { two_fa_totp_secret := some (some stored) }))
    (refused : env.encryptionKey.length ≠ 32 ∨ account.two_fa_method ≠ none ∨ (∃ e, failure e = true) →
      ∀ e, Q (.error e) db) :
    (AuthService.setup2faTotp env user).Wp (server.failing failure) Q db := by
  apply wp_bind
  refine wp_perform ⟨{}, _, _, rfl⟩ (fun ω reply t ht => ?_) fun e he => refused (.inr (.inr ⟨e, he⟩)) e
  cases ht
  apply wp_bind
  refine wp_encrypt (fun hkey stored hstored => ?_) fun e he => refused (he.imp id fun he => .inr ⟨e, he⟩) e
  apply wp_bind
  exact wp_users_setup2faTotp h (fun hmethod => updated hkey hmethod _ stored hstored)
    (fun hmethod => refused (.inr (.inl hmethod)) _) fun he => refused (.inr (.inr he))

theorem wp_enableTotp2fa {Q : Except Failure String → Database → Prop} {code : String}
    (h : db.HasAccount id account)
    (enabled : account.acceptsTotp env db.appNow code = true →
      Q (.ok SuccessMessages.TOTP_2FA_ENABLE_SUCCESS)
        (db.update id { two_fa_enabled := some true, two_fa_method := some (some .totp) }))
    (rejected : ∀ e, account.acceptsTotp env db.appNow code = false ∨ failure e = true → Q (.error e) db) :
    (AuthService.enableTotp2fa env id code).Wp (server.failing failure) Q db := by
  apply wp_bind
  refine wp_findOne h ?_ fun e he => rejected e (.inr he)
  apply wp_bind
  refine wp_checkTotp (fun haccepted => ?_) rejected
  apply wp_bind
  exact wp_set2faTotpActiveState h true (enabled haccepted) fun e he => rejected e (.inr he)

theorem wp_disable2fa {Q : Except Failure String → Database → Prop} {code : String}
    (h : db.HasAccount id account)
    (disabled : account.two_fa_method = some .totp → account.acceptsTotp env db.appNow code = true →
      Q (.ok SuccessMessages.TOTP_2FA_DISABLE_SUCCESS) (db.update id
        { two_fa_enabled := some false, two_fa_method := some (some .totp), two_fa_totp_secret := some none }))
    (rejected : ∀ e, Q (.error e) db) :
    (AuthService.disable2fa env id code).Wp (server.failing failure) Q db := by
  apply wp_bind
  refine wp_findOne h ?_ fun e _ => rejected e
  by_cases hmethod : account.two_fa_method = some .totp
  · simp only [hmethod, ↓reduceIte]
    apply wp_bind
    refine wp_checkTotp (fun haccepted => ?_) fun e _ => rejected e
    apply wp_bind
    exact wp_set2faTotpActiveState h false (disabled hmethod haccepted) fun e _ => rejected e
  · simp only [hmethod, ↓reduceIte]
    exact rejected _

end Rules

inductive TwoFactorCall
  | setup (user : AuthenticatedUser)
  | enable (code : String)
  | disable (code : String)

def TwoFactorCall.body (env : Env) (id : UserId) : TwoFactorCall → Action Unit
  | setup user => do let _ ← AuthService.setup2faTotp env { user with sub := id }
  | enable code => do let _ ← AuthService.enableTotp2fa env id code
  | disable code => do let _ ← AuthService.disable2fa env id code

/-- The account of the user `id`, which was fresh at first, after a sequence of calls. Time may pass between
them and each of them may fail. The calls are kept, newest first, with the database they started from. -/
inductive Enrolment (env : Env) (id : UserId) : List (Database × TwoFactorCall) → Database → Prop
  | fresh {db : Database} {account : User} (h : db.HasAccount id account)
      (enabled : account.two_fa_enabled = false) (method : account.two_fa_method = none)
      (secret : account.two_fa_totp_secret = none) : Enrolment env id [] db
  | tick {calls : List (Database × TwoFactorCall)} {db : Database} (h : Enrolment env id calls db) (m : Tick) :
      Enrolment env id calls (server.env m db)
  | call {calls : List (Database × TwoFactorCall)} {db t : Database} {result : Except Failure Unit}
      (h : Enrolment env id calls db) (c : TwoFactorCall) (hexec : Exec server (c.body env id) db result t) :
      Enrolment env id ((db, c) :: calls) t

def Disables (env : Env) (id : UserId) (db : Database) : TwoFactorCall → Bool
  | .disable code => (Database.findById db.tables.users id).any fun account =>
      account.two_fa_method = some .totp && account.acceptsTotp env db.appNow code
  | _ => false

/-- Enabling 2FA with a code that is valid for `secret` succeeds at any later time, and turns 2FA on. -/
def EnablesWith (env : Env) (id : UserId) (secret : String) (db : Database) : Prop :=
  ∀ (m : Tick) (code : String), env.otplib.verifySync secret code (server.env m db).appNow = .ok true →
    (AuthService.enableTotp2fa env id code).Wp server.reliable (fun result t =>
      result = .ok SuccessMessages.TOTP_2FA_ENABLE_SUCCESS ∧
        ∃ account, t.HasAccount id account ∧ account.two_fa_enabled = true) (server.env m db)

def CanEnrol (env : Env) (id : UserId) (db : Database) : Prop :=
  ∀ account, db.HasAccount id account → account.two_fa_enabled = false → ∀ user : AuthenticatedUser,
    user.sub = id →
    (AuthService.setup2faTotp env user).Wp server.reliable (fun result t =>
      ∃ setup, result = .ok setup ∧ EnablesWith env id setup.secret t) db

section Enrolment

variable {env : Env} {id : UserId} {db : Database} {account : User}

theorem Database.HasAccount.unique {account' : User} (h : db.HasAccount id account)
    (h' : db.HasAccount id account') : account = account' := by
  have hfound := h.found
  rw [h'.found] at hfound
  exact (Option.some.inj hfound).symm

theorem Database.HasAccount.tick (h : db.HasAccount id account) (m : Tick) :
    (server.env m db).HasAccount id account :=
  ⟨h.found, h.unlocked⟩

theorem enables_with {stored secret : String} (h : db.HasAccount id account)
    (hstored : account.two_fa_totp_secret = some stored)
    (hsecret : Encryption.decrypt env.aes env.encryptionKey stored = .ok secret) :
    EnablesWith env id secret db := by
  intro m code hcode
  have haccepted : account.acceptsTotp env (server.env m db).appNow code = true := by
    simp only [User.acceptsTotp, hstored, hsecret, hcode]
  refine wp_enableTotp2fa (h.tick m) (fun _ => ⟨rfl, _, (h.tick m).update _, rfl⟩) fun e he => ?_
  rcases he with he | he
  · rw [haccepted] at he
    cases he
  · cases he

theorem canEnrol_iff (h : db.HasAccount id account) : CanEnrol env id db ↔
    (account.two_fa_enabled = false → env.encryptionKey.length = 32 ∧ account.two_fa_method = none) := by
  constructor
  · intro hcan hoff
    have hwp := hcan account h hoff ⟨id, "", .talent, false⟩ rfl
    have hwp' : (AuthService.setup2faTotp env ⟨id, "", .talent, false⟩).Wp server.reliable (fun result _ =>
        (∃ setup, result = .ok setup) → env.encryptionKey.length = 32 ∧ account.two_fa_method = none) db :=
      wp_setup2faTotp h (fun hkey hmethod _ _ _ _ => ⟨hkey, hmethod⟩)
        (by rintro - e ⟨setup, hsetup⟩; cases hsetup)
    obtain ⟨result, t, ⟨setup, hsetup, -⟩, hcond⟩ := hwp.compatible hwp'
    exact hcond ⟨setup, hsetup⟩
  · rintro hcond account' h' hoff user rfl
    obtain rfl := h.unique h'
    obtain ⟨hkey, hmethod⟩ := hcond hoff
    apply wp_setup2faTotp h
    · intro _ _ setup stored hstored
      exact ⟨setup, rfl, enables_with (h.update _) rfl hstored⟩
    · rintro (hkey' | hmethod' | ⟨e, he⟩)
      · exact absurd hkey hkey'
      · exact absurd hmethod hmethod'
      · cases he

theorem off_after_call {t : Database} {result : Except Failure Unit} {c : TwoFactorCall}
    (h : db.HasAccount id account) (hexec : Exec server (c.body env id) db result t) :
    ∃ account', t.HasAccount id account' ∧ (Disables env id db c = false →
      (account.two_fa_enabled = false → account.two_fa_method = none) →
        account'.two_fa_enabled = false → account'.two_fa_method = none) := by
  have same : ∃ account', db.HasAccount id account' ∧ (Disables env id db c = false →
      (account.two_fa_enabled = false → account.two_fa_method = none) →
        account'.two_fa_enabled = false → account'.two_fa_method = none) := ⟨account, h, fun _ hoff => hoff⟩
  have hserver : server = server.failing infrastructureFailure := rfl
  rw [hserver] at hexec
  apply hexec.of_wp (Q := fun _ t => _)
  cases c with
  | setup user =>
    apply wp_bind
    have h' : db.HasAccount { user with sub := id }.sub account := h
    exact wp_setup2faTotp h'
      (fun _ _ _ _ _ => ⟨_, h.update _, fun _ hoff => hoff⟩) fun _ _ => same
  | enable code =>
    apply wp_bind
    exact wp_enableTotp2fa h
      (fun _ => ⟨_, h.update _, fun _ _ hoff => by cases hoff⟩) fun _ _ => same
  | disable code =>
    apply wp_bind
    refine wp_disable2fa h (fun hmethod haccepted => ?_) fun _ => same
    refine ⟨_, h.update _, fun hdisables => ?_⟩
    simp [Disables, h.found, hmethod, haccepted] at hdisables

end Enrolment

/-- Until `disable2fa` accepts a code, 2FA can be enrolled whenever it is off. -/
theorem two_fa_enrollable {env : Env} {id : UserId} {calls : List (Database × TwoFactorCall)} {db : Database}
    (h : Enrolment env id calls db) : ∃ account, db.HasAccount id account ∧
      (CanEnrol env id db ↔ (account.two_fa_enabled = false →
        env.encryptionKey.length = 32 ∧ account.two_fa_method = none)) ∧
      (env.encryptionKey.length = 32 → (∀ c ∈ calls, Disables env id c.1 c.2 = false) →
        CanEnrol env id db) := by
  have hinv : ∃ account, db.HasAccount id account ∧ ((∀ c ∈ calls, Disables env id c.1 c.2 = false) →
      account.two_fa_enabled = false → account.two_fa_method = none) := by
    induction h with
    | @fresh db account h enabled method secret => exact ⟨account, h, fun _ _ => method⟩
    | tick h m ih =>
      obtain ⟨account, hacc, hoff⟩ := ih
      exact ⟨account, hacc.tick m, hoff⟩
    | call h c hexec ih =>
      obtain ⟨account, hacc, hoff⟩ := ih
      obtain ⟨account', hacc', hoff'⟩ := off_after_call hacc hexec
      refine ⟨account', hacc', fun hcalls => ?_⟩
      obtain ⟨hc, hcalls⟩ := List.forall_mem_cons.mp hcalls
      exact hoff' hc (hoff hcalls)
  obtain ⟨account, hacc, hoff⟩ := hinv
  refine ⟨account, hacc, canEnrol_iff hacc, fun hkey hcalls => ?_⟩
  exact (canEnrol_iff hacc).mpr fun hdis => ⟨hkey, hoff hcalls hdis⟩

/-! An account on which 2FA is enrolled, disabled and set up again. -/

namespace EnrolmentRun

def account : User :=
  { sampleUser with two_fa_enabled := false, two_fa_method := none, two_fa_totp_secret := none }

def user : AuthenticatedUser := ⟨1, account.email, .talent, false⟩

def fresh : Database := sampleDatabase [account]

def draws : List Draw := [{ text := "JBSW" }, { bytes := List.replicate 12 7 }, {}, {}]

def call (c : TwoFactorCall) (db : Database) : Option (Except Failure Unit × Database) :=
  (c.body sampleEnv 1).eval server db draws

theorem set_up_isSome : (call (.setup user) fresh).isSome = true := rfl

def setUp : Database := ((call (.setup user) fresh).get set_up_isSome).2

theorem enabled_isSome : (call (.enable "123456") setUp).isSome = true := rfl

def enabled : Database := ((call (.enable "123456") setUp).get enabled_isSome).2

theorem disabled_isSome : (call (.disable "123456") enabled).isSome = true := rfl

def disabled : Database := ((call (.disable "123456") enabled).get disabled_isSome).2

theorem next {calls : List (Database × TwoFactorCall)} {db : Database} (h : Enrolment sampleEnv 1 calls db)
    (c : TwoFactorCall) (hcall : (call c db).isSome = true) :
    Enrolment sampleEnv 1 ((db, c) :: calls) ((call c db).get hcall).2 :=
  h.call c (exec_of_eval (Option.some_get hcall).symm)

theorem enrolment_fresh : Enrolment sampleEnv 1 [] fresh :=
  @Enrolment.fresh sampleEnv 1 fresh account ⟨rfl, rfl⟩ rfl rfl rfl

theorem enrolment_enabled :
    Enrolment sampleEnv 1 [(setUp, .enable "123456"), (fresh, .setup user)] enabled :=
  next (next enrolment_fresh _ set_up_isSome) _ enabled_isSome

theorem enrolment_disabled : Enrolment sampleEnv 1
    [(enabled, .disable "123456"), (setUp, .enable "123456"), (fresh, .setup user)] disabled :=
  next enrolment_enabled _ disabled_isSome

theorem off_in_disabled : ∃ account, disabled.HasAccount 1 account ∧ account.two_fa_enabled = false ∧
    account.two_fa_method = some .totp := by
  have hfound : (Database.findById disabled.tables.users 1).any (fun account =>
      account.two_fa_enabled = false && account.two_fa_method = some .totp) = true := by decide +kernel
  obtain ⟨account, haccount, hoff⟩ := (Option.any_eq_true _ _).mp hfound
  simp only [Bool.and_eq_true, decide_eq_true_eq] at hoff
  exact ⟨account, ⟨haccount, by decide +kernel⟩, hoff⟩

end EnrolmentRun

open EnrolmentRun in
theorem enrolled_in_enrolmentRun : CanEnrol sampleEnv 1 enabled := by
  obtain ⟨account, -, -, hcan⟩ := two_fa_enrollable enrolment_enabled
  exact hcan (by decide +kernel) (by decide +kernel)

open EnrolmentRun in
theorem not_enrollable_after_disable :
    Enrolment sampleEnv 1
      [(enabled, .disable "123456"), (setUp, .enable "123456"), (fresh, .setup user)] disabled ∧
    ((AuthService.setup2faTotp sampleEnv user).eval server disabled draws).bind (fun r => match r.1 with
      | .ok _ => none
      | .error e => some e) = some (conflictError ErrorMessages.TWO_FA_ALREADY_ACTIVE) ∧
    ¬ CanEnrol sampleEnv 1 disabled := by
  refine ⟨enrolment_disabled, by decide +kernel, fun hcan => ?_⟩
  obtain ⟨account, hacc, hoff, hmethod⟩ := off_in_disabled
  obtain ⟨-, hnone⟩ := (canEnrol_iff hacc).mp hcan hoff
  rw [hmethod] at hnone
  cases hnone

end SkillBridge
