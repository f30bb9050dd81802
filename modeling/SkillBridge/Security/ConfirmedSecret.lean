import SkillBridge.Security.TwoFactorEnrolment
import SkillBridge.Security.VerifiedSessions

set_option autoImplicit false

/-! The secret of an account with 2FA, and the code with which 2FA was turned on. -/

namespace SkillBridge

open Interleaving Database Prog

section Definitions

variable (env : Env)

/-- `enableTotp2fa` has read the caller's row behind the guard and checked the code against its secret. -/
inductive Confirms (c : Credentials) (code : String) : UserId → List ApiCall → Prop
  | intro {token : Jwt} {payload : JwtPayload} {now now' : ℕ} {caller row : User} {stored secret : String}
      (presented : c.token = some token) (admitted : token.verify env.JWT_ACCESS_SECRET now = .ok payload)
      (totp : row.two_fa_totp_secret = some stored)
      (decrypted : Encryption.decrypt env.aes env.encryptionKey stored = .ok secret)
      (valid : env.otplib.verifySync secret code now' = .ok true) :
      Confirms c code caller.id [done .dateNow now', done (.findUser none caller.id) (some row),
        done (.findUser none payload.sub) (some caller), done .dateNow now]

def Confirming (req : Request) (c : ApiCall) (past : List ApiCall) : Prop :=
  match req with
  | .enable2faTotp credentials code => ∀ id payload, c.1 = .updateUser id payload → Confirms env credentials code id past
  | _ => True

def StoresSecret (id : UserId) (e : ApiEvent) : Prop :=
  ∃ u ∈ updatedRow e.call, u.1 = id ∧ u.2.two_fa_totp_secret ≠ none

def TurnsOff (id : UserId) (e : ApiEvent) : Prop :=
  ∃ u ∈ updatedRow e.call, u.1 = id ∧ u.2.two_fa_enabled = some false

def sinceRead (pid : ℕ) (l : List ApiEvent) : List ApiEvent :=
  l.takeWhile fun e => !(e.pid = pid && (userRow e.call).isSome)

/-- `setup2faTotp` stores a secret only while 2FA is off, and between the read of an `enableTotp2fa` and its
write no secret is stored or cleared. -/
structure Unraced (e : ApiEvent) (l : List ApiEvent) : Prop where
  setup : ∀ u ∈ updatedRow e.call, u.2.two_fa_totp_secret.join ≠ none →
    ∀ user ∈ e.before.tables.users, user.id = u.1 → user.two_fa_enabled = false
  enable : ∀ u ∈ updatedRow e.call, u.2.two_fa_enabled = some true →
    ∀ e' ∈ sinceRead e.pid l, ¬ StoresSecret u.1 e'

instance (id : UserId) (e : ApiEvent) : Decidable (StoresSecret id e) :=
  inferInstanceAs (Decidable (∃ u ∈ updatedRow e.call, u.1 = id ∧ u.2.two_fa_totp_secret ≠ none))

instance (e : ApiEvent) (l : List ApiEvent) : Decidable (Unraced e l) :=
  decidable_of_iff ((∀ u ∈ updatedRow e.call, u.2.two_fa_totp_secret.join ≠ none →
      ∀ user ∈ e.before.tables.users, user.id = u.1 → user.two_fa_enabled = false) ∧
    ∀ u ∈ updatedRow e.call, u.2.two_fa_enabled = some true → ∀ e' ∈ sinceRead e.pid l, ¬ StoresSecret u.1 e')
    ⟨fun h => ⟨h.1, h.2⟩, fun h => ⟨h.setup, h.enable⟩⟩

structure TurnsOn (id : UserId) (stored : String) (e : ApiEvent) (l : List ApiEvent) : Prop where
  request : ∃ c code, e.req = .enable2faTotp c code
  off : ∃ user ∈ e.before.tables.users, user.id = id ∧ user.two_fa_enabled = false
  on : updatedRow e.call = some (id, { two_fa_enabled := some true, two_fa_method := some (some .totp) })
  checked : ∃ row, row.id = id ∧ row.two_fa_totp_secret = some stored ∧ TotpChecked env e.req row (calls e.pid l)

/-- `stored` is the secret of the last call that turned 2FA on. -/
def ConfirmedWith (id : UserId) (stored : String) (l : List ApiEvent) : Prop :=
  ∃ l₁ e l₂, l = l₁ ++ e :: l₂ ∧ TurnsOn env id stored e l₂ ∧ ∀ e' ∈ l₁, ¬ TurnsOff id e'

/-- A login and then `verify2fa` with a code of the secret succeed, unless an onboarding holds the row. -/
def CanSignIn (secret : String) (user : User) (db : Database) : Prop :=
  (db.others none).any (Write.locks user.id) = false → ∀ password,
    (AuthService.login env user.email password).Wp server.reliable (fun result t => ∃ message state_token,
      result = .ok (.twoFaNeeded message state_token) ∧ ∀ (m : Tick) (code : String),
        (server.env m t).appNow / 1000 < state_token.exp →
        env.otplib.verifySync secret code (server.env m t).appNow = .ok true →
          (AuthController.verify2fa env (some state_token) code).Wp server.reliable (fun result _ =>
            ∃ message tokens, result = .ok (.session message (AuthService.toAuthUser user) tokens))
            (server.env m t)) db

end Definitions

variable {env : Env}

section Enable

theorem enable2faTotp_confirming (c : Credentials) (code : String) :
    (handle env (.enable2faTotp c code)).Along (Confirming env (.enable2faTotp c code)) (fun _ _ => True) [] := by
  have hplain : ∀ (call : ApiCall) l, call.1.Plain → Confirming env (.enable2faTotp c code) call l := by
    rintro ⟨o, r⟩ l h id payload rfl
    exact h.elim
  apply along_bind
  apply (jwtAuthGuard_along hplain c).mono
  intro r l hr
  cases r with
  | error e => trivial
  | ok user =>
    obtain ⟨token, now, payload, caller, htoken, hverify, rfl, rfl⟩ := hr user rfl
    apply along_bind
    apply along_map
    apply along_bind
    apply along_perform_bind
    · exact fun r => hplain _ _ trivial
    · exact fun e => trivial
    intro row
    cases row with
    | none => trivial
    | some row =>
      apply checkTotp_bind_along hplain
      · exact fun e l => trivial
      intro stored secret now' hstored hsecret hvalid
      apply along_bind
      apply along_perform_bind
      · rintro r id payload' ⟨⟩
        exact .intro htoken hverify hstored hsecret hvalid
      · exact fun e => trivial
      · exact fun updated => trivial

theorem handle_confirming (req : Request) :
    (handle env req).Along (Confirming env req) (fun _ _ => True) [] := by
  cases req with
  | enable2faTotp c code => exact enable2faTotp_confirming c code
  | _ => exact along_of_calls (fun _ _ _ => trivial) (handle_footprint env _) fun _ _ _ => trivial

end Enable

section Invariant

variable {db t : Database} {p : ApiPool} {o : Op} {reply : Reply o} {pid : ℕ} {req : Request}
  {w : World backend Database Request}

structure ReadConfirms (env : Env) (id : UserId) (e : ApiEvent) (l l₁ : List ApiEvent) (r : ApiEvent)
    (l₂ : List ApiEvent) (row : User) (stored : String) : Prop where
  request : ∃ c code, e.req = .enable2faTotp c code
  trace : l = l₁ ++ r :: l₂
  call : r.call = done (.findUser none id) (some row)
  since : ∀ e' ∈ l₁, e' ∈ sinceRead e.pid l
  sub : row.id = id
  totp : row.two_fa_totp_secret = some stored
  checked : TotpChecked env e.req row (calls e.pid l)
  decrypts : ∃ secret, Encryption.decrypt env.aes env.encryptionKey stored = .ok secret

inductive TwoFaUpdate (env : Env) (e : ApiEvent) (l : List ApiEvent) (id : UserId) (payload : UserPayload) : Prop
  | other (enabled : payload.two_fa_enabled = none) (method : payload.two_fa_method = none)
      (totp : payload.two_fa_totp_secret = none)
  | setup {stored : String} (enabled : payload.two_fa_enabled = none)
      (totp : payload.two_fa_totp_secret = some (some stored))
  | enable {l₁ l₂ : List ApiEvent} {r : ApiEvent} {row : User} {stored : String}
      (sets : payload = { two_fa_enabled := some true, two_fa_method := some (some .totp) })
      (confirms : ReadConfirms env id e l l₁ r l₂ row stored)
  | disable (enabled : payload.two_fa_enabled = some false)

theorem readConfirms (hp : (api env).Reachable (.start db) p) {l₁ l₂ : List ApiEvent} {e : ApiEvent}
    (htrace : p.world.trace = l₁ ++ e :: l₂) {c : Credentials} {code : String} (hreq : e.req = .enable2faTotp c code)
    {id : UserId} (h : Confirms env c code id (calls e.pid l₂)) :
    ∃ l₃ r l₄ row stored, ReadConfirms env id e l₂ l₃ r l₄ row stored := by
  generalize hcalls : calls e.pid l₂ = past at h
  cases h with
  | @intro token payload now now' caller row stored secret presented admitted totp decrypted valid =>
    obtain ⟨l₃, r, l₄, rfl, hpid, hcall, hnow, -⟩ := exists_of_calls (A := [_]) hcalls
    have hchecked : TotpChecked env e.req row (calls e.pid (l₃ ++ r :: l₄)) := by
      rw [hcalls, hreq]
      exact ⟨code, stored, secret, now', rfl, List.mem_cons_self, totp, decrypted, valid⟩
    refine ⟨l₃, r, l₄, row, stored, ⟨c, code, hreq⟩, rfl, hcall, fun e' he' => ?_, ?_, totp, hchecked,
      secret, decrypted⟩
    · have hunread : ∀ x ∈ l₃, (!(x.pid = e.pid && (userRow x.call).isSome)) = true := by
        intro x hx
        by_cases hown : x.pid = e.pid
        · have hmem : x.call ∈ calls e.pid l₃ := mem_calls.mpr ⟨x, hx, hown, rfl⟩
          rw [hnow, List.mem_singleton] at hmem
          have hnone : userRow x.call = none := by rw [hmem]; rfl
          simp [hnone]
        · simp [hown]
      rw [sinceRead, List.takeWhile_append_of_pos hunread]
      exact List.mem_append_left _ he'
    · have hmem : done (.findUser none caller.id) (some row) ∈ calls e.pid (l₃ ++ r :: l₄) := by
        rw [hcalls]
        exact List.mem_cons_of_mem _ List.mem_cons_self
      exact read_id hp htrace hmem

theorem twoFaUpdate (hp : (api env).Reachable (.start db) p) {l₁ l₂ : List ApiEvent} {e : ApiEvent}
    (htrace : p.world.trace = l₁ ++ e :: l₂) {id : UserId} {payload : UserPayload}
    (h : updatedRow e.call = some (id, payload)) : TwoFaUpdate env e l₂ id payload := by
  have hex : Explained env e.req e.call (calls e.pid l₂) := (htrace ▸ explained hp).at
  have hconfirming : Confirming env e.req e.call (calls e.pid l₂) :=
    (htrace ▸ (System.Reachable.along handle_confirming hp).2).at
  have hread : ∀ c code, e.req = .enable2faTotp c code →
      ∃ l₃ r l₄ row stored, ReadConfirms env id e l₂ l₃ r l₄ row stored := by
    intro c code hreq
    rw [hreq] at hconfirming
    obtain ⟨row, hcall⟩ := exists_of_updatedRow h
    exact readConfirms hp htrace hreq (hconfirming id payload (by rw [hcall]))
  obtain ⟨row, hcall⟩ := exists_of_updatedRow h
  rw [hcall] at hex
  generalize hreq : e.req = req at hex hread
  generalize calls e.pid l₂ = past at hex
  change UserWrite env req id payload past at hex
  cases hex with
  | setup2faTotp inactive => exact .setup rfl rfl
  | enableTotp2fa =>
    obtain ⟨l₃, r, l₄, row, stored, hconfirms⟩ := hread _ _ rfl
    exact .enable rfl hconfirms
  | disable2fa => exact .disable rfl
  | _ => exact .other rfl rfl rfl

structure ConfirmedSecrets (env : Env) (w : World backend Database Request) : Prop where
  constraints : w.state.Constraints
  read : ∀ l₁ e l₂ id row, w.trace = l₁ ++ e :: l₂ → e.call = done (.findUser none id) (some row) →
    Taken w.state row.id ∧ ((∀ e' ∈ l₁, ¬ StoresSecret row.id e') →
      ∀ user ∈ w.state.tables.users, user.id = row.id → user.two_fa_totp_secret = row.two_fa_totp_secret)
  confirmed : ∀ user ∈ w.state.tables.users, user.two_fa_enabled = true → user.two_fa_method = some .totp ∧
    ∃ stored secret, user.two_fa_totp_secret = some stored ∧
      Encryption.decrypt env.aes env.encryptionKey stored = .ok secret ∧ ConfirmedWith env user.id stored w.trace

theorem ConfirmedWith.cons {id : UserId} {stored : String} {l : List ApiEvent} {e : ApiEvent}
    (h : ConfirmedWith env id stored l) (he : ¬ TurnsOff id e) : ConfirmedWith env id stored (e :: l) := by
  obtain ⟨l₁, e', l₂, rfl, hon, hoff⟩ := h
  exact ⟨e :: l₁, e', l₂, rfl, hon, List.forall_mem_cons.mpr ⟨he, hoff⟩⟩

theorem ConfirmedSecrets.read_step (h : ConfirmedSecrets env w) (ha : server.Answers o w.state reply t) :
    ∀ l₁ e l₂ id row, (w.perform pid req o reply t).trace = l₁ ++ e :: l₂ →
      e.call = done (.findUser none id) (some row) → Taken t row.id ∧ ((∀ e' ∈ l₁, ¬ StoresSecret row.id e') →
        ∀ user ∈ t.tables.users, user.id = row.id → user.two_fa_totp_secret = row.two_fa_totp_secret) := by
  intro l₁ e l₂ id row htrace hcall
  cases l₁ with
  | nil =>
    obtain ⟨rfl, rfl⟩ := List.cons.inj htrace
    obtain ⟨ω, hexec⟩ := exec_of_answers ha hcall
    cases hcall
    injection hexec with hexec
    injection hexec with hreply hstate
    injection hreply with hfound
    subst hstate
    have hmem : row ∈ w.state.tables.users := List.mem_of_find?_eq_some hfound
    refine ⟨h.constraints.taken hmem, fun _ user huser hid => ?_⟩
    rw [h.constraints.eq_of_id huser hmem hid]
  | cons e' l₁ =>
    obtain rfl := (List.cons.inj htrace).1
    obtain ⟨htaken, hsame⟩ := h.read l₁ e l₂ id row (List.cons.inj htrace).2 hcall
    refine ⟨htaken.step ha, fun hnone user huser hid => ?_⟩
    obtain ⟨hnew, hnone⟩ := List.forall_mem_cons.mp hnone
    obtain ⟨old, hold, hoid, hrow⟩ := ((answers_effect ha).row_origin huser).of_taken (hid ▸ htaken)
    rw [← hsame hnone old hold (hoid.trans hid)]
    rcases hrow with rfl | rfl | ⟨hash, rfl⟩ | ⟨payload, hupdated, rfl⟩
    · rfl
    · rfl
    · rfl
    · have hsecret : payload.two_fa_totp_secret = none := by
        by_contra hne
        exact hnew ⟨_, hupdated, hid, hne⟩
      rw [UserPayload.apply_two_fa_totp_secret, hsecret, Option.getD_none]

theorem ConfirmedSecrets.confirmed_step (h : ConfirmedSecrets env w) (ha : server.Answers o w.state reply t)
    (hstep : ∀ id payload, updatedRow ⟨o, reply⟩ = some (id, payload) →
      TwoFaUpdate env ⟨pid, req, w.state, o, reply⟩ w.trace id payload)
    (hunraced : Unraced ⟨pid, req, w.state, o, reply⟩ w.trace) {user : User} (hmem : user ∈ t.tables.users)
    (hon : user.two_fa_enabled = true) : user.two_fa_method = some .totp ∧
      ∃ stored secret, user.two_fa_totp_secret = some stored ∧
        Encryption.decrypt env.aes env.encryptionKey stored = .ok secret ∧
        ConfirmedWith env user.id stored (w.perform pid req o reply t).trace := by
  have kept : ∀ old ∈ w.state.tables.users, old.id = user.id → old.two_fa_enabled = user.two_fa_enabled →
      old.two_fa_method = user.two_fa_method → old.two_fa_totp_secret = user.two_fa_totp_secret →
      ¬ TurnsOff user.id ⟨pid, req, w.state, o, reply⟩ → user.two_fa_method = some .totp ∧
        ∃ stored secret, user.two_fa_totp_secret = some stored ∧
          Encryption.decrypt env.aes env.encryptionKey stored = .ok secret ∧
          ConfirmedWith env user.id stored (w.perform pid req o reply t).trace := by
    intro old hold hid henabled hmethod htotp hoff
    obtain ⟨hm, stored, secret, hstored, hsecret, hconfirmed⟩ := h.confirmed old hold (henabled.trans hon)
    exact ⟨hmethod ▸ hm, stored, secret, htotp ▸ hstored, hsecret, (hid ▸ hconfirmed).cons hoff⟩
  cases (answers_effect ha).row_origin hmem with
  | kept old untouched =>
    exact kept user old rfl rfl rfl rfl fun ⟨⟨_, payload⟩, hupdated, hid, _⟩ => untouched payload (hid ▸ hupdated)
  | inserted new =>
    rw [new] at hon
    cases hon
  | rotated old => exact kept _ old rfl rfl rfl rfl fun ⟨_, hupdated, _⟩ => by cases hupdated
  | @committed tx base _ old row =>
    rcases old with old | ⟨payload, id, createdAt, -, rfl⟩
    · rcases row with rfl | ⟨rfl, -⟩
      · exact kept _ old rfl rfl rfl rfl fun ⟨_, hupdated, _⟩ => by cases hupdated
      · exact kept _ old rfl rfl rfl rfl fun ⟨_, hupdated, _⟩ => by cases hupdated
    · rcases row with rfl | ⟨rfl, -⟩ <;> cases hon
  | @updated payload old row hold =>
    cases hstep old.id payload rfl with
    | other enabled method totp =>
      apply kept old hold rfl
      · rw [UserPayload.apply_two_fa_enabled, enabled, Option.getD_none]
      · rw [UserPayload.apply_two_fa_method, method, Option.getD_none]
      · rw [UserPayload.apply_two_fa_totp_secret, totp, Option.getD_none]
      · rintro ⟨u, hupdated, -, hoff⟩
        cases hupdated
        rw [enabled] at hoff
        cases hoff
    | setup enabled totp =>
      have hoff := hunraced.setup (old.id, payload) rfl (by rw [totp]; exact Option.some_ne_none _) old hold rfl
      rw [UserPayload.apply_two_fa_enabled, enabled, Option.getD_none, hoff] at hon
      cases hon
    | disable enabled =>
      rw [UserPayload.apply_two_fa_enabled, enabled] at hon
      cases hon
    | @enable l₁ l₂ r read stored sets confirms =>
      subst sets
      refine ⟨rfl, ?_⟩
      have hsame : old.two_fa_totp_secret = read.two_fa_totp_secret := by
        refine (h.read l₁ r l₂ old.id read confirms.trace confirms.call).2 ?_ old hold confirms.sub.symm
        intro e' he'
        rw [confirms.sub]
        exact hunraced.enable (old.id, _) rfl rfl e' (confirms.since e' he')
      obtain ⟨secret, hsecret⟩ := confirms.decrypts
      refine ⟨stored, secret, hsame.trans confirms.totp, hsecret, ?_⟩
      by_cases henabled : old.two_fa_enabled = true
      · obtain ⟨-, stored', secret', hstored', -, hconfirmed⟩ := h.confirmed old hold henabled
        rw [hsame, confirms.totp] at hstored'
        cases hstored'
        refine hconfirmed.cons ?_
        rintro ⟨u, hupdated, -, hoff⟩
        cases hupdated
        cases hoff
      · refine ⟨[], _, w.trace, rfl, ⟨confirms.request, ⟨old, hold, rfl, by simpa using henabled⟩, rfl, ?_⟩, ?_⟩
        · exact ⟨read, confirms.sub, confirms.totp, confirms.checked⟩
        · exact fun e' he' => absurd he' List.not_mem_nil

theorem confirmedSecrets (hc : db.Constraints) (hoff : ∀ user ∈ db.tables.users, user.two_fa_enabled = false)
    (hp : (api env).Reachable (.start db) p) (hrun : Justified Unraced p.world.trace) :
    ConfirmedSecrets env p.world := by
  refine System.Reachable.invariant (C := fun e l => Unraced e l ∧
      ∀ id payload, updatedRow e.call = some (id, payload) → TwoFaUpdate env e l id payload) ?_ ?_ ?_ hp
    (justified_of_split fun l₁ e l₂ htrace =>
      ⟨(htrace ▸ hrun).at, fun id payload hupdated => twoFaUpdate hp htrace hupdated⟩)
  · refine ⟨hc, fun l₁ e l₂ id row htrace _ => ?_, fun user hmem hon => ?_⟩
    · cases l₁ <;> cases htrace
    · rw [hoff user hmem] at hon
      cases hon
  · rintro m w ⟨constraints, read, confirmed⟩
    refine ⟨⟨constraints.apart, constraints.rowIds, constraints.linkIds, constraints.keys, constraints.keysLt⟩,
      fun l₁ e l₂ id row htrace hcall => ?_, confirmed⟩
    obtain ⟨⟨hlt, hpending⟩, hsame⟩ := read l₁ e l₂ id row htrace hcall
    exact ⟨⟨hlt, hpending⟩, hsame⟩
  · intro w pid req o reply t h ha hC
    exact ⟨h.constraints.step (answers_effect ha), h.read_step ha,
      fun user hmem => h.confirmed_step ha hC.2 hC.1 hmem⟩

end Invariant

section SignIn

variable {db : Database} {id : UserId} {user : User} {failure : Failure → Bool}

theorem wp_verify2fa {Q : Except Failure Response → Database → Prop} {state_token : Jwt} {code : String}
    (h : db.HasAccount user.id user) (enabled : user.two_fa_enabled = true) (method : user.two_fa_method = some .totp)
    (secret : state_token.secret = env.JWT_ACCESS_SECRET) (sub : state_token.payload.sub = user.id)
    (pending : state_token.payload.type = some "2fa_pending") (unexpired : db.appNow / 1000 < state_token.exp)
    (accepted : user.acceptsTotp env db.appNow code = true)
    (issued : ∀ tokens t, Q (.ok (.session SuccessMessages.LOGIN (AuthService.toAuthUser user) tokens)) t) :
    (AuthController.verify2fa env (some state_token) code).Wp server.reliable Q db := by
  have reliable : ∀ e : Failure, ¬ (fun _ => false) e = true := fun _ he => Bool.false_ne_true he
  apply wp_bind
  apply wp_bind
  refine wp_perform_of_eq (fun _ => rfl) ?_ fun e he => absurd he (reliable e)
  simp only [Jwt.verify_eq_ok.mpr ⟨secret, unexpired, rfl⟩, pending, if_true, sub]
  apply wp_bind
  apply wp_bind
  refine wp_findOne h ?_ fun e he => absurd he (reliable e)
  simp only [enabled, method, Bool.true_eq_false, reduceCtorEq, or_self, if_false]
  apply wp_bind
  refine wp_checkTotp (fun _ => ?_) fun e he => ?_
  · exact wp_issueTokens h (fun tokens _ t _ => issued tokens t) fun e t he => absurd he (reliable e)
  · rw [accepted] at he
    exact absurd (he.resolve_left Bool.true_eq_false.mp) (reliable e)

theorem can_sign_in {stored secret : String} (hc : db.Constraints) (hmem : user ∈ db.tables.users)
    (verified : user.is_verified = true) (enabled : user.two_fa_enabled = true)
    (method : user.two_fa_method = some .totp) (totp : user.two_fa_totp_secret = some stored)
    (decrypted : Encryption.decrypt env.aes env.encryptionKey stored = .ok secret) :
    CanSignIn env secret user db := by
  intro unlocked password
  have haccount : db.HasAccount user.id user := ⟨hc.find_user hmem, unlocked⟩
  have hfound : ∀ ω, server.reliable.exec (.findUserByEmail user.email) ω db = some (.ok (some user), db) :=
    fun _ => congrArg (fun row => some (Except.ok row, db)) (hc.find_email hmem)
  apply wp_bind
  refine wp_perform_of_eq hfound ?_ fun e he => absurd he Bool.false_ne_true
  unfold AuthService.loginUser
  simp only [verified, enabled, Bool.true_eq_false, if_false, if_true]
  apply wp_bind
  refine wp_signAsync ?_ fun e he => absurd he Bool.false_ne_true
  refine ⟨_, _, rfl, fun m code unexpired valid => ?_⟩
  have haccount' : (server.env m db.tick).HasAccount user.id user := ⟨haccount.found, haccount.unlocked⟩
  refine wp_verify2fa haccount' enabled method rfl rfl rfl unexpired ?_ fun tokens t => ⟨_, tokens, rfl⟩
  simp only [User.acceptsTotp, totp, decrypted, valid]

end SignIn

section Runs

variable {db : Database} {p : ApiPool}

theorem Known.mono {l₁ l₂ : List ApiEvent} {id : UserId} (h : Known l₂ id) : Known (l₁ ++ l₂) id := by
  rcases h with ⟨e, he, hshows⟩ | ⟨token, ⟨e, he, hm⟩, hsub⟩
  · exact .inl ⟨e, List.mem_append_right l₁ he, hshows⟩
  · exact .inr ⟨token, ⟨e, List.mem_append_right l₁ he, hm⟩, hsub⟩

theorem known_of_confirmedWith (hp : (api env).Reachable (.start db) p) {id : UserId} {stored : String}
    (h : ConfirmedWith env id stored p.world.trace) : Known p.world.trace id := by
  obtain ⟨l₁, e, l₂, htrace, hon, -⟩ := h
  obtain ⟨c, code, hreq⟩ := hon.request
  have hconfirming : Confirming env e.req e.call (calls e.pid l₂) :=
    (htrace ▸ (System.Reachable.along handle_confirming hp).2).at
  rw [hreq] at hconfirming
  obtain ⟨row, hcall⟩ := exists_of_updatedRow hon.on
  have hconfirms := hconfirming id _ (by rw [hcall])
  generalize hcalls : calls e.pid l₂ = past at hconfirms
  cases hconfirms with
  | @intro token payload now now' caller read stored secret presented admitted =>
    obtain ⟨hsecret, -, rfl⟩ := Jwt.verify_eq_ok.mp admitted
    have hcaller : done (.findUser none token.payload.sub) (some caller) ∈ calls e.pid l₂ := by
      rw [hcalls]
      simp
    have hmem : token ∈ e.req.jwts := mem_jwts_of_credentials (c := c) (by rw [hreq]; rfl) presented
    rw [read_id hp htrace hcaller, htrace, ← List.singleton_append, ← List.append_assoc]
    exact (known_of_presented hp htrace hmem (.inl hsecret)).mono

/-- In every run without the two races, the secret of a user with 2FA is the one whose code turned 2FA on,
and the user can sign in with it. -/
theorem two_fa_secret_confirmed (hseed : Seeded db) (hoff : ∀ user ∈ db.tables.users, user.two_fa_enabled = false)
    (hp : (api env).Reachable (.start db) p) (hrun : Justified Unraced p.world.trace) :
    ∀ user ∈ p.world.state.tables.users, user.two_fa_enabled = true → ∃ stored secret,
      user.two_fa_totp_secret = some stored ∧ Encryption.decrypt env.aes env.encryptionKey stored = .ok secret ∧
      ConfirmedWith env user.id stored p.world.trace ∧ CanSignIn env secret user p.world.state := by
  intro user hmem enabled
  have h := confirmedSecrets hseed.constraints hoff hp hrun
  obtain ⟨method, stored, secret, totp, decrypted, hconfirmed⟩ := h.confirmed user hmem enabled
  have hsettled := (verifiedOnly hseed hp).known (known_of_confirmedWith hp hconfirmed)
  exact ⟨stored, secret, totp, decrypted, hconfirmed,
    can_sign_in h.constraints hmem (hsettled.2 user hmem rfl) enabled method totp decrypted⟩

def enrollingDatabase : Database := sampleDatabase [EnrolmentRun.account]

def caller : Credentials := { accessCookie := some accessToken }

def setUpRun : Option ApiPool :=
  (api sampleEnv).play (.start enrollingDatabase)
    [.spawn (.login "user@example.com" "correct horse"), .run 0 {}, .run 0 {}, .run 0 {}, .run 0 {}, .run 0 {},
      .spawn (.setup2faTotp caller), .run 1 {}, .run 1 {}, .run 1 { text := "JBSW" },
      .run 1 { bytes := List.replicate 12 7 }, .run 1 {}, .run 1 {}]

theorem setUpRun_isSome : setUpRun.isSome = true := rfl

def confirmedRun : Option ApiPool :=
  (api sampleEnv).play (setUpRun.get setUpRun_isSome)
    [.spawn (.enable2faTotp caller "123456"), .run 2 {}, .run 2 {}, .run 2 {}, .run 2 {}, .run 2 {}]

theorem confirmedRun_isSome : confirmedRun.isSome = true := rfl

/-- While one `enableTotp2fa` has checked its code, another one and a `disable2fa` come and go. -/
def racedRun : Option ApiPool :=
  (api sampleEnv).play (setUpRun.get setUpRun_isSome)
    [.spawn (.enable2faTotp caller "123456"), .run 2 {}, .run 2 {}, .run 2 {}, .run 2 {},
      .spawn (.enable2faTotp caller "123456"), .run 3 {}, .run 3 {}, .run 3 {}, .run 3 {}, .run 3 {},
      .spawn (.disable2fa caller "123456"), .run 4 {}, .run 4 {}, .run 4 {}, .run 4 {}, .run 4 {}, .run 2 {}]

theorem racedRun_isSome : racedRun.isSome = true := rfl

theorem seeded_enrollingDatabase : Seeded enrollingDatabase := seeded_singleton rfl (by decide)

theorem confirmed_in_confirmedRun : ∃ user ∈ (confirmedRun.get confirmedRun_isSome).world.state.tables.users,
    user.two_fa_enabled = true ∧ ∃ stored secret, user.two_fa_totp_secret = some stored ∧
      ConfirmedWith sampleEnv user.id stored (confirmedRun.get confirmedRun_isSome).world.trace ∧
      CanSignIn sampleEnv secret user (confirmedRun.get confirmedRun_isSome).world.state := by
  have hp := (System.reachable_of_play (Option.some_get setUpRun_isSome).symm).trans
    (System.reachable_of_play (Option.some_get confirmedRun_isSome).symm)
  have hon : ((confirmedRun.get confirmedRun_isSome).world.state.tables.users.any fun user =>
      user.two_fa_enabled) = true := by decide +kernel
  obtain ⟨user, hmem, enabled⟩ := List.any_eq_true.mp hon
  obtain ⟨stored, secret, totp, -, hconfirmed, hsignIn⟩ := two_fa_secret_confirmed seeded_enrollingDatabase
    (by decide) hp (by decide +kernel) user hmem enabled
  exact ⟨user, hmem, enabled, stored, secret, totp, hconfirmed, hsignIn⟩

theorem two_fa_without_secret : Seeded enrollingDatabase ∧
    (∀ user ∈ enrollingDatabase.tables.users, user.two_fa_enabled = false) ∧
    ∃ p, (api sampleEnv).Reachable (.start enrollingDatabase) p ∧
      ∃ user ∈ p.world.state.tables.users, user.two_fa_enabled = true ∧ user.two_fa_totp_secret = none := by
  have hp := (System.reachable_of_play (Option.some_get setUpRun_isSome).symm).trans
    (System.reachable_of_play (Option.some_get racedRun_isSome).symm)
  have hlost : ((racedRun.get racedRun_isSome).world.state.tables.users.any fun user =>
      user.two_fa_enabled && user.two_fa_totp_secret.isNone) = true := by decide +kernel
  obtain ⟨user, hmem, h⟩ := List.any_eq_true.mp hlost
  simp only [Bool.and_eq_true, Option.isNone_iff_eq_none] at h
  exact ⟨seeded_enrollingDatabase, by decide, _, hp, user, hmem, h⟩

end Runs

end SkillBridge
