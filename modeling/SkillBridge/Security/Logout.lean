import SkillBridge.Security.DeviceSessions

set_option autoImplicit false

/-! What `logoutByRefreshToken` revokes. It reads the row, verifies the token and writes; in between another
request may store a session. -/

namespace SkillBridge

open Interleaving Database Prog

variable {env : Env} {db : Database} {p : ApiPool} {token : Jwt} {id : UserId} {e : ApiEvent}
  {l₁ l₂ : List ApiEvent}

/-- The event of a logout changes the session only of the token, and leaves alone what was stored since the read. -/
structure EndsOwnSession (token : Jwt) (e : ApiEvent) (l : List ApiEvent) : Prop where
  own : ∀ t id, server.Answers e.op e.before e.reply t → storedToken t id ≠ storedToken e.before id →
    storedToken e.before id = some token
  spared : ∀ t id, server.Answers e.op e.before e.reply t → ∀ e' ∈ sinceRead e.pid l, ∀ other,
    sessionWrite id e'.call = some (some other) → storedToken e.before id = some other →
    storedToken t id = some other

def revokedUser (e : ApiEvent) : Option UserId :=
  match e.req, e.call with
  | .logout (some _), ⟨.updateUser id _, .ok (some _)⟩ => some id
  | _, _ => none

/-- No session that another request has stored since the read is there. -/
def NotOvertaken (e : ApiEvent) (l : List ApiEvent) : Prop :=
  ∀ id ∈ revokedUser e, (lastSession id (sinceRead e.pid l)).join = none

instance (e : ApiEvent) (l : List ApiEvent) : Decidable (NotOvertaken e l) := by
  unfold NotOvertaken
  infer_instance

section Read

theorem sinceRead_eq {pid : ℕ} (hown : calls pid l₁ = []) (hpid : e.pid = pid) {row : User}
    (hrow : userRow e.call = some row) : sinceRead pid (l₁ ++ e :: l₂) = l₁ := by
  have hne : ∀ x ∈ l₁, (!(x.pid = pid && (userRow x.call).isSome)) = true := by
    intro x hx
    have hother : x.pid ≠ pid := by
      intro heq
      have hmem : x.call ∈ calls pid l₁ := mem_calls.mpr ⟨x, hx, heq, rfl⟩
      rw [hown] at hmem
      cases hmem
    simp [hother]
  rw [sinceRead, List.takeWhile_append_of_pos hne, List.takeWhile_cons_of_neg (by simp [hpid, hrow]),
    List.append_nil]

theorem lastSession_append (id : UserId) (l₁ l₂ : List ApiEvent) :
    lastSession id (l₁ ++ l₂) = (lastSession id l₁).or (lastSession id l₂) := List.findSome?_append

structure LogsOut (token : Jwt) (id : UserId) (call : ApiCall) (past : List ApiCall) : Prop where
  write : ∃ row, call = done (.updateUser id { refreshTokenHash := some none }) (some row)
  read : ∃ user hash now, past = [done (.findUser none token.payload.sub) (some user), done .dateNow now] ∧
    user.id = id ∧ user.refreshTokenHash = some hash ∧ hash.plain = token

theorem logsOut_of_update {payload : UserPayload} {row : User} {past : List ApiCall}
    (h : Explained env (.logout (some token)) (done (.updateUser id payload) (some row)) past) :
    LogsOut token id (done (.updateUser id payload) (some row)) past := by
  change UserWrite env (.logout (some token)) id payload past at h
  cases h with
  | session issues other =>
    cases issues with
    | onboarding request presented admitted => cases request
  | @logout _ payload now user hash admitted stored matching =>
    obtain ⟨-, -, rfl⟩ := Jwt.verify_eq_ok.mp admitted
    exact ⟨⟨row, rfl⟩, user, hash, now, rfl, rfl, stored, matching⟩

theorem logsOut_of_write {call : ApiCall} {past : List ApiCall} {written : Option Jwt}
    (h : Explained env (.logout (some token)) call past) (hwrite : sessionWrite id call = some written) :
    LogsOut token id call past := by
  unfold sessionWrite at hwrite
  split at hwrite
  · split_ifs at hwrite with hid
    subst hid
    exact logsOut_of_update h
  · obtain ⟨user, tokens, past', issues, ⟨token', hreq⟩, -⟩ := h
    cases hreq
  · obtain ⟨c, hreq⟩ := h
    cases hreq
  · cases hwrite

theorem LogsOut.revokes {call : ApiCall} {past : List ApiCall} (h : LogsOut token id call past) :
    sessionWrite id call = some none := by
  obtain ⟨row, rfl⟩ := h.write
  exact if_pos rfl

theorem exists_of_revokedUser (h : revokedUser e = some id) :
    ∃ payload row, e.call = done (.updateUser id payload) (some row) := by
  unfold revokedUser at h
  split at h
  · rename_i payload row hreq hcall
    cases h
    exact ⟨payload, row, hcall⟩
  · cases h

theorem LogsOut.revokedUser (h : LogsOut token id e.call (calls e.pid l₂)) (hreq : e.req = .logout (some token)) :
    revokedUser e = some id := by
  obtain ⟨row, hcall⟩ := h.write
  obtain ⟨pid, req, before, rfl⟩ := Event.exists_of_call hcall
  obtain rfl : req = .logout (some token) := hreq
  rfl

theorem LogsOut.stored_eq (hp : (api env).Reachable (.start db) p) (htrace : p.world.trace = l₁ ++ e :: l₂)
    (h : LogsOut token id e.call (calls e.pid l₂)) :
    storedToken e.before id = (lastSession id (sinceRead e.pid l₂)).getD (some token) := by
  obtain ⟨user, hash, now, hcalls, rfl, hstored, hplain⟩ := h.read
  obtain ⟨m₁, r, m₂, rfl, hpid, hcall, hnone, -⟩ := exists_of_calls (A := []) hcalls
  obtain ⟨q, -, -, hq, hw, -, -, -⟩ := hp.split htrace List.nil_suffix
  have hread : q.world.trace = m₁ ++ r :: m₂ := by rw [hw]
  obtain ⟨q', -, -, hq', hw', -, -, -⟩ := hq.split hread List.nil_suffix
  have hbefore : storedToken r.before user.id = some token := by
    have hfound : findById r.before.tables.users token.payload.sub = some user :=
      findUser_eq hq (by simp [hread]) hcall
    have hid : user.id = token.payload.sub := findById_id hfound
    exact stored_iff.mpr ⟨user, hash, by rw [hid]; exact hfound, hstored, hplain⟩
  have hsilent : sessionWrite user.id r.call = none := by rw [hcall]; rfl
  have hnow := storedToken_eq hq user.id
  have hthen := storedToken_eq hq' user.id
  rw [hw] at hnow
  rw [hw', hbefore] at hthen
  have hrow : userRow r.call = some user := by rw [hcall]; rfl
  rw [sinceRead_eq hnone hpid hrow, hnow, lastSession_append, lastSession_cons, hsilent, Option.none_or, hthen]
  cases lastSession user.id m₁ <;> rfl

end Read

section Step

variable (hp : (api env).Reachable (.start db) p) (htrace : p.world.trace = l₁ ++ e :: l₂)
  (hreq : e.req = .logout (some token))

include hp htrace hreq

theorem logout_explained : Explained env (.logout (some token)) e.call (calls e.pid l₂) :=
  hreq ▸ (htrace ▸ explained hp).at

theorem EndsOwnSession.notOvertaken (h : EndsOwnSession token e l₂) : NotOvertaken e l₂ := by
  intro id hid
  obtain ⟨payload, row, hcall⟩ := exists_of_revokedUser hid
  have hexplained := logout_explained hp htrace hreq
  have hlogs : LogsOut token id e.call (calls e.pid l₂) := hcall ▸ logsOut_of_update (hcall ▸ hexplained)
  obtain ⟨-, -, t, -, -, -, ha, -⟩ := hp.split htrace List.nil_suffix
  cases hlast : (lastSession id (sinceRead e.pid l₂)).join with
  | none => rfl
  | some other =>
    have hlast : lastSession id (sinceRead e.pid l₂) = some (some other) := Option.join_eq_some_iff.mp hlast
    have hstored : storedToken e.before id = some other := by
      rw [hlogs.stored_eq hp htrace, hlast, Option.getD_some]
    obtain ⟨m₁, e', m₂, hsince, hother, -⟩ := lastSession_iff.mp hlast
    have hspared := h.spared t id ha e' (hsince ▸ by simp) other hother hstored
    have hrevoked : storedToken t id = none := by
      rw [(answers_effect ha).session id, show sessionWrite id ⟨e.op, e.reply⟩ = some none from hlogs.revokes]
      rfl
    rw [hrevoked] at hspared
    cases hspared

theorem NotOvertaken.stored_eq (h : NotOvertaken e l₂) {t : Database} (ha : server.Answers e.op e.before e.reply t)
    (hne : storedToken t id ≠ storedToken e.before id) :
    lastSession id (sinceRead e.pid l₂) = none ∧ storedToken e.before id = some token := by
  have hsession : storedToken t id = (sessionWrite id e.call).getD (storedToken e.before id) :=
    (answers_effect ha).session id
  cases hwrite : sessionWrite id e.call with
  | none => exact absurd (by rw [hsession, hwrite, Option.getD_none]) hne
  | some written =>
    have hlogs := logsOut_of_write (logout_explained hp htrace hreq) hwrite
    have hstored := hlogs.stored_eq hp htrace
    have hlast := h id (hlogs.revokedUser hreq)
    rcases hsince : lastSession id (sinceRead e.pid l₂) with _ | _ | other
    · rw [hsince] at hstored
      exact ⟨rfl, hstored⟩
    · rw [hsession, hlogs.revokes, hstored, hsince] at hne
      exact absurd rfl hne
    · rw [hsince] at hlast
      cases hlast

theorem endsOwnSession_iff : EndsOwnSession token e l₂ ↔ NotOvertaken e l₂ := by
  constructor
  · exact fun h => h.notOvertaken hp htrace hreq
  · intro h
    refine ⟨fun t id ha hne => (h.stored_eq hp htrace hreq ha hne).2, fun t id ha e' hmem other hother hstored => ?_⟩
    by_contra hne
    rw [← hstored] at hne
    have hsilent := List.findSome?_eq_none_iff.mp (h.stored_eq hp htrace hreq ha hne).1 e' hmem
    rw [hsilent] at hother
    cases hother

end Step

/-- In every run the logouts end only their own sessions exactly if no session is stored between the read of a
logout and its write and still there. -/
theorem logout_ends_own_session_iff (hp : (api env).Reachable (.start db) p) :
    Justified (fun e l => ∀ token, e.req = .logout (some token) → EndsOwnSession token e l) p.world.trace ↔
      Justified NotOvertaken p.world.trace := by
  constructor
  · intro h
    refine justified_of_split fun l₁ e l₂ htrace => ?_
    intro id hid
    obtain ⟨token, hreq⟩ : ∃ token, e.req = .logout (some token) := by
      unfold revokedUser at hid
      split at hid
      · exact ⟨_, by assumption⟩
      · cases hid
    exact (endsOwnSession_iff hp htrace hreq).mp ((htrace ▸ h).at token hreq) id hid
  · intro h
    refine justified_of_split fun l₁ e l₂ htrace token hreq => ?_
    exact (endsOwnSession_iff hp htrace hreq).mpr (htrace ▸ h).at

section Runs

def revokedRun : Option ApiPool :=
  (api sampleEnv).play (.start (sampleDatabase [{ sampleUser with two_fa_enabled := false }]))
    [.spawn (.login "user@example.com" "correct horse"), .run 0 {}, .run 0 {}, .run 0 {}, .run 0 {}, .run 0 {},
      .spawn (.logout (some refreshToken)), .run 1 {}, .run 1 {}, .run 1 {}]

theorem revokedRun_isSome : revokedRun.isSome = true := rfl

theorem revokedRun_ends_own_session : storedToken (revokedRun.get revokedRun_isSome).world.state 1 = none ∧
    Justified (fun e l => ∀ token, e.req = .logout (some token) → EndsOwnSession token e l)
      (revokedRun.get revokedRun_isSome).world.trace := by
  have hp := System.reachable_of_play (Option.some_get revokedRun_isSome).symm
  exact ⟨by decide +kernel, (logout_ends_own_session_iff hp).mpr (by decide +kernel)⟩

def overtakenRun : Option ApiPool :=
  (api sampleEnv).play (.start (sampleDatabase [{ sampleUser with two_fa_enabled := false }]))
    [.spawn (.login "user@example.com" "correct horse"), .run 0 {}, .run 0 {}, .run 0 {}, .run 0 {}, .run 0 {},
      .spawn (.logout (some refreshToken)), .run 1 {}, .run 1 {},
      .spawn (.login "user@example.com" "correct horse"), .run 2 {}, .run 2 {}, .run 2 {}, .run 2 {}, .run 2 {},
      .run 1 {}]

theorem overtakenRun_isSome : overtakenRun.isSome = true := rfl

theorem second_device_logged_out : ¬ ∀ (env : Env) (db : Database) (p : ApiPool),
    (api env).Reachable (.start db) p →
    Justified (fun e l => ∀ token, e.req = .logout (some token) → EndsOwnSession token e l) p.world.trace := by
  intro h
  have hp := System.reachable_of_play (Option.some_get overtakenRun_isSome).symm
  obtain ⟨e, l, htrace, hreq, hovertaken⟩ : ∃ e l,
      (overtakenRun.get overtakenRun_isSome).world.trace = [] ++ e :: l ∧
      e.req = .logout (some refreshToken) ∧ ¬ NotOvertaken e l :=
    ⟨_, _, rfl, rfl, by decide +kernel⟩
  have hown := (htrace ▸ h _ _ _ hp).at refreshToken hreq
  exact hovertaken ((endsOwnSession_iff hp htrace hreq).mp hown)

end Runs

end SkillBridge
