import SkillBridge.OneTimeCodes.Calls
import SkillBridge.Users.Service

set_option autoImplicit false

/-! A one-time code is accepted once, for a row that was live, and not after its invalidation. -/

namespace SkillBridge

open Interleaving Database

variable {env : Env} {db : Database} {p q : OtpPool} {table : OtpTable} {id : OtpId}

def usesCode (table : OtpTable) (id : OtpId) : ApiCall → Bool
  | ⟨.markOtpUsed table' id', .ok used⟩ => decide (table' = table ∧ id' = id) && used
  | _ => false

theorem usesCode_iff {c : ApiCall} : usesCode table id c = true ↔ c = done (.markOtpUsed table id) true := by
  constructor
  · intro h
    unfold usesCode at h
    split at h
    · obtain ⟨hid, hused⟩ := Bool.and_eq_true_iff.mp h
      obtain ⟨rfl, rfl⟩ := of_decide_eq_true hid
      rename_i used
      rw [show used = true from hused]
    · cases h
  · rintro rfl
    exact Bool.and_eq_true_iff.mpr ⟨decide_eq_true ⟨rfl, rfl⟩, rfl⟩

def Invalidates (table : OtpTable) (id : OtpId) (e : OtpEvent) : Prop :=
  ∃ otp ∈ e.before.tables.otps table, otp.id = id ∧ otp.Active e.before.dbNow ∧
    e.call = done (.invalidateActiveOtps table otp.userId) ()

def IssuedTo (table : OtpTable) (userId : UserId) (code : String) (otp : Otp) (l : List OtpEvent) : Prop :=
  ∃ l₁ e l₂ requestSource payload, l = l₁ ++ e :: l₂ ∧ e.req = .issue table userId requestSource ∧
    e.call = done (.insertOtp table payload) otp ∧ done (.hashText code) otp.otpHash ∈ calls e.pid l₂

theorem otpSplit (hp : (otpCalls env).Reachable (.start db) p) {l₁ l₂ : List OtpEvent} {e : OtpEvent}
    (htrace : p.world.trace = l₁ ++ e :: l₂) : ∃ q t q', (otpCalls env).Reachable (.start db) q ∧
      q.world = ⟨e.before, l₂⟩ ∧ server.Answers e.op e.before e.reply t ∧
      (otpCalls env).Reachable (.start db) q' ∧ q'.world = ⟨t, e :: l₂⟩ ∧ (otpCalls env).Reachable q' p := by
  obtain ⟨q, k, t, hq, hw, hk, ha, hqp⟩ := System.Reachable.split hp htrace List.nil_suffix
  exact ⟨q, t, _, hq, hw, ha, hq.tail (.run hk (hw ▸ ha)), by simp only [Pool.answer, World.perform, hw], hqp⟩

theorem effect_of_answers {e : OtpEvent} {t : Database} (ha : server.Answers e.op e.before e.reply t) {o : Op}
    {r : o.Res} (hcall : e.call = done o r) : Effect e.before o (.ok r) t := by
  obtain ⟨ω, hexec⟩ := exec_of_answers ha hcall
  exact exec_effect hexec

theorem not_used_of_spent (hk : OtpKeys table db)
    (hq : (otpCalls env).Reachable (.start db) q) (hspent : Spent table id q.world.state)
    (hqp : (otpCalls env).Reachable q p) {l : List OtpEvent} (hl : p.world.trace = l ++ q.world.trace) :
    ∀ e ∈ l, usesCode table id e.call = false := by
  intro e he
  by_contra huses
  obtain ⟨l₁, l₂, rfl⟩ := List.append_of_mem he
  have htrace : p.world.trace = l₁ ++ e :: (l₂ ++ q.world.trace) := by simpa using hl
  obtain ⟨r, k, t, hr, hw, -, ha, -⟩ := System.Reachable.split hqp htrace (List.suffix_append _ _)
  have hrspent : Spent table id e.before := by
    have := spent_later hspent hr
    rwa [hw] at this
  have hrkeys : OtpKeys table e.before := by
    have := otpKeys hk (hq.trans hr)
    rwa [hw] at this
  have hcall := usesCode_iff.mp (by simpa using huses)
  obtain ⟨-, otp, hm, hid, hunused⟩ := spent_of_used hrkeys (effect_of_answers ha hcall)
  exact hrspent.used otp hm hid hunused

theorem used_once (hk : OtpKeys table db) (hp : (otpCalls env).Reachable (.start db) p) {l₁ l₂ : List OtpEvent}
    {e : OtpEvent} (htrace : p.world.trace = l₁ ++ e :: l₂) (huses : usesCode table id e.call = true) :
    ∀ e' ∈ l₁, usesCode table id e'.call = false := by
  obtain ⟨q, t, q', hq, hw, ha, hq', hw', hqp⟩ := otpSplit hp htrace
  have hkeys : OtpKeys table e.before := by
    have := otpKeys hk hq
    rwa [hw] at this
  have hspent := (spent_of_used hkeys (effect_of_answers ha (usesCode_iff.mp huses))).1
  exact not_used_of_spent hk hq' (by rw [hw']; exact hspent) hqp (by rw [htrace, hw'])

theorem not_used_after_invalidation (hk : OtpKeys table db) (hp : (otpCalls env).Reachable (.start db) p)
    {l₁ l₂ : List OtpEvent} {e : OtpEvent} (htrace : p.world.trace = l₁ ++ e :: l₂)
    (hinvalidates : Invalidates table id e) : ∀ e' ∈ l₁, usesCode table id e'.call = false := by
  obtain ⟨q, t, q', hq, hw, ha, hq', hw', hqp⟩ := otpSplit hp htrace
  obtain ⟨otp, hm, rfl, hactive, hcall⟩ := hinvalidates
  have hkeys : OtpKeys table e.before := by
    have := otpKeys hk hq
    rwa [hw] at this
  have hspent := spent_of_invalidated hkeys (effect_of_answers ha hcall) hm rfl hactive
  exact not_used_of_spent hk hq' (by rw [hw']; exact hspent) hqp (by rw [htrace, hw'])

theorem issuedTo_of_inserted (hp : (otpCalls env).Reachable (.start db) p) {l₁ l₂ : List OtpEvent}
    {e : OtpEvent} (htrace : p.world.trace = l₁ ++ e :: l₂) {payload : NewOtp} {otp : Otp}
    (hcall : e.call = done (.insertOtp table payload) otp) :
    IssuedTo table otp.userId otp.otpHash.plain otp p.world.trace := by
  have hstep : OtpStep env e.req e.call (calls e.pid l₂) := (htrace ▸ otpSteps hp).at
  obtain ⟨ω, t, hexec⟩ := otpExec hp (mem_of_split htrace e List.mem_cons_self) hcall
  obtain ⟨hotp, -⟩ := inserted_eq (exec_effect hexec)
  rw [hcall] at hstep
  obtain ⟨userId, requestSource, code, now, n, hreq, huser, -, hpast⟩ := hstep
  have hhash : done (.hashText code) otp.otpHash ∈ calls e.pid l₂ := by
    rw [hpast, hotp]
    exact List.mem_cons_self
  obtain ⟨x, hx, -, hxcall⟩ := exists_of_mem_calls htrace hhash
  obtain ⟨ω', t', hexec'⟩ := otpExec hp hx hxcall
  have hcode : otp.otpHash.plain = code := by
    injection hexec' with hexec'
    injection hexec' with hreply
    rw [← Except.ok.inj hreply]
  refine ⟨l₁, e, l₂, requestSource, payload, htrace, ?_, hcall, hcode ▸ hhash⟩
  rw [hreq, hotp, ← huser]
  rfl

/-- Each row makes one `consume` succeed at most, `consume` succeeds only with the code of a row that was
issued to the user and live when it was selected, and never with a row that was invalidated before. -/
theorem otp_single_use (hk : ∀ table, OtpKeys table db) (hp : (otpCalls env).Reachable (.start db) p) :
    (∀ table id, p.world.trace.countP (fun e => usesCode table id e.call) ≤ 1) ∧
    (∀ pid proc table userId code, p.procs[pid]? = some proc → proc.req = .consume table userId code →
      proc.prog = .ret (.consumed true) → ∃ l₁ e l₂ s l₃ otp, p.world.trace = l₁ ++ e :: (l₂ ++ s :: l₃) ∧
        e.pid = pid ∧ usesCode table otp.id e.call = true ∧
        s.pid = pid ∧ s.call = done (.findLatestOtp table userId) (some otp) ∧
        otp ∈ s.before.tables.otps table ∧ otp.Active s.before.dbNow ∧
        otp.userId = userId ∧ otp.otpHash.plain = code ∧
        (otp ∈ db.tables.otps table ∨ IssuedTo table userId code otp l₃)) ∧
    (∀ l₁ e l₂ table id, p.world.trace = l₁ ++ e :: l₂ → usesCode table id e.call = true →
      ∀ e' ∈ l₂, ¬ Invalidates table id e') := by
  refine ⟨fun table id => countP_le_one fun l₁ e l₂ htrace huses => used_once (hk table) hp htrace huses,
    ?_, ?_⟩
  · intro pid proc table userId code hproc hreq hret
    have hreturns := otpReturns hp hproc hret
    rw [hreq] at hreturns
    obtain ⟨otp, hplain, hcalls⟩ := hreturns
    obtain ⟨l₁, e, l, htrace, hepid, hecall, -, hrest⟩ := exists_of_calls (A := []) hcalls
    obtain ⟨l₂, s, l₃, rfl, hspid, hscall, -, -⟩ := exists_of_calls (A := []) hrest
    have htrace' : p.world.trace = (l₁ ++ e :: l₂) ++ s :: l₃ := by simp [htrace]
    obtain ⟨ω, t, hexec⟩ := otpExec hp (by rw [htrace']; simp) hscall
    injection hexec with hexec
    injection hexec with hreply
    have hlatest : s.before.findLatestOtp table userId ω.number = some otp := Except.ok.inj hreply
    obtain ⟨hm, huser, hactive⟩ := mem_of_findLatestOtp hlatest
    refine ⟨l₁, e, l₂, s, l₃, otp, htrace, hepid, usesCode_iff.mpr hecall, hspid, hscall, hm, hactive, huser,
      hplain, ?_⟩
    obtain ⟨q, t, q', hq, hw, -⟩ := otpSplit hp htrace'
    rcases unused_since hq (by rw [hw]; exact hm) hactive.1 with hold | ⟨l₄, i, l₅, payload, hqtrace, hicall⟩
    · exact .inl hold
    · have hissued := issuedTo_of_inserted hq hqtrace hicall
      rw [huser, hplain, hw] at hissued
      exact .inr hissued
  · intro l₁ e l₂ table id htrace huses e' he' hinvalidates
    obtain ⟨l₃, l₄, rfl⟩ := List.append_of_mem he'
    have hnot := not_used_after_invalidation (hk table) hp
      (show p.world.trace = (l₁ ++ e :: l₃) ++ e' :: l₄ by simp [htrace]) hinvalidates e (by simp)
    rw [huses] at hnot
    cases hnot

section Runs

theorem otpKeys_sampleDatabase (users : List User) (table : OtpTable) : OtpKeys table (sampleDatabase users) :=
  ⟨List.nodup_nil, by simp [sampleDatabase]⟩

def otpRun : Option OtpPool :=
  (otpCalls sampleEnv).play (.start (sampleDatabase [sampleUser]))
    [.spawn (.issue .verification_otps 1 .initial), .run 0 {}, .run 0 { number := 654321 }, .run 0 {},
      .run 0 {},
      .run 0 {}, .spawn (.consume .verification_otps 1 "654321"), .run 1 {}, .run 1 {}]

theorem otpRun_isSome : otpRun.isSome = true := rfl

theorem single_use_in_otpRun :
    (otpRun.get otpRun_isSome).world.trace.countP (fun e => usesCode .verification_otps 11 e.call) ≤ 1 ∧
    ∃ otp l, l <:+ (otpRun.get otpRun_isSome).world.trace ∧ otp.userId = 1 ∧
      IssuedTo .verification_otps 1 "654321" otp l := by
  have hp := System.reachable_of_play (Option.some_get otpRun_isSome).symm
  obtain ⟨honce, haccepted, -⟩ := otp_single_use (otpKeys_sampleDatabase [sampleUser]) hp
  refine ⟨honce _ _, ?_⟩
  obtain ⟨l₁, e, l₂, s, l₃, otp, htrace, -, -, -, -, -, -, huser, -, hissued⟩ :=
    haccepted 1 _ _ _ _ (List.getElem?_eq_getElem (by decide +kernel : 1 < _)) rfl rfl
  refine ⟨otp, l₃, ⟨l₁ ++ e :: (l₂ ++ [s]), by simp [htrace]⟩, huser, hissued.resolve_left ?_⟩
  simp [sampleDatabase]

end Runs

end SkillBridge
