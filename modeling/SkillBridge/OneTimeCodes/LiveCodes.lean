import SkillBridge.OneTimeCodes.SingleUse

set_option autoImplicit false

/-! When a user has one live code at most, and the accepted code is the newest. -/

namespace SkillBridge

open Interleaving Database

variable {env : Env} {db t : Database} {p q : OtpPool} {table : OtpTable} {userId : UserId} {id : OtpId}

def OneLive (table : OtpTable) (db : Database) : Prop :=
  ∀ a ∈ db.tables.otps table, ∀ b ∈ db.tables.otps table, a.userId = b.userId →
    a.Active db.dbNow → b.Active db.dbNow → a = b

/-- A row with this id was issued to the user, before the run or in it. Ids are drawn in increasing order. -/
def Issued (table : OtpTable) (db : Database) (userId : UserId) (id : OtpId) (l : List OtpEvent) : Prop :=
  (∃ otp ∈ db.tables.otps table, otp.userId = userId ∧ otp.id = id) ∨
    ∃ e ∈ l, ∃ payload otp, e.call = done (.insertOtp table payload) otp ∧ otp.userId = userId ∧ otp.id = id

def AcceptsOf (table : OtpTable) (userId : UserId) (id : OtpId) (e : OtpEvent) : Prop :=
  usesCode table id e.call = true ∧ ∃ otp ∈ e.before.tables.otps table, otp.userId = userId ∧ otp.id = id

/-- No other `issue` for the user has got in between and matters: a row that was inserted after the own
invalidation is not live at the own insertion, and a row that has expired since it was selected is not used
after a newer one was inserted. -/
structure NoOverlap (table : OtpTable) (e : OtpEvent) (l : List OtpEvent) : Prop where
  insert : ∀ payload otp l₁ v l₂, e.call = done (.insertOtp table payload) otp → l = l₁ ++ v :: l₂ →
    v.pid = e.pid → v.call = done (.invalidateActiveOtps table payload.userId) () →
    ∀ x ∈ l₁, ∀ payload' row, x.call = done (.insertOtp table payload') row → row.userId = payload.userId →
      row ∈ e.before.tables.otps table → ¬ row.Active e.before.dbNow
  use : ∀ id otp userId l₁ s l₂, e.call = done (.markOtpUsed table id) true → l = l₁ ++ s :: l₂ →
    s.pid = e.pid → s.call = done (.findLatestOtp table userId) (some otp) → e.before.dbNow < otp.expiresAt ∨
      ∀ x ∈ l₁, ∀ payload row, x.call = done (.insertOtp table payload) row → row.userId ≠ userId

theorem Issued.mono {l l' : List OtpEvent} (h : Issued table db userId id l) (hl : ∀ e ∈ l, e ∈ l') :
    Issued table db userId id l' := by
  rcases h with h | ⟨e, he, h⟩
  · exact .inl h
  · exact .inr ⟨e, hl e he, h⟩

theorem dbNow_le (h : (otpCalls env).Reachable p q) : p.world.state.dbNow ≤ q.world.state.dbNow := by
  refine System.Reachable.stable (I := fun s => p.world.state.dbNow ≤ s.dbNow) ?_ ?_ h (Nat.le_refl _)
  · exact fun m s hs => Nat.le_trans hs (Nat.le_add_right _ _)
  · exact fun o s reply t hs ha => (answers_effect ha).dbNow_eq ▸ hs

theorem fresh_le (h : (otpCalls env).Reachable p q) : p.world.state.fresh ≤ q.world.state.fresh := by
  refine System.Reachable.stable (I := fun s => p.world.state.fresh ≤ s.fresh) ?_ ?_ h (Nat.le_refl _)
  · exact fun m s hs => hs
  · exact fun o s reply t hs ha => Nat.le_trans hs (answers_effect ha).fresh_le

theorem not_active_of_invalidated (he : Effect db (.invalidateActiveOtps table userId) (.ok ()) t) {otp : Otp}
    (hm : otp ∈ t.tables.otps table) (huser : otp.userId = userId) : ¬ otp.Active t.dbNow := by
  cases he with
  | unchanged h => cases h
  | drawn h => cases h
  | saved h => cases h
  | invalidated =>
    rintro ⟨hunused, hexp⟩
    unfold invalidateActiveOtps at hm
    rw [otps_setOtps] at hm
    obtain ⟨old, hold, rfl⟩ := List.mem_map.mp hm
    split_ifs at huser hunused hexp with hcond
    exact hcond ⟨huser, hunused, hexp⟩

theorem not_active_at_insert (hp : (otpCalls env).Reachable (.start db) p) {l₁ l₂ : List OtpEvent}
    {e : OtpEvent}
    (htrace : p.world.trace = l₁ ++ e :: l₂) (hno : NoOverlap table e l₂) {payload : NewOtp} {otp : Otp}
    (hcall : e.call = done (.insertOtp table payload) otp) :
    ∀ row ∈ e.before.tables.otps table, row.userId = payload.userId → ¬ row.Active e.before.dbNow := by
  intro row hm huser hactive
  have hstep : OtpStep env e.req e.call (calls e.pid l₂) := (htrace ▸ otpSteps hp).at
  rw [hcall] at hstep
  obtain ⟨u, requestSource, code, now, n, -, rfl, -, hpast⟩ := hstep
  obtain ⟨l₃, v, l₄, rfl, hvpid, hvcall, -, -⟩ := exists_of_calls (A := [_, _, _]) hpast
  obtain ⟨q, t, q', -, -, hva, hq', hw', hq'p⟩ := otpSplit hp
    (show p.world.trace = (l₁ ++ e :: l₃) ++ v :: l₄ by simp [htrace])
  obtain ⟨r, k, t', hr, hrw, -, -, -⟩ := System.Reachable.split hq'p htrace
    (by rw [hw']; exact List.suffix_append _ _)
  have hle : t.dbNow ≤ e.before.dbNow := by
    have := dbNow_le hr
    rwa [hw', hrw] at this
  rcases unused_since hr (by rw [hrw]; exact hm) hactive.1 with hold | ⟨l₅, x, l₆, payload', hrtrace, hxcall⟩
  · rw [hw'] at hold
    exact not_active_of_invalidated (effect_of_answers hva hvcall) hold huser
      ⟨hactive.1, Nat.lt_of_le_of_lt hle hactive.2⟩
  · rw [hrw, hw'] at hrtrace
    have hl₃ : l₃ = l₅ ++ x :: l₆ := by
      refine List.append_cancel_right (?_ : l₃ ++ v :: l₄ = (l₅ ++ x :: l₆) ++ v :: l₄)
      simpa using hrtrace
    exact hno.insert payload otp l₃ v l₄ hcall rfl hvpid hvcall x
      (by rw [hl₃]; simp) payload' row hxcall huser hm hactive

structure Newest (table : OtpTable) (db : Database) (w : World backend Database OtpCall) : Prop where
  live : ∀ a ∈ w.state.tables.otps table, a.Active w.state.dbNow →
    ∀ id, Issued table db a.userId id w.trace → id ≤ a.id
  issued : ∀ a ∈ w.state.tables.otps table, Issued table db a.userId a.id w.trace
  lt : ∀ userId id, Issued table db userId id w.trace → id < w.state.fresh

theorem issued_cons {e : OtpEvent} {l : List OtpEvent} (h : Issued table db userId id (e :: l)) :
    Issued table db userId id l ∨
      ∃ payload otp, e.call = done (.insertOtp table payload) otp ∧ otp.userId = userId ∧ otp.id = id := by
  rcases h with h | ⟨x, hx, h⟩
  · exact .inl (.inl h)
  · rcases List.mem_cons.mp hx with rfl | hx
    · exact .inr h
    · exact .inl (.inr ⟨x, hx, h⟩)

theorem Newest.perform {w : World backend Database OtpCall} (h : Newest table db w) {pid : ℕ} {req : OtpCall}
    {o : Op} {reply : Reply o} (ha : server.Answers o w.state reply t)
    (hnone : ∀ payload otp, (⟨o, reply⟩ : ApiCall) = done (.insertOtp table payload) otp →
      ∀ row ∈ w.state.tables.otps table, row.userId = payload.userId → ¬ row.Active w.state.dbNow) :
    Newest table db (w.perform pid req o reply t) := by
  have heffect := answers_effect ha
  have hnew : ∀ payload otp, (⟨o, reply⟩ : ApiCall) = done (.insertOtp table payload) otp →
      otp = payload.toOtp w.state.fresh w.state.dbNow ∧ t.fresh = w.state.fresh + 1 := by
    intro payload otp hcall
    cases hcall
    exact inserted_eq heffect
  have hmono : ∀ {userId id}, Issued table db userId id w.trace →
      Issued table db userId id (w.perform pid req o reply t).trace :=
    fun h => h.mono fun e he => List.mem_cons_of_mem _ he
  refine ⟨?_, ?_, ?_⟩
  · rintro a hm ⟨hunused, hexp⟩ id hissued
    have hexp : w.state.dbNow < a.expiresAt := heffect.dbNow_eq ▸ hexp
    rcases heffect.unused hm hunused with hold | ⟨hid, -⟩
    · rcases issued_cons hissued with hissued | ⟨payload, otp, hcall, huser, -⟩
      · exact h.live a hold ⟨hunused, hexp⟩ id hissued
      · obtain ⟨rfl, -⟩ := hnew payload otp hcall
        exact absurd ⟨hunused, hexp⟩ (hnone payload _ hcall a hold huser.symm)
    · rw [hid]
      rcases issued_cons hissued with hissued | ⟨payload, otp, hcall, -, rfl⟩
      · exact Nat.le_of_lt (h.lt _ _ hissued)
      · obtain ⟨rfl, -⟩ := hnew payload otp hcall
        exact Nat.le_refl _
  · intro a hm
    rcases heffect.origin hm with ⟨old, hold, huser, hid⟩ | ⟨payload, hcall⟩
    · have := h.issued old hold
      rw [huser, hid] at this
      exact hmono this
    · exact .inr ⟨_, List.mem_cons_self, payload, a, hcall, rfl, rfl⟩
  · intro userId id hissued
    rcases issued_cons hissued with hissued | ⟨payload, otp, hcall, -, rfl⟩
    · exact Nat.lt_of_lt_of_le (h.lt _ _ hissued) heffect.fresh_le
    · obtain ⟨rfl, hfresh⟩ := hnew payload otp hcall
      simp only [World.perform, hfresh]
      exact Nat.lt_succ_self _

def StartsNewest (table : OtpTable) (db : Database) : Prop :=
  ∀ a ∈ db.tables.otps table, a.Active db.dbNow → ∀ b ∈ db.tables.otps table, b.userId = a.userId → b.id ≤ a.id

theorem newest (hk : OtpKeys table db) (hstart : StartsNewest table db)
    (hp : (otpCalls env).Reachable (.start db) p) (hno : Justified (NoOverlap table) p.world.trace) :
    Newest table db p.world := by
  have hnone : Justified (fun e _ => ∀ payload otp, e.call = done (.insertOtp table payload) otp →
      ∀ row ∈ e.before.tables.otps table, row.userId = payload.userId → ¬ row.Active e.before.dbNow)
      p.world.trace :=
    justified_of_split fun l₁ e l₂ htrace payload otp hcall =>
      not_active_at_insert hp htrace (htrace ▸ hno).at hcall
  have hdb : ∀ {userId id}, Issued table db userId id [] →
      ∃ b ∈ db.tables.otps table, b.userId = userId ∧ b.id = id := by
    rintro userId id (h | ⟨e, he, -⟩)
    · exact h
    · cases he
  have hbase : Newest table db ⟨db, []⟩ := by
    refine ⟨?_, fun a hm => .inl ⟨a, hm, rfl, rfl⟩, ?_⟩
    · intro a hm hactive id hissued
      obtain ⟨b, hb, huser, rfl⟩ := hdb hissued
      exact hstart a hm hactive b hb huser
    · intro userId id hissued
      obtain ⟨b, hb, -, rfl⟩ := hdb hissued
      exact hk.fresh b hb
  refine System.Reachable.invariant hbase ?_ ?_ hp hnone
  · rintro m w ⟨live, issued, lt⟩
    refine ⟨fun a hm hactive => live a hm ⟨hactive.1, ?_⟩, issued, lt⟩
    exact Nat.lt_of_le_of_lt (Nat.le_add_right _ _) hactive.2
  · exact fun w pid req o reply t h ha hnone => h.perform ha hnone

theorem same_row (hk : OtpKeys table db) (hp : (otpCalls env).Reachable (.start db) p)
    (hq : (otpCalls env).Reachable p q) {row otp : Otp} (hrow : row ∈ q.world.state.tables.otps table)
    (hunused : row.usedAt = none) (hotp : otp ∈ p.world.state.tables.otps table) (hid : row.id = otp.id) :
    row = otp := by
  have hkeys := otpKeys hk hp
  rcases unused_since hq hrow hunused with hold | ⟨l₁, x, l₂, payload, hqtrace, hxcall⟩
  · exact hkeys.eq_of_id hold hotp hid
  · obtain ⟨r, k, t, hr, hrw, -, ha, -⟩ := System.Reachable.split hq hqtrace (List.suffix_append _ _)
    obtain ⟨rfl, -⟩ := inserted_eq (effect_of_answers ha hxcall)
    have hle := fresh_le hr
    rw [hrw] at hle
    have hlt : x.before.fresh < p.world.state.fresh :=
      (show x.before.fresh = otp.id from hid) ▸ hkeys.fresh otp hotp
    exact absurd hle (Nat.not_le.mpr hlt)

theorem accepted_newest (hk : OtpKeys table db) (hstart : StartsNewest table db)
    (hp : (otpCalls env).Reachable (.start db) p) (hno : Justified (NoOverlap table) p.world.trace)
    {l₁ l₂ : List OtpEvent} {e : OtpEvent} (htrace : p.world.trace = l₁ ++ e :: l₂)
    (haccepts : AcceptsOf table userId id e) : ∀ id', Issued table db userId id' l₂ → id' ≤ id := by
  obtain ⟨huses, row, hrow, huser, hrowid⟩ := haccepts
  have hcall := usesCode_iff.mp huses
  rw [htrace] at hno
  have hstep : OtpStep env e.req e.call (calls e.pid l₂) := (htrace ▸ otpSteps hp).at
  rw [hcall] at hstep
  obtain ⟨u, code, otp, -, hotpid, -, hpast⟩ := hstep
  obtain ⟨l₃, s, l₄, rfl, hspid, hscall, -, -⟩ := exists_of_calls (A := []) hpast
  obtain ⟨qs, ks, ts, hqs, hqsw, hsk, hsa, hsp⟩ := System.Reachable.split hp
    (show p.world.trace = (l₁ ++ e :: l₃) ++ s :: l₄ by simp [htrace]) List.nil_suffix
  obtain ⟨ω, hexec⟩ := exec_of_answers hsa hscall
  have hlatest : s.before.findLatestOtp table u ω.number = some otp := by
    injection hexec with hexec
    injection hexec with hreply
    exact Except.ok.inj hreply
  obtain ⟨hotp, hotpuser, hactive⟩ := mem_of_findLatestOtp hlatest
  obtain ⟨qe, ke, te, hqe, hqew, -, hea, -⟩ := System.Reachable.split hsp htrace (by
    simp only [Pool.answer, World.perform, hqsw]
    exact List.suffix_append _ _)
  have hqse : (otpCalls env).Reachable qs qe := .head (.run hsk (hqsw ▸ hsa)) hqe
  have hkeys : OtpKeys table e.before := by
    have := otpKeys hk (hqs.trans hqse)
    rwa [hqew] at this
  obtain ⟨-, row', hrow', hrowid', hunused⟩ := spent_of_used hkeys (effect_of_answers hea hcall)
  obtain rfl := hkeys.eq_of_id hrow hrow' (hrowid.trans hrowid'.symm)
  obtain rfl : row = otp := same_row hk hqs hqse (by rw [hqew]; exact hrow) hunused (by rw [hqsw]; exact hotp)
    (hrowid.trans hotpid.symm)
  obtain rfl : userId = u := huser.symm.trans hotpuser
  intro id' hissued
  rcases hno.at.use id row userId l₃ s l₄ hcall rfl hspid hscall with hexp | hnone
  · have hnewest := newest hk hstart (hqs.trans hqse) (by rw [hqew]; exact hno.of_append.2)
    rw [hqew] at hnewest
    have := hnewest.live row hrow ⟨hunused, hexp⟩ id' (by rw [huser]; exact hissued)
    rwa [hrowid] at this
  · have hnewest := newest hk hstart hqs (by rw [hqsw]; exact hno.of_append.2.of_append.2)
    rw [hqsw] at hnewest
    have hissued' : Issued table db userId id' l₄ := by
      rcases hissued with h | ⟨x, hx, payload, inserted, hxcall, hxuser, hxid⟩
      · exact .inl h
      · rcases List.mem_append.mp hx with hx | hx
        · exact absurd hxuser (hnone x hx payload inserted hxcall)
        · rcases List.mem_cons.mp hx with rfl | hx
          · rw [hscall] at hxcall
            cases hxcall
          · exact .inr ⟨x, hx, payload, inserted, hxcall, hxuser, hxid⟩
    have := hnewest.live row hotp hactive id' (by rw [huser]; exact hissued')
    rwa [hrowid] at this

/-- In a run without overlap every user has one live code at most, the accepted code is the newest of its
user, and no code issued before an acceptance is accepted after it. -/
theorem one_live_code (hk : OtpKeys table db) (hstart : StartsNewest table db)
    (hp : (otpCalls env).Reachable (.start db) p) (hno : Justified (NoOverlap table) p.world.trace) :
    OneLive table p.world.state ∧
    (∀ l₁ e l₂ userId id, p.world.trace = l₁ ++ e :: l₂ → AcceptsOf table userId id e →
      ∀ id', Issued table db userId id' l₂ → id' ≤ id) ∧
    ∀ l₁ e l₂ e' l₃ userId id id', p.world.trace = l₁ ++ e :: (l₂ ++ e' :: l₃) → AcceptsOf table userId id e →
      AcceptsOf table userId id' e' → ¬ Issued table db userId id l₃ := by
  refine ⟨?_, fun l₁ e l₂ userId id htrace h => accepted_newest hk hstart hp hno htrace h, ?_⟩
  · intro a ha b hb huser hactive hactive'
    have hnewest := newest hk hstart hp hno
    apply (otpKeys hk hp).eq_of_id ha hb
    apply Nat.le_antisymm
    · exact hnewest.live b hb hactive' a.id (huser ▸ hnewest.issued a ha)
    · exact hnewest.live a ha hactive b.id (huser ▸ hnewest.issued b hb)
  · intro l₁ e l₂ e' l₃ userId id id' htrace haccepts haccepts' hissued
    have htrace' : p.world.trace = (l₁ ++ e :: l₂) ++ e' :: l₃ := by simp [htrace]
    have hle := accepted_newest hk hstart hp hno htrace' haccepts' id hissued
    obtain ⟨q, t, q', hq, hqw, -⟩ := otpSplit hp htrace'
    have hissued' : Issued table db userId id' l₃ := by
      obtain ⟨-, otp, hotp, huser, rfl⟩ := haccepts'
      have hnewest := newest hk hstart hq (by
        rw [htrace'] at hno
        rw [hqw]
        exact hno.of_append.2)
      rw [hqw] at hnewest
      exact huser ▸ hnewest.issued otp hotp
    have hle' := accepted_newest hk hstart hp hno htrace haccepts id'
      (hissued'.mono fun x hx => List.mem_append_right _ (List.mem_cons_of_mem _ hx))
    obtain rfl : id = id' := Nat.le_antisymm hle hle'
    have hnot := used_once hk hp htrace' haccepts'.1 e (by simp)
    rw [haccepts.1] at hnot
    cases hnot

theorem noOverlap_of_sequential (hp : (otpCalls env).Reachable (.start db) p)
    (hseq : p.world.trace.Pairwise fun e e' => e'.pid ≤ e.pid) : Justified (NoOverlap table) p.world.trace := by
  apply justified_of_split
  intro l₁ e l₂ htrace
  have hstep : OtpStep env e.req e.call (calls e.pid l₂) := (htrace ▸ otpSteps hp).at
  rw [htrace] at hseq
  have hold := List.pairwise_cons.mp (List.pairwise_append.mp hseq).2.1
  have hbetween : ∀ l₃ s l₄, l₂ = l₃ ++ s :: l₄ → s.pid = e.pid → ∀ x ∈ l₃, x.call ∈ calls e.pid l₂ := by
    rintro l₃ s l₄ rfl hspid x hx
    have hle : x.pid ≤ e.pid := hold.1 x (List.mem_append_left _ hx)
    have hge : s.pid ≤ x.pid := (List.pairwise_append.mp hold.2).2.2 x hx s List.mem_cons_self
    exact mem_calls.mpr ⟨x, List.mem_append_left _ hx, by omega, rfl⟩
  constructor
  · intro payload otp l₃ v l₄ hcall hl₂ hvpid _ x hx payload' row hxcall
    have hmem := hbetween l₃ v l₄ hl₂ hvpid x hx
    rw [hcall] at hstep
    obtain ⟨u, requestSource, code, now, n, -, -, -, hpast⟩ := hstep
    rw [hpast, hxcall] at hmem
    simp at hmem
  · intro id otp u l₃ s l₄ hcall hl₂ hspid _
    refine .inr fun x hx payload row hxcall => ?_
    have hmem := hbetween l₃ s l₄ hl₂ hspid x hx
    rw [hcall] at hstep
    obtain ⟨u', code, otp', -, -, -, hpast⟩ := hstep
    rw [hpast, hxcall] at hmem
    simp at hmem

section Runs

def reissueRun : Option OtpPool :=
  (otpCalls sampleEnv).play (.start (sampleDatabase [sampleUser]))
    [.spawn (.issue .password_reset_otps 1 .initial), .run 0 {}, .run 0 { number := 111111 }, .run 0 {},
      .run 0 {},
      .run 0 {}, .spawn (.issue .password_reset_otps 1 .initial), .run 1 {}, .run 1 { number := 222222 },
      .run 1 {}, .run 1 {}, .run 1 {}, .spawn (.consume .password_reset_otps 1 "222222"), .run 2 {}, .run 2 {}]

def overlapRun : Option OtpPool :=
  (otpCalls sampleEnv).play (.start (sampleDatabase [sampleUser]))
    [.spawn (.issue .password_reset_otps 1 .initial), .spawn (.issue .password_reset_otps 1 .initial),
      .run 0 {}, .run 1 {}, .run 0 { number := 111111 }, .run 0 {}, .run 0 {}, .run 0 {},
      .run 1 { number := 222222 }, .run 1 {}, .run 1 {}, .run 1 {}]

theorem reissueRun_isSome : reissueRun.isSome = true := rfl

theorem overlapRun_isSome : overlapRun.isSome = true := rfl

def overlapConsumedRun : Option OtpPool :=
  (otpCalls sampleEnv).play (overlapRun.get overlapRun_isSome)
    [.spawn (.consume .password_reset_otps 1 "222222"), .run 2 { number := 1 }, .run 2 {},
      .spawn (.consume .password_reset_otps 1 "111111"), .run 3 {}, .run 3 {}]

theorem overlapConsumedRun_isSome : overlapConsumedRun.isSome = true := rfl

theorem one_live_code_in_reissueRun :
    OneLive .password_reset_otps (reissueRun.get reissueRun_isSome).world.state ∧
    ∀ id, Issued .password_reset_otps (sampleDatabase [sampleUser]) 1 id
      ((reissueRun.get reissueRun_isSome).world.trace.drop 1) → id ≤ 13 := by
  have hp := System.reachable_of_play (Option.some_get reissueRun_isSome).symm
  have hno : Justified (NoOverlap .password_reset_otps) (reissueRun.get reissueRun_isSome).world.trace := by
    refine noOverlap_of_sequential hp ?_
    rw [← List.pairwise_map (f := Event.pid) (R := fun i j => j ≤ i)]
    decide +kernel
  obtain ⟨hlive, hnewest, -⟩ := one_live_code (otpKeys_sampleDatabase _ _)
    (by simp [StartsNewest, sampleDatabase]) hp hno
  refine ⟨hlive, hnewest [] _ _ 1 13 rfl ⟨by decide +kernel, _, List.mem_cons_of_mem _ List.mem_cons_self,
    rfl, rfl⟩⟩

theorem two_live_codes : ∃ p q, (otpCalls sampleEnv).Reachable (.start (sampleDatabase [sampleUser])) p ∧
    ¬ OneLive .password_reset_otps p.world.state ∧ (otpCalls sampleEnv).Reachable p q ∧
    ∃ l₁ e l₂ e' l₃, q.world.trace = l₁ ++ e :: (l₂ ++ e' :: l₃) ∧ AcceptsOf .password_reset_otps 1 11 e ∧
      AcceptsOf .password_reset_otps 1 13 e' ∧
      Issued .password_reset_otps (sampleDatabase [sampleUser]) 1 11 l₃ := by
  have hp := System.reachable_of_play (Option.some_get overlapRun_isSome).symm
  have hq := System.reachable_of_play (Option.some_get overlapConsumedRun_isSome).symm
  refine ⟨_, _, hp, ?_, hq, [], _, [_], _, _, rfl,
    ⟨by decide +kernel, _, List.mem_cons_self, rfl, rfl⟩,
    ⟨by decide +kernel, _, List.mem_cons_of_mem _ List.mem_cons_self, rfl, rfl⟩, ?_⟩
  · intro h
    have heq := h _ List.mem_cons_self _ (List.mem_cons_of_mem _ List.mem_cons_self) rfl
      ⟨rfl, by decide +kernel⟩ ⟨rfl, by decide +kernel⟩
    cases heq
  · exact .inr ⟨_, List.mem_of_getElem? (i := 5) rfl, _, _, rfl, rfl, rfl⟩

end Runs

end SkillBridge
