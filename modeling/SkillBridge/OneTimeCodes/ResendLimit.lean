import SkillBridge.Api.Footprint
import SkillBridge.Api.Runs
import SkillBridge.OneTimeCodes.Rows

set_option autoImplicit false

/-! The hourly limit of `resendVerification`: a query counts the rows, and awaits lie between it and the insert. -/

namespace SkillBridge

open Interleaving Database Prog

def hour : ℕ := 60 * 60 * 1000

def resendRows (db : Database) (userId : UserId) (start finish : ℕ) : ℕ :=
  (db.tables.otps .verification_otps).countP fun otp =>
    otp.userId = userId && otp.requestSource = .resend && start ≤ otp.createdAt && otp.createdAt ≤ finish

def resentTo (e : ApiEvent) : Option UserId :=
  match e.call with
  | ⟨.insertOtp .verification_otps payload, .ok _⟩ =>
    if payload.requestSource = .resend then some payload.userId else none
  | _ => none

def countedFrom (e : ApiEvent) : Option (UserId × ℕ) :=
  match e.call with
  | ⟨.countRecentResends .verification_otps userId since, .ok _⟩ => some (userId, since)
  | _ => none

/-- No other resend to the user has stored its row since the call counted, and the hour it counted had not
begun later than an hour before the row is stored. -/
def CountedAlone (e : ApiEvent) (l : List ApiEvent) : Prop :=
  ∀ userId, resentTo e = some userId → ∀ l₁ c l₂ since, l = l₁ ++ c :: l₂ → c.pid = e.pid →
    countedFrom c = some (userId, since) →
    since ≤ e.before.dbNow - hour ∧ ∀ e' ∈ l₁, resentTo e' ≠ some userId

def Limited (env : Env) : ApiCall → List ApiCall → Prop
  | ⟨.insertOtp .verification_otps payload, _⟩, past => payload.requestSource = .resend → ∃ since n,
    n < env.VERIFICATION_RESEND_LIMIT_PER_HOUR ∧
    done (.countRecentResends .verification_otps payload.userId since) n ∈ past
  | _, _ => True

variable {env : Env} {db t : Database} {o : Op} {reply : Reply o}

section Calls

theorem limited_of_mem {past : List ApiCall} {userId : UserId} {since n : ℕ}
    (hn : n < env.VERIFICATION_RESEND_LIMIT_PER_HOUR)
    (hcount : done (.countRecentResends .verification_otps userId since) n ∈ past)
    {Q : Except Failure IssuedOtp → List ApiCall → Prop} (hQ : ∀ r l, Q r l) (expiresIn : ℕ) :
    (Otp.issue .verification_otps expiresIn userId .resend).Along (Limited env) Q past := by
  apply along_perform_bind
  · exact fun r => trivial
  · exact fun e => hQ _ _
  intro _
  apply along_bind
  apply along_perform_bind
  · exact fun r => trivial
  · exact fun e => hQ _ _
  intro number
  apply along_perform_bind
  · exact fun r => trivial
  · exact fun e => hQ _ _
  intro now
  apply along_perform_bind
  · exact fun r => trivial
  · exact fun e => hQ _ _
  intro hash
  apply along_perform_bind
  · exact fun r _ => ⟨since, n, hn, by simp only [List.mem_cons, hcount, or_true]⟩
  · exact fun e => hQ _ _
  exact fun otp => hQ _ _

theorem resendVerification_limited (email : String) :
    (handle env (.resendVerification email)).Along (Limited env) (fun _ _ => True) [] := by
  apply along_map
  apply along_perform_bind
  · exact fun r => trivial
  · exact fun e => trivial
  intro row
  cases row with
  | none => trivial
  | some user =>
    dsimp only
    split_ifs with hverified
    · trivial
    apply along_perform_bind
    · exact fun r => trivial
    · exact fun e => trivial
    intro now
    apply along_perform_bind
    · exact fun r => trivial
    · exact fun e => trivial
    intro count
    split_ifs with hlimit
    · trivial
    apply along_bind
    apply limited_of_mem (Nat.lt_of_not_le hlimit) List.mem_cons_self
    intro r l
    cases r with
    | error e => trivial
    | ok issued =>
      apply along_perform_bind
      · exact fun r => trivial
      · exact fun e => trivial
      · exact fun _ => trivial

theorem handle_limited (req : Request) : (handle env req).Along (Limited env) (fun _ _ => True) [] := by
  by_cases hreq : ∃ email, req = .resendVerification email
  · obtain ⟨email, rfl⟩ := hreq
    exact resendVerification_limited email
  · refine along_of_calls ?_ (handle_footprint env req) fun _ _ _ => trivial
    rintro ⟨o, r⟩ l hcall
    cases o
    case insertOtp table payload =>
      cases table with
      | verification_otps => exact fun hsource => absurd (hcall hsource) hreq
      | password_reset_otps => trivial
    all_goals trivial

end Calls

section Rows

theorem Database.Effect.countP_otps (he : Effect db o reply t) (table : OtpTable) :
    (∀ f : Otp → Bool, (∀ otp usedAt, f { otp with usedAt } = f otp) →
      (t.tables.otps table).countP f ≤ (db.tables.otps table).countP f) ∨
    ∃ payload, (⟨o, reply⟩ : ApiCall) = done (.insertOtp table payload) (payload.toOtp db.fresh db.dbNow) ∧
      t.tables.otps table = db.tables.otps table ++ [payload.toOtp db.fresh db.dbNow] := by
  cases he.otps table with
  | kept h => exact .inl fun f _ => by rw [h]
  | @inserted payload fresh h => exact .inr ⟨payload, rfl, h⟩
  | invalidated h =>
    refine .inl fun f hf => ?_
    rw [h, List.countP_map]
    apply Nat.le_of_eq
    congr 1
    funext otp
    simp only [Function.comp]
    split_ifs
    · exact hf otp _
    · rfl
  | used h =>
    refine .inl fun f hf => ?_
    rw [h, List.countP_map]
    apply Nat.le_of_eq
    congr 1
    funext otp
    simp only [Function.comp]
    split_ifs
    · exact hf otp _
    · rfl
  | deleted h =>
    refine .inl fun f _ => ?_
    rw [h]
    exact List.filter_sublist.countP_le

theorem countRecentResends_eq (db : Database) (userId : UserId) (since : ℕ) :
    db.countRecentResends .verification_otps userId since =
      (db.tables.otps .verification_otps).countP fun otp =>
        otp.userId = userId && otp.requestSource = .resend && since ≤ otp.createdAt :=
  List.countP_eq_length_filter.symm

theorem resendRows_le_countRecentResends {userId : UserId} {start finish since : ℕ} (h : since ≤ start) :
    resendRows db userId start finish ≤ db.countRecentResends .verification_otps userId since := by
  rw [countRecentResends_eq]
  refine List.countP_mono_left fun otp _ hotp => ?_
  simp only [Bool.and_eq_true, decide_eq_true_eq] at hotp ⊢
  exact ⟨hotp.1.1, Nat.le_trans h hotp.1.2⟩

theorem resentTo_eq {e : ApiEvent} {payload : NewOtp} {otp : Otp}
    (h : e.call = done (.insertOtp .verification_otps payload) otp) :
    resentTo e = if payload.requestSource = .resend then some payload.userId else none := by
  simp only [resentTo, h]

theorem countedFrom_eq {e : ApiEvent} {userId : UserId} {since n : ℕ}
    (h : e.call = done (.countRecentResends .verification_otps userId since) n) :
    countedFrom e = some (userId, since) := by
  simp only [countedFrom, h]

end Rows

/-- The hour of a count has no more rows than were counted, as long as no resend has stored one since. -/
structure WithinLimit (env : Env) (w : World backend Database Request) : Prop where
  window : ∀ userId start, resendRows w.state userId start (start + hour) ≤ env.VERIFICATION_RESEND_LIMIT_PER_HOUR
  counted : ∀ l₁ c l₂ userId since n, w.trace = l₁ ++ c :: l₂ →
    c.call = done (.countRecentResends .verification_otps userId since) n →
    (∀ e ∈ l₁, resentTo e ≠ some userId) → w.state.countRecentResends .verification_otps userId since ≤ n

section Steps

variable {w : World backend Database Request} {pid : ℕ} {req : Request}

theorem countRecentResends_step (he : Effect db o reply t) {userId : UserId}
    (hother : resentTo ⟨pid, req, db, o, reply⟩ ≠ some userId) (since : ℕ) :
    t.countRecentResends .verification_otps userId since ≤
      db.countRecentResends .verification_otps userId since := by
  rw [countRecentResends_eq, countRecentResends_eq]
  rcases he.countP_otps .verification_otps with hle | ⟨payload, hcall, hotps⟩
  · exact hle _ fun otp usedAt => rfl
  · rw [@resentTo_eq ⟨pid, req, db, o, reply⟩ _ _ hcall] at hother
    rw [hotps, List.countP_append]
    have hrow : [payload.toOtp db.fresh db.dbNow].countP (fun otp =>
        otp.userId = userId && otp.requestSource = .resend && since ≤ otp.createdAt) = 0 := by
      rw [List.countP_eq_zero]
      intro otp hotp
      obtain rfl := List.mem_singleton.mp hotp
      simp only [Bool.and_eq_true, decide_eq_true_eq]
      rintro ⟨⟨huser, hsource⟩, -⟩
      exact hother ((if_pos hsource).trans (congrArg some huser))
    omega

theorem WithinLimit.counted_step (h : WithinLimit env w) (ha : server.Answers o w.state reply t) :
    ∀ l₁ c l₂ userId since n, (w.perform pid req o reply t).trace = l₁ ++ c :: l₂ →
      c.call = done (.countRecentResends .verification_otps userId since) n →
      (∀ e ∈ l₁, resentTo e ≠ some userId) → t.countRecentResends .verification_otps userId since ≤ n := by
  intro l₁ c l₂ userId since n htrace hc hl₁
  cases l₁ with
  | nil =>
    obtain ⟨rfl, -⟩ := List.cons.inj htrace
    obtain ⟨ω, hexec⟩ := exec_of_answers ha hc
    injection hexec with hexec
    injection hexec with hreply hstate
    injection hreply with hn
    rw [← hstate, ← hn]
  | cons e l₁ =>
    obtain ⟨rfl, htail⟩ := List.cons.inj htrace
    have hold := h.counted l₁ c l₂ userId since n htail hc fun e he => hl₁ e (List.mem_cons_of_mem _ he)
    exact Nat.le_trans (countRecentResends_step (answers_effect ha) (hl₁ _ List.mem_cons_self) since) hold

theorem WithinLimit.window_step (h : WithinLimit env w) (he : Effect w.state o reply t)
    (halone : CountedAlone ⟨pid, req, w.state, o, reply⟩ w.trace)
    (hlimited : Limited env ⟨o, reply⟩ (calls pid w.trace)) (userId : UserId) (start : ℕ) :
    resendRows t userId start (start + hour) ≤ env.VERIFICATION_RESEND_LIMIT_PER_HOUR := by
  have hwindow := h.window userId start
  rcases he.countP_otps .verification_otps with hle | ⟨payload, hcall, hotps⟩
  · exact Nat.le_trans (hle _ fun otp usedAt => rfl) hwindow
  · unfold resendRows at hwindow ⊢
    rw [hotps, List.countP_append]
    by_cases hrow : payload.userId = userId ∧ payload.requestSource = .resend ∧ start ≤ w.state.dbNow ∧
        w.state.dbNow ≤ start + hour
    · -- The window holds the new row, so it begins no earlier than the hour that was counted.
      obtain ⟨rfl, hsource, -, hfinish⟩ := hrow
      obtain ⟨o, reply⟩ : Call backend := ⟨o, reply⟩
      cases hcall
      obtain ⟨since, n, hn, hmem⟩ := hlimited hsource
      obtain ⟨c, hc, hpid, hccall⟩ := mem_calls.mp hmem
      obtain ⟨l₁, l₂, hl⟩ := List.append_of_mem hc
      obtain ⟨hsince, hl₁⟩ := halone payload.userId ((resentTo_eq rfl).trans (if_pos hsource)) l₁ c l₂ since hl
        hpid (countedFrom_eq hccall)
      have hcounted := h.counted l₁ c l₂ payload.userId since n hl hccall hl₁
      have hle : since ≤ start := by
        change since ≤ w.state.dbNow - hour at hsince
        omega
      have hrows := @resendRows_le_countRecentResends w.state payload.userId start (start + hour) since hle
      unfold resendRows at hrows
      have hone := List.countP_le_length (p := fun otp : Otp => otp.userId = payload.userId &&
        otp.requestSource = .resend && start ≤ otp.createdAt && otp.createdAt ≤ start + hour)
        (l := [payload.toOtp w.state.fresh w.state.dbNow])
      rw [List.length_singleton] at hone
      omega
    · have hzero : [payload.toOtp w.state.fresh w.state.dbNow].countP (fun otp => otp.userId = userId &&
          otp.requestSource = .resend && start ≤ otp.createdAt && otp.createdAt ≤ start + hour) = 0 := by
        rw [List.countP_eq_zero]
        intro otp hotp
        obtain rfl := List.mem_singleton.mp hotp
        simp only [Bool.and_eq_true, decide_eq_true_eq]
        rintro ⟨⟨⟨huser, hsource⟩, hstart⟩, hfinish⟩
        exact hrow ⟨huser, hsource, hstart, hfinish⟩
      omega

end Steps

theorem resend_limit_per_hour {p : ApiPool}
    (start : ∀ userId start, resendRows db userId start (start + hour) ≤ env.VERIFICATION_RESEND_LIMIT_PER_HOUR)
    (hp : (api env).Reachable (.start db) p) (halone : Justified CountedAlone p.world.trace) (userId : UserId)
    (begins : ℕ) :
    resendRows p.world.state userId begins (begins + hour) ≤ env.VERIFICATION_RESEND_LIMIT_PER_HOUR := by
  have hlimited := (System.Reachable.along (fun req => handle_limited req) hp).2
  have h : WithinLimit env p.world := by
    refine System.Reachable.invariant (C := fun e l => CountedAlone e l ∧ Limited env e.call (calls e.pid l))
      ?_ ?_ ?_ hp ?_
    · exact ⟨start, fun l₁ c l₂ userId since n h => by simp at h⟩
    · exact fun m w h => ⟨h.window, h.counted⟩
    · exact fun w pid req o reply t h ha hC =>
        ⟨h.window_step (answers_effect ha) hC.1 hC.2, h.counted_step ha⟩
    · exact justified_of_split fun l₁ e l₂ hl => ⟨(hl ▸ halone).at, (hl ▸ hlimited).at⟩
  exact h.window userId begins

section Runs

def unverifiedDatabase : Database :=
  sampleDatabase [{ sampleUser with is_verified := false, two_fa_enabled := false }]

def oneResendEnv : Env := { sampleEnv with VERIFICATION_RESEND_LIMIT_PER_HOUR := 1 }

def resendRun : Option ApiPool :=
  (api oneResendEnv).play (.start unverifiedDatabase)
    [.spawn (.resendVerification "user@example.com"), .run 0 {}, .run 0 {}, .run 0 {}, .run 0 {}, .run 0 {},
      .run 0 {}, .run 0 {}, .run 0 {}, .run 0 {},
      .spawn (.resendVerification "user@example.com"), .run 1 {}, .run 1 {}, .run 1 {}]

def overlappingResendsRun : Option ApiPool :=
  (api oneResendEnv).play (.start unverifiedDatabase)
    [.spawn (.resendVerification "user@example.com"), .spawn (.resendVerification "user@example.com"),
      .run 0 {}, .run 0 {}, .run 0 {}, .run 1 {}, .run 1 {}, .run 1 {},
      .run 0 {}, .run 0 {}, .run 0 {}, .run 0 {}, .run 0 {}, .run 1 {}, .run 1 {}, .run 1 {}, .run 1 {}, .run 1 {}]

theorem resendRun_isSome : resendRun.isSome = true := rfl

theorem overlappingResendsRun_isSome : overlappingResendsRun.isSome = true := rfl

theorem resend_limit_in_resendRun :
    resendRows (resendRun.get resendRun_isSome).world.state 1 1700000000000 (1700000000000 + hour) ≤ 1 := by
  have hp := System.reachable_of_play (Option.some_get resendRun_isSome).symm
  have hresent : (resendRun.get resendRun_isSome).world.trace.filterMap resentTo = [1] := by decide +kernel
  have hcounts : ((resendRun.get resendRun_isSome).world.trace.all fun c =>
      (countedFrom c).all fun counted => counted.2 = 1700000000000 - hour) = true := by decide +kernel
  have hnow : ((resendRun.get resendRun_isSome).world.trace.all fun e =>
      e.before.dbNow = 1700000000000) = true := by decide +kernel
  refine @resend_limit_per_hour oneResendEnv unverifiedDatabase _ (fun _ _ => Nat.zero_le _) hp ?_ 1 1700000000000
  apply justified_of_split
  intro l₁ e l₂ htrace userId he l₃ c l₄ since hl₂ hpid hc
  constructor
  · have hsince := List.all_eq_true.mp hcounts c (by simp [htrace, hl₂])
    have hbefore := List.all_eq_true.mp hnow e (by simp [htrace])
    simp only [hc, Option.all_some, decide_eq_true_eq] at hsince hbefore
    rw [hsince, hbefore]
  · intro e' he' hresent'
    have hlength := congrArg List.length hresent
    rw [htrace, hl₂, List.filterMap_append, List.filterMap_cons_some he, List.filterMap_append] at hlength
    have hpos : 0 < (l₃.filterMap resentTo).length :=
      List.length_pos_of_mem (List.mem_filterMap.mpr ⟨e', he', hresent'⟩)
    simp only [List.length_append, List.length_cons, List.length_nil] at hlength
    omega

theorem resends_exceed_limit : ∃ p, (api oneResendEnv).Reachable (.start unverifiedDatabase) p ∧
    resendRows p.world.state 1 1700000000000 (1700000000000 + hour) = 2 ∧
    oneResendEnv.VERIFICATION_RESEND_LIMIT_PER_HOUR = 1 :=
  ⟨_, System.reachable_of_play (Option.some_get overlappingResendsRun_isSome).symm, by decide +kernel, rfl⟩

end Runs

end SkillBridge
