import SkillBridge.Journeys.Stored
import SkillBridge.Onboarding.Completion

set_option autoImplicit false

/-! What the statements of a user's own request do while other requests run that do not concern the user. -/

namespace SkillBridge

open Interleaving Prog Database

variable {owner : Owner} {user : User} {codes : Codes} {c : Clocks} {s t : Database} {l : List ApiCall}
  {table : OtpTable} {α β : Type}

abbrev Owner.Serves (owner : Owner) (Q : Except Failure α → List ApiCall → Database → Prop) (p : Action α)
    (l : List ApiCall) (s : Database) : Prop :=
  p.Withstands owner.others server.reliable owner.anyone.Rel Q l s

theorem Standing.unlocked (h : Standing owner s) : (s.others none).any (Write.locks owner.id) = false := by
  rw [List.any_eq_false]
  intro w hw hlocks
  obtain ⟨entry, hentry, hmem⟩ := List.mem_flatMap.mp hw
  have hno := h.pending entry (List.mem_filter.mp hentry).1 w hmem
  cases w with
  | markOnboardingComplete id =>
    rw [show Write.references owner.id (.markOnboardingComplete id) = true from hlocks] at hno
    cases hno
  | _ => cases hlocks

theorem Stored.find_email (h : Stored owner user codes c s) (hc : s.Constraints) :
    (s.tables.users.find? fun other => other.email = owner.email) = some user := by
  rw [← h.email]
  exact hc.find_email (List.mem_of_find?_eq_some h.row)

section Results

variable {Q : Except Failure α → List ApiCall → Database → Prop}

theorem serves_ok {a : α} (h : Stored owner user codes c s)
    (hf : ∀ t, Standing owner t → Stored owner user codes c t → Q (.ok a) l t) : owner.Serves Q (.ret a) l s :=
  fun t hst hI => hf t hI (h.later hst)

theorem serves_error {e : Failure} (h : Stored owner user codes c s)
    (hf : ∀ t, Standing owner t → Stored owner user codes c t → Q (.error e) l t) : owner.Serves Q (.throw e) l s :=
  fun t hst hI => hf t hI (h.later hst)

theorem serves_tail {o : Op} {Q : Except Failure o.Res → List ApiCall → Database → Prop}
    (h : owner.Serves Q (perform o >>= ret) l s) : owner.Serves Q (perform o) l s := by
  have hbind : perform o >>= ret = perform o := by
    refine congrArg (@Prog.call backend o.Res o) (funext fun reply => ?_)
    cases reply <;> rfl
  exact hbind ▸ h

end Results

section Rules

variable {Q : Except Failure β → List ApiCall → Database → Prop} (h : Stored owner user codes c s)

include h

theorem serves_perform {o : Op} {f : o.Res → Action β} (modest : o.Modest owner.id)
    (hf : ∀ t, Untouched owner.id s t → Stored owner user codes c t → Standing owner t →
      ∀ ω reply u, exec o ω t = some (reply, u) →
        ∃ r, reply = .ok r ∧ (Standing owner u → owner.Serves Q (f r) (done o r :: l) u)) :
    owner.Serves Q (perform o >>= f) l s := by
  apply withstands_perform_bind
  intro t hst hI reply u ha
  obtain ⟨ω, hexec⟩ := exec_of_reliable ha
  obtain ⟨hu, hcodes⟩ := Standing.step hI (.inl ⟨ω, hexec⟩) modest
  obtain ⟨r, hr, hf⟩ := hf t hst (h.later hst) hI ω reply u hexec
  exact ⟨hu, hcodes, r, hr, hf hu⟩

theorem serves_quiet {o : Op} {f : o.Res → Action β} (untouched : ∀ tables, ¬ o.Touches tables owner.id)
    (hf : ∀ t u ω reply, Stored owner user codes c t → Stored owner user codes c u → Standing owner t →
      exec o ω t = some (reply, u) → ∃ r, reply = .ok r ∧ owner.Serves Q (f r) (done o r :: l) u) :
    owner.Serves Q (perform o >>= f) l s := by
  refine serves_perform h (modest_of_untouched (untouched s.tables)) fun t hst ht hI ω reply u hexec => ?_
  obtain ⟨-, htu⟩ := Standing.untouched hI (.inl ⟨ω, hexec⟩) (untouched t.tables)
  obtain ⟨r, hr, hf⟩ := hf t u ω reply ht (ht.later htu) hI hexec
  exact ⟨r, hr, fun _ => hf⟩

theorem serves_findUser {f : Option User → Action β}
    (hf : ∀ u, Stored owner user codes c u →
      owner.Serves Q (f (some user)) (done (.findUser none owner.id) (some user) :: l) u) :
    owner.Serves Q (perform (.findUser none owner.id) >>= f) l s := by
  refine serves_quiet h (fun _ h => h) fun t u ω reply ht hu hI hexec => ?_
  have hfound : findById (t.view none).users owner.id = some user := ht.row
  injection hexec with hexec
  injection hexec with hreply
  rw [hfound] at hreply
  exact ⟨_, hreply.symm, hf u hu⟩

theorem serves_findByEmail {f : Option User → Action β}
    (hf : ∀ u, Stored owner user codes c u →
      owner.Serves Q (f (some user)) (done (.findUserByEmail owner.email) (some user) :: l) u) :
    owner.Serves Q (UsersService.findByEmail owner.email >>= f) l s := by
  refine serves_quiet h (fun _ h => h) fun t u ω reply ht hu hI hexec => ?_
  have hfound := ht.find_email hI.constraints
  injection hexec with hexec
  injection hexec with hreply
  rw [hfound] at hreply
  exact ⟨_, hreply.symm, hf u hu⟩

theorem serves_dateNow {f : ℕ → Action β}
    (hf : ∀ u now, c.app ≤ now → Stored owner user codes { c with app := now } u →
      owner.Serves Q (f now) (done .dateNow now :: l) u) : owner.Serves Q (perform .dateNow >>= f) l s := by
  refine serves_quiet h (fun _ h => h) fun t u ω reply ht hu hI hexec => ?_
  cases hexec
  exact ⟨_, rfl, hf _ _ ht.app_le (ht.at_app (Nat.le_refl _))⟩

theorem serves_signAsync {payload : JwtPayload} {jti : Bool} {secret : String} {expiresIn : ℕ} {f : Jwt → Action β}
    (hf : ∀ u now n, c.app ≤ now → Stored owner user codes { c with app := now } u →
      owner.Serves Q (f (mint secret { payload with jti := if jti then some n else none } expiresIn now))
        (done (.signAsync payload jti secret expiresIn)
          (mint secret { payload with jti := if jti then some n else none } expiresIn now) :: l) u) :
    owner.Serves Q (perform (.signAsync payload jti secret expiresIn) >>= f) l s := by
  refine serves_quiet h (fun _ h => h) fun t u ω reply ht hu hI hexec => ?_
  cases hexec
  exact ⟨_, rfl, hf _ _ t.fresh ht.app_le (hu.at_app (Nat.le_refl _))⟩

theorem serves_draw {o : Op} {f : o.Res → Action β} (untouched : ∀ tables, ¬ o.Touches tables owner.id)
    (answers : ∀ ω t reply u, exec o ω t = some (reply, u) → ∃ r, reply = .ok r)
    (hf : ∀ u r, Stored owner user codes c u → owner.Serves Q (f r) (done o r :: l) u) :
    owner.Serves Q (perform o >>= f) l s := by
  refine serves_quiet h untouched fun t u ω reply ht hu hI hexec => ?_
  obtain ⟨r, hr⟩ := answers ω t reply u hexec
  exact ⟨r, hr, hf u r hu⟩

theorem serves_hashText {text : String} {f : Digest String → Action β}
    (hf : ∀ u salt, Stored owner user codes c u →
      owner.Serves Q (f ⟨text, salt⟩) (done (.hashText text) ⟨text, salt⟩ :: l) u) :
    owner.Serves Q (perform (.hashText text) >>= f) l s := by
  refine serves_quiet h (fun _ h => h) fun t u ω reply ht hu hI hexec => ?_
  cases hexec
  exact ⟨_, rfl, hf _ _ hu⟩

theorem serves_hashToken {token : Jwt} {f : Digest Jwt → Action β}
    (hf : ∀ u salt, Stored owner user codes c u →
      owner.Serves Q (f ⟨token, salt⟩) (done (.hashToken token) ⟨token, salt⟩ :: l) u) :
    owner.Serves Q (perform (.hashToken token) >>= f) l s := by
  refine serves_quiet h (fun _ h => h) fun t u ω reply ht hu hI hexec => ?_
  cases hexec
  exact ⟨_, rfl, hf _ _ hu⟩

theorem serves_updateUser {payload : UserPayload} {f : Option User → Action β}
    (notNull : payload.violatesNotNull = false) (fits : payload.fits = true) (email : payload.email = none)
    (hf : ∀ u, Stored owner (payload.apply user) codes c u → owner.Serves Q (f (some (payload.apply user)))
      (done (.updateUser owner.id payload) (some (payload.apply user)) :: l) u) :
    owner.Serves Q (perform (.updateUser owner.id payload) >>= f) l s := by
  refine serves_perform h (fun _ => email) fun t _ ht hI ω reply u hexec => ?_
  have hexec' : t.updateUser owner.id payload = some (reply, u) := hexec
  rw [updateUser_eq ht.row hI.unlocked notNull fits email] at hexec'
  obtain ⟨rfl, rfl⟩ := Prod.mk.inj (Option.some.inj hexec')
  exact ⟨_, rfl, fun _ => hf _ (ht.update email)⟩

theorem serves_rotate {hash next : Digest Jwt} {f : Bool → Action β} (stored : user.refreshTokenHash = some hash)
    (hf : ∀ u, Stored owner { user with refreshTokenHash := some next } codes c u →
      owner.Serves Q (f true) (done (.rotateRefreshTokenHash owner.id hash next) true :: l) u) :
    owner.Serves Q (perform (.rotateRefreshTokenHash owner.id hash next) >>= f) l s := by
  refine serves_perform h trivial fun t _ ht hI ω reply u hexec => ?_
  have hexec' : t.rotateRefreshTokenHash owner.id hash next = some (reply, u) := hexec
  simp only [rotateRefreshTokenHash, ht.row, stored, ne_eq, not_true_eq_false, if_false, hI.unlocked,
    Bool.false_eq_true] at hexec'
  obtain ⟨rfl, rfl⟩ := Prod.mk.inj (Option.some.inj hexec')
  exact ⟨_, rfl, fun _ => hf _ (ht.rotated next)⟩

theorem serves_invalidateActiveOtps {f : Unit → Action β}
    (hf : ∀ u, Stored owner user (codes.use table) c u →
      owner.Serves Q (f ()) (done (.invalidateActiveOtps table owner.id) () :: l) u) :
    owner.Serves Q (perform (.invalidateActiveOtps table owner.id) >>= f) l s := by
  refine serves_perform h trivial fun t _ ht hI ω reply u hexec => ?_
  cases hexec
  exact ⟨_, rfl, fun _ => hf _ (ht.invalidated table)⟩

theorem serves_insertOtp {payload : NewOtp} {f : Otp → Action β} (unused : codes.live table = none)
    (huser : payload.userId = owner.id)
    (hf : ∀ u otp now, c.db ≤ now → Stored owner user
        (codes.issue table ⟨payload.otpHash.plain, payload.expiresAt⟩ payload.requestSource now) { c with db := now } u →
      owner.Serves Q (f otp) (done (.insertOtp table payload) otp :: l) u) :
    owner.Serves Q (perform (.insertOtp table payload) >>= f) l s := by
  refine serves_perform h trivial fun t _ ht hI ω reply u hexec => ?_
  have hexec' : t.insertOtp table payload = (reply, u) := Option.some.inj hexec
  simp only [insertOtp, huser, ht.row, Option.isNone_some, Bool.false_eq_true, if_false] at hexec'
  obtain ⟨rfl, rfl⟩ := Prod.mk.inj hexec'
  exact ⟨_, rfl, fun _ => hf _ _ t.dbNow ht.db_le ((ht.inserted unused huser).at_db (Nat.le_refl _))⟩

theorem serves_findLatestOtp {f : Option Otp → Action β}
    (hf : ∀ u now latest, c.db ≤ now → Stored owner user codes { c with db := now } u →
      latest.map Otp.live = (codes.live table).filter (fun code => now < code.expiresAt) →
      (∀ otp ∈ latest, otp ∈ u.tables.otps table ∧ otp.userId = owner.id ∧ otp.usedAt = none) →
      owner.Serves Q (f latest) (done (.findLatestOtp table owner.id) latest :: l) u) :
    owner.Serves Q (perform (.findLatestOtp table owner.id) >>= f) l s := by
  refine serves_quiet h (fun _ h => h) fun t u ω reply ht hu hI hexec => ?_
  injection hexec with hexec
  obtain ⟨rfl, rfl⟩ := Prod.mk.inj hexec
  refine ⟨_, rfl, hf _ t.dbNow _ ht.db_le (ht.at_db (Nat.le_refl _)) (ht.latest ω.number) fun otp hotp => ?_⟩
  have hactive := (List.mem_filter.mp (List.mem_of_getElem? hotp)).1
  obtain ⟨hmem, hotp⟩ := List.mem_filter.mp hactive
  obtain ⟨huser, hactive⟩ := (Bool.and_eq_true _ _).mp hotp
  exact ⟨hmem, of_decide_eq_true huser, (of_decide_eq_true hactive).1⟩

theorem serves_markOtpUsed {otp : Otp} {f : Bool → Action β} (hmem : otp ∈ s.tables.otps table)
    (huser : otp.userId = owner.id) (unused : otp.usedAt = none) (hcode : codes.live table = some otp.live)
    (hf : ∀ u, Stored owner user (codes.use table) c u →
      owner.Serves Q (f true) (done (.markOtpUsed table otp.id) true :: l) u) :
    owner.Serves Q (perform (.markOtpUsed table otp.id) >>= f) l s := by
  refine serves_perform h trivial fun t hst ht hI ω reply u hexec => ?_
  have hmem' := ((mem_otps_of_recordOf hst.record).mpr ⟨hmem, huser⟩).1
  have hany : ((t.tables.otps table).any fun row => row.id = otp.id && row.usedAt = none) = true :=
    List.any_eq_true.mpr ⟨otp, hmem', by simp [unused]⟩
  injection hexec with hexec
  obtain ⟨hreply, hu⟩ := Prod.mk.inj hexec
  simp only [Database.markOtpUsed, hany, if_true] at hreply hu
  subst hu
  exact ⟨_, hreply.symm, fun _ => hf _ (ht.used hmem' huser unused hcode)⟩

theorem serves_countRecentResends {since : ℕ} {f : ℕ → Action β}
    (hf : ∀ u, Stored owner user codes c u → owner.Serves Q (f (codes.resends.countP fun n => since ≤ n))
      (done (.countRecentResends .verification_otps owner.id since) (codes.resends.countP fun n => since ≤ n) :: l) u) :
    owner.Serves Q (perform (.countRecentResends .verification_otps owner.id since) >>= f) l s := by
  refine serves_quiet h (fun _ h => h) fun t u ω reply ht hu hI hexec => ?_
  have hcount : t.countRecentResends .verification_otps owner.id since =
      codes.resends.countP fun n => since ≤ n := by
    rw [← ht.resends, Tables.resendsOf, List.countP_map, List.countP_filter, List.countP_eq_length_filter,
      countRecentResends]
    congr 2
    funext otp
    simp only [Function.comp]
    exact Bool.and_comm _ _
  injection hexec with hexec
  injection hexec with hreply
  rw [hcount] at hreply
  exact ⟨_, hreply.symm, hf u hu⟩

end Rules

end SkillBridge
