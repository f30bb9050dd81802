import SkillBridge.OneTimeCodes.AllOrNothing

set_option autoImplicit false

/-! What a request leaves behind when the message with its new code cannot be sent. -/

namespace SkillBridge

open Interleaving Prog

inductive CodeRequest
  | register (dto : RegisterDto)
  | resendVerification (email : String)
  | deliverPasswordReset (userId : UserId)

def CodeRequest.toRequest : CodeRequest → Request
  | register dto => .register dto
  | resendVerification email => .resendVerification email
  | deliverPasswordReset userId => .deliverPasswordReset userId

def CodeRequest.table : CodeRequest → OtpTable
  | deliverPasswordReset _ => .password_reset_otps
  | _ => .verification_otps

def CodeRequest.source : CodeRequest → OtpSource
  | resendVerification _ => .resend
  | _ => .initial

def Op.sendsMail : Op → Bool
  | sendVerificationOtp _ => true
  | sendPasswordReset _ => true
  | _ => false

def DeliveryFailed (l : List ApiCall) : Prop := ∃ o e, (⟨o, .error e⟩ : ApiCall) ∈ l ∧ o.sendsMail = true

/-- A new unused code is stored, and those that were active are used up. -/
def LeavesCode (table : OtpTable) (source : OtpSource) (userId : UserId) (db t : Database) : Prop :=
  ∃ otp : Otp, otp.userId = userId ∧ otp.usedAt = none ∧ otp.requestSource = source ∧
    otp.createdAt = db.dbNow ∧ t.tables.otps table = (db.invalidateActiveOtps table userId).tables.otps table ++ [otp]

def CodeRequest.LeavesUser (user : User) (db t : Database) : CodeRequest → Prop
  | register dto => user.email = dto.email ∧ t.tables.users = db.tables.users ++ [user]
  | resendVerification email => user.email = email ∧ user ∈ db.tables.users ∧ t.tables.users = db.tables.users
  | deliverPasswordReset userId => user.id = userId ∧ user ∈ db.tables.users ∧ t.tables.users = db.tables.users

section Steps

variable {db s t : Database} {α β : Type}

theorem not_deliveryFailed {l : List ApiCall} (h : ∀ c ∈ l, c.1.sendsMail = false) : ¬ DeliveryFailed l := by
  rintro ⟨o, e, hmem, hmail⟩
  rw [h _ hmem] at hmail
  cases hmail

theorem LeavesCode.otps_ne {table : OtpTable} {source : OtpSource} {userId : UserId}
    (h : LeavesCode table source userId db t) : t.tables.otps ≠ db.tables.otps := by
  obtain ⟨otp, -, -, -, -, hotps⟩ := h
  intro heq
  have hlength := congrArg List.length ((congrFun heq table).symm.trans hotps)
  simp [Database.invalidateActiveOtps, Database.setOtps] at hlength

/-- What may still send the message: whenever it fails, the caller learns of it and `P` holds. -/
def Delivers (P : Database → Prop) (p : Action α) (s : Database) : Prop :=
  p.Traced server s fun l result t => DeliveryFailed l → (∃ e, result = .error e) ∧ P t

theorem delivers_quiet {P : Database → Prop} {p : Action α} (quiet : p.Calls fun o : Op => o.sendsMail = false) :
    Delivers P p s := by
  apply (traced_of_calls quiet).mono
  exact fun l result t hl failed => absurd failed (not_deliveryFailed hl)

theorem delivers_bind {P : Database → Prop} {Mid : β → Database → Prop} {p : Action β} {f : β → Action α}
    (quiet : p.Calls fun o : Op => o.sendsMail = false)
    (hp : p.Yields server Mid s)
    (hf : ∀ b t, Mid b t → Delivers P (f b) t) : Delivers P (p >>= f) s := by
  apply traced_bind
  apply ((traced_of_calls quiet).and (traced_of_wlp hp)).mono
  rintro l result t ⟨hl, hmid⟩
  cases result with
  | error e => exact fun failed => absurd failed (not_deliveryFailed hl)
  | ok b =>
    apply (hf b t (hmid b rfl)).mono
    rintro l' result u h ⟨o, e, hmem, hmail⟩
    rcases List.mem_append.mp hmem with hmem | hmem
    · rw [hl _ hmem] at hmail
      cases hmail
    · exact h ⟨o, e, hmem, hmail⟩

theorem exec_send {o : Op} {ω : Draw} {reply : Reply o} (mail : o.sendsMail = true)
    (h : Database.exec o ω s = some (reply, t)) : (∃ r, reply = .ok r) ∧ t = s := by
  cases o with
  | sendVerificationOtp mail =>
    obtain ⟨rfl, rfl⟩ := Prod.mk.inj (Option.some.inj h)
    exact ⟨⟨_, rfl⟩, rfl⟩
  | sendPasswordReset mail =>
    obtain ⟨rfl, rfl⟩ := Prod.mk.inj (Option.some.inj h)
    exact ⟨⟨_, rfl⟩, rfl⟩
  | _ => cases mail

theorem delivers_send {P : Database → Prop} {o : Op} (mail : o.sendsMail = true) (hP : P s) :
    Delivers P (perform o) s := by
  apply traced_perform
  · intro ω reply t h
    obtain ⟨⟨r, rfl⟩, rfl⟩ := exec_send mail h
    rintro ⟨o', e, hmem, hmail⟩
    obtain ⟨rfl, hreply⟩ := Sigma.mk.inj (List.mem_singleton.mp hmem)
    cases eq_of_heq hreply
  · exact fun e _ _ => ⟨⟨e, rfl⟩, hP⟩

theorem delivers_then {P : Database → Prop} {p : Action β} {f : β → α} (h : Delivers P p s) :
    Delivers P (f <$> p) s := by
  apply traced_map
  apply h.mono
  intro l result t h failed
  obtain ⟨⟨e, rfl⟩, hP⟩ := h failed
  exact ⟨⟨e, rfl⟩, hP⟩

theorem find_yields {o : Op} {r : o.Res} (h : ∀ ω, Database.exec o ω s = some (.ok r, s)) :
    (perform o).Yields server (fun r' t => r' = r ∧ t = s) s := by
  refine yields_perform fun ω r' t hω => ?_
  obtain ⟨hr, rfl⟩ := Prod.mk.inj (Option.some.inj (hω.symm.trans (h ω)))
  exact ⟨Except.ok.inj hr, rfl⟩

theorem issue_calls (table : OtpTable) (expiresIn : ℕ) (userId : UserId) (source : OtpSource) :
    (Otp.issue table expiresIn userId source).Calls fun o : Op => o.sendsMail = false := by
  refine calls_bind (calls_perform rfl) fun _ => ?_
  refine calls_bind (calls_bind (calls_perform rfl) fun _ => trivial) fun _ => ?_
  refine calls_bind (calls_perform rfl) fun _ => ?_
  refine calls_bind (calls_perform rfl) fun _ => ?_
  exact calls_bind (calls_perform rfl) fun _ => trivial

theorem issue_yields (table : OtpTable) (expiresIn : ℕ) (userId : UserId) (source : OtpSource)
    (otps : s.tables.otps = db.tables.otps) (now : s.dbNow = db.dbNow) :
    (Otp.issue table expiresIn userId source).Yields server
      (fun _ t => LeavesCode table source userId db t ∧ t.tables.users = s.tables.users) s := by
  have hsame : ∀ {o : Op} {u v w : Database} {reply r : Reply o}, some (r, v) = some (reply, w) → v = u → w = u := by
    rintro o u v w reply r h rfl
    exact (Prod.mk.inj (Option.some.inj h)).2.symm
  refine yields_perform_bind (fun ω reply u h => hsame h rfl) fun _ => ?_
  refine yields_bind (Q := fun _ t => t = s.invalidateActiveOtps table userId) ?_ fun code t ht => ?_
  · exact yields_perform_bind (fun ω reply u h => hsame h rfl) fun n => yields_ret rfl
  subst ht
  refine yields_perform_bind (fun ω reply u h => hsame h rfl) fun (now' : ℕ) => ?_
  refine yields_perform_bind (fun ω reply u h => hsame h rfl) fun hash => ?_
  refine yields_bind (Q := fun _ t => LeavesCode table source userId db t ∧ t.tables.users = s.tables.users)
    (yields_perform fun ω otp t h => ?_) fun otp t h => yields_ret h
  have hinsert := Option.some.inj h
  unfold Database.insertOtp at hinsert
  split_ifs at hinsert
  · cases hinsert
  · obtain ⟨-, rfl⟩ := Prod.mk.inj hinsert
    refine ⟨⟨NewOtp.toOtp ⟨userId, hash, now' + expiresIn, source⟩ (s.fresh + 1) s.dbNow, rfl, rfl, rfl, now, ?_⟩, rfl⟩
    simp only [Database.invalidateActiveOtps, Database.setOtps, Database.tick, ↓reduceIte, otps, now]

theorem create_calls (dto : CreateUserDto) : (UsersService.create dto).Calls fun o : Op => o.sendsMail = false :=
  UsersService.calls_create rfl rfl fun _ _ _ => rfl

theorem create_yields (dto : CreateUserDto) : (UsersService.create dto).Yields server (fun user t =>
    user.email = dto.email ∧ t.tables.users = s.tables.users ++ [user] ∧ t.tables.otps = s.tables.otps ∧
      t.dbNow = s.dbNow) s := by
  have hsame : ∀ {o : Op} {u v w : Database} {reply r : Reply o}, some (r, v) = some (reply, w) → v = u → w = u := by
    rintro o u v w reply r h rfl
    exact (Prod.mk.inj (Option.some.inj h)).2.symm
  refine yields_perform_bind (fun ω reply u h => hsame h rfl) fun found => ?_
  cases found with
  | some user => exact yields_throw
  | none =>
    refine yields_perform_bind (fun ω reply u h => hsame h rfl) fun hash => yields_perform fun ω user t h => ?_
    rcases Database.insertUnique_cases h with ⟨e, he, -⟩ | ⟨-, -, -, hrow, rfl⟩
    · cases he
    · obtain rfl := Except.ok.inj hrow
      exact ⟨rfl, rfl, rfl, rfl⟩

end Steps

section Requests

variable {env : Env} {db t : Database} {l : List ApiCall} {result : Except Failure Response} {req : CodeRequest}

theorem register_delivers (dto : RegisterDto) : Delivers (fun t => ∃ user,
    (CodeRequest.register dto).LeavesUser user db t ∧ LeavesCode .verification_otps .initial user.id db t)
    (AuthService.register env dto) db := by
  refine delivers_bind (create_calls _) (create_yields _) ?_
  rintro user s ⟨hemail, husers, hotps, hnow⟩
  refine delivers_bind (issue_calls _ _ _ _) (issue_yields _ _ _ _ hotps hnow) ?_
  rintro issued t ⟨hcode, hkept⟩
  exact delivers_then <| delivers_send rfl ⟨user, ⟨hemail, hkept.trans husers⟩, hcode⟩

theorem resendVerification_delivers (email : String) : Delivers (fun t => ∃ user,
    (CodeRequest.resendVerification email).LeavesUser user db t ∧
      LeavesCode .verification_otps .resend user.id db t) (AuthService.resendVerification env email) db := by
  refine delivers_bind (calls_perform rfl) (find_yields fun ω => rfl) ?_
  rintro found s ⟨rfl, rfl⟩
  cases hfind : s.tables.users.find? fun user => user.email = email with
  | none => exact delivers_quiet trivial
  | some user =>
    have hemail : user.email = email := by simpa using List.find?_some hfind
    dsimp only
    split_ifs
    · exact delivers_quiet trivial
    refine delivers_bind (calls_perform rfl) (find_yields fun ω => rfl) ?_
    rintro now s ⟨-, rfl⟩
    refine delivers_bind (calls_perform rfl) (find_yields fun ω => rfl) ?_
    rintro count s ⟨-, rfl⟩
    split_ifs
    · exact delivers_quiet trivial
    refine delivers_bind (issue_calls _ _ _ _) (issue_yields _ _ _ _ rfl rfl) ?_
    rintro issued t ⟨hcode, hkept⟩
    exact delivers_then <| delivers_send rfl ⟨user, ⟨hemail, List.mem_of_find?_eq_some hfind, hkept⟩, hcode⟩

theorem deliverForUser_delivers (userId : UserId) : Delivers (fun t => ∃ user,
    (CodeRequest.deliverPasswordReset userId).LeavesUser user db t ∧
      LeavesCode .password_reset_otps .initial user.id db t)
    (PasswordResetDeliveryService.deliverForUser env userId) db := by
  refine delivers_bind (calls_perform rfl) (find_yields fun ω => rfl) ?_
  rintro found s ⟨rfl, rfl⟩
  cases hfind : Database.findById (s.view none).users userId with
  | none => exact delivers_quiet trivial
  | some user =>
    have hid : user.id = userId := by simpa using List.find?_some hfind
    refine delivers_bind (issue_calls _ _ _ _) (issue_yields _ _ _ _ rfl rfl) ?_
    rintro issued t ⟨hcode, hkept⟩
    exact delivers_send rfl ⟨user, ⟨hid, List.mem_of_find?_eq_some hfind, hkept⟩, hcode⟩

/-- Whenever the message with the new code cannot be sent, the request is rejected, and what it has written stays. -/
theorem failed_delivery_leaves_trace (h : Trail server (handle env req.toRequest) db l result t)
    (failed : DeliveryFailed l) : (∃ e, result = .error e) ∧ ¬ SameRows db t ∧
      ∃ user, req.LeavesUser user db t ∧ LeavesCode req.table req.source user.id db t := by
  have hdelivers : Delivers (fun t => ∃ user,
      req.LeavesUser user db t ∧ LeavesCode req.table req.source user.id db t) (handle env req.toRequest) db := by
    cases req with
    | register dto => exact delivers_then (register_delivers dto)
    | resendVerification email => exact delivers_then (resendVerification_delivers email)
    | deliverPasswordReset userId => exact delivers_then (deliverForUser_delivers userId)
  obtain ⟨herror, user, huser, hcode⟩ := h.of_traced hdelivers failed
  exact ⟨herror, fun hsame => hcode.otps_ne hsame.2, user, huser, hcode⟩

end Requests

section Aftermath

variable {db t : Database} {table : OtpTable} {source : OtpSource} {userId : UserId}

/-- The codes that were delivered before are no longer accepted: only the new one, which nobody got, is active. -/
theorem LeavesCode.active_eq (h : LeavesCode table source userId db t) : ∃ new, t.tables.otps table =
    (db.invalidateActiveOtps table userId).tables.otps table ++ [new] ∧
    ∀ otp ∈ t.tables.otps table, otp.userId = userId → otp.Active db.dbNow → otp = new := by
  obtain ⟨new, -, -, -, -, hotps⟩ := h
  refine ⟨new, hotps, fun otp hmem huser hactive => ?_⟩
  rw [hotps] at hmem
  rcases List.mem_append.mp hmem with hold | hnew
  · simp only [Database.invalidateActiveOtps, Database.setOtps, ↓reduceIte] at hold
    obtain ⟨row, -, rfl⟩ := List.mem_map.mp hold
    split_ifs at huser hactive with hrow
    · cases hactive.1
    · exact absurd ⟨huser, hactive⟩ hrow
  · exact List.mem_singleton.mp hnew

theorem LeavesCode.countRecentResends (h : LeavesCode table .resend userId db t) {since : ℕ} (recent : since ≤ db.dbNow) :
    t.countRecentResends table userId since = db.countRecentResends table userId since + 1 := by
  obtain ⟨otp, huser, -, hsource, hcreated, hotps⟩ := h
  have hmap : ∀ l : List Otp, ((l.map fun otp =>
      if otp.userId = userId ∧ otp.Active db.dbNow then { otp with usedAt := some db.dbNow } else otp).filter
        fun otp => otp.userId = userId && otp.requestSource = .resend && since ≤ otp.createdAt).length =
      (l.filter fun otp => otp.userId = userId && otp.requestSource = .resend && since ≤ otp.createdAt).length := by
    intro l
    induction l with
    | nil => rfl
    | cons row l ih =>
      simp only [List.map_cons, List.filter_cons]
      split_ifs with hactive <;> simp_all
  unfold Database.countRecentResends
  rw [hotps, List.filter_append, List.length_append]
  simp only [Database.invalidateActiveOtps, Database.setOtps, ↓reduceIte, hmap]
  simp [huser, hsource, hcreated, recent]

theorem register_conflict {env : Env} {dto : RegisterDto} (h : ∃ user ∈ t.tables.users, user.email = dto.email) :
    (AuthService.register env dto).Wlp server.reliable
      (fun result _ => result = .error (conflictError ErrorMessages.EMAIL_ALREADY_REGISTERED)) t := by
  have hfound : (t.tables.users.find? fun user => user.email = dto.email).isSome = true := by
    rw [List.find?_isSome]
    obtain ⟨user, hmem, hemail⟩ := h
    exact ⟨user, hmem, by simpa using hemail⟩
  obtain ⟨user, huser⟩ := Option.isSome_iff_exists.mp hfound
  apply wlp_bind
  apply wlp_bind
  apply wlp_perform
  · intro ω reply u h
    obtain ⟨rfl, rfl⟩ := Prod.mk.inj (Option.some.inj h)
    dsimp only
    rw [huser]
    rfl
  · intro e he
    cases he

end Aftermath

section Trails

def signUp : CodeRequest := .register
  { email := "ada@example.com", password := "a long password", firstName := "Ada", lastName := "Lovelace"
    role := .talent }

def signUpTrail : Option (List ApiCall × Except Failure Response × Database) :=
  (handle sampleEnv signUp.toRequest).replay server (sampleDatabase [])
    [.inl {}, .inl {}, .inl {}, .inl {}, .inl {}, .inl {}, .inl {}, .inl {}, .inr (.error "smtp")]

theorem signUpTrail_isSome : signUpTrail.isSome = true := rfl

theorem signUp_deliveryFailed : DeliveryFailed (signUpTrail.get signUpTrail_isSome).1 :=
  ⟨_, .error "smtp", List.getLast_mem (by decide +kernel), rfl⟩

theorem signUp_leaves_trace : ∃ l result t, signUpTrail = some (l, result, t) ∧
    (∃ e, result = .error e) ∧ ¬ SameRows (sampleDatabase []) t ∧ ∃ user,
      signUp.LeavesUser user (sampleDatabase []) t ∧
      LeavesCode signUp.table signUp.source user.id (sampleDatabase []) t :=
  ⟨_, _, _, (Option.some_get signUpTrail_isSome).symm, @failed_delivery_leaves_trace sampleEnv _ _ _ _ signUp
    (trail_of_replay (Option.some_get signUpTrail_isSome).symm) signUp_deliveryFailed⟩

theorem half_registered : ¬ ∀ (env : Env) (req : CodeRequest) (db t : Database) (l : List ApiCall)
    (result : Except Failure Response), Trail server (handle env req.toRequest) db l result t → DeliveryFailed l →
    SameRows db t := by
  intro h
  have hsame := h sampleEnv signUp _ _ _ _ (trail_of_replay (Option.some_get signUpTrail_isSome).symm)
    signUp_deliveryFailed
  exact absurd (congrArg List.length hsame.1) (by decide +kernel)

end Trails

end SkillBridge
