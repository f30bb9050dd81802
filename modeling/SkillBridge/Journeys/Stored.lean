import SkillBridge.Api.Isolation
import SkillBridge.Journeys.Account

set_option autoImplicit false

/-! How the tables hold an account, and what the statements of its owner do to that. -/

namespace SkillBridge

open Interleaving Database

def User.account (user : User) (codes : Codes) : Account where
  profile := AuthService.toAuthUser user
  password := user.password.map Digest.plain
  session := user.refreshTokenHash.map Digest.plain
  twoFactor := ⟨user.two_fa_enabled, user.two_fa_method, user.two_fa_totp_secret⟩
  codes := codes

def Otp.live (otp : Otp) : LiveCode := ⟨otp.otpHash.plain, otp.expiresAt⟩

def Tables.resendsOf (t : Tables) (id : UserId) : List ℕ :=
  ((t.otps .verification_otps).filter fun otp => otp.userId = id && otp.requestSource = .resend).map Otp.createdAt

/-- The row of the owner is `user`, and of each kind of code at most the one of `codes` is active. -/
structure Stored (owner : Owner) (user : User) (codes : Codes) (c : Clocks) (db : Database) : Prop where
  row : findById db.tables.users owner.id = some user
  email : user.email = owner.email
  live : ∀ table, (db.activeOtps table owner.id).map Otp.live =
    ((codes.live table).filter fun code => db.dbNow < code.expiresAt).toList
  resends : db.tables.resendsOf owner.id = codes.resends
  app_le : c.app ≤ db.appNow
  db_le : c.db ≤ db.dbNow

def Codes.issue (codes : Codes) (table : OtpTable) (code : LiveCode) (source : OtpSource) (createdAt : ℕ) : Codes :=
  { codes.send table code with
    resends := if table = .verification_otps ∧ source = .resend then codes.resends ++ [createdAt] else codes.resends }

variable {owner : Owner} {user : User} {codes : Codes} {c : Clocks} {db s t : Database} {table : OtpTable}

theorem activeOtps_eq (db : Database) (table : OtpTable) (id : UserId) :
    db.activeOtps table id = ((db.tables.recordOf id).otps table).filter fun otp => otp.Active db.dbNow := by
  simp only [activeOtps, Tables.recordOf, List.filter_filter]
  congr 1
  funext otp
  exact Bool.and_comm _ _

theorem activeOtps_later {id : UserId} (hrecord : t.tables.recordOf id = s.tables.recordOf id)
    (hle : s.dbNow ≤ t.dbNow) :
    t.activeOtps table id = (s.activeOtps table id).filter fun otp => t.dbNow < otp.expiresAt := by
  rw [activeOtps_eq, activeOtps_eq, hrecord, List.filter_filter]
  apply List.filter_congr
  intro otp _
  rw [Bool.eq_iff_iff, Bool.and_eq_true, decide_eq_true_eq, decide_eq_true_eq, decide_eq_true_eq]
  constructor
  · rintro ⟨hused, hlt⟩
    exact ⟨hlt, hused, by omega⟩
  · rintro ⟨hlt, hused, -⟩
    exact ⟨hused, hlt⟩

theorem resendsOf_eq (t : Tables) (id : UserId) : t.resendsOf id =
    (((t.recordOf id).otps .verification_otps).filter fun otp => otp.requestSource = .resend).map Otp.createdAt := by
  simp only [Tables.resendsOf, Tables.recordOf, List.filter_filter]
  congr 2
  funext otp
  exact Bool.and_comm _ _

namespace Stored

theorem later (h : Stored owner user codes c s) (hst : Untouched owner.id s t) : Stored owner user codes c t := by
  constructor
  · exact (congrArg UserRecord.user hst.record).trans h.row
  · exact h.email
  · intro table
    have hlive := h.live table
    rw [activeOtps_later hst.record hst.dbNow_le]
    have hle := hst.dbNow_le
    cases hcode : codes.live table with
    | none =>
      rw [hcode] at hlive
      rw [List.map_eq_nil_iff.mp hlive]
      rfl
    | some code =>
      rw [hcode] at hlive
      by_cases hlt : s.dbNow < code.expiresAt
      · rw [Option.filter_some_pos (by simpa using hlt)] at hlive
        obtain ⟨otp, hotp, rfl⟩ := List.map_eq_singleton_iff.mp hlive
        rw [hotp]
        by_cases hlt' : t.dbNow < otp.expiresAt
        · simp [Otp.live, hlt', Option.filter]
        · simp [Otp.live, hlt', Option.filter]
      · rw [Option.filter_some_neg (by simpa using hlt)] at hlive
        rw [List.map_eq_nil_iff.mp hlive, Option.filter_some_neg (by simp; omega)]
        rfl
  · rw [resendsOf_eq, hst.record, ← resendsOf_eq]
    exact h.resends
  · exact Nat.le_trans h.app_le hst.appNow_le
  · exact Nat.le_trans h.db_le hst.dbNow_le

theorem at_app (h : Stored owner user codes c s) {now : ℕ} (hnow : now ≤ s.appNow) :
    Stored owner user codes { c with app := now } s :=
  ⟨h.row, h.email, h.live, h.resends, hnow, h.db_le⟩

theorem at_db (h : Stored owner user codes c s) {now : ℕ} (hnow : now ≤ s.dbNow) :
    Stored owner user codes { c with db := now } s :=
  ⟨h.row, h.email, h.live, h.resends, h.app_le, hnow⟩

theorem id_eq (h : Stored owner user codes c s) : user.id = owner.id := by
  simpa using List.find?_some h.row

theorem update (h : Stored owner user codes c s) {payload : UserPayload} (email : payload.email = none) :
    Stored owner (payload.apply user) codes c (s.update owner.id payload) := by
  refine ⟨findById_updateWhere_self (fun _ => rfl) h.row, ?_, h.live, h.resends, h.app_le, h.db_le⟩
  rw [UserPayload.apply_email, email]
  exact h.email

theorem rotated (h : Stored owner user codes c s) (hash : Digest Jwt) :
    Stored owner { user with refreshTokenHash := some hash } codes c (s.setUsers
      (updateWhere owner.id (fun user => { user with refreshTokenHash := some hash }) s.tables.users)) :=
  ⟨findById_updateWhere_self (fun _ => rfl) h.row, h.email, h.live, h.resends, h.app_le, h.db_le⟩

theorem setOtps (h : Stored owner user codes c s) {otps : List Otp} {codes' : Codes}
    (hother : ∀ other, other ≠ table → codes'.live other = codes.live other)
    (hlive : ((otps.filter fun otp => otp.userId = owner.id && otp.Active s.dbNow).map Otp.live) =
      ((codes'.live table).filter fun code => s.dbNow < code.expiresAt).toList)
    (hresends : (s.setOtps table otps).tables.resendsOf owner.id = codes'.resends) :
    Stored owner user codes' c (s.setOtps table otps) := by
  refine ⟨h.row, h.email, fun other => ?_, hresends, h.app_le, h.db_le⟩
  change ((s.setOtps table otps).activeOtps other owner.id).map Otp.live =
    ((codes'.live other).filter fun code => s.dbNow < code.expiresAt).toList
  by_cases hne : other = table
  · subst hne
    rw [← hlive, activeOtps, otps_setOtps]
    rfl
  · rw [hother other hne, ← h.live other, activeOtps, otps_setOtps_ne hne]
    rfl

theorem resendsOf_map {f : Otp → Otp} (id : UserId) (hf : ∀ otp, (f otp).userId = otp.userId ∧
      (f otp).requestSource = otp.requestSource ∧ (f otp).createdAt = otp.createdAt) :
    (s.setOtps table ((s.tables.otps table).map f)).tables.resendsOf id = s.tables.resendsOf id := by
  unfold Tables.resendsOf
  by_cases htable : table = .verification_otps
  · subst htable
    rw [otps_setOtps, List.filter_map, List.map_map]
    have hcreated : Otp.createdAt ∘ f = Otp.createdAt := funext fun otp => (hf otp).2.2
    rw [hcreated]
    congr 2
    funext otp
    simp only [Function.comp, (hf otp).1, (hf otp).2.1]
  · rw [otps_setOtps_ne (Ne.symm htable)]

theorem invalidated (h : Stored owner user codes c s) (table : OtpTable) :
    Stored owner user (codes.use table) c (s.invalidateActiveOtps table owner.id) := by
  refine h.setOtps (fun other hne => Function.update_of_ne hne _ _) ?_ ?_
  · simp only [Codes.use, Function.update_self, Option.filter_none, Option.toList_none, List.map_eq_nil_iff,
      List.filter_eq_nil_iff, List.mem_map, forall_exists_index, and_imp, forall_apply_eq_imp_iff₂]
    intro otp _
    split_ifs with hactive
    · simp [Otp.Active]
    · simpa using hactive
  · refine (resendsOf_map owner.id fun otp => ?_).trans h.resends
    split_ifs <;> exact ⟨rfl, rfl, rfl⟩

theorem inserted (h : Stored owner user codes c s) (hnone : codes.live table = none) {payload : NewOtp}
    (huser : payload.userId = owner.id) : Stored owner user
      (codes.issue table ⟨payload.otpHash.plain, payload.expiresAt⟩ payload.requestSource s.dbNow) c
      (s.setOtps table (s.tables.otps table ++ [payload.toOtp s.fresh s.dbNow])).tick := by
  have hactive : (s.tables.otps table).filter (fun otp => otp.userId = owner.id && otp.Active s.dbNow) = [] := by
    have hlive := h.live table
    rw [hnone] at hlive
    exact List.map_eq_nil_iff.mp hlive
  suffices hset : Stored owner user
      (codes.issue table ⟨payload.otpHash.plain, payload.expiresAt⟩ payload.requestSource s.dbNow) c
      (s.setOtps table (s.tables.otps table ++ [payload.toOtp s.fresh s.dbNow])) from
    ⟨hset.row, hset.email, hset.live, hset.resends, hset.app_le, hset.db_le⟩
  refine h.setOtps (fun other hne => Function.update_of_ne hne _ _) ?_ ?_
  · rw [List.filter_append, hactive, List.nil_append]
    simp only [Codes.issue, Codes.send, Function.update_self]
    by_cases hlt : s.dbNow < payload.expiresAt
    · rw [List.filter_singleton]
      simp [huser, Otp.Active, NewOtp.toOtp, hlt, Otp.live, Option.filter]
    · rw [List.filter_singleton]
      simp [Otp.Active, NewOtp.toOtp, hlt, Option.filter]
  · have hresends := h.resends
    unfold Tables.resendsOf at hresends ⊢
    simp only [Codes.issue, Codes.send]
    by_cases htable : table = .verification_otps
    · subst htable
      rw [otps_setOtps, List.filter_append, List.map_append, hresends, List.filter_singleton]
      by_cases hsource : payload.requestSource = .resend
      · simp [huser, hsource, NewOtp.toOtp]
      · simp [hsource, NewOtp.toOtp]
    · rw [otps_setOtps_ne (Ne.symm htable), hresends]
      simp [htable]

theorem used (h : Stored owner user codes c s) {otp : Otp} (hmem : otp ∈ s.tables.otps table)
    (huser : otp.userId = owner.id) (hunused : otp.usedAt = none) (hcode : codes.live table = some otp.live) :
    Stored owner user (codes.use table) c (s.setOtps table ((s.tables.otps table).map fun row =>
      if row.id = otp.id ∧ row.usedAt = none then { row with usedAt := some s.dbNow } else row)) := by
  refine h.setOtps (fun other hne => Function.update_of_ne hne _ _) ?_ ?_
  · simp only [Codes.use, Function.update_self, Option.filter_none, Option.toList_none, List.map_eq_nil_iff,
      List.filter_eq_nil_iff, List.mem_map, forall_exists_index, and_imp, forall_apply_eq_imp_iff₂]
    intro row hrow
    split_ifs with hid
    · simp [Otp.Active]
    · intro hactive
      have hlive := h.live table
      have hmemActive : row ∈ s.activeOtps table owner.id := List.mem_filter.mpr ⟨hrow, hactive⟩
      rw [hcode] at hlive
      by_cases hlt : s.dbNow < otp.live.expiresAt
      · -- both rows are active, and only one can be
        have hotp : otp ∈ s.activeOtps table owner.id :=
          List.mem_filter.mpr ⟨hmem, by simp [huser, Otp.Active, hunused, show s.dbNow < otp.expiresAt from hlt]⟩
        rw [Option.filter_some_pos (by simpa using hlt)] at hlive
        obtain ⟨other, hother, -⟩ := List.map_eq_singleton_iff.mp hlive
        rw [hother, List.mem_singleton] at hmemActive hotp
        exact hid ⟨by rw [hmemActive, hotp], by rw [hmemActive, ← hotp, hunused]⟩
      · rw [Option.filter_some_neg (by simpa using hlt)] at hlive
        rw [List.map_eq_nil_iff.mp hlive] at hmemActive
        cases hmemActive
  · refine (resendsOf_map owner.id fun row => ?_).trans h.resends
    split_ifs <;> exact ⟨rfl, rfl, rfl⟩

theorem latest (h : Stored owner user codes c s) (draw : ℕ) :
    (s.findLatestOtp table owner.id draw).map Otp.live =
      (codes.live table).filter fun code => s.dbNow < code.expiresAt := by
  have hlive := h.live table
  have hfind : s.findLatestOtp table owner.id draw = (s.activeOtps table owner.id).head? := by
    cases hactive : s.activeOtps table owner.id with
    | nil => simp [findLatestOtp, hactive]
    | cons otp rest =>
      have hrest : rest = [] := by
        rw [hactive] at hlive
        have hlength := congrArg List.length hlive
        have := Option.length_toList_le (o := (codes.live table).filter fun code => s.dbNow < code.expiresAt)
        simp only [List.map_cons, List.length_cons, List.length_map] at hlength
        exact List.eq_nil_of_length_eq_zero (by omega)
      subst hrest
      simp [findLatestOtp, hactive, Nat.mod_one]
  rw [hfind, ← List.head?_map, hlive, Option.head?_toList]

end Stored

end SkillBridge
