import SkillBridge.Database.Pending
import SkillBridge.Interleaving.Interference
import SkillBridge.OneTimeCodes.Rows

set_option autoImplicit false

/-! Everything that is stored of one user, and the statements that leave it alone. -/

namespace SkillBridge

open Interleaving Database

structure UserRecord where
  user : Option User
  oauthAccounts : List OAuthUser
  otps : OtpTable → List Otp
  talentProfiles : List TalentProfile
  employerProfiles : List EmployerProfile

def Tables.recordOf (t : Tables) (id : UserId) : UserRecord where
  user := findById t.users id
  oauthAccounts := t.oauthAccounts.filter fun account => account.user_id = id
  otps := fun table => (t.otps table).filter fun otp => otp.userId = id
  talentProfiles := t.talentProfiles.filter fun profile => profile.user_id = id
  employerProfiles := t.employerProfiles.filter fun profile => profile.user_id = id

def Op.Touches (t : Tables) (id : UserId) : Op → Prop
  | .updateUser id' _ => id' = id
  | .rotateRefreshTokenHash id' _ _ => id' = id
  | .markOnboardingComplete _ id' => id' = id
  | .deleteUser id' => id' = id
  | .insertOauthAccount _ userId _ _ => userId = id
  | .invalidateActiveOtps _ userId => userId = id
  | .insertOtp _ payload => payload.userId = id
  | .markOtpUsed table otpId => ∃ otp ∈ t.otps table, otp.userId = id ∧ otp.id = otpId
  | .insertTalentProfile _ profile => ∃ n, (profile n).user_id = id
  | .insertEmployerProfile _ profile => ∃ n, (profile n).user_id = id
  | _ => False

/-- The statement changes neither the e-mail nor the links of the user, nor is it part of a transaction about the
user. -/
def Op.Modest (id : UserId) : Op → Prop
  | .updateUser id' payload => id' = id → payload.email = none
  | .markOnboardingComplete _ id' => id' ≠ id
  | .deleteUser id' => id' ≠ id
  | .insertOauthAccount _ userId _ _ => userId ≠ id
  | .insertTalentProfile _ profile => ∀ n, (profile n).user_id ≠ id
  | .insertEmployerProfile _ profile => ∀ n, (profile n).user_id ≠ id
  | _ => True

/-- A user by what requests can address: the id, the e-mail and the linked accounts. -/
structure Owner where
  id : UserId
  email : String
  links : List OAuthUser

def Tables.ownerOf (t : Tables) (user : User) : Owner :=
  ⟨user.id, user.email, t.oauthAccounts.filter fun account => account.user_id = user.id⟩

structure Standing (owner : Owner) (db : Database) : Prop where
  constraints : db.Constraints
  otpKeys : ∀ table, OtpKeys table db
  found : ∃ user, findById db.tables.users owner.id = some user ∧ user.email = owner.email
  links : (db.tables.recordOf owner.id).oauthAccounts = owner.links
  pending : Pending (fun w => w.references owner.id = false) db

/-- A code that is not the user's never becomes one, and the clocks do not go back. -/
structure KeepsCodes (id : UserId) (s t : Database) : Prop where
  fresh_le : s.fresh ≤ t.fresh
  appNow_le : s.appNow ≤ t.appNow
  dbNow_le : s.dbNow ≤ t.dbNow
  foreign : ∀ table otpId, otpId < s.fresh → (∀ otp ∈ s.tables.otps table, otp.id = otpId → otp.userId ≠ id) →
    ∀ otp ∈ t.tables.otps table, otp.id = otpId → otp.userId ≠ id

structure Untouched (id : UserId) (s t : Database) : Prop extends KeepsCodes id s t where
  record : t.tables.recordOf id = s.tables.recordOf id

theorem KeepsCodes.trans {id : UserId} {s t u : Database} (h : KeepsCodes id s t) (h' : KeepsCodes id t u) :
    KeepsCodes id s u :=
  ⟨Nat.le_trans h.fresh_le h'.fresh_le, Nat.le_trans h.appNow_le h'.appNow_le, Nat.le_trans h.dbNow_le h'.dbNow_le,
    fun table otpId hlt hs =>
      h'.foreign table otpId (Nat.lt_of_lt_of_le hlt h.fresh_le) (h.foreign table otpId hlt hs)⟩

theorem Untouched.trans {id : UserId} {s t u : Database} (h : Untouched id s t) (h' : Untouched id t u) :
    Untouched id s u :=
  ⟨h.toKeepsCodes.trans h'.toKeepsCodes, h'.record.trans h.record⟩

theorem KeepsCodes.refl (id : UserId) (s : Database) : KeepsCodes id s s :=
  ⟨Nat.le_refl _, Nat.le_refl _, Nat.le_refl _, fun _ _ _ h => h⟩

def Owner.anyone (owner : Owner) : Interference Database where
  Inv := Standing owner
  Rel := KeepsCodes owner.id
  refl := KeepsCodes.refl owner.id
  trans h h' := h.trans h'

def Owner.others (owner : Owner) : Interference Database where
  Inv := Standing owner
  Rel := Untouched owner.id
  refl s := ⟨.refl owner.id s, rfl⟩
  trans h h' := h.trans h'

section Lists

variable {α : Type} {p : α → Bool} {f : α → α}

theorem filter_map_of_fixed {l : List α} (same : ∀ a ∈ l, p (f a) = p a) (fixed : ∀ a ∈ l, p a = true → f a = a) :
    (l.map f).filter p = l.filter p := by
  induction l with
  | nil => rfl
  | cons a l ih =>
    have htail := ih (fun b hb => same b (List.mem_cons_of_mem a hb)) fun b hb => fixed b (List.mem_cons_of_mem a hb)
    have ha := same a List.mem_cons_self
    by_cases hp : p a = true
    · rw [List.map_cons, fixed a List.mem_cons_self hp, List.filter_cons_of_pos hp, List.filter_cons_of_pos hp, htail]
    · rw [List.map_cons, List.filter_cons_of_neg (by rw [ha]; exact hp), List.filter_cons_of_neg hp, htail]

theorem filter_append_other {l : List α} {a : α} (h : p a = false) : (l ++ [a]).filter p = l.filter p := by
  simp [List.filter_append, h]

theorem filter_filter_of_imp {q : α → Bool} (h : ∀ a, p a = true → q a = true) (l : List α) :
    (l.filter q).filter p = l.filter p := by
  rw [List.filter_filter]
  apply List.filter_congr
  intro a _
  cases hp : p a with
  | false => simp
  | true => simp [h a hp]

end Lists

section Users

variable {id i : UserId} {users : List User}

theorem findById_updateWhere_ne {f : User → User} (hf : ∀ user, (f user).id = user.id) (h : i ≠ id) :
    findById (updateWhere i f users) id = findById users id := by
  rw [findById_updateWhere hf]
  cases hfind : findById users id with
  | none => rfl
  | some user =>
    have hid : user.id = id := by simpa using List.find?_some hfind
    rw [Option.map_some, if_neg (by rw [hid]; exact Ne.symm h)]

theorem findById_append_of_isSome {user : User} (h : (findById users id).isSome = true) :
    findById (users ++ [user]) id = findById users id := by
  unfold findById at h ⊢
  rw [List.find?_append]
  exact Option.or_of_isSome h

theorem findById_filter_ne (h : i ≠ id) :
    findById (users.filter fun user => user.id ≠ i) id = findById users id := by
  unfold findById
  rw [List.find?_filter]
  congr 1
  funext user
  by_cases hid : user.id = id
  · simp [hid, Ne.symm h]
  · simp [hid]

end Users

section Statements

variable {t : Tables} {id : UserId}

theorem recordOf_setUsers {users : List User} (h : findById users id = findById t.users id) :
    ({ t with users } : Tables).recordOf id = t.recordOf id := by
  simp only [Tables.recordOf, h]

theorem recordOf_setOtps {otps : OtpTable → List Otp}
    (h : ∀ table, (otps table).filter (fun otp => otp.userId = id) = (t.otps table).filter fun otp => otp.userId = id) :
    ({ t with otps } : Tables).recordOf id = t.recordOf id := by
  simp only [Tables.recordOf, h]

theorem recordOf_apply {w : Write} (other : w.references id = false)
    (registered : (t.recordOf id).user.isSome = true) : (w.apply t).recordOf id = t.recordOf id := by
  cases w with
  | insertUser payload i createdAt => exact recordOf_setUsers (findById_append_of_isSome registered)
  | insertOauthAccount account =>
    have h : (t.oauthAccounts ++ [account]).filter (fun row => row.user_id = id) =
        t.oauthAccounts.filter fun row => row.user_id = id := filter_append_other other
    simp only [Tables.recordOf, Write.apply, h]
  | insertTalentProfile profile =>
    have h : (t.talentProfiles ++ [profile]).filter (fun row => row.user_id = id) =
        t.talentProfiles.filter fun row => row.user_id = id := filter_append_other other
    simp only [Tables.recordOf, Write.apply, h]
  | insertEmployerProfile profile =>
    have h : (t.employerProfiles ++ [profile]).filter (fun row => row.user_id = id) =
        t.employerProfiles.filter fun row => row.user_id = id := filter_append_other other
    simp only [Tables.recordOf, Write.apply, h]
  | markOnboardingComplete i =>
    have h : i ≠ id := by simpa [Write.references] using other
    exact recordOf_setUsers (findById_updateWhere_ne (fun _ => rfl) h)

theorem recordOf_foldl {ws : List Write} (other : ∀ w ∈ ws, w.references id = false)
    (registered : (t.recordOf id).user.isSome = true) : (ws.foldl Write.apply t).recordOf id = t.recordOf id := by
  induction ws generalizing t with
  | nil => rfl
  | cons w ws ih =>
    have hw := recordOf_apply (other w List.mem_cons_self) registered
    rw [List.foldl_cons, ih (fun w' hw' => other w' (List.mem_cons_of_mem w hw')) (by rw [hw]; exact registered), hw]

end Statements

section Step

variable {db t : Database} {o : Op} {reply : Reply o} {t₀ : Tables} {id : UserId}

theorem recordOf_effect (hpending : Pending (fun w => w.references id = false) db)
    (registered : (db.tables.recordOf id).user.isSome = true) (he : Effect db o reply t) (ho : ¬ o.Touches db.tables id) :
    t.tables.recordOf id = db.tables.recordOf id := by
  cases he with
  | insertUser unique alone => exact recordOf_setUsers (findById_append_of_isSome registered)
  | updateUser found unique alone => exact recordOf_setUsers (findById_updateWhere_ne (fun _ => rfl) ho)
  | rotated found stored => exact recordOf_setUsers (findById_updateWhere_ne (fun _ => rfl) ho)
  | @deleteUser i =>
    have hne : ∀ j : UserId, j = id → decide (j ≠ i) = true := by
      rintro j rfl
      exact decide_eq_true (Ne.symm ho)
    simp only [Tables.recordOf, findById_filter_ne ho]
    congr 1
    · funext table
      exact filter_filter_of_imp (fun otp h => hne _ (of_decide_eq_true h)) _
    · exact filter_filter_of_imp (fun profile h => hne _ (of_decide_eq_true h)) _
    · exact filter_filter_of_imp (fun profile h => hne _ (of_decide_eq_true h)) _
  | @linked userId provider providerId found =>
    exact recordOf_apply (w := .insertOauthAccount ⟨db.fresh, userId, provider, providerId, db.dbNow⟩)
      (decide_eq_false ho) registered
  | @invalidated table userId =>
    refine recordOf_setOtps fun table' => ?_
    split_ifs with htable
    · subst htable
      refine filter_map_of_fixed (fun otp _ => by split_ifs <;> rfl) fun otp _ hotp => if_neg ?_
      have hid : otp.userId = id := of_decide_eq_true hotp
      exact fun h => ho (h.1.symm.trans hid)
    · rfl
  | @insertOtp table payload =>
    refine recordOf_setOtps fun table' => ?_
    split_ifs with htable
    · subst htable
      exact filter_append_other (decide_eq_false ho)
    · rfl
  | @markOtpUsed table otpId unused =>
    refine recordOf_setOtps fun table' => ?_
    split_ifs with htable
    · subst htable
      refine filter_map_of_fixed (fun otp _ => by split_ifs <;> rfl) fun otp hmem hotp => if_neg ?_
      exact fun h => ho ⟨otp, hmem, of_decide_eq_true hotp, h.1⟩
    · rfl
  | @committed tx => exact recordOf_foldl (hpending.pending tx) registered
  | _ => rfl

theorem mem_otps_of_recordOf {t s : Tables} (h : t.recordOf id = s.recordOf id) {table : OtpTable} {otp : Otp} :
    otp ∈ t.otps table ∧ otp.userId = id ↔ otp ∈ s.otps table ∧ otp.userId = id := by
  have hmem : otp ∈ (t.recordOf id).otps table ↔ otp ∈ (s.recordOf id).otps table := by rw [h]
  simpa [Tables.recordOf] using hmem

variable {owner : Owner}

theorem Database.Effect.appNow_eq (he : Effect db o reply t) : t.appNow = db.appNow := by
  cases he <;> rfl

theorem KeepsCodes.of_effect (he : Effect db o reply t) : KeepsCodes id db t := by
  refine ⟨he.fresh_le, Nat.le_of_eq he.appNow_eq.symm, Nat.le_of_eq he.dbNow_eq.symm,
    fun table otpId hlt hforeign otp hmem hid => ?_⟩
  cases he.otps table with
  | kept h => exact hforeign otp (h ▸ hmem) hid
  | @inserted payload fresh h =>
    rw [h] at hmem
    rcases List.mem_append.mp hmem with hmem | hmem
    · exact hforeign otp hmem hid
    · rw [List.mem_singleton.mp hmem] at hid
      change db.fresh = otpId at hid
      omega
  | invalidated h =>
    rw [h] at hmem
    obtain ⟨old, hold, rfl⟩ := List.mem_map.mp hmem
    have := hforeign old hold (by split_ifs at hid <;> exact hid)
    split_ifs <;> exact this
  | used h =>
    rw [h] at hmem
    obtain ⟨old, hold, rfl⟩ := List.mem_map.mp hmem
    have := hforeign old hold (by split_ifs at hid <;> exact hid)
    split_ifs <;> exact this
  | deleted h =>
    rw [h] at hmem
    exact hforeign otp (List.mem_filter.mp hmem).1 hid

theorem identity_of_modest (he : Effect db o reply t) (hpending : Pending (fun w => w.references id = false) db)
    (registered : (db.tables.recordOf id).user.isSome = true) (ho : o.Modest id) :
    (findById t.tables.users id).map User.email = (findById db.tables.users id).map User.email ∧
      (t.tables.recordOf id).oauthAccounts = (db.tables.recordOf id).oauthAccounts := by
  cases he with
  | insertUser unique alone => exact ⟨congrArg _ (findById_append_of_isSome registered), rfl⟩
  | @updateUser i payload user found unique alone =>
    refine ⟨?_, rfl⟩
    by_cases hi : i = id
    · subst hi
      have hfind := findById_updateWhere_self (f := payload.apply) (fun _ => rfl) found
      have hemail : (payload.apply user).email = user.email := by
        rw [UserPayload.apply_email, ho rfl]
        rfl
      rw [found]
      exact (congrArg (Option.map User.email) hfind).trans (congrArg some hemail)
    · exact congrArg _ (findById_updateWhere_ne (fun _ => rfl) hi)
  | @rotated i currentHash nextHash user found stored =>
    refine ⟨?_, rfl⟩
    by_cases hi : i = id
    · subst hi
      have hfind := findById_updateWhere_self (f := fun user => { user with refreshTokenHash := some nextHash })
        (fun _ => rfl) found
      rw [found]
      exact (congrArg (Option.map User.email) hfind).trans rfl
    · exact congrArg _ (findById_updateWhere_ne (fun _ => rfl) hi)
  | deleteUser => exact ⟨congrArg _ (findById_filter_ne ho), rfl⟩
  | linked found => exact ⟨rfl, filter_append_other (decide_eq_false ho)⟩
  | @committed tx =>
    have h := recordOf_foldl (t := db.tables) (hpending.pending tx) registered
    exact ⟨congrArg (fun r => r.user.map User.email) h, congrArg UserRecord.oauthAccounts h⟩
  | _ => exact ⟨rfl, rfl⟩

theorem modest_of_untouched {tables : Tables} (ho : ¬ o.Touches tables id) : o.Modest id := by
  cases o with
  | updateUser i payload => exact fun hi => absurd hi ho
  | insertTalentProfile tx profile => exact fun n hn => ho ⟨n, hn⟩
  | insertEmployerProfile tx profile => exact fun n hn => ho ⟨n, hn⟩
  | _ => first | exact ho | trivial

theorem Standing.registered (h : Standing owner db) : (db.tables.recordOf owner.id).user.isSome = true := by
  obtain ⟨user, hfind, -⟩ := h.found
  show (findById db.tables.users owner.id).isSome = true
  rw [hfind]
  rfl

theorem Standing.step (h : Standing owner db) (ha : server.Answers o db reply t) (ho : o.Modest owner.id) :
    Standing owner t ∧ KeepsCodes owner.id db t := by
  have he := answers_effect ha
  obtain ⟨hemail, hlinks⟩ := identity_of_modest he h.pending h.registered ho
  refine ⟨⟨h.constraints.step he, fun table => (h.otpKeys table).step he, ?_, hlinks.trans h.links, ?_⟩,
    .of_effect he⟩
  · obtain ⟨user, hfind, huser⟩ := h.found
    rw [hfind] at hemail
    obtain ⟨user', hfind', huser'⟩ := Option.map_eq_some_iff.mp hemail
    exact ⟨user', hfind', huser'.trans huser⟩
  · refine h.pending.step (answers_transactions ha) fun tx w hsaves => ?_
    cases hsaves with
    | insertUser => rfl
    | insertOauthAccount => exact decide_eq_false ho
    | insertTalentProfile free alone => exact decide_eq_false (ho _)
    | insertEmployerProfile free alone => exact decide_eq_false (ho _)
    | markOnboardingComplete unlocked => exact decide_eq_false ho

theorem Standing.untouched (h : Standing owner db) (ha : server.Answers o db reply t)
    (ho : ¬ o.Touches db.tables owner.id) : Standing owner t ∧ Untouched owner.id db t := by
  have he := answers_effect ha
  obtain ⟨ht, hcodes⟩ := h.step ha (modest_of_untouched ho)
  exact ⟨ht, hcodes, recordOf_effect h.pending h.registered he ho⟩

theorem Standing.tick (h : Standing owner db) (m : Tick) :
    Standing owner (server.env m db) ∧ Untouched owner.id db (server.env m db) :=
  ⟨⟨h.constraints.tick, fun table => ⟨(h.otpKeys table).unique, (h.otpKeys table).fresh⟩, h.found, h.links, h.pending⟩,
    ⟨Nat.le_refl _, Nat.le_add_right _ _, Nat.le_add_right _ _, fun _ _ _ hforeign => hforeign⟩, rfl⟩

end Step

end SkillBridge
