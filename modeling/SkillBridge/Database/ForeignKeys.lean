import SkillBridge.Api.Runs
import SkillBridge.Database.Deployments
import SkillBridge.Database.Transactions
import SkillBridge.Onboarding.Profiles

set_option autoImplicit false

/-!
What belongs to a user goes with the user. The foreign keys are those that the migrations have created; the server
checks them statement by statement, against what the transaction of the statement reads.
-/

namespace SkillBridge

open Interleaving

def Write.owner : Write → Option UserId
  | insertOauthAccount account => some account.user_id
  | insertTalentProfile profile => some profile.user_id
  | insertEmployerProfile profile => some profile.user_id
  | _ => none

def Write.newUser : Write → Option UserId
  | insertUser _ id _ => some id
  | _ => none

namespace Tables

def Has (t : Tables) (id : UserId) : Prop := ∃ user ∈ t.users, user.id = id

def Owns (t : Tables) (id : UserId) : Prop :=
  (∃ account ∈ t.oauthAccounts, account.user_id = id) ∨ (∃ table, ∃ otp ∈ t.otps table, otp.userId = id) ∨
    (∃ profile ∈ t.talentProfiles, profile.user_id = id) ∨ ∃ profile ∈ t.employerProfiles, profile.user_id = id

variable {t : Tables} {id : UserId}

theorem has_updateWhere {id' : UserId} {f : User → User} (hf : ∀ user, (f user).id = user.id) :
    ({ t with users := updateWhere id' f t.users } : Tables).Has id ↔ t.Has id := by
  simp only [Has, updateWhere, List.mem_map, exists_exists_and_eq_and]
  refine exists_congr fun user => and_congr_right fun _ => ?_
  split_ifs
  · rw [hf]
  · rfl

theorem has_apply (w : Write) : (w.apply t).Has id ↔ t.Has id ∨ w.newUser = some id := by
  cases w with
  | insertUser payload id' createdAt => simp [Write.apply, Has, Write.newUser, NewUser.toUser, or_and_right, exists_or]
  | markOnboardingComplete id' =>
    simp only [Write.apply, Write.newUser, reduceCtorEq, or_false]
    exact has_updateWhere fun _ => rfl
  | _ => simp [Write.apply, Has, Write.newUser]

theorem owns_apply (w : Write) : (w.apply t).Owns id ↔ t.Owns id ∨ w.owner = some id := by
  cases w with
  | insertUser | markOnboardingComplete => simp [Write.apply, Owns, Write.owner]
  | _ =>
    simp only [Write.apply, Owns, Write.owner, List.mem_append, List.mem_singleton, or_and_right, exists_or,
      exists_eq_left, Option.some.injEq]
    grind

theorem has_foldl (ws : List Write) :
    (ws.foldl Write.apply t).Has id ↔ t.Has id ∨ ∃ w ∈ ws, w.newUser = some id := by
  induction ws generalizing t with
  | nil => simp
  | cons w ws ih => rw [List.foldl_cons, ih, has_apply, List.exists_mem_cons_iff, or_assoc]

theorem owns_foldl (ws : List Write) :
    (ws.foldl Write.apply t).Owns id ↔ t.Owns id ∨ ∃ w ∈ ws, w.owner = some id := by
  induction ws generalizing t with
  | nil => simp
  | cons w ws ih => rw [List.foldl_cons, ih, owns_apply, List.exists_mem_cons_iff, or_assoc]

end Tables

namespace Database

/-- Whatever belongs to a user, committed or about to be, belongs to one who is there for the transaction. -/
structure References (db : Database) : Prop where
  committed : ∀ id, db.tables.Owns id → db.tables.Has id
  pending : ∀ entry ∈ db.transactions, ∀ w ∈ entry.2, ∀ id, w.owner = some id →
    db.tables.Has id ∨ ∃ w' ∈ entry.2, w'.newUser = some id

variable {db t : Database} {tx : TxId} {id : UserId} {w : Write}

theorem has_of_found {tables : Tables} (h : (findById tables.users id).isNone = false) : tables.Has id := by
  obtain ⟨user, hfound⟩ := Option.isSome_iff_exists.mp (Option.isNone_eq_false_iff.mp h)
  exact ⟨user, List.mem_of_find?_eq_some hfound, findById_id hfound⟩

theorem mem_pending (h : w ∈ db.pending tx) : (tx, db.pending tx) ∈ db.transactions := by
  rw [pending, lookup_eq] at h ⊢
  cases hhead : (db.transactions.filter fun entry => entry.1 = tx).head? with
  | none =>
    rw [hhead] at h
    cases h
  | some entry =>
    obtain ⟨hmem, hkey⟩ := List.mem_filter.mp (List.mem_of_head? hhead)
    obtain rfl := of_decide_eq_true hkey
    exact hmem

theorem Constraints.pending_of_mem (h : db.Constraints) {entry : TxId × List Write}
    (hentry : entry ∈ db.transactions) : db.pending entry.1 = entry.2 := by
  have hmem : entry ∈ db.transactions.filter fun other => other.1 = entry.1 :=
    List.mem_filter.mpr ⟨hentry, decide_eq_true rfl⟩
  rw [pending, lookup_eq]
  cases hhead : (db.transactions.filter fun other => other.1 = entry.1).head? with
  | none =>
    rw [List.head?_eq_none_iff.mp hhead] at hmem
    cases hmem
  | some other =>
    obtain ⟨hother, hkey⟩ := List.mem_filter.mp (List.mem_of_head? hhead)
    rw [List.inj_on_of_nodup_map h.keys hother hentry (of_decide_eq_true hkey)]
    rfl

theorem References.grow (h : db.References) (howns : ∀ id, t.tables.Owns id → db.tables.Owns id ∨ t.tables.Has id)
    (hhas : ∀ id, db.tables.Has id → t.tables.Has id)
    (hentries : ∀ entry ∈ t.transactions, entry ∈ db.transactions ∨ entry.2 = []) : t.References where
  committed id hid := by
    rcases howns id hid with hold | hnew
    · exact hhas id (h.committed id hold)
    · exact hnew
  pending entry hentry w hw id hid := by
    rcases hentries entry hentry with hold | hnil
    · exact (h.pending entry hold w hw id hid).imp_left (hhas id)
    · rw [hnil] at hw
      cases hw

theorem References.save (hc : db.Constraints) (h : db.References) {tx : Option TxId}
    (hw : ∀ id, w.owner = some id → (db.view tx).Has id) : (db.save tx w).tick.References := by
  cases tx with
  | none =>
    refine h.grow (fun id hid => ?_) (fun id hid => (Tables.has_apply w).mpr (.inl hid)) fun _ => .inl
    exact ((Tables.owns_apply w).mp hid).imp_right fun hid => (Tables.has_apply w).mpr (.inl (hw id hid))
  | some tx =>
    refine ⟨h.committed, fun entry hentry w' hw' id hid => ?_⟩
    obtain ⟨old, hold, rfl⟩ := List.mem_map.mp hentry
    split_ifs at hw' ⊢ with hkey
    · rcases List.mem_append.mp hw' with hw' | hw'
      · rcases h.pending old hold w' hw' id hid with hhas | ⟨user, huser, hnew⟩
        · exact .inl hhas
        · exact .inr ⟨user, List.mem_append_left _ huser, hnew⟩
      · obtain rfl := List.mem_singleton.mp hw'
        have hview := hw id hid
        rw [view, ← hkey, hc.pending_of_mem hold] at hview
        rcases (Tables.has_foldl _).mp hview with hhas | ⟨user, huser, hnew⟩
        · exact .inl hhas
        · exact .inr ⟨user, List.mem_append_left _ huser, hnew⟩
    · exact h.pending old hold w' hw' id hid

theorem References.commit (h : db.References) :
    ({ db with tables := db.view (some tx), transactions := db.closeTransaction tx } : Database).References := by
  refine h.grow (fun id hid => ?_) (fun id hid => (Tables.has_foldl _).mpr (.inl hid)) fun entry hentry =>
    .inl (List.mem_filter.mp hentry).1
  rcases (Tables.owns_foldl _).mp hid with howns | ⟨w, hw, howner⟩
  · exact .inl howns
  · exact .inr ((Tables.has_foldl _).mpr (h.pending _ (mem_pending hw) w hw id howner))

theorem references_of_owner (h : w.owner = some id) : w.references id = true := by
  cases w with
  | insertOauthAccount | insertTalentProfile | insertEmployerProfile =>
    obtain rfl := Option.some.inj h
    exact decide_eq_true rfl
  | _ => cases h

theorem References.delete (h : db.References) (hreferenced : ¬ (db.others none).any (Write.references id) = true)
    (hlinked : ¬ (db.tables.oauthAccounts.any fun account => account.user_id = id) = true) :
    ({ db with tables := { db.tables with
      users := db.tables.users.filter fun user => user.id ≠ id
      otps := fun t => (db.tables.otps t).filter fun otp => otp.userId ≠ id
      talentProfiles := db.tables.talentProfiles.filter fun profile => profile.user_id ≠ id
      employerProfiles := db.tables.employerProfiles.filter fun profile => profile.user_id ≠ id } } :
      Database).References := by
  have hhas : ∀ other, db.tables.Has other → other ≠ id →
      ∃ user ∈ db.tables.users.filter fun user => user.id ≠ id, user.id = other := by
    rintro other ⟨user, hmem, rfl⟩ hne
    exact ⟨user, List.mem_filter.mpr ⟨hmem, decide_eq_true hne⟩, rfl⟩
  constructor
  · intro other hother
    rcases hother with ⟨account, hmem, rfl⟩ | ⟨table, otp, hmem, rfl⟩ | ⟨profile, hmem, rfl⟩ | ⟨profile, hmem, rfl⟩
    · refine hhas _ (h.committed _ (.inl ⟨account, hmem, rfl⟩)) fun heq => hlinked ?_
      exact List.any_eq_true.mpr ⟨account, hmem, decide_eq_true heq⟩
    · obtain ⟨hmem, hne⟩ := List.mem_filter.mp hmem
      exact hhas _ (h.committed _ (.inr (.inl ⟨table, otp, hmem, rfl⟩))) (of_decide_eq_true hne)
    · obtain ⟨hmem, hne⟩ := List.mem_filter.mp hmem
      exact hhas _ (h.committed _ (.inr (.inr (.inl ⟨profile, hmem, rfl⟩)))) (of_decide_eq_true hne)
    · obtain ⟨hmem, hne⟩ := List.mem_filter.mp hmem
      exact hhas _ (h.committed _ (.inr (.inr (.inr ⟨profile, hmem, rfl⟩)))) (of_decide_eq_true hne)
  · intro entry hentry w hw other howner
    refine (h.pending entry hentry w hw other howner).imp_left fun hother => hhas other hother ?_
    -- a pending row of the user that is deleted would have made the deletion wait
    rintro rfl
    have hothers : w ∈ db.others none :=
      List.mem_flatMap.mpr ⟨entry, List.mem_filter.mpr ⟨hentry, decide_eq_true (Option.some_ne_none _)⟩, hw⟩
    exact hreferenced (List.any_eq_true.mpr ⟨w, hothers, references_of_owner howner⟩)

theorem References.users {f : User → User} (h : db.References) (hf : ∀ user, (f user).id = user.id) (id' : UserId) :
    (db.setUsers (updateWhere id' f db.tables.users)).References :=
  h.grow (fun _ hid => .inl hid) (fun _ hid => (Tables.has_updateWhere hf).mpr hid) fun _ => .inl

theorem References.otps {table : OtpTable} {otps : List Otp} (h : db.References)
    (hotps : ∀ otp ∈ otps, (∃ old ∈ db.tables.otps table, old.userId = otp.userId) ∨ db.tables.Has otp.userId) :
    (db.setOtps table otps).References := by
  refine h.grow (fun id hid => ?_) (fun _ hid => hid) fun _ => .inl
  rcases hid with hid | ⟨other, otp, hmem, rfl⟩ | hid
  · exact .inl (.inl hid)
  · simp only [setOtps] at hmem
    split_ifs at hmem with htable
    · rcases hotps otp hmem with ⟨old, hold, hid⟩ | hhas
      · exact .inl (.inr (.inl ⟨table, old, hold, hid⟩))
      · exact .inr hhas
    · exact .inl (.inr (.inl ⟨other, otp, hmem, rfl⟩))
  · exact .inl (.inr (.inr hid))

theorem References.mapOtps {table : OtpTable} {f : Otp → Otp} (h : db.References)
    (hf : ∀ otp, (f otp).userId = otp.userId) :
    (db.setOtps table ((db.tables.otps table).map f)).References := by
  refine h.otps fun otp hotp => .inl ?_
  obtain ⟨old, hold, rfl⟩ := List.mem_map.mp hotp
  exact ⟨old, hold, (hf old).symm⟩

theorem References.tick (h : db.References) : db.tick.References := ⟨h.committed, h.pending⟩

theorem References.insertUnique {α : Type} {fits taken waits dangling : Bool} {row : α} {tx : Option TxId}
    {reply : Except Failure α} (hc : db.Constraints) (h : db.References)
    (hw : dangling = false → ∀ id, w.owner = some id → (db.view tx).Has id)
    (hx : db.insertUnique fits taken waits dangling row tx w = some (reply, t)) : t.References := by
  rcases insertUnique_cases hx with ⟨e, rfl, rfl⟩ | ⟨-, -, hdangling, rfl, rfl⟩
  · exact h
  · exact h.save hc (hw hdangling)

/-- The foreign key of a row is checked against what the transaction of the statement reads. -/
theorem has_of_checked {userId : UserId} {tables : Tables} (howner : w.owner = some userId)
    (hdangling : (findById tables.users userId).isNone = false) (id : UserId) (h : w.owner = some id) :
    tables.Has id := by
  obtain rfl := Option.some.inj (howner.symm.trans h)
  exact has_of_found hdangling

theorem References.markOnboardingComplete {ω : Draw} {reply : Reply (.markOnboardingComplete tx id)}
    (hc : db.Constraints) (h : db.References)
    (hx : exec (.markOnboardingComplete tx id) ω db = some (reply, t)) : t.References := by
  simp only [exec, Database.markOnboardingComplete] at hx
  split_ifs at hx
  cases hx
  have hsaved : (db.save (some tx) (.markOnboardingComplete id)).tick.References := by
    refine h.save hc fun _ howner => ?_
    cases howner
  exact ⟨hsaved.committed, hsaved.pending⟩

theorem References.updateUser {payload : UserPayload} {ω : Draw} {reply : Reply (.updateUser id payload)}
    (h : db.References) (hx : exec (.updateUser id payload) ω db = some (reply, t)) : t.References := by
  have he := exec_effect hx
  cases he with
  | unchanged => exact h
  | drawn hdraws => cases hdraws
  | updateUser => exact h.users (f := payload.apply) (fun _ => rfl) id
  | saved hsaves => cases hsaves

theorem References.rotateRefreshTokenHash {currentHash nextHash : Digest Jwt} {ω : Draw}
    {reply : Reply (.rotateRefreshTokenHash id currentHash nextHash)} (h : db.References)
    (hx : exec (.rotateRefreshTokenHash id currentHash nextHash) ω db = some (reply, t)) : t.References := by
  have he := exec_effect hx
  cases he with
  | unchanged => exact h
  | drawn hdraws => cases hdraws
  | rotated =>
    refine h.users ?_ id
    exact fun _ => rfl
  | saved hsaves => cases hsaves

theorem References.insertOtp {table : OtpTable} {payload : NewOtp} {ω : Draw} {reply : Reply (.insertOtp table payload)}
    (h : db.References) (hx : exec (.insertOtp table payload) ω db = some (reply, t)) : t.References := by
  simp only [exec, Database.insertOtp] at hx
  split_ifs at hx with hmissing
  · cases hx
    exact h
  · cases hx
    have hotps : (db.setOtps table (db.tables.otps table ++ [payload.toOtp db.fresh db.dbNow])).References := by
      refine h.otps fun otp hotp => ?_
      rcases List.mem_append.mp hotp with hold | hnew
      · exact .inl ⟨otp, hold, rfl⟩
      · obtain rfl := List.mem_singleton.mp hnew
        exact .inr (has_of_found (Bool.eq_false_iff.mpr hmissing))
    exact hotps.tick

theorem References.markOtpUsed {table : OtpTable} {otpId : OtpId} {ω : Draw} {reply : Reply (.markOtpUsed table otpId)}
    (h : db.References) (hx : exec (.markOtpUsed table otpId) ω db = some (reply, t)) : t.References := by
  have he := exec_effect hx
  cases he with
  | unchanged => exact h
  | drawn hdraws => cases hdraws
  | markOtpUsed =>
    refine h.mapOtps fun otp => ?_
    split_ifs <;> rfl
  | saved hsaves => cases hsaves

theorem References.step {o : Op} {ω : Draw} {reply : Reply o} (hc : db.Constraints) (h : db.References)
    (hx : exec o ω db = some (reply, t)) : t.References := by
  cases o with
  | insertUser tx payload =>
    refine h.insertUnique hc (fun _ id howner => ?_) hx
    cases howner
  | insertOauthAccount | insertTalentProfile | insertEmployerProfile =>
    exact h.insertUnique hc (fun hdangling => has_of_checked rfl hdangling) hx
  | markOnboardingComplete tx id => exact h.markOnboardingComplete hc hx
  | deleteUser id =>
    simp only [exec, Database.deleteUser] at hx
    split_ifs at hx with hreferenced hlinked
    · cases hx
      exact h
    · cases hx
      exact h.delete hreferenced hlinked
  | updateUser id payload => exact h.updateUser hx
  | rotateRefreshTokenHash id => exact h.rotateRefreshTokenHash hx
  | invalidateActiveOtps table userId =>
    cases hx
    refine h.mapOtps fun otp => ?_
    split_ifs <;> rfl
  | insertOtp table payload => exact h.insertOtp hx
  | markOtpUsed table id => exact h.markOtpUsed hx
  | startTransaction =>
    cases hx
    refine h.grow (fun _ hid => .inl hid) (fun _ hid => hid) fun entry hentry => ?_
    rcases List.mem_cons.mp hentry with rfl | hold
    · exact .inr rfl
    · exact .inl hold
  | commitTransaction tx =>
    cases hx
    exact h.commit
  | rollbackTransaction tx =>
    cases hx
    exact h.grow (fun _ hid => .inl hid) (fun _ hid => hid) fun entry hentry => .inl (List.mem_filter.mp hentry).1
  | hashText | hashToken | signAsync =>
    cases hx
    exact h.tick
  | randomBytes =>
    simp only [exec] at hx
    split_ifs at hx
    cases hx
    exact h
  | _ =>
    cases hx
    exact h

end Database

theorem references_of_reachable {env : Env} {db : Database} {p : ApiPool} (hc : db.Constraints) (h : db.References)
    (hp : (api env).Reachable (.start db) p) : p.world.state.References := by
  have hboth : p.world.state.Constraints ∧ p.world.state.References := by
    refine System.Reachable.stable (I := fun db => Database.Constraints db ∧ db.References) ?_ ?_ hp ⟨hc, h⟩
    · exact fun m db h => ⟨h.1.tick, h.2.committed, h.2.pending⟩
    · intro o db reply t h ha
      refine ⟨h.1.step (answers_effect ha), ?_⟩
      rcases ha with ⟨ω, hx⟩ | ⟨e, -, rfl, rfl⟩
      · exact h.2.step h.1 hx
      · exact h.2
  exact hboth.2

section Migrated

open Relational Migrations

def keyRow (id : ℕ) (owner : Option UserId) : Row Name
  | .id => .uuid id
  | .user_id => (owner.map Value.uuid).getD .null
  | _ => .null

def Tables.keyRows (t : Tables) : Rows Name
  | .users => t.users.map fun user => keyRow user.id none
  | .user_oauth_accounts => t.oauthAccounts.map fun account => keyRow account.id (some account.user_id)
  | .verification_otps => (t.otps .verification_otps).map fun otp => keyRow otp.id (some otp.userId)
  | .password_reset_otps => (t.otps .password_reset_otps).map fun otp => keyRow otp.id (some otp.userId)
  | .talent_profiles => t.talentProfiles.map fun profile => keyRow profile.id (some profile.user_id)
  | .employer_profiles => t.employerProfiles.map fun profile => keyRow profile.id (some profile.user_id)
  | _ => []

theorem Tables.keyRows_owned {t : Tables} {name : Name} {r : Row Name} (h : r ∈ t.keyRows name) :
    r .user_id = .null ∨ ∃ id, r .user_id = .uuid id ∧ t.Owns id := by
  cases name with
  | users =>
    obtain ⟨user, -, rfl⟩ := List.mem_map.mp h
    exact .inl rfl
  | user_oauth_accounts =>
    obtain ⟨account, hmem, rfl⟩ := List.mem_map.mp h
    exact .inr ⟨_, rfl, .inl ⟨account, hmem, rfl⟩⟩
  | verification_otps | password_reset_otps =>
    obtain ⟨otp, hmem, rfl⟩ := List.mem_map.mp h
    exact .inr ⟨_, rfl, .inr (.inl ⟨_, otp, hmem, rfl⟩)⟩
  | talent_profiles =>
    obtain ⟨profile, hmem, rfl⟩ := List.mem_map.mp h
    exact .inr ⟨_, rfl, .inr (.inr (.inl ⟨profile, hmem, rfl⟩))⟩
  | employer_profiles =>
    obtain ⟨profile, hmem, rfl⟩ := List.mem_map.mp h
    exact .inr ⟨_, rfl, .inr (.inr (.inr ⟨profile, hmem, rfl⟩))⟩
  | _ => cases h

theorem last_foreignKeys : ∀ table ∈ (schemaAfter migrations.length).tables, ∀ key ∈ table.foreignKeys,
    key.columns = [.user_id] ∧ key.referencedTable = .users ∧ key.referencedColumns = [.id] := by
  decide +kernel

/-- Whatever the requests do at the same time, no foreign key of the migrated database is ever violated. -/
theorem foreign_keys_hold {env : Env} {db : Database} {p : ApiPool} (hc : db.Constraints) (h : db.References)
    (hp : (api env).Reachable (.start db) p) :
    ∀ table ∈ (schemaAfter migrations.length).tables, ∀ key ∈ table.foreignKeys,
      ∀ r ∈ p.world.state.tables.keyRows table.name, key.Holds p.world.state.tables.keyRows r := by
  intro table htable key hkey r hr
  obtain ⟨hcolumns, htarget, hreferenced⟩ := last_foreignKeys table htable key hkey
  rw [ForeignKey.Holds, hcolumns, htarget, hreferenced]
  rcases Tables.keyRows_owned hr with hnull | ⟨id, hid, howns⟩
  · exact .inl ⟨.user_id, List.mem_singleton_self _, hnull⟩
  · obtain ⟨user, hmem, rfl⟩ := (references_of_reachable hc h hp).committed id howns
    refine .inr ⟨keyRow user.id none, List.mem_map_of_mem hmem, ?_⟩
    rw [List.map_singleton, hid]
    rfl

end Migrated

end SkillBridge
