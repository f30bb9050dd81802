import SkillBridge.Database.Statements
import SkillBridge.Interleaving.History

set_option autoImplicit false

/-! What each statement leaves behind; later modules never unfold `exec` for it. -/

namespace SkillBridge

open Interleaving

def Op.draws : Op → Bool
  | hashText _ => true
  | hashToken _ => true
  | signAsync _ _ _ _ => true
  | _ => false

def Op.savesIn (tx : TxId) : Op → Bool
  | markOnboardingComplete tx' _ => tx' = tx
  | insertOauthAccount tx' _ _ _ => tx' = some tx
  | insertTalentProfile tx' _ => tx' = tx
  | insertEmployerProfile tx' _ => tx' = tx
  | _ => false

def Op.changes : (o : Op) → Reply o → Bool
  | updateUser _ _, .ok row => row.isSome
  | rotateRefreshTokenHash _ _ _, .ok rotated => rotated
  | markOtpUsed _ _, .ok used => used
  | insertUser _ _, .ok _ => true
  | markOnboardingComplete _ _, .ok _ => true
  | deleteUser _, .ok _ => true
  | insertOauthAccount _ _ _ _, .ok _ => true
  | invalidateActiveOtps _ _, .ok _ => true
  | insertOtp _ _, .ok _ => true
  | insertTalentProfile _ _, .ok _ => true
  | insertEmployerProfile _ _, .ok _ => true
  | startTransaction, .ok _ => true
  | commitTransaction _, .ok _ => true
  | rollbackTransaction _, .ok _ => true
  | hashText _, .ok _ => true
  | hashToken _, .ok _ => true
  | signAsync _ _ _ _, .ok _ => true
  | _, _ => false

namespace Database

variable {db t : Database}

def setOauthAccounts (db : Database) (oauthAccounts : List OAuthUser) : Database :=
  { db with tables := { db.tables with oauthAccounts } }

/-- The database `t` after the operation, by the writes that are distinguished below. -/
inductive Effect (db : Database) : (o : Op) → Reply o → Database → Prop
  | unchanged {o : Op} {r : Reply o} (h : o.changes r = false) : Effect db o r db
  | drawn {o : Op} {r : Reply o} (h : o.draws = true) : Effect db o r db.tick
  | insertUser {payload : NewUser} (unique : ∀ user ∈ db.tables.users, user.email ≠ payload.email)
      (alone : (db.others none).any (Write.insertsEmail payload.email) = false) :
      Effect db (.insertUser none payload) (.ok (payload.toUser db.fresh db.dbNow))
        (db.setUsers (db.tables.users ++ [payload.toUser db.fresh db.dbNow])).tick
  | updateUser {id : UserId} {payload : UserPayload} {user : User}
      (found : findById db.tables.users id = some user)
      (unique : ∀ email ∈ payload.email.join, ∀ other ∈ db.tables.users, other.id ≠ id → other.email ≠ email)
      (alone : ∀ email ∈ payload.email.join, (db.others none).any (Write.insertsEmail email) = false) :
      Effect db (.updateUser id payload) (.ok (some (payload.apply user)))
        (db.setUsers (updateWhere id payload.apply db.tables.users))
  | rotated {id : UserId} {currentHash nextHash : Digest Jwt} {user : User}
      (found : findById db.tables.users id = some user) (stored : user.refreshTokenHash = some currentHash) :
      Effect db (.rotateRefreshTokenHash id currentHash nextHash) (.ok true) (db.setUsers
        (updateWhere id (fun user => { user with refreshTokenHash := some nextHash }) db.tables.users))
  | deleteUser {id : UserId} : Effect db (.deleteUser id) (.ok ()) { db with tables := { db.tables with
      users := db.tables.users.filter fun user => user.id ≠ id
      otps := fun t => (db.tables.otps t).filter fun otp => otp.userId ≠ id
      talentProfiles := db.tables.talentProfiles.filter fun profile => profile.user_id ≠ id
      employerProfiles := db.tables.employerProfiles.filter fun profile => profile.user_id ≠ id } }
  | linked {userId : UserId} {provider providerId : String}
      (found : (findById db.tables.users userId).isSome = true) :
      Effect db (.insertOauthAccount none userId provider providerId)
        (.ok ⟨db.fresh, userId, provider, providerId, db.dbNow⟩)
        (db.setOauthAccounts
          (db.tables.oauthAccounts ++ [⟨db.fresh, userId, provider, providerId, db.dbNow⟩])).tick
  | invalidated {table : OtpTable} {userId : UserId} :
      Effect db (.invalidateActiveOtps table userId) (.ok ()) (db.invalidateActiveOtps table userId)
  | insertOtp {table : OtpTable} {payload : NewOtp} :
      Effect db (.insertOtp table payload) (.ok (payload.toOtp db.fresh db.dbNow))
        (db.setOtps table (db.tables.otps table ++ [payload.toOtp db.fresh db.dbNow])).tick
  | markOtpUsed {table : OtpTable} {id : OtpId}
      (unused : (db.tables.otps table).any (fun otp => otp.id = id && otp.usedAt = none) = true) :
      Effect db (.markOtpUsed table id) (.ok true) (db.setOtps table ((db.tables.otps table).map fun otp =>
        if otp.id = id ∧ otp.usedAt = none then { otp with usedAt := some db.dbNow } else otp))
  | savedUser {tx : TxId} {payload : NewUser}
      (unique : ∀ user ∈ (db.view (some tx)).users, user.email ≠ payload.email)
      (alone : (db.others (some tx)).any (Write.insertsEmail payload.email) = false) :
      Effect db (.insertUser (some tx) payload) (.ok (payload.toUser db.fresh db.dbNow))
        (db.save (some tx) (.insertUser payload db.fresh db.dbNow)).tick
  | saved {o : Op} {r : Reply o} {tx : TxId} {w : Write} {n : ℕ} (h : o.savesIn tx = true)
      (fresh : db.fresh ≤ n)
      (noUser : ∀ payload id createdAt, w ≠ .insertUser payload id createdAt)
      (found : ∀ account, w = .insertOauthAccount account →
        (findById (db.view (some tx)).users account.user_id).isSome = true) :
      Effect db o r { db.save (some tx) w with fresh := n }
  | started : Effect db .startTransaction (.ok db.fresh)
      { db with transactions := (db.fresh, []) :: db.transactions }.tick
  | committed {tx : TxId} : Effect db (.commitTransaction tx) (.ok ())
      { db with tables := db.view (some tx), transactions := db.closeTransaction tx }
  | rolledBack {tx : TxId} : Effect db (.rollbackTransaction tx) (.ok ())
      { db with transactions := db.closeTransaction tx }

theorem insertUnique_cases {α : Type} {fits taken waits dangling : Bool} {row : α} {tx : Option TxId} {w : Write}
    {reply : Except Failure α} (h : db.insertUnique fits taken waits dangling row tx w = some (reply, t)) :
    (∃ e, reply = .error e ∧ t = db) ∨
      taken = false ∧ waits = false ∧ dangling = false ∧ reply = .ok row ∧ t = (db.save tx w).tick := by
  unfold insertUnique at h
  split_ifs at h with hfits htaken hwaits hdangling
  · cases h
    exact .inl ⟨_, rfl, rfl⟩
  · cases h
    exact .inl ⟨_, rfl, rfl⟩
  · cases h
    exact .inl ⟨_, rfl, rfl⟩
  · cases h
    exact .inr ⟨by simpa using htaken, by simpa using hwaits, by simpa using hdangling, rfl, rfl⟩

theorem insertUser_effect {tx : Option TxId} {payload : NewUser} {reply : Reply (.insertUser tx payload)}
    (h : db.insertUser tx payload = some (reply, t)) : Effect db (.insertUser tx payload) reply t := by
  rcases insertUnique_cases h with ⟨e, rfl, rfl⟩ | ⟨htaken, hwaits, -, rfl, rfl⟩
  · exact .unchanged rfl
  · cases tx with
    | none => exact .insertUser (by simpa [view] using htaken) hwaits
    | some tx => exact .savedUser (by simpa using htaken) hwaits

theorem updateUser_effect {id : UserId} {payload : UserPayload} {reply : Reply (.updateUser id payload)}
    (h : db.updateUser id payload = some (reply, t)) : Effect db (.updateUser id payload) reply t := by
  unfold updateUser at h
  split at h
  · cases h
    exact .unchanged rfl
  · rename_i user found
    split_ifs at h with hfits hlocked hnull hunique hwaits
    · cases h
      exact .unchanged rfl
    · cases h
      exact .unchanged rfl
    · cases h
      exact .unchanged rfl
    · cases h
      apply Effect.updateUser found
      · intro email he other ho hid heq
        rw [Option.mem_def.mp he] at hunique
        simp only [Option.any_some, List.any_eq_true, Bool.and_eq_true, decide_eq_true_eq, not_exists,
          not_and] at hunique
        exact hunique other ho hid heq
      · intro email he
        rw [Option.mem_def.mp he] at hwaits
        exact Bool.eq_false_iff.mpr hwaits

theorem rotateRefreshTokenHash_effect {id : UserId} {currentHash nextHash : Digest Jwt}
    {reply : Reply (.rotateRefreshTokenHash id currentHash nextHash)}
    (h : db.rotateRefreshTokenHash id currentHash nextHash = some (reply, t)) :
    Effect db (.rotateRefreshTokenHash id currentHash nextHash) reply t := by
  unfold rotateRefreshTokenHash at h
  split at h
  · cases h
    exact .unchanged rfl
  · rename_i user found
    split_ifs at h with hstored hlocked
    · cases h
      exact .unchanged rfl
    · cases h
      exact .rotated found (not_not.mp hstored)

theorem deleteUser_effect {id : UserId} {reply : Reply (.deleteUser id)}
    (h : db.deleteUser id = some (reply, t)) : Effect db (.deleteUser id) reply t := by
  unfold deleteUser at h
  split_ifs at h with hreferenced hlinked
  · cases h
    exact .unchanged rfl
  · cases h
    exact .deleteUser

theorem insertOauthAccount_effect {tx : Option TxId} {userId : UserId} {provider providerId : String}
    {reply : Reply (.insertOauthAccount tx userId provider providerId)}
    (h : db.insertOauthAccount tx userId provider providerId = some (reply, t)) :
    Effect db (.insertOauthAccount tx userId provider providerId) reply t := by
  rcases insertUnique_cases h with ⟨e, rfl, rfl⟩ | ⟨-, -, hdangling, rfl, rfl⟩
  · exact .unchanged rfl
  · have hfound : (findById (db.view tx).users userId).isSome = true := by simpa using hdangling
    cases tx with
    | none => exact .linked hfound
    | some tx =>
      refine .saved (by simp [Op.savesIn]) (Nat.le_succ _) (by simp) fun account haccount => ?_
      obtain rfl := Write.insertOauthAccount.inj haccount
      exact hfound

theorem exec_effect {o : Op} {ω : Draw} {reply : Reply o} (h : exec o ω db = some (reply, t)) :
    Effect db o reply t := by
  cases o with
  | insertUser tx payload => exact insertUser_effect h
  | updateUser id payload => exact updateUser_effect h
  | rotateRefreshTokenHash id currentHash nextHash => exact rotateRefreshTokenHash_effect h
  | deleteUser id => exact deleteUser_effect h
  | insertOauthAccount tx userId provider providerId => exact insertOauthAccount_effect h
  | markOnboardingComplete tx id =>
    simp only [exec, markOnboardingComplete] at h
    split_ifs at h
    cases h
    exact @Effect.saved db _ _ tx (.markOnboardingComplete id) db.fresh (by simp [Op.savesIn])
      (Nat.le_refl _) (by simp) (by simp)
  | insertTalentProfile tx profile =>
    rcases insertUnique_cases h with ⟨e, rfl, rfl⟩ | ⟨-, -, -, rfl, rfl⟩
    · exact .unchanged rfl
    · exact .saved (by simp [Op.savesIn]) (Nat.le_succ _) (by simp) (by simp)
  | insertEmployerProfile tx profile =>
    rcases insertUnique_cases h with ⟨e, rfl, rfl⟩ | ⟨-, -, -, rfl, rfl⟩
    · exact .unchanged rfl
    · exact .saved (by simp [Op.savesIn]) (Nat.le_succ _) (by simp) (by simp)
  | invalidateActiveOtps table userId =>
    cases h
    exact .invalidated
  | insertOtp table payload =>
    simp only [exec, insertOtp] at h
    split_ifs at h
    · cases h
      exact .unchanged rfl
    · cases h
      exact .insertOtp
  | markOtpUsed table id =>
    simp only [exec, markOtpUsed] at h
    split_ifs at h with hunused
    · cases h
      exact .markOtpUsed hunused
    · cases h
      exact .unchanged rfl
  | startTransaction =>
    cases h
    exact .started
  | commitTransaction tx =>
    cases h
    exact .committed
  | rollbackTransaction tx =>
    cases h
    exact .rolledBack
  | hashText text =>
    cases h
    exact .drawn rfl
  | hashToken token =>
    cases h
    exact .drawn rfl
  | signAsync payload jti secret expiresIn =>
    cases h
    exact .drawn rfl
  | randomBytes size =>
    simp only [exec] at h
    split_ifs at h
    cases h
    exact .unchanged rfl
  | _ =>
    cases h
    exact .unchanged rfl

def update (db : Database) (id : UserId) (payload : UserPayload) : Database :=
  db.setUsers (updateWhere id payload.apply db.tables.users)

theorem findById_updateWhere {f : User → User} (hf : ∀ user, (f user).id = user.id) (users : List User)
    (i id : UserId) : findById (updateWhere i f users) id =
      (findById users id).map fun user => if user.id = i then f user else user := by
  have hid : ∀ user : User, (if user.id = i then f user else user).id = user.id := by
    intro user
    split_ifs
    · exact hf user
    · rfl
  unfold findById updateWhere
  rw [List.find?_map]
  congr 2
  funext user
  simp only [Function.comp, hid]

theorem findById_updateWhere_self {id : UserId} {f : User → User} {user : User} {users : List User}
    (hf : ∀ user, (f user).id = user.id) (h : findById users id = some user) :
    findById (updateWhere id f users) id = some (f user) := by
  have hid : user.id = id := by simpa using List.find?_some h
  rw [findById_updateWhere hf, h, Option.map_some, if_pos hid]

theorem updateUser_eq {id : UserId} {payload : UserPayload} {user : User}
    (found : findById db.tables.users id = some user) (unlocked : (db.others none).any (Write.locks id) = false)
    (notNull : payload.violatesNotNull = false) (fits : payload.fits = true) (email : payload.email = none) :
    db.updateUser id payload = some (.ok (some (payload.apply user)), db.update id payload) := by
  simp only [updateUser, found, unlocked, notNull, fits, email, Bool.not_true, Option.join_none, Option.any_none,
    Bool.false_eq_true, ↓reduceIte]
  rfl

section Inversion

theorem Effect.insertUser_inv {payload : NewUser} {user : User}
    (h : Effect db (.insertUser none payload) (.ok user) t) :
    user = payload.toUser db.fresh db.dbNow ∧ t.tables.users = db.tables.users ++ [user] := by
  cases h with
  | unchanged h => cases h
  | drawn h => cases h
  | saved h => cases h
  | insertUser unique alone => exact ⟨rfl, rfl⟩

theorem Effect.updateUser_inv {id : UserId} {payload : UserPayload} {row : User}
    (h : Effect db (.updateUser id payload) (.ok (some row)) t) :
    ∃ user, findById db.tables.users id = some user ∧ row = payload.apply user ∧ t = db.update id payload := by
  cases h with
  | unchanged h => cases h
  | drawn h => cases h
  | saved h => cases h
  | updateUser found unique alone => exact ⟨_, found, rfl, rfl⟩

theorem mem_update {id : UserId} {payload : UserPayload} {user : User} (mem : user ∈ db.tables.users)
    (hid : user.id = id) : payload.apply user ∈ (db.update id payload).tables.users := by
  refine List.mem_map.mpr ⟨user, mem, ?_⟩
  rw [if_pos hid]

theorem Effect.commit_inv {tx : TxId} (h : Effect db (.commitTransaction tx) (.ok ()) t) :
    t.tables = db.view (some tx) := by
  cases h with
  | unchanged h => cases h
  | drawn h => cases h
  | saved h => cases h
  | committed => rfl

end Inversion

section Frame

variable {o : Op} {reply : Reply o}

theorem Effect.fresh_le (h : Effect db o reply t) : db.fresh ≤ t.fresh := by
  cases h with
  | saved h fresh noUser => exact fresh
  | _ => first | exact Nat.le_refl _ | exact Nat.le_succ _

theorem Effect.dbNow_eq (h : Effect db o reply t) : t.dbNow = db.dbNow := by
  cases h <;> rfl

end Frame

end Database

theorem Op.changes_error (o : Op) (e : Failure) : o.changes (.error e) = false := by
  cases o <;> rfl

theorem answers_effect {db t : Database} {o : Op} {reply : Reply o} (h : server.Answers o db reply t) :
    Database.Effect db o reply t := by
  rcases h with ⟨ω, h⟩ | ⟨e, -, rfl, rfl⟩
  · exact Database.exec_effect h
  · exact .unchanged (o.changes_error e)

abbrev ApiCall : Type := Call backend

abbrev done (o : Op) (r : o.Res) : ApiCall := ⟨o, .ok r⟩

abbrev consumed (table : OtpTable) (userId : UserId) (otp : Otp) : List ApiCall :=
  [done (.markOtpUsed table otp.id) true, done (.findLatestOtp table userId) (some otp)]

theorem exec_of_answers {Req : Type} {e : Event backend Database Req} {t : Database}
    (h : server.Answers e.op e.before e.reply t) {o : Op} {r : o.Res} (hcall : e.call = done o r) :
    ∃ ω, Database.exec o ω e.before = some (.ok r, t) := by
  obtain ⟨pid, req, before, rfl⟩ := Event.exists_of_call hcall
  rcases h with ⟨ω, hω⟩ | ⟨e, -, herr, -⟩
  · exact ⟨ω, hω⟩
  · cases herr

theorem exec_of_mem_calls {Ω μ Req α : Type} {Y : System backend Database Ω μ Req α}
    (answers : ∀ o s reply t, Y.Answers o s reply t → server.Answers o s reply t) {db : Database}
    {p : Pool backend Database Req α} (hp : Y.Reachable (.start db) p) {l₁ l₂ : List (Event backend Database Req)}
    {e : Event backend Database Req} (htrace : p.world.trace = l₁ ++ e :: l₂) {pid : ℕ} {o : Op} {r : o.Res}
    (hmem : done o r ∈ calls pid l₂) : ∃ (before : Database) (ω : Draw) (t : Database),
      before.exec o ω = some (.ok r, t) := by
  obtain ⟨e', he', -, hcall⟩ := exists_of_mem_calls htrace hmem
  obtain ⟨-, -, -, t, ht⟩ := (System.Reachable.answered hp).of_mem he'
  obtain ⟨ω, hexec⟩ := exec_of_answers (answers _ _ _ _ ht) hcall
  exact ⟨e'.before, ω, t, hexec⟩

end SkillBridge
