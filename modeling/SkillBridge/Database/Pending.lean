import SkillBridge.Database.Constraints

set_option autoImplicit false

/-! What the open transactions are about to write. -/

namespace SkillBridge

open Interleaving

namespace Database

/-- The write that an operation leaves for the transaction `tx` to commit. -/
inductive Saves (db : Database) (tx : TxId) : (o : Op) → Reply o → Write → Prop
  | insertUser {payload : NewUser} : Saves db tx (.insertUser (some tx) payload)
      (.ok (payload.toUser db.fresh db.dbNow)) (.insertUser payload db.fresh db.dbNow)
  | insertOauthAccount {userId : UserId} {provider providerId : String} :
      Saves db tx (.insertOauthAccount (some tx) userId provider providerId)
        (.ok ⟨db.fresh, userId, provider, providerId, db.dbNow⟩)
        (.insertOauthAccount ⟨db.fresh, userId, provider, providerId, db.dbNow⟩)
  | insertTalentProfile {profile : ℕ → TalentProfile}
      (free : ∀ other ∈ (db.view (some tx)).talentProfiles, other.user_id ≠ (profile db.fresh).user_id)
      (alone : (db.others (some tx)).any (Write.insertsTalentProfileOf (profile db.fresh).user_id) = false) :
      Saves db tx (.insertTalentProfile tx profile) (.ok (profile db.fresh)) (.insertTalentProfile (profile db.fresh))
  | insertEmployerProfile {profile : ℕ → EmployerProfile}
      (free : ∀ other ∈ (db.view (some tx)).employerProfiles, other.user_id ≠ (profile db.fresh).user_id)
      (alone : (db.others (some tx)).any (Write.insertsEmployerProfileOf (profile db.fresh).user_id) = false) :
      Saves db tx (.insertEmployerProfile tx profile) (.ok (profile db.fresh))
        (.insertEmployerProfile (profile db.fresh))
  | markOnboardingComplete {id : UserId} (unlocked : (db.others (some tx)).any (Write.locks id) = false) :
      Saves db tx (.markOnboardingComplete tx id) (.ok ()) (.markOnboardingComplete id)

inductive TransactionsEffect (db t : Database) : (o : Op) → Reply o → Prop
  | kept {o : Op} {r : Reply o} (h : t.transactions = db.transactions) : TransactionsEffect db t o r
  | saved {o : Op} {r : Reply o} {tx : TxId} {w : Write} (saves : Saves db tx o r w) (tables : t.tables = db.tables)
      (h : t.transactions = (db.save (some tx) w).transactions) : TransactionsEffect db t o r
  | started (h : t.transactions = (db.fresh, []) :: db.transactions) :
      TransactionsEffect db t .startTransaction (.ok db.fresh)
  | committed {tx : TxId} (tables : t.tables = db.view (some tx)) (h : t.transactions = db.closeTransaction tx) :
      TransactionsEffect db t (.commitTransaction tx) (.ok ())
  | rolledBack {tx : TxId} (h : t.transactions = db.closeTransaction tx) :
      TransactionsEffect db t (.rollbackTransaction tx) (.ok ())

variable {db t : Database} {o : Op} {reply : Reply o} {P : Write → Prop} {tx : TxId}

theorem exec_transactions {ω : Draw} (h : exec o ω db = some (reply, t)) : TransactionsEffect db t o reply := by
  have he := exec_effect h
  cases he with
  | savedUser => exact .saved .insertUser rfl rfl
  | started => exact .started rfl
  | committed => exact .committed rfl rfl
  | rolledBack => exact .rolledBack rfl
  | saved hsaves =>
    cases o with
    | insertOauthAccount tx' userId provider providerId =>
      rcases insertUnique_cases h with ⟨e, rfl, ht⟩ | ⟨-, -, -, rfl, ht⟩
      · exact .kept (by rw [ht])
      · cases tx' with
        | none => simp [Op.savesIn] at hsaves
        | some tx' => exact .saved .insertOauthAccount rfl (by rw [ht]; rfl)
    | insertTalentProfile tx' profile =>
      rcases insertUnique_cases h with ⟨e, rfl, ht⟩ | ⟨htaken, hwaits, -, rfl, ht⟩
      · exact .kept (by rw [ht])
      · exact .saved (.insertTalentProfile (by simpa using htaken) hwaits) rfl (by rw [ht]; rfl)
    | insertEmployerProfile tx' profile =>
      rcases insertUnique_cases h with ⟨e, rfl, ht⟩ | ⟨htaken, hwaits, -, rfl, ht⟩
      · exact .kept (by rw [ht])
      · exact .saved (.insertEmployerProfile (by simpa using htaken) hwaits) rfl (by rw [ht]; rfl)
    | markOnboardingComplete tx' id =>
      simp only [exec, markOnboardingComplete] at h
      split_ifs at h with hlocked
      injection h with h
      injection h with hreply ht
      subst hreply
      exact .saved (.markOnboardingComplete (by simpa using hlocked)) rfl (by rw [← ht])
    | _ => simp [Op.savesIn] at hsaves
  | _ => exact .kept rfl

theorem answers_transactions (h : server.Answers o db reply t) : TransactionsEffect db t o reply := by
  rcases h with ⟨ω, h⟩ | ⟨e, -, rfl, rfl⟩
  · exact exec_transactions h
  · exact .kept rfl

def Pending (P : Write → Prop) (db : Database) : Prop := ∀ entry ∈ db.transactions, ∀ w ∈ entry.2, P w

theorem Pending.of_idle (h : db.transactions = []) : Pending P db := by
  intro entry hentry
  rw [h] at hentry
  cases hentry

theorem Pending.pending (h : Pending P db) (tx : TxId) : ∀ w ∈ db.pending tx, P w := by
  intro w hw
  unfold Database.pending at hw
  cases hlookup : db.transactions.lookup tx with
  | none => simp [hlookup] at hw
  | some ws =>
    rw [hlookup] at hw
    obtain ⟨l₁, l₂, hsplit, -⟩ := List.lookup_eq_some_iff.mp hlookup
    exact h (tx, ws) (by rw [hsplit]; simp) w hw

theorem Pending.save (h : Pending P db) {w : Write} (hw : P w) : Pending P (db.save (some tx) w) := by
  intro entry hentry w' hmem
  obtain ⟨old, hold, rfl⟩ := List.mem_map.mp hentry
  split_ifs at hmem
  · rcases List.mem_append.mp hmem with hmem | hmem
    · exact h old hold w' hmem
    · rw [List.mem_singleton.mp hmem]
      exact hw
  · exact h old hold w' hmem

theorem Pending.close (h : Pending P db) (ht : t.transactions = db.closeTransaction tx) : Pending P t := by
  intro entry hentry
  rw [ht] at hentry
  exact h entry (List.mem_filter.mp hentry).1

theorem Pending.step (h : Pending P db) (he : TransactionsEffect db t o reply)
    (hsaves : ∀ tx w, Saves db tx o reply w → P w) : Pending P t := by
  cases he with
  | kept ht =>
    intro entry hentry
    exact h entry (ht ▸ hentry)
  | @saved _ _ tx w saves tables ht =>
    intro entry hentry
    exact h.save (hsaves tx w saves) entry (ht ▸ hentry)
  | started ht =>
    intro entry hentry w hw
    rw [ht] at hentry
    rcases List.mem_cons.mp hentry with rfl | hentry
    · cases hw
    · exact h entry hentry w hw
  | committed tables ht => exact h.close ht
  | rolledBack ht => exact h.close ht

theorem Pending.imp {Q : Write → Prop} (h : Pending P db) (hPQ : ∀ w, P w → Q w) : Pending Q db :=
  fun entry hentry w hw => hPQ w (h entry hentry w hw)

theorem mem_users_foldl {ws : List Write} {tables : Tables} {user' : User}
    (h : user' ∈ (ws.foldl Write.apply tables).users) : ∃ user, (user ∈ tables.users ∨
      ∃ payload id createdAt, Write.insertUser payload id createdAt ∈ ws ∧ user = payload.toUser id createdAt) ∧
      (user' = user ∨
        user' = { user with onboarding_complete := true } ∧ Write.markOnboardingComplete user.id ∈ ws) := by
  induction ws generalizing tables with
  | nil => exact ⟨user', .inl h, .inl rfl⟩
  | cons w ws ih =>
    obtain ⟨user, hmem | ⟨payload, id, createdAt, hmem, huser⟩, hrow⟩ := ih h
    · have hrow : user' = user ∨ user' = { user with onboarding_complete := true } ∧
          Write.markOnboardingComplete user.id ∈ w :: ws := hrow.imp_right (.imp_right (List.mem_cons_of_mem w))
      cases w with
      | insertUser payload id createdAt =>
        rcases List.mem_append.mp hmem with hmem | hmem
        · exact ⟨user, .inl hmem, hrow⟩
        · exact ⟨user, .inr ⟨payload, id, createdAt, List.mem_cons_self, List.mem_singleton.mp hmem⟩, hrow⟩
      | markOnboardingComplete id =>
        obtain ⟨old, hold, rfl⟩ := List.mem_map.mp hmem
        refine ⟨old, .inl hold, ?_⟩
        split_ifs at hrow with hid
        · exact .inr ⟨hrow.elim (fun h => h) And.left, hid ▸ List.mem_cons_self⟩
        · exact hrow
      | _ => exact ⟨user, .inl hmem, hrow⟩
    · exact ⟨user, .inr ⟨payload, id, createdAt, List.mem_cons_of_mem _ hmem, huser⟩,
        hrow.imp_right (.imp_right (List.mem_cons_of_mem w))⟩

def updatedRow : ApiCall → Option (UserId × UserPayload)
  | ⟨.updateUser id payload, .ok (some _)⟩ => some (id, payload)
  | _ => none

theorem exists_of_updatedRow {call : ApiCall} {id : UserId} {payload : UserPayload}
    (h : updatedRow call = some (id, payload)) : ∃ row, call = done (.updateUser id payload) (some row) := by
  unfold updatedRow at h
  split at h
  · rename_i row
    cases h
    exact ⟨row, rfl⟩
  · cases h

theorem updatedRow_eq_none (h : o.changes reply = false) : updatedRow ⟨o, reply⟩ = none := by
  cases hrow : updatedRow ⟨o, reply⟩ with
  | none => rfl
  | some entry =>
    obtain ⟨row, hcall⟩ := exists_of_updatedRow hrow
    cases hcall
    cases h

inductive RowOrigin (db : Database) : (o : Op) → Reply o → User → Prop
  | kept {o : Op} {r : Reply o} {user : User} (old : user ∈ db.tables.users)
      (untouched : ∀ payload, updatedRow ⟨o, r⟩ ≠ some (user.id, payload)) : RowOrigin db o r user
  | inserted {payload : NewUser} {user : User} (new : user = payload.toUser db.fresh db.dbNow) :
      RowOrigin db (.insertUser none payload) (.ok user) user
  | updated {payload : UserPayload} {user row : User} (old : user ∈ db.tables.users) :
      RowOrigin db (.updateUser user.id payload) (.ok (some row)) (payload.apply user)
  | rotated {currentHash nextHash : Digest Jwt} {user : User} (old : user ∈ db.tables.users) :
      RowOrigin db (.rotateRefreshTokenHash user.id currentHash nextHash) (.ok true)
        { user with refreshTokenHash := some nextHash }
  | committed {tx : TxId} {user user' : User} (base : user ∈ db.tables.users ∨ ∃ payload id createdAt,
        Write.insertUser payload id createdAt ∈ db.pending tx ∧ user = payload.toUser id createdAt)
      (row : user' = user ∨
        user' = { user with onboarding_complete := true } ∧ Write.markOnboardingComplete user.id ∈ db.pending tx) :
      RowOrigin db (.commitTransaction tx) (.ok ()) user'

theorem Effect.row_origin (he : Effect db o reply t) {user : User} (hmem : user ∈ t.tables.users) :
    RowOrigin db o reply user := by
  have kept : updatedRow ⟨o, reply⟩ = none → user ∈ db.tables.users → RowOrigin db o reply user :=
    fun hrow hmem => .kept hmem fun payload h => by rw [hrow] at h; cases h
  cases he with
  | unchanged h => exact kept (updatedRow_eq_none h) hmem
  | drawn h =>
    refine kept ?_ hmem
    cases o <;> first | rfl | cases h
  | insertUser unique alone =>
    rcases List.mem_append.mp hmem with hmem | hmem
    · exact kept rfl hmem
    · obtain rfl := List.mem_singleton.mp hmem
      exact .inserted rfl
  | updateUser found unique alone =>
    obtain ⟨old, hold, rfl⟩ := List.mem_map.mp hmem
    split_ifs with hid
    · subst hid
      exact .updated hold
    · refine .kept hold fun payload h => ?_
      cases h
      exact hid rfl
  | rotated found stored =>
    obtain ⟨old, hold, rfl⟩ := List.mem_map.mp hmem
    split_ifs with hid
    · subst hid
      exact .rotated hold
    · exact .kept hold fun payload h => by cases h
  | deleteUser => exact kept rfl (List.mem_filter.mp hmem).1
  | saved h =>
    refine kept ?_ hmem
    cases o <;> first | rfl | cases h
  | committed =>
    obtain ⟨old, hbase, hrow⟩ := mem_users_foldl hmem
    exact .committed hbase hrow
  | _ => exact kept rfl hmem

theorem Constraints.pending_row (hc : db.Constraints) {payload : NewUser} {id : UserId} {createdAt : ℕ}
    (h : Write.insertUser payload id createdAt ∈ db.pending tx) :
    id < db.fresh ∧ ∀ user ∈ db.tables.users, user.id ≠ id := by
  have hmem : (id, payload.email) ∈ pendingOf Write.rows db.transactions :=
    pending_subset Write.rows hc tx _ (List.mem_flatMap.mpr ⟨_, h, List.mem_singleton_self _⟩)
  refine ⟨hc.rowIds _ (List.mem_append_right _ hmem), fun user huser => ?_⟩
  exact ((List.pairwise_append.mp hc.apart).2.2 user.row (List.mem_map_of_mem huser) _ hmem).1

/-- No row that is not there yet will have this id. -/
structure Taken (db : Database) (id : UserId) : Prop where
  lt : id < db.fresh
  pending : Pending (fun w => ∀ payload createdAt, w ≠ .insertUser payload id createdAt) db

theorem Constraints.taken (hc : db.Constraints) {user : User} (hmem : user ∈ db.tables.users) :
    Taken db user.id := by
  refine ⟨hc.rowIds user.row (List.mem_append_left _ (List.mem_map_of_mem hmem)), ?_⟩
  rintro entry hentry w hw payload createdAt rfl
  have hpending : (user.id, payload.email) ∈ pendingOf Write.rows db.transactions :=
    List.mem_flatMap.mpr ⟨entry, hentry, List.mem_flatMap.mpr ⟨_, hw, List.mem_singleton_self _⟩⟩
  exact ((List.pairwise_append.mp hc.apart).2.2 user.row (List.mem_map_of_mem hmem) _ hpending).1 rfl

theorem Taken.step {id : UserId} (h : Taken db id) (ha : server.Answers o db reply t) : Taken t id := by
  refine ⟨Nat.lt_of_lt_of_le h.lt (answers_effect ha).fresh_le, h.pending.step (answers_transactions ha) ?_⟩
  rintro tx w hsaves payload createdAt rfl
  cases hsaves
  exact absurd h.lt (Nat.lt_irrefl _)

theorem Taken.tick {id : UserId} {m : Tick} (h : Taken db id) : Taken (server.env m db) id := ⟨h.lt, h.pending⟩

theorem RowOrigin.of_taken {user' : User} (h : RowOrigin db o reply user') (htaken : Taken db user'.id) :
    ∃ user ∈ db.tables.users, user.id = user'.id ∧ (user' = user ∨
      user' = { user with onboarding_complete := true } ∨
      (∃ hash, user' = { user with refreshTokenHash := some hash }) ∨
      ∃ payload, updatedRow ⟨o, reply⟩ = some (user'.id, payload) ∧ user' = payload.apply user) := by
  cases h with
  | kept old => exact ⟨user', old, rfl, .inl rfl⟩
  | inserted new =>
    rw [new] at htaken
    exact absurd htaken.lt (Nat.lt_irrefl _)
  | @updated payload user row old => exact ⟨user, old, rfl, .inr (.inr (.inr ⟨payload, rfl, rfl⟩))⟩
  | @rotated currentHash nextHash user old => exact ⟨user, old, rfl, .inr (.inr (.inl ⟨nextHash, rfl⟩))⟩
  | @committed tx user _ base row =>
    have hid : user'.id = user.id := by rcases row with rfl | ⟨rfl, -⟩ <;> rfl
    rcases base with old | ⟨payload, id, createdAt, hpending, rfl⟩
    · exact ⟨user, old, hid.symm, row.imp_right fun h => .inl h.1⟩
    · rw [hid] at htaken
      exact absurd rfl (htaken.pending.pending tx _ hpending payload createdAt)

end Database

end SkillBridge
