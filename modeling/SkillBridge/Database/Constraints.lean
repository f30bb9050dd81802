import Mathlib.Data.List.Pairwise
import Mathlib.Data.List.Perm.Subperm
import SkillBridge.Database.Effects

set_option autoImplicit false

/-! The primary keys and the unique e-mail addresses, over the committed rows and the pending ones. -/

namespace SkillBridge

open Interleaving

def User.row (user : User) : UserId × String := (user.id, user.email)

def Write.rows : Write → List (UserId × String)
  | insertUser payload id _ => [(id, payload.email)]
  | _ => []

def Write.links : Write → List OAuthUser
  | insertOauthAccount account => [account]
  | _ => []

def Apart (r s : UserId × String) : Prop := r.1 ≠ s.1 ∧ r.2 ≠ s.2

theorem Apart.symm {r s : UserId × String} (h : Apart r s) : Apart s r := ⟨h.1.symm, h.2.symm⟩

section Pending

variable {β : Type}

def pendingOf (f : Write → List β) (ts : List (TxId × List Write)) : List β :=
  ts.flatMap fun entry => entry.2.flatMap f

theorem split_of_keys {ts : List (TxId × List Write)} (hkeys : (ts.map Prod.fst).Nodup) (tx : TxId) :
    (ts.lookup tx = none ∧ ∀ entry ∈ ts, entry.1 ≠ tx) ∨ ∃ l₁ writes l₂, ts = l₁ ++ (tx, writes) :: l₂ ∧
      ts.lookup tx = some writes ∧ (∀ entry ∈ l₁, entry.1 ≠ tx) ∧ ∀ entry ∈ l₂, entry.1 ≠ tx := by
  induction ts with
  | nil => exact .inl ⟨rfl, by simp⟩
  | cons entry ts ih =>
    obtain ⟨tx', writes'⟩ := entry
    obtain ⟨hnot, hkeys⟩ := List.nodup_cons.mp hkeys
    by_cases h : tx' = tx
    · subst h
      refine .inr ⟨[], writes', ts, rfl, by simp, by simp, fun entry hentry heq => hnot ?_⟩
      exact List.mem_map.mpr ⟨entry, hentry, heq⟩
    · have hlookup : ((tx', writes') :: ts).lookup tx = ts.lookup tx := by
        have hne : (tx == tx') = false := by simpa using Ne.symm h
        rw [List.lookup_cons, hne]
      rcases ih hkeys with ⟨hnone, hall⟩ | ⟨l₁, writes, l₂, rfl, hsome, h₁, h₂⟩
      · exact .inl ⟨hlookup.trans hnone, List.forall_mem_cons.mpr ⟨h, hall⟩⟩
      · exact .inr ⟨(tx', writes') :: l₁, writes, l₂, rfl, hlookup.trans hsome,
          List.forall_mem_cons.mpr ⟨h, h₁⟩, h₂⟩

theorem map_save_of_ne {ts : List (TxId × List Write)} {tx : TxId} (h : ∀ entry ∈ ts, entry.1 ≠ tx)
    (w : Write) : (ts.map fun entry => if entry.1 = tx then (entry.1, entry.2 ++ [w]) else entry) = ts := by
  calc _ = ts.map id := List.map_congr_left fun entry hentry => if_neg (h entry hentry)
    _ = ts := List.map_id ts

theorem filter_close_of_ne {ts : List (TxId × List Write)} {tx : TxId} (h : ∀ entry ∈ ts, entry.1 ≠ tx) :
    (ts.filter fun entry => entry.1 ≠ tx) = ts := by
  rw [List.filter_eq_self]
  intro entry hentry
  simpa using h entry hentry

theorem pendingOf_save (f : Write → List β) {ts : List (TxId × List Write)} (hkeys : (ts.map Prod.fst).Nodup)
    (tx : TxId) (w : Write) :
    (pendingOf f (ts.map fun entry => if entry.1 = tx then (entry.1, entry.2 ++ [w]) else entry)).Subperm
      (f w ++ pendingOf f ts) := by
  rcases split_of_keys hkeys tx with ⟨-, hall⟩ | ⟨l₁, writes, l₂, rfl, -, h₁, h₂⟩
  · rw [map_save_of_ne hall]
    exact (List.sublist_append_right _ _).subperm
  · apply List.Perm.subperm
    simp only [List.map_append, List.map_cons, map_save_of_ne h₁, map_save_of_ne h₂, ↓reduceIte, pendingOf,
      List.flatMap_append, List.flatMap_cons, List.flatMap_nil, List.append_nil, List.append_assoc]
    exact ((List.perm_append_comm_assoc _ _ _).append_left _).trans (List.perm_append_comm_assoc _ _ _)

theorem pendingOf_close (f : Write → List β) {ts : List (TxId × List Write)} (hkeys : (ts.map Prod.fst).Nodup)
    (tx : TxId) : (((ts.lookup tx).getD []).flatMap f ++ pendingOf f (ts.filter fun entry => entry.1 ≠ tx)).Perm
      (pendingOf f ts) := by
  rcases split_of_keys hkeys tx with ⟨hnone, hall⟩ | ⟨l₁, writes, l₂, rfl, hsome, h₁, h₂⟩
  · rw [hnone, filter_close_of_ne hall]
    exact List.Perm.refl _
  · have hcons : decide (((tx, writes) : TxId × List Write).1 ≠ tx) = false := by simp
    rw [hsome, List.filter_append, List.filter_cons_of_neg (by simp), filter_close_of_ne h₁,
      filter_close_of_ne h₂]
    simp only [pendingOf, Option.getD_some, List.flatMap_append, List.flatMap_cons]
    exact List.perm_append_comm_assoc _ _ _

end Pending

namespace Database

def rows (db : Database) : List (UserId × String) :=
  db.tables.users.map User.row ++ pendingOf Write.rows db.transactions

def links (db : Database) : List OAuthUser := db.tables.oauthAccounts ++ pendingOf Write.links db.transactions

structure Constraints (db : Database) : Prop where
  apart : db.rows.Pairwise Apart
  rowIds : ∀ r ∈ db.rows, r.1 < db.fresh
  linkIds : ∀ account ∈ db.links, account.user_id < db.fresh
  keys : (db.transactions.map Prod.fst).Nodup
  keysLt : ∀ entry ∈ db.transactions, entry.1 < db.fresh

variable {db t : Database} {tx : TxId}

theorem rows_updateWhere {f : User → User} (hf : ∀ user, (f user).row = user.row) (id : UserId)
    (users : List User) : (updateWhere id f users).map User.row = users.map User.row := by
  rw [updateWhere, List.map_map]
  apply List.map_congr_left
  intro user _
  simp only [Function.comp]
  split_ifs
  · exact hf user
  · rfl

theorem rows_foldl (writes : List Write) (t : Tables) :
    (writes.foldl Write.apply t).users.map User.row = t.users.map User.row ++ writes.flatMap Write.rows := by
  induction writes generalizing t with
  | nil => simp
  | cons w writes ih =>
    rw [List.foldl_cons, ih, List.flatMap_cons, ← List.append_assoc]
    congr 1
    cases w with
    | insertUser payload id createdAt => simp [Write.apply, Write.rows, User.row, NewUser.toUser]
    | markOnboardingComplete id =>
      simp only [Write.apply, Write.rows, List.append_nil]
      apply rows_updateWhere
      exact fun user => rfl
    | _ => simp [Write.apply, Write.rows]

theorem links_foldl (writes : List Write) (t : Tables) :
    (writes.foldl Write.apply t).oauthAccounts = t.oauthAccounts ++ writes.flatMap Write.links := by
  induction writes generalizing t with
  | nil => simp
  | cons w writes ih =>
    rw [List.foldl_cons, ih, List.flatMap_cons, ← List.append_assoc]
    congr 1
    cases w with
    | insertOauthAccount account => rfl
    | _ => simp [Write.apply, Write.links]

theorem rows_view (db : Database) (tx : TxId) :
    (db.view (some tx)).users.map User.row =
      db.tables.users.map User.row ++ (db.pending tx).flatMap Write.rows :=
  rows_foldl _ _

theorem Constraints.of_subperm (h : Constraints db) (hrows : t.rows.Subperm db.rows)
    (hlinks : ∀ account ∈ t.links, account ∈ db.links ∨ account.user_id < t.fresh)
    (hkeys : (t.transactions.map Prod.fst).Nodup) (hkeysLt : ∀ entry ∈ t.transactions, entry.1 < t.fresh)
    (hfresh : db.fresh ≤ t.fresh) : Constraints t := by
  refine ⟨?_, fun r hr => ?_, fun account haccount => ?_, hkeys, hkeysLt⟩
  · obtain ⟨l, hperm, hsub⟩ := hrows
    exact (hperm.pairwise_iff Apart.symm).mp (h.apart.sublist hsub)
  · exact Nat.lt_of_lt_of_le (h.rowIds r (hrows.subset hr)) hfresh
  · rcases hlinks account haccount with hold | hlt
    · exact Nat.lt_of_lt_of_le (h.linkIds account hold) hfresh
    · exact hlt

theorem Constraints.insert (h : Constraints db) {email : String} (hnew : ∀ r ∈ db.rows, r.2 ≠ email)
    (hrows : t.rows.Subperm ((db.fresh, email) :: db.rows)) (hlinks : ∀ account ∈ t.links, account ∈ db.links)
    (hkeys : t.transactions.map Prod.fst = db.transactions.map Prod.fst) (hfresh : t.fresh = db.fresh + 1) :
    Constraints t := by
  have hkeysLt : ∀ entry ∈ t.transactions, entry.1 < t.fresh := by
    intro entry hentry
    have hmem : entry.1 ∈ db.transactions.map Prod.fst := by
      rw [← hkeys]
      exact List.mem_map_of_mem hentry
    obtain ⟨entry', hentry', heq⟩ := List.mem_map.mp hmem
    have hlt := h.keysLt entry' hentry'
    rw [heq] at hlt
    rw [hfresh]
    exact Nat.lt_succ_of_lt hlt
  refine ⟨?_, fun r hr => ?_, fun account haccount => ?_, hkeys ▸ h.keys, hkeysLt⟩
  · obtain ⟨l, hperm, hsub⟩ := hrows
    refine (hperm.pairwise_iff Apart.symm).mp (List.Pairwise.sublist hsub
      (List.pairwise_cons.mpr ⟨?_, h.apart⟩))
    intro r hr
    exact ⟨(Nat.ne_of_lt (h.rowIds r hr)).symm, (hnew r hr).symm⟩
  · rw [hfresh]
    rcases List.mem_cons.mp (hrows.subset hr) with rfl | hr
    · exact Nat.lt_succ_self _
    · exact Nat.lt_succ_of_lt (h.rowIds r hr)
  · rw [hfresh]
    exact Nat.lt_succ_of_lt (h.linkIds account (hlinks account haccount))

theorem Constraints.same (h : Constraints db) (hrows : t.rows = db.rows) (hlinks : t.links = db.links)
    (htransactions : t.transactions = db.transactions) (hfresh : db.fresh ≤ t.fresh) : Constraints t := by
  apply h.of_subperm
  · rw [hrows]
  · exact fun account haccount => .inl (hlinks ▸ haccount)
  · rw [htransactions]
    exact h.keys
  · rw [htransactions]
    exact fun entry hentry => Nat.lt_of_lt_of_le (h.keysLt entry hentry) hfresh
  · exact hfresh

theorem pending_subset {β : Type} (f : Write → List β) (h : Constraints db) (tx : TxId) :
    ∀ x ∈ (db.pending tx).flatMap f, x ∈ pendingOf f db.transactions := by
  intro x hx
  exact (pendingOf_close f h.keys tx).subset (List.mem_append_left _ hx)

theorem Constraints.found_lt (h : Constraints db) {id : UserId}
    (hfound : (findById (db.view (some tx)).users id).isSome = true) : id < db.fresh := by
  obtain ⟨user, huser⟩ := Option.isSome_iff_exists.mp hfound
  have hid : user.id = id := by simpa using List.find?_some huser
  have hrow : user.row ∈ (db.view (some tx)).users.map User.row :=
    List.mem_map_of_mem (List.mem_of_find?_eq_some huser)
  rw [rows_view] at hrow
  have hmem : user.row ∈ db.rows := by
    rcases List.mem_append.mp hrow with hrow | hrow
    · exact List.mem_append_left _ hrow
    · exact List.mem_append_right _ (pending_subset Write.rows h tx _ hrow)
  exact hid ▸ h.rowIds user.row hmem

theorem exists_of_pending {r : UserId × String} {ts : List (TxId × List Write)}
    (h : r ∈ pendingOf Write.rows ts) :
    ∃ entry ∈ ts, r ∈ entry.2.flatMap Write.rows ∧ ∃ w ∈ entry.2, w.insertsEmail r.2 = true := by
  obtain ⟨entry, hentry, hr⟩ := List.mem_flatMap.mp h
  obtain ⟨w, hw, hrow⟩ := List.mem_flatMap.mp hr
  refine ⟨entry, hentry, hr, w, hw, ?_⟩
  cases w with
  | insertUser payload id createdAt =>
    obtain rfl := List.mem_singleton.mp hrow
    simp [Write.insertsEmail]
  | _ => cases hrow

theorem Constraints.email_new (h : Constraints db) {email : String}
    (unique : ∀ user ∈ (db.view (some tx)).users, user.email ≠ email)
    (alone : (db.others (some tx)).any (Write.insertsEmail email) = false) : ∀ r ∈ db.rows, r.2 ≠ email := by
  have hview : ∀ r ∈ (db.view (some tx)).users.map User.row, r.2 ≠ email := by
    intro r hr
    obtain ⟨user, huser, rfl⟩ := List.mem_map.mp hr
    exact unique user huser
  rw [rows_view] at hview
  rintro r hr rfl
  rcases List.mem_append.mp hr with hr | hr
  · exact hview r (List.mem_append_left _ hr) rfl
  · obtain ⟨entry, hentry, hrow, w, hw, hemail⟩ := exists_of_pending hr
    by_cases hkey : entry.1 = tx
    · -- the own transaction sees its writes
      rcases split_of_keys h.keys tx with ⟨-, hall⟩ | ⟨l₁, writes, l₂, hts, hlookup, h₁, h₂⟩
      · exact hall entry hentry hkey
      · have hwrites : entry.2 = db.pending tx := by
          rw [pending, hlookup, Option.getD_some]
          rw [hts] at hentry
          rcases List.mem_append.mp hentry with hentry | hentry
          · exact absurd hkey (h₁ entry hentry)
          rcases List.mem_cons.mp hentry with rfl | hentry
          · rfl
          · exact absurd hkey (h₂ entry hentry)
        rw [hwrites] at hrow
        exact hview r (List.mem_append_right _ hrow) rfl
    · rw [List.any_eq_false] at alone
      refine alone w (List.mem_flatMap.mpr ⟨entry, List.mem_filter.mpr ⟨hentry, ?_⟩, hw⟩) hemail
      simpa using hkey

theorem Constraints.email_new_committed {email : String} (unique : ∀ user ∈ db.tables.users, user.email ≠ email)
    (alone : (db.others none).any (Write.insertsEmail email) = false) : ∀ r ∈ db.rows, r.2 ≠ email := by
  rintro r hr rfl
  rcases List.mem_append.mp hr with hr | hr
  · obtain ⟨user, huser, rfl⟩ := List.mem_map.mp hr
    exact unique user huser rfl
  · obtain ⟨entry, hentry, -, w, hw, hemail⟩ := exists_of_pending hr
    rw [List.any_eq_false] at alone
    exact alone w (List.mem_flatMap.mpr ⟨entry, List.mem_filter.mpr ⟨hentry, by simp⟩, hw⟩) hemail

theorem Constraints.close (h : Constraints db) (hsub : t.rows.Subperm db.rows)
    (hlinks : ∀ account ∈ t.links, account ∈ db.links) (ht : t.transactions = db.closeTransaction tx)
    (hfresh : t.fresh = db.fresh) : Constraints t := by
  refine h.of_subperm hsub (fun account haccount => .inl (hlinks account haccount)) ?_ ?_
    (Nat.le_of_eq hfresh.symm)
  · rw [ht]
    exact h.keys.sublist (List.Sublist.map _ List.filter_sublist)
  · rw [ht, hfresh]
    exact fun entry hentry => h.keysLt entry (List.mem_filter.mp hentry).1

theorem Constraints.commit (h : Constraints db) (tx : TxId) :
    Constraints { db with tables := db.view (some tx), transactions := db.closeTransaction tx } := by
  refine @Constraints.close db _ tx h ?_ ?_ rfl rfl
  · apply List.Perm.subperm
    show ((db.view (some tx)).users.map User.row ++ _).Perm _
    rw [rows_view, List.append_assoc]
    exact (pendingOf_close Write.rows h.keys tx).append_left _
  · intro account haccount
    have hperm :
        ((db.view (some tx)).oauthAccounts ++ pendingOf Write.links (db.closeTransaction tx)).Perm db.links := by
      rw [view, links_foldl, List.append_assoc]
      exact (pendingOf_close Write.links h.keys tx).append_left _
    exact hperm.subset haccount

theorem Constraints.rollback (h : Constraints db) (tx : TxId) :
    Constraints { db with transactions := db.closeTransaction tx } := by
  have hsub : ∀ {β : Type} (f : Write → List β),
      (pendingOf f (db.closeTransaction tx)).Subperm (pendingOf f db.transactions) := fun f =>
    (List.sublist_append_right _ _).subperm.trans (pendingOf_close f h.keys tx).subperm
  refine @Constraints.close db _ tx h ((List.subperm_append_left _).mpr (hsub Write.rows)) ?_ rfl rfl
  exact ((List.subperm_append_left _).mpr (hsub Write.links)).subset

theorem Constraints.row_lt (h : Constraints db) {id : UserId}
    (hfound : (findById db.tables.users id).isSome = true) : id < db.fresh := by
  obtain ⟨user, huser⟩ := Option.isSome_iff_exists.mp hfound
  have hid : user.id = id := by simpa using List.find?_some huser
  have hmem := List.mem_map_of_mem (f := User.row) (List.mem_of_find?_eq_some huser)
  exact hid ▸ h.rowIds user.row (List.mem_append_left _ hmem)

theorem Constraints.setUsers (h : Constraints db) {users : List User}
    (hrows : users.map User.row = db.tables.users.map User.row) : Constraints (db.setUsers users) := by
  refine h.same ?_ rfl rfl (Nat.le_refl _)
  show users.map User.row ++ _ = _
  rw [hrows]
  rfl

theorem Constraints.update (h : Constraints db) {id : UserId} {payload : UserPayload}
    (unique : ∀ email ∈ payload.email.join, ∀ other ∈ db.tables.users, other.id ≠ id → other.email ≠ email)
    (alone : ∀ email ∈ payload.email.join, (db.others none).any (Write.insertsEmail email) = false) :
    Constraints (db.update id payload) := by
  cases hemail : payload.email.join with
  | none =>
    apply h.setUsers
    apply rows_updateWhere
    intro user
    simp [User.row, hemail]
  | some email =>
    have hkeep : ∀ user : User, (if user.id = id then payload.apply user else user).row =
        (user.id, if user.id = id then email else user.email) := by
      intro user
      split_ifs <;> simp [User.row, hemail]
    have hpending : ∀ r ∈ pendingOf Write.rows db.transactions, r.2 ≠ email := by
      rintro r hr rfl
      obtain ⟨entry, hentry, -, w, hw, hinserts⟩ := exists_of_pending hr
      have hany := alone r.2 hemail
      rw [List.any_eq_false] at hany
      exact hany w (List.mem_flatMap.mpr ⟨entry, List.mem_filter.mpr ⟨hentry, by simp⟩, hw⟩) hinserts
    obtain ⟨husers, hpairs, hcross⟩ := List.pairwise_append.mp h.apart
    have hcrossed : ∀ user ∈ db.tables.users, ∀ r ∈ pendingOf Write.rows db.transactions, Apart user.row r :=
      fun user huser => hcross user.row (List.mem_map_of_mem huser)
    refine ⟨List.pairwise_append.mpr ⟨?_, hpairs, ?_⟩, ?_, h.linkIds, h.keys, h.keysLt⟩
    · show ((updateWhere id payload.apply db.tables.users).map User.row).Pairwise Apart
      rw [updateWhere, List.map_map, List.pairwise_map]
      refine (List.pairwise_map.mp husers).imp_of_mem fun {u v} hu hv huv => ?_
      simp only [Function.comp, hkeep]
      refine ⟨huv.1, ?_⟩
      by_cases hu' : u.id = id
      · have hv' : v.id ≠ id := fun hv' => huv.1 (hu'.trans hv'.symm)
        simpa [hu', hv'] using (unique email hemail v hv hv').symm
      · by_cases hv' : v.id = id
        · simpa [hu', hv'] using unique email hemail u hu hu'
        · simpa [hu', hv', User.row] using huv.2
    · intro r hr s hs
      obtain ⟨updated, hupdated, rfl⟩ := List.mem_map.mp hr
      obtain ⟨u, hu, rfl⟩ := List.mem_map.mp hupdated
      rw [hkeep]
      refine ⟨(hcrossed u hu s hs).1, ?_⟩
      by_cases hu' : u.id = id
      · simpa [hu'] using (hpending s hs).symm
      · simpa [hu', User.row] using (hcrossed u hu s hs).2
    · intro r hr
      rcases List.mem_append.mp hr with hr | hr
      · obtain ⟨updated, hupdated, rfl⟩ := List.mem_map.mp hr
        obtain ⟨u, hu, rfl⟩ := List.mem_map.mp hupdated
        rw [hkeep]
        exact h.rowIds u.row (List.mem_append_left _ (List.mem_map_of_mem hu))
      · exact h.rowIds r (List.mem_append_right _ hr)

theorem keys_save (tx : TxId) (w : Write) :
    (db.save (some tx) w).transactions.map Prod.fst = db.transactions.map Prod.fst := by
  simp only [save, List.map_map]
  apply List.map_congr_left
  intro entry _
  simp only [Function.comp]
  split_ifs <;> rfl

theorem Constraints.link (h : Constraints db) {account : OAuthUser}
    (found : (findById db.tables.users account.user_id).isSome = true) :
    Constraints (db.setOauthAccounts (db.tables.oauthAccounts ++ [account])).tick := by
  refine h.of_subperm (List.Subperm.refl _) (fun other hother => ?_) h.keys ?_ (Nat.le_succ _)
  · rcases List.mem_append.mp hother with hother | hother
    · rcases List.mem_append.mp hother with hother | hother
      · exact .inl (List.mem_append_left _ hother)
      · obtain rfl := List.mem_singleton.mp hother
        exact .inr (Nat.lt_succ_of_lt (h.row_lt found))
    · exact .inl (List.mem_append_right _ hother)
  · exact fun entry hentry => Nat.lt_succ_of_lt (h.keysLt entry hentry)

theorem Constraints.saved (h : Constraints db) {w : Write} {n : ℕ} (hfresh : db.fresh ≤ n)
    (noUser : ∀ payload id createdAt, w ≠ .insertUser payload id createdAt)
    (found : ∀ account, w = .insertOauthAccount account →
      (findById (db.view (some tx)).users account.user_id).isSome = true) :
    Constraints { db.save (some tx) w with fresh := n } := by
  refine h.of_subperm ?_ (fun account haccount => ?_) ?_ ?_ hfresh
  · have hsub := pendingOf_save Write.rows h.keys tx w
    have hnil : Write.rows w = [] := by
      cases w with
      | insertUser payload id createdAt => exact absurd rfl (noUser payload id createdAt)
      | _ => rfl
    rw [hnil] at hsub
    exact (List.subperm_append_left _).mpr hsub
  · have hsub := pendingOf_save Write.links h.keys tx w
    rcases List.mem_append.mp (((List.subperm_append_left _).mpr hsub).subset haccount) with hmem | hmem
    · exact .inl (List.mem_append_left _ hmem)
    rcases List.mem_append.mp hmem with hmem | hmem
    · cases w with
      | insertOauthAccount account' =>
        obtain rfl := List.mem_singleton.mp hmem
        exact .inr (Nat.lt_of_lt_of_le (h.found_lt (found account rfl)) hfresh)
      | _ => cases hmem
    · exact .inl (List.mem_append_right _ hmem)
  · show ((db.save (some tx) w).transactions.map Prod.fst).Nodup
    rw [keys_save]
    exact h.keys
  · intro entry hentry
    have hmem : entry.1 ∈ (db.save (some tx) w).transactions.map Prod.fst := List.mem_map_of_mem hentry
    rw [keys_save] at hmem
    obtain ⟨entry', hentry', heq⟩ := List.mem_map.mp hmem
    exact heq ▸ Nat.lt_of_lt_of_le (h.keysLt entry' hentry') hfresh

theorem Constraints.start (h : Constraints db) :
    Constraints ({ db with transactions := (db.fresh, []) :: db.transactions } : Database).tick := by
  refine h.of_subperm (List.Subperm.refl _) (fun _ ha => .inl ha)
    (List.nodup_cons.mpr ⟨?_, h.keys⟩) ?_ (Nat.le_succ _)
  · intro hmem
    obtain ⟨entry, hentry, heq⟩ := List.mem_map.mp hmem
    exact Nat.lt_irrefl _ (heq ▸ h.keysLt entry hentry)
  · rintro entry (_ | ⟨_, hentry⟩)
    · exact Nat.lt_succ_self _
    · exact Nat.lt_succ_of_lt (h.keysLt entry hentry)

theorem Constraints.step (h : Constraints db) {o : Op} {r : Reply o} (he : Effect db o r t) :
    Constraints t := by
  cases he with
  | unchanged _ => exact h
  | drawn _ => exact h.same rfl rfl rfl (Nat.le_succ _)
  | @insertUser payload unique alone =>
    have hnew := Constraints.email_new_committed unique alone
    refine h.insert hnew ?_ (fun _ ha => ha) rfl rfl
    apply List.Perm.subperm
    show ((db.tables.users ++ [payload.toUser db.fresh db.dbNow]).map User.row ++ _).Perm _
    rw [List.map_append, List.append_assoc]
    exact List.perm_middle
  | updateUser found unique alone => exact h.update unique alone
  | rotated found stored =>
    apply h.setUsers
    apply rows_updateWhere
    exact fun user => rfl
  | deleteUser =>
    refine h.of_subperm ?_ (fun _ ha => .inl ha) h.keys h.keysLt (Nat.le_refl _)
    exact ((List.Sublist.map User.row List.filter_sublist).append_right _).subperm
  | linked found => exact h.link found
  | invalidated => exact h.same rfl rfl rfl (Nat.le_refl _)
  | insertOtp => exact h.same rfl rfl rfl (Nat.le_succ _)
  | markOtpUsed unused => exact h.same rfl rfl rfl (Nat.le_refl _)
  | @savedUser tx payload unique alone =>
    have hnew := h.email_new unique alone
    refine h.insert hnew ?_ ?_ (keys_save tx _) rfl
    · have hsub := pendingOf_save Write.rows h.keys tx (.insertUser payload db.fresh db.dbNow)
      exact ((List.subperm_append_left _).mpr hsub).trans List.perm_middle.subperm
    · intro account haccount
      have hsub := pendingOf_save Write.links h.keys tx (.insertUser payload db.fresh db.dbNow)
      exact ((List.subperm_append_left _).mpr hsub).subset haccount
  | saved _ hfresh noUser found => exact h.saved hfresh noUser found
  | started => exact h.start
  | committed => exact h.commit _
  | rolledBack => exact h.rollback _

theorem Constraints.tick (h : db.Constraints) {m : Tick} : (server.env m db).Constraints :=
  ⟨h.apart, h.rowIds, h.linkIds, h.keys, h.keysLt⟩

theorem Constraints.users_pairwise (h : Constraints db) :
    db.tables.users.Pairwise fun u v => Apart u.row v.row :=
  List.pairwise_map.mp (List.pairwise_append.mp h.apart).1

theorem filter_of_pairwise {β : Type} [DecidableEq β] {f : User → β} {user : User}
    (hf : ∀ u v : User, Apart u.row v.row → f u ≠ f v) {users : List User}
    (h : users.Pairwise fun u v => Apart u.row v.row) (hmem : user ∈ users) :
    (users.filter fun other => f other = f user) = [user] := by
  induction users with
  | nil => cases hmem
  | cons other users ih =>
    obtain ⟨hapart, h⟩ := List.pairwise_cons.mp h
    rcases List.mem_cons.mp hmem with rfl | hmem
    · have hnil : (users.filter fun other => f other = f user) = [] := by
        rw [List.filter_eq_nil_iff]
        intro other hother
        simpa using (hf user other (hapart other hother)).symm
      simp [hnil]
    · have hne := hf other user (hapart user hmem)
      simp [hne, ih h hmem]

theorem Constraints.filter_apart (h : Constraints db) {β : Type} [DecidableEq β] {f : User → β}
    (hf : ∀ u v : User, Apart u.row v.row → f u ≠ f v) {user : User} (hmem : user ∈ db.tables.users) :
    (db.tables.users.filter fun other => f other = f user) = [user] :=
  filter_of_pairwise hf h.users_pairwise hmem

theorem Constraints.find_apart (h : Constraints db) {β : Type} [DecidableEq β] {f : User → β}
    (hf : ∀ u v : User, Apart u.row v.row → f u ≠ f v) {user : User} (hmem : user ∈ db.tables.users) :
    db.tables.users.find? (fun other => f other = f user) = some user := by
  rw [← List.head?_filter, h.filter_apart hf hmem]
  rfl

theorem Constraints.find_user (h : Constraints db) {user : User} (hmem : user ∈ db.tables.users) :
    findById db.tables.users user.id = some user := h.find_apart (f := User.id) (fun _ _ h => h.1) hmem

theorem Constraints.find_email (h : Constraints db) {user : User} (hmem : user ∈ db.tables.users) :
    db.tables.users.find? (fun other => other.email = user.email) = some user :=
  h.find_apart (f := User.email) (fun _ _ h => h.2) hmem

theorem Constraints.eq_of_id (h : Constraints db) {user user' : User} (hu : user ∈ db.tables.users)
    (hu' : user' ∈ db.tables.users) (hid : user.id = user'.id) : user = user' := by
  have hfind := h.find_user hu
  rw [hid, h.find_user hu'] at hfind
  exact (Option.some.inj hfind).symm

end Database

end SkillBridge
