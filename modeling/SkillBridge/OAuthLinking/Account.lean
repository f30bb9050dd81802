import SkillBridge.Database.Transactions

set_option autoImplicit false

/-! The account of one e-mail address and its link to one identity at a provider. -/

namespace SkillBridge

open Interleaving Database

structure OAuthIdentity where
  provider : String
  providerId : String
  email : String
  fits : fitsIdentity provider providerId = true

def OAuthIdentity.users (i : OAuthIdentity) (db : Database) : List User :=
  db.tables.users.filter fun user => user.email = i.email

def OAuthIdentity.links (i : OAuthIdentity) (db : Database) (id : UserId) : List OAuthUser :=
  db.tables.oauthAccounts.filter fun account =>
    account.provider = i.provider && (account.user_id = id || account.provider_id = i.providerId)

def Registered (i : OAuthIdentity) (db : Database) (id : UserId) (verified : Bool) : Prop :=
  ∃ user, i.users db = [user] ∧ user.id = id ∧ findById db.tables.users id = some user ∧
    (verified = true → user.is_verified = true)

def Linked (i : OAuthIdentity) (db : Database) (id : UserId) : Prop :=
  Registered i db id true ∧
    ∃ account, i.links db id = [account] ∧ account.user_id = id ∧ account.provider_id = i.providerId

/-- The committed account. It goes from each stage to the later ones only. -/
inductive Stage (i : OAuthIdentity) (db : Database) : Prop
  | absent (users : i.users db = []) (unlinked : ∀ account ∈ db.tables.oauthAccounts,
      account.provider = i.provider → account.provider_id ≠ i.providerId)
  | registered {id : UserId} (h : Registered i db id false) (unlinked : i.links db id = [])
  | linked {id : UserId} (h : Linked i db id)

structure NewAccount (i : OAuthIdentity) (db : Database) (payload : NewUser) (id : UserId) : Prop where
  email : payload.email = i.email
  verified : payload.is_verified = true
  fresh : id < db.fresh
  newUser : ∀ user ∈ db.tables.users, user.id ≠ id
  newLink : ∀ account ∈ db.tables.oauthAccounts, account.user_id ≠ id

def Creating (i : OAuthIdentity) (db : Database) (writes : List Write) : Prop :=
  ∃ payload id createdAt, NewAccount i db payload id ∧
    (writes = [.insertUser payload id createdAt] ∨
      ∃ account : OAuthUser, account.user_id = id ∧ account.provider = i.provider ∧
        account.provider_id = i.providerId ∧
          writes = [.insertUser payload id createdAt, .insertOauthAccount account])

structure Coherent (i : OAuthIdentity) (db : Database) : Prop where
  stage : Stage i db
  userIds : ∀ user ∈ db.tables.users, user.id < db.fresh
  accountIds : ∀ account ∈ db.tables.oauthAccounts, account.user_id < db.fresh
  creating : ∀ entry ∈ db.transactions, entry.2 = [] ∨ i.users db = [] ∧ Creating i db entry.2
  alone : ∀ entry ∈ db.transactions, ∀ entry' ∈ db.transactions, entry.2 ≠ [] → entry'.2 ≠ [] →
    entry.1 = entry'.1

structure Grows (i : OAuthIdentity) (db t : Database) : Prop where
  registered : ∀ {id verified}, Registered i db id verified → Registered i t id verified
  linked : ∀ {id}, Linked i db id → Linked i t id

variable {i : OAuthIdentity} {db t : Database} {id id' : UserId} {tx : TxId} {payload : NewUser} {createdAt : ℕ}
  {verified verified' : Bool}

theorem Grows.refl (i : OAuthIdentity) (db : Database) : Grows i db db := ⟨fun h => h, fun h => h⟩

theorem Grows.trans {u : Database} (h : Grows i db t) (h' : Grows i t u) : Grows i db u :=
  ⟨fun hr => h'.registered (h.registered hr), fun hl => h'.linked (h.linked hl)⟩

theorem Registered.users_ne (h : Registered i db id verified) : i.users db ≠ [] := by
  obtain ⟨user, hu, -⟩ := h
  simp [hu]

theorem Registered.unique (h : Registered i db id verified) (h' : Registered i db id' verified') :
    id = id' := by
  obtain ⟨user, hu, rfl, -⟩ := h
  obtain ⟨user', hu', rfl, -⟩ := h'
  obtain ⟨rfl, -⟩ := List.cons.inj (hu.symm.trans hu')
  rfl

theorem Registered.known (h : Registered i db id verified) : Registered i db id false := by
  obtain ⟨user, hu, hid, hfound, -⟩ := h
  exact ⟨user, hu, hid, hfound, by simp⟩

theorem Grows.of_absent (h : i.users db = []) : Grows i db t :=
  ⟨fun hr => absurd h hr.users_ne, fun hl => absurd h hl.1.users_ne⟩

section Pending

variable (h : Coherent i db)
include h

theorem Coherent.registered (hne : i.users db ≠ []) : ∃ id, Registered i db id false := by
  cases h.stage with
  | absent users unlinked => exact absurd users hne
  | registered h unlinked => exact ⟨_, h⟩
  | linked h => exact ⟨_, h.1.known⟩

theorem Coherent.others_nil (hne : i.users db ≠ []) (tx : Option TxId) : db.others tx = [] := by
  rw [others, List.flatMap_eq_nil_iff]
  intro entry hentry
  rcases h.creating entry (List.mem_filter.mp hentry).1 with hnil | ⟨hnil, -⟩
  · exact hnil
  · exact absurd hnil hne

theorem Coherent.others_of_writes {writes : List Write} (hentry : (tx, writes) ∈ db.transactions)
    (hne : writes ≠ []) : db.others (some tx) = [] := by
  rw [others, List.flatMap_eq_nil_iff]
  intro entry hentry'
  obtain ⟨hmem, hkey⟩ := List.mem_filter.mp hentry'
  by_contra hwrites
  have heq := h.alone entry hmem _ hentry hwrites hne
  simp [heq] at hkey

theorem Coherent.nil_of_waits {entry : TxId × List Write} (hentry : entry ∈ db.transactions)
    (hw : entry.2.any (Write.insertsEmail i.email) = false) : entry.2 = [] := by
  rcases h.creating entry hentry with hnil | ⟨-, payload, id, createdAt, hnew, hwrites⟩
  · exact hnil
  · rcases hwrites with hwrites | ⟨account, -, -, -, hwrites⟩
    · simp [hwrites, Write.insertsEmail, hnew.email] at hw
    · simp [hwrites, Write.insertsEmail, hnew.email] at hw

theorem Coherent.newAccount (hentry : (tx, [Write.insertUser payload id createdAt]) ∈ db.transactions) :
    i.users db = [] ∧ NewAccount i db payload id := by
  rcases h.creating _ hentry with hnil | ⟨husers, payload', id', createdAt', hnew,
    hwrites | ⟨account, -, -, -, hwrites⟩⟩
  · cases hnil
  · cases hwrites
    exact ⟨husers, hnew⟩
  · cases hwrites

theorem Coherent.newLink {account : OAuthUser}
    (hentry : (tx, [Write.insertUser payload id createdAt, .insertOauthAccount account]) ∈ db.transactions) :
    i.users db = [] ∧ NewAccount i db payload id ∧ account.user_id = id ∧ account.provider = i.provider ∧
      account.provider_id = i.providerId := by
  rcases h.creating _ hentry with hnil | ⟨husers, payload', id', createdAt', hnew,
    hwrites | ⟨account', h₁, h₂, h₃, hwrites⟩⟩
  · cases hnil
  · cases hwrites
  · cases hwrites
    exact ⟨husers, hnew, h₁, h₂, h₃⟩

theorem Coherent.unlinked (husers : i.users db = []) : ∀ account ∈ db.tables.oauthAccounts,
    account.provider = i.provider → account.provider_id ≠ i.providerId := by
  cases h.stage with
  | absent users unlinked => exact unlinked
  | registered h unlinked => exact absurd husers h.users_ne
  | linked h => exact absurd husers h.1.users_ne

end Pending

theorem Creating.mono {writes : List Write} (h : Creating i db writes)
    (husers : t.tables.users = db.tables.users)
    (haccounts : t.tables.oauthAccounts = db.tables.oauthAccounts) (hfresh : db.fresh ≤ t.fresh) :
    Creating i t writes := by
  obtain ⟨payload, id, createdAt, hnew, hwrites⟩ := h
  refine ⟨payload, id, createdAt, ⟨hnew.email, hnew.verified, Nat.lt_of_lt_of_le hnew.fresh hfresh,
    ?_, ?_⟩, hwrites⟩
  · rw [husers]
    exact hnew.newUser
  · rw [haccounts]
    exact hnew.newLink

theorem Coherent.of_tables (h : Coherent i db) (husers : t.tables.users = db.tables.users)
    (haccounts : t.tables.oauthAccounts = db.tables.oauthAccounts) (hfresh : db.fresh ≤ t.fresh)
    (creating : ∀ entry ∈ t.transactions, entry.2 = [] ∨ i.users db = [] ∧ Creating i t entry.2)
    (alone : ∀ entry ∈ t.transactions, ∀ entry' ∈ t.transactions, entry.2 ≠ [] → entry'.2 ≠ [] →
      entry.1 = entry'.1) : Coherent i t ∧ Grows i db t := by
  have hu : i.users t = i.users db := by rw [OAuthIdentity.users, husers, OAuthIdentity.users]
  have hl : ∀ id, i.links t id = i.links db id := by
    intro id
    rw [OAuthIdentity.links, haccounts, OAuthIdentity.links]
  have hreg : ∀ {id verified}, Registered i db id verified → Registered i t id verified := by
    rintro id verified ⟨user, h₁, h₂, h₃, h₄⟩
    exact ⟨user, hu.trans h₁, h₂, by rw [husers]; exact h₃, h₄⟩
  have hlinked : ∀ {id}, Linked i db id → Linked i t id := by
    rintro id ⟨hr, account, ha, hid, hpid⟩
    exact ⟨hreg hr, account, (hl id).trans ha, hid, hpid⟩
  refine ⟨⟨?_, ?_, ?_, ?_, alone⟩, hreg, hlinked⟩
  · cases h.stage with
    | absent users unlinked => exact .absent (hu.trans users) (by rw [haccounts]; exact unlinked)
    | registered hr unlinked => exact .registered (hreg hr) ((hl _).trans unlinked)
    | linked hr => exact .linked (hlinked hr)
  · intro user huser
    rw [husers] at huser
    exact Nat.lt_of_lt_of_le (h.userIds user huser) hfresh
  · intro account haccount
    rw [haccounts] at haccount
    exact Nat.lt_of_lt_of_le (h.accountIds account haccount) hfresh
  · intro entry hentry
    rw [hu]
    exact creating entry hentry

theorem Coherent.quiet (h : Coherent i db) (husers : t.tables.users = db.tables.users)
    (haccounts : t.tables.oauthAccounts = db.tables.oauthAccounts)
    (htransactions : t.transactions = db.transactions)
    (hfresh : db.fresh ≤ t.fresh) : Coherent i t ∧ Grows i db t := by
  apply h.of_tables husers haccounts hfresh
  · intro entry hentry
    rw [htransactions] at hentry
    exact (h.creating entry hentry).imp id fun hc => ⟨hc.1, hc.2.mono husers haccounts hfresh⟩
  · rw [htransactions]
    exact h.alone

end SkillBridge
