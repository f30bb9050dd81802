import SkillBridge.OAuthLinking.Account

set_option autoImplicit false

/-! The statements of a sign-in, and how each moves the account on. -/

namespace SkillBridge

open Interleaving Database

variable {i : OAuthIdentity} {db t : Database} {id : UserId} {tx : TxId} {payload : NewUser} {createdAt : ℕ}
  {verified : Bool}

section Reads

theorem Registered.findUser (h : Registered i db id verified) :
    ∃ user, findById db.tables.users id = some user ∧ user.id = id := by
  obtain ⟨user, -, hid, hfound, -⟩ := h
  exact ⟨user, hfound, hid⟩

theorem users_find? (i : OAuthIdentity) (db : Database) :
    (db.tables.users.find? fun user => user.email = i.email) = (i.users db).head? := by
  rw [OAuthIdentity.users, List.head?_filter]

theorem Coherent.found_by_email (h : Coherent i db) {user : User}
    (hfind : (db.tables.users.find? fun user => user.email = i.email) = some user) :
    Registered i db user.id user.is_verified := by
  rw [users_find?] at hfind
  have hne : i.users db ≠ [] := by
    intro hnil
    rw [hnil] at hfind
    cases hfind
  obtain ⟨id, user', hu, hid, hfound, -⟩ := h.registered hne
  rw [hu, List.head?_cons, Option.some.injEq] at hfind
  subst hfind
  exact ⟨user', hu, rfl, by rw [hid]; exact hfound, fun hver => hver⟩

theorem Registered.find_by_email (h : Registered i db id verified) :
    ∃ user, (db.tables.users.find? fun user => user.email = i.email) = some user := by
  obtain ⟨user, hu, -⟩ := h
  exact ⟨user, by rw [users_find?, hu]; rfl⟩

theorem Coherent.found_by_link (h : Coherent i db) {linked : OAuthUser × User}
    (hfind : db.findOauthAccount i.provider i.providerId = some linked) : Linked i db linked.2.id := by
  unfold findOauthAccount at hfind
  split at hfind
  · cases hfind
  · rename_i account haccount
    obtain ⟨user, huser, rfl⟩ := Option.map_eq_some_iff.mp hfind
    have hmem := List.mem_of_find?_eq_some haccount
    have hkeys := List.find?_some haccount
    simp only [Bool.and_eq_true, decide_eq_true_eq] at hkeys
    have hlinks : ∀ id, account ∈ i.links db id := by
      intro id
      simp [OAuthIdentity.links, hmem, hkeys]
    cases h.stage with
    | absent users unlinked => exact absurd hkeys.2 (unlinked account hmem hkeys.1)
    | @registered id hr unlinked =>
      have := hlinks id
      rw [unlinked] at this
      cases this
    | @linked id hl =>
      obtain ⟨hr, account', ha, hid, hpid⟩ := hl
      have hin := hlinks id
      rw [ha, List.mem_singleton] at hin
      subst hin
      have huser' : user.id = id := by
        rw [hid] at huser
        simpa using List.find?_some huser
      rw [huser']
      exact ⟨hr, account, ha, hid, hpid⟩

theorem Linked.find_by_link (h : Linked i db id) :
    ∃ linked, db.findOauthAccount i.provider i.providerId = some linked ∧ linked.2.id = id := by
  obtain ⟨⟨user, -, hid, hfound, -⟩, account, ha, hauser, hapid⟩ := h
  have hmem : account ∈ i.links db id := by simp [ha]
  obtain ⟨hmem, hkeys⟩ := List.mem_filter.mp hmem
  simp only [Bool.and_eq_true, decide_eq_true_eq] at hkeys
  have hfind : (db.tables.oauthAccounts.find? fun account =>
      account.provider = i.provider && account.provider_id = i.providerId) = some account := by
    cases hf : db.tables.oauthAccounts.find? fun account =>
        account.provider = i.provider && account.provider_id = i.providerId with
    | none =>
      have := List.find?_eq_none.mp hf account hmem
      simp [hkeys.1, hapid] at this
    | some other =>
      have hother := List.find?_some hf
      simp only [Bool.and_eq_true, decide_eq_true_eq] at hother
      have hin : other ∈ i.links db id := by
        simp [OAuthIdentity.links, List.mem_of_find?_eq_some hf, hother]
      rw [ha, List.mem_singleton] at hin
      rw [hin]
  refine ⟨(account, user), ?_, hid⟩
  simp only [findOauthAccount, hfind, hauser, hfound, Option.map_some]

end Reads

section CommittedWrites

theorem users_update {user : User} (f : User → User) (hemail : ∀ u, (f u).email = u.email)
    (hu : i.users db = [user]) (hid : user.id = id) :
    i.users (db.setUsers (updateWhere id f db.tables.users)) = [f user] := by
  have hkey : ((fun user : User => decide (user.email = i.email)) ∘
      fun user => if user.id = id then f user else user) =
      fun user => decide (user.email = i.email) := by
    funext user
    by_cases h : user.id = id <;> simp [h, hemail]
  rw [OAuthIdentity.users] at hu
  show List.filter _ (updateWhere id f db.tables.users) = _
  rw [updateWhere, List.filter_map, hkey, hu, List.map_singleton, if_pos hid]

theorem Coherent.entries_nil (h : Coherent i db) (hne : i.users db ≠ []) :
    ∀ entry ∈ db.transactions, entry.2 = [] := by
  intro entry hentry
  rcases h.creating entry hentry with hnil | ⟨habsent, -⟩
  · exact hnil
  · exact absurd habsent hne

theorem Coherent.verify (h : Coherent i db) (hreg : Registered i db id verified) :
    ∃ user, db.updateUser id { is_verified := some true } =
      some (.ok (some user), db.update id { is_verified := some true }) ∧
    Coherent i (db.update id { is_verified := some true }) ∧
      Grows i db (db.update id { is_verified := some true }) ∧
      Registered i (db.update id { is_verified := some true }) id true := by
  have hnil := h.others_nil hreg.users_ne none
  have hentries := h.entries_nil hreg.users_ne
  have hreg' := hreg
  obtain ⟨user, hu, hid, hfound, hver⟩ := hreg'
  have hexec : db.updateUser id { is_verified := some true } = _ :=
    updateUser_eq hfound (by rw [hnil]; rfl) rfl rfl rfl
  have hverified : Registered i (db.update id { is_verified := some true }) id true :=
    ⟨_, users_update _ (fun _ => rfl) hu hid, hid, findById_updateWhere_self (fun _ => rfl) hfound,
      fun _ => rfl⟩
  have hgrows : Grows i db (db.update id { is_verified := some true }) := by
    refine ⟨fun {id' verified'} hr => ?_, fun {id'} hl => ?_⟩
    · obtain rfl := hr.unique hreg
      cases verified' with
      | true => exact hverified
      | false => exact hverified.known
    · obtain rfl := hl.1.unique hreg
      exact ⟨hverified, hl.2⟩
  refine ⟨_, hexec, ⟨?_, ?_, h.accountIds, fun entry hentry => .inl (hentries entry hentry), h.alone⟩,
    hgrows, hverified⟩
  · cases h.stage with
    | absent users unlinked => exact absurd users hreg.users_ne
    | registered hr unlinked => exact .registered (hgrows.registered hr) unlinked
    | linked hl => exact .linked (hgrows.linked hl)
  · intro user' huser'
    obtain ⟨old, hold, rfl⟩ := List.mem_map.mp huser'
    calc _ = old.id := by split_ifs <;> rfl
      _ < db.fresh := h.userIds old hold

theorem Coherent.insertUser (h : Coherent i db) (hemail : payload.email = i.email)
    (unique : ∀ user ∈ db.tables.users, user.email ≠ payload.email)
    (alone : (db.others none).any (Write.insertsEmail payload.email) = false) {t : Database}
    (ht : t = (db.setUsers (db.tables.users ++ [payload.toUser db.fresh db.dbNow])).tick) :
    Coherent i t ∧ Grows i db t := by
  have habsent : i.users db = [] := by
    rw [OAuthIdentity.users, List.filter_eq_nil_iff]
    intro user huser
    simpa [hemail] using unique user huser
  have hentries : ∀ entry ∈ db.transactions, entry.2 = [] := by
    intro entry hentry
    apply h.nil_of_waits hentry
    rw [hemail] at alone
    rw [List.any_eq_false] at alone ⊢
    intro w hw
    exact alone w (List.mem_flatMap.mpr ⟨entry, List.mem_filter.mpr ⟨hentry, by simp⟩, hw⟩)
  have hnew : findById db.tables.users db.fresh = none := by
    rw [findById, List.find?_eq_none]
    intro user huser
    simpa using Nat.ne_of_lt (h.userIds user huser)
  subst ht
  have hreg : Registered i (db.setUsers (db.tables.users ++ [payload.toUser db.fresh db.dbNow])).tick
      db.fresh false := by
    refine ⟨payload.toUser db.fresh db.dbNow, ?_, rfl, ?_, by simp⟩
    · rw [OAuthIdentity.users] at habsent
      simp [OAuthIdentity.users, tick, setUsers, List.filter_append, habsent, NewUser.toUser, hemail]
    · rw [findById] at hnew
      simp [findById, tick, setUsers, List.find?_append, hnew, NewUser.toUser]
  refine ⟨⟨.registered hreg ?_, ?_, ?_, fun entry hentry => .inl (hentries entry hentry), h.alone⟩,
    .of_absent habsent⟩
  · rw [OAuthIdentity.links, List.filter_eq_nil_iff]
    intro account haccount
    have hid := h.accountIds account haccount
    have hpid := h.unlinked habsent account haccount
    simp only [Bool.and_eq_true, Bool.or_eq_true, decide_eq_true_eq, not_and, not_or]
    intro hprovider
    exact ⟨Nat.ne_of_lt hid, hpid hprovider⟩
  · intro user huser
    show user.id < db.fresh + 1
    rcases List.mem_append.mp huser with huser | huser
    · exact Nat.lt_succ_of_lt (h.userIds user huser)
    · obtain rfl := List.mem_singleton.mp huser
      exact Nat.lt_succ_self _
  · intro account haccount
    exact Nat.lt_succ_of_lt (h.accountIds account haccount)

theorem taken_iff (accounts : List OAuthUser) : (accounts.any fun other => other.provider = i.provider &&
      (other.user_id = id || other.provider_id = i.providerId)) = false ↔
    (accounts.filter fun other => other.provider = i.provider &&
      (other.user_id = id || other.provider_id = i.providerId)) = [] := by
  rw [List.any_eq_false, List.filter_eq_nil_iff]

theorem linked_of_append {account : OAuthUser} (hreg : Registered i db id true) (hlinks : i.links db id = [])
    (huser : account.user_id = id) (hprovider : account.provider = i.provider)
    (hpid : account.provider_id = i.providerId) :
    Linked i (db.setOauthAccounts (db.tables.oauthAccounts ++ [account])).tick id := by
  refine ⟨hreg, account, ?_, huser, hpid⟩
  rw [OAuthIdentity.links] at hlinks
  simp [OAuthIdentity.links, tick, setOauthAccounts, List.filter_append, hlinks, huser, hprovider]

theorem Coherent.link (h : Coherent i db) (hreg : Registered i db id true) :
    (db.insertOauthAccount none id i.provider i.providerId = some (.error (.queryFailed .uniqueViolation), db) ∧
      Linked i db id) ∨
    ∃ account t, db.insertOauthAccount none id i.provider i.providerId = some (.ok account, t) ∧
      Coherent i t ∧ Grows i db t ∧ Linked i t id := by
  have hothers := h.others_nil hreg.users_ne none
  have hentries := h.entries_nil hreg.users_ne
  obtain ⟨user, hfound, hid⟩ := hreg.findUser
  by_cases hlinks : i.links db id = []
  · right
    have htaken := (taken_iff db.tables.oauthAccounts).mpr hlinks
    let account : OAuthUser := ⟨db.fresh, id, i.provider, i.providerId, db.dbNow⟩
    have hlinked : Linked i (db.setOauthAccounts (db.tables.oauthAccounts ++ [account])).tick id :=
      linked_of_append hreg hlinks rfl rfl rfl
    refine ⟨account, _, ?_, ⟨.linked hlinked, ?_, ?_, fun entry hentry => .inl (hentries entry hentry),
      h.alone⟩,
      ⟨fun hr => hr, fun {id'} hl => ?_⟩, hlinked⟩
    · simp only [insertOauthAccount, insertUnique, i.fits, view, htaken, hothers, List.any_nil, hfound,
        Option.isNone_some, Bool.not_true, Bool.false_eq_true, ↓reduceIte]
      rfl
    · exact fun user huser => Nat.lt_succ_of_lt (h.userIds user huser)
    · intro account' haccount
      rcases List.mem_append.mp haccount with haccount | haccount
      · exact Nat.lt_succ_of_lt (h.accountIds account' haccount)
      · obtain rfl := List.mem_singleton.mp haccount
        have hlt := h.userIds user (List.mem_of_find?_eq_some hfound)
        rw [hid] at hlt
        exact Nat.lt_succ_of_lt hlt
    · obtain rfl := hl.1.unique hreg
      exact hlinked
  · left
    have htaken := mt (taken_iff db.tables.oauthAccounts).mp hlinks
    rw [Bool.not_eq_false] at htaken
    constructor
    · simp only [insertOauthAccount, insertUnique, i.fits, view, htaken, Bool.not_true, Bool.false_eq_true, ↓reduceIte]
    · cases h.stage with
      | absent users unlinked => exact absurd users hreg.users_ne
      | registered hr unlinked =>
        obtain rfl := hr.unique hreg
        exact absurd unlinked hlinks
      | linked hl =>
        obtain rfl := hl.1.unique hreg
        exact hl

end CommittedWrites

section TransactionWrites

theorem Coherent.start (h : Coherent i db) :
    Coherent i { db with transactions := (db.fresh, []) :: db.transactions }.tick ∧
      Grows i db { db with transactions := (db.fresh, []) :: db.transactions }.tick := by
  refine h.of_tables ?_ ?_ (Nat.le_succ _) ?_ ?_
  · rfl
  · rfl
  · intro entry hentry
    rcases List.mem_cons.mp hentry with rfl | hentry
    · exact .inl rfl
    · exact (h.creating entry hentry).imp id fun hc => ⟨hc.1, hc.2.mono rfl rfl (Nat.le_succ _)⟩
  · intro entry hentry entry' hentry' hne hne'
    rcases List.mem_cons.mp hentry with rfl | hentry
    · exact absurd rfl hne
    rcases List.mem_cons.mp hentry' with rfl | hentry'
    · exact absurd rfl hne'
    · exact h.alone entry hentry entry' hentry' hne hne'

theorem Coherent.save (h : Coherent i db) {writes : List Write} {w : Write}
    (hentries : db.entries tx = [(tx, writes)]) (habsent : i.users db = [])
    (hothers : ∀ entry ∈ db.transactions, entry.1 ≠ tx → entry.2 = [])
    (hcreating : Creating i (db.save (some tx) w).tick (writes ++ [w])) :
    Coherent i (db.save (some tx) w).tick ∧ Grows i db (db.save (some tx) w).tick := by
  refine h.of_tables ?_ ?_ (Nat.le_succ _) ?_ ?_
  · rfl
  · rfl
  · intro entry hentry
    rcases mem_save hentries hentry with rfl | ⟨hold, hkey⟩
    · exact .inr ⟨habsent, hcreating⟩
    · exact .inl (hothers entry hold hkey)
  · intro entry hentry entry' hentry' hne hne'
    rcases mem_save hentries hentry with rfl | ⟨hold, hkey⟩
    · rcases mem_save hentries hentry' with rfl | ⟨hold', hkey'⟩
      · rfl
      · exact absurd (hothers entry' hold' hkey') hne'
    · exact absurd (hothers entry hold hkey) hne

theorem Coherent.createUser (h : Coherent i db) (hentries : db.entries tx = [(tx, [])])
    (hemail : payload.email = i.email) (hverified : payload.is_verified = true) (hfits : payload.fits = true)
    {reply : Except Failure User} (hexec : db.insertUser (some tx) payload = some (reply, t)) :
    (reply = .error (.queryFailed .uniqueViolation) ∧ t = db ∧ i.users db ≠ []) ∨
      reply = .ok (payload.toUser db.fresh db.dbNow) ∧
        t.entries tx = [(tx, [.insertUser payload db.fresh db.dbNow])] ∧ Coherent i t ∧ Grows i db t := by
  have hview : db.view (some tx) = db.tables := by rw [view_eq hentries]; rfl
  simp only [Database.insertUser, hview, insertUnique, hemail, hfits, Bool.not_true, Bool.false_eq_true,
    ↓reduceIte] at hexec
  split_ifs at hexec with htaken hwaits
  · cases hexec
    refine .inl ⟨rfl, rfl, fun hnil => ?_⟩
    obtain ⟨user, huser, heq⟩ := List.any_eq_true.mp htaken
    rw [OAuthIdentity.users, List.filter_eq_nil_iff] at hnil
    exact hnil user huser heq
  · cases hexec
    have habsent : i.users db = [] := by
      rw [OAuthIdentity.users, List.filter_eq_nil_iff]
      rw [Bool.not_eq_true, List.any_eq_false] at htaken
      exact htaken
    refine .inr ⟨rfl, ?_, h.save hentries habsent ?_ ?_⟩
    · show (db.save (some tx) _).entries tx = _
      rw [entries_save, hentries]
      rfl
    · intro entry hentry hkey
      apply h.nil_of_waits hentry
      rw [Bool.not_eq_true, List.any_eq_false] at hwaits
      rw [List.any_eq_false]
      intro w hw
      refine hwaits w (List.mem_flatMap.mpr ⟨entry, List.mem_filter.mpr ⟨hentry, ?_⟩, hw⟩)
      simpa using hkey
    · refine ⟨payload, db.fresh, db.dbNow, ⟨hemail, hverified, Nat.lt_succ_self _, ?_, ?_⟩, .inl rfl⟩
      · exact fun user huser => Nat.ne_of_lt (h.userIds user huser)
      · exact fun account haccount => Nat.ne_of_lt (h.accountIds account haccount)

theorem Coherent.nil_of_writes (h : Coherent i db) {writes : List Write}
    (hentries : db.entries tx = [(tx, writes)])
    (hne : writes ≠ []) : ∀ entry ∈ db.transactions, entry.1 ≠ tx → entry.2 = [] := by
  intro entry hentry hkey
  by_contra hwrites
  exact hkey (h.alone entry hentry _ (mem_of_entries hentries) hwrites hne)

theorem NewAccount.find_user (h : NewAccount i db payload id) :
    findById (db.tables.users ++ [payload.toUser id createdAt]) id = some (payload.toUser id createdAt) := by
  have hnone : findById db.tables.users id = none := by
    rw [findById, List.find?_eq_none]
    intro user huser
    simpa using h.newUser user huser
  rw [findById] at hnone ⊢
  simp [List.find?_append, hnone, NewUser.toUser]

theorem NewAccount.links_nil (h : NewAccount i db payload id)
    (hunlinked : ∀ account ∈ db.tables.oauthAccounts, account.provider = i.provider →
      account.provider_id ≠ i.providerId) : i.links db id = [] := by
  rw [OAuthIdentity.links, List.filter_eq_nil_iff]
  intro account haccount
  simp only [Bool.and_eq_true, Bool.or_eq_true, decide_eq_true_eq, not_and, not_or]
  exact fun hprovider => ⟨h.newLink account haccount, hunlinked account haccount hprovider⟩

theorem Coherent.createLink (h : Coherent i db)
    (hentries : db.entries tx = [(tx, [.insertUser payload id createdAt])]) :
    ∃ account : OAuthUser,
      db.insertOauthAccount (some tx) id i.provider i.providerId =
        some (.ok account, (db.save (some tx) (.insertOauthAccount account)).tick) ∧
      (db.save (some tx) (.insertOauthAccount account)).tick.entries tx =
        [(tx, [.insertUser payload id createdAt, .insertOauthAccount account])] ∧
      Coherent i (db.save (some tx) (.insertOauthAccount account)).tick ∧
      Grows i db (db.save (some tx) (.insertOauthAccount account)).tick := by
  obtain ⟨habsent, hnew⟩ := h.newAccount (mem_of_entries hentries)
  have hothers := h.others_of_writes (mem_of_entries hentries) (by simp)
  have hview : db.view (some tx) =
      { db.tables with users := db.tables.users ++ [payload.toUser id createdAt] } := by
    rw [view_eq hentries]
    rfl
  have htaken := (taken_iff db.tables.oauthAccounts).mpr (hnew.links_nil (h.unlinked habsent))
  have hfound := @NewAccount.find_user i db id payload createdAt hnew
  let account : OAuthUser := ⟨db.fresh, id, i.provider, i.providerId, db.dbNow⟩
  refine ⟨account, ?_, ?_, h.save hentries habsent (h.nil_of_writes hentries (by simp)) ?_⟩
  · simp only [insertOauthAccount, insertUnique, i.fits, hview, htaken, hothers, List.any_nil, hfound, Option.isNone_some,
      Bool.not_true, Bool.false_eq_true, ↓reduceIte]
    rfl
  · show (db.save (some tx) _).entries tx = _
    rw [entries_save, hentries]
    rfl
  · refine ⟨payload, id, createdAt, ⟨hnew.email, hnew.verified, Nat.lt_succ_of_lt hnew.fresh, hnew.newUser,
      hnew.newLink⟩, .inr ⟨account, rfl, rfl, rfl, rfl⟩⟩

variable {account : OAuthUser}

theorem Coherent.find_created (h : Coherent i db)
    (hentries : db.entries tx = [(tx, [.insertUser payload id createdAt, .insertOauthAccount account])]) :
    findById (db.view (some tx)).users id = some (payload.toUser id createdAt) := by
  obtain ⟨-, hnew, -⟩ := h.newLink (mem_of_entries hentries)
  rw [view_eq hentries]
  exact hnew.find_user

theorem Coherent.commit (h : Coherent i db)
    (hentries : db.entries tx = [(tx, [.insertUser payload id createdAt, .insertOauthAccount account])])
    (ht : t = { db with tables := db.view (some tx), transactions := db.closeTransaction tx }) :
    Coherent i t ∧ Grows i db t ∧ Linked i t id := by
  obtain ⟨habsent, hnew, huser, hprovider, hpid⟩ := h.newLink (mem_of_entries hentries)
  have hothers := h.nil_of_writes hentries (by simp)
  have hlinks := hnew.links_nil (h.unlinked habsent)
  have husers : t.tables.users = db.tables.users ++ [payload.toUser id createdAt] := by
    rw [ht]
    exact congrArg Tables.users (view_eq hentries)
  have haccounts : t.tables.oauthAccounts = db.tables.oauthAccounts ++ [account] := by
    rw [ht]
    exact congrArg Tables.oauthAccounts (view_eq hentries)
  have hfresh : t.fresh = db.fresh := by rw [ht]
  have hlinked : Linked i t id := by
    refine ⟨⟨payload.toUser id createdAt, ?_, rfl, ?_, fun _ => hnew.verified⟩, account, ?_, huser, hpid⟩
    · rw [OAuthIdentity.users] at habsent
      simp [OAuthIdentity.users, husers, List.filter_append, habsent, NewUser.toUser, hnew.email]
    · rw [husers]
      exact hnew.find_user
    · rw [OAuthIdentity.links] at hlinks
      simp [OAuthIdentity.links, haccounts, List.filter_append, hlinks, huser, hprovider]
  have hclosed : ∀ entry ∈ t.transactions, entry.2 = [] := by
    intro entry hentry
    rw [ht] at hentry
    obtain ⟨hmem, hkey⟩ := List.mem_filter.mp hentry
    exact hothers entry hmem (by simpa using hkey)
  refine ⟨⟨.linked hlinked, ?_, ?_, fun entry hentry => .inl (hclosed entry hentry), ?_⟩,
    .of_absent habsent, hlinked⟩
  · intro user hmem
    rw [husers] at hmem
    rw [hfresh]
    rcases List.mem_append.mp hmem with hmem | hmem
    · exact h.userIds user hmem
    · obtain rfl := List.mem_singleton.mp hmem
      exact hnew.fresh
  · intro account' hmem
    rw [haccounts] at hmem
    rw [hfresh]
    rcases List.mem_append.mp hmem with hmem | hmem
    · exact h.accountIds account' hmem
    · obtain rfl := List.mem_singleton.mp hmem
      rw [huser]
      exact hnew.fresh
  · intro entry hentry entry' _ hne _
    exact absurd (hclosed entry hentry) hne

theorem Coherent.rollback (h : Coherent i db)
    (ht : t = { db with transactions := db.closeTransaction tx }) : Coherent i t ∧ Grows i db t := by
  subst ht
  have hmem : ∀ entry ∈ db.closeTransaction tx, entry ∈ db.transactions := fun entry hentry =>
    (List.mem_filter.mp hentry).1
  refine h.of_tables ?_ ?_ (Nat.le_refl _) ?_ ?_
  · rfl
  · rfl
  · intro entry hentry
    exact (h.creating entry (hmem entry hentry)).imp id fun hc => ⟨hc.1, hc.2.mono rfl rfl (Nat.le_refl _)⟩
  · exact fun entry hentry entry' hentry' => h.alone entry (hmem entry hentry) entry' (hmem entry' hentry')

end TransactionWrites

end SkillBridge
