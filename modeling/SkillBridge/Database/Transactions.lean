import SkillBridge.Database.Effects

set_option autoImplicit false

/-! Every transaction belongs to the process that has started it, and no other process writes in it. -/

namespace SkillBridge

open Interleaving

def Op.transaction : Op → Option TxId
  | insertUser tx _ => tx
  | insertOauthAccount tx _ _ _ => tx
  | markOnboardingComplete tx _ => some tx
  | insertTalentProfile tx _ => some tx
  | insertEmployerProfile tx _ => some tx
  | commitTransaction tx => some tx
  | rollbackTransaction tx => some tx
  | _ => none

namespace Database

def start (db : Database) : Database := { db with transactions := (db.fresh, []) :: db.transactions }.tick

def commit (db : Database) (tx : TxId) : Database :=
  { db with tables := db.view (some tx), transactions := db.closeTransaction tx }

def rollback (db : Database) (tx : TxId) : Database := { db with transactions := db.closeTransaction tx }

variable {db t : Database} {tx tx' : TxId}

def entries (db : Database) (tx : TxId) : List (TxId × List Write) :=
  db.transactions.filter fun entry => entry.1 = tx

theorem lookup_eq (transactions : List (TxId × List Write)) (tx : TxId) :
    transactions.lookup tx = ((transactions.filter fun entry => entry.1 = tx).head?).map Prod.snd := by
  induction transactions with
  | nil => rfl
  | cons entry transactions ih =>
    obtain ⟨tx', writes⟩ := entry
    by_cases h : tx' = tx
    · subst h
      simp
    · have hne : (tx == tx') = false := by simpa using Ne.symm h
      rw [List.lookup_cons, hne, ih]
      simp [h]

theorem pending_eq {writes : List Write} (h : db.entries tx = [(tx, writes)]) : db.pending tx = writes := by
  rw [entries] at h
  rw [pending, lookup_eq, h]
  rfl

theorem view_eq {writes : List Write} (h : db.entries tx = [(tx, writes)]) :
    db.view (some tx) = writes.foldl Write.apply db.tables := by
  rw [view, pending_eq h]

theorem entries_save (w : Write) :
    (db.save (some tx) w).entries tx = (db.entries tx).map fun entry => (entry.1, entry.2 ++ [w]) := by
  simp only [entries, save, List.filter_map]
  have hkey : ((fun entry : TxId × List Write => decide (entry.1 = tx)) ∘
      fun entry => if entry.1 = tx then (entry.1, entry.2 ++ [w]) else entry) =
        fun entry => decide (entry.1 = tx) := by
    funext entry
    by_cases h : entry.1 = tx <;> simp [h]
  rw [hkey]
  apply List.map_congr_left
  intro entry hentry
  rw [List.mem_filter, decide_eq_true_eq] at hentry
  rw [if_pos hentry.2]

theorem entries_save_ne (h : tx' ≠ tx) (w : Write) : (db.save (some tx) w).entries tx' = db.entries tx' := by
  simp only [entries, save, List.filter_map]
  have hkey : ((fun entry : TxId × List Write => decide (entry.1 = tx')) ∘
      fun entry => if entry.1 = tx then (entry.1, entry.2 ++ [w]) else entry) =
        fun entry => decide (entry.1 = tx') := by
    funext entry
    by_cases h : entry.1 = tx <;> simp [h]
  rw [hkey]
  calc _ = (db.transactions.filter fun entry => entry.1 = tx').map id := by
        apply List.map_congr_left
        intro entry hentry
        rw [List.mem_filter, decide_eq_true_eq] at hentry
        rw [if_neg (hentry.2.symm ▸ h), id]
    _ = _ := List.map_id _

theorem entries_closeTransaction :
    ({ db with transactions := db.closeTransaction tx } : Database).entries tx = [] := by
  simp only [entries, closeTransaction, List.filter_filter]
  rw [List.filter_eq_nil_iff]
  intro entry _
  by_cases h : entry.1 = tx <;> simp [h]

theorem entries_closeTransaction_ne (h : tx' ≠ tx) :
    ({ db with transactions := db.closeTransaction tx } : Database).entries tx' = db.entries tx' := by
  simp only [entries, closeTransaction, List.filter_filter]
  apply List.filter_congr
  intro entry _
  by_cases hentry : entry.1 = tx'
  · simp [hentry, h]
  · simp [hentry]

theorem entries_start (h : ∀ entry ∈ db.transactions, entry.1 < db.fresh) :
    db.start.entries db.fresh = [(db.fresh, [])] := by
  have hold : (db.transactions.filter fun entry => entry.1 = db.fresh) = [] := by
    rw [List.filter_eq_nil_iff]
    intro entry hentry
    simpa using Nat.ne_of_lt (h entry hentry)
  simp [entries, start, tick, hold]

theorem mem_of_entries {writes : List Write} (h : db.entries tx = [(tx, writes)]) :
    (tx, writes) ∈ db.transactions := by
  have hmem : (tx, writes) ∈ db.entries tx := by simp [h]
  exact (List.mem_filter.mp hmem).1

theorem mem_save {writes : List Write} {w : Write} (hentries : db.entries tx = [(tx, writes)])
    {entry : TxId × List Write} (hentry : entry ∈ (db.save (some tx) w).transactions) :
    entry = (tx, writes ++ [w]) ∨ entry ∈ db.transactions ∧ entry.1 ≠ tx := by
  obtain ⟨old, hold, rfl⟩ := List.mem_map.mp hentry
  by_cases hkey : old.1 = tx
  · have hmem : old ∈ db.entries tx := List.mem_filter.mpr ⟨hold, decide_eq_true hkey⟩
    rw [hentries, List.mem_singleton] at hmem
    subst hmem
    left
    simp
  · rw [if_neg hkey]
    exact .inr ⟨hold, hkey⟩

theorem Effect.entries_eq {o : Op} {r : Reply o} (h : Effect db o r t) (hlt : tx < db.fresh)
    (hne : o.transaction ≠ some tx) : t.entries tx = db.entries tx := by
  cases h with
  | savedUser =>
    rename_i tx' payload
    exact entries_save_ne (fun he => hne (by rw [he]; rfl)) _
  | @saved o r tx' w n hsaves fresh noUser =>
    refine entries_save_ne (fun he => hne ?_) w
    subst he
    cases o with
    | insertOauthAccount tx userId provider providerId => simpa [Op.savesIn, Op.transaction] using hsaves
    | markOnboardingComplete tx id => simpa [Op.savesIn, Op.transaction] using hsaves
    | insertTalentProfile tx profile => simpa [Op.savesIn, Op.transaction] using hsaves
    | insertEmployerProfile tx profile => simpa [Op.savesIn, Op.transaction] using hsaves
    | _ => cases hsaves
  | started =>
    simp only [entries, tick]
    rw [List.filter_cons_of_neg]
    simpa using Nat.ne_of_gt hlt
  | @committed tx' =>
    have hne' : tx ≠ tx' := fun he => hne (by rw [he]; rfl)
    exact entries_closeTransaction_ne hne'
  | @rolledBack tx' =>
    have hne' : tx ≠ tx' := fun he => hne (by rw [he]; rfl)
    exact entries_closeTransaction_ne hne'
  | _ => rfl

theorem Effect.mem_transactions {o : Op} {r : Reply o} (h : Effect db o r t) {entry : TxId × List Write}
    (hentry : entry ∈ t.transactions) :
    (∃ writes, (entry.1, writes) ∈ db.transactions) ∨ (⟨o, r⟩ : ApiCall) = done .startTransaction entry.1 := by
  cases h with
  | savedUser =>
    simp only [save, tick, List.mem_map] at hentry
    obtain ⟨old, hold, rfl⟩ := hentry
    refine .inl ⟨old.2, ?_⟩
    split_ifs <;> exact hold
  | saved =>
    simp only [save, List.mem_map] at hentry
    obtain ⟨old, hold, rfl⟩ := hentry
    refine .inl ⟨old.2, ?_⟩
    split_ifs <;> exact hold
  | started =>
    rcases List.mem_cons.mp hentry with rfl | hentry
    · exact .inr rfl
    · exact .inl ⟨_, hentry⟩
  | committed => exact .inl ⟨_, (List.mem_filter.mp hentry).1⟩
  | rolledBack => exact .inl ⟨_, (List.mem_filter.mp hentry).1⟩
  | _ => exact .inl ⟨_, hentry⟩

end Database

section Ledger

variable {Req : Type}

abbrev ServerWorld (Req : Type) : Type := World backend Database Req

def Started (w : ServerWorld Req) (pid : ℕ) (tx : TxId) : Prop :=
  ∃ e ∈ w.trace, e.pid = pid ∧ e.call = done .startTransaction tx

structure Ledger (w : ServerWorld Req) : Prop where
  owned : ∀ entry ∈ w.state.transactions, ∃ pid, Started w pid entry.1
  lt : ∀ pid tx, Started w pid tx → tx < w.state.fresh
  unique : ∀ pid pid' tx, Started w pid tx → Started w pid' tx → pid = pid'

def TransactionsKept (w w' : ServerWorld Req) : Prop :=
  ∃ l, w'.trace = l ++ w.trace ∧ ∀ pid tx, Started w pid tx → (∀ e ∈ l, e.pid ≠ pid) →
    w'.state.entries tx = w.state.entries tx

/-- The process has started no other open transactions than those in `held`. -/
structure Holding (pid : ℕ) (held : List (TxId × List Write)) (w : ServerWorld Req) : Prop where
  started : ∀ entry ∈ held, Started w pid entry.1
  entries : ∀ tx, Started w pid tx → w.state.entries tx = held.filter fun entry => entry.1 = tx

variable {w w' : ServerWorld Req} {pid pid' : ℕ} {req : Req} {o : Op} {reply : Reply o} {t : Database}
  {tx : TxId}

theorem Started.perform (h : Started w pid tx) : Started (w.perform pid' req o reply t) pid tx := by
  obtain ⟨e, he, hcall⟩ := h
  exact ⟨e, List.mem_cons_of_mem _ he, hcall⟩

theorem started_perform (h : Started (w.perform pid' req o reply t) pid tx) :
    Started w pid tx ∨ pid' = pid ∧ (⟨o, reply⟩ : ApiCall) = done .startTransaction tx := by
  obtain ⟨e, he, hpid, hcall⟩ := h
  rcases List.mem_cons.mp he with rfl | he
  · exact .inr ⟨hpid, hcall⟩
  · exact .inl ⟨e, he, hpid, hcall⟩

theorem TransactionsKept.refl (w : ServerWorld Req) : TransactionsKept w w := ⟨[], rfl, fun _ _ _ _ => rfl⟩

theorem Started.mono {l : List (Event backend Database Req)} (hl : w'.trace = l ++ w.trace)
    (h : Started w pid tx) : Started w' pid tx := by
  obtain ⟨e, he, hcall⟩ := h
  refine ⟨e, ?_, hcall⟩
  rw [hl]
  exact List.mem_append_right l he

theorem TransactionsKept.trans {u v w : ServerWorld Req} (h : TransactionsKept u v)
    (h' : TransactionsKept v w) : TransactionsKept u w := by
  obtain ⟨l, hl, hkept⟩ := h
  obtain ⟨l', hl', hkept'⟩ := h'
  refine ⟨l' ++ l, by rw [hl', hl, List.append_assoc], fun pid tx hs hpid => ?_⟩
  rw [hkept' pid tx (hs.mono hl) fun e he => hpid e (List.mem_append_left l he)]
  exact hkept pid tx hs fun e he => hpid e (List.mem_append_right l' he)

theorem Ledger.perform (h : Ledger w) (ha : server.Answers o w.state reply t)
    (howned : ∀ tx, o.transaction = some tx → Started w pid tx) :
    Ledger (w.perform pid req o reply t) ∧ TransactionsKept w (w.perform pid req o reply t) := by
  have he := answers_effect ha
  have hnew : ∀ tx : TxId, (⟨o, reply⟩ : ApiCall) = done .startTransaction tx →
      tx = w.state.fresh ∧ tx < t.fresh := by
    intro tx hcall
    obtain ⟨rfl, hreply⟩ := Sigma.mk.inj hcall
    obtain rfl := eq_of_heq hreply
    rcases ha with ⟨ω, hω⟩ | ⟨e, -, herr, -⟩
    · cases hω
      exact ⟨rfl, Nat.lt_succ_self _⟩
    · cases herr
  refine ⟨⟨fun entry hentry => ?_, fun pid' tx hs => ?_, fun pid₁ pid₂ tx h₁ h₂ => ?_⟩,
    [⟨pid, req, w.state, o, reply⟩], rfl, fun pid' tx hs hpid => ?_⟩
  · rcases he.mem_transactions hentry with ⟨writes, hold⟩ | hcall
    · obtain ⟨pid', hs⟩ := h.owned _ hold
      exact ⟨pid', hs.perform⟩
    · exact ⟨pid, _, List.mem_cons_self, rfl, hcall⟩
  · rcases started_perform hs with hs | ⟨-, hcall⟩
    · exact Nat.lt_of_lt_of_le (h.lt pid' tx hs) he.fresh_le
    · exact (hnew tx hcall).2
  · rcases started_perform h₁ with h₁ | ⟨hp₁, hc₁⟩ <;> rcases started_perform h₂ with h₂ | ⟨hp₂, hc₂⟩
    · exact h.unique pid₁ pid₂ tx h₁ h₂
    · have := h.lt pid₁ tx h₁
      rw [(hnew tx hc₂).1] at this
      exact absurd this (Nat.lt_irrefl _)
    · have := h.lt pid₂ tx h₂
      rw [(hnew tx hc₁).1] at this
      exact absurd this (Nat.lt_irrefl _)
    · exact hp₁.symm.trans hp₂
  · refine he.entries_eq (h.lt pid' tx hs) fun hwrites => ?_
    have hpid' := h.unique pid pid' tx (howned tx hwrites) hs
    exact hpid _ List.mem_cons_self hpid'

theorem Ledger.start {db : Database} (hidle : db.transactions = []) : Ledger (⟨db, []⟩ : ServerWorld Req) := by
  refine ⟨?_, ?_, ?_⟩
  · simp [hidle]
  · rintro pid tx ⟨e, he, -⟩
    cases he
  · rintro pid pid' tx ⟨e, he, -⟩
    cases he

theorem Ledger.env (h : Ledger w) (m : Tick) : Ledger ⟨server.env m w.state, w.trace⟩ :=
  ⟨h.owned, h.lt, h.unique⟩

variable {held : List (TxId × List Write)}

theorem Holding.spawn (hnew : own pid w.trace = []) : Holding pid [] w := by
  refine ⟨by simp, fun tx ⟨e, he, hpid, hcall⟩ => ?_⟩
  have hmem : e ∈ own pid w.trace := mem_own.mpr ⟨he, hpid⟩
  rw [hnew] at hmem
  cases hmem

theorem Holding.later (h : Holding pid held w) (hkept : TransactionsKept w w') (hown : w.Later pid w') :
    Holding pid held w' := by
  obtain ⟨l, hl, hentries⟩ := hkept
  obtain ⟨l', hl', hpid⟩ := hown
  obtain rfl : l' = l := List.append_cancel_right (hl'.symm.trans hl)
  refine ⟨fun entry hentry => (h.started entry hentry).mono hl, fun tx hs => ?_⟩
  have hs' : Started w pid tx := by
    obtain ⟨e, he, hep, hcall⟩ := hs
    rw [hl] at he
    rcases List.mem_append.mp he with he | he
    · exact absurd hep (hpid e he)
    · exact ⟨e, he, hep, hcall⟩
  rw [hentries pid tx hs' hpid]
  exact h.entries tx hs'

theorem Holding.outside (h : Holding pid held w) (hl : Ledger w) (ha : server.Answers o w.state reply t)
    (ho : o.transaction = none) (hs : o ≠ .startTransaction) :
    Holding pid held (w.perform pid req o reply t) := by
  refine ⟨fun entry hentry => (h.started entry hentry).perform, fun tx hstarted => ?_⟩
  rcases started_perform hstarted with hstarted | ⟨-, hcall⟩
  · have hne : o.transaction ≠ some tx := by simp [ho]
    rw [World.perform_state, (answers_effect ha).entries_eq (hl.lt pid tx hstarted) hne]
    exact h.entries tx hstarted
  · exact absurd (Sigma.mk.inj hcall).1 hs

theorem Holding.start (h : Holding pid [] w) (hl : Ledger w)
    (ha : server.Answers .startTransaction w.state (.ok tx) t) :
    Holding pid [(tx, [])] (w.perform pid req .startTransaction (.ok tx) t) := by
  have hnew : ∀ entry ∈ w.state.transactions, entry.1 < w.state.fresh := by
    intro entry hentry
    obtain ⟨pid', hs⟩ := hl.owned entry hentry
    exact hl.lt pid' _ hs
  rcases ha with ⟨ω, hω⟩ | ⟨e, -, herr, -⟩
  · cases hω
    refine ⟨fun entry hentry => ?_, fun tx' hs => ?_⟩
    · obtain rfl := List.mem_singleton.mp hentry
      exact ⟨_, List.mem_cons_self, rfl, rfl⟩
    · rcases started_perform hs with hs | ⟨-, hcall⟩
      · have hlt := hl.lt pid tx' hs
        have hold := h.entries tx' hs
        have hne : w.state.fresh ≠ tx' := Nat.ne_of_gt hlt
        simp only [Database.entries, List.filter_nil] at hold
        simp [Database.entries, Database.tick, hold, hne]
      · obtain rfl : w.state.fresh = tx' := Except.ok.inj (eq_of_heq (Sigma.mk.inj hcall).2)
        have hold : (w.state.transactions.filter fun entry => entry.1 = w.state.fresh) = [] := by
          rw [List.filter_eq_nil_iff]
          intro entry hentry
          simpa using Nat.ne_of_lt (hnew entry hentry)
        simp [Database.entries, Database.tick, hold]
  · cases herr

theorem Holding.inside {writes : List Write} (h : Holding pid [(tx, writes)] w) (hl : Ledger w)
    (ha : server.Answers o w.state reply t) (ho : o.transaction = some tx)
    (hentries : t.entries tx = held) (hkeys : ∀ entry ∈ held, entry.1 = tx) :
    Holding pid held (w.perform pid req o reply t) := by
  have hstarted : Started w pid tx := h.started _ List.mem_cons_self
  refine ⟨fun entry hentry => ?_, fun tx' hs => ?_⟩
  · rw [hkeys entry hentry]
    exact hstarted.perform
  · rcases started_perform hs with hs | ⟨-, hcall⟩
    · by_cases hne : tx' = tx
      · subst hne
        rw [World.perform_state, hentries, List.filter_eq_self.mpr]
        exact fun entry hentry => decide_eq_true (hkeys entry hentry)
      · have hwrites : o.transaction ≠ some tx' := fun he => hne (Option.some.inj (he.symm.trans ho))
        rw [World.perform_state, (answers_effect ha).entries_eq (hl.lt pid tx' hs) hwrites, h.entries tx' hs]
        have hother : held.filter (fun entry => entry.1 = tx') = [] := by
          rw [List.filter_eq_nil_iff]
          intro entry hentry
          rw [hkeys entry hentry]
          simpa using Ne.symm hne
        rw [hother]
        simpa using Ne.symm hne
    · obtain ⟨rfl, -⟩ := Sigma.mk.inj hcall
      cases ho

theorem Holding.owned {writes : List Write} (h : Holding pid [(tx, writes)] w) (ho : o.transaction = some tx) :
    ∀ tx', o.transaction = some tx' → Started w pid tx' := by
  intro tx' htx
  obtain rfl := Option.some.inj (ho.symm.trans htx)
  exact h.started _ List.mem_cons_self

theorem Holding.entries_eq {writes : List Write} (h : Holding pid [(tx, writes)] w) :
    w.state.entries tx = [(tx, writes)] := by
  rw [h.entries tx (h.started _ List.mem_cons_self)]
  simp

end Ledger

end SkillBridge
