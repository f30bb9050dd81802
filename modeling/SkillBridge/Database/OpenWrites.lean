import SkillBridge.Database.Pending
import SkillBridge.Database.Transactions

set_option autoImplicit false

/-! What an open transaction has written, read off the calls of the process that has started it. -/

namespace SkillBridge

open Interleaving

def started : ApiCall → Option TxId
  | ⟨.startTransaction, .ok tx⟩ => some tx
  | _ => none

def closed : ApiCall → Option TxId
  | ⟨.commitTransaction tx, .ok _⟩ => some tx
  | ⟨.rollbackTransaction tx, .ok _⟩ => some tx
  | _ => none

def saved : ApiCall → Option (TxId × Write)
  | ⟨.insertUser (some tx) payload, .ok user⟩ => some (tx, .insertUser payload user.id user.createdAt)
  | ⟨.insertOauthAccount (some tx) _ _ _, .ok account⟩ => some (tx, .insertOauthAccount account)
  | ⟨.insertTalentProfile tx _, .ok profile⟩ => some (tx, .insertTalentProfile profile)
  | ⟨.insertEmployerProfile tx _, .ok profile⟩ => some (tx, .insertEmployerProfile profile)
  | ⟨.markOnboardingComplete tx id, .ok _⟩ => some (tx, .markOnboardingComplete id)
  | _ => none

def writesAfter (tx : TxId) (call : ApiCall) (writes : Option (List Write)) : Option (List Write) :=
  if started call = some tx then some []
  else if closed call = some tx then none
  else writes.map fun writes => writes ++ ((saved call).filter fun entry => entry.1 = tx).toList.map Prod.snd

/-- `none` if the transaction is not open after these calls. -/
def openWrites (tx : TxId) (past : List ApiCall) : Option (List Write) := past.foldr (writesAfter tx) none

theorem openWrites_cons (tx : TxId) (call : ApiCall) (past : List ApiCall) :
    openWrites tx (call :: past) = writesAfter tx call (openWrites tx past) := rfl

theorem openWrites_started (tx : TxId) (past : List ApiCall) :
    openWrites tx (done .startTransaction tx :: past) = some [] := if_pos rfl

theorem exists_of_started {o : Op} {reply : Reply o} {tx : TxId} (h : started ⟨o, reply⟩ = some tx) :
    (⟨o, reply⟩ : ApiCall) = done .startTransaction tx := by
  unfold started at h
  split at h
  · rename_i tx' heq
    cases h
    exact heq
  · cases h

theorem transaction_of_closed {o : Op} {reply : Reply o} {tx : TxId} (h : closed ⟨o, reply⟩ = some tx) :
    o.transaction = some tx := by
  unfold closed at h
  split at h
  · rename_i heq
    obtain ⟨rfl, -⟩ := Sigma.mk.inj heq
    exact h
  · rename_i heq
    obtain ⟨rfl, -⟩ := Sigma.mk.inj heq
    exact h
  · cases h

theorem transaction_of_saved {o : Op} {reply : Reply o} {entry : TxId × Write}
    (h : saved ⟨o, reply⟩ = some entry) : o.transaction = some entry.1 := by
  unfold saved at h
  split at h <;> cases h
  all_goals
    rename_i heq
    obtain ⟨rfl, -⟩ := Sigma.mk.inj heq
    rfl

namespace Database

variable {db t : Database} {o : Op} {reply : Reply o} {tx : TxId} {writes : Option (List Write)}

def entriesOf (tx : TxId) (writes : Option (List Write)) : List (TxId × List Write) :=
  writes.toList.map fun writes => (tx, writes)

theorem writesAfter_of_ne (hstarted : started ⟨o, reply⟩ ≠ some tx) (ho : o.transaction ≠ some tx) :
    writesAfter tx ⟨o, reply⟩ writes = writes := by
  have hclosed : closed ⟨o, reply⟩ ≠ some tx := fun h => ho (transaction_of_closed h)
  have hsaved : (saved ⟨o, reply⟩).filter (fun entry => entry.1 = tx) = none := by
    rw [Option.filter_eq_none_iff]
    intro entry hentry
    have htransaction := transaction_of_saved hentry
    rw [decide_eq_true_eq]
    rintro rfl
    exact ho htransaction
  rw [writesAfter, if_neg hstarted, if_neg hclosed, hsaved]
  cases writes <;> simp

theorem entries_saved {w : Write} (h : db.entries tx = entriesOf tx writes) :
    (db.save (some tx) w).entries tx = entriesOf tx (writes.map fun writes => writes ++ [w]) := by
  rw [entries_save, h]
  cases writes <;> rfl

theorem writesAfter_saved {w : Write} (hstarted : started ⟨o, reply⟩ = none) (hclosed : closed ⟨o, reply⟩ = none)
    (hsaved : saved ⟨o, reply⟩ = some (tx, w)) :
    writesAfter tx ⟨o, reply⟩ writes = writes.map fun writes => writes ++ [w] := by
  rw [writesAfter, hstarted, hclosed, hsaved]
  simp [Option.filter_some]

theorem writesAfter_closed (hstarted : started ⟨o, reply⟩ = none) (hclosed : closed ⟨o, reply⟩ = some tx) :
    writesAfter tx ⟨o, reply⟩ writes = none := by
  rw [writesAfter, hstarted, hclosed]
  simp

theorem entries_insertUnique {α : Type} {fits taken waits dangling : Bool} {row row' : α} {w : Write}
    (h : db.insertUnique fits taken waits dangling row (some tx) w = some (.ok row', t))
    (hentries : db.entries tx = entriesOf tx writes) :
    row' = row ∧ t.entries tx = entriesOf tx (writes.map fun writes => writes ++ [w]) := by
  rcases insertUnique_cases h with ⟨e, herr, -⟩ | ⟨-, -, -, hrow, rfl⟩
  · cases herr
  · exact ⟨Except.ok.inj hrow, entries_saved hentries⟩

theorem entries_answer (ha : server.Answers o db reply t) (hlt : tx < db.fresh)
    (hentries : db.entries tx = entriesOf tx writes) :
    t.entries tx = entriesOf tx (writesAfter tx ⟨o, reply⟩ writes) := by
  have hstarted : started ⟨o, reply⟩ ≠ some tx := by
    intro h
    obtain ⟨rfl, hreply⟩ := Sigma.mk.inj (exists_of_started h)
    obtain rfl := eq_of_heq hreply
    rcases ha with ⟨ω, hexec⟩ | ⟨e, -, herr, -⟩
    · cases hexec
      exact absurd hlt (Nat.lt_irrefl _)
    · cases herr
  by_cases ho : o.transaction = some tx
  · cases reply with
    | error e =>
      have hkept : t.transactions = db.transactions := by
        cases answers_transactions ha with
        | kept h => exact h
        | saved saves => cases saves
      have hnone : writesAfter tx ⟨o, .error e⟩ writes = writes := by
        cases o <;> cases writes <;> simp [writesAfter, started, closed, saved]
      rw [hnone, ← hentries, entries, hkept]
      rfl
    | ok r =>
      have hexec : ∃ ω, exec o ω db = some (.ok r, t) := by
        rcases ha with h | ⟨e, -, herr, -⟩
        · exact h
        · cases herr
      obtain ⟨ω, hexec⟩ := hexec
      cases o with
      | insertUser tx' payload =>
        obtain rfl : tx' = some tx := ho
        obtain ⟨rfl, hsaved⟩ := entries_insertUnique hexec hentries
        rw [hsaved, writesAfter_saved rfl rfl rfl]
        rfl
      | insertOauthAccount tx' userId provider providerId =>
        obtain rfl : tx' = some tx := ho
        obtain ⟨rfl, hsaved⟩ := entries_insertUnique hexec hentries
        rw [hsaved, writesAfter_saved rfl rfl rfl]
      | insertTalentProfile tx' profile =>
        obtain rfl := Option.some.inj ho
        obtain ⟨rfl, hsaved⟩ := entries_insertUnique hexec hentries
        rw [hsaved, writesAfter_saved rfl rfl rfl]
      | insertEmployerProfile tx' profile =>
        obtain rfl := Option.some.inj ho
        obtain ⟨rfl, hsaved⟩ := entries_insertUnique hexec hentries
        rw [hsaved, writesAfter_saved rfl rfl rfl]
      | markOnboardingComplete tx' id =>
        obtain rfl := Option.some.inj ho
        simp only [exec, markOnboardingComplete] at hexec
        split_ifs at hexec
        cases hexec
        rw [entries_saved hentries, writesAfter_saved rfl rfl rfl]
      | commitTransaction tx' =>
        obtain rfl := Option.some.inj ho
        cases hexec
        rw [writesAfter_closed rfl rfl]
        exact entries_closeTransaction
      | rollbackTransaction tx' =>
        obtain rfl := Option.some.inj ho
        cases hexec
        rw [writesAfter_closed rfl rfl]
        exact entries_closeTransaction
      | _ => cases ho
  · rw [(answers_effect ha).entries_eq hlt ho, writesAfter_of_ne hstarted ho, hentries]

end Database

open Database

section Ledger

variable {Req : Type}

/-- Each process writes only in transactions it has started. -/
def Owns (call : ApiCall) (past : List ApiCall) : Prop :=
  ∀ tx, call.1.transaction = some tx → done .startTransaction tx ∈ past

/-- What every transaction has open is what its process has written in it. -/
structure Booked (w : ServerWorld Req) : Prop extends Ledger w where
  entries : ∀ pid tx, Started w pid tx → w.state.entries tx = entriesOf tx (openWrites tx (calls pid w.trace))

variable {w : ServerWorld Req} {pid pid' : ℕ} {req : Req} {o : Op} {reply : Reply o} {t : Database} {tx : TxId}

theorem started_of_mem (h : done .startTransaction tx ∈ calls pid w.trace) : Started w pid tx := by
  obtain ⟨e, he, hpid, hcall⟩ := mem_calls.mp h
  exact ⟨e, he, hpid, hcall⟩

theorem Booked.start {db : Database} (h : db.transactions = []) : Booked (⟨db, []⟩ : ServerWorld Req) := by
  refine ⟨⟨?_, ?_, ?_⟩, ?_⟩
  · simp [h]
  · rintro pid tx ⟨e, he, -⟩
    cases he
  · rintro pid pid' tx ⟨e, he, -⟩
    cases he
  · rintro pid tx ⟨e, he, -⟩
    cases he

theorem Booked.perform (h : Booked w) (ha : server.Answers o w.state reply t)
    (howns : Owns ⟨o, reply⟩ (calls pid w.trace)) : Booked (w.perform pid req o reply t) := by
  have howned : ∀ tx, o.transaction = some tx → Started w pid tx := fun tx htx => started_of_mem (howns tx htx)
  refine ⟨(@Ledger.perform _ _ pid req _ _ _ h.toLedger ha howned).1, fun pid' tx hs => ?_⟩
  have hcalls : calls pid (w.perform pid req o reply t).trace = ⟨o, reply⟩ :: calls pid w.trace :=
    calls_cons_self rfl w.trace
  rcases started_perform hs with hold | ⟨rfl, hcall⟩
  · have hlt := h.lt pid' tx hold
    by_cases hpid : pid = pid'
    · subst hpid
      rw [hcalls, openWrites_cons]
      exact entries_answer ha hlt (h.entries pid tx hold)
    · have hne : o.transaction ≠ some tx := fun htx => hpid (h.unique pid pid' tx (howned tx htx) hold)
      have hother : calls pid' (w.perform pid req o reply t).trace = calls pid' w.trace :=
        calls_cons_ne hpid w.trace
      rw [World.perform_state, (answers_effect ha).entries_eq hlt hne, hother]
      exact h.entries pid' tx hold
  · obtain ⟨rfl, hreply⟩ := Sigma.mk.inj hcall
    obtain rfl := eq_of_heq hreply
    have hkeys : ∀ entry ∈ w.state.transactions, entry.1 < w.state.fresh := by
      intro entry hentry
      obtain ⟨pid', hs'⟩ := h.owned entry hentry
      exact h.lt pid' _ hs'
    rcases ha with ⟨ω, hexec⟩ | ⟨e, -, herr, -⟩
    · cases hexec
      rw [hcalls]
      exact (entries_start hkeys).trans
        (congrArg (entriesOf w.state.fresh) (openWrites_started w.state.fresh (calls pid w.trace))).symm
    · cases herr

theorem Booked.tick (h : Booked w) (htransactions : t.transactions = w.state.transactions)
    (hfresh : t.fresh = w.state.fresh) : Booked ⟨t, w.trace⟩ := by
  refine ⟨⟨fun entry hentry => h.owned entry (htransactions ▸ hentry), fun pid tx hs => ?_, h.unique⟩,
    fun pid tx hs => ?_⟩
  · rw [hfresh]
    exact h.lt pid tx hs
  · rw [Database.entries, htransactions]
    exact h.entries pid tx hs

theorem Booked.pending_eq (h : Booked w) (howns : done .startTransaction tx ∈ calls pid w.trace) {writes : List Write}
    (hopen : openWrites tx (calls pid w.trace) = some writes) : w.state.pending tx = writes := by
  have hentries := h.entries pid tx (started_of_mem howns)
  rw [hopen] at hentries
  exact Database.pending_eq hentries

end Ledger

end SkillBridge
