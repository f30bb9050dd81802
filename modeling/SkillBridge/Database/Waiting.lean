import SkillBridge.Database.Transactions
import SkillBridge.Interleaving.Completion

set_option autoImplicit false

/-! A statement waits only for a transaction that has written, so the processes do not block each other for ever. -/

namespace SkillBridge

open Interleaving Database

variable {Req α : Type} {w : ServerWorld Req} {pid : ℕ} {held : List (TxId × List Write)}

/-- A process that waits does not hold up others: some transaction has written, and it is not its own. -/
def CanGoOn (pid : ℕ) (o : Op) (w : ServerWorld Req) : Prop :=
  (∃ ω reply t, exec o ω w.state = some (reply, t)) ∨
    (∃ entry ∈ w.state.transactions, entry.2 ≠ []) ∧
      ∀ entry ∈ w.state.transactions, Started w pid entry.1 → entry.2 = []

theorem Holding.nil_of_started (h : Holding pid held w) (hnil : ∀ entry ∈ held, entry.2 = []) :
    ∀ entry ∈ w.state.transactions, Started w pid entry.1 → entry.2 = [] := by
  intro entry hentry hs
  have hmem : entry ∈ w.state.entries entry.1 := List.mem_filter.mpr ⟨hentry, by simp⟩
  rw [h.entries _ hs] at hmem
  exact hnil entry (List.mem_filter.mp hmem).1

variable {Y : System backend Database Draw Tick Req α} {Ok : Event backend Database Req → Prop}
  {p : Pool backend Database Req α}

theorem progress_of_ready (hledger : Ledger p.world) (hlt : ∀ e ∈ p.world.trace, e.pid < p.procs.length)
    (ready : ∀ (pid : ℕ) (req : Req) (o : Op) (k : Reply o → Action α), p.procs[pid]? = some ⟨req, .call o k⟩ →
      CanGoOn pid o p.world)
    (ended : ∀ (pid : ℕ) (proc : Proc backend Req α), p.procs[pid]? = some proc → proc.prog.Ended →
      Holding pid [] p.world)
    (run : ∀ (pid : ℕ) (req : Req) (o : Op) (k : Reply o → Action α), p.procs[pid]? = some ⟨req, .call o k⟩ →
      (∃ ω reply t, exec o ω p.world.state = some (reply, t)) → ∃ q, Y.Runs Ok p q) :
    p.Ended ∨ ∃ q, Y.Runs Ok p q := by
  by_cases hend : p.Ended
  · exact .inl hend
  right
  simp only [Pool.Ended, not_forall] at hend
  obtain ⟨⟨req, prog⟩, hmem, hnot⟩ := hend
  obtain ⟨pid, hproc⟩ := List.mem_iff_getElem?.mp hmem
  cases prog with
  | ret a => exact absurd trivial hnot
  | throw e => exact absurd trivial hnot
  | call o k =>
    rcases ready pid req o k hproc with hready | ⟨⟨entry, hentry, hne⟩, -⟩
    · exact run pid req o k hproc hready
    · -- the process waits for a transaction, whose own process can go on
      obtain ⟨pid', hstarted⟩ := hledger.owned entry hentry
      obtain ⟨e, he, hpid, -⟩ := id hstarted
      have hproc' : p.procs[pid']? = some (p.procs.get ⟨pid', hpid ▸ hlt e he⟩) := List.getElem?_eq_getElem _
      generalize p.procs.get ⟨pid', hpid ▸ hlt e he⟩ = proc' at hproc'
      obtain ⟨req', prog'⟩ := proc'
      cases prog' with
      | ret a =>
        have hh := ended pid' _ hproc' trivial
        exact absurd (hh.nil_of_started (by simp) entry hentry hstarted) hne
      | throw e =>
        have hh := ended pid' _ hproc' trivial
        exact absurd (hh.nil_of_started (by simp) entry hentry hstarted) hne
      | call o' k' =>
        rcases ready pid' req' o' k' hproc' with hready | ⟨-, hnil⟩
        · exact run pid' req' o' k' hproc' hready
        · exact absurd (hnil entry hentry hstarted) hne

end SkillBridge
