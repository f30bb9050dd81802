import SkillBridge.Interleaving.Completion

set_option autoImplicit false

/-!
Waiting in an order. A process may wait for another one as long as the operation that the other performs next
demands more than its own: then a chain of waiting processes ends at one that can go on.
-/

namespace SkillBridge.Interleaving

variable {S : Signature} {σ Ω μ Req α : Type}

def Pool.Next (p : Pool S σ Req α) (P : S.Op → Prop) : Prop :=
  ∃ (pid : ℕ) (req : Req) (o : S.Op) (k : S.Reply o → Prog S α), p.procs[pid]? = some ⟨req, .call o k⟩ ∧ P o

theorem Pool.Next.mono {p : Pool S σ Req α} {P P' : S.Op → Prop} (h : p.Next P) (hP : ∀ o, P o → P' o) :
    p.Next P' := by
  obtain ⟨pid, req, o, k, hproc, ho⟩ := h
  exact ⟨pid, req, o, k, hproc, hP o ho⟩

theorem Pool.ended_or_next (p : Pool S σ Req α) : p.Ended ∨ p.Next fun _ => True := by
  by_cases hend : p.Ended
  · exact .inl hend
  simp only [Pool.Ended, Classical.not_forall] at hend
  obtain ⟨⟨req, prog⟩, hmem, hnot⟩ := hend
  obtain ⟨pid, hproc⟩ := List.mem_iff_getElem?.mp hmem
  cases prog with
  | ret a => exact absurd trivial hnot
  | throw e => exact absurd trivial hnot
  | call o k => exact .inr ⟨pid, req, o, k, hproc, trivial⟩

/-- Every operation that has to wait waits for a process whose next operation demands more. -/
def Pool.Ordered (p : Pool S σ Req α) (demand : S.Op → ℕ) (ready : S.Op → Prop) : Prop :=
  ∀ (pid : ℕ) (req : Req) (o : S.Op) (k : S.Reply o → Prog S α), p.procs[pid]? = some ⟨req, .call o k⟩ →
    ready o ∨ p.Next fun o' => demand o < demand o'

theorem Pool.Ordered.next_ready {p : Pool S σ Req α} {demand : S.Op → ℕ} {ready : S.Op → Prop} {n : ℕ}
    (h : p.Ordered demand ready) (bound : ∀ o, demand o ≤ n) (hnext : p.Next fun _ => True) : p.Next ready := by
  obtain ⟨pid, req, o, k, hproc, -⟩ := hnext
  -- a chain of waiting processes climbs, so what is left up to the bound decreases
  induction hleft : n - demand o using Nat.strongRecOn generalizing pid req o with
  | ind left ih =>
    rcases h pid req o k hproc with hready | ⟨pid', req', o', k', hproc', hlt⟩
    · exact ⟨pid, req, o, k, hproc, hready⟩
    · have hle := bound o'
      exact ih (n - demand o') (by omega) pid' req' o' k' hproc' rfl

namespace System

variable {Y : System S σ Ω μ Req α}

/-- In an order of demands no process waits for ever, whichever of those that can go on goes next. -/
theorem inevitable_of_order {I : Pool S σ Req α → Prop} {demand : S.Op → ℕ} {n : ℕ} {m : μ}
    (pause : ∀ s, Y.env m s = s) (bound : ∀ o, demand o ≤ n)
    (step : ∀ p q, I p → Y.Runs (fun _ => True) p q → I q)
    (ordered : ∀ p, I p → p.Ordered demand fun o => ∃ reply t, Y.Answers o p.world.state reply t)
    {p : Pool S σ Req α} (hI : I p) : Y.Inevitable (fun _ => True) (fun q => I q ∧ q.Ended) p := by
  apply inevitable_of_progress hI step
  intro q hq
  rcases q.ended_or_next with hend | hnext
  · exact .inl hend
  · obtain ⟨pid, req, o, k, hproc, reply, t, ha⟩ := (ordered q hq).next_ready bound hnext
    have ha' : Y.Answers o (Y.env m q.world.state) reply t := by
      rw [pause]
      exact ha
    exact .inr ⟨_, .intro m hproc ha' trivial⟩

end System

end SkillBridge.Interleaving
