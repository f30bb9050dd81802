import SkillBridge.Interleaving.Pool

set_option autoImplicit false

/-! Programs have no loops, so a pool that takes no new requests ends unless its processes block each other. -/

namespace SkillBridge.Interleaving

variable {S : Signature} {σ Ω μ Req α : Type}

def Prog.Ended : Prog S α → Prop
  | .ret _ => True
  | .throw _ => True
  | .call _ _ => False

instance : ∀ p : Prog S α, Decidable p.Ended
  | .ret _ => .isTrue trivial
  | .throw _ => .isTrue trivial
  | .call _ _ => .isFalse fun h => h

def Pool.Ended (p : Pool S σ Req α) : Prop := ∀ proc ∈ p.procs, proc.prog.Ended

instance (p : Pool S σ Req α) : Decidable p.Ended := inferInstanceAs (Decidable (∀ proc ∈ p.procs, proc.prog.Ended))

inductive Advances : List (Proc S Req α) → List (Proc S Req α) → Prop
  | head {req : Req} {o : S.Op} {k : S.Reply o → Prog S α} (reply : S.Reply o) (ps : List (Proc S Req α)) :
      Advances (⟨req, .call o k⟩ :: ps) (⟨req, k reply⟩ :: ps)
  | tail (proc : Proc S Req α) {ps qs : List (Proc S Req α)} (h : Advances ps qs) :
      Advances (proc :: ps) (proc :: qs)

theorem advances_set {ps : List (Proc S Req α)} {pid : ℕ} {req : Req} {o : S.Op} {k : S.Reply o → Prog S α}
    (h : ps[pid]? = some ⟨req, .call o k⟩) (reply : S.Reply o) : Advances ps (ps.set pid ⟨req, k reply⟩) := by
  induction ps generalizing pid with
  | nil => cases h
  | cons proc ps ih =>
    cases pid with
    | zero =>
      obtain rfl := Option.some.inj h
      exact .head reply ps
    | succ pid => exact .tail proc (ih h)

theorem Advances.map_req {ps qs : List (Proc S Req α)} (h : Advances ps qs) :
    qs.map Proc.req = ps.map Proc.req := by
  induction h with
  | head reply ps => rfl
  | tail proc h ih => rw [List.map_cons, ih, List.map_cons]

theorem acc_cons {req : Req} {prog : Prog S α} {ps : List (Proc S Req α)}
    (h : Acc (fun qs ps => Advances ps qs) ps) : Acc (fun qs ps => Advances ps qs) (⟨req, prog⟩ :: ps) := by
  induction prog generalizing ps with
  | ret a =>
    induction h with
    | intro ps _ ih =>
      refine ⟨_, fun qs hqs => ?_⟩
      cases hqs with
      | tail _ hqs => exact ih _ hqs
  | throw e =>
    induction h with
    | intro ps _ ih =>
      refine ⟨_, fun qs hqs => ?_⟩
      cases hqs with
      | tail _ hqs => exact ih _ hqs
  | call o k ihk =>
    induction h with
    | intro ps hps ih =>
      refine ⟨_, fun qs hqs => ?_⟩
      cases hqs with
      | head reply => exact ihk reply ⟨_, hps⟩
      | tail _ hqs => exact ih _ hqs

theorem acc_advances (ps : List (Proc S Req α)) : Acc (fun qs ps => Advances ps qs) ps := by
  induction ps with
  | nil => exact ⟨_, fun qs hqs => by cases hqs⟩
  | cons proc ps ih => exact acc_cons ih

namespace System

variable (Y : System S σ Ω μ Req α) (Ok : Event S σ Req → Prop)

/-- Some time passes, and then the next operation of one process is answered, as `Ok` admits it. -/
inductive Runs : Pool S σ Req α → Pool S σ Req α → Prop
  | intro {p : Pool S σ Req α} (m : μ) {pid : ℕ} {req : Req} {o : S.Op} {k : S.Reply o → Prog S α}
      {reply : S.Reply o} {t : σ} (hp : p.procs[pid]? = some ⟨req, .call o k⟩)
      (h : Y.Answers o (Y.env m p.world.state) reply t) (hok : Ok ⟨pid, req, Y.env m p.world.state, o, reply⟩) :
      Runs p (Pool.answer ⟨⟨Y.env m p.world.state, p.world.trace⟩, p.procs⟩ pid req o k reply t)

/-- However the processes are scheduled from here on, they get to a pool in `P`. -/
inductive Inevitable (P : Pool S σ Req α → Prop) : Pool S σ Req α → Prop
  | now {p : Pool S σ Req α} (h : P p) : Inevitable P p
  | later {p : Pool S σ Req α} (progress : ∃ q, Y.Runs Ok p q) (h : ∀ q, Y.Runs Ok p q → Inevitable P q) :
      Inevitable P p

variable {Y Ok} {p q : Pool S σ Req α}

theorem Runs.advances (h : Y.Runs Ok p q) : Advances p.procs q.procs := by
  cases h with
  | intro m hp h hok => exact advances_set hp _

theorem Runs.reachable (h : Y.Runs Ok p q) : Y.Reachable p q := by
  cases h with
  | intro m hp h hok => exact .tail (.single (.env m)) (.run hp h)

theorem Inevitable.mono {P P' : Pool S σ Req α → Prop} (h : Y.Inevitable Ok P p) (hP : ∀ q, P q → P' q) :
    Y.Inevitable Ok P' p := by
  induction h with
  | now h => exact .now (hP _ h)
  | later progress h ih => exact .later progress ih

/-- A pool whose processes never block each other for ever comes to its end. -/
theorem inevitable_of_progress {I : Pool S σ Req α → Prop} (hI : I p) (step : ∀ p q, I p → Y.Runs Ok p q → I q)
    (progress : ∀ p, I p → p.Ended ∨ ∃ q, Y.Runs Ok p q) : Y.Inevitable Ok (fun q => I q ∧ q.Ended) p := by
  have hacc := acc_advances p.procs
  generalize hps : p.procs = ps at hacc
  induction hacc generalizing p with
  | intro ps _ ih =>
    subst hps
    rcases progress p hI with hend | hrun
    · exact .now ⟨hI, hend⟩
    · exact .later hrun fun q hq => ih _ hq.advances (step p q hI hq) rfl

end System

end SkillBridge.Interleaving
