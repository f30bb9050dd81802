import Mathlib.Logic.Relation
import SkillBridge.Interleaving.Program

set_option autoImplicit false

/-!
Any number of programs run against one shared state, one operation at a time in any order. Every
operation is kept in a trace, newest first, with the state it was performed in.
-/

namespace SkillBridge.Interleaving

variable {S : Signature} {σ Ω μ Req α : Type}

/-- `exec` answers an operation or leaves it waiting; `ω` stands for what the operation draws from
outside. A failing infrastructure answers any operation with an error of `failure`, without effect. -/
structure Machine (S : Signature) (σ Ω μ : Type) where
  exec : (o : S.Op) → Ω → σ → Option (S.Reply o × σ)
  failure : S.Err → Bool
  env : μ → σ → σ

def Machine.Answers (M : Machine S σ Ω μ) (o : S.Op) (s : σ) (reply : S.Reply o) (t : σ) : Prop :=
  (∃ ω, M.exec o ω s = some (reply, t)) ∨ ∃ e, M.failure e = true ∧ reply = .error e ∧ t = s

structure Event (S : Signature) (σ Req : Type) where
  pid : ℕ
  req : Req
  before : σ
  op : S.Op
  reply : S.Reply op

def Event.call (e : Event S σ Req) : Σ o, S.Reply o := ⟨e.op, e.reply⟩

structure World (S : Signature) (σ Req : Type) where
  state : σ
  trace : List (Event S σ Req)

def World.perform (w : World S σ Req) (pid : ℕ) (req : Req) (o : S.Op) (reply : S.Reply o) (t : σ) :
    World S σ Req :=
  ⟨t, ⟨pid, req, w.state, o, reply⟩ :: w.trace⟩

structure Proc (S : Signature) (Req α : Type) where
  req : Req
  prog : Prog S α

structure Pool (S : Signature) (σ Req α : Type) where
  world : World S σ Req
  procs : List (Proc S Req α)

def Pool.start (s : σ) : Pool S σ Req α := ⟨⟨s, []⟩, []⟩

def Pool.answer (p : Pool S σ Req α) (pid : ℕ) (req : Req) (o : S.Op) (k : S.Reply o → Prog S α)
    (reply : S.Reply o) (t : σ) : Pool S σ Req α :=
  ⟨p.world.perform pid req o reply t, p.procs.set pid ⟨req, k reply⟩⟩

theorem procs_spawn {p : Pool S σ Req α} {new proc : Proc S Req α} {i : ℕ}
    (h : (p.procs ++ [new])[i]? = some proc) : p.procs[i]? = some proc ∨ i = p.procs.length ∧ proc = new := by
  rcases Nat.lt_or_ge i p.procs.length with hlt | hge
  · rw [List.getElem?_append_left hlt] at h
    exact .inl h
  · rw [List.getElem?_append_right hge, List.getElem?_singleton] at h
    split at h
    · exact .inr ⟨by omega, (Option.some.inj h).symm⟩
    · cases h

theorem procs_answer {p : Pool S σ Req α} {pid : ℕ} {req : Req} {o : S.Op} {k : S.Reply o → Prog S α}
    {reply : S.Reply o} {t : σ} {i : ℕ} {proc : Proc S Req α}
    (h : (p.answer pid req o k reply t).procs[i]? = some proc) :
    i = pid ∧ proc = ⟨req, k reply⟩ ∨ i ≠ pid ∧ p.procs[i]? = some proc := by
  by_cases hi : i = pid
  · subst hi
    have hlt : i < p.procs.length := by
      have hlt := (List.getElem?_eq_some_iff.mp h).1
      simpa [Pool.answer] using hlt
    simp only [Pool.answer, List.getElem?_set_self hlt, Option.some.injEq] at h
    exact .inl ⟨rfl, h.symm⟩
  · simp only [Pool.answer, List.getElem?_set_ne (Ne.symm hi)] at h
    exact .inr ⟨hi, h⟩

/-- Which requests may arrive depends on the pool: what its processes returned so far is known outside. -/
structure System (S : Signature) (σ Ω μ Req α : Type) extends Machine S σ Ω μ where
  body : Req → Prog S α
  admits : Pool S σ Req α → Req → Bool

namespace System

variable (Y : System S σ Ω μ Req α)

inductive Step : Pool S σ Req α → Pool S σ Req α → Prop
  | spawn {p : Pool S σ Req α} {req : Req} (h : Y.admits p req = true) :
      Step p ⟨p.world, p.procs ++ [⟨req, Y.body req⟩]⟩
  | run {p : Pool S σ Req α} {pid : ℕ} {req : Req} {o : S.Op} {k : S.Reply o → Prog S α}
      {reply : S.Reply o} {t : σ} (hp : p.procs[pid]? = some ⟨req, .call o k⟩)
      (h : Y.Answers o p.world.state reply t) : Step p (p.answer pid req o k reply t)
  | env {p : Pool S σ Req α} (m : μ) : Step p ⟨⟨Y.env m p.world.state, p.world.trace⟩, p.procs⟩

def Reachable : Pool S σ Req α → Pool S σ Req α → Prop := Relation.ReflTransGen Y.Step

end System

inductive Move (S : Signature) (Ω μ Req : Type)
  | spawn (req : Req)
  | run (pid : ℕ) (ω : Ω)
  | fail (pid : ℕ) (e : S.Err)
  | env (m : μ)

namespace System

variable (Y : System S σ Ω μ Req α)

def advance (p : Pool S σ Req α) : Move S Ω μ Req → Option (Pool S σ Req α)
  | .spawn req => if Y.admits p req then some ⟨p.world, p.procs ++ [⟨req, Y.body req⟩]⟩ else none
  | .run pid ω =>
    match p.procs[pid]? with
    | some ⟨req, .call o k⟩ =>
      match Y.exec o ω p.world.state with
      | some (reply, t) => some (p.answer pid req o k reply t)
      | none => none
    | _ => none
  | .fail pid e =>
    match p.procs[pid]? with
    | some ⟨req, .call o k⟩ =>
      if Y.failure e then some (p.answer pid req o k (.error e) p.world.state) else none
    | _ => none
  | .env m => some ⟨⟨Y.env m p.world.state, p.world.trace⟩, p.procs⟩

def play : Pool S σ Req α → List (Move S Ω μ Req) → Option (Pool S σ Req α)
  | p, [] => some p
  | p, m :: ms => (Y.advance p m).bind fun q => play q ms

variable {Y}

theorem step_of_advance {p q : Pool S σ Req α} {m : Move S Ω μ Req} (h : Y.advance p m = some q) :
    Y.Step p q := by
  cases m with
  | spawn req =>
    simp only [advance] at h
    split at h
    · rename_i ha
      cases h
      exact .spawn ha
    · cases h
  | run pid ω =>
    simp only [advance] at h
    split at h
    · rename_i req o k hp
      split at h
      · rename_i reply t he
        cases h
        exact .run hp (.inl ⟨ω, he⟩)
      · cases h
    · cases h
  | fail pid e =>
    simp only [advance] at h
    split at h
    · rename_i req o k hp
      split at h
      · rename_i hf
        cases h
        exact .run hp (.inr ⟨e, hf, rfl, rfl⟩)
      · cases h
    · cases h
  | env m =>
    cases h
    exact .env m

theorem trace_of_run {p q : Pool S σ Req α} {pid : ℕ} {ω : Ω} (h : Y.advance p (.run pid ω) = some q) :
    ∃ e, q.world.trace = e :: p.world.trace ∧ e.pid = pid := by
  simp only [advance] at h
  split at h
  · split at h
    · cases h
      exact ⟨_, rfl, rfl⟩
    · cases h
  · cases h

theorem reachable_of_play {ms : List (Move S Ω μ Req)} {p q : Pool S σ Req α}
    (h : Y.play p ms = some q) : Y.Reachable p q := by
  induction ms generalizing p with
  | nil => cases h; exact .refl
  | cons m ms ih =>
    obtain ⟨r, hr, hq⟩ := Option.bind_eq_some_iff.mp h
    exact .head (step_of_advance hr) (ih hq)

end System

def own (pid : ℕ) (l : List (Event S σ Req)) : List (Event S σ Req) := l.filter fun e => e.pid = pid

@[simp] theorem own_nil (pid : ℕ) : own pid ([] : List (Event S σ Req)) = [] := rfl

theorem own_cons_self {pid : ℕ} {e : Event S σ Req} (h : e.pid = pid) (l : List (Event S σ Req)) :
    own pid (e :: l) = e :: own pid l := by simp [own, h]

theorem mem_own {pid : ℕ} {e : Event S σ Req} {l : List (Event S σ Req)} :
    e ∈ own pid l ↔ e ∈ l ∧ e.pid = pid := by simp [own]

/-- Every event of the trace stands in relation `C` to the events before it. -/
def Justified (C : Event S σ Req → List (Event S σ Req) → Prop) : List (Event S σ Req) → Prop
  | [] => True
  | e :: l => C e l ∧ Justified C l

instance decidableJustified {C : Event S σ Req → List (Event S σ Req) → Prop} [∀ e l, Decidable (C e l)] :
    ∀ l, Decidable (Justified C l)
  | [] => inferInstanceAs (Decidable True)
  | e :: l =>
    have : Decidable (Justified C l) := decidableJustified l
    inferInstanceAs (Decidable (C e l ∧ Justified C l))

theorem Justified.of_append {C : Event S σ Req → List (Event S σ Req) → Prop}
    {l₁ l₂ : List (Event S σ Req)} (h : Justified C (l₁ ++ l₂)) : Justified C l₂ := by
  induction l₁ with
  | nil => exact h
  | cons e l₁ ih => exact ih h.2

theorem Justified.at {C : Event S σ Req → List (Event S σ Req) → Prop} {l₁ l₂ : List (Event S σ Req)}
    {e : Event S σ Req} (h : Justified C (l₁ ++ e :: l₂)) : C e l₂ := h.of_append.1

theorem Justified.of_mem {C : Event S σ Req → List (Event S σ Req) → Prop} {l : List (Event S σ Req)}
    {e : Event S σ Req} (h : Justified C l) (he : e ∈ l) : ∃ l₁ l₂, l = l₁ ++ e :: l₂ ∧ C e l₂ := by
  obtain ⟨l₁, l₂, rfl⟩ := List.append_of_mem he
  exact ⟨l₁, l₂, rfl, h.at⟩

theorem Justified.and {C C' : Event S σ Req → List (Event S σ Req) → Prop} {l : List (Event S σ Req)}
    (h : Justified C l) (h' : Justified C' l) : Justified (fun e l => C e l ∧ C' e l) l := by
  induction l with
  | nil => trivial
  | cons e l ih => exact ⟨⟨h.1, h'.1⟩, ih h.2 h'.2⟩

namespace System

variable {Y : System S σ Ω μ Req α}

theorem Step.trace_suffix {p q : Pool S σ Req α} (h : Y.Step p q) : p.world.trace <:+ q.world.trace := by
  cases h with
  | spawn h => exact List.suffix_rfl
  | run hp h => exact List.suffix_cons _ _
  | env m => exact List.suffix_rfl

theorem Reachable.trace_suffix {p q : Pool S σ Req α} (h : Y.Reachable p q) :
    p.world.trace <:+ q.world.trace := by
  induction h with
  | refl => exact List.suffix_rfl
  | tail _ hs ih => exact ih.trans hs.trace_suffix

theorem Step.pid_lt {p q : Pool S σ Req α} (h : Y.Step p q)
    (hp : ∀ e ∈ p.world.trace, e.pid < p.procs.length) :
    ∀ e ∈ q.world.trace, e.pid < q.procs.length := by
  cases h with
  | spawn h =>
    intro e he
    have := hp e he
    simp only [List.length_append, List.length_cons, List.length_nil]
    omega
  | @run pid req o k reply t hk h =>
    have hlt : pid < p.procs.length := (List.getElem?_eq_some_iff.mp hk).1
    intro e he
    simp only [Pool.answer, World.perform, List.length_set, List.mem_cons] at he ⊢
    rcases he with rfl | he
    · exact hlt
    · exact hp e he
  | env m => exact hp

theorem Reachable.pid_lt {s : σ} {p : Pool S σ Req α} (h : Y.Reachable (.start s) p) :
    ∀ e ∈ p.world.trace, e.pid < p.procs.length := by
  induction h with
  | refl => simp [Pool.start]
  | tail _ hs ih => exact hs.pid_lt ih

theorem Reachable.own_new {s : σ} {p : Pool S σ Req α} (h : Y.Reachable (.start s) p) :
    own p.procs.length p.world.trace = [] := by
  apply List.filter_eq_nil_iff.mpr
  intro e he
  have := h.pid_lt e he
  simp only [decide_eq_true_eq]
  omega

end System

end SkillBridge.Interleaving
