import SkillBridge.Interleaving.Interference

set_option autoImplicit false

/-!
A client whose requests come one after the other, in the midst of those of others. Its answers are those of a
sequential object of its own.
-/

namespace SkillBridge.Interleaving

variable {S : Signature} {σ Ω μ Req α A : Type}

structure Turn (S : Signature) (Req α : Type) where
  req : Req
  result : Except S.Err α
  calls : List (Call S)

/-- The turns, newest first, lead the sequential object `Spec` from `a` to `b`. -/
inductive Serial (Spec : A → Turn S Req α → A → Prop) (a : A) : List (Turn S Req α) → A → Prop
  | start : Serial Spec a [] a
  | turn {turns : List (Turn S Req α)} {b c : A} {t : Turn S Req α} (h : Serial Spec a turns b) (ht : Spec b t c) :
      Serial Spec a (t :: turns) c

theorem Serial.split {Spec : A → Turn S Req α → A → Prop} {a c : A} {l₁ l₂ : List (Turn S Req α)}
    {t : Turn S Req α} (h : Serial Spec a (l₁ ++ t :: l₂) c) :
    ∃ b b', Serial Spec a l₂ b ∧ Spec b t b' ∧ Serial Spec b' l₁ c := by
  induction l₁ generalizing c with
  | nil =>
    cases h with
    | turn h ht => exact ⟨_, _, h, ht, .start⟩
  | cons t' l₁ ih =>
    cases h with
    | turn h ht' =>
      obtain ⟨b, b', hb, ht, h⟩ := ih h
      exact ⟨b, b', hb, ht, .turn h ht'⟩

theorem Serial.invariant {Spec : A → Turn S Req α → A → Prop} {I : A → Prop} {a b : A}
    {turns : List (Turn S Req α)} (h : Serial Spec a turns b) (start : I a)
    (step : ∀ a t b, I a → t ∈ turns → Spec a t b → I b) : I b := by
  induction h with
  | start => exact start
  | turn h ht ih =>
    have hb := ih fun a t b ha hmem => step a t b ha (List.mem_cons_of_mem _ hmem)
    exact step _ _ _ hb List.mem_cons_self ht

def Prog.ofResult : Except S.Err α → Prog S α
  | .ok a => ret a
  | .error e => throw e

/-- From `p` to `q`, the client has made its requests one after the other; all others are `foreign`. -/
inductive System.Visits (Y : System S σ Ω μ Req α) (own foreign : Req → Prop) (p : Pool S σ Req α) :
    List (Turn S Req α) → Pool S σ Req α → Prop
  | start : Y.Visits own foreign p [] p
  | wait {turns : List (Turn S Req α)} {q r : Pool S σ Req α} (h : Y.Visits own foreign p turns q)
      (hr : Y.Reachable q r)
      (others : ∀ i proc, r.procs[i]? = some proc → q.procs.length ≤ i → foreign proc.req) :
      Y.Visits own foreign p turns r
  | turn {turns : List (Turn S Req α)} {q r : Pool S σ Req α} {pid : ℕ} {req : Req} {result : Except S.Err α}
      (h : Y.Visits own foreign p turns q) (hr : Y.Reachable q r) (hpid : q.procs.length ≤ pid)
      (hproc : r.procs[pid]? = some ⟨req, .ofResult result⟩) (hown : own req)
      (others : ∀ i proc, r.procs[i]? = some proc → q.procs.length ≤ i → i ≠ pid → foreign proc.req) :
      Y.Visits own foreign p (⟨req, result, calls pid r.world.trace⟩ :: turns) r

theorem System.Visits.trans {Y : System S σ Ω μ Req α} {own foreign : Req → Prop} {p q r : Pool S σ Req α}
    {l l' : List (Turn S Req α)} (h : Y.Visits own foreign p l q) (h' : Y.Visits own foreign q l' r) :
    Y.Visits own foreign p (l' ++ l) r := by
  induction h' with
  | start => exact h
  | wait h' hr others ih => exact ih.wait hr others
  | turn h' hr hpid hproc hown others ih => exact ih.turn hr hpid hproc hown others

section Machines

variable {C : Interference σ} {M N : Machine S σ Ω μ} {G : σ → σ → Prop} {p : Prog S α}

theorem Prog.Withstands.of_answers (hN : ∀ o s reply t, N.Answers o s reply t → M.Answers o s reply t)
    {Q : Except S.Err α → List (Call S) → σ → Prop} {l : List (Call S)} {s : σ} (h : p.Withstands C M G Q l s) :
    p.Withstands C N G Q l s := by
  induction p generalizing l s with
  | ret a => exact h
  | throw e => exact h
  | call o k ih =>
    intro t ht hI reply u ha
    obtain ⟨hu, hG, hk⟩ := h t ht hI reply u (hN o t reply u ha)
    exact ⟨hu, hG, ih reply hk⟩

theorem Prog.Withstands.since {D : Interference σ} (hD : ∀ s t, C.Rel s t → D.Rel s t)
    {Q : Except S.Err α → List (Call S) → σ → Prop} {l : List (Call S)} {s₀ s : σ} (hs : D.Rel s₀ s)
    (h : p.Withstands C M D.Rel Q l s) :
    p.Withstands C M D.Rel (fun result l t => Q result l t ∧ D.Rel s₀ t) l s := by
  induction p generalizing l s with
  | ret a => exact fun t ht hI => ⟨h t ht hI, D.trans hs (hD s t ht)⟩
  | throw e => exact fun t ht hI => ⟨h t ht hI, D.trans hs (hD s t ht)⟩
  | call o k ih =>
    intro t ht hI reply u ha
    obtain ⟨hu, hG, hk⟩ := h t ht hI reply u ha
    exact ⟨hu, hG, ih reply (D.trans (D.trans hs (hD s t ht)) hG) hk⟩

theorem Prog.withstands_ofResult {Q : Except S.Err α → List (Call S) → σ → Prop} {result : Except S.Err α}
    {l : List (Call S)} {s : σ} (h : (Prog.ofResult result).Withstands C M G Q l s) (hI : C.Inv s) :
    Q result l s := by
  cases result with
  | ok a => exact h s (C.refl s) hI
  | error e => exact h s (C.refl s) hI

end Machines

section Clients

variable {Y : System S σ Ω μ Req α} {p q : Pool S σ Req α} {wide narrow : Interference σ} {own foreign : Req → Prop}

/-- All processes that are there do to the client at most what `narrow` says. -/
abbrev Crowd (wide narrow : Interference σ) (M : Machine S σ Ω μ) (p : Pool S σ Req α) : Prop :=
  ∀ pid, Among wide narrow M pid p

theorem Among.crowd {M : Machine S σ Ω μ} {pid : ℕ} (h : Among wide narrow M pid p)
    (hend : ∀ proc, p.procs[pid]? = some proc → ∃ result, proc.prog = .ofResult result) : Crowd wide narrow M p := by
  refine fun pid' => h.next (fun proc hproc => ?_) pid'
  obtain ⟨result, hresult⟩ := hend proc hproc
  cases result with
  | ok a => exact .inl ⟨a, hresult⟩
  | error e => exact .inr ⟨e, hresult⟩

/-- If each request of the client, alone among what the others do, comes out as the sequential object `Spec` says,
then so do all of them in every run. -/
theorem System.Visits.serial {turns : List (Turn S Req α)} (h : Y.Visits own foreign p turns q)
    (hC : Company wide narrow Y) {R : A → σ → Prop} {Spec : A → Turn S Req α → A → Prop} {a : A}
    (others : ∀ req, foreign req → (Y.body req).Guarded wide Y.toMachine narrow.Rel fun _ => True)
    (later : ∀ a s t, R a s → narrow.Rel s t → R a t)
    (step : ∀ req, own req → ∀ a s, R a s → (Y.body req).Withstands narrow Y.toMachine wide.Rel
      (fun result l t => ∃ b, Spec a ⟨req, result, l⟩ b ∧ R b t) [] s)
    (hp : Crowd wide narrow Y.toMachine p) (ha : R a p.world.state) :
    Crowd wide narrow Y.toMachine q ∧ ∃ b, Serial Spec a turns b ∧ R b q.world.state := by
  induction h with
  | start => exact ⟨hp, a, .start, ha⟩
  | @wait turns q r h hr hforeign ih =>
    obtain ⟨hq, b, hserial, hb⟩ := ih
    -- the place of a request that never arrives
    have hrun := hC.run (Q := fun _ _ _ => True) (B := fun i req => i ≠ r.procs.length ∧ foreign req)
      (fun _ req _ hreq => others req hreq.2) (fun _ hreq => absurd rfl hreq.1) (hq r.procs.length)
      (System.Reachable.procs_length_le hr) hr fun i proc hproc hi =>
        ⟨Nat.ne_of_lt (List.getElem?_eq_some_iff.mp hproc).1, hforeign i proc hproc hi⟩
    refine ⟨hrun.1.crowd fun proc hproc => ?_, b, hserial, later b _ _ hb (hrun.2.pending (Nat.le_refl _))⟩
    have := (List.getElem?_eq_some_iff.mp hproc).1
    omega
  | @turn turns q r pid req result h hr hpid hproc hown hforeign ih =>
    obtain ⟨hq, b, hserial, hb⟩ := ih
    have hrun := hC.run (B := fun i req' => if i = pid then req' = req else foreign req')
      (Q := fun result l t => ∃ c, Spec b ⟨req, result, l⟩ c ∧ R c t) (fun i req' hi hreq => others req' ?_)
      (fun req' hreq t ht _ => ?_) (hq pid) hpid hr fun i proc hi hle => ?_
    · obtain ⟨c, hc, hcr⟩ := Prog.withstands_ofResult (hrun.2.running _ hproc) hrun.1.inv
      refine ⟨hrun.1.crowd fun proc hproc' => ?_, c, .turn hserial hc, hcr⟩
      rw [hproc] at hproc'
      cases hproc'
      exact ⟨result, rfl⟩
    · rw [if_neg hi] at hreq
      exact hreq
    · rw [if_pos rfl] at hreq
      subst hreq
      exact step req' hown b t (later b _ _ hb ht)
    · by_cases heq : i = pid
      · rw [if_pos heq]
        rw [heq, hproc] at hi
        cases hi
        rfl
      · rw [if_neg heq]
        exact hforeign i proc hi hle heq

end Clients

end SkillBridge.Interleaving
