import SkillBridge.Interleaving.Persistence

set_option autoImplicit false

/-!
One client among many. Its requests come one after the other, and what the others do between two of their
operations changes the state in a restricted way only, which in turn holds whatever the client does.
-/

namespace SkillBridge.Interleaving

variable {S : Signature} {σ Ω μ Req α β : Type}

/-- What holds of the state before every operation, and how the state may change meanwhile. -/
structure Interference (σ : Type) where
  Inv : σ → Prop
  Rel : σ → σ → Prop
  refl : ∀ s, Rel s s
  trans : ∀ {s t u}, Rel s t → Rel t u → Rel s u

namespace Prog

/-- Under the interference, every operation of the program keeps the invariant and `G`, and what comes out at the
end satisfies `Q`, then and later. The calls already made are `l`, newest first. -/
def Withstands (C : Interference σ) (M : Machine S σ Ω μ) (G : σ → σ → Prop)
    (Q : Except S.Err α → List (Call S) → σ → Prop) : Prog S α → List (Call S) → σ → Prop
  | ret a, l, s => ∀ t, C.Rel s t → C.Inv t → Q (.ok a) l t
  | throw e, l, s => ∀ t, C.Rel s t → C.Inv t → Q (.error e) l t
  | call o k, l, s => ∀ t, C.Rel s t → C.Inv t → ∀ reply u, M.Answers o t reply u →
      C.Inv u ∧ G t u ∧ (k reply).Withstands C M G Q (⟨o, reply⟩ :: l) u

variable {C : Interference σ} {M : Machine S σ Ω μ} {G : σ → σ → Prop} {l : List (Call S)} {s t : σ}

section Rules

variable {Q : Except S.Err α → List (Call S) → σ → Prop} {p : Prog S α}

theorem Withstands.later (h : p.Withstands C M G Q l s) (hst : C.Rel s t) : p.Withstands C M G Q l t := by
  cases p with
  | ret a => exact fun u hu => h u (C.trans hst hu)
  | throw e => exact fun u hu => h u (C.trans hst hu)
  | call o k => exact fun u hu => h u (C.trans hst hu)

theorem withstands_of_later (h : ∀ t, C.Rel s t → C.Inv t → p.Withstands C M G Q l t) :
    p.Withstands C M G Q l s := by
  cases p with
  | ret a => exact fun t ht hI => h t ht hI t (C.refl t) hI
  | throw e => exact fun t ht hI => h t ht hI t (C.refl t) hI
  | call o k => exact fun t ht hI => h t ht hI t (C.refl t) hI

theorem Withstands.mono {Q' : Except S.Err α → List (Call S) → σ → Prop} (h : p.Withstands C M G Q l s)
    (hQ : ∀ result l t, Q result l t → Q' result l t) : p.Withstands C M G Q' l s := by
  induction p generalizing l s with
  | ret a => exact fun t ht hI => hQ _ _ _ (h t ht hI)
  | throw e => exact fun t ht hI => hQ _ _ _ (h t ht hI)
  | call o k ih =>
    intro t ht hI reply u ha
    obtain ⟨hu, hG, hk⟩ := h t ht hI reply u ha
    exact ⟨hu, hG, ih reply hk⟩

theorem withstands_bind {Q : Except S.Err β → List (Call S) → σ → Prop} {f : α → Prog S β}
    (h : p.Withstands C M G (fun result l t => match result with
      | .ok a => (f a).Withstands C M G Q l t
      | .error e => Q (.error e) l t) l s) : (p >>= f).Withstands C M G Q l s := by
  induction p generalizing l s with
  | ret a => exact withstands_of_later h
  | throw e => exact h
  | call o k ih =>
    intro t ht hI reply u ha
    obtain ⟨hu, hG, hk⟩ := h t ht hI reply u ha
    exact ⟨hu, hG, ih reply hk⟩

theorem withstands_tryCatch {f : S.Err → Prog S α}
    (h : p.Withstands C M G (fun result l t => match result with
      | .ok a => Q (.ok a) l t
      | .error e => (f e).Withstands C M G Q l t) l s) : (MonadExcept.tryCatch p f).Withstands C M G Q l s := by
  induction p generalizing l s with
  | ret a => exact h
  | throw e => exact withstands_of_later h
  | call o k ih =>
    intro t ht hI reply u ha
    obtain ⟨hu, hG, hk⟩ := h t ht hI reply u ha
    exact ⟨hu, hG, ih reply hk⟩

theorem withstands_perform {o : S.Op} {Q : Except S.Err (S.Res o) → List (Call S) → σ → Prop}
    (h : ∀ t, C.Rel s t → C.Inv t → ∀ reply u, M.Answers o t reply u →
      C.Inv u ∧ G t u ∧ ∀ v, C.Rel u v → C.Inv v → Q reply (⟨o, reply⟩ :: l) v) :
    (perform o).Withstands C M G Q l s := by
  intro t ht hI reply u ha
  obtain ⟨hu, hG, hQ⟩ := h t ht hI reply u ha
  refine ⟨hu, hG, ?_⟩
  cases reply with
  | ok r => exact hQ
  | error e => exact hQ

theorem withstands_perform_bind {Q : Except S.Err β → List (Call S) → σ → Prop} {o : S.Op} {f : S.Res o → Prog S β}
    (h : ∀ t, C.Rel s t → C.Inv t → ∀ reply u, M.Answers o t reply u → C.Inv u ∧ G t u ∧
      ∃ r, reply = .ok r ∧ (f r).Withstands C M G Q (⟨o, .ok r⟩ :: l) u) :
    (perform o >>= f).Withstands C M G Q l s := by
  intro t ht hI reply u ha
  obtain ⟨hu, hG, r, rfl, hf⟩ := h t ht hI reply u ha
  exact ⟨hu, hG, hf⟩

theorem withstands_map {Q : Except S.Err β → List (Call S) → σ → Prop} {f : α → β}
    (h : p.Withstands C M G (fun result => Q (result.map f)) l s) : (f <$> p).Withstands C M G Q l s := by
  induction p generalizing l s with
  | ret a => exact h
  | throw e => exact h
  | call o k ih =>
    intro t ht hI reply u ha
    obtain ⟨hu, hG, hk⟩ := h t ht hI reply u ha
    exact ⟨hu, hG, ih reply hk⟩

end Rules

section Guarded

/-- Whenever the program starts, its operations keep the invariant and `G`, and what it returns satisfies `R`. -/
def Guarded (C : Interference σ) (M : Machine S σ Ω μ) (G : σ → σ → Prop) (R : α → Prop) (p : Prog S α) : Prop :=
  ∀ l s, p.Withstands C M G (fun result _ _ => ∀ a, result = .ok a → R a) l s

variable {R : α → Prop} {R' : β → Prop} {p : Prog S α}

theorem guarded_ret {a : α} (h : R a) : (ret a).Guarded C M G R := by
  intro l s t _ _ b hb
  cases hb
  exact h

theorem guarded_throw {e : S.Err} : (throw e : Prog S α).Guarded C M G R := by
  intro l s t _ _ b hb
  cases hb

theorem Guarded.mono {Q : α → Prop} (h : p.Guarded C M G R) (hR : ∀ a, R a → Q a) : p.Guarded C M G Q :=
  fun l s => (h l s).mono fun _ _ _ hQ a ha => hR a (hQ a ha)

theorem guarded_bind {f : α → Prog S β} (h : p.Guarded C M G R) (hf : ∀ a, R a → (f a).Guarded C M G R') :
    (p >>= f).Guarded C M G R' := by
  intro l s
  apply withstands_bind
  apply (h l s).mono
  intro result l t hQ
  cases result with
  | ok a => exact hf a (hQ a rfl) l t
  | error e => exact fun b hb => nomatch hb

theorem guarded_tryCatch {f : S.Err → Prog S α} (h : p.Guarded C M G R) (hf : ∀ e, (f e).Guarded C M G R) :
    (MonadExcept.tryCatch p f).Guarded C M G R := by
  intro l s
  apply withstands_tryCatch
  apply (h l s).mono
  intro result l t hQ
  cases result with
  | ok a => exact hQ
  | error e => exact hf e l t

theorem guarded_perform {o : S.Op} {R : S.Res o → Prop}
    (kept : ∀ t reply u, C.Inv t → M.Answers o t reply u → C.Inv u ∧ G t u)
    (reads : ∀ t r u, C.Inv t → M.Answers o t (.ok r) u → R r) : (perform o).Guarded C M G R := by
  intro l s
  apply withstands_perform
  intro t _ hI reply u ha
  obtain ⟨hu, hG⟩ := kept t reply u hI ha
  refine ⟨hu, hG, fun v _ _ r hr => ?_⟩
  subst hr
  exact reads t r u hI ha

theorem guarded_of_calls {K : S.Op → Prop}
    (hK : ∀ o, K o → ∀ t reply u, C.Inv t → M.Answers o t reply u → C.Inv u ∧ G t u) (hp : p.Calls K) :
    p.Guarded C M G fun _ => True := by
  intro l s
  induction p generalizing l s with
  | ret a => exact fun _ _ _ _ _ => trivial
  | throw e => exact fun _ _ _ _ _ => trivial
  | call o k ih =>
    intro t _ hI reply u ha
    obtain ⟨hu, hG⟩ := hK o hp.1 t reply u hI ha
    exact ⟨hu, hG, ih reply (hp.2 reply) _ u⟩

end Guarded

end Prog

section Pools

variable {Y : System S σ Ω μ Req α} {p q : Pool S σ Req α}

theorem own_eq_nil {l : List (Event S σ Req)} {n : ℕ} (h : ∀ e ∈ l, e.pid < n) : own n l = [] := by
  apply List.filter_eq_nil_iff.mpr
  intro e he
  have := h e he
  simp only [decide_eq_true_eq]
  omega

theorem System.Step.procs_length_le (h : Y.Step p q) : p.procs.length ≤ q.procs.length := by
  cases h with
  | spawn h => simp
  | run hp h => simp [Pool.answer]
  | env m => exact Nat.le_refl _

theorem System.Reachable.procs_length_le (h : Y.Reachable p q) : p.procs.length ≤ q.procs.length := by
  induction h with
  | refl => exact Nat.le_refl _
  | tail _ hs ih => exact Nat.le_trans ih hs.procs_length_le

theorem System.Step.req_kept (h : Y.Step p q) {i : ℕ} {proc : Proc S Req α} (hproc : p.procs[i]? = some proc) :
    ∃ proc', q.procs[i]? = some proc' ∧ proc'.req = proc.req := by
  have hlt := (List.getElem?_eq_some_iff.mp hproc).1
  cases h with
  | spawn h => exact ⟨proc, by rw [List.getElem?_append_left hlt]; exact hproc, rfl⟩
  | @run j req o k reply t hk ha =>
    by_cases hj : i = j
    · subst hj
      rw [hk] at hproc
      cases hproc
      exact ⟨_, List.getElem?_set_self hlt, rfl⟩
    · exact ⟨proc, by rw [Pool.answer, List.getElem?_set_ne (Ne.symm hj)]; exact hproc, rfl⟩
  | env m => exact ⟨proc, hproc, rfl⟩

/-- `wide` is what may happen at all between two operations, `narrow` what the others do to the client. -/
structure Company (wide narrow : Interference σ) (Y : System S σ Ω μ Req α) : Prop where
  same : ∀ s, wide.Inv s ↔ narrow.Inv s
  wider : ∀ s t, narrow.Rel s t → wide.Rel s t
  env : ∀ m s, narrow.Inv s → narrow.Inv (Y.env m s) ∧ narrow.Rel s (Y.env m s)

structure Among (wide narrow : Interference σ) (M : Machine S σ Ω μ) (pid : ℕ) (p : Pool S σ Req α) : Prop where
  inv : narrow.Inv p.world.state
  pids : ∀ e ∈ p.world.trace, e.pid < p.procs.length
  others : ∀ (i : ℕ) (proc : Proc S Req α), p.procs[i]? = some proc → i ≠ pid →
    proc.prog.Withstands wide M narrow.Rel (fun _ _ _ => True) (calls i p.world.trace) p.world.state

variable {wide narrow : Interference σ} {M : Machine S σ Ω μ} {pid : ℕ}

theorem Among.next (h : Among wide narrow M pid p) (hend : ∀ proc, p.procs[pid]? = some proc →
    (∃ a, proc.prog = .ret a) ∨ ∃ e, proc.prog = .throw e) (pid' : ℕ) : Among wide narrow M pid' p := by
  refine ⟨h.inv, h.pids, fun i proc hproc _ => ?_⟩
  by_cases hi : i = pid
  · subst hi
    rcases hend proc hproc with ⟨a, ha⟩ | ⟨e, he⟩
    · rw [ha]
      exact fun _ _ _ => trivial
    · rw [he]
      exact fun _ _ _ => trivial
  · exact h.others i proc hproc hi

/-- The own request `pid` of the client as the pool has it: it has not arrived yet, or it is under way. -/
structure UnderWay (narrow : Interference σ) (M : Machine S σ Ω μ) (G : σ → σ → Prop)
    (Q : Except S.Err α → List (Call S) → σ → Prop) (pid : ℕ) (s : σ) (p : Pool S σ Req α) : Prop where
  pending : p.procs.length ≤ pid → narrow.Rel s p.world.state
  running : ∀ proc, p.procs[pid]? = some proc → proc.prog.Withstands narrow M G Q (calls pid p.world.trace) p.world.state

theorem Company.step (hC : Company wide narrow Y) {B : ℕ → Req → Prop} {Q : Except S.Err α → List (Call S) → σ → Prop}
    {s : σ} (others : ∀ i req, i ≠ pid → B i req → (Y.body req).Guarded wide Y.toMachine narrow.Rel fun _ => True)
    (own : ∀ req, B pid req → ∀ t, narrow.Rel s t → narrow.Inv t →
      (Y.body req).Withstands narrow Y.toMachine wide.Rel Q [] t)
    (hp : Among wide narrow Y.toMachine pid p) (hown : UnderWay narrow Y.toMachine wide.Rel Q pid s p) (h : Y.Step p q)
    (hB : ∀ i proc, q.procs[i]? = some proc → p.procs.length ≤ i → B i proc.req) :
    Among wide narrow Y.toMachine pid q ∧ UnderWay narrow Y.toMachine wide.Rel Q pid s q := by
  have hpids := h.pid_lt hp.pids
  cases h with
  | @spawn req ha =>
    have hnew : calls p.procs.length p.world.trace = [] := by
      rw [calls, own_eq_nil hp.pids, List.map_nil]
    have hreq : B p.procs.length req := hB p.procs.length ⟨req, Y.body req⟩ (by simp) (Nat.le_refl _)
    refine ⟨⟨hp.inv, hpids, fun i proc hproc hi => ?_⟩, fun hlt => ?_, fun proc hproc => ?_⟩
    · rcases procs_spawn hproc with hproc | ⟨rfl, rfl⟩
      · exact hp.others i proc hproc hi
      · rw [hnew]
        exact (others _ req hi hreq [] _).mono fun _ _ _ _ => trivial
    · exact hown.pending (by simp at hlt; omega)
    · rcases procs_spawn hproc with hproc | ⟨rfl, rfl⟩
      · exact hown.running proc hproc
      · rw [hnew]
        exact own req hreq _ (hown.pending (Nat.le_refl _)) hp.inv
  | @run j req o k reply t hk ha =>
    have hlt : j < p.procs.length := (List.getElem?_eq_some_iff.mp hk).1
    by_cases hj : j = pid
    · subst hj
      obtain ⟨ht, hG, hrest⟩ := hown.running _ hk _ (narrow.refl _) hp.inv reply t ha
      refine ⟨⟨ht, hpids, fun i proc hproc hi => ?_⟩, fun hle => ?_, fun proc hproc => ?_⟩
      · rcases procs_answer hproc with ⟨heq, -⟩ | ⟨-, hproc⟩
        · exact absurd heq hi
        · rw [calls_answer_ne hi]
          exact (hp.others i proc hproc hi).later hG
      · simp [Pool.answer] at hle
        omega
      · rcases procs_answer hproc with ⟨-, rfl⟩ | ⟨hne, -⟩
        · rw [calls_answer_self]
          exact hrest
        · exact absurd rfl hne
    · obtain ⟨ht, hG, hrest⟩ := hp.others j _ hk hj _ (wide.refl _) ((hC.same _).mpr hp.inv) reply t ha
      refine ⟨⟨(hC.same t).mp ht, hpids, fun i proc hproc hi => ?_⟩, fun hle => ?_, fun proc hproc => ?_⟩
      · rcases procs_answer hproc with ⟨rfl, rfl⟩ | ⟨hij, hproc⟩
        · rw [calls_answer_self]
          exact hrest
        · rw [calls_answer_ne hij]
          exact (hp.others i proc hproc hi).later (hC.wider _ _ hG)
      · exact narrow.trans (hown.pending (by simpa [Pool.answer] using hle)) hG
      · rcases procs_answer hproc with ⟨heq, -⟩ | ⟨hne, hproc⟩
        · exact absurd heq.symm hj
        · rw [calls_answer_ne hne]
          exact (hown.running proc hproc).later hG
  | env m =>
    obtain ⟨hI, hR⟩ := hC.env m _ hp.inv
    refine ⟨⟨hI, hpids, fun i proc hproc hi => (hp.others i proc hproc hi).later (hC.wider _ _ hR)⟩, fun hle => ?_,
      fun proc hproc => (hown.running proc hproc).later hR⟩
    exact narrow.trans (hown.pending hle) hR

/-- While one request of the client runs, the others keep to `narrow`, and the request comes out as it would among
them. -/
theorem Company.run (hC : Company wide narrow Y) {B : ℕ → Req → Prop} {Q : Except S.Err α → List (Call S) → σ → Prop}
    (others : ∀ i req, i ≠ pid → B i req → (Y.body req).Guarded wide Y.toMachine narrow.Rel fun _ => True)
    (own : ∀ req, B pid req → ∀ t, narrow.Rel p.world.state t → narrow.Inv t →
      (Y.body req).Withstands narrow Y.toMachine wide.Rel Q [] t)
    (hp : Among wide narrow Y.toMachine pid p) (hpid : p.procs.length ≤ pid) (h : Y.Reachable p q)
    (hB : ∀ i proc, q.procs[i]? = some proc → p.procs.length ≤ i → B i proc.req) :
    Among wide narrow Y.toMachine pid q ∧ UnderWay narrow Y.toMachine wide.Rel Q pid p.world.state q := by
  induction h with
  | refl =>
    refine ⟨hp, fun _ => narrow.refl _, fun proc hproc => ?_⟩
    have := (List.getElem?_eq_some_iff.mp hproc).1
    omega
  | @tail q r hr hs ih =>
    have hBq : ∀ i proc, q.procs[i]? = some proc → p.procs.length ≤ i → B i proc.req := by
      intro i proc hproc hi
      obtain ⟨proc', hproc', hreq⟩ := hs.req_kept hproc
      exact hreq ▸ hB i proc' hproc' hi
    obtain ⟨hq, hown⟩ := ih hBq
    have hle := System.Reachable.procs_length_le hr
    exact hC.step others own hq hown hs fun i proc hproc hi => hB i proc hproc (Nat.le_trans hle hi)

end Pools

end SkillBridge.Interleaving
