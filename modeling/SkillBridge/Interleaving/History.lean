import SkillBridge.Interleaving.Pool

set_option autoImplicit false

/-!
What a process has done is a path through its program, so a property of all paths holds of the history of
every process, whatever the other processes do in between.
-/

namespace SkillBridge.Interleaving

variable {S : Signature} {σ Ω μ Req α β : Type}

abbrev Call (S : Signature) : Type := Σ o : S.Op, S.Reply o

namespace Prog

variable {G : Call S → List (Call S) → Prop} {Q : Except S.Err α → List (Call S) → Prop}

/-- On every path each call stands in relation `G` to the calls before it, newest first, and the result
in relation `Q` to all of them. -/
def Along (G : Call S → List (Call S) → Prop) (Q : Except S.Err α → List (Call S) → Prop) :
    Prog S α → List (Call S) → Prop
  | ret a, l => Q (.ok a) l
  | throw e, l => Q (.error e) l
  | call o k, l => ∀ r, G ⟨o, r⟩ l ∧ (k r).Along G Q (⟨o, r⟩ :: l)

@[simp] theorem along_ret (a : α) (l : List (Call S)) : (ret a).Along G Q l ↔ Q (.ok a) l := Iff.rfl

@[simp] theorem along_throw (e : S.Err) (l : List (Call S)) :
    (throw e : Prog S α).Along G Q l ↔ Q (.error e) l := Iff.rfl

theorem Along.mono {Q' : Except S.Err α → List (Call S) → Prop} {p : Prog S α} {l : List (Call S)}
    (h : p.Along G Q l) (hQ : ∀ r l', Q r l' → Q' r l') : p.Along G Q' l := by
  induction p generalizing l with
  | ret a => exact hQ _ _ h
  | throw e => exact hQ _ _ h
  | call o k ih =>
    intro r
    obtain ⟨hg, hk⟩ := h r
    exact ⟨hg, ih r hk⟩

theorem Along.imp {G' : Call S → List (Call S) → Prop} {p : Prog S α} {l : List (Call S)} (h : p.Along G Q l)
    (hG : ∀ c l', G c l' → G' c l') : p.Along G' Q l := by
  induction p generalizing l with
  | ret a => exact h
  | throw e => exact h
  | call o k ih =>
    intro r
    obtain ⟨hg, hk⟩ := h r
    exact ⟨hG _ _ hg, ih r hk⟩

theorem along_bind {Q : Except S.Err β → List (Call S) → Prop} {p : Prog S α} {f : α → Prog S β}
    {l : List (Call S)} (h : p.Along G (fun r l' => match r with
      | .ok a => (f a).Along G Q l'
      | .error e => Q (.error e) l') l) : (p >>= f).Along G Q l := by
  induction p generalizing l with
  | ret a => exact h
  | throw e => exact h
  | call o k ih =>
    intro r
    obtain ⟨hg, hk⟩ := h r
    exact ⟨hg, ih r hk⟩

theorem along_tryCatch {p : Prog S α} {f : S.Err → Prog S α} {l : List (Call S)}
    (h : p.Along G (fun r l' => match r with
      | .ok a => Q (.ok a) l'
      | .error e => (f e).Along G Q l') l) : (MonadExcept.tryCatch p f).Along G Q l := by
  induction p generalizing l with
  | ret a => exact h
  | throw e => exact h
  | call o k ih =>
    intro r
    obtain ⟨hg, hk⟩ := h r
    exact ⟨hg, ih r hk⟩

theorem along_map {Q : Except S.Err β → List (Call S) → Prop} {p : Prog S α} {f : α → β}
    {l : List (Call S)} (h : p.Along G (fun r l' => Q (r.map f) l') l) : (f <$> p).Along G Q l := by
  apply along_bind
  apply h.mono
  intro r l' hr
  cases r with
  | ok a => exact hr
  | error e => exact hr

theorem along_perform {o : S.Op} {Q : Except S.Err (S.Res o) → List (Call S) → Prop} {l : List (Call S)}
    (h : ∀ r, G ⟨o, r⟩ l ∧ Q r (⟨o, r⟩ :: l)) : (perform o).Along G Q l := by
  intro r
  refine ⟨(h r).1, ?_⟩
  cases r with
  | ok a => exact (h (.ok a)).2
  | error e => exact (h (.error e)).2

theorem along_perform_bind {Q : Except S.Err β → List (Call S) → Prop} {o : S.Op} {f : S.Res o → Prog S β}
    {l : List (Call S)} (hG : ∀ r, G ⟨o, r⟩ l) (failed : ∀ e, Q (.error e) (⟨o, .error e⟩ :: l))
    (hf : ∀ r, (f r).Along G Q (⟨o, .ok r⟩ :: l)) : (perform o >>= f).Along G Q l := by
  apply along_bind
  apply along_perform
  intro r
  refine ⟨hG r, ?_⟩
  cases r with
  | ok a => exact hf a
  | error e => exact failed e

theorem along_of_calls {K : S.Op → Prop} (hK : ∀ c l, K c.1 → G c l) {p : Prog S α} (hp : p.Calls K)
    {l : List (Call S)} (hQ : ∀ r l', (∀ c ∈ l', K c.1) → Q r (l' ++ l)) : p.Along G Q l := by
  induction p generalizing l with
  | ret a => exact hQ (.ok a) [] (by simp)
  | throw e => exact hQ (.error e) [] (by simp)
  | call o k ih =>
    intro r
    refine ⟨hK _ _ hp.1, ih r (hp.2 r) fun r' l' hl' => ?_⟩
    have := hQ r' (l' ++ [⟨o, r⟩]) (by
      intro c hc
      rcases List.mem_append.mp hc with hc | hc
      · exact hl' c hc
      · obtain rfl := List.mem_singleton.mp hc
        exact hp.1)
    simpa using this

theorem along_after {K : S.Op → Prop} {p : Prog S α} (hp : p.Calls K) {root l : List (Call S)} (h : root <:+ l) :
    p.Along (fun c l' => K c.1 ∧ root <:+ l') (fun _ l' => root <:+ l') l := by
  induction p generalizing l with
  | ret a => exact h
  | throw e => exact h
  | call o k ih =>
    intro r
    exact ⟨⟨hp.1, h⟩, ih r (hp.2 r) (h.trans (List.suffix_cons _ _))⟩

inductive Path : Prog S α → List (Call S) → Except S.Err α → Prop
  | ret (a : α) : Path (ret a) [] (.ok a)
  | throw (e : S.Err) : Path (throw e) [] (.error e)
  | call {o : S.Op} {k : S.Reply o → Prog S α} {r : S.Reply o} {l : List (Call S)} {result : Except S.Err α}
      (h : Path (k r) l result) : Path (call o k) (⟨o, r⟩ :: l) result

theorem Path.result {p : Prog S α} {l past : List (Call S)} {r : Except S.Err α} (h : p.Path l r)
    (ha : p.Along G Q past) : Q r (l.reverse ++ past) := by
  induction h generalizing past with
  | ret a => exact ha
  | throw e => exact ha
  | @call o k r l result h ih =>
    have := ih (ha r).2
    rwa [List.reverse_cons, List.append_assoc]

end Prog

theorem Event.exists_of_call {e : Event S σ Req} {o : S.Op} {r : S.Reply o} (h : e.call = ⟨o, r⟩) :
    ∃ pid req before, e = ⟨pid, req, before, o, r⟩ := by
  cases e with
  | mk pid req before op reply =>
    change (⟨op, reply⟩ : Call S) = ⟨o, r⟩ at h
    cases h
    exact ⟨pid, req, before, rfl⟩

def calls (pid : ℕ) (l : List (Event S σ Req)) : List (Call S) := (own pid l).map Event.call

theorem mem_calls {pid : ℕ} {c : Call S} {l : List (Event S σ Req)} :
    c ∈ calls pid l ↔ ∃ e ∈ l, e.pid = pid ∧ e.call = c := by
  simp [calls, mem_own, and_assoc]

theorem mem_of_split {l l₁ l₂ : List α} {a : α} (h : l = l₁ ++ a :: l₂) : ∀ b ∈ a :: l₂, b ∈ l := by
  intro b hb
  rw [h]
  exact List.mem_append_right _ hb

theorem exists_of_mem_calls {pid : ℕ} {c : Call S} {e : Event S σ Req} {l l₁ l₂ : List (Event S σ Req)}
    (h : l = l₁ ++ e :: l₂) (hc : c ∈ calls pid l₂) : ∃ e' ∈ l, e'.pid = pid ∧ e'.call = c := by
  obtain ⟨e', he', hpid, hcall⟩ := mem_calls.mp hc
  exact ⟨e', mem_of_split h e' (List.mem_cons_of_mem _ he'), hpid, hcall⟩

theorem calls_cons_self {pid : ℕ} {e : Event S σ Req} (h : e.pid = pid) (l : List (Event S σ Req)) :
    calls pid (e :: l) = e.call :: calls pid l := by
  rw [calls, own_cons_self h, List.map_cons, calls]

theorem own_cons_ne {pid : ℕ} {e : Event S σ Req} (h : e.pid ≠ pid) (l : List (Event S σ Req)) :
    own pid (e :: l) = own pid l := by simp [own, h]

theorem calls_cons_ne {pid : ℕ} {e : Event S σ Req} (h : e.pid ≠ pid) (l : List (Event S σ Req)) :
    calls pid (e :: l) = calls pid l := by
  rw [calls, own_cons_ne h, calls]

theorem calls_answer_self {p : Pool S σ Req α} {pid : ℕ} {req : Req} {o : S.Op} {k : S.Reply o → Prog S α}
    {reply : S.Reply o} {t : σ} :
    calls pid (p.answer pid req o k reply t).world.trace = ⟨o, reply⟩ :: calls pid p.world.trace :=
  calls_cons_self rfl _

theorem calls_answer_ne {p : Pool S σ Req α} {pid i : ℕ} {req : Req} {o : S.Op} {k : S.Reply o → Prog S α}
    {reply : S.Reply o} {t : σ} (h : i ≠ pid) :
    calls i (p.answer pid req o k reply t).world.trace = calls i p.world.trace :=
  calls_cons_ne (Ne.symm h) _

theorem exists_of_calls {pid : ℕ} {A B : List (Call S)} {c : Call S} {l : List (Event S σ Req)}
    (h : calls pid l = A ++ c :: B) : ∃ l₁ e l₂, l = l₁ ++ e :: l₂ ∧ e.pid = pid ∧ e.call = c ∧
      calls pid l₁ = A ∧ calls pid l₂ = B := by
  induction l generalizing A with
  | nil => simp [calls] at h
  | cons x l ih =>
    by_cases hx : x.pid = pid
    · rw [calls_cons_self hx] at h
      cases A with
      | nil =>
        obtain ⟨rfl, rfl⟩ := List.cons.inj h
        exact ⟨[], x, l, rfl, hx, rfl, rfl, rfl⟩
      | cons a A =>
        obtain ⟨rfl, ht⟩ := List.cons.inj h
        obtain ⟨l₁, e, l₂, rfl, hpid, hc, hA, hB⟩ := ih ht
        exact ⟨x :: l₁, e, l₂, rfl, hpid, hc, by rw [calls_cons_self hx, hA], hB⟩
    · rw [calls_cons_ne hx] at h
      obtain ⟨l₁, e, l₂, rfl, hpid, hc, hA, hB⟩ := ih h
      exact ⟨x :: l₁, e, l₂, rfl, hpid, hc, by rw [calls_cons_ne hx, hA], hB⟩

theorem justified_of_split {C : Event S σ Req → List (Event S σ Req) → Prop} {l : List (Event S σ Req)}
    (h : ∀ l₁ e l₂, l = l₁ ++ e :: l₂ → C e l₂) : Justified C l := by
  induction l with
  | nil => trivial
  | cons e l ih => exact ⟨h [] e l rfl, ih fun l₁ e' l₂ hl => h (e :: l₁) e' l₂ (by rw [hl]; rfl)⟩

theorem countP_le_one {f : α → Bool} {l : List α}
    (h : ∀ l₁ a l₂, l = l₁ ++ a :: l₂ → f a = true → ∀ b ∈ l₁, f b = false) : l.countP f ≤ 1 := by
  induction l with
  | nil => simp
  | cons a l ih =>
    by_cases ha : f a = true
    · have hl : l.countP f = 0 := by
        rw [List.countP_eq_zero]
        intro b hb hf
        obtain ⟨l₁, l₂, rfl⟩ := List.append_of_mem hb
        have := h (a :: l₁) b l₂ rfl hf a List.mem_cons_self
        rw [ha] at this
        cases this
      simp [List.countP_cons_of_pos ha, hl]
    · rw [List.countP_cons_of_neg ha]
      exact ih fun l₁ b l₂ hl hb c hc => h (a :: l₁) b l₂ (by rw [hl]; rfl) hb c (List.mem_cons_of_mem a hc)

namespace System

variable {Y : System S σ Ω μ Req α} {s : σ}

theorem Reachable.invariant {I : World S σ Req → Prop} {C : Event S σ Req → List (Event S σ Req) → Prop}
    (start : I ⟨s, []⟩) (env : ∀ m w, I w → I ⟨Y.env m w.state, w.trace⟩)
    (run : ∀ w pid req o reply t, I w → Y.Answers o w.state reply t →
      C ⟨pid, req, w.state, o, reply⟩ w.trace → I (w.perform pid req o reply t))
    {p : Pool S σ Req α} (hp : Y.Reachable (.start s) p) (hC : Justified C p.world.trace) :
    I p.world := by
  induction hp with
  | refl => exact start
  | @tail p q hr hs ih =>
    obtain ⟨l, hl⟩ := hs.trace_suffix
    have hI : I p.world := ih (hl ▸ hC).of_append
    cases hs with
    | spawn h => exact hI
    | @run pid req o k reply t hk h => exact run p.world pid req o reply t hI h hC.1
    | env m => exact env m p.world hI

theorem Reachable.stable {I : σ → Prop} (env : ∀ m s, I s → I (Y.env m s))
    (run : ∀ o s (reply : S.Reply o) t, I s → Y.Answers o s reply t → I t) {p q : Pool S σ Req α}
    (h : Y.Reachable p q) (hp : I p.world.state) : I q.world.state := by
  induction h with
  | refl => exact hp
  | @tail p q hr hs ih =>
    cases hs with
    | spawn h => exact ih
    | @run pid req o k reply t hk h => exact run o p.world.state reply t ih h
    | env m => exact env m _ ih

theorem Reachable.persists {I : σ → Prop} {C : Event S σ Req → Prop} (env : ∀ m s, I s → I (Y.env m s))
    (run : ∀ e t, I e.before → Y.Answers e.op e.before e.reply t → C e → I t) {p q : Pool S σ Req α}
    (h : Y.Reachable p q) {l : List (Event S σ Req)} (hl : q.world.trace = l ++ p.world.trace) (hC : ∀ e ∈ l, C e)
    (hp : I p.world.state) : I q.world.state := by
  induction h generalizing l with
  | refl => exact hp
  | @tail q r hr hs ih =>
    cases hs with
    | spawn h => exact ih hl hC
    | @run pid req o k reply t hk ha =>
      obtain ⟨l', hl'⟩ := System.Reachable.trace_suffix hr
      have hcons : (⟨pid, req, q.world.state, o, reply⟩ :: l') ++ p.world.trace = l ++ p.world.trace := by
        rw [List.cons_append, hl']
        exact hl
      have heq := List.append_cancel_right hcons
      subst heq
      have hq := ih hl'.symm fun e he => hC e (List.mem_cons_of_mem _ he)
      exact run ⟨pid, req, q.world.state, o, reply⟩ t hq ha (hC _ List.mem_cons_self)
    | env m => exact env m _ (ih hl hC)

theorem Reachable.answered {p : Pool S σ Req α} (hp : Y.Reachable (.start s) p) :
    Justified (fun e _ => ∃ t, Y.Answers e.op e.before e.reply t) p.world.trace := by
  induction hp with
  | refl => trivial
  | @tail p q hr hs ih =>
    cases hs with
    | spawn h => exact ih
    | @run pid req o k reply t hk h => exact ⟨⟨t, h⟩, ih⟩
    | env m => exact ih

theorem Reachable.req_eq {p : Pool S σ Req α} (hp : Y.Reachable (.start s) p) {pid : ℕ}
    {proc : Proc S Req α} (hproc : p.procs[pid]? = some proc) :
    ∀ e ∈ p.world.trace, e.pid = pid → e.req = proc.req := by
  induction hp generalizing pid proc with
  | refl => simp [Pool.start]
  | @tail p q hr hs ih =>
    cases hs with
    | @spawn req h =>
      intro e he hpid
      have hlt := System.Reachable.pid_lt hr e he
      rw [List.getElem?_append_left (by omega)] at hproc
      exact ih hproc e he hpid
    | @run i req o k reply t hk h =>
      intro e he hpid
      rcases procs_answer hproc with ⟨rfl, rfl⟩ | ⟨hi, hproc⟩
      · rcases List.mem_cons.mp he with rfl | he
        · rfl
        · exact ih hk e he hpid
      · rcases List.mem_cons.mp he with rfl | he
        · exact absurd hpid.symm hi
        · exact ih hproc e he hpid
    | env m => exact ih hproc

theorem Reachable.same_req {p : Pool S σ Req α} (hp : Y.Reachable (.start s) p) {e e' : Event S σ Req}
    (he : e ∈ p.world.trace) (he' : e' ∈ p.world.trace) (h : e'.pid = e.pid) : e'.req = e.req := by
  have hlt := System.Reachable.pid_lt hp e he
  have hproc := List.getElem?_eq_getElem hlt
  rw [System.Reachable.req_eq hp hproc e he rfl, System.Reachable.req_eq hp hproc e' he' h]

variable {G : Req → Call S → List (Call S) → Prop} {Q : Req → Except S.Err α → List (Call S) → Prop}

theorem Reachable.along (hY : ∀ req, (Y.body req).Along (G req) (Q req) []) {p : Pool S σ Req α}
    (hp : Y.Reachable (.start s) p) :
    (∀ (pid : ℕ) (proc : Proc S Req α), p.procs[pid]? = some proc →
      proc.prog.Along (G proc.req) (Q proc.req) (calls pid p.world.trace)) ∧
    Justified (fun e l => G e.req e.call (calls e.pid l)) p.world.trace := by
  induction hp with
  | refl => exact ⟨by simp [Pool.start], trivial⟩
  | @tail p q hr hs ih =>
    obtain ⟨hprog, hjust⟩ := ih
    cases hs with
    | @spawn req h =>
      refine ⟨fun pid proc hproc => ?_, hjust⟩
      rcases procs_spawn hproc with hproc | ⟨rfl, rfl⟩
      · exact hprog pid proc hproc
      · rw [calls, System.Reachable.own_new hr]
        exact hY req
    | @run i req o k reply t hk h =>
      obtain ⟨hg, hsafe⟩ := hprog i _ hk reply
      refine ⟨fun pid proc hproc => ?_, hg, hjust⟩
      rcases procs_answer hproc with ⟨rfl, rfl⟩ | ⟨hi, hproc⟩
      · rw [calls_answer_self]
        exact hsafe
      · rw [calls_answer_ne hi]
        exact hprog pid proc hproc
    | env m => exact ⟨hprog, hjust⟩

theorem Reachable.footprint {K : Req → S.Op → Prop} (hY : ∀ req, (Y.body req).Calls (K req)) {p : Pool S σ Req α}
    (hp : Y.Reachable (.start s) p) {e : Event S σ Req} (he : e ∈ p.world.trace) : K e.req e.op := by
  have halong : ∀ req, (Y.body req).Along (fun c _ => K req c.1) (fun _ _ => True) [] :=
    fun req => Prog.along_of_calls (fun _ _ h => h) (hY req) fun _ _ _ => trivial
  obtain ⟨-, -, -, h⟩ := (Reachable.along halong hp).2.of_mem he
  exact h

theorem Reachable.admitted {A : Req → List (Event S σ Req) → Prop}
    (mono : ∀ req e l, A req l → A req (e :: l))
    (spawn : ∀ (p : Pool S σ Req α) req, Y.Reachable (.start s) p → Y.admits p req = true → A req p.world.trace)
    {p : Pool S σ Req α} (hp : Y.Reachable (.start s) p) :
    (∀ (pid : ℕ) (proc : Proc S Req α), p.procs[pid]? = some proc → A proc.req p.world.trace) ∧
    Justified (fun e l => A e.req l) p.world.trace := by
  induction hp with
  | refl => exact ⟨by simp [Pool.start], trivial⟩
  | @tail p q hr hs ih =>
    obtain ⟨hprocs, hjust⟩ := ih
    cases hs with
    | @spawn req h =>
      refine ⟨fun pid proc hproc => ?_, hjust⟩
      rcases procs_spawn hproc with hproc | ⟨rfl, rfl⟩
      · exact hprocs pid proc hproc
      · exact spawn p req hr h
    | @run i req o k reply t hk h =>
      refine ⟨fun pid proc hproc => mono _ _ _ ?_, hprocs i _ hk, hjust⟩
      rcases procs_answer hproc with ⟨rfl, rfl⟩ | ⟨-, hproc⟩
      · exact hprocs _ ⟨req, .call o k⟩ hk
      · exact hprocs pid proc hproc
    | env m => exact ⟨hprocs, hjust⟩

theorem Reachable.spawned {p : Pool S σ Req α} (hp : Y.Reachable (.start s) p) {pid : ℕ} {proc : Proc S Req α}
    (hproc : p.procs[pid]? = some proc) : ∃ p₀ : Pool S σ Req α, Y.Reachable (.start s) p₀ ∧
      Y.Reachable p₀ p ∧ p₀.procs.length = pid ∧ Y.admits p₀ proc.req = true := by
  induction hp generalizing proc with
  | refl => simp [Pool.start] at hproc
  | @tail p q hr hs ih =>
    cases hs with
    | @spawn req h =>
      rcases procs_spawn hproc with hproc | ⟨rfl, rfl⟩
      · obtain ⟨p₀, h₁, h₂, h₃⟩ := ih hproc
        exact ⟨p₀, h₁, h₂.tail (.spawn h), h₃⟩
      · exact ⟨p, hr, .single (.spawn h), rfl, h⟩
    | @run i req o k reply t hk h =>
      have hold : ∃ proc', p.procs[pid]? = some proc' ∧ proc'.req = proc.req := by
        rcases procs_answer hproc with ⟨rfl, rfl⟩ | ⟨-, hproc⟩
        · exact ⟨_, hk, rfl⟩
        · exact ⟨proc, hproc, rfl⟩
      obtain ⟨proc', hproc', hreq⟩ := hold
      obtain ⟨p₀, h₁, h₂, h₃, h₄⟩ := ih hproc'
      exact ⟨p₀, h₁, h₂.tail (.run hk h), h₃, hreq ▸ h₄⟩
    | env m =>
      obtain ⟨p₀, h₁, h₂, h₃⟩ := ih hproc
      exact ⟨p₀, h₁, h₂.tail (.env m), h₃⟩

theorem Reachable.returned {p q : Pool S σ Req α} (h : Y.Reachable p q) {pid : ℕ} {proc : Proc S Req α} {a : α}
    (hproc : p.procs[pid]? = some proc) (hret : proc.prog = .ret a) :
    q.procs[pid]? = some proc ∧ ∃ l, q.world.trace = l ++ p.world.trace ∧ ∀ e ∈ l, e.pid ≠ pid := by
  induction h with
  | refl => exact ⟨hproc, [], rfl, by simp⟩
  | @tail q r hq hs ih =>
    obtain ⟨hq', l, hl, hpid⟩ := ih
    have hlt : pid < q.procs.length := (List.getElem?_eq_some_iff.mp hq').1
    cases hs with
    | spawn h => exact ⟨by rw [List.getElem?_append_left hlt]; exact hq', l, hl, hpid⟩
    | @run i req o k reply t hk h =>
      have hi : i ≠ pid := by
        rintro rfl
        rw [hq'] at hk
        cases hk
        cases hret
      refine ⟨?_, ⟨i, req, q.world.state, o, reply⟩ :: l, by simp [Pool.answer, World.perform, hl], ?_⟩
      · simp only [Pool.answer, List.getElem?_set_ne hi]
        exact hq'
      · intro e he
        rcases List.mem_cons.mp he with rfl | he
        · exact hi
        · exact hpid e he
    | env m => exact ⟨hq', l, hl, hpid⟩

theorem Reachable.split {p₀ p : Pool S σ Req α} (hp : Y.Reachable p₀ p) {l₁ l₂ : List (Event S σ Req)}
    {e : Event S σ Req} (htrace : p.world.trace = l₁ ++ e :: l₂) (hsuffix : p₀.world.trace <:+ l₂) :
    ∃ (q : Pool S σ Req α) (k : S.Reply e.op → Prog S α) (t : σ), Y.Reachable p₀ q ∧
      q.world = ⟨e.before, l₂⟩ ∧ q.procs[e.pid]? = some ⟨e.req, .call e.op k⟩ ∧
      Y.Answers e.op e.before e.reply t ∧ Y.Reachable (q.answer e.pid e.req e.op k e.reply t) p := by
  induction hp generalizing l₁ with
  | refl =>
    have hle := hsuffix.length_le
    rw [htrace, List.length_append, List.length_cons] at hle
    omega
  | @tail p q hr hs ih =>
    cases hs with
    | spawn h =>
      obtain ⟨r, k, t, hr₁, hw, hk, ha, hr₂⟩ := ih htrace
      exact ⟨r, k, t, hr₁, hw, hk, ha, hr₂.tail (.spawn h)⟩
    | @run pid req o k reply t hk ha =>
      cases l₁ with
      | nil =>
        obtain ⟨rfl, rfl⟩ := List.cons.inj htrace
        exact ⟨p, k, t, hr, rfl, hk, ha, .refl⟩
      | cons x l₁ =>
        obtain ⟨-, htrace⟩ := List.cons.inj htrace
        obtain ⟨r, k', t', hr₁, hw, hk', ha', hr₂⟩ := ih htrace
        exact ⟨r, k', t', hr₁, hw, hk', ha', hr₂.tail (.run hk ha)⟩
    | env m =>
      obtain ⟨r, k, t, hr₁, hw, hk, ha, hr₂⟩ := ih htrace
      exact ⟨r, k, t, hr₁, hw, hk, ha, hr₂.tail (.env m)⟩

/-- A property of the states holds all along a run if and only if it holds at the start and every step keeps it,
where `D` says which steps do, given the invariant `I`. -/
theorem Reachable.keeps_iff {I : World S σ Req → Prop} {P : σ → Prop}
    {C D : Event S σ Req → List (Event S σ Req) → Prop} (start : I ⟨s, []⟩)
    (env : ∀ m w, I w → I ⟨Y.env m w.state, w.trace⟩) (envKeeps : ∀ m s, P s → P (Y.env m s))
    (run : ∀ w pid req o reply t, I w → Y.Answers o w.state reply t →
      C ⟨pid, req, w.state, o, reply⟩ w.trace → I (w.perform pid req o reply t))
    (keeps : ∀ w pid req o reply t, I w → Y.Answers o w.state reply t →
      C ⟨pid, req, w.state, o, reply⟩ w.trace → P w.state → (P t ↔ D ⟨pid, req, w.state, o, reply⟩ w.trace))
    {p : Pool S σ Req α} (hp : Y.Reachable (.start s) p) (hC : Justified C p.world.trace) :
    (∀ q, Y.Reachable (.start s) q → Y.Reachable q p → P q.world.state) ↔ P s ∧ Justified D p.world.trace := by
  constructor
  · intro hP
    refine ⟨hP (.start s) .refl hp, justified_of_split fun l₁ e l₂ htrace => ?_⟩
    obtain ⟨q, k, t, hq, hworld, hproc, ha, hqp⟩ := Reachable.split hp htrace List.nil_suffix
    have hstep : Y.Step q (q.answer e.pid e.req e.op k e.reply t) := .run hproc (by rw [hworld]; exact ha)
    have hCe := (htrace ▸ hC).of_append
    have hI : I q.world := Reachable.invariant start env run hq (by rw [hworld]; exact hCe.2)
    have hbefore : P q.world.state := hP q hq (.head hstep hqp)
    have hafter : P t := hP _ (hq.tail hstep) hqp
    rw [hworld] at hI hbefore
    exact (keeps ⟨e.before, l₂⟩ e.pid e.req e.op e.reply t hI ha hCe.1 hbefore).mp hafter
  · rintro ⟨hs, hD⟩ q hq hqp
    obtain ⟨l, hl⟩ := hqp.trace_suffix
    refine (Reachable.invariant (I := fun w => I w ∧ P w.state) ⟨start, hs⟩ ?_ ?_ hq
      ((hl ▸ hC).of_append.and (hl ▸ hD).of_append)).2
    · exact fun m w h => ⟨env m w h.1, envKeeps m w.state h.2⟩
    · intro w pid req o reply t h ha hstep
      exact ⟨run w pid req o reply t h.1 ha hstep.1, (keeps w pid req o reply t h.1 ha hstep.1 h.2).mpr hstep.2⟩

end System

end SkillBridge.Interleaving
