import SkillBridge.Interleaving.Completion

set_option autoImplicit false

/-!
Requests that each look a key up, prepare a row and insert it. The key is unique, and nothing else guards the
time between the look-up and the insertion.
-/

namespace SkillBridge.Interleaving

variable {S : Signature} {σ Ω μ Req α β ρ : Type}

/-- The program calls `K` only, and it gives up only when a call does. -/
def Prog.Smooth (K : S.Op → Prop) : Prog S β → Prop
  | ret _ => True
  | throw _ => False
  | call o k => K o ∧ ∀ r, (k (.ok r)).Smooth K

/-- `conflict` is thrown when the key is found, `clash` is the reply to an insertion that comes too late, and `misfit`
that to one whose row the table cannot hold. -/
structure Enrolment (S : Signature) (Req β α : Type) where
  look : S.Op
  found : S.Res look → Bool
  fits : Req → Bool
  prepare : Req → Prog S β
  insert : Req → β → S.Op
  result : ∀ req b, S.Res (insert req b) → α
  conflict : S.Err
  clash : S.Err
  misfit : S.Err

namespace Enrolment

open Prog

variable (E : Enrolment S Req β α)

def finish (req : Req) (p : Prog S β) : Prog S α :=
  p >>= fun b => perform (E.insert req b) >>= fun r => ret (E.result req b r)

def prog (req : Req) : Prog S α :=
  perform E.look >>= fun r => if E.found r then Prog.throw E.conflict else E.finish req (E.prepare req)

/-- `rows` is the table and `key` the unique key; in a `valid` state no statement waits. -/
structure Lawful (Y : System S σ Ω μ Req α) (rows : σ → List ρ) (key : ρ → Bool) (quiet : S.Op → Prop)
    (valid : σ → Prop) : Prop where
  body : ∀ req, Y.body req = E.prog req
  reliable : ∀ e, Y.failure e = false
  prepare : ∀ req, (E.prepare req).Smooth quiet
  quiet_ne : ∀ o, quiet o → o ≠ E.look
  insert_ne : ∀ req b, E.insert req b ≠ E.look
  env : ∀ m s, valid s → valid (Y.env m s) ∧ rows (Y.env m s) = rows s
  look : ∀ ω s reply t, valid s → Y.exec E.look ω s = some (reply, t) →
    t = s ∧ ∃ r, reply = .ok r ∧ E.found r = (rows s).any key
  calls : ∀ o ω s reply t, quiet o → valid s → Y.exec o ω s = some (reply, t) →
    valid t ∧ rows t = rows s ∧ ∃ r, reply = .ok r
  unfit : ∀ req b ω s reply t, valid s → E.fits req = false → Y.exec (E.insert req b) ω s = some (reply, t) →
    t = s ∧ reply = .error E.misfit
  stored : ∀ req b ω s reply t, valid s → E.fits req = true → (rows s).any key = true →
    Y.exec (E.insert req b) ω s = some (reply, t) → t = s ∧ reply = .error E.clash
  inserted : ∀ req b ω s reply t, valid s → E.fits req = true → (rows s).any key = false →
    Y.exec (E.insert req b) ω s = some (reply, t) →
    valid t ∧ ∃ r row, reply = .ok r ∧ key row = true ∧ rows t = rows s ++ [row]
  answers : ∀ o s, valid s → (o = E.look ∨ quiet o ∨ ∃ req b, o = E.insert req b) →
    ∃ ω reply t, Y.exec o ω s = some (reply, t)

/-- One process has its result and the row, all others have been told an error of `L`. -/
def Answered (rows : σ → List ρ) (key : ρ → Bool) (L : S.Err → Prop) (s : σ) (p : Pool S σ Req α) : Prop :=
  ∃ (row : ρ) (pid : ℕ) (req : Req) (a : α), key row = true ∧ rows p.world.state = rows s ++ [row] ∧
    p.procs[pid]? = some ⟨req, .ret a⟩ ∧ ∀ (other : ℕ) (proc : Proc S Req α), other ≠ pid →
      p.procs[other]? = some proc → ∃ e, proc.prog = .throw e ∧ L e

def Early (rows : σ → List ρ) (key : ρ → Bool) (pid : ℕ) (l : List (Event S σ Req)) : Prop :=
  ∃ e ∈ l, e.pid = pid ∧ e.op = E.look ∧ (rows e.before).any key = false

def OneEarly (rows : σ → List ρ) (key : ρ → Bool) (l : List (Event S σ Req)) : Prop :=
  ∀ pid other, E.Early rows key pid l → E.Early rows key other l → pid = other

inductive At (rows : σ → List ρ) (key : ρ → Bool) (quiet : S.Op → Prop) (w : World S σ Req) (pid : ℕ)
    (proc : Proc S Req α) : Prop
  | waiting (h : proc.prog = E.prog proc.req) (late : ¬ E.Early rows key pid w.trace)
  | preparing (p : Prog S β) (h : proc.prog = E.finish proc.req p) (smooth : p.Smooth quiet)
      (early : E.Early rows key pid w.trace)
  | enrolled (a : α) (h : proc.prog = .ret a) (early : E.Early rows key pid w.trace)
      (stored : (rows w.state).any key = true) (fits : E.fits proc.req = true)
  | refused (h : proc.prog = .throw E.conflict) (late : ¬ E.Early rows key pid w.trace)
      (stored : (rows w.state).any key = true)
  | clashed (h : proc.prog = .throw E.clash) (early : E.Early rows key pid w.trace)
      (stored : (rows w.state).any key = true)
  | unfit (h : proc.prog = .throw E.misfit) (early : E.Early rows key pid w.trace) (misfits : E.fits proc.req = false)

structure Standing (rows : σ → List ρ) (key : ρ → Bool) (quiet : S.Op → Prop) (valid : σ → Prop) (s : σ)
    (p : Pool S σ Req α) : Prop where
  state : valid p.world.state
  procs : ∀ pid proc, p.procs[pid]? = some proc → E.At rows key quiet p.world pid proc
  table : (rows p.world.state = rows s ∧
      ∀ (pid : ℕ) (req : Req) (a : α), p.procs[pid]? ≠ some ⟨req, .ret a⟩) ∨
    ∃ (row : ρ) (pid : ℕ) (req : Req) (a : α), key row = true ∧ rows p.world.state = rows s ++ [row] ∧
      p.procs[pid]? = some ⟨req, .ret a⟩ ∧
      ∀ (other : ℕ) (req : Req) (a : α), p.procs[other]? = some ⟨req, .ret a⟩ → other = pid

variable {E} {Y : System S σ Ω μ Req α} {rows : σ → List ρ} {key : ρ → Bool} {quiet : S.Op → Prop} {valid : σ → Prop}
  {s : σ} {p q : Pool S σ Req α}

theorem early_cons {pid : ℕ} {e : Event S σ Req} {l : List (Event S σ Req)} : E.Early rows key pid (e :: l) ↔
    (e.pid = pid ∧ e.op = E.look ∧ (rows e.before).any key = false) ∨ E.Early rows key pid l := by
  simp [Early]

theorem early_cons_ne {pid : ℕ} {e : Event S σ Req} {l : List (Event S σ Req)} (h : e.pid ≠ pid ∨ e.op ≠ E.look) :
    E.Early rows key pid (e :: l) ↔ E.Early rows key pid l := by
  rw [early_cons]
  constructor
  · rintro (⟨hpid, hop, -⟩ | hl)
    · exact absurd h (by simp [hpid, hop])
    · exact hl
  · exact .inr

theorem At.mono {w w' : World S σ Req} {pid : ℕ} {proc : Proc S Req α} (h : E.At rows key quiet w pid proc)
    (early : E.Early rows key pid w'.trace ↔ E.Early rows key pid w.trace)
    (stored : (rows w.state).any key = true → (rows w'.state).any key = true) :
    E.At rows key quiet w' pid proc := by
  cases h with
  | waiting h late => exact .waiting h ((not_congr early).mpr late)
  | preparing p h smooth he => exact .preparing p h smooth (early.mpr he)
  | enrolled a h he hstored hfits => exact .enrolled a h (early.mpr he) (stored hstored) hfits
  | refused h late hstored => exact .refused h ((not_congr early).mpr late) (stored hstored)
  | clashed h he hstored => exact .clashed h (early.mpr he) (stored hstored)
  | unfit h he hmisfits => exact .unfit h (early.mpr he) hmisfits

/-- What one operation does to the table: nothing, or its process has inserted the key. -/
def Moved (rows : σ → List ρ) (key : ρ → Bool) (s t : σ) (next : Prog S α) : Prop :=
  rows t = rows s ∧ (∀ a, next ≠ .ret a) ∨
    (rows s).any key = false ∧ ∃ row a, key row = true ∧ rows t = rows s ++ [row] ∧ next = .ret a

theorem Moved.stored {t : σ} {next : Prog S α} (h : Moved rows key s t next) (stored : (rows s).any key = true) :
    (rows t).any key = true := by
  rcases h with ⟨hrows, -⟩ | ⟨hnone, -⟩
  · rw [hrows]
    exact stored
  · rw [hnone] at stored
    cases stored

theorem Standing.answer (h : E.Standing rows key quiet valid s p) {pid : ℕ} {req : Req} {o : S.Op}
    {k : S.Reply o → Prog S α} {reply : S.Reply o} {t : σ} (hp : p.procs[pid]? = some ⟨req, .call o k⟩)
    (state : valid t) (table : Moved rows key p.world.state t (k reply))
    (next : E.At rows key quiet (p.answer pid req o k reply t).world pid ⟨req, k reply⟩) :
    E.Standing rows key quiet valid s (p.answer pid req o k reply t) := by
  have hlt : pid < p.procs.length := (List.getElem?_eq_some_iff.mp hp).1
  refine ⟨state, fun i proc hproc => ?_, ?_⟩
  · rcases procs_answer hproc with ⟨rfl, rfl⟩ | ⟨hi, hproc⟩
    · exact next
    · exact (h.procs i proc hproc).mono (early_cons_ne (.inl (Ne.symm hi))) table.stored
  rcases table with ⟨hrows, hnext⟩ | ⟨hnone, row, a, hkey, hrows, hnext⟩
  · -- Whoever had a result still has it, and nobody has got one.
    have hret : ∀ {i : ℕ} {r : Req} {a : α}, (p.answer pid req o k reply t).procs[i]? = some ⟨r, .ret a⟩ ↔
        p.procs[i]? = some ⟨r, .ret a⟩ := by
      intro i r a
      by_cases hi : i = pid
      · subst hi
        simp only [Pool.answer, List.getElem?_set_self hlt, hp, Option.some.injEq, Proc.mk.injEq, reduceCtorEq,
          and_false, iff_false, not_and]
        exact fun _ => hnext a
      · simp only [Pool.answer, List.getElem?_set_ne (Ne.symm hi)]
    rcases h.table with ⟨hsame, hnobody⟩ | ⟨row, w, r, a, hkey, hrow, hw, huniq⟩
    · exact .inl ⟨hrows.trans hsame, fun i r a hi => hnobody i r a (hret.mp hi)⟩
    · exact .inr ⟨row, w, r, a, hkey, hrows.trans hrow, hret.mpr hw, fun i r a hi => huniq i r a (hret.mp hi)⟩
  · rcases h.table with ⟨hsame, hnobody⟩ | ⟨row', w, r, a', hkey', hrow, -⟩
    · refine .inr ⟨row, pid, req, a, hkey, by rw [← hsame]; exact hrows, ?_, fun i r a' hi => ?_⟩
      · simp only [Pool.answer, List.getElem?_set_self hlt, hnext]
      · rcases procs_answer hi with ⟨rfl, -⟩ | ⟨-, hi⟩
        · rfl
        · exact absurd hi (hnobody i r a')
    · rw [hrow, List.any_append] at hnone
      simp [hkey'] at hnone

theorem early_new {l : List (Event S σ Req)} {n pid : ℕ} (fresh : ∀ e ∈ l, e.pid < n) (h : n ≤ pid) :
    ¬ E.Early rows key pid l := by
  rintro ⟨e, he, hpid, -⟩
  have := fresh e he
  omega

theorem Lawful.looked (L : E.Lawful Y rows key quiet valid) (h : E.Standing rows key quiet valid s p) {pid : ℕ}
    {req : Req} {k : S.Reply E.look → Prog S α} {reply : S.Reply E.look} {t : σ} {ω : Ω}
    (hp : p.procs[pid]? = some ⟨req, .call E.look k⟩) (hω : Y.exec E.look ω p.world.state = some (reply, t))
    (hk : Prog.call E.look k = E.prog req) (late : ¬ E.Early rows key pid p.world.trace) :
    E.Standing rows key quiet valid s (p.answer pid req E.look k reply t) := by
  obtain ⟨-, hk⟩ := Prog.call.inj hk
  obtain rfl := eq_of_heq hk
  obtain ⟨rfl, r, rfl, hfound⟩ := L.look ω _ reply t h.state hω
  cases hstored : E.found r with
  | true =>
    have hkey : (rows p.world.state).any key = true := hfound.symm.trans hstored
    have hnext : (if E.found r then Prog.throw E.conflict else E.finish req (E.prepare req)) =
        .throw E.conflict := by
      rw [hstored]
      rfl
    refine h.answer hp h.state (.inl ⟨rfl, fun a ha => ?_⟩) (.refused hnext (fun he => ?_) hkey)
    · cases hnext.symm.trans ha
    · rcases early_cons.mp he with ⟨-, -, hnone⟩ | he
      · rw [hkey] at hnone
        cases hnone
      · exact late he
  | false =>
    have hkey : (rows p.world.state).any key = false := hfound.symm.trans hstored
    have hnext : (if E.found r then Prog.throw E.conflict else E.finish req (E.prepare req)) =
        E.finish req (E.prepare req) := by
      rw [hstored]
      rfl
    refine h.answer hp h.state (.inl ⟨rfl, fun a ha => ?_⟩)
      (.preparing (E.prepare req) hnext (L.prepare req) (early_cons.mpr (.inl ⟨rfl, rfl, hkey⟩)))
    have hret := hnext.symm.trans ha
    cases hprep : E.prepare req with
    | ret b => rw [hprep] at hret; cases hret
    | throw e => rw [hprep] at hret; cases hret
    | call o k => rw [hprep] at hret; cases hret

theorem Lawful.prepared (L : E.Lawful Y rows key quiet valid) (h : E.Standing rows key quiet valid s p) {pid : ℕ}
    {req : Req} {o : S.Op} {k : S.Reply o → Prog S α} {reply : S.Reply o} {t : σ} {ω : Ω} {c : Prog S β}
    (hp : p.procs[pid]? = some ⟨req, .call o k⟩) (hω : Y.exec o ω p.world.state = some (reply, t))
    (hk : Prog.call o k = E.finish req c) (smooth : c.Smooth quiet) (early : E.Early rows key pid p.world.trace) :
    E.Standing rows key quiet valid s (p.answer pid req o k reply t) := by
  cases c with
  | throw e => exact absurd smooth id
  | ret b =>
    obtain ⟨rfl, hk⟩ := Prog.call.inj hk
    obtain rfl := eq_of_heq hk
    have hearly : E.Early rows key pid (p.world.perform pid req (E.insert req b) reply t).trace :=
      (early_cons_ne (.inr (L.insert_ne req b))).mpr early
    cases hfits : E.fits req with
    | false =>
      obtain ⟨rfl, rfl⟩ := L.unfit req b ω _ reply t h.state hfits hω
      exact h.answer hp h.state (.inl ⟨rfl, fun a ha => by cases ha⟩) (.unfit rfl hearly hfits)
    | true =>
      cases hstored : (rows p.world.state).any key with
      | true =>
        obtain ⟨rfl, rfl⟩ := L.stored req b ω _ reply t h.state hfits hstored hω
        exact h.answer hp h.state (.inl ⟨rfl, fun a ha => by cases ha⟩) (.clashed rfl hearly hstored)
      | false =>
        obtain ⟨hvalid, r, row, rfl, hkey, hrows⟩ := L.inserted req b ω _ reply t h.state hfits hstored hω
        have hmoved : Moved rows key p.world.state t (ret (E.result req b r) : Prog S α) :=
          .inr ⟨hstored, row, _, hkey, hrows, rfl⟩
        refine h.answer hp hvalid hmoved (.enrolled _ rfl hearly ?_ hfits)
        show (rows t).any key = true
        rw [hrows, List.any_append]
        simp [hkey]
  | call o' k' =>
    obtain ⟨rfl, hk⟩ := Prog.call.inj hk
    obtain rfl := eq_of_heq hk
    obtain ⟨hvalid, hrows, r, rfl⟩ := L.calls _ ω _ reply t smooth.1 h.state hω
    refine h.answer hp hvalid (.inl ⟨hrows, fun a ha => ?_⟩)
      (.preparing (k' (.ok r)) rfl (smooth.2 r) ((early_cons_ne (.inr (L.quiet_ne _ smooth.1))).mpr early))
    have hret : E.finish req (k' (.ok r)) = .ret a := ha
    cases hnext : k' (.ok r) with
    | ret b => rw [hnext] at hret; cases hret
    | throw e => rw [hnext] at hret; cases hret
    | call o k => rw [hnext] at hret; cases hret

theorem Lawful.step (L : E.Lawful Y rows key quiet valid) (fresh : ∀ e ∈ p.world.trace, e.pid < p.procs.length)
    (h : E.Standing rows key quiet valid s p) (hs : Y.Step p q) : E.Standing rows key quiet valid s q := by
  cases hs with
  | @spawn req ha =>
    have hnone : ∀ r a, (⟨r, .ret a⟩ : Proc S Req α) ≠ ⟨req, Y.body req⟩ := by
      intro r a heq
      rw [L.body req] at heq
      cases heq
    refine ⟨h.state, fun pid proc hproc => ?_, ?_⟩
    · rcases procs_spawn hproc with hproc | ⟨rfl, rfl⟩
      · exact h.procs pid proc hproc
      · exact .waiting (L.body req) (early_new fresh (Nat.le_refl _))
    · rcases h.table with ⟨hrows, hnobody⟩ | ⟨row, w, r, a, hkey, hrows, hw, huniq⟩
      · refine .inl ⟨hrows, fun pid r a hproc => ?_⟩
        rcases procs_spawn hproc with hproc | ⟨-, hproc⟩
        · exact hnobody pid r a hproc
        · exact hnone r a hproc
      · have hlt : w < p.procs.length := (List.getElem?_eq_some_iff.mp hw).1
        refine .inr ⟨row, w, r, a, hkey, hrows, ?_, fun pid r a hproc => ?_⟩
        · rw [List.getElem?_append_left hlt]
          exact hw
        · rcases procs_spawn hproc with hproc | ⟨-, hproc⟩
          · exact huniq pid r a hproc
          · exact (hnone r a hproc).elim
  | @run pid req o k reply t hp ha =>
    obtain ⟨ω, hω⟩ | ⟨e, he, -⟩ := ha
    · cases h.procs pid _ hp with
      | waiting hprog late =>
        obtain ⟨rfl, -⟩ := Prog.call.inj (show Prog.call o k = E.prog req from hprog)
        exact L.looked h hp hω hprog late
      | preparing c hprog smooth early => exact L.prepared h hp hω hprog smooth early
      | enrolled a hprog early stored fits => cases hprog
      | refused hprog late stored => cases hprog
      | clashed hprog early stored => cases hprog
      | unfit hprog early misfits => cases hprog
    · rw [L.reliable e] at he
      cases he
  | env m =>
    obtain ⟨hvalid, hrows⟩ := L.env m p.world.state h.state
    refine ⟨hvalid, fun pid proc hproc => (h.procs pid proc hproc).mono .rfl fun hstored => ?_, ?_⟩
    · show (rows (Y.env m p.world.state)).any key = true
      rw [hrows]
      exact hstored
    · simp only [hrows]
      exact h.table

theorem Lawful.standing (L : E.Lawful Y rows key quiet valid) (hs : valid s) (hp : Y.Reachable (.start s) p) :
    E.Standing rows key quiet valid s p := by
  induction hp with
  | refl => exact ⟨hs, by simp [Pool.start], .inl ⟨rfl, by simp [Pool.start]⟩⟩
  | tail hr hs ih => exact L.step (System.Reachable.pid_lt hr) ih hs

theorem Lawful.ended (L : E.Lawful Y rows key quiet valid) (hs : valid s) (absent : (rows s).any key = false)
    (hp : Y.Reachable (.start s) p) (ended : p.Ended) (fitting : ∃ proc ∈ p.procs, E.fits proc.req = true) :
    Answered rows key (fun e => e = E.conflict ∨ e = E.clash ∨ e = E.misfit) s p := by
  have h := L.standing hs hp
  have hdone : ∀ (pid : ℕ) (proc : Proc S Req α), p.procs[pid]? = .some proc →
      (E.fits proc.req = true → (rows p.world.state).any key = true) ∧
      ((∃ a, proc.prog = .ret a) ∨
        ∃ e, proc.prog = .throw e ∧ (e = E.conflict ∨ e = E.clash ∨ e = E.misfit)) := by
    intro pid proc hproc
    have hend := ended proc (List.mem_of_getElem? hproc)
    cases h.procs pid proc hproc with
    | waiting hprog late => rw [hprog] at hend; exact absurd hend id
    | preparing c hprog smooth early =>
      rw [hprog] at hend
      cases c with
      | ret b => exact absurd hend id
      | throw e => exact absurd smooth id
      | call o k => exact absurd hend id
    | enrolled a hprog early stored fits => exact ⟨fun _ => stored, .inl ⟨a, hprog⟩⟩
    | refused hprog late stored => exact ⟨fun _ => stored, .inr ⟨_, hprog, .inl rfl⟩⟩
    | clashed hprog early stored => exact ⟨fun _ => stored, .inr ⟨_, hprog, .inr (.inl rfl)⟩⟩
    | unfit hprog early misfits =>
      exact ⟨fun hfits => absurd (hfits.symm.trans misfits) Bool.noConfusion,
        .inr ⟨_, hprog, .inr (.inr rfl)⟩⟩
  rcases h.table with ⟨hrows, -⟩ | ⟨row, w, req, a, hkey, hrows, hw, huniq⟩
  · obtain ⟨proc, hproc, hfits⟩ := fitting
    obtain ⟨pid, hpid⟩ := List.getElem?_of_mem hproc
    have hstored := (hdone pid proc hpid).1 hfits
    rw [hrows, absent] at hstored
    cases hstored
  · refine ⟨row, w, req, a, hkey, hrows, hw, fun other proc hne hother => ?_⟩
    rcases (hdone other proc hother).2 with ⟨a, ha⟩ | herror
    · obtain ⟨r, prog⟩ := proc
      obtain rfl : prog = .ret a := ha
      exact absurd (huniq other r a hother) hne
    · exact herror

theorem Standing.oneEarly (h : E.Standing rows key quiet valid s p) (hp : Y.Reachable (.start s) p)
    (clash : E.clash ≠ E.conflict) (misfit : E.misfit ≠ E.conflict)
    (answered : Answered rows key (fun e => e = E.conflict) s p) : E.OneEarly rows key p.world.trace := by
  obtain ⟨row, w, req, a, hkey, hrows, hw, hothers⟩ := answered
  have hearly : ∀ pid, E.Early rows key pid p.world.trace → pid = w := by
    intro pid hpid
    by_cases hne : pid = w
    · exact hne
    have hlt : pid < p.procs.length := by
      obtain ⟨e, he, rfl, -⟩ := hpid
      exact System.Reachable.pid_lt hp e he
    have hproc := List.getElem?_eq_getElem hlt
    obtain ⟨e, hprog, rfl⟩ := hothers pid _ hne hproc
    cases h.procs pid _ hproc with
    | waiting hprog' late => exact absurd hpid late
    | preparing c hprog' smooth early =>
      have hthrow := hprog.symm.trans hprog'
      cases c with
      | throw e => exact absurd smooth id
      | ret b => cases hthrow
      | call o k => cases hthrow
    | enrolled a hprog' early stored fits => cases hprog.symm.trans hprog'
    | refused hprog' late stored => exact absurd hpid late
    | clashed hprog' early stored => exact absurd (Prog.throw.inj (hprog'.symm.trans hprog)) clash
    | unfit hprog' early misfits => exact absurd (Prog.throw.inj (hprog'.symm.trans hprog)) misfit
  exact fun pid other hpid hother => (hearly pid hpid).trans (hearly other hother).symm

theorem Standing.winner (h : E.Standing rows key quiet valid s p) {pid : ℕ} {req : Req} {a : α}
    (hproc : p.procs[pid]? = some ⟨req, .ret a⟩) :
    E.Early rows key pid p.world.trace ∧ E.fits req = true := by
  cases h.procs pid _ hproc with
  | waiting hprog late => cases hprog
  | preparing c hprog smooth early =>
    cases c with
    | throw e => exact absurd smooth id
    | ret b => cases hprog
    | call o k => cases hprog
  | enrolled a hprog early stored fits => exact ⟨early, fits⟩
  | refused hprog late stored => cases hprog
  | clashed hprog early stored => cases hprog
  | unfit hprog early misfits => cases hprog

theorem Lawful.answered_iff (L : E.Lawful Y rows key quiet valid) (hs : valid s) (absent : (rows s).any key = false)
    (clash : E.clash ≠ E.conflict) (misfit : E.misfit ≠ E.conflict) (hp : Y.Reachable (.start s) p)
    (ended : p.Ended) :
    Answered rows key (fun e => e = E.conflict) s p ↔
      E.OneEarly rows key p.world.trace ∧ ∃ proc ∈ p.procs, E.fits proc.req = true := by
  have h := L.standing hs hp
  constructor
  · intro answered
    refine ⟨h.oneEarly hp clash misfit answered, ?_⟩
    obtain ⟨row, w, req, a, hkey, hrows, hw, hothers⟩ := answered
    exact ⟨_, List.mem_of_getElem? hw, (h.winner hw).2⟩
  · rintro ⟨hone, fitting⟩
    obtain ⟨row, w, req, a, hkey, hrows, hw, hothers⟩ := L.ended hs absent hp ended fitting
    have hwinner := (h.winner hw).1
    refine ⟨row, w, req, a, hkey, hrows, hw, fun other proc hne hother => ?_⟩
    obtain ⟨e, hprog, -⟩ := hothers other proc hne hother
    cases h.procs other proc hother with
    | waiting hprog' late => cases hprog.symm.trans hprog'
    | preparing c hprog' smooth early => exact absurd (hone _ _ early hwinner) hne
    | enrolled a hprog' early stored fits => cases hprog.symm.trans hprog'
    | refused hprog' late stored => exact ⟨_, hprog', rfl⟩
    | clashed hprog' early stored => exact absurd (hone _ _ early hwinner) hne
    | unfit hprog' early misfits => exact absurd (hone _ _ early hwinner) hne

theorem At.calls {w : World S σ Req} {pid : ℕ} {req : Req} {o : S.Op} {k : S.Reply o → Prog S α}
    (h : E.At rows key quiet w pid ⟨req, .call o k⟩) : o = E.look ∨ quiet o ∨ ∃ req b, o = E.insert req b := by
  cases h with
  | waiting hprog late => exact .inl (Prog.call.inj (show Prog.call o k = E.prog req from hprog)).1
  | preparing c hprog smooth early =>
    cases c with
    | throw e => exact absurd smooth id
    | ret b => exact .inr (.inr ⟨req, b, (Prog.call.inj (show Prog.call o k = E.finish req (ret b) from hprog)).1⟩)
    | call o' k' =>
      obtain ⟨rfl, -⟩ := Prog.call.inj (show Prog.call o k = E.finish req (call o' k') from hprog)
      exact .inr (.inl smooth.1)
  | enrolled a hprog early stored fits => cases hprog
  | refused hprog late stored => cases hprog
  | clashed hprog early stored => cases hprog
  | unfit hprog early misfits => cases hprog

theorem Lawful.inevitable [Nonempty μ] (L : E.Lawful Y rows key quiet valid) (hs : valid s)
    (hp : Y.Reachable (.start s) p) :
    Y.Inevitable (fun _ => True) (fun q => Y.Reachable (.start s) q ∧ q.Ended) p := by
  refine System.inevitable_of_progress hp (fun p q hp hq => hp.trans hq.reachable) fun p hp => ?_
  have h := L.standing hs hp
  by_cases hend : p.Ended
  · exact .inl hend
  simp only [Pool.Ended, Classical.not_forall] at hend
  obtain ⟨⟨req, prog⟩, hmem, hnot⟩ := hend
  obtain ⟨pid, hpid⟩ := List.getElem?_of_mem hmem
  cases prog with
  | ret a => exact absurd trivial hnot
  | throw e => exact absurd trivial hnot
  | call o k =>
    obtain ⟨m⟩ := ‹Nonempty μ›
    obtain ⟨ω, reply, t, hω⟩ := L.answers o _ (L.env m _ h.state).1 (h.procs pid _ hpid).calls
    exact .inr ⟨_, .intro m hpid (.inl ⟨ω, hω⟩) trivial⟩

end Enrolment

end SkillBridge.Interleaving
