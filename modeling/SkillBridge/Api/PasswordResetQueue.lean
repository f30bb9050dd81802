import SkillBridge.Api.Explanations
import SkillBridge.Interleaving.Completion

set_option autoImplicit false

/-!
`src/modules/auth/password-reset-queue.service.ts` beside the requests: each forgotten password that is reported has
a delivery started for it, and whoever waits for the deliveries is told when there are none left.
-/

namespace SkillBridge

open Interleaving

/-- The service with what it has handed over: `immediates` to `setImmediate`, `jobs` to Redis. `deliveries` are the
requests whose `deliverForUser` the callbacks await; a caller that waits is a number. -/
structure PasswordResetQueueService where
  inlinePending : ℤ := 0
  inlineIdleWaiters : List ℕ := []
  immediates : List UserId := []
  deliveries : List ℕ := []
  jobs : List UserId := []
  resolved : List ℕ := []
  errors : List String := []

namespace PasswordResetQueueService

variable (queue : PasswordResetQueueService)

/-- `redis` tells whether there is a `redisQueueConnection()`, `added` whether `queue.add` succeeds. -/
def enqueue (redis added : Bool) (userId : UserId) : PasswordResetQueueService :=
  if redis = false then
    { queue with inlinePending := queue.inlinePending + 1, immediates := queue.immediates ++ [userId] }
  else if added then { queue with jobs := queue.jobs ++ [userId] }
  else { queue with errors := queue.errors ++ ["Failed to enqueue password-reset job"] }

def awaitIdleForTests (redis : Bool) (waiter : ℕ) : PasswordResetQueueService :=
  if redis then { queue with resolved := queue.resolved ++ [waiter] }
  else if queue.inlinePending = 0 then { queue with resolved := queue.resolved ++ [waiter] }
  else { queue with inlineIdleWaiters := queue.inlineIdleWaiters ++ [waiter] }

def flushInlineWaiters : PasswordResetQueueService :=
  if queue.inlinePending = 0 ∧ queue.inlineIdleWaiters.length > 0 then
    { queue with inlineIdleWaiters := [], resolved := queue.resolved ++ queue.inlineIdleWaiters }
  else queue

def runImmediate (pid : ℕ) : PasswordResetQueueService :=
  { queue with immediates := queue.immediates.tail, deliveries := queue.deliveries ++ [pid] }

def settle (pid : ℕ) (failed : Bool) : PasswordResetQueueService :=
  let queue := { queue with deliveries := queue.deliveries.erase pid }
  let queue := if failed then
      { queue with errors := queue.errors ++ ["Inline password-reset delivery failed"] }
    else queue
  { queue with inlinePending := queue.inlinePending - 1 }.flushInlineWaiters

def jobFailed (id : String) : PasswordResetQueueService :=
  { queue with errors := queue.errors ++ [s!"Password reset job {id} failed"] }

end PasswordResetQueueService

structure QueuedApi where
  pool : ApiPool
  queue : PasswordResetQueueService
  awaited : List ℕ

def Request.delivers : Request → Option UserId
  | deliverPasswordReset userId => some userId
  | _ => none

def Op.enqueues : Op → Option UserId
  | enqueuePasswordReset userId => some userId
  | _ => none

def Prog.Failed {α : Type} : Action α → Bool
  | .throw _ => true
  | _ => false

namespace QueuedApi

def spawn (env : Env) (pool : ApiPool) (req : Request) : ApiPool :=
  ⟨pool.world, pool.procs ++ [⟨req, handle env req⟩]⟩

inductive Step (env : Env) (redis : Bool) : QueuedApi → QueuedApi → Prop
  | request {s : QueuedApi} {req : Request} (h : admits env s.pool req = true) (hreq : req.delivers = none) :
      Step env redis s { s with pool := spawn env s.pool req }
  | statement {s : QueuedApi} {pid : ℕ} {req : Request} {o : Op} {k : Reply o → Action Response} {reply : Reply o}
      {t : Database} (hp : s.pool.procs[pid]? = some ⟨req, .call o k⟩)
      (h : server.Answers o s.pool.world.state reply t) (ho : o.enqueues = none) :
      Step env redis s { s with pool := s.pool.answer pid req o k reply t }
  | enqueue {s : QueuedApi} {pid : ℕ} {req : Request} {userId : UserId}
      {k : Reply (.enqueuePasswordReset userId) → Action Response} (added : Bool)
      (hp : s.pool.procs[pid]? = some ⟨req, .call (.enqueuePasswordReset userId) k⟩) :
      Step env redis s { s with
        pool := s.pool.answer pid req (.enqueuePasswordReset userId) k (.ok ()) s.pool.world.state
        queue := s.queue.enqueue redis added userId }
  | clock {s : QueuedApi} (m : Tick) :
      Step env redis s { s with pool := ⟨⟨server.env m s.pool.world.state, s.pool.world.trace⟩, s.pool.procs⟩ }
  | immediate {s : QueuedApi} {userId : UserId} (h : s.queue.immediates.head? = some userId) :
      Step env redis s { s with
        pool := spawn env s.pool (.deliverPasswordReset userId)
        queue := s.queue.runImmediate s.pool.procs.length }
  | settled {s : QueuedApi} {pid : ℕ} {proc : Proc backend Request Response} (h : pid ∈ s.queue.deliveries)
      (hp : s.pool.procs[pid]? = some proc) (ended : proc.prog.Ended) :
      Step env redis s { s with queue := s.queue.settle pid (Prog.Failed proc.prog) }
  -- the worker may take a job more than once
  | work {s : QueuedApi} {userId : UserId} (h : userId ∈ s.queue.jobs) :
      Step env redis s { s with pool := spawn env s.pool (.deliverPasswordReset userId) }
  | failed {s : QueuedApi} (id : String) : Step env redis s { s with queue := s.queue.jobFailed id }
  | await {s : QueuedApi} (waiter : ℕ) :
      Step env redis s { s with
        queue := s.queue.awaitIdleForTests redis waiter, awaited := s.awaited ++ [waiter] }

def Reachable (env : Env) (redis : Bool) : QueuedApi → QueuedApi → Prop := Relation.ReflTransGen (Step env redis)

def start (db : Database) : QueuedApi := ⟨.start db, {}, []⟩

def delivered (s : QueuedApi) : List UserId := s.pool.procs.filterMap fun proc => proc.req.delivers

def reported (s : QueuedApi) : List UserId := s.pool.world.trace.reverse.filterMap fun e => e.op.enqueues

section Queue

variable (queue : PasswordResetQueueService) {redis : Bool} {pid : ℕ} {failed : Bool}

theorem flush_pending : queue.flushInlineWaiters.inlinePending = queue.inlinePending := by
  unfold PasswordResetQueueService.flushInlineWaiters
  split_ifs <;> rfl

theorem flush_handed : queue.flushInlineWaiters.immediates = queue.immediates ∧
    queue.flushInlineWaiters.deliveries = queue.deliveries ∧ queue.flushInlineWaiters.jobs = queue.jobs := by
  unfold PasswordResetQueueService.flushInlineWaiters
  split_ifs <;> exact ⟨rfl, rfl, rfl⟩

theorem flush_promises : queue.flushInlineWaiters.resolved ++ queue.flushInlineWaiters.inlineIdleWaiters =
    queue.resolved ++ queue.inlineIdleWaiters := by
  unfold PasswordResetQueueService.flushInlineWaiters
  split_ifs
  · exact List.append_nil _
  · rfl

theorem flush_waiting (h : queue.flushInlineWaiters.inlineIdleWaiters ≠ []) : queue.inlinePending ≠ 0 := by
  unfold PasswordResetQueueService.flushInlineWaiters at h
  split_ifs at h with hidle
  · exact absurd rfl h
  · exact fun hpending => hidle ⟨hpending, List.length_pos_iff.mpr h⟩

theorem flush_resolved (h : queue.flushInlineWaiters.resolved ≠ queue.resolved) : queue.inlinePending = 0 := by
  unfold PasswordResetQueueService.flushInlineWaiters at h
  split_ifs at h with hidle
  · exact hidle.1
  · exact absurd rfl h

theorem settle_handed : (queue.settle pid failed).immediates = queue.immediates ∧
    (queue.settle pid failed).deliveries = queue.deliveries.erase pid ∧
    (queue.settle pid failed).jobs = queue.jobs := by
  obtain ⟨himmediates, hdeliveries, hjobs⟩ := flush_handed { (if failed then
      { queue with deliveries := queue.deliveries.erase pid
                   errors := queue.errors ++ ["Inline password-reset delivery failed"] }
    else { queue with deliveries := queue.deliveries.erase pid }) with inlinePending := queue.inlinePending - 1 }
  cases failed <;> exact ⟨himmediates, hdeliveries, hjobs⟩

theorem settle_pending : (queue.settle pid failed).inlinePending = queue.inlinePending - 1 := by
  unfold PasswordResetQueueService.settle
  rw [flush_pending]
  cases failed <;> rfl

theorem settle_promises : (queue.settle pid failed).resolved ++ (queue.settle pid failed).inlineIdleWaiters =
    queue.resolved ++ queue.inlineIdleWaiters := by
  unfold PasswordResetQueueService.settle
  rw [flush_promises]
  cases failed <;> rfl

theorem settle_waiting (h : (queue.settle pid failed).inlineIdleWaiters ≠ []) : queue.inlinePending - 1 ≠ 0 := by
  have hpending := flush_waiting _ h
  cases failed <;> exact hpending

theorem settle_resolved (h : (queue.settle pid failed).resolved ≠ queue.resolved) :
    (queue.settle pid failed).inlinePending = 0 := by
  unfold PasswordResetQueueService.settle at h ⊢
  rw [flush_pending]
  apply flush_resolved
  cases failed <;> exact h

end Queue

section Refinement

variable {env : Env} {redis : Bool} {db : Database} {s t : QueuedApi}

/-- What waits to be delivered has been reported. -/
def Known (s : QueuedApi) : Prop :=
  ∀ userId ∈ s.queue.immediates ++ s.queue.jobs, s.pool.world.trace.any (enqueues userId) = true

theorem any_cons {e : Event backend Database Request} {l : List (Event backend Database Request)} {userId : UserId}
    (h : l.any (enqueues userId) = true) : (e :: l).any (enqueues userId) = true := by
  rw [List.any_cons, h, Bool.or_true]

theorem admits_delivery (env : Env) {userId : UserId} (h : s.pool.world.trace.any (enqueues userId) = true) :
    admits env s.pool (.deliverPasswordReset userId) = true := by
  simpa [admits, Request.jwts, Request.credentials] using h

theorem Step.known (h : Step env redis s t) (hs : Known s) : Known t := by
  cases h with
  | request h hreq => exact hs
  | statement hp h ho => exact fun userId hmem => any_cons (hs userId hmem)
  | @enqueue pid req userId' k added hp =>
    intro userId hmem
    have hnew : userId = userId' ∨ userId ∈ s.queue.immediates ++ s.queue.jobs := by
      simp only [PasswordResetQueueService.enqueue] at hmem
      split_ifs at hmem <;> simp only [List.mem_append, List.mem_singleton] at hmem ⊢ <;> tauto
    rcases hnew with rfl | hold
    · simp [Pool.answer, World.perform, enqueues, Event.call]
    · exact any_cons (hs userId hold)
  | clock m => exact hs
  | immediate h =>
    intro userId hmem
    apply hs userId
    rcases List.mem_append.mp hmem with hmem | hmem
    · exact List.mem_append_left _ (List.mem_of_mem_tail hmem)
    · exact List.mem_append_right _ hmem
  | @settled pid proc h hp ended =>
    obtain ⟨himmediates, -, hjobs⟩ := @settle_handed s.queue pid (Prog.Failed proc.prog)
    unfold Known
    dsimp only
    rw [himmediates, hjobs]
    exact hs
  | work h => exact hs
  | failed id => exact hs
  | await waiter =>
    have hkept : ∀ waiter, (s.queue.awaitIdleForTests redis waiter).immediates = s.queue.immediates ∧
        (s.queue.awaitIdleForTests redis waiter).jobs = s.queue.jobs := by
      intro waiter
      unfold PasswordResetQueueService.awaitIdleForTests
      split_ifs <;> exact ⟨rfl, rfl⟩
    unfold Known
    dsimp only
    rw [(hkept waiter).1, (hkept waiter).2]
    exact hs

theorem Step.api (h : Step env redis s t) (hs : Known s) :
    s.pool = t.pool ∨ (api env).Step s.pool t.pool := by
  cases h with
  | request h hreq => exact .inr (.spawn h)
  | statement hp h ho => exact .inr (.run hp h)
  | enqueue added hp => exact .inr (.run hp (.inl ⟨{}, rfl⟩))
  | clock m => exact .inr (.env m)
  | immediate h =>
    exact .inr (.spawn (admits_delivery env (hs _ (List.mem_append_left _ (List.mem_of_mem_head? h)))))
  | settled h hp ended => exact .inl rfl
  | work h => exact .inr (.spawn (admits_delivery env (hs _ (List.mem_append_right _ h))))
  | failed id => exact .inl rfl
  | await waiter => exact .inl rfl

theorem reachable_api (h : Reachable env redis (start db) s) :
    Known s ∧ (api env).Reachable (.start db) s.pool := by
  induction h with
  | refl => exact ⟨fun _ h => (nomatch h), .refl⟩
  | tail _ hstep ih =>
    refine ⟨hstep.known ih.1, ?_⟩
    rcases hstep.api ih.1 with heq | hpool
    · exact heq ▸ ih.2
    · exact ih.2.tail hpool

end Refinement

section Inline

variable {env : Env} {db : Database} {s t : QueuedApi}

structure Inline (s : QueuedApi) : Prop where
  dispatched : s.delivered ++ s.queue.immediates = s.reported
  lt : ∀ pid ∈ s.queue.deliveries, pid < s.pool.procs.length
  nodup : s.queue.deliveries.Nodup
  ended : ∀ pid proc, s.pool.procs[pid]? = some proc → proc.req.delivers.isSome = true → pid ∉ s.queue.deliveries →
    proc.prog.Ended
  pending : s.queue.inlinePending = s.queue.immediates.length + s.queue.deliveries.length
  waiting : s.queue.inlineIdleWaiters ≠ [] → s.queue.inlinePending ≠ 0
  promises : s.awaited.Perm (s.queue.resolved ++ s.queue.inlineIdleWaiters)
  jobs : s.queue.jobs = []

theorem delivered_spawn (env : Env) (pool : ApiPool) (req : Request) :
    (spawn env pool req).procs.filterMap (fun proc => proc.req.delivers) =
      pool.procs.filterMap (fun proc => proc.req.delivers) ++ req.delivers.toList := by
  rw [spawn, List.filterMap_append]
  cases h : req.delivers <;> simp [h]

theorem delivered_answer {pool : ApiPool} {pid : ℕ} {req : Request} {o : Op} {k : Reply o → Action Response}
    (hp : pool.procs[pid]? = some ⟨req, .call o k⟩) (reply : Reply o) (t : Database) :
    (pool.answer pid req o k reply t).procs.filterMap (fun proc => proc.req.delivers) =
      pool.procs.filterMap fun proc => proc.req.delivers := by
  have hreqs : (pool.answer pid req o k reply t).procs.map Proc.req = pool.procs.map Proc.req := by
    apply List.ext_getElem?
    intro i
    by_cases hi : i = pid
    · subst hi
      have hlt := (List.getElem?_eq_some_iff.mp hp).1
      rw [List.getElem?_map, Pool.answer, List.getElem?_set_self hlt, List.getElem?_map, hp]
      rfl
    · simp [Pool.answer, List.getElem?_set_ne (Ne.symm hi)]
  have hmap := congrArg (List.filterMap Request.delivers) hreqs
  rwa [List.filterMap_map, List.filterMap_map] at hmap

theorem reported_answer (pool : ApiPool) (pid : ℕ) (req : Request) (o : Op) (k : Reply o → Action Response)
    (reply : Reply o) (t : Database) :
    (pool.answer pid req o k reply t).world.trace.reverse.filterMap (fun e => e.op.enqueues) =
      pool.world.trace.reverse.filterMap (fun e => e.op.enqueues) ++ o.enqueues.toList := by
  simp only [Pool.answer, World.perform, List.reverse_cons, List.filterMap_append]
  cases h : o.enqueues <;> simp [h]

theorem ended_spawn (hs : Inline s) {req : Request} {ds : List ℕ} (hsub : ∀ pid ∈ s.queue.deliveries, pid ∈ ds)
    (hnew : req.delivers.isSome = true → s.pool.procs.length ∈ ds) (pid : ℕ) (proc : Proc backend Request Response)
    (hproc : (spawn env s.pool req).procs[pid]? = some proc) (hreq : proc.req.delivers.isSome = true)
    (hpid : pid ∉ ds) : proc.prog.Ended := by
  rcases procs_spawn hproc with hproc | ⟨rfl, rfl⟩
  · exact hs.ended pid proc hproc hreq fun hmem => hpid (hsub pid hmem)
  · exact absurd (hnew hreq) hpid

theorem ended_answer (hs : Inline s) {pid : ℕ} {req : Request} {o : Op} {k : Reply o → Action Response}
    (hp : s.pool.procs[pid]? = some ⟨req, .call o k⟩) {reply : Reply o} {d : Database} (i : ℕ)
    (proc : Proc backend Request Response) (hproc : (s.pool.answer pid req o k reply d).procs[i]? = some proc)
    (hreq : proc.req.delivers.isSome = true) (hi : i ∉ s.queue.deliveries) : proc.prog.Ended := by
  rcases procs_answer hproc with ⟨rfl, rfl⟩ | ⟨-, hproc⟩
  · -- a program that has ended calls nothing
    exact absurd (hs.ended i _ hp hreq hi) id
  · exact hs.ended i proc hproc hreq hi

theorem Inline.request (hs : Inline s) {req : Request} (hreq : req.delivers = none) :
    Inline { s with pool := spawn env s.pool req } := by
  refine { hs with dispatched := ?_, lt := fun pid hmem => ?_, ended := ended_spawn hs (fun _ h => h) fun hsome => ?_ }
  · change (spawn env s.pool req).procs.filterMap _ ++ s.queue.immediates = s.reported
    rw [delivered_spawn, hreq, ← hs.dispatched]
    simp [delivered]
  · have := hs.lt pid hmem
    simp only [spawn, List.length_append]
    omega
  · rw [hreq] at hsome
    cases hsome

theorem Inline.statement (hs : Inline s) {pid : ℕ} {req : Request} {o : Op} {k : Reply o → Action Response}
    (hp : s.pool.procs[pid]? = some ⟨req, .call o k⟩) (ho : o.enqueues = none) (reply : Reply o) (d : Database) :
    Inline { s with pool := s.pool.answer pid req o k reply d } := by
  have hdispatched := hs.dispatched
  refine { hs with dispatched := ?_, lt := fun pid hmem => ?_, ended := ended_answer hs hp }
  · unfold delivered reported at hdispatched ⊢
    rw [delivered_answer hp, reported_answer, ho, hdispatched]
    exact (List.append_nil _).symm
  · simpa [Pool.answer] using hs.lt pid hmem

theorem Inline.enqueue (hs : Inline s) {pid : ℕ} {req : Request} {userId : UserId}
    {k : Reply (.enqueuePasswordReset userId) → Action Response} (added : Bool)
    (hp : s.pool.procs[pid]? = some ⟨req, .call (.enqueuePasswordReset userId) k⟩) :
    Inline { s with
      pool := s.pool.answer pid req (.enqueuePasswordReset userId) k (.ok ()) s.pool.world.state
      queue := s.queue.enqueue false added userId } := by
  have hdispatched := hs.dispatched
  have hpending := hs.pending
  refine ⟨?_, fun pid hmem => ?_, hs.nodup, ended_answer hs hp, ?_, fun _ => ?_, hs.promises, hs.jobs⟩
  · unfold delivered reported at hdispatched ⊢
    rw [delivered_answer hp, reported_answer, ← hdispatched, List.append_assoc]
    rfl
  · have hlt : pid < s.pool.procs.length := hs.lt pid hmem
    simpa [Pool.answer] using hlt
  · change s.queue.inlinePending + 1 = ((s.queue.immediates ++ [userId]).length : ℤ) + s.queue.deliveries.length
    rw [hpending, List.length_append]
    push_cast
    simp only [List.length_cons, List.length_nil]
    omega
  · change s.queue.inlinePending + 1 ≠ 0
    omega

theorem Inline.immediate (hs : Inline s) {userId : UserId} (h : s.queue.immediates.head? = some userId) :
    Inline { s with
      pool := spawn env s.pool (.deliverPasswordReset userId)
      queue := s.queue.runImmediate s.pool.procs.length } := by
  obtain ⟨rest, hrest⟩ : ∃ rest, s.queue.immediates = userId :: rest := List.head?_eq_some_iff.mp h
  refine ⟨?_, fun pid hmem => ?_, ?_, ended_spawn hs (fun pid hmem => List.mem_append_left _ hmem)
      fun _ => List.mem_append_right _ (List.mem_singleton_self _), ?_, hs.waiting, hs.promises, hs.jobs⟩
  · change (spawn env s.pool _).procs.filterMap _ ++ s.queue.immediates.tail = s.reported
    rw [delivered_spawn, ← hs.dispatched, hrest, List.append_assoc]
    rfl
  · simp only [spawn, List.length_append, List.length_singleton]
    rcases List.mem_append.mp hmem with hmem | hmem
    · have := hs.lt pid hmem
      omega
    · have := List.mem_singleton.mp hmem
      omega
  · refine List.nodup_append.mpr ⟨hs.nodup, by simp, fun pid hmem other hother => ?_⟩
    have := hs.lt pid hmem
    have := List.mem_singleton.mp hother
    omega
  · change s.queue.inlinePending = (s.queue.immediates.tail.length : ℤ) + (s.queue.deliveries ++ [_]).length
    rw [hs.pending, hrest, List.length_append]
    push_cast
    simp only [List.length_cons, List.length_nil, List.tail_cons]
    omega

theorem Inline.settled (hs : Inline s) {pid : ℕ} {proc : Proc backend Request Response}
    (h : pid ∈ s.queue.deliveries) (hp : s.pool.procs[pid]? = some proc) (ended : proc.prog.Ended) :
    Inline { s with queue := s.queue.settle pid (Prog.Failed proc.prog) } := by
  obtain ⟨himmediates, hdeliveries, hjobs⟩ := @settle_handed s.queue pid (Prog.Failed proc.prog)
  have hlength := List.length_erase_of_mem h
  have hpos := List.length_pos_of_mem h
  refine ⟨?_, fun i hmem => ?_, ?_, fun i proc' hproc' hreq hi => ?_, ?_, fun hwaiting => ?_, ?_, ?_⟩
  · change s.delivered ++ (s.queue.settle pid _).immediates = s.reported
    rw [himmediates, hs.dispatched]
  · rw [hdeliveries] at hmem
    exact hs.lt i (List.mem_of_mem_erase hmem)
  · dsimp only
    rw [hdeliveries]
    exact hs.nodup.erase pid
  · dsimp only at hi
    rw [hdeliveries, hs.nodup.mem_erase_iff] at hi
    by_cases heq : i = pid
    · subst heq
      cases hp.symm.trans hproc'
      exact ended
    · exact hs.ended i proc' hproc' hreq fun hmem => hi ⟨heq, hmem⟩
  · dsimp only
    rw [settle_pending, himmediates, hdeliveries, hlength, hs.pending]
    omega
  · dsimp only
    rw [settle_pending]
    exact settle_waiting _ hwaiting
  · dsimp only
    rw [settle_promises]
    exact hs.promises
  · exact hjobs.trans hs.jobs

theorem Inline.waiters_nil (hs : Inline s) (hidle : s.queue.inlinePending = 0) : s.queue.inlineIdleWaiters = [] := by
  by_contra hwaiting
  exact hs.waiting hwaiting hidle

theorem Inline.await (hs : Inline s) (waiter : ℕ) :
    Inline { s with queue := s.queue.awaitIdleForTests false waiter, awaited := s.awaited ++ [waiter] } := by
  by_cases hidle : s.queue.inlinePending = 0
  · have heq : s.queue.awaitIdleForTests false waiter = { s.queue with resolved := s.queue.resolved ++ [waiter] } := by
      simp [PasswordResetQueueService.awaitIdleForTests, hidle]
    rw [heq]
    refine { hs with promises := ?_ }
    have hpromises := hs.promises
    simp only [hs.waiters_nil hidle, List.append_nil] at hpromises ⊢
    exact hpromises.append_right _
  · have heq : s.queue.awaitIdleForTests false waiter =
        { s.queue with inlineIdleWaiters := s.queue.inlineIdleWaiters ++ [waiter] } := by
      simp [PasswordResetQueueService.awaitIdleForTests, hidle]
    rw [heq]
    refine { hs with waiting := fun _ => hidle, promises := ?_ }
    dsimp only
    rw [← List.append_assoc]
    exact hs.promises.append_right _

theorem Step.inline (h : Step env false s t) (hs : Inline s) : Inline t := by
  cases h with
  | request h hreq => exact hs.request hreq
  | statement hp h ho => exact hs.statement hp ho _ _
  | enqueue added hp => exact hs.enqueue added hp
  | clock m => exact { hs with }
  | immediate h => exact hs.immediate h
  | settled h hp ended => exact hs.settled h hp ended
  | work h =>
    rw [hs.jobs] at h
    cases h
  | failed id => exact { hs with }
  | await waiter => exact hs.await waiter

theorem reachable_inline (h : Reachable env false (start db) s) : Inline s := by
  induction h with
  | refl =>
    exact ⟨rfl, fun _ h => (nomatch h), List.nodup_nil, fun _ _ h => (nomatch h), rfl, fun h => absurd rfl h, .refl _,
      rfl⟩
  | tail _ hstep ih => exact hstep.inline ih

structure AllDelivered (s : QueuedApi) : Prop where
  delivered : s.delivered = s.reported
  ended : ∀ proc ∈ s.pool.procs, proc.req.delivers.isSome = true → proc.prog.Ended

theorem Inline.allDelivered (hs : Inline s) (hidle : s.queue.inlinePending = 0) : AllDelivered s := by
  have hpending := hs.pending
  have himmediates : s.queue.immediates = [] := List.eq_nil_of_length_eq_zero (by omega)
  have hdeliveries : s.queue.deliveries = [] := List.eq_nil_of_length_eq_zero (by omega)
  have hdispatched := hs.dispatched
  rw [himmediates, List.append_nil] at hdispatched
  refine ⟨hdispatched, fun proc hmem hreq => ?_⟩
  obtain ⟨pid, hpid⟩ := List.getElem?_of_mem hmem
  exact hs.ended pid proc hpid hreq (by rw [hdeliveries]; exact List.not_mem_nil)

theorem resolved_idle (h : Step env false s t) (hresolved : t.queue.resolved ≠ s.queue.resolved) :
    t.queue.inlinePending = 0 := by
  cases h with
  | settled h hp ended => exact settle_resolved s.queue hresolved
  | await waiter =>
    by_cases hidle : s.queue.inlinePending = 0
    · simp [PasswordResetQueueService.awaitIdleForTests, hidle]
    · exact absurd (by simp [PasswordResetQueueService.awaitIdleForTests, hidle]) hresolved
  | enqueue added hp => exact absurd rfl hresolved
  | _ => exact absurd rfl hresolved

/-- Without Redis every report is followed by one delivery, in the order of the reports, and nobody who waits for the
deliveries goes on before the last of them has ended. -/
theorem inline_deliveries_awaited (h : Reachable env false (start db) s) :
    (api env).Reachable (.start db) s.pool ∧
    s.delivered ++ s.queue.immediates = s.reported ∧
    s.queue.inlinePending = s.queue.immediates.length + s.queue.deliveries.length ∧
    (s.queue.inlinePending = 0 → AllDelivered s ∧ s.awaited.Perm s.queue.resolved) ∧
    ∀ t, Step env false s t → t.queue.resolved ≠ s.queue.resolved → AllDelivered t := by
  have hs := reachable_inline h
  refine ⟨(reachable_api h).2, hs.dispatched, hs.pending, fun hidle => ⟨hs.allDelivered hidle, ?_⟩,
    fun t hstep hresolved => ?_⟩
  · have hpromises := hs.promises
    rwa [hs.waiters_nil hidle, List.append_nil] at hpromises
  · exact (hstep.inline hs).allDelivered (resolved_idle hstep hresolved)

end Inline

section Runs

def take (env : Env) (s : QueuedApi) (pid : ℕ) : Option QueuedApi :=
  ((api env).advance s.pool (.run pid {})).bind fun pool =>
    if pool.world.trace.head?.bind (fun e => e.op.enqueues) = none then some { s with pool } else none

theorem step_of_take {env : Env} {redis : Bool} {s t : QueuedApi} {pid : ℕ} (h : take env s pid = some t) :
    Step env redis s t := by
  obtain ⟨pool, hpool, ht⟩ := Option.bind_eq_some_iff.mp h
  split_ifs at ht with hnone
  cases ht
  simp only [System.advance] at hpool
  split at hpool
  · rename_i req o k hp
    split at hpool
    · rename_i reply u hexec
      cases hpool
      exact .statement hp (.inl ⟨_, hexec⟩) hnone
    · cases hpool
  · cases hpool

theorem reachable_of_takes {env : Env} {redis : Bool} {pids : List ℕ} {s t : QueuedApi}
    (h : pids.foldlM (take env) s = some t) : Reachable env redis s t := by
  induction pids generalizing s with
  | nil => cases h; exact .refl
  | cons pid pids ih =>
    rw [List.foldlM_cons] at h
    obtain ⟨u, hu, ht⟩ := Option.bind_eq_some_iff.mp h
    exact .head (step_of_take hu) (ih ht)

def report (redis added : Bool) (s : QueuedApi) (pid : ℕ) : Option QueuedApi :=
  match s.pool.procs[pid]? with
  | some ⟨req, .call (.enqueuePasswordReset userId) k⟩ =>
    some { s with
      pool := s.pool.answer pid req (.enqueuePasswordReset userId) k (.ok ()) s.pool.world.state
      queue := s.queue.enqueue redis added userId }
  | _ => none

theorem step_of_report {env : Env} {redis added : Bool} {s t : QueuedApi} {pid : ℕ}
    (h : report redis added s pid = some t) : Step env redis s t := by
  unfold report at h
  split at h
  · rename_i hp
    cases h
    exact .enqueue added hp
  · cases h

def settled (s : QueuedApi) (pid : ℕ) : Option QueuedApi :=
  match s.pool.procs[pid]? with
  | some ⟨_, .ret _⟩ =>
    if pid ∈ s.queue.deliveries then some { s with queue := s.queue.settle pid false } else none
  | _ => none

theorem step_of_settled {env : Env} {redis : Bool} {s t : QueuedApi} {pid : ℕ} (h : settled s pid = some t) :
    Step env redis s t := by
  unfold settled at h
  split at h
  · rename_i hp
    split_ifs at h with hmem
    cases h
    exact .settled hmem hp trivial
  · cases h

def forgotten : QueuedApi :=
  let db := sampleDatabase [sampleUser]
  { start db with pool := spawn sampleEnv (.start db) (.forgotPassword "user@example.com") }

def reportedRun : Option QueuedApi := (take sampleEnv forgotten 0).bind fun s => report false true s 0

theorem reportedRun_isSome : reportedRun.isSome = true := rfl

def awaiting : QueuedApi :=
  let s := reportedRun.get reportedRun_isSome
  { s with queue := s.queue.awaitIdleForTests false 7, awaited := s.awaited ++ [7] }

def delivering : QueuedApi :=
  { awaiting with
    pool := spawn sampleEnv awaiting.pool (.deliverPasswordReset 1)
    queue := awaiting.queue.runImmediate 1 }

def deliveredRun : Option QueuedApi :=
  ((List.replicate 7 1).foldlM (take sampleEnv) delivering).bind fun s => settled s 1

theorem deliveredRun_isSome : deliveredRun.isSome = true := rfl

theorem deliveredRun_reachable :
    Reachable sampleEnv false (start (sampleDatabase [sampleUser])) (deliveredRun.get deliveredRun_isSome) := by
  obtain ⟨s, hs, hsettled⟩ := Option.bind_eq_some_iff.mp (Option.some_get deliveredRun_isSome).symm
  obtain ⟨t, ht, hreported⟩ := Option.bind_eq_some_iff.mp (Option.some_get reportedRun_isSome).symm
  have hawaiting : Reachable sampleEnv false (start (sampleDatabase [sampleUser])) awaiting :=
    .head (.request rfl rfl) (.head (step_of_take ht) (.head (step_of_report hreported) (.single (.await 7))))
  have hdelivering : Reachable sampleEnv false (start (sampleDatabase [sampleUser])) delivering :=
    hawaiting.tail (.immediate rfl)
  exact (hdelivering.trans (reachable_of_takes hs)).tail (step_of_settled hsettled)

theorem inline_delivery_awaited_in_run : ∃ s, Reachable sampleEnv false (start (sampleDatabase [sampleUser])) s ∧
    s.reported = [1] ∧ s.awaited = [7] ∧ AllDelivered s ∧ s.awaited.Perm s.queue.resolved := by
  obtain ⟨hdelivered, hresolved⟩ := (inline_deliveries_awaited deliveredRun_reachable).2.2.2.1 rfl
  exact ⟨_, deliveredRun_reachable, rfl, rfl, hdelivered, hresolved⟩

end Runs

end QueuedApi

end SkillBridge
