import SkillBridge.Database.LockOrder
import SkillBridge.Interleaving.Ordering
import SkillBridge.Onboarding.Completion
import SkillBridge.Users.UsableCredentials

set_option autoImplicit false

/-! No request waits for ever: transactions take what others wait for in one order. -/

namespace SkillBridge

open Interleaving Prog Database

variable {env : Env} {past : List ApiCall} {α β : Type}

section Programs

theorem outside_climbs {p : Action α} (h : Rests past) (hp : p.Calls Op.Outside) :
    p.Along Climbs (fun _ => Rests) past := by
  induction p generalizing past with
  | ret a => exact h
  | throw e => exact h
  | call o k ih => exact fun reply => ⟨.of_rests h, ih reply (h.outside hp.1) (hp.2 reply)⟩

theorem along_of_failed {p : Action α} (h : ¬ Concluded past) : p.Along Climbs (fun _ => Rests) past := by
  induction p generalizing past with
  | ret a => exact fun hc => absurd hc h
  | throw e => exact fun hc => absurd hc h
  | call o k ih => exact fun reply => ⟨fun hc => absurd hc h, ih reply fun hc => h hc.of_cons⟩

theorem rollback_climbs {tx : TxId} {e : Failure} (h : HoldsUpTo tx 2 past) :
    (rollback tx e : Action α).Along Climbs (fun _ => Rests) past := by
  apply along_bind
  apply along_tryCatch
  apply along_perform
  intro r
  refine ⟨.of_holdsUpTo h (Nat.lt_succ_self 2), ?_⟩
  cases r with
  | ok r => exact fun _ => h.closed rfl rfl
  | error e => exact fun hc => absurd List.mem_cons_self (hc tx e).2

theorem transaction_climbs {body : TxId → Action α} (h : Rests past)
    (hbody : ∀ tx, HoldsUpTo tx 0 (done .startTransaction tx :: past) →
      (body tx).Along Climbs (fun _ => HoldsUpTo tx 2) (done .startTransaction tx :: past)) :
    (transaction body).Along Climbs (fun _ => Rests) past := by
  by_cases hc : Concluded past
  · have hrest := h hc
    refine along_perform_bind (fun _ => .of_rests h) (fun e _ => hrest.outside rfl) fun tx => ?_
    apply along_tryCatch
    apply along_bind
    apply (hbody tx (hrest.outside rfl).holdsUpTo).mono
    intro r past' hheld
    cases r with
    | error e => exact rollback_climbs hheld
    | ok a =>
      refine along_perform_bind (fun _ => .of_holdsUpTo hheld (Nat.lt_succ_self 2)) (fun e => ?_) fun _ => ?_
      · exact along_of_failed fun hc => absurd List.mem_cons_self (hc tx e).1
      · exact fun _ => hheld.closed rfl rfl
  · exact along_of_failed hc

theorem inside_bind_climbs {tx : TxId} {n m : ℕ} {o : Op} {f : o.Res → Action β}
    (h : HoldsUpTo tx n past) (ho : o.transaction = some tx) (hn : n < o.demand) (hm : o.demand ≤ m)
    (hf : ∀ r, HoldsUpTo tx o.demand (done o r :: past) →
      (f r).Along Climbs (fun _ => HoldsUpTo tx m) (done o r :: past)) :
    (perform o >>= f).Along Climbs (fun _ => HoldsUpTo tx m) past := by
  refine along_perform_bind (fun _ => .of_holdsUpTo h hn) (fun e => ?_) fun r => hf r (h.inside ho hn)
  exact (h.inside ho hn).mono hm

theorem outside_bind_climbs {tx : TxId} {n m : ℕ} {o : Op} {f : o.Res → Action β}
    (h : HoldsUpTo tx n past) (ho : o.transaction = none) (hn : n < o.demand) (hm : n ≤ m)
    (hf : ∀ r, HoldsUpTo tx n (done o r :: past) →
      (f r).Along Climbs (fun _ => HoldsUpTo tx m) (done o r :: past)) :
    (perform o >>= f).Along Climbs (fun _ => HoldsUpTo tx m) past := by
  refine along_perform_bind (fun _ => .of_holdsUpTo h hn) (fun e => ?_) fun r => hf r (h.outside ho)
  exact (h.outside ho).mono hm

theorem createUserWithOauthLink_climbs {tx : TxId} (h : HoldsUpTo tx 0 past)
    (params : CreateVerifiedUserWithOauthLinkParams) :
    (UserModelAction.createUserWithOauthLink tx params).Along Climbs (fun _ => HoldsUpTo tx 2) past := by
  refine inside_bind_climbs h rfl Nat.one_pos (Nat.le_succ 1) fun user huser => ?_
  refine inside_bind_climbs huser rfl (Nat.lt_succ_self 1) (Nat.le_refl 2) fun account haccount => ?_
  refine outside_bind_climbs haccount rfl (Nat.lt_succ_self 2) (Nat.le_refl 2) fun row hrow => ?_
  cases row <;> exact hrow

variable {Profile : Type} {id : UserId} {tx : TxId} {find : TxId → Action (Option Profile)}
  {save : TxId → Action Profile}

theorem userOf_climbs (h : HoldsUpTo tx 0 past) :
    (Onboarding.userOf tx id).Along Climbs (fun _ => HoldsUpTo tx 0) past := by
  apply along_tryCatch
  apply along_bind
  apply along_perform
  intro r
  have hread : HoldsUpTo tx 0 (⟨.findUser (some tx) id, r⟩ :: past) := h.outside rfl
  refine ⟨.of_holdsUpTo h (Nat.succ_pos 2), ?_⟩
  rcases r with e | _ | user
  · dsimp only
    split_ifs <;> exact hread
  · show (if _ then _ else _ : Action User).Along _ _ _
    split_ifs <;> exact hread
  · exact hread

theorem saveProfile_climbs (h : HoldsUpTo tx 0 past)
    (hfind : ∀ past, HoldsUpTo tx 0 past → (find tx).Along Climbs (fun _ => HoldsUpTo tx 0) past)
    (hsave : ∀ past, HoldsUpTo tx 0 past → (save tx).Along Climbs (fun _ => HoldsUpTo tx 1) past)
    (profileExists : String) : (Onboarding.saveProfile id find profileExists save tx).Along Climbs
      (fun _ => HoldsUpTo tx 2) past := by
  apply along_bind
  apply (userOf_climbs h).mono
  intro r past hread
  cases r with
  | error e => exact hread.mono (Nat.zero_le 2)
  | ok user =>
    show (if _ then _ else _ : Action Profile).Along _ _ _
    split_ifs
    · exact hread.mono (Nat.zero_le 2)
    apply along_bind
    apply (hfind past hread).mono
    intro r past hfound
    rcases r with e | _ | existing
    · exact hfound.mono (Nat.zero_le 2)
    · apply along_bind
      apply (hsave past hfound).mono
      intro r past hsaved
      cases r with
      | error e => exact hsaved.mono (Nat.le_succ 1)
      | ok profile =>
        exact inside_bind_climbs hsaved rfl (Nat.lt_succ_self 1) (Nat.le_refl 2) fun _ hmarked => hmarked
    · exact hfound.mono (Nat.zero_le 2)

theorem perform_outside_climbs {o : Op} {n : ℕ} (h : HoldsUpTo tx n past) (ho : o.transaction = none)
    (hn : n < o.demand) : (Prog.perform (S := backend) o).Along Climbs (fun _ => HoldsUpTo tx n) past :=
  along_perform fun _ => ⟨.of_holdsUpTo h hn, h.outside ho⟩

theorem perform_inside_climbs {o : Op} {n : ℕ} (h : HoldsUpTo tx n past) (ho : o.transaction = some tx)
    (hn : n < o.demand) : (Prog.perform (S := backend) o).Along Climbs (fun _ => HoldsUpTo tx o.demand) past :=
  along_perform fun _ => ⟨.of_holdsUpTo h hn, h.inside ho hn⟩

theorem completeOnboarding_climbs (h : Rests past)
    (hfind : ∀ tx past, HoldsUpTo tx 0 past → (find tx).Along Climbs (fun _ => HoldsUpTo tx 0) past)
    (hsave : ∀ tx past, HoldsUpTo tx 0 past → (save tx).Along Climbs (fun _ => HoldsUpTo tx 1) past)
    (profileExists message : String) :
    (Onboarding.completeOnboarding env id find profileExists save message).Along Climbs (fun _ => Rests) past := by
  apply along_bind
  refine (transaction_climbs h fun tx hheld => saveProfile_climbs hheld (hfind tx) (hsave tx) profileExists).mono ?_
  intro r past' hrest
  cases r with
  | error e => exact hrest
  | ok profile =>
    apply outside_climbs hrest
    exact calls_bind (issueSessionForUser_outside id message) fun _ => trivial

theorem resolve_climbs (h : Rests past) (provider : String) (payload : OAuthProfilePayload)
    (signupRole : Option OAuthSignupRole) :
    (UsersService.resolveOAuthUserFromProviderProfile provider payload signupRole).Along Climbs
      (fun _ => Rests) past := by
  refine along_perform_bind (fun _ => .of_rests h) (fun e => h.outside rfl) fun linked => ?_
  have hlinked : Rests (done (.findOauthAccount provider payload.providerId) linked :: past) := h.outside rfl
  cases linked with
  | some linked => exact hlinked
  | none =>
    refine along_perform_bind (fun _ => .of_rests hlinked) (fun e => hlinked.outside rfl) fun byEmail => ?_
    have hread : Rests (done (.findUserByEmail payload.email) byEmail ::
        done (.findOauthAccount provider payload.providerId) none :: past) := hlinked.outside rfl
    cases byEmail with
    | some user => exact outside_climbs hread (UsersService.calls_linkByEmail rfl rfl rfl rfl rfl)
    | none =>
      apply along_tryCatch
      apply Along.mono (Q := fun _ => Rests)
      · cases signupRole with
        | none => exact hread
        | some role => exact transaction_climbs hread fun tx hheld => createUserWithOauthLink_climbs hheld _
      intro r past' hrest
      cases r with
      | ok user => exact hrest
      | error e =>
        apply outside_climbs hrest
        split_ifs
        · refine calls_bind (calls_perform rfl) fun raced => ?_
          cases raced with
          | some raced => exact UsersService.calls_linkByEmail rfl rfl rfl rfl rfl
          | none => trivial
        · trivial

end Programs

section Endpoints

theorem jwtAuthGuard_outside (c : Credentials) : (jwtAuthGuard env c).Calls Op.Outside := by
  unfold jwtAuthGuard
  split
  · trivial
  · refine calls_bind (calls_perform rfl) fun now => ?_
    split
    · trivial
    · refine calls_bind (calls_perform rfl) fun row => ?_
      cases row <;> trivial

theorem guarded_climbs {roles : List UserRole} {c : Credentials} {handler : AuthenticatedUser → Action Response}
    (h : Rests past)
    (hhandler : ∀ user past, Rests past → (handler user).Along Climbs (fun _ => Rests) past) :
    (guarded env roles c handler).Along Climbs (fun _ => Rests) past := by
  apply along_bind
  apply (outside_climbs h (jwtAuthGuard_outside c)).mono
  intro r past' hrest
  cases r with
  | error e => exact hrest
  | ok user =>
    apply along_bind
    unfold rolesGuard
    split_ifs
    · exact hhandler user past' hrest
    · exact hrest

theorem rests_nil : Rests [] := fun _ tx writes h => by cases h

theorem handle_climbs (req : Request) : (handle env req).Along Climbs (fun _ => Rests) [] := by
  cases hreq : req.transacts with
  | false => exact outside_climbs rests_nil (calls_imp (handle_footprint env req) fun o => footprint_outside hreq)
  | true =>
    cases req with
    | googleCallback profile signupRole =>
      apply along_tryCatch
      apply along_bind
      apply along_bind
      apply (resolve_climbs rests_nil _ _ _).mono
      intro r past hrest
      cases r with
      | error e => exact hrest
      | ok user =>
        apply (outside_climbs hrest (issueTokens_outside user _)).mono
        intro r past hrest
        cases r <;> exact hrest
    | talentOnboarding c dto =>
      refine guarded_climbs rests_nil fun user past hrest => along_map ?_
      exact completeOnboarding_climbs hrest
        (fun tx past h => perform_outside_climbs (o := .findTalentProfile tx user.sub) h rfl (Nat.succ_pos 2))
        (fun tx past h => perform_inside_climbs (o := .insertTalentProfile tx _) h rfl Nat.one_pos) _ _
    | employerOnboarding c dto =>
      refine guarded_climbs rests_nil fun user past hrest => along_map ?_
      exact completeOnboarding_climbs hrest
        (fun tx past h => perform_outside_climbs (o := .findEmployerProfile tx user.sub) h rfl (Nat.succ_pos 2))
        (fun tx past h => perform_inside_climbs (o := .insertEmployerProfile tx _) h rfl Nat.one_pos) _ _
    | _ => cases hreq

variable {cookies : CookieEnv} {validator : Validator}

theorem serve_climbs (req : HttpRequest) :
    (serve env cookies validator req).Along Climbs (fun _ => Rests) [] := by
  cases h : req.parse validator with
  | none =>
    refine outside_climbs rests_nil (calls_imp (serve_authenticates h) fun o ho => ?_)
    cases ho <;> rfl
  | some typed =>
    rw [serve_of_parse h]
    exact handle_climbs typed

end Endpoints

section Runs

/-- The application on a server whose connections, mails and hashes do not fail. -/
def reliableHttp (env : Env) (cookies : CookieEnv) (validator : Validator) :
    System backend Database Draw Tick HttpRequest Response :=
  { server.reliable with body := serve env cookies validator, admits := fun _ _ => true }

variable {cookies : CookieEnv} {validator : Validator} {db : Database} {p : HttpPool}

theorem reliable_booked (hidle : db.transactions = [])
    (hp : (reliableHttp env cookies validator).Reachable (.start db) p) : Booked p.world := by
  refine System.Reachable.invariant (I := Booked) (Booked.start hidle) (fun m w hw => hw.tick rfl rfl) ?_ hp
    (System.Reachable.along serve_transacts hp).2
  intro w pid req o reply t hw ha htransacts
  exact hw.perform (.inl (exec_of_reliable ha)) htransacts.1

theorem reliable_concluded (hp : (reliableHttp env cookies validator).Reachable (.start db) p) (pid : ℕ) :
    Concluded (calls pid p.world.trace) := by
  have hanswered : ∀ {o : Op} {reply : Reply o}, (⟨o, reply⟩ : ApiCall) ∈ calls pid p.world.trace →
      ∃ ω s t, exec o ω s = some (reply, t) := by
    intro o reply hmem
    obtain ⟨e, he, -, hcall⟩ := mem_calls.mp hmem
    obtain ⟨-, -, -, t, ha⟩ := (System.Reachable.answered hp).of_mem he
    obtain ⟨pid', req, before, rfl⟩ := Event.exists_of_call hcall
    obtain ⟨ω, hexec⟩ := exec_of_reliable ha
    exact ⟨ω, before, t, hexec⟩
  intro tx e
  constructor
  · intro hmem
    obtain ⟨ω, s, t, hexec⟩ := hanswered hmem
    cases hexec
  · intro hmem
    obtain ⟨ω, s, t, hexec⟩ := hanswered hmem
    cases hexec

theorem Booked.openWrites_of_mem {w : ServerWorld HttpRequest} (h : Booked w) {entry : TxId × List Write}
    (hentry : entry ∈ w.state.transactions) :
    ∃ pid, Started w pid entry.1 ∧ openWrites entry.1 (calls pid w.trace) = some entry.2 := by
  obtain ⟨pid, hstarted⟩ := h.owned entry hentry
  have hmem : entry ∈ w.state.entries entry.1 := List.mem_filter.mpr ⟨hentry, decide_eq_true rfl⟩
  rw [h.entries pid entry.1 hstarted] at hmem
  obtain ⟨writes, hwrites, heq⟩ := List.mem_map.mp hmem
  refine ⟨pid, hstarted, ?_⟩
  rw [Option.mem_toList.mp hwrites, ← heq]

theorem Started.getElem? (hp : (reliableHttp env cookies validator).Reachable (.start db) p) {pid : ℕ} {tx : TxId}
    (h : Started p.world pid tx) : ∃ proc, p.procs[pid]? = some proc := by
  obtain ⟨e, he, rfl, -⟩ := h
  exact ⟨_, List.getElem?_eq_getElem (System.Reachable.pid_lt hp e he)⟩

theorem rests_of_ended {prog : Action Response} (h : prog.Along Climbs (fun _ => Rests) past)
    (hend : prog.Ended) : Rests past := by
  cases prog with
  | ret a => exact h
  | throw e => exact h
  | call o k => exact hend.elim

theorem reliable_ordered (hidle : db.transactions = [])
    (hp : (reliableHttp env cookies validator).Reachable (.start db) p) : p.Ordered Op.demand
      fun o => ∃ reply t, (reliableHttp env cookies validator).Answers o p.world.state reply t := by
  intro pid req o k hproc
  rcases answered_or_heldFrom o p.world.state with ⟨ω, reply, t, hexec⟩ | ⟨entry, hentry, w, hw, hlevel⟩
  · exact .inl ⟨reply, t, .inl ⟨ω, hexec⟩⟩
  · -- the process that holds the write has more to do, and demands more than the write's level
    obtain ⟨pid', hstarted, hopen⟩ := (reliable_booked hidle hp).openWrites_of_mem hentry
    obtain ⟨⟨req', prog⟩, hproc'⟩ := hstarted.getElem? hp
    have halong := (System.Reachable.along serve_climbs hp).1 pid' _ hproc'
    have hconcluded := reliable_concluded hp pid'
    have hholds : ¬ AtRest (calls pid' p.world.trace) := by
      intro hrest
      rw [hrest entry.1 entry.2 hopen] at hw
      cases hw
    cases prog with
    | ret a => exact absurd (halong hconcluded) hholds
    | throw e => exact absurd (halong hconcluded) hholds
    | call o' k' =>
      have hclimbs : Climbs ⟨o', .error .oauthSignupRoleRequired⟩ (calls pid' p.world.trace) := (halong _).1
      have hlt : w.level < o'.demand := hclimbs hconcluded entry.1 entry.2 hopen w hw
      exact .inr ⟨pid', req', o', k', hproc', Nat.lt_of_le_of_lt hlevel hlt⟩

theorem nothing_held_of_ended (hidle : db.transactions = [])
    (hp : (reliableHttp env cookies validator).Reachable (.start db) p) (hend : p.Ended) :
    p.world.state.others none = [] := by
  apply List.eq_nil_iff_forall_not_mem.mpr
  intro w hw
  obtain ⟨entry, hentry, hmem⟩ := mem_others hw
  obtain ⟨pid, hstarted, hopen⟩ := (reliable_booked hidle hp).openWrites_of_mem hentry
  obtain ⟨proc, hproc⟩ := hstarted.getElem? hp
  have halong := (System.Reachable.along serve_climbs hp).1 pid _ hproc
  have hrest := rests_of_ended halong (hend proc (List.mem_of_getElem? hproc)) (reliable_concluded hp pid)
  rw [hrest entry.1 entry.2 hopen] at hmem
  cases hmem

/-- However the requests that have arrived are scheduled from here on, all of them are answered, and then nothing is
left uncommitted. -/
theorem requests_answered (hidle : db.transactions = [])
    (hp : (reliableHttp env cookies validator).Reachable (.start db) p) :
    (reliableHttp env cookies validator).Inevitable (fun _ => True)
      (fun q => q.procs.map Proc.req = p.procs.map Proc.req ∧ q.Ended ∧ q.world.state.others none = []) p := by
  have hinevitable := System.inevitable_of_order (Y := reliableHttp env cookies validator) (m := ⟨0, 0⟩)
    (I := fun q => (reliableHttp env cookies validator).Reachable (.start db) q ∧
      q.procs.map Proc.req = p.procs.map Proc.req)
    (fun s => rfl) Op.demand_le (fun q r hq hrun => ⟨hq.1.trans hrun.reachable, hrun.advances.map_req.trans hq.2⟩)
    (fun q hq => reliable_ordered hidle hq.1) ⟨hp, rfl⟩
  exact hinevitable.mono fun q hq => ⟨hq.1.2, hq.2, nothing_held_of_ended hidle hq.1.1 hq.2⟩

def colliding : GoogleProfile :=
  { adaProfile with lastName := "King", providerId := "google-2", fits := by decide, fitsIdentity := by decide }

/-- Two sign-ups with one e-mail: the second one waits for the row that the first has not committed. -/
def collidingSignUps : Option HttpPool :=
  (reliableHttp sampleEnv {} sampleValidator).play (.start (sampleDatabase []))
    ([.spawn (.googleCallback adaProfile (some "talent")),
      .spawn (.googleCallback colliding (some "employer"))] ++
      List.replicate 4 (.run 0 {}) ++ List.replicate 3 (.run 1 {}))

theorem collidingSignUps_isSome : collidingSignUps.isSome = true := rfl

theorem collidingSignUps_answered :
    ((reliableHttp sampleEnv {} sampleValidator).advance (collidingSignUps.get collidingSignUps_isSome)
      (.run 1 {})).isNone = true ∧
    (reliableHttp sampleEnv {} sampleValidator).Inevitable (fun _ => True)
      (fun q => q.procs.map Proc.req = (collidingSignUps.get collidingSignUps_isSome).procs.map Proc.req ∧
        q.Ended ∧ q.world.state.others none = []) (collidingSignUps.get collidingSignUps_isSome) :=
  ⟨by decide +kernel, requests_answered rfl (System.reachable_of_play (Option.some_get collidingSignUps_isSome).symm)⟩

end Runs

end SkillBridge
