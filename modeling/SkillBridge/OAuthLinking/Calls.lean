import SkillBridge.Auth.Service
import SkillBridge.Database.Waiting
import SkillBridge.OAuthLinking.Steps

set_option autoImplicit false

/-! Concurrent sign-ins with one identity and registrations of its e-mail address. -/

namespace SkillBridge

open Interleaving Database Contract

inductive AccountCall
  | resolve (profile : OAuthProfilePayload) (signupRole : OAuthSignupRole)
  | register (dto : RegisterDto)

inductive AccountResult
  | resolved (user : User)
  | registered (message : String)

abbrev AccountWorld : Type := ServerWorld AccountCall

def accountBody (env : Env) (i : OAuthIdentity) : AccountCall → Action AccountResult
  | .resolve profile signupRole =>
    .resolved <$> UsersService.resolveOAuthUserFromProviderProfile i.provider profile (some signupRole)
  | .register dto => .registered <$> AuthService.register env dto

def AccountCall.concerns (i : OAuthIdentity) : AccountCall → Bool
  | resolve profile _ => profile.providerId = i.providerId && profile.email = i.email
  | register dto => dto.email = i.email

def accountCalls (env : Env) (i : OAuthIdentity) :
    System backend Database Draw Tick AccountCall AccountResult :=
  { server with body := accountBody env i, admits := fun _ req => req.concerns i }

def Undisturbed (e : Event backend Database AccountCall) : Prop :=
  ∀ profile signupRole err, e.req = .resolve profile signupRole → e.reply = .error err →
    infrastructureFailure err = false

def signIn (i : OAuthIdentity) : Contract backend Database AccountCall where
  Inv w := Coherent i w.state ∧ Ledger w
  Rel w w' := Grows i w.state w'.state ∧ TransactionsKept w w'
  Ready pid o w := (∃ ω reply t, exec o ω w.state = some (reply, t)) ∨
    (∃ entry ∈ w.state.transactions, entry.2 ≠ []) ∧
      ∀ entry ∈ w.state.transactions, Started w pid entry.1 → entry.2 = []
  Ok e _ := Undisturbed e
  refl w := ⟨.refl i w.state, .refl w⟩
  trans h h' := ⟨h.1.trans h'.1, h.2.trans h'.2⟩

def Op.quiet : Op → Bool
  | findUser _ _ => true
  | findUserByEmail _ => true
  | findOauthAccount _ _ => true
  | findOauthAccountOfUser _ _ => true
  | invalidateActiveOtps _ _ => true
  | insertOtp _ _ => true
  | hashText _ => true
  | dateNow => true
  | randomInt _ => true
  | sendVerificationOtp _ => true
  | _ => false

theorem Database.Effect.quiet {db t : Database} {o : Op} {r : Reply o} (h : Effect db o r t)
    (hq : o.quiet = true) :
    t.tables.users = db.tables.users ∧ t.tables.oauthAccounts = db.tables.oauthAccounts ∧
      t.transactions = db.transactions := by
  cases h with
  | unchanged h => exact ⟨rfl, rfl, rfl⟩
  | drawn h => exact ⟨rfl, rfl, rfl⟩
  | invalidated => exact ⟨rfl, rfl, rfl⟩
  | insertOtp => exact ⟨rfl, rfl, rfl⟩
  | saved h => cases o <;> first | cases h | cases hq
  | _ => cases hq

theorem Op.quiet.answered {o : Op} (hq : o.quiet = true) (db : Database) :
    ∃ ω reply t, exec o ω db = some (reply, t) := by
  cases o <;> first | exact ⟨{}, _, _, rfl⟩ | cases hq

theorem Op.quiet.outside {o : Op} (hq : o.quiet = true) : o.transaction = none ∧ o ≠ .startTransaction := by
  cases o <;> simp [Op.quiet, Op.transaction] at hq ⊢

variable {i : OAuthIdentity} {w w' : AccountWorld} {pid : ℕ} {held : List (TxId × List Write)}

theorem Database.Effect.keeps {o : Op} {req : AccountCall} {reply : Reply o} {t : Database}
    (hq : o.quiet = true)
    (hinv : (signIn i).Inv w) (hheld : Holding pid held w) (ha : server.Answers o w.state reply t) :
    (signIn i).Inv (w.perform pid req o reply t) ∧ (signIn i).Rel w (w.perform pid req o reply t) ∧
      Holding pid held (w.perform pid req o reply t) := by
  obtain ⟨hu, ha', ht⟩ := (answers_effect ha).quiet hq
  obtain ⟨htx, hstart⟩ := Op.quiet.outside hq
  obtain ⟨hc, hg⟩ := hinv.1.quiet hu ha' ht (answers_effect ha).fresh_le
  have hnone : ∀ tx, o.transaction = some tx → Started w pid tx := by simp [htx]
  obtain ⟨hl, hk⟩ := @Ledger.perform _ _ pid req _ _ _ hinv.2 ha hnone
  exact ⟨⟨hc, hl⟩, ⟨hg, hk⟩, hheld.outside hinv.2 ha htx hstart⟩

theorem Holding.future (h : Holding pid held w) (hf : (signIn i).Future pid w w') : Holding pid held w' :=
  h.later hf.rel.2 hf.later

theorem ready_insertUser (h : Holding pid held w) (hnil : ∀ entry ∈ held, entry.2 = []) (tx : Option TxId)
    (payload : NewUser) : (signIn i).Ready pid (.insertUser tx payload) w := by
  cases hexec : w.state.insertUser tx payload with
  | some result => exact .inl ⟨{}, result.1, result.2, hexec⟩
  | none =>
    refine .inr ⟨?_, h.nil_of_started hnil⟩
    unfold Database.insertUser insertUnique at hexec
    split_ifs at hexec with hfits htaken hwaits
    obtain ⟨write, hmem, -⟩ := List.any_eq_true.mp hwaits
    obtain ⟨entry, hentry, hwrite⟩ := List.mem_flatMap.mp hmem
    exact ⟨entry, (List.mem_filter.mp hentry).1, List.ne_nil_of_mem hwrite⟩

section SignIn

variable {profile : OAuthProfilePayload} {signupRole : OAuthSignupRole}

theorem exec_of_undisturbed {o : Op} {s t : Database} {reply : Reply o} (ha : server.Answers o s reply t)
    (hok : Undisturbed ⟨pid, .resolve profile signupRole, s, o, reply⟩) :
    ∃ ω, exec o ω s = some (reply, t) := by
  rcases ha with h | ⟨e, he, hreply, -⟩
  · exact h
  · have hno : infrastructureFailure e = false := hok profile signupRole e rfl hreply
    have hyes : infrastructureFailure e = true := he
    rw [hno] at hyes
    cases hyes

theorem safe_quiet {o : Op} {Q : Except Failure o.Res → AccountWorld → Prop} (hq : o.quiet = true)
    (hheld : Holding pid held w)
    (h : ∀ ω u v reply t, (signIn i).Future pid w u → exec o ω u.state = some (reply, t) →
      Grows i u.state v.state →
      Holding pid held v → Q reply v) :
    (signIn i).Safe server pid (.resolve profile signupRole) Q (perform o) w := by
  apply safe_perform
  intro u hu
  refine ⟨.inl (Op.quiet.answered hq u.state), fun reply t ha hok => ?_⟩
  obtain ⟨ω, hexec⟩ := exec_of_undisturbed ha hok
  obtain ⟨hi, hr, hh⟩ := Effect.keeps hq hu.inv (hheld.future hu) ha
  refine ⟨hi, hr, fun v hv => ?_⟩
  exact h ω u v reply t hu hexec (hr.1.trans hv.rel.1) (hh.future hv)

theorem safe_findByEmail {Q : Except Failure (Option User) → AccountWorld → Prop} (hheld : Holding pid held w)
    (found : ∀ user v, Grows i w.state v.state → Holding pid held v →
      Registered i v.state user.id user.is_verified → Q (.ok (some user)) v)
    (absent : ∀ v, (∀ id, ¬ Registered i w.state id false) → Grows i w.state v.state → Holding pid held v →
      Q (.ok none) v) :
    (signIn i).Safe server pid (.resolve profile signupRole) Q (UsersService.findByEmail i.email) w := by
  apply safe_quiet rfl hheld
  intro ω u v reply t hu hexec hg hh
  cases hexec
  cases hfind : u.state.tables.users.find? fun user => user.email = i.email with
  | none =>
    refine absent v (fun id hreg => ?_) (hu.rel.1.trans hg) hh
    obtain ⟨user, huser⟩ := (hu.rel.1.registered hreg).find_by_email
    rw [huser] at hfind
    cases hfind
  | some user => exact found user v (hu.rel.1.trans hg) hh (hg.registered (hu.inv.1.found_by_email hfind))

theorem safe_findOauthAccountWithUser {Q : Except Failure (Option (OAuthUser × User)) → AccountWorld → Prop}
    (hheld : Holding pid held w)
    (found : ∀ linked v, Grows i w.state v.state → Holding pid held v → Linked i v.state linked.2.id →
      Q (.ok (some linked)) v)
    (absent : ∀ v, (∀ id, ¬ Linked i w.state id) → Grows i w.state v.state → Holding pid held v →
      Q (.ok none) v) :
    (signIn i).Safe server pid (.resolve profile signupRole) Q
      (UsersService.findOauthAccountWithUser i.provider i.providerId) w := by
  apply safe_quiet rfl hheld
  intro ω u v reply t hu hexec hg hh
  cases hexec
  cases hfind : u.state.findOauthAccount i.provider i.providerId with
  | none =>
    refine absent v (fun id hl => ?_) (hu.rel.1.trans hg) hh
    obtain ⟨linked, hlinked, -⟩ := (hu.rel.1.linked hl).find_by_link
    rw [hlinked] at hfind
    cases hfind
  | some linked => exact found linked v (hu.rel.1.trans hg) hh (hg.linked (hu.inv.1.found_by_link hfind))

theorem safe_findOne {Q : Except Failure User → AccountWorld → Prop} {id : UserId} {verified : Bool}
    (hheld : Holding pid held w) (hreg : Registered i w.state id verified)
    (found : ∀ user v, user.id = id → Grows i w.state v.state → Holding pid held v → Q (.ok user) v) :
    (signIn i).Safe server pid (.resolve profile signupRole) Q (UsersService.findOne id) w := by
  apply Safe.bind
  apply safe_quiet rfl hheld
  intro ω u v reply t hu hexec hg hh
  cases hexec
  obtain ⟨user, hfound, hid⟩ := (hu.rel.1.registered hreg).findUser
  have hview : findById (u.state.view none).users id = some user := hfound
  rw [hview]
  intro v' hv'
  exact found user v' hid ((hu.rel.1.trans hg).trans hv'.rel.1) (hh.future hv')

theorem safe_write {o : Op} {Q : Except Failure o.Res → AccountWorld → Prop}
    (owned : ∀ tx, o.transaction = some tx → Started w pid tx)
    (ready : ∀ u, (signIn i).Future pid w u → (signIn i).Ready pid o u)
    (h : ∀ ω u reply t, (signIn i).Future pid w u → server.Answers o u.state reply t →
      exec o ω u.state = some (reply, t) → Coherent i t ∧ Grows i u.state t ∧
        ∀ v, (signIn i).Future pid (u.perform pid (.resolve profile signupRole) o reply t) v → Q reply v) :
    (signIn i).Safe server pid (.resolve profile signupRole) Q (perform o) w := by
  apply safe_perform
  intro u hu
  refine ⟨ready u hu, fun reply t ha hok => ?_⟩
  obtain ⟨ω, hexec⟩ := exec_of_undisturbed ha hok
  obtain ⟨hc, hg, hQ⟩ := h ω u reply t hu ha hexec
  obtain ⟨l, hl, -⟩ := hu.later
  have howned : ∀ tx, o.transaction = some tx → Started u pid tx := fun tx htx => (owned tx htx).mono hl
  obtain ⟨hledger, hkept⟩ := @Ledger.perform _ _ pid (.resolve profile signupRole) _ _ _ hu.inv.2 ha howned
  exact ⟨⟨hc, hledger⟩, ⟨hg, hkept⟩, hQ⟩

theorem safe_markVerified {Q : Except Failure User → AccountWorld → Prop} {id : UserId} {verified : Bool}
    (hheld : Holding pid held w) (hreg : Registered i w.state id verified)
    (h : ∀ user v, Grows i w.state v.state → Holding pid held v → Registered i v.state id true →
      Q (.ok user) v) :
    (signIn i).Safe server pid (.resolve profile signupRole) Q (UsersService.markVerified id) w := by
  apply Safe.bind
  apply safe_write (by simp [Op.transaction])
  · intro u hu
    obtain ⟨user, hexec, -⟩ := hu.inv.1.verify (hu.rel.1.registered hreg)
    exact .inl ⟨{}, _, _, hexec⟩
  · intro ω u reply t hu ha hexec
    obtain ⟨user, hexec', hc, hg, hver⟩ := hu.inv.1.verify (hu.rel.1.registered hreg)
    cases hexec.symm.trans hexec'
    refine ⟨hc, hg, fun v hv => ?_⟩
    have hh := ((hheld.future hu).outside hu.inv.2 ha rfl (by simp)).future hv
    have hver' := hv.rel.1.registered hver
    apply safe_findOne hh hver'
    intro user v' _ hg' hh'
    exact h user v' (((hu.rel.1.trans hg).trans hv.rel.1).trans hg') hh' (hg'.registered hver')

theorem safe_linkOauthAccountToUser {Q : Except Failure Unit → AccountWorld → Prop} {id : UserId}
    (hheld : Holding pid held w) (hreg : Registered i w.state id true)
    (h : ∀ v, Grows i w.state v.state → Holding pid held v → Linked i v.state id → Q (.ok ()) v) :
    (signIn i).Safe server pid (.resolve profile signupRole) Q
      (UsersService.linkOauthAccountToUser id i.provider i.providerId) w := by
  apply Safe.tryCatch
  apply Safe.bind
  apply safe_write (by simp [Op.transaction])
  · intro u hu
    rcases hu.inv.1.link (hu.rel.1.registered hreg) with ⟨hexec, -⟩ | ⟨account, t, hexec, -⟩
    · exact .inl ⟨{}, _, _, hexec⟩
    · exact .inl ⟨{}, _, _, hexec⟩
  · intro ω u reply t hu ha hexec
    rcases hu.inv.1.link (hu.rel.1.registered hreg) with ⟨hexec', hl⟩ | ⟨account, t', hexec', hc, hg, hl⟩
    · cases hexec.symm.trans hexec'
      refine ⟨hu.inv.1, .refl i u.state, fun v hv => ?_⟩
      have hh := ((hheld.future hu).outside hu.inv.2 ha rfl (by simp)).future hv
      have hl' := hv.rel.1.linked hl
      -- the link that is in the way is the one that was to be inserted
      apply Safe.bind
      apply safe_findOauthAccountWithUser hh
      · intro linked v' hg' hh' hlinked
        have hid : linked.2.id = id := hlinked.1.unique (hg'.registered hl'.1)
        simp only [Then, hid, Option.any_some, decide_true, ↓reduceIte]
        exact fun v'' hv'' => h v'' (((hu.rel.1.trans hv.rel.1).trans hg').trans hv''.rel.1) (hh'.future hv'')
          ((hg'.trans hv''.rel.1).linked hl')
      · intro v' hno
        exact absurd hl' (hno id)
    · cases hexec.symm.trans hexec'
      refine ⟨hc, hg, fun v hv => ?_⟩
      have hh := ((hheld.future hu).outside hu.inv.2 ha rfl (by simp)).future hv
      intro v' hv'
      exact h v' (((hu.rel.1.trans hg).trans hv.rel.1).trans hv'.rel.1) (hh.future hv')
        ((hv.rel.1.trans hv'.rel.1).linked hl)

theorem safe_linkByEmail {Q : Except Failure User → AccountWorld → Prop} {user : User}
    (hheld : Holding pid held w) (hreg : Registered i w.state user.id user.is_verified)
    (h : ∀ user' v, Holding pid held v → Linked i v.state user'.id → Q (.ok user') v) :
    (signIn i).Safe server pid (.resolve profile signupRole) Q
      (UsersService.linkByEmail user i.provider i.providerId) w := by
  have hrest : ∀ v, Holding pid held v → Registered i v.state user.id true →
      (signIn i).Safe server pid (.resolve profile signupRole) Q (do
        UsersService.linkOauthAccountToUser user.id i.provider i.providerId
        UsersService.findOne user.id) v := by
    intro v hh hver
    apply Safe.bind
    apply safe_linkOauthAccountToUser hh hver
    intro v' _ hh' hl
    apply safe_findOne hh' hl.1
    intro user' v'' hid hg'' hh''
    exact h user' v'' hh'' (hid ▸ hg''.linked hl)
  unfold UsersService.linkByEmail
  by_cases hver : user.is_verified = true
  · simp only [hver, ↓reduceIte]
    exact hrest w hheld (hver ▸ hreg)
  · simp only [hver]
    apply Safe.bind
    apply safe_markVerified hheld hreg
    intro user' v hg hh hver'
    exact hrest v hh hver'

section Transaction

variable {tx : TxId} {payload : NewUser} {id : UserId} {createdAt : ℕ} {account : OAuthUser}
  {writes : List Write}

theorem safe_insertUser {Q : Except Failure User → AccountWorld → Prop} (hheld : Holding pid [(tx, [])] w)
    (hemail : payload.email = i.email) (hverified : payload.is_verified = true) (hfits : payload.fits = true)
    (inserted : ∀ id createdAt v, Holding pid [(tx, [.insertUser payload id createdAt])] v →
      Q (.ok (payload.toUser id createdAt)) v)
    (taken : ∀ id v, Holding pid [(tx, [])] v → Registered i v.state id false →
      Q (.error (.queryFailed .uniqueViolation)) v) :
    (signIn i).Safe server pid (.resolve profile signupRole) Q (perform (.insertUser (some tx) payload)) w := by
  apply safe_write (hheld.owned rfl)
  · exact fun u hu => ready_insertUser (hheld.future hu) (by simp) _ _
  · intro ω u reply t hu ha hexec
    have hentries := (hheld.future hu).entries_eq
    rcases hu.inv.1.createUser hentries hemail hverified hfits hexec with ⟨rfl, rfl, hne⟩ | ⟨rfl, hentries', hc, hg⟩
    · obtain ⟨id, hreg⟩ := hu.inv.1.registered hne
      refine ⟨hu.inv.1, .refl i _, fun v hv => ?_⟩
      have hh := ((hheld.future hu).inside hu.inv.2 ha rfl hentries (by simp)).future hv
      exact taken id v hh (hv.rel.1.registered hreg)
    · refine ⟨hc, hg, fun v hv => ?_⟩
      exact inserted _ _ v (((hheld.future hu).inside hu.inv.2 ha rfl hentries' (by simp)).future hv)

theorem safe_insertLink {Q : Except Failure OAuthUser → AccountWorld → Prop}
    (hheld : Holding pid [(tx, [.insertUser payload id createdAt])] w)
    (inserted : ∀ account v,
      Holding pid [(tx, [.insertUser payload id createdAt, .insertOauthAccount account])] v →
      Q (.ok account) v) :
    (signIn i).Safe server pid (.resolve profile signupRole) Q
      (perform (.insertOauthAccount (some tx) id i.provider i.providerId)) w := by
  apply safe_write (hheld.owned rfl)
  · intro u hu
    obtain ⟨account, hexec, -⟩ := hu.inv.1.createLink (hheld.future hu).entries_eq
    exact .inl ⟨{}, _, _, hexec⟩
  · intro ω u reply t hu ha hexec
    obtain ⟨account, hexec', hentries, hc, hg⟩ := hu.inv.1.createLink (hheld.future hu).entries_eq
    cases hexec.symm.trans hexec'
    refine ⟨hc, hg, fun v hv => ?_⟩
    exact inserted account v (((hheld.future hu).inside hu.inv.2 ha rfl hentries (by simp)).future hv)

theorem safe_findCreated {Q : Except Failure (Option User) → AccountWorld → Prop}
    (hheld : Holding pid [(tx, [.insertUser payload id createdAt, .insertOauthAccount account])] w)
    (found : ∀ v, Holding pid [(tx, [.insertUser payload id createdAt, .insertOauthAccount account])] v →
      Q (.ok (some (payload.toUser id createdAt))) v) :
    (signIn i).Safe server pid (.resolve profile signupRole) Q (perform (.findUser (some tx) id)) w := by
  apply safe_quiet rfl hheld
  intro ω u v reply t hu hexec hg hh
  cases hexec
  have hfound := hu.inv.1.find_created (hheld.future hu).entries_eq
  rw [hfound]
  exact found v hh

theorem safe_commit {Q : Except Failure Unit → AccountWorld → Prop}
    (hheld : Holding pid [(tx, [.insertUser payload id createdAt, .insertOauthAccount account])] w)
    (committed : ∀ v, Holding pid [] v → Linked i v.state id → Q (.ok ()) v) :
    (signIn i).Safe server pid (.resolve profile signupRole) Q (perform (.commitTransaction tx)) w := by
  apply safe_write (hheld.owned rfl)
  · exact fun u _ => .inl ⟨{}, _, _, rfl⟩
  · intro ω u reply t hu ha hexec
    cases hexec
    obtain ⟨hc, hg, hl⟩ := hu.inv.1.commit (hheld.future hu).entries_eq rfl
    refine ⟨hc, hg, fun v hv => ?_⟩
    have hh := ((hheld.future hu).inside hu.inv.2 ha rfl entries_closeTransaction (by simp)).future hv
    exact committed v hh (hv.rel.1.linked hl)

theorem safe_rollback {α : Type} {Q : Except Failure α → AccountWorld → Prop} {err : Failure}
    (hheld : Holding pid [(tx, writes)] w)
    (h : ∀ v, Grows i w.state v.state → Holding pid [] v → Q (.error err) v) :
    (signIn i).Safe server pid (.resolve profile signupRole) Q (rollback tx err) w := by
  apply Safe.bind
  apply Safe.tryCatch
  apply safe_write (hheld.owned rfl)
  · exact fun u _ => .inl ⟨{}, _, _, rfl⟩
  · intro ω u reply t hu ha hexec
    cases hexec
    obtain ⟨hc, hg⟩ := @Coherent.rollback i u.state _ tx hu.inv.1 rfl
    refine ⟨hc, hg, fun v hv => ?_⟩
    have hh := ((hheld.future hu).inside hu.inv.2 ha rfl entries_closeTransaction (by simp)).future hv
    intro v' hv'
    exact h v' (((hu.rel.1.trans hg).trans hv.rel.1).trans hv'.rel.1) (hh.future hv')

theorem safe_createUserWithOauthLink {Q : Except Failure User → AccountWorld → Prop}
    {params : CreateVerifiedUserWithOauthLinkParams} (hheld : Holding pid [(tx, [])] w)
    (hemail : params.email = i.email) (hprovider : params.provider = i.provider)
    (hpid : params.providerId = i.providerId) (hcountry : params.country = OAUTH_DEFAULT_COUNTRY)
    (hfits : fitsProfile params.email params.first_name params.last_name params.avatar_url = true)
    (created : ∀ payload id createdAt account v,
      Holding pid [(tx, [.insertUser payload id createdAt, .insertOauthAccount account])] v →
        Q (.ok (payload.toUser id createdAt)) v)
    (taken : ∀ id v, Holding pid [(tx, [])] v → Registered i v.state id false →
      Q (.error (.queryFailed .uniqueViolation)) v) :
    (signIn i).Safe server pid (.resolve profile signupRole) Q
      (UserModelAction.createUserWithOauthLink tx params) w := by
  unfold UserModelAction.createUserWithOauthLink
  rw [hprovider, hpid]
  apply Safe.bind
  apply safe_insertUser hheld hemail rfl (NewUser.fits_of_profile hfits hcountry rfl)
  · intro id createdAt v hh
    apply Safe.bind
    apply safe_insertLink hh
    intro account v' hh'
    apply Safe.bind
    apply safe_findCreated hh'
    intro v'' hh''
    exact fun v₃ hv₃ => created _ id createdAt account v₃ (hh''.future hv₃)
  · exact taken

theorem safe_createVerifiedUserWithOauthLink {Q : Except Failure User → AccountWorld → Prop}
    {params : CreateVerifiedUserWithOauthLinkParams} (hheld : Holding pid [] w)
    (hemail : params.email = i.email) (hprovider : params.provider = i.provider)
    (hpid : params.providerId = i.providerId) (hcountry : params.country = OAUTH_DEFAULT_COUNTRY)
    (hfits : fitsProfile params.email params.first_name params.last_name params.avatar_url = true)
    (created : ∀ user v, Holding pid [] v → Linked i v.state user.id → Q (.ok user) v)
    (raced : ∀ id v, Holding pid [] v → Registered i v.state id false →
      Q (.error (.queryFailed .uniqueViolation)) v) :
    (signIn i).Safe server pid (.resolve profile signupRole) Q
      (UserModelAction.createVerifiedUserWithOauthLink params) w := by
  apply Safe.bind
  apply safe_write (by simp [Op.transaction])
  · exact fun u _ => .inl ⟨{}, _, _, rfl⟩
  · intro ω u reply t hu ha hexec
    cases hexec
    obtain ⟨hc, hg⟩ := hu.inv.1.start
    refine ⟨hc, hg, fun v hv => ?_⟩
    have hh := ((hheld.future hu).start hu.inv.2 ha).future hv
    apply Safe.tryCatch
    apply Safe.bind
    apply safe_createUserWithOauthLink hh hemail hprovider hpid hcountry hfits
    · intro payload id createdAt account v' hh'
      apply Safe.bind
      apply safe_commit hh'
      intro v'' hh'' hl
      exact fun v₃ hv₃ => created _ v₃ (hh''.future hv₃) (hv₃.rel.1.linked hl)
    · intro id v' hh' hreg
      apply safe_rollback hh'
      intro v'' hg'' hh''
      exact raced id v'' hh'' (hg''.registered hreg)

end Transaction

theorem safe_resolve (hconcerns : (AccountCall.resolve profile signupRole).concerns i = true)
    (hheld : Holding pid [] w) {Q : Except Failure User → AccountWorld → Prop}
    (h : ∀ user v, Holding pid [] v → Linked i v.state user.id → Q (.ok user) v) :
    (signIn i).Safe server pid (.resolve profile signupRole) Q
      (UsersService.resolveOAuthUserFromProviderProfile i.provider profile (some signupRole)) w := by
  simp only [AccountCall.concerns, Bool.and_eq_true, decide_eq_true_eq] at hconcerns
  obtain ⟨hpid, hemail⟩ := hconcerns
  unfold UsersService.resolveOAuthUserFromProviderProfile
  rw [hpid, hemail]
  apply Safe.bind
  apply safe_findOauthAccountWithUser hheld
  · intro linked v _ hh hl
    exact fun v' hv' => h linked.2 v' (hh.future hv') (hv'.rel.1.linked hl)
  · intro v _ _ hh
    apply Safe.bind
    apply safe_findByEmail hh
    · intro user v' _ hh' hreg
      exact safe_linkByEmail hh' hreg h
    · intro v' _ _ hh'
      apply Safe.tryCatch
      apply safe_createVerifiedUserWithOauthLink hh' rfl rfl rfl rfl (hemail ▸ profile.fits)
      · exact fun user v'' hh'' hl => h user v'' hh'' hl
      · intro id v'' hh'' hreg
        -- another call has created the account meanwhile
        apply Safe.bind
        apply safe_findByEmail hh''
        · intro user v₃ _ hh₃ hreg₃
          exact safe_linkByEmail hh₃ hreg₃ h
        · intro v₃ hno
          exact absurd hreg (hno id)

end SignIn

def Registers (i : OAuthIdentity) (o : Op) : Prop :=
  o.quiet = true ∨ ∃ payload, o = .insertUser none payload ∧ payload.email = i.email

theorem register_calls {env : Env} {dto : RegisterDto} (hemail : dto.email = i.email) :
    (AuthService.register env dto).Calls (Registers i) := by
  have quiet : ∀ {o : Op}, o.quiet = true → (perform o).Calls (Registers i) :=
    fun hq => Prog.calls_perform (.inl hq)
  apply Prog.calls_bind
  · apply Prog.calls_bind
    · exact quiet rfl
    rintro (_ | user)
    · apply Prog.calls_bind
      · exact quiet rfl
      · exact fun hash => Prog.calls_perform (.inr ⟨_, rfl, hemail⟩)
    · exact Prog.calls_throw _
  intro user
  apply Prog.calls_bind
  · apply Prog.calls_bind
    · exact quiet rfl
    intro _
    apply Prog.calls_bind
    · apply Prog.calls_bind
      · exact quiet rfl
      · exact fun n => Prog.calls_ret _
    intro code
    apply Prog.calls_bind
    · exact quiet rfl
    intro now
    apply Prog.calls_bind
    · exact quiet rfl
    intro hash
    apply Prog.calls_bind
    · exact quiet rfl
    · exact fun otp => Prog.calls_ret _
  intro issued
  apply Prog.calls_bind
  · exact quiet rfl
  · exact fun _ => Prog.calls_ret _

theorem safe_register {env : Env} {dto : RegisterDto} (hemail : dto.email = i.email) (hheld : Holding pid [] w)
    {Q : Except Failure String → AccountWorld → Prop} (h : ∀ r v, Holding pid [] v → Q r v) :
    (signIn i).Safe server pid (.register dto) Q (AuthService.register env dto) w := by
  apply safe_of_calls (L := Holding pid []) (fun hl hf => Holding.future hl hf) ?_
    (register_calls hemail) hheld h
  rintro o v (hq | ⟨payload, rfl, hpayload⟩) hl hinv
  · exact ⟨.inl (Op.quiet.answered hq v.state), fun reply t ha _ => Effect.keeps hq hinv hl ha⟩
  · refine ⟨ready_insertUser hl (by simp) none payload, fun reply t ha _ => ?_⟩
    have hnone : ∀ tx, (Op.insertUser none payload).transaction = some tx → Started v pid tx := by
      simp [Op.transaction]
    obtain ⟨hledger, hkept⟩ := @Ledger.perform _ _ pid (.register dto) _ _ _ hinv.2 ha hnone
    have hgrown : Coherent i t ∧ Grows i v.state t := by
      cases answers_effect ha with
      | unchanged h => exact ⟨hinv.1, .refl i _⟩
      | insertUser unique alone => exact hinv.1.insertUser hpayload unique alone rfl
      | drawn h => cases h
      | saved h => cases h
    exact ⟨⟨hgrown.1, hledger⟩, ⟨hgrown.2, hkept⟩, hl.outside hinv.2 ha rfl (by simp)⟩

end SkillBridge
