import SkillBridge.Api.Footprint
import SkillBridge.Database.Constraints
import SkillBridge.Database.Pending
import SkillBridge.Security.PasswordReset

set_option autoImplicit false

/-! Only `login` looks at `is_verified`; the other ways to a session rely on what their requests have read. -/

namespace SkillBridge

open Interleaving Database Prog

section Definitions

inductive Shows : ApiCall → UserId → Prop
  | verified {c : ApiCall} {user : User} (row : userRow c = some user) (verified : user.is_verified = true) :
      Shows c user.id
  | session {c : ApiCall} {user : User} {hash : Digest Jwt} (row : userRow c = some user)
      (stored : user.refreshTokenHash = some hash) : Shows c user.id
  | linked {provider providerId : String} {account : OAuthUser} {user : User} :
      Shows (done (.findOauthAccount provider providerId) (some (account, user))) user.id
  | marked {id : UserId} {row : Option User} : Shows (done (.updateUser id { is_verified := some true }) row) id
  | inserted {tx : TxId} {payload : NewUser} {user : User} :
      Shows (done (.insertUser (some tx) payload) user) user.id

def ShownIn (past : List ApiCall) (id : UserId) : Prop := ∃ c ∈ past, Shows c id

def Vetted (past : List ApiCall) (id : UserId) : Prop :=
  ∃ id', ShownIn past id' ∧ (id = id' ∨ ∃ tx user, done (.findUser tx id') (some user) ∈ past ∧ id = user.id)

def GoogleVetted : ApiCall → List ApiCall → Prop
  | ⟨.signAsync payload _ _ _, _⟩, past => Vetted past payload.sub
  | ⟨.updateUser id payload, _⟩, past => payload.refreshTokenHash ≠ none → Vetted past id
  | ⟨.insertOauthAccount _ userId _ _, _⟩, past => ShownIn past userId
  | _, _ => True

def Linking (req : Request) (c : ApiCall) (past : List ApiCall) : Prop :=
  match req with
  | .googleCallback _ _ => GoogleVetted c past
  | _ => ∀ tx userId provider providerId, c.1 ≠ .insertOauthAccount tx userId provider providerId

end Definitions

variable {env : Env} {past : List ApiCall}

section Google

theorem ShownIn.suffix {l : List ApiCall} {id : UserId} (h : ShownIn past id) (hl : past <:+ l) : ShownIn l id := by
  obtain ⟨c, hc, hshows⟩ := h
  exact ⟨c, hl.subset hc, hshows⟩

theorem Vetted.suffix {l : List ApiCall} {id : UserId} (h : Vetted past id) (hl : past <:+ l) : Vetted l id := by
  obtain ⟨id', hshown, h⟩ := h
  refine ⟨id', hshown.suffix hl, ?_⟩
  rcases h with h | ⟨tx, user, hmem, h⟩
  · exact .inl h
  · exact .inr ⟨tx, user, hl.subset hmem, h⟩

theorem ShownIn.head {c : ApiCall} {id : UserId} (h : Shows c id) : ShownIn (c :: past) id :=
  ⟨c, List.mem_cons_self, h⟩

def VettedResult (r : Except Failure User) (l : List ApiCall) : Prop := ∀ user, r = .ok user → Vetted l user.id

theorem VettedResult.error (e : Failure) (l : List ApiCall) : VettedResult (.error e) l := fun _ h => nomatch h

theorem findOne_vetted {id : UserId} (h : ShownIn past id) :
    (UsersService.findOne id).Along GoogleVetted VettedResult past := by
  apply along_perform_bind
  · exact fun r => trivial
  · exact fun e => .error e _
  intro row
  cases row with
  | none => exact .error _ _
  | some user =>
    rintro user' ⟨⟩
    exact ⟨id, h.suffix (List.suffix_cons _ _), .inr ⟨none, user, List.mem_cons_self, rfl⟩⟩

theorem linkOauthAccountToUser_bind_vetted {β : Type} {Q : Except Failure β → List ApiCall → Prop}
    (lax : ∀ e l, Q (.error e) l) {userId : UserId} {provider providerId : String} (h : ShownIn past userId)
    {f : Unit → Action β} (hf : ∀ l, past <:+ l → (f ()).Along GoogleVetted Q l) :
    (UsersService.linkOauthAccountToUser userId provider providerId >>= f).Along GoogleVetted Q past := by
  apply along_bind
  apply along_tryCatch
  apply along_perform_bind
  · exact fun r => h
  · intro e
    by_cases hu : isPostgresUniqueViolation e = true
    · simp only [hu, if_true]
      apply along_perform_bind
      · exact fun r => trivial
      · exact fun e => lax e _
      intro byExternal
      have hs : past <:+ done (.findOauthAccount provider providerId) byExternal ::
          ⟨.insertOauthAccount none userId provider providerId, .error e⟩ :: past :=
        (List.suffix_cons _ _).trans (List.suffix_cons _ _)
      split_ifs with hlinked
      · exact hf _ hs
      · apply along_perform_bind
        · exact fun r => trivial
        · exact fun e => lax e _
        intro forUserProvider
        split_ifs with hsame
        · exact hf _ (hs.trans (List.suffix_cons _ _))
        · exact lax e _
    · simp only [hu]
      exact lax e _
  · intro account
    exact hf _ (List.suffix_cons _ _)

theorem linkByEmail_vetted {user : User} {provider providerId email : String} :
    (UsersService.linkByEmail user provider providerId).Along GoogleVetted VettedResult
      (done (.findUserByEmail email) (some user) :: past) := by
  have hlink : ∀ l, ShownIn l user.id → (do
      UsersService.linkOauthAccountToUser user.id provider providerId
      UsersService.findOne user.id : Action User).Along GoogleVetted VettedResult l := by
    intro l hl
    apply linkOauthAccountToUser_bind_vetted
    · exact VettedResult.error
    · exact hl
    · exact fun l' hl' => findOne_vetted (hl.suffix hl')
  by_cases hv : user.is_verified = true
  · simp only [UsersService.linkByEmail, hv]
    exact hlink _ (.head (.verified rfl hv))
  · simp only [UsersService.linkByEmail, hv]
    apply along_bind
    apply along_perform_bind
    · exact fun r hne => absurd rfl hne
    · exact fun e => .error e _
    intro updated
    apply along_perform_bind
    · exact fun r => trivial
    · exact fun e => .error e _
    intro row
    have hmarked : ShownIn (done (.findUser none user.id) row ::
        done (.updateUser user.id { is_verified := some true }) updated ::
          done (.findUserByEmail email) (some user) :: past) user.id :=
      (ShownIn.head .marked).suffix (List.suffix_cons _ _)
    cases row with
    | none => exact .error _ _
    | some marked => exact hlink _ hmarked

theorem createVerifiedUserWithOauthLink_vetted (params : CreateVerifiedUserWithOauthLinkParams) :
    (UserModelAction.createVerifiedUserWithOauthLink params).Along GoogleVetted VettedResult past := by
  apply along_perform_bind
  · exact fun r => trivial
  · exact fun e => .error e _
  intro tx
  have hrollback : ∀ (e : Failure) l, (rollback tx e : Action User).Along GoogleVetted VettedResult l := by
    intro e l
    apply along_bind
    apply along_tryCatch
    apply along_perform
    intro r
    refine ⟨trivial, ?_⟩
    cases r <;> exact .error e _
  apply along_tryCatch
  apply along_bind
  apply along_perform_bind
  · exact fun r => trivial
  · exact fun e => hrollback e _
  intro user
  apply along_perform_bind
  · exact fun r => .head .inserted
  · exact fun e => hrollback e _
  intro account
  apply along_perform_bind
  · exact fun r => trivial
  · exact fun e => hrollback e _
  intro row
  cases row with
  | none => exact hrollback _ _
  | some created =>
    apply along_perform_bind
    · exact fun r => trivial
    · exact fun e => hrollback e _
    intro _
    rintro user' ⟨⟩
    refine ⟨user.id, ?_, .inr ⟨some tx, created, by simp, rfl⟩⟩
    exact (ShownIn.head .inserted).suffix
      (((List.suffix_cons _ _).trans (List.suffix_cons _ _)).trans (List.suffix_cons _ _))

theorem resolve_vetted (provider : String) (profile : OAuthProfilePayload) (signupRole : Option OAuthSignupRole) :
    (UsersService.resolveOAuthUserFromProviderProfile provider profile signupRole).Along GoogleVetted VettedResult
      past := by
  apply along_perform_bind
  · exact fun r => trivial
  · exact fun e => .error e _
  intro linked
  cases linked with
  | some linked =>
    rintro user ⟨⟩
    exact ⟨linked.2.id, .head .linked, .inl rfl⟩
  | none =>
    apply along_perform_bind
    · exact fun r => trivial
    · exact fun e => .error e _
    intro row
    cases row with
    | some byEmail => exact linkByEmail_vetted
    | none =>
      apply along_tryCatch
      cases signupRole with
      | none => exact .error _ _
      | some role =>
        apply (createVerifiedUserWithOauthLink_vetted _).mono
        intro r l hr
        cases r with
        | ok user => exact hr
        | error e =>
          by_cases hu : isPostgresUniqueViolation e = true
          · simp only [hu]
            apply along_perform_bind
            · exact fun r => trivial
            · exact fun e' => .error e' _
            intro row
            cases row with
            | none => exact .error e _
            | some raced => exact linkByEmail_vetted
          · simp only [hu]
            exact .error e _

theorem issueTokens_vetted {Q : Except Failure AuthResult → List ApiCall → Prop} (hQ : ∀ r l, Q r l) {user : User}
    {message : String} (h : Vetted past user.id) :
    (AuthService.issueTokens env user message).Along GoogleVetted Q past := by
  apply along_bind
  apply along_perform_bind
  · exact fun r => h
  · exact fun e => hQ _ _
  intro access
  apply along_perform_bind
  · exact fun r => h.suffix (List.suffix_cons _ _)
  · exact fun e => hQ _ _
  intro refresh
  apply along_bind
  apply along_perform_bind
  · exact fun r => trivial
  · exact fun e => hQ _ _
  intro hash
  apply along_perform_bind
  · exact fun r _ => h.suffix (((List.suffix_cons _ _).trans (List.suffix_cons _ _)).trans (List.suffix_cons _ _))
  · exact fun e => hQ _ _
  exact fun updated => hQ _ _

theorem googleCallback_vetted (profile : GoogleProfile) (signupRole : Option OAuthSignupRole) :
    (handle env (.googleCallback profile signupRole)).Along GoogleVetted (fun _ _ => True) [] := by
  apply along_tryCatch
  apply along_bind
  apply along_bind
  apply (resolve_vetted _ _ _).mono
  intro r l hr
  cases r with
  | error e => trivial
  | ok user =>
    apply issueTokens_vetted
    · intro r l
      cases r <;> trivial
    · exact hr user rfl

theorem handle_linking (req : Request) : (handle env req).Along (Linking req) (fun _ _ => True) [] := by
  by_cases hreq : ∃ profile signupRole, req = .googleCallback profile signupRole
  · obtain ⟨profile, signupRole, rfl⟩ := hreq
    exact googleCallback_vetted profile signupRole
  · refine along_of_calls ?_ (handle_footprint env req) fun _ _ _ => trivial
    rintro ⟨o, r⟩ l hcall
    cases req
    case googleCallback profile signupRole => exact absurd ⟨profile, signupRole, rfl⟩ hreq
    all_goals
      rintro tx userId provider providerId rfl
      exact hreq hcall

end Google

section Known

variable {db : Database} {p : ApiPool}

def Known (l : List ApiEvent) (id : UserId) : Prop :=
  (∃ e ∈ l, Shows e.call id) ∨ ∃ token, Minted token l ∧ token.payload.sub = id

theorem known_of_mem {pid : ℕ} {l : List ApiEvent} {c : ApiCall} {id : UserId} (hc : c ∈ calls pid l)
    (h : Shows c id) : Known l id := by
  obtain ⟨e, he, -, rfl⟩ := mem_calls.mp hc
  exact .inl ⟨e, he, h⟩

theorem read_id (hp : (api env).Reachable (.start db) p) {l₁ l₂ : List ApiEvent} {e : ApiEvent}
    (htrace : p.world.trace = l₁ ++ e :: l₂) {tx : Option TxId} {id : UserId} {user : User}
    (h : done (.findUser tx id) (some user) ∈ calls e.pid l₂) : user.id = id := by
  obtain ⟨e', he', -, hcall⟩ := exists_of_mem_calls htrace h
  exact findById_id (findUser_eq hp he' hcall)

theorem known_of_vetted (hp : (api env).Reachable (.start db) p) {l₁ l₂ : List ApiEvent} {e : ApiEvent}
    (htrace : p.world.trace = l₁ ++ e :: l₂) {id : UserId} (h : Vetted (calls e.pid l₂) id) : Known l₂ id := by
  obtain ⟨id', ⟨c, hc, hshows⟩, rfl | ⟨tx, user, hmem, rfl⟩⟩ := h
  · exact known_of_mem hc hshows
  · rw [read_id hp htrace hmem]
    exact known_of_mem hc hshows

theorem known_of_presented (hp : (api env).Reachable (.start db) p) {l₁ l₂ : List ApiEvent} {e : ApiEvent}
    (htrace : p.world.trace = l₁ ++ e :: l₂) {token : Jwt} (hmem : token ∈ e.req.jwts)
    (hsecret : serverSecret env token) : Known l₂ token.payload.sub :=
  .inr ⟨token, (htrace ▸ (presented hp).2).at token hmem hsecret, rfl⟩

theorem known_of_issues (hp : (api env).Reachable (.start db) p) {l₁ l₂ : List ApiEvent} {e : ApiEvent}
    (htrace : p.world.trace = l₁ ++ e :: l₂) {user : User} {past later : List ApiCall}
    (issues : Issues env e.req user past) (history : calls e.pid l₂ = later ++ past)
    (other : ∀ profile signupRole, e.req ≠ .googleCallback profile signupRole) : Known l₂ user.id := by
  have hpast : ∀ c ∈ past, c ∈ calls e.pid l₂ := fun c hc => history ▸ List.mem_append_right _ hc
  generalize hreq : e.req = req at issues
  cases issues with
  | login verified => exact known_of_mem (hpast _ List.mem_cons_self) (.verified rfl verified)
  | verifyEmail verified =>
    exact known_of_mem (hpast _ (List.mem_append_right _ List.mem_cons_self)) (.verified rfl verified)
  | @verifyEmailFirst email code row user otp updated =>
    rw [read_id hp htrace (hpast _ List.mem_cons_self)]
    exact known_of_mem (hpast _ (List.mem_cons_of_mem _ List.mem_cons_self)) .marked
  | googleCallback row first => exact absurd hreq (other _ _)
  | @verify2fa token code stored secret user payload now now' admitted =>
    obtain ⟨hsecret, -, rfl⟩ := Jwt.verify_eq_ok.mp admitted
    rw [read_id hp htrace (hpast _ (List.mem_cons_of_mem _ List.mem_cons_self))]
    exact known_of_presented hp htrace (by simp [hreq, Request.jwts]) (.inl hsecret)
  | refresh admitted stored => exact known_of_mem (hpast _ List.mem_cons_self) (.session rfl stored)
  | @onboarding req c token row user payload now past request presented admitted =>
    obtain ⟨hsecret, -, rfl⟩ := Jwt.verify_eq_ok.mp admitted
    have hguard := hpast _ (List.mem_cons_of_mem _ (List.mem_append_right past List.mem_cons_self))
    rw [read_id hp htrace (hpast _ List.mem_cons_self), read_id hp htrace hguard]
    refine known_of_presented hp htrace ?_ (.inl hsecret)
    exact mem_jwts_of_credentials (credentials_of_onboarding (hreq ▸ request)) presented

/-- What is known of the user when the request signs a token, stores a session, links or marks an account. -/
structure VettedStep (e : ApiEvent) (l : List ApiEvent) : Prop where
  update : ∀ id payload, e.op = .updateUser id payload → payload.is_verified ≠ some false ∧
    (payload.refreshTokenHash.join ≠ none → Known l id) ∧
    (payload.is_verified = some true → ∃ e' ∈ l, ∃ user, userRow e'.call = some user ∧ user.id = id)
  rotate : ∀ id currentHash nextHash, e.op = .rotateRefreshTokenHash id currentHash nextHash → Known l id
  save : ∀ tx payload, e.op = .insertUser (some tx) payload → payload.is_verified = true
  link : ∀ tx userId provider providerId, e.op = .insertOauthAccount tx userId provider providerId → Known l userId
  sign : ∀ payload jti secret expiresIn, e.op = .signAsync payload jti secret expiresIn → Known l payload.sub

theorem linking (hp : (api env).Reachable (.start db) p) {l₁ l₂ : List ApiEvent} {e : ApiEvent}
    (htrace : p.world.trace = l₁ ++ e :: l₂) : Linking e.req e.call (calls e.pid l₂) :=
  (htrace ▸ (System.Reachable.along handle_linking hp).2).at

theorem known_of_call (hp : (api env).Reachable (.start db) p) {l₁ l₂ : List ApiEvent} {e : ApiEvent}
    (htrace : p.world.trace = l₁ ++ e :: l₂) {user : User} {past later : List ApiCall}
    (issues : Issues env e.req user past) (history : calls e.pid l₂ = later ++ past)
    (hgoogle : GoogleVetted e.call (calls e.pid l₂) → Vetted (calls e.pid l₂) user.id) : Known l₂ user.id := by
  have hlinking := linking hp htrace
  by_cases hreq : ∃ profile signupRole, e.req = .googleCallback profile signupRole
  · obtain ⟨profile, signupRole, hreq⟩ := hreq
    rw [hreq] at hlinking
    exact known_of_vetted hp htrace (hgoogle hlinking)
  · exact known_of_issues hp htrace issues history fun profile signupRole h => hreq ⟨profile, signupRole, h⟩

theorem vetted_update (hp : (api env).Reachable (.start db) p) {l₁ l₂ : List ApiEvent} {e : ApiEvent}
    (htrace : p.world.trace = l₁ ++ e :: l₂) {id : UserId} {payload : UserPayload}
    (hop : e.op = .updateUser id payload) : payload.is_verified ≠ some false ∧
      (payload.refreshTokenHash.join ≠ none → Known l₂ id) ∧
      (payload.is_verified = some true → ∃ e' ∈ l₂, ∃ user, userRow e'.call = some user ∧ user.id = id) := by
  have hex : Explained env e.req e.call (calls e.pid l₂) := (htrace ▸ explained hp).at
  have hread : ∀ c user, c ∈ calls e.pid l₂ → userRow c = some user → user.id = id →
      ∃ e' ∈ l₂, ∃ user, userRow e'.call = some user ∧ user.id = id := by
    intro c user hc hrow hid
    obtain ⟨e', he', -, rfl⟩ := mem_calls.mp hc
    exact ⟨e', he', user, hrow, hid⟩
  obtain ⟨pid, req, before, op, reply⟩ := e
  change op = _ at hop
  subst hop
  change UserWrite env req id payload (calls pid l₂) at hex
  generalize hcalls : calls pid l₂ = past at hex hread
  cases hex with
  | @session req user tokens hash past issues other =>
    refine ⟨nofun, fun _ => ?_, nofun⟩
    refine known_of_call hp htrace issues (show _ = hashed env user tokens hash ++ past from hcalls) fun h => ?_
    exact h nofun
  | verifyEmail =>
    exact ⟨nofun, nofun, fun _ => hread _ _ (List.mem_append_right _ List.mem_cons_self) rfl rfl⟩
  | linkByEmail => exact ⟨nofun, nofun, fun _ => hread _ _ List.mem_cons_self rfl rfl⟩
  | _ => exact ⟨nofun, fun h => absurd rfl h, nofun⟩

theorem vettedStep (hp : (api env).Reachable (.start db) p) {l₁ l₂ : List ApiEvent} {e : ApiEvent}
    (htrace : p.world.trace = l₁ ++ e :: l₂) : VettedStep e l₂ := by
  have hex : Explained env e.req e.call (calls e.pid l₂) := (htrace ▸ explained hp).at
  have hlinking := linking hp htrace
  refine ⟨fun id payload hop => vetted_update hp htrace hop, ?_, ?_, ?_, ?_⟩
  · intro id currentHash nextHash hop
    obtain ⟨pid, req, before, op, reply⟩ := e
    change op = _ at hop
    subst hop
    obtain ⟨user, tokens, past', issues, ⟨token, hreq⟩, rfl, -, hpast⟩ := hex
    refine known_of_issues hp htrace issues (show _ = hashed env user tokens nextHash ++ past' from hpast) ?_
    change req = _ at hreq
    simp [hreq]
  · intro tx payload hop
    obtain ⟨pid, req, before, op, reply⟩ := e
    change op = _ at hop
    subst hop
    change UserInsert req (some tx) payload _ at hex
    cases hex with
    | googleCallback email password verified => exact verified
  · intro tx userId provider providerId hop
    obtain ⟨pid, req, before, op, reply⟩ := e
    change op = _ at hop
    subst hop
    cases req with
    | googleCallback profile signupRole =>
      obtain ⟨c, hc, hshows⟩ : ShownIn (calls pid l₂) userId := hlinking
      exact known_of_mem hc hshows
    | _ => exact absurd rfl (hlinking tx userId provider providerId)
  · intro payload jti secret expiresIn hop
    obtain ⟨pid, req, before, op, reply⟩ := e
    change op = _ at hop
    subst hop
    change Signs env req (.signAsync payload jti secret expiresIn) (calls pid l₂) at hex
    generalize hcalls : calls pid l₂ = past at hex
    cases hex with
    | access issues =>
      exact known_of_call hp htrace issues (show _ = [] ++ _ from hcalls) fun h => h
    | @refresh _ user access past' issues =>
      exact known_of_call hp htrace issues (show _ = [_] ++ past' from hcalls) fun h => h
    | state verified enabled =>
      exact known_of_mem (hcalls ▸ List.mem_cons_self) (.verified rfl verified)

end Known

section Invariant

variable {db t : Database} {o : Op} {reply : Reply o} {id : UserId} {pid : ℕ} {req : Request}

def Settled (db : Database) (id : UserId) : Prop :=
  id < db.fresh ∧ ∀ user ∈ db.tables.users, user.id = id → user.is_verified = true

def Write.Verified (db : Database) : Write → Prop
  | insertUser payload _ _ => payload.is_verified = true
  | insertOauthAccount account => Settled db account.user_id
  | _ => True

structure VerifiedOnly (w : World backend Database Request) : Prop where
  constraints : w.state.Constraints
  pending : Pending (Write.Verified w.state) w.state
  sessions : ∀ user ∈ w.state.tables.users, user.refreshTokenHash ≠ none → user.is_verified = true
  links : ∀ account ∈ w.state.tables.oauthAccounts, Settled w.state account.user_id
  shown : ∀ e ∈ w.trace, ∀ id, Shows e.call id → Settled w.state id
  read : ∀ e ∈ w.trace, ∀ user, userRow e.call = some user → user.id < w.state.fresh
  minted : ∀ token, Minted token w.trace → Settled w.state token.payload.sub

theorem VerifiedOnly.known {w : World backend Database Request} (h : VerifiedOnly w) (hk : Known w.trace id) :
    Settled w.state id := by
  rcases hk with ⟨e, he, hshows⟩ | ⟨token, hm, rfl⟩
  · exact h.shown e he id hshows
  · exact h.minted token hm

/-- A row that is read is the committed one of its id, up to the flag that its own transaction has set. -/
theorem Database.Constraints.read (hc : db.Constraints) {tx : Option TxId} {user : User}
    (h : user ∈ (db.view tx).users) : user.id < db.fresh ∧ ∀ user' ∈ db.tables.users, user'.id = user.id →
      user = user' ∨ user = { user' with onboarding_complete := true } := by
  have hcommitted : ∀ old ∈ db.tables.users, old.id < db.fresh := fun old hold =>
    hc.rowIds old.row (List.mem_append_left _ (List.mem_map_of_mem hold))
  cases tx with
  | none => exact ⟨hcommitted user h, fun user' hu' hid => .inl (hc.eq_of_id h hu' hid.symm)⟩
  | some tx =>
    obtain ⟨old, hbase, hrow⟩ := mem_users_foldl h
    replace hrow := hrow.imp_right And.left
    rcases hbase with hold | ⟨payload, i, createdAt, hmem, hold⟩
    · have hid : user.id = old.id := by rcases hrow with rfl | rfl <;> rfl
      refine ⟨hid ▸ hcommitted old hold, fun user' hu' hid' => ?_⟩
      rw [hc.eq_of_id hu' hold (hid'.trans hid)]
      exact hrow
    · have hid : user.id = i := by rcases hrow with rfl | rfl <;> rw [hold] <;> rfl
      obtain ⟨hlt, hnone⟩ := hc.pending_row hmem
      exact ⟨hid ▸ hlt, fun user' hu' hid' => absurd (hid'.trans hid) (hnone user' hu')⟩

theorem mem_of_userRow {r : o.Res} {ω : Draw} {user : User} (h : exec o ω db = some (.ok r, t))
    (hrow : userRow (done o r) = some user) : ∃ tx, user ∈ (db.view tx).users := by
  cases o with
  | findUser tx i =>
    injection h with h
    injection h with hreply
    injection hreply with hreply
    have hfound : findById (db.view tx).users i = some user := hreply.trans hrow
    exact ⟨tx, List.mem_of_find?_eq_some hfound⟩
  | findUserByEmail email =>
    injection h with h
    injection h with hreply
    injection hreply with hreply
    have hfound : db.tables.users.find? (fun user => user.email = email) = some user := hreply.trans hrow
    exact ⟨none, List.mem_of_find?_eq_some hfound⟩
  | findOauthAccount provider providerId =>
    injection h with h
    injection h with hreply
    injection hreply with hreply
    have hfound : (db.findOauthAccount provider providerId).map Prod.snd = some user := by
      rw [show db.findOauthAccount provider providerId = r from hreply]
      exact hrow
    unfold Database.findOauthAccount at hfound
    split at hfound
    · cases hfound
    · rw [Option.map_map] at hfound
      obtain ⟨user', hu', rfl⟩ := Option.map_eq_some_iff.mp hfound
      exact ⟨none, List.mem_of_find?_eq_some hu'⟩
  | _ => cases hrow

variable {w : World backend Database Request}

theorem kept_origin {user : User} (hmem : user ∈ db.tables.users) : ∃ old ∈ db.tables.users, old.id = user.id ∧
    (old.is_verified = true → user.is_verified = true) ∧
    (user.refreshTokenHash ≠ none → old.refreshTokenHash ≠ none ∨ Settled db old.id) :=
  ⟨user, hmem, rfl, fun h => h, .inl⟩

theorem VerifiedOnly.origin (h : VerifiedOnly w) (hstep : VettedStep ⟨pid, req, w.state, o, reply⟩ w.trace)
    (he : Effect w.state o reply t) {user : User} (hmem : user ∈ t.tables.users) :
    (∃ old ∈ w.state.tables.users, old.id = user.id ∧ (old.is_verified = true → user.is_verified = true) ∧
      (user.refreshTokenHash ≠ none → old.refreshTokenHash ≠ none ∨ Settled w.state old.id)) ∨
    user.refreshTokenHash = none ∧ (user.id = w.state.fresh ∨ user.is_verified = true) := by
  cases he.row_origin hmem with
  | kept old => exact .inl (kept_origin old)
  | inserted new =>
    subst new
    exact .inr ⟨rfl, .inl rfl⟩
  | @updated payload old row hold =>
    left
    obtain ⟨hverified, hsession, -⟩ := hstep.update old.id payload rfl
    refine ⟨old, hold, rfl, fun hold => ?_, fun hne => ?_⟩
    · rw [UserPayload.apply_is_verified]
      rcases hpayload : payload.is_verified with - | (- | -)
      · exact hold
      · exact absurd hpayload hverified
      · rfl
    · rw [UserPayload.apply_refreshTokenHash] at hne
      rcases hpayload : payload.refreshTokenHash with - | (- | hash)
      · exact .inl (by simpa [hpayload] using hne)
      · simp [hpayload] at hne
      · exact .inr (h.known (hsession (by simp [hpayload])))
  | @rotated currentHash nextHash old hold =>
    exact .inl ⟨old, hold, rfl, fun h => h, fun _ => .inr (h.known (hstep.rotate old.id _ _ rfl))⟩
  | @committed tx old user' base row =>
    replace row := row.imp_right And.left
    rcases base with hold | ⟨payload, i, createdAt, hpending, rfl⟩
    · left
      rcases row with rfl | rfl
      · exact kept_origin hold
      · exact ⟨old, hold, rfl, fun h => h, .inl⟩
    · have hverified : payload.is_verified = true := h.pending.pending tx _ hpending
      right
      rcases row with rfl | rfl <;> exact ⟨rfl, .inr hverified⟩

theorem VerifiedOnly.settled (h : VerifiedOnly w) (hstep : VettedStep ⟨pid, req, w.state, o, reply⟩ w.trace)
    (he : Effect w.state o reply t) (hs : Settled w.state id) : Settled t id := by
  refine ⟨Nat.lt_of_lt_of_le hs.1 he.fresh_le, fun user hmem hid => ?_⟩
  rcases h.origin hstep he hmem with ⟨old, hold, holdid, hverified, -⟩ | ⟨-, hfresh | hverified⟩
  · exact hverified (hs.2 old hold (holdid.trans hid))
  · exact absurd (hid.symm.trans hfresh) (Nat.ne_of_lt hs.1)
  · exact hverified

theorem VerifiedOnly.sessions_step (h : VerifiedOnly w)
    (hstep : VettedStep ⟨pid, req, w.state, o, reply⟩ w.trace) (he : Effect w.state o reply t) {user : User}
    (hmem : user ∈ t.tables.users) (hne : user.refreshTokenHash ≠ none) : user.is_verified = true := by
  rcases h.origin hstep he hmem with ⟨old, hold, -, hverified, hsession⟩ | ⟨hnone, -⟩
  · rcases hsession hne with hne | hs
    · exact hverified (h.sessions old hold hne)
    · exact hverified (hs.2 old hold rfl)
  · exact absurd hnone hne

theorem VerifiedOnly.links_step (h : VerifiedOnly w)
    (hstep : VettedStep ⟨pid, req, w.state, o, reply⟩ w.trace) (he : Effect w.state o reply t) :
    ∀ account ∈ t.tables.oauthAccounts, Settled w.state account.user_id := by
  cases he with
  | @linked userId provider providerId found =>
    intro account hmem
    rcases List.mem_append.mp hmem with hmem | hmem
    · exact h.links account hmem
    · obtain rfl := List.mem_singleton.mp hmem
      exact h.known (hstep.link none userId provider providerId rfl)
  | @committed tx =>
    intro account hmem
    change account ∈ ((w.state.pending tx).foldl Write.apply w.state.tables).oauthAccounts at hmem
    rw [links_foldl] at hmem
    rcases List.mem_append.mp hmem with hmem | hmem
    · exact h.links account hmem
    · obtain ⟨write, hwrite, haccount⟩ := List.mem_flatMap.mp hmem
      have hverified := h.pending.pending tx write hwrite
      cases write with
      | insertOauthAccount account' =>
        obtain rfl := List.mem_singleton.mp haccount
        exact hverified
      | _ => cases haccount
  | _ => exact h.links

theorem VerifiedOnly.pending_step (h : VerifiedOnly w)
    (hstep : VettedStep ⟨pid, req, w.state, o, reply⟩ w.trace) (ha : server.Answers o w.state reply t) :
    Pending (Write.Verified t) t := by
  have hsettled : ∀ id, Settled w.state id → Settled t id := fun id => h.settled hstep (answers_effect ha)
  have hmono : Pending (Write.Verified t) w.state := by
    refine h.pending.imp fun write hwrite => ?_
    cases write with
    | insertOauthAccount account => exact hsettled _ hwrite
    | _ => exact hwrite
  refine hmono.step (answers_transactions ha) fun tx write hsaves => ?_
  cases hsaves with
  | insertUser => exact hstep.save tx _ rfl
  | insertOauthAccount => exact hsettled _ (h.known (hstep.link (some tx) _ _ _ rfl))
  | _ => trivial

theorem VerifiedOnly.read_row (h : VerifiedOnly w) (ha : server.Answers o w.state reply t) {user : User}
    (hrow : userRow ⟨o, reply⟩ = some user) : user.id < w.state.fresh ∧
      ∀ user' ∈ w.state.tables.users, user'.id = user.id →
        user'.is_verified = user.is_verified ∧ user'.refreshTokenHash = user.refreshTokenHash := by
  rcases ha with ⟨ω, hexec⟩ | ⟨e, -, rfl, -⟩
  · cases reply with
    | error e => cases o <;> cases hrow
    | ok r =>
      obtain ⟨tx, hmem⟩ := mem_of_userRow hexec hrow
      obtain ⟨hlt, hcommitted⟩ := h.constraints.read hmem
      refine ⟨hlt, fun user' hu' hid => ?_⟩
      rcases hcommitted user' hu' hid with rfl | rfl <;> exact ⟨rfl, rfl⟩
  · cases o <;> cases hrow

theorem verified_of_marked {row : Option User}
    (h : db.updateUser id { is_verified := some true } = some (.ok row, t)) :
    ∀ user ∈ t.tables.users, user.id = id → user.is_verified = true := by
  cases hfound : findById db.tables.users id with
  | none =>
    simp only [updateUser, hfound] at h
    injection h with h
    injection h with hreply ht
    subst ht
    intro user hmem hid
    exact absurd (by simpa using hid) (List.find?_eq_none.mp hfound user hmem)
  | some user =>
    simp only [updateUser, hfound] at h
    split_ifs at h
    · cases h
    · cases h
    · cases h
    · injection h with h
      injection h with hreply ht
      subst ht
      intro user hmem hid
      obtain ⟨old, hold, rfl⟩ := List.mem_map.mp hmem
      split_ifs at hid ⊢ with hold
      · rfl
      · exact absurd hid hold

theorem VerifiedOnly.marked (h : VerifiedOnly w) (hstep : VettedStep ⟨pid, req, w.state, o, reply⟩ w.trace)
    (ha : server.Answers o w.state reply t) {row : Option User}
    (hcall : (⟨o, reply⟩ : ApiCall) = done (.updateUser id { is_verified := some true }) row) : Settled t id := by
  cases hcall
  have hlt : id < w.state.fresh := by
    obtain ⟨e, he, user, hrow, rfl⟩ := (hstep.update id _ rfl).2.2 rfl
    exact h.read e he user hrow
  have hle := (answers_effect ha).fresh_le
  rcases ha with ⟨ω, hexec⟩ | ⟨e, -, herror, -⟩
  · exact ⟨Nat.lt_of_lt_of_le hlt hle, verified_of_marked hexec⟩
  · cases herror

theorem VerifiedOnly.shown_step (h : VerifiedOnly w) (hstep : VettedStep ⟨pid, req, w.state, o, reply⟩ w.trace)
    (ha : server.Answers o w.state reply t) (hs : Shows ⟨o, reply⟩ id) : Settled t id := by
  have hsettled : ∀ id, Settled w.state id → Settled t id := fun id => h.settled hstep (answers_effect ha)
  generalize hcall : (⟨o, reply⟩ : ApiCall) = c at hs
  cases hs with
  | verified row verified =>
    subst hcall
    obtain ⟨hlt, hrows⟩ := h.read_row ha row
    exact hsettled _ ⟨hlt, fun user' hu' hid => (hrows user' hu' hid).1.trans verified⟩
  | @session _ user hash row stored =>
    subst hcall
    obtain ⟨hlt, hrows⟩ := h.read_row ha row
    refine hsettled _ ⟨hlt, fun user' hu' hid => h.sessions user' hu' ?_⟩
    rw [(hrows user' hu' hid).2, stored]
    exact Option.some_ne_none hash
  | @linked provider providerId account user =>
    cases hcall
    obtain ⟨ω, hexec⟩ | ⟨e, -, herror, -⟩ := ha
    · injection hexec with hexec
      injection hexec with hreply
      injection hreply with hfound
      unfold Database.findOauthAccount at hfound
      split at hfound
      · cases hfound
      · rename_i linked hlinked
        obtain ⟨user', hu', hpair⟩ := Option.map_eq_some_iff.mp hfound
        cases hpair
        rw [findById_id hu']
        exact hsettled _ (h.links _ (List.mem_of_find?_eq_some hlinked))
    · cases herror
  | marked => exact h.marked hstep ha hcall
  | @inserted tx payload user =>
    cases hcall
    have he := answers_effect ha
    generalize hreply : (Except.ok user : Reply (.insertUser (some tx) payload)) = reply at he
    cases he with
    | unchanged h =>
      subst hreply
      cases h
    | drawn h => cases h
    | saved h => cases h
    | savedUser =>
      cases hreply
      refine ⟨Nat.lt_succ_self _, fun user' hu' hid => ?_⟩
      have hlt := h.constraints.rowIds user'.row (List.mem_append_left _ (List.mem_map_of_mem hu'))
      exact absurd hid (Nat.ne_of_lt hlt)

theorem VerifiedOnly.perform (h : VerifiedOnly w) (hstep : VettedStep ⟨pid, req, w.state, o, reply⟩ w.trace)
    (hsub : ∀ token, SkillBridge.minted ⟨o, reply⟩ = some token → Known w.trace token.payload.sub)
    (ha : server.Answers o w.state reply t) : VerifiedOnly (w.perform pid req o reply t) := by
  have he := answers_effect ha
  have hsettled : ∀ id, Settled w.state id → Settled t id := fun id => h.settled hstep he
  refine ⟨h.constraints.step he, h.pending_step hstep ha, fun user => h.sessions_step hstep he,
    fun account hmem => hsettled _ (h.links_step hstep he account hmem), ?_, ?_, ?_⟩
  · intro e hmem id hs
    rcases List.mem_cons.mp hmem with rfl | hmem
    · exact h.shown_step hstep ha hs
    · exact hsettled _ (h.shown e hmem id hs)
  · intro e hmem user hrow
    rcases List.mem_cons.mp hmem with rfl | hmem
    · exact Nat.lt_of_lt_of_le (h.read_row ha hrow).1 he.fresh_le
    · exact Nat.lt_of_lt_of_le (h.read e hmem user hrow) he.fresh_le
  · rintro token ⟨e, hmem, hm⟩
    rcases List.mem_cons.mp hmem with rfl | hmem
    · exact hsettled _ (h.known (hsub token hm))
    · exact hsettled _ (h.minted token ⟨e, hmem, hm⟩)

end Invariant

section Runs

variable {db : Database} {p : ApiPool}

/-- At most verified users without linked accounts, such as the administrator that the seed creates. -/
structure Seeded (db : Database) : Prop where
  constraints : db.Constraints
  idle : db.transactions = []
  verified : ∀ user ∈ db.tables.users, user.is_verified = true
  unlinked : db.tables.oauthAccounts = []

theorem verifiedOnly (hseed : Seeded db) (hp : (api env).Reachable (.start db) p) : VerifiedOnly p.world := by
  have hstart : VerifiedOnly ⟨db, []⟩ := by
    refine ⟨hseed.constraints, .of_idle hseed.idle, fun user hmem _ => hseed.verified user hmem, ?_, ?_, ?_, ?_⟩
    · simp [hseed.unlinked]
    · exact fun e he => absurd he List.not_mem_nil
    · exact fun e he => absurd he List.not_mem_nil
    · exact fun token ⟨e, he, _⟩ => absurd he List.not_mem_nil
  refine System.Reachable.invariant
    (C := fun e l => VettedStep e l ∧ ∀ token, minted e.call = some token → Known l token.payload.sub)
    hstart ?_ ?_ hp (justified_of_split fun l₁ e l₂ htrace => ⟨vettedStep hp htrace, fun token hm => ?_⟩)
  · exact fun m w h => ⟨h.constraints.tick, h.pending, h.sessions, h.links, h.shown, h.read, h.minted⟩
  · exact fun w pid req o reply t h ha hC => h.perform hC.1 hC.2 ha
  · obtain ⟨payload, jti, secret, expiresIn, hcall⟩ := exists_of_minted hm
    rw [token_eq hp (by rw [htrace]; simp) hcall]
    obtain ⟨pid, req, before, rfl⟩ := Event.exists_of_call hcall
    exact (vettedStep hp htrace).sign payload jti secret expiresIn rfl

theorem only_verified_users_hold_sessions (hseed : Seeded db) (hp : (api env).Reachable (.start db) p) :
    (∀ user ∈ p.world.state.tables.users, user.refreshTokenHash ≠ none → user.is_verified = true) ∧
    (∀ account ∈ p.world.state.tables.oauthAccounts, ∀ user ∈ p.world.state.tables.users,
      user.id = account.user_id → user.is_verified = true) ∧
    ∀ token, Minted token p.world.trace → ∀ user ∈ p.world.state.tables.users,
      user.id = token.payload.sub → user.is_verified = true := by
  have h := verifiedOnly hseed hp
  exact ⟨h.sessions, fun account hmem => (h.links account hmem).2, fun token hm => (h.minted token hm).2⟩

def sampleProfile : GoogleProfile where
  email := "ada@example.com"
  firstName := "Ada"
  lastName := "Byron"
  picture := ""
  providerId := "google-7"
  fits := by decide
  fitsIdentity := by decide

def googleSignUpRun : Option ApiPool :=
  (api sampleEnv).play (.start (sampleDatabase []))
    [.spawn (.googleCallback sampleProfile (some .talent)), .run 0 {}, .run 0 {}, .run 0 {}, .run 0 {}, .run 0 {},
      .run 0 {}, .run 0 {}, .run 0 {}, .run 0 {}, .run 0 {}, .run 0 {}]

theorem googleSignUpRun_isSome : googleSignUpRun.isSome = true := rfl

theorem seeded_sampleDatabase : Seeded (sampleDatabase []) :=
  ⟨⟨.nil, by simp [rows, pendingOf, sampleDatabase], by simp [links, pendingOf, sampleDatabase], .nil,
    by simp [sampleDatabase]⟩, rfl, by simp [sampleDatabase], rfl⟩

theorem seeded_singleton {user : User} (verified : user.is_verified = true) (hid : user.id < 10) :
    Seeded (sampleDatabase [user]) := by
  refine ⟨⟨?_, ?_, by simp [links, pendingOf, sampleDatabase], .nil, by simp [sampleDatabase]⟩, rfl, ?_, rfl⟩
  · simp [rows, pendingOf, sampleDatabase]
  · simpa [rows, pendingOf, sampleDatabase, User.row] using hid
  · simpa [sampleDatabase] using verified

theorem verified_in_googleSignUpRun :
    ∃ user ∈ (googleSignUpRun.get googleSignUpRun_isSome).world.state.tables.users,
      user.refreshTokenHash ≠ none ∧ user.is_verified = true := by
  have hp := System.reachable_of_play (Option.some_get googleSignUpRun_isSome).symm
  have hsession : ((googleSignUpRun.get googleSignUpRun_isSome).world.state.tables.users.any fun user =>
      user.refreshTokenHash.isSome) = true := by decide +kernel
  obtain ⟨user, hmem, hsome⟩ := List.any_eq_true.mp hsession
  have hne := Option.isSome_iff_ne_none.mp hsome
  exact ⟨user, hmem, hne, (only_verified_users_hold_sessions seeded_sampleDatabase hp).1 user hmem hne⟩

end Runs

end SkillBridge
