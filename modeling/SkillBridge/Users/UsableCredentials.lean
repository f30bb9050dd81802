import SkillBridge.Users.Deletion
import SkillBridge.Users.StoredPasswords

set_option autoImplicit false

/-! Every account can be signed in to, with a password or with Google. -/

namespace SkillBridge

open Interleaving Database Prog

structure UsableCredentials (validator : Validator) (t : Tables) : Prop where
  hashes : ∀ user ∈ t.users, ∀ hash, user.password = some hash → validPassword validator hash.plain
  signIn : ∀ user ∈ t.users, user.password ≠ none ∨ t.links user.id = true

/-- A password is set to `NULL` only for a user with a linked account. -/
def PasswordKept (db : Database) : ApiCall → Prop
  | ⟨.updateUser id payload, .ok (some _)⟩ => payload.password = some none → db.tables.links id = true
  | _ => True

theorem passwordKept_iff {db : Database} {call : ApiCall} : PasswordKept db call ↔
    ∀ u ∈ updatedRow call, u.2.password = some none → db.tables.links u.1 = true := by
  unfold PasswordKept updatedRow
  split <;> simp

instance (db : Database) (call : ApiCall) : Decidable (PasswordKept db call) := decidable_of_iff _ passwordKept_iff.symm

def StoresValidly (validator : Validator) : ApiCall → Prop
  | ⟨.insertUser tx payload, _⟩ => (tx = none → payload.password ≠ none) ∧
    ∀ hash, payload.password = some hash → validPassword validator hash.plain
  | ⟨.updateUser _ payload, _⟩ => ∀ hash, payload.password = some (some hash) → validPassword validator hash.plain
  | _ => True

def RepliesWithLinks (past : List ApiCall) : Prop := ∀ tx userId provider providerId account,
  done (.insertOauthAccount tx userId provider providerId) account ∈ past → account.user_id = userId

structure PasswordStep (validator : Validator) (e : HttpEvent) (l : List HttpEvent) : Prop where
  transacts : Transacts e.call (calls e.pid l)
  stores : StoresValidly validator e.call
  replies : RepliesWith (calls e.pid l)
  links : RepliesWithLinks (calls e.pid l)

section Commits

def LinksNewUsers (writes : List Write) : Prop := ∀ payload id createdAt,
  Write.insertUser payload id createdAt ∈ writes →
    ∃ account, Write.insertOauthAccount account ∈ writes ∧ account.user_id = id

theorem linksNewUsers_of_committing {tx : TxId} {past : List ApiCall} (h : Committing tx past)
    (hreplies : RepliesWith past) (hlinks : RepliesWithLinks past) :
    ∃ writes, openWrites tx past = some writes ∧ LinksNewUsers writes := by
  cases h with
  | @onboarding id past hsaved =>
    obtain ⟨w, kind, hwrites, hprofile⟩ := hsaved.openWrites fun tx id o r hsaves hmem =>
      hreplies tx id o r hsaves (List.mem_cons_of_mem _ hmem)
    refine ⟨_, openWrites_saved rfl rfl rfl hwrites, fun payload id' createdAt hmem => ?_⟩
    rcases List.mem_append.mp hmem with hmem | hmem
    · obtain rfl := List.mem_singleton.mp hmem
      cases hprofile
    · cases List.mem_singleton.mp hmem
  | @signUp user account row payload provider providerId past =>
    have haccount : account.user_id = user.id := hlinks (some tx) user.id provider providerId account (by simp)
    refine ⟨[.insertUser payload user.id user.createdAt, .insertOauthAccount account], ?_, ?_⟩
    · refine Eq.trans (openWrites_outside rfl rfl) ?_
      exact openWrites_saved rfl rfl rfl (openWrites_saved rfl rfl rfl (openWrites_started tx past))
    · intro payload' id createdAt hmem
      refine ⟨account, by simp, ?_⟩
      rcases List.mem_cons.mp hmem with heq | hmem
      · cases heq
        exact haccount
      · cases List.mem_singleton.mp hmem

end Commits

section Links

variable {validator : Validator} {t : Tables} {id : UserId}

theorem links_iff : t.links id = true ↔ ∃ account ∈ t.oauthAccounts, account.user_id = id := by
  simp [Tables.links]

theorem links_append {t' : Tables} {accounts : List OAuthUser} (h : t'.oauthAccounts = t.oauthAccounts ++ accounts)
    (hlinks : t.links id = true) : t'.links id = true := by
  obtain ⟨account, hmem, hid⟩ := links_iff.mp hlinks
  exact links_iff.mpr ⟨account, h ▸ List.mem_append_left _ hmem, hid⟩

theorem Database.Effect.links_mono {db t : Database} {o : Op} {reply : Reply o} (he : Effect db o reply t)
    (h : db.tables.links id = true) : t.tables.links id = true := by
  cases he with
  | linked found => exact links_append rfl h
  | @committed tx => exact links_append (links_foldl (db.pending tx) db.tables) h
  | _ => exact h

theorem mem_links_of_committed {db t : Database} {tx : TxId} {account : OAuthUser}
    (he : Effect db (.commitTransaction tx) (.ok ()) t) (hpending : .insertOauthAccount account ∈ db.pending tx) :
    account ∈ t.tables.oauthAccounts := by
  rw [he.commit_inv, view, links_foldl]
  exact List.mem_append_right _ (List.mem_flatMap.mpr ⟨_, hpending, List.mem_singleton_self _⟩)

theorem UsableCredentials.links_of_cleared {db t : Database} {payload : UserPayload} {row : User}
    (hu : UsableCredentials validator t.tables) (he : Effect db (.updateUser id payload) (.ok (some row)) t)
    (hcleared : payload.password = some none) : db.tables.links id = true := by
  obtain ⟨user, found, -, rfl⟩ := he.updateUser_inv
  rcases hu.signIn _ (mem_update (List.mem_of_find?_eq_some found) (findById_id found)) with hpassword | hlinks
  · rw [UserPayload.apply_password, hcleared] at hpassword
    exact absurd rfl hpassword
  · rw [UserPayload.apply_id, findById_id found] at hlinks
    exact hlinks

end Links

section Step

variable {validator : Validator} {w : ServerWorld HttpRequest} {pid : ℕ} {req : HttpRequest} {o : Op}
  {reply : Reply o} {t : Database} {tx : TxId} {user : User}

def Write.StoresValidly (validator : Validator) : Write → Prop
  | insertUser payload _ _ => ∀ hash, payload.password = some hash → validPassword validator hash.plain
  | _ => True

structure PasswordsKept (validator : Validator) (w : ServerWorld HttpRequest) : Prop where
  booked : Booked w
  pending : Pending (Write.StoresValidly validator) w.state

theorem PasswordsKept.perform (h : PasswordsKept validator w)
    (hstep : PasswordStep validator ⟨pid, req, w.state, o, reply⟩ w.trace)
    (ha : server.Answers o w.state reply t) : PasswordsKept validator (w.perform pid req o reply t) := by
  refine ⟨h.booked.perform ha hstep.transacts.1, h.pending.step (answers_transactions ha) fun tx w' hsaves => ?_⟩
  cases hsaves with
  | insertUser => exact hstep.stores.2
  | _ => trivial

theorem PasswordsKept.commits (h : PasswordsKept validator w) {reply : Reply (.commitTransaction tx)}
    (hstep : PasswordStep validator ⟨pid, req, w.state, .commitTransaction tx, reply⟩ w.trace) :
    LinksNewUsers (w.state.pending tx) := by
  obtain ⟨writes, hopen, hlinks⟩ := linksNewUsers_of_committing hstep.transacts.2 hstep.replies hstep.links
  rw [h.booked.pending_eq (hstep.transacts.1 tx rfl) hopen]
  exact hlinks

theorem PasswordsKept.row (h : PasswordsKept validator w) (hu : UsableCredentials validator w.state.tables)
    (hstep : PasswordStep validator ⟨pid, req, w.state, o, reply⟩ w.trace) (ha : server.Answers o w.state reply t)
    (hkept : PasswordKept w.state ⟨o, reply⟩) (hmem : user ∈ t.tables.users) :
    (∀ hash, user.password = some hash → validPassword validator hash.plain) ∧
      (user.password ≠ none ∨ t.tables.links user.id = true) := by
  have hlinks : ∀ id, w.state.tables.links id = true → t.tables.links id = true :=
    fun id => (answers_effect ha).links_mono
  cases (answers_effect ha).row_origin hmem with
  | kept old => exact ⟨hu.hashes user old, (hu.signIn user old).imp_right (hlinks user.id)⟩
  | @inserted payload _ new =>
    rw [new]
    exact ⟨hstep.stores.2, .inl (hstep.stores.1 rfl)⟩
  | @updated payload old row hold =>
    have hstores := hstep.stores
    rw [UserPayload.apply_password, UserPayload.apply_id]
    rcases hpassword : payload.password with _ | _ | hash
    · exact ⟨hu.hashes old hold, (hu.signIn old hold).imp_right (hlinks old.id)⟩
    · exact ⟨fun hash h => (by cases h), .inr (hlinks old.id (hkept hpassword))⟩
    · refine ⟨fun hash' h => hstores hash' (hpassword.trans (congrArg some h)), .inl (by simp)⟩
  | @rotated currentHash nextHash old hold =>
    exact ⟨hu.hashes old hold, (hu.signIn old hold).imp_right (hlinks old.id)⟩
  | @committed tx old _ base row =>
    have hsame : user.password = old.password ∧ user.id = old.id := by
      rcases row with rfl | ⟨rfl, -⟩ <;> exact ⟨rfl, rfl⟩
    rw [hsame.1, hsame.2]
    rcases base with hold | ⟨payload, id, createdAt, hpending, rfl⟩
    · exact ⟨hu.hashes old hold, (hu.signIn old hold).imp_right (hlinks old.id)⟩
    · refine ⟨h.pending.pending tx _ hpending, .inr (links_iff.mpr ?_)⟩
      obtain ⟨account, haccount, hid⟩ := h.commits hstep payload id createdAt hpending
      exact ⟨account, mem_links_of_committed (answers_effect ha) haccount, hid⟩

theorem PasswordsKept.usable_iff (h : PasswordsKept validator w) (hu : UsableCredentials validator w.state.tables)
    (hstep : PasswordStep validator ⟨pid, req, w.state, o, reply⟩ w.trace) (ha : server.Answers o w.state reply t) :
    UsableCredentials validator t.tables ↔ PasswordKept w.state ⟨o, reply⟩ := by
  constructor
  · intro hu'
    unfold PasswordKept
    split
    · rename_i heq
      obtain ⟨rfl, hreply⟩ := Sigma.mk.inj heq
      obtain rfl := eq_of_heq hreply
      exact hu'.links_of_cleared (answers_effect ha)
    · trivial
  · intro hkept
    exact ⟨fun user hmem => (h.row hu hstep ha hkept hmem).1, fun user hmem => (h.row hu hstep ha hkept hmem).2⟩

end Step

section Runs

variable {env : Env} {cookies : CookieEnv} {validator : Validator} {db : Database} {p : HttpPool}
  {l₁ l₂ : List HttpEvent} {e : HttpEvent}

theorem serve_transacts (req : HttpRequest) :
    (serve env cookies validator req).Along Transacts (fun _ _ => True) [] := by
  refine serve_along (G := fun _ => Transacts) (fun _ c l h => .of_outside ?_) handle_transacts
  obtain ⟨o, reply⟩ := c
  cases h <;> rfl

def StoresParsed (validator : Validator) : Option Request → ApiCall → List ApiCall → Prop
  | some typed => StoresHash typed
  | none => fun call _ => StoresValidly validator call

theorem serve_storesParsed (req : HttpRequest) :
    (serve env cookies validator req).Along (StoresParsed validator (req.parse validator)) (fun _ _ => True) [] := by
  refine serve_along (fun typed c l h => ?_) handle_storesHash
  obtain ⟨o, reply⟩ := c
  cases h <;> cases typed <;> trivial

theorem resetsValidly_of_reachable (hp : (validatedHttp env cookies validator).Reachable (.start db) p) :
    Justified (fun e _ => e.req.resetsValidly validator = true) p.world.trace :=
  (System.Reachable.admitted (A := fun (req : HttpRequest) _ => req.resetsValidly validator = true) (fun _ _ _ h => h)
    (fun _ _ _ h => h) hp).2

theorem storesValidly_of_hash (hp : (validatedHttp env cookies validator).Reachable (.start db) p)
    (htrace : p.world.trace = l₁ ++ e :: l₂) {typed : Request} (hparse : e.req.parse validator = some typed)
    {text : String} (hpassword : typed.password = some text) {hash : Digest String}
    (hmem : done (.hashText text) hash ∈ calls e.pid l₂) : validPassword validator hash.plain := by
  obtain ⟨before, ω, t, hexec⟩ := exec_of_mem_calls (fun _ _ _ _ h => h) hp htrace hmem
  cases hexec
  exact validPassword_of_parse hparse (htrace ▸ resetsValidly_of_reachable hp).at hpassword

theorem storesValidly (hp : (validatedHttp env cookies validator).Reachable (.start db) p)
    (htrace : p.world.trace = l₁ ++ e :: l₂) : StoresValidly validator e.call := by
  have hstores : StoresParsed validator (e.req.parse validator) e.call (calls e.pid l₂) :=
    (htrace ▸ (System.Reachable.along serve_storesParsed hp).2).at
  cases hparse : e.req.parse validator with
  | none =>
    rw [hparse] at hstores
    exact hstores
  | some typed =>
    rw [hparse] at hstores
    have hvalid : ∀ hash : Digest String, (∃ text, typed.password = some text ∧
        done (.hashText text) hash ∈ calls e.pid l₂) → validPassword validator hash.plain := by
      rintro hash ⟨text, hpassword, hmem⟩
      exact storesValidly_of_hash hp htrace hparse hpassword hmem
    obtain ⟨pid, req, before, o, reply⟩ := e
    cases o with
    | insertUser tx payload => exact ⟨hstores.1, fun hash hhash => hvalid hash (hstores.2 hash hhash)⟩
    | updateUser id payload => exact fun hash hhash => hvalid hash (hstores hash hhash)
    | _ => trivial

theorem passwordStep (hp : (validatedHttp env cookies validator).Reachable (.start db) p) :
    Justified (PasswordStep validator) p.world.trace := by
  refine justified_of_split fun l₁ e l₂ htrace => ⟨?_, storesValidly hp htrace, ?_, ?_⟩
  · exact (htrace ▸ (System.Reachable.along serve_transacts hp).2).at
  · exact repliesWith_of_reachable (fun _ _ _ _ h => h) hp htrace e.pid
  · intro tx userId provider providerId account hmem
    obtain ⟨before, ω, t, hexec⟩ := exec_of_mem_calls (fun _ _ _ _ h => h) hp htrace hmem
    rcases insertUnique_cases hexec with ⟨e, herr, -⟩ | ⟨-, -, -, hrow, -⟩
    · cases herr
    · rw [Except.ok.inj hrow]

/-- The administrator that `UserSeeder` creates, whose password `config/env.ts` does not bound. -/
structure SeededAdmin (db : Database) : Prop extends OnlyAdmin db where
  password : ∀ user ∈ db.tables.users, user.password ≠ none

def ValidSeed (validator : Validator) (db : Database) : Prop :=
  ∀ user ∈ db.tables.users, ∀ hash ∈ user.password, validPassword validator hash.plain

theorem SeededAdmin.passwordsKept (hseed : SeededAdmin db) : PasswordsKept validator ⟨db, []⟩ :=
  ⟨.start hseed.idle, .of_idle hseed.idle⟩

theorem SeededAdmin.usable_iff (hseed : SeededAdmin db) : UsableCredentials validator db.tables ↔ ValidSeed validator db :=
  ⟨fun h => h.hashes, fun h => ⟨h, fun user hmem => .inl (hseed.password user hmem)⟩⟩

/-- Every account can be signed in to in every state of a run exactly if the seeded password is not too long and
no step of the run clears the password of a user who has not linked an account. -/
theorem usable_credentials_iff (hseed : SeededAdmin db)
    (hp : (validatedHttp env cookies validator).Reachable (.start db) p) :
    (∀ q, (validatedHttp env cookies validator).Reachable (.start db) q →
      (validatedHttp env cookies validator).Reachable q p → UsableCredentials validator q.world.state.tables) ↔
      ValidSeed validator db ∧ Justified (fun e _ => PasswordKept e.before e.call) p.world.trace := by
  rw [← hseed.usable_iff]
  refine System.Reachable.keeps_iff (I := PasswordsKept validator)
    (P := fun db : Database => UsableCredentials validator db.tables) hseed.passwordsKept ?_ ?_ ?_ ?_ hp
    (passwordStep hp)
  · exact fun m w h => ⟨h.booked.tick rfl rfl, h.pending⟩
  · exact fun m db h => h
  · exact fun w pid req o reply t h ha hstep => h.perform hstep ha
  · exact fun w pid req o reply t h ha hstep husable => h.usable_iff husable hstep ha

section Sample

theorem seededAdmin_seeded : SeededAdmin (sampleDatabase [seededAdmin]) := ⟨onlyAdmin_seeded, by decide⟩

theorem seededAdmin_valid : ValidSeed sampleValidator (sampleDatabase [seededAdmin]) := by
  intro user hmem hash hhash
  obtain rfl := List.mem_singleton.mp hmem
  obtain rfl := Option.some.inj hhash
  decide +kernel

def sampleHttp : System backend Database Draw Tick HttpRequest Response :=
  validatedHttp sampleEnv {} sampleValidator

def googleJoined : Option HttpPool :=
  sampleHttp.play (.start (sampleDatabase [seededAdmin]))
    (.spawn (.googleCallback sampleProfile (some "talent")) :: List.replicate 11 (.run 0 {}))

theorem googleJoined_isSome : googleJoined.isSome = true := rfl

theorem googleJoined_usable : (11, none) ∈ (googleJoined.get googleJoined_isSome).world.state.tables.users.map
      (fun user => (user.id, user.password)) ∧
    ∀ q, sampleHttp.Reachable (.start (sampleDatabase [seededAdmin])) q →
      sampleHttp.Reachable q (googleJoined.get googleJoined_isSome) →
        UsableCredentials sampleValidator q.world.state.tables := by
  have hp := System.reachable_of_play (Option.some_get googleJoined_isSome).symm
  exact ⟨by decide +kernel,
    (usable_credentials_iff seededAdmin_seeded hp).mpr ⟨seededAdmin_valid, by decide +kernel⟩⟩

def adminLoggedIn : Option HttpPool :=
  sampleHttp.play (.start (sampleDatabase [seededAdmin]))
    (.spawn (.validated (.login "admin@example.com" "correct horse") rfl) :: List.replicate 5 (.run 0 {}))

theorem adminLoggedIn_isSome : adminLoggedIn.isSome = true := rfl

def tokenOfAdmin : Option Jwt :=
  match (adminLoggedIn.get adminLoggedIn_isSome).procs with
  | [⟨_, .ret response⟩] => response.jwts.head?
  | _ => none

def passwordCleared : Option HttpPool :=
  sampleHttp.play (adminLoggedIn.get adminLoggedIn_isSome)
    (.spawn (.updateUser { accessCookie := tokenOfAdmin } 0 [("password", .null)]) :: List.replicate 4 (.run 1 {}))

theorem passwordCleared_isSome : passwordCleared.isSome = true := rfl

theorem admin_without_credentials : ¬ ∀ (env : Env) (cookies : CookieEnv) (validator : Validator) (db : Database)
    (p : HttpPool), SeededAdmin db → ValidSeed validator db → (validatedHttp env cookies validator).Reachable (.start db) p →
    UsableCredentials validator p.world.state.tables := by
  intro h
  have hp := (System.reachable_of_play (Option.some_get adminLoggedIn_isSome).symm).trans
    (System.reachable_of_play (Option.some_get passwordCleared_isSome).symm)
  have hunusable : ¬ ∀ user ∈ (passwordCleared.get passwordCleared_isSome).world.state.tables.users,
      user.password ≠ none ∨
        (passwordCleared.get passwordCleared_isSome).world.state.tables.links user.id = true := by
    decide +kernel
  exact hunusable (h _ _ _ _ _ seededAdmin_seeded seededAdmin_valid hp).signIn

end Sample

end Runs

end SkillBridge
