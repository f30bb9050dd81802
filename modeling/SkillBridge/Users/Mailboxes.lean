import SkillBridge.Inquiries.Service
import SkillBridge.Onboarding.Profiles

set_option autoImplicit false

/-!
One mailbox, one account? The e-mails of the users are compared as they are spelled, at every place that looks a
user up and at every place that stores one.
-/

namespace SkillBridge

open Interleaving Database Prog InquiriesService

section Stored

variable (canonical : String → String)

def OnePerMailbox (t : Tables) : Prop := ∀ user ∈ t.users, ∀ user' ∈ t.users,
  canonical user.email = canonical user'.email → user.id = user'.id

def Variant (email email' : String) : Prop := canonical email = canonical email' ∧ email ≠ email'

instance (email email' : String) : Decidable (Variant canonical email email') :=
  inferInstanceAs (Decidable (_ ∧ _))

def storedRows (db : Database) : ApiCall → List (UserId × String)
  | ⟨.insertUser none _, .ok user⟩ => [user.row]
  | ⟨.updateUser id payload, .ok (some _)⟩ => payload.email.join.toList.map fun email => (id, email)
  | ⟨.commitTransaction tx, .ok _⟩ => (db.pending tx).flatMap Write.rows
  | _ => []

def NoVariant (db : Database) (call : ApiCall) : Prop :=
  ∀ row ∈ storedRows db call, ∀ user ∈ db.tables.users, user.id ≠ row.1 → ¬ Variant canonical user.email row.2

instance (db : Database) (call : ApiCall) : Decidable (NoVariant canonical db call) :=
  inferInstanceAs (Decidable (∀ row ∈ _, _))

end Stored

section Rows

variable {db t : Database} {o : Op} {reply : Reply o} {user : User} {row : UserId × String}

theorem Database.Effect.row_stored (he : Effect db o reply t) (hmem : user ∈ t.tables.users) :
    user.row ∈ db.tables.users.map User.row ∨ user.row ∈ storedRows db ⟨o, reply⟩ := by
  cases he.row_origin hmem with
  | kept old => exact .inl (List.mem_map_of_mem old)
  | inserted new => exact .inr (List.mem_singleton_self _)
  | @updated payload old row hold =>
    cases hemail : payload.email.join with
    | none =>
      have hsame : (payload.apply old).row = old.row := by simp [User.row, UserPayload.apply_email, hemail]
      rw [hsame]
      exact .inl (List.mem_map_of_mem hold)
    | some email =>
      refine .inr ?_
      simp [storedRows, hemail, User.row, UserPayload.apply_email]
  | @rotated currentHash nextHash old hold => exact .inl (List.mem_map.mpr ⟨old, hold, rfl⟩)
  | @committed tx old _ base row =>
    have hsame : user.row = old.row := by rcases row with rfl | ⟨rfl, -⟩ <;> rfl
    rw [hsame]
    rcases base with hold | ⟨payload, id, createdAt, hpending, rfl⟩
    · exact .inl (List.mem_map_of_mem hold)
    · exact .inr (List.mem_flatMap.mpr ⟨_, hpending, List.mem_singleton_self _⟩)

theorem Database.Effect.stored_mem (he : Effect db o reply t) (hrow : row ∈ storedRows db ⟨o, reply⟩) :
    row ∈ t.tables.users.map User.row ∧ ∀ user ∈ db.tables.users, user.id ≠ row.1 →
      user.row ∈ t.tables.users.map User.row := by
  unfold storedRows at hrow
  split at hrow
  · rename_i heq
    obtain ⟨rfl, hreply⟩ := Sigma.mk.inj heq
    obtain rfl := eq_of_heq hreply
    obtain rfl := List.mem_singleton.mp hrow
    rw [he.insertUser_inv.2, List.map_append]
    refine ⟨List.mem_append_right _ (List.mem_singleton_self _), fun user hmem _ => ?_⟩
    exact List.mem_append_left _ (List.mem_map_of_mem hmem)
  · rename_i id payload updated heq
    obtain ⟨rfl, hreply⟩ := Sigma.mk.inj heq
    obtain rfl := eq_of_heq hreply
    obtain ⟨email, hemail, rfl⟩ := List.mem_map.mp hrow
    have hemail : payload.email.join = some email := by simpa using hemail
    obtain ⟨old, found, -, rfl⟩ := he.updateUser_inv
    have hid : old.id = id := findById_id found
    constructor
    · refine List.mem_map.mpr ⟨payload.apply old, mem_update (List.mem_of_find?_eq_some found) hid, ?_⟩
      simp [User.row, UserPayload.apply_email, UserPayload.apply_id, hemail, hid]
    · exact fun user hmem hne => List.mem_map_of_mem (List.mem_map.mpr ⟨user, hmem, if_neg hne⟩)
  · rename_i heq
    obtain ⟨rfl, hreply⟩ := Sigma.mk.inj heq
    obtain rfl := eq_of_heq hreply
    rw [he.commit_inv, rows_view]
    exact ⟨List.mem_append_right _ hrow, fun user hmem _ => List.mem_append_left _ (List.mem_map_of_mem hmem)⟩
  · cases hrow

theorem storedRows_single (hcommits : ∀ tx, o = .commitTransaction tx → CommitWrites (db.pending tx))
    {row' : UserId × String} (hrow : row ∈ storedRows db ⟨o, reply⟩) (hrow' : row' ∈ storedRows db ⟨o, reply⟩) :
    row = row' := by
  unfold storedRows at hrow hrow'
  split at hrow
  · rename_i heq
    obtain ⟨rfl, hreply⟩ := Sigma.mk.inj heq
    obtain rfl := eq_of_heq hreply
    rw [List.mem_singleton.mp hrow, List.mem_singleton.mp hrow']
  · rename_i heq
    obtain ⟨rfl, hreply⟩ := Sigma.mk.inj heq
    obtain rfl := eq_of_heq hreply
    obtain ⟨email, hemail, rfl⟩ := List.mem_map.mp hrow
    obtain ⟨email', hemail', rfl⟩ := List.mem_map.mp hrow'
    have heq : email = email' := by simp_all
    rw [heq]
  · rename_i tx _ heq
    obtain ⟨rfl, hreply⟩ := Sigma.mk.inj heq
    obtain rfl := eq_of_heq hreply
    have hrow' : row' ∈ (db.pending tx).flatMap Write.rows := hrow'
    have hcommits := hcommits tx rfl
    generalize db.pending tx = writes at hcommits hrow hrow'
    cases hcommits with
    | @onboarding w kind id profile =>
      have hnil : [w, .markOnboardingComplete id].flatMap Write.rows = [] := by
        cases w <;> first | rfl | cases profile
      rw [hnil] at hrow
      cases hrow
    | @signUp payload id createdAt account =>
      have hrow : row = (id, payload.email) := by simpa [Write.rows] using hrow
      have hrow' : row' = (id, payload.email) := by simpa [Write.rows] using hrow'
      rw [hrow, hrow']
  · cases hrow

end Rows

section Step

variable {canonical : String → String} {db t : Database} {o : Op} {reply : Reply o} {user user' : User}

theorem exists_of_row {users : List User} {row : UserId × String} (h : row ∈ users.map User.row) :
    ∃ user ∈ users, user.id = row.1 ∧ user.email = row.2 := by
  obtain ⟨user, hmem, rfl⟩ := List.mem_map.mp h
  exact ⟨user, hmem, rfl, rfl⟩

theorem Database.Constraints.eq_of_email (hc : db.Constraints) (hmem : user ∈ db.tables.users)
    (hmem' : user' ∈ db.tables.users) (hemail : user.email = user'.email) : user = user' := by
  have hfind := hc.find_email hmem
  rw [hemail, hc.find_email hmem'] at hfind
  exact (Option.some.inj hfind).symm

theorem OnePerMailbox.kept (hm : OnePerMailbox canonical db.tables) (hc : t.Constraints) (he : Effect db o reply t)
    (h : NoVariant canonical db ⟨o, reply⟩) (hmem : user ∈ t.tables.users) (hmem' : user' ∈ t.tables.users)
    (hold : user.row ∈ db.tables.users.map User.row) (hsame : canonical user.email = canonical user'.email) :
    user.id = user'.id := by
  obtain ⟨old, holdmem, hid, hemail⟩ := exists_of_row hold
  have hid : old.id = user.id := hid
  have hemail : old.email = user.email := hemail
  rw [← hemail] at hsame
  rcases he.row_stored hmem' with hold' | hnew'
  · obtain ⟨old', holdmem', hid', hemail'⟩ := exists_of_row hold'
    have hid' : old'.id = user'.id := hid'
    have hemail' : old'.email = user'.email := hemail'
    rw [← hid, ← hid']
    exact hm old holdmem old' holdmem' (by rw [hsame, hemail'])
  · by_contra hne
    refine h user'.row hnew' old holdmem (by rw [hid]; exact hne) ⟨hsame, fun heq => ?_⟩
    have heq : user.email = user'.email := hemail.symm.trans heq
    exact hne (congrArg User.id (hc.eq_of_email hmem hmem' heq))

theorem OnePerMailbox.step_iff (hm : OnePerMailbox canonical db.tables) (hc : t.Constraints)
    (he : Effect db o reply t) (hcommits : ∀ tx, o = .commitTransaction tx → CommitWrites (db.pending tx)) :
    OnePerMailbox canonical t.tables ↔ NoVariant canonical db ⟨o, reply⟩ := by
  constructor
  · intro h row hrow user hmem hne hvariant
    obtain ⟨hnew, hkept⟩ := he.stored_mem hrow
    obtain ⟨new, hnew, hid, hemail⟩ := exists_of_row hnew
    obtain ⟨kept, hkept, hid', hemail'⟩ := exists_of_row (hkept user hmem hne)
    have hemail' : kept.email = user.email := hemail'
    have hsame := h kept hkept new hnew (by rw [hemail', hemail]; exact hvariant.1)
    exact hne (by rw [← hid, ← hsame]; exact hid'.symm)
  · intro h user hmem user' hmem' hsame
    rcases he.row_stored hmem with hold | hnew
    · exact hm.kept hc he h hmem hmem' hold hsame
    · rcases he.row_stored hmem' with hold' | hnew'
      · exact (hm.kept hc he h hmem' hmem hold' hsame.symm).symm
      · exact congrArg Prod.fst (storedRows_single hcommits hnew hnew')

end Step

section Lookups

def Op.findsByEmail : Op → Option String
  | findUserByEmail email => some email
  | _ => none

/-- What a program reads at its first look-up by e-mail when it runs alone. -/
def lookedUp {α : Type} : Action α → Database → Option (Option User)
  | .ret _, _ => none
  | .throw _, _ => none
  | .call o k, db =>
    match o.findsByEmail with
    | some email => some (db.tables.users.find? fun user => user.email = email)
    | none => (db.exec o {}).bind fun answer => lookedUp (k answer.1) answer.2

def Request.mailbox : Request → Option String
  | login email _ | verifyEmail email _ | resendVerification email | forgotPassword email
  | resetPassword email _ _ => some email
  | googleCallback profile _ => some profile.email
  | _ => none

def Request.lookupKey : Request → Option String
  | forgotPassword email | resetPassword email _ _ => some (trim email)
  | req => req.mailbox

/-- The Google account is not linked yet, so that the e-mail decides. -/
def Request.Unlinked (db : Database) : Request → Prop
  | googleCallback profile _ => db.findOauthAccount "google" profile.providerId = none
  | _ => True

def Resolves (env : Env) (db : Database) (email : String) (user : User) : Prop :=
  ∀ req : Request, req.mailbox = some email → req.Unlinked db → lookedUp (handle env req) db = some (some user)

variable {env : Env} {db : Database} {req : Request} {email : String} {user : User}

theorem lookedUp_eq (hmailbox : req.mailbox = some email) (hunlinked : req.Unlinked db) :
    ∃ key, req.lookupKey = some key ∧
      lookedUp (handle env req) db = some (db.tables.users.find? fun user => user.email = key) := by
  cases req with
  | googleCallback profile signupRole =>
    obtain ⟨k, hfirst, k', hsecond⟩ : ∃ k : Reply (.findOauthAccount "google" profile.providerId) → Action Response,
        handle env (.googleCallback profile signupRole) = .call (.findOauthAccount "google" profile.providerId) k ∧
        ∃ k' : Reply (.findUserByEmail profile.email) → Action Response,
          k (.ok none) = .call (.findUserByEmail profile.email) k' :=
      ⟨_, rfl, _, rfl⟩
    have hnone : db.findOauthAccount "google" profile.providerId = none := hunlinked
    refine ⟨profile.email, rfl, ?_⟩
    rw [hfirst]
    show lookedUp (k (.ok (db.findOauthAccount "google" profile.providerId))) db = _
    rw [hnone, hsecond]
    rfl
  | login => exact ⟨_, rfl, rfl⟩
  | verifyEmail => exact ⟨_, rfl, rfl⟩
  | resendVerification => exact ⟨_, rfl, rfl⟩
  | forgotPassword => exact ⟨_, rfl, rfl⟩
  | resetPassword => exact ⟨_, rfl, rfl⟩
  | _ => cases hmailbox

theorem lookedUp_iff (hc : db.Constraints) (hmem : user ∈ db.tables.users) (hmailbox : req.mailbox = some email)
    (hunlinked : req.Unlinked db) :
    lookedUp (handle env req) db = some (some user) ↔ req.lookupKey = some user.email := by
  obtain ⟨key, hkey, hlookup⟩ := @lookedUp_eq env db req email hmailbox hunlinked
  rw [hlookup, hkey, Option.some.injEq, Option.some.injEq]
  constructor
  · intro hfind
    have hemail : user.email = key := by simpa using List.find?_some hfind
    exact hemail.symm
  · rintro rfl
    exact hc.find_email hmem

theorem resolves_iff (hc : db.Constraints) (hmem : user ∈ db.tables.users) :
    Resolves env db email user ↔ email = user.email ∧ trim email = user.email := by
  constructor
  · intro h
    have hlogin : (Request.login email "").lookupKey = some user.email :=
      (@lookedUp_iff env db (.login email "") email user hc hmem rfl trivial).mp (h _ rfl trivial)
    have hforgot : (Request.forgotPassword email).lookupKey = some user.email :=
      (@lookedUp_iff env db (.forgotPassword email) email user hc hmem rfl trivial).mp (h _ rfl trivial)
    exact ⟨Option.some.inj hlogin, Option.some.inj hforgot⟩
  · rintro ⟨rfl, htrim⟩ req hmailbox hunlinked
    refine (lookedUp_iff hc hmem hmailbox hunlinked).mpr ?_
    cases req with
    | forgotPassword email =>
      cases hmailbox
      exact congrArg some htrim
    | resetPassword email otp password =>
      cases hmailbox
      exact congrArg some htrim
    | _ => exact hmailbox

end Lookups

section Runs

variable {canonical : String → String} {env : Env} {db : Database} {p : ApiPool}

structure MailboxesKept (w : ServerWorld Request) : Prop where
  booked : Booked w
  constraints : w.state.Constraints

theorem onePerMailbox_run_iff (hc : db.Constraints) (hidle : db.transactions = [])
    (hp : (api env).Reachable (.start db) p) :
    (∀ q, (api env).Reachable (.start db) q → (api env).Reachable q p →
      OnePerMailbox canonical q.world.state.tables) ↔
      OnePerMailbox canonical db.tables ∧
        Justified (fun e _ => NoVariant canonical e.before e.call) p.world.trace := by
  refine System.Reachable.keeps_iff (P := fun db : Database => OnePerMailbox canonical db.tables)
    (I := MailboxesKept) ⟨.start hidle, hc⟩ ?_ ?_ ?_ ?_ hp (onboardingStep hp)
  · exact fun m w h => ⟨h.booked.tick rfl rfl, h.constraints.tick⟩
  · exact fun m db h => h
  · intro w pid req o reply t h ha hstep
    exact ⟨h.booked.perform ha hstep.transacts.1, h.constraints.step (answers_effect ha)⟩
  · intro w pid req o reply t h ha hstep hm
    refine hm.step_iff (h.constraints.step (answers_effect ha)) (answers_effect ha) ?_
    rintro tx rfl
    exact h.booked.commits hstep

def ResolvesMailboxes (toLowerCase : String → String) (spelled : String → Prop) (env : Env) (db : Database) : Prop :=
  ∀ user ∈ db.tables.users, ∀ email, spelled email →
    normalizedEmail toLowerCase email = normalizedEmail toLowerCase user.email → Resolves env db email user

theorem resolvesMailboxes_iff {toLowerCase : String → String} {spelled : String → Prop} (hc : db.Constraints) :
    ResolvesMailboxes toLowerCase spelled env db ↔ ∀ user ∈ db.tables.users, ∀ email, spelled email →
      normalizedEmail toLowerCase email = normalizedEmail toLowerCase user.email →
        email = user.email ∧ trim email = user.email :=
  forall₂_congr fun _ hmem => forall₃_congr fun _ _ _ => resolves_iff hc hmem

theorem trim_space (s : String) : trim (" " ++ s) = trim s := by
  unfold trim
  rw [String.toList_append, show " ".toList = [' '] from rfl, List.singleton_append,
    List.dropWhile_cons_of_pos (by decide)]

theorem not_resolvesMailboxes {toLowerCase : String → String} {user : User} (hc : db.Constraints)
    (hmem : user ∈ db.tables.users) : ¬ ResolvesMailboxes toLowerCase (fun _ => True) env db := by
  intro h
  have hsame : normalizedEmail toLowerCase (" " ++ user.email) = normalizedEmail toLowerCase user.email := by
    rw [normalizedEmail, trim_space, normalizedEmail]
  have hspelled := ((resolvesMailboxes_iff hc).mp h user hmem (" " ++ user.email) trivial hsame).1
  have hlength := congrArg String.length hspelled
  rw [String.length_append, show " ".length = 1 from rfl] at hlength
  omega

/-- A mailbox has one account all along a run, and the e-mails that are `spelled` find it in the end, exactly if no
step stores a variant of the e-mail of another user and they are spelled as the e-mails that are stored. -/
theorem one_account_per_mailbox_iff (toLowerCase : String → String) (spelled : String → Prop) (hc : db.Constraints)
    (hidle : db.transactions = []) (hp : (api env).Reachable (.start db) p) :
    (∀ q, (api env).Reachable (.start db) q → (api env).Reachable q p →
      OnePerMailbox (normalizedEmail toLowerCase) q.world.state.tables) ∧
        ResolvesMailboxes toLowerCase spelled env p.world.state ↔
      (OnePerMailbox (normalizedEmail toLowerCase) db.tables ∧
        Justified (fun e _ => NoVariant (normalizedEmail toLowerCase) e.before e.call) p.world.trace) ∧
      ∀ user ∈ p.world.state.tables.users, ∀ email, spelled email →
        normalizedEmail toLowerCase email = normalizedEmail toLowerCase user.email →
          email = user.email ∧ trim email = user.email :=
  and_congr (onePerMailbox_run_iff hc hidle hp) (resolvesMailboxes_iff (constraints_of_reachable hc hp))

section Sample

def signedUp (email : String) : Option ApiPool :=
  (api sampleEnv).play (.start (sampleDatabase [seededAdmin]))
    [.spawn (.register ⟨email, "correct horse", "Ada", "Byron", .talent, none⟩), .run 0 {}, .run 0 {}, .run 0 {}]

theorem signedUp_isSome : (signedUp "ada@example.com").isSome = true := rfl

theorem signedUp_one_account :
    (∀ q, (api sampleEnv).Reachable (.start (sampleDatabase [seededAdmin])) q →
      (api sampleEnv).Reachable q ((signedUp "ada@example.com").get signedUp_isSome) →
      OnePerMailbox (normalizedEmail String.toLower) q.world.state.tables) ∧
    ResolvesMailboxes String.toLower (fun email => email ∈ ["admin@example.com", "ada@example.com"]) sampleEnv
      ((signedUp "ada@example.com").get signedUp_isSome).world.state := by
  have hp := System.reachable_of_play (Option.some_get signedUp_isSome).symm
  refine (one_account_per_mailbox_iff _ _ onlyAdmin_seeded.constraints rfl hp).mpr ⟨⟨?_, by decide +kernel⟩, ?_⟩
  · intro user hmem user' hmem' _
    rw [List.mem_singleton.mp hmem, List.mem_singleton.mp hmem']
  · decide +kernel

theorem signedUp_variant_isSome : (signedUp "Admin@Example.com").isSome = true := rfl

theorem signedUp_variant : ∃ p, (api sampleEnv).Reachable (.start (sampleDatabase [seededAdmin])) p ∧
    p.world.state.tables.users.map User.row = [(0, "admin@example.com"), (11, "Admin@Example.com")] :=
  ⟨_, System.reachable_of_play (Option.some_get signedUp_variant_isSome).symm, by decide +kernel⟩

theorem variant_normalized : normalizedEmail String.toLower "admin@example.com" = "admin@example.com" ∧
    normalizedEmail String.toLower "Admin@Example.com" = "admin@example.com" := by decide +kernel

theorem variant_signed_up : ¬ ∀ (env : Env) (db : Database) (p : ApiPool), OnlyAdmin db →
    (api env).Reachable (.start db) p →
    OnePerMailbox (normalizedEmail String.toLower) p.world.state.tables ∧
      ResolvesMailboxes String.toLower (fun _ => True) env p.world.state := by
  intro h
  obtain ⟨p, hp, hrows⟩ := signedUp_variant
  have hadmin : (0, "admin@example.com") ∈ p.world.state.tables.users.map User.row := by
    rw [hrows]
    exact List.mem_cons_self
  have huser : (11, "Admin@Example.com") ∈ p.world.state.tables.users.map User.row := by
    rw [hrows]
    exact List.mem_cons_of_mem _ List.mem_cons_self
  obtain ⟨admin, hadmin, hid, hemail⟩ := exists_of_row hadmin
  obtain ⟨user, huser, hid', hemail'⟩ := exists_of_row huser
  have hsame : normalizedEmail String.toLower admin.email = normalizedEmail String.toLower user.email := by
    rw [hemail, hemail']
    exact variant_normalized.1.trans variant_normalized.2.symm
  have heq := (h _ _ _ onlyAdmin_seeded hp).1 admin hadmin user huser hsame
  rw [hid, hid'] at heq
  cases heq

end Sample

end Runs

end SkillBridge
