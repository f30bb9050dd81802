import SkillBridge.Api.ResponseBodies
import SkillBridge.Common.HttpExceptionFilter
import SkillBridge.Interleaving.Lockstep

set_option autoImplicit false

/-! Which columns of `users` the response bodies depend on. -/

namespace SkillBridge

open Interleaving Prog

def User.masked (user : User) : User :=
  { user with password := none, two_fa_totp_secret := none, refreshTokenHash := none }

def Tables.masked (t : Tables) : Tables := { t with users := t.users.map User.masked }

def Database.masked (db : Database) : Database := { db with tables := db.tables.masked }

def Op.mask : (o : Op) → o.Res → o.Res
  | .findUser _ _, row => Option.map User.masked row
  | .findUserByEmail _, row => Option.map User.masked row
  | .updateUser _ _, row => Option.map User.masked row
  | .listUsers _ _, rows => List.map User.masked rows
  | _, r => r

def Op.Shown : Op → Prop
  | .dateNow | .findUser _ _ | .findUserByEmail _ | .listUsers _ _ | .hashText _ | .insertUser _ _ | .updateUser _ _
  | .hashToken _ | .signAsync _ _ _ _ | .startTransaction | .commitTransaction _ | .rollbackTransaction _
  | .findTalentProfile _ _ | .insertTalentProfile _ _ | .findEmployerProfile _ _ | .insertEmployerProfile _ _
  | .markOnboardingComplete _ _ => True
  | _ => False

def MaskedEq (o : Op) (r r' : o.Res) : Prop := o.mask r = o.mask r'

section Tables

variable {t t' : Tables}

theorem users_masked (h : t.masked = t'.masked) : t.users.map User.masked = t'.users.map User.masked :=
  congrArg Tables.users h

theorem talentProfiles_masked (h : t.masked = t'.masked) : t.talentProfiles = t'.talentProfiles := by
  have heq := congrArg Tables.talentProfiles h
  exact heq

theorem employerProfiles_masked (h : t.masked = t'.masked) : t.employerProfiles = t'.employerProfiles := by
  have heq := congrArg Tables.employerProfiles h
  exact heq

theorem any_masked {users users' : List User} (h : users.map User.masked = users'.map User.masked) {f : User → Bool}
    (hf : ∀ user, f user.masked = f user) : users.any f = users'.any f := by
  have hany : ∀ us : List User, us.any f = (us.map User.masked).any f := by
    intro us
    rw [List.any_map]
    congr 1
    funext user
    exact (hf user).symm
  rw [hany users, hany users', h]

theorem find_masked {users users' : List User} (h : users.map User.masked = users'.map User.masked)
    {f : User → Bool} (hf : ∀ user, f user.masked = f user) :
    (users.find? f).map User.masked = (users'.find? f).map User.masked := by
  have hfind : ∀ us : List User, (us.find? f).map User.masked = (us.map User.masked).find? f := by
    intro us
    rw [List.find?_map]
    congr 2
    funext user
    exact (hf user).symm
  rw [hfind users, hfind users', h]

theorem updateWhere_masked {users users' : List User} (h : users.map User.masked = users'.map User.masked)
    {id : UserId} {f : User → User} (hf : ∀ user, (f user.masked).masked = (f user).masked) :
    (updateWhere id f users).map User.masked = (updateWhere id f users').map User.masked := by
  have hmap : ∀ us : List User, (updateWhere id f us).map User.masked =
      (us.map User.masked).map fun user => if user.id = id then (f user).masked else user := by
    intro us
    rw [updateWhere, List.map_map, List.map_map]
    congr 1
    funext user
    show (if user.id = id then f user else user).masked =
      if user.id = id then (f user.masked).masked else user.masked
    split_ifs
    · exact (hf user).symm
    · rfl
  rw [hmap users, hmap users', h]

theorem apply_masked (h : t.masked = t'.masked) (w : Write) : (w.apply t).masked = (w.apply t').masked := by
  obtain ⟨users, oauthAccounts, otps, talentProfiles, employerProfiles⟩ := t
  obtain ⟨users', oauthAccounts', otps', talentProfiles', employerProfiles'⟩ := t'
  simp only [Tables.masked, Tables.mk.injEq] at h
  obtain ⟨husers, rfl, rfl, rfl, rfl⟩ := h
  cases w with
  | insertUser payload id createdAt => simp only [Write.apply, Tables.masked, List.map_append, husers]
  | markOnboardingComplete id =>
    have hmap : (updateWhere id (fun user => { user with onboarding_complete := true }) users).map User.masked =
        (updateWhere id (fun user => { user with onboarding_complete := true }) users').map User.masked :=
      updateWhere_masked husers fun user => rfl
    simp only [Write.apply, Tables.masked, hmap]
  | _ => simp only [Write.apply, Tables.masked, husers]

theorem foldl_masked (h : t.masked = t'.masked) (ws : List Write) :
    (ws.foldl Write.apply t).masked = (ws.foldl Write.apply t').masked := by
  induction ws generalizing t t' with
  | nil => exact h
  | cons w ws ih => exact ih (apply_masked h w)

end Tables

section Statements

variable {db db' t : Database}

theorem eq_of_masked (h : db.masked = db'.masked) : db.tables.masked = db'.tables.masked ∧
    db' = { db with tables := db'.tables } := by
  obtain ⟨tables, transactions, fresh, appNow, dbNow⟩ := db
  obtain ⟨tables', transactions', fresh', appNow', dbNow'⟩ := db'
  simp only [Database.masked, Database.mk.injEq] at h
  obtain ⟨htables, rfl, rfl, rfl, rfl⟩ := h
  exact ⟨htables, rfl⟩

theorem masked_of_tables (db : Database) {tables tables' : Tables} (h : tables.masked = tables'.masked) :
    ({ db with tables := tables } : Database).masked = ({ db with tables := tables' } : Database).masked := by
  simp only [Database.masked, h]

theorem both_refl {o : Op} (r : Reply o) : Both (MaskedEq o) r r := by
  cases r with
  | ok r => exact rfl
  | error e => exact rfl

theorem insertUnique_masked {α : Type} {fits taken waits dangling : Bool} {row : α} {tx : Option TxId} {w : Write}
    {reply : Except Failure α} {tables tables' : Tables} (htables : tables.masked = tables'.masked)
    (h : ({ db with tables := tables } : Database).insertUnique fits taken waits dangling row tx w = some (reply, t)) :
    ∃ t', ({ db with tables := tables' } : Database).insertUnique fits taken waits dangling row tx w = some (reply, t') ∧
      t.masked = t'.masked := by
  unfold Database.insertUnique at h ⊢
  split_ifs at h ⊢
  · cases h
    exact ⟨_, rfl, masked_of_tables _ htables⟩
  · cases h
    exact ⟨_, rfl, masked_of_tables _ htables⟩
  · cases h
    exact ⟨_, rfl, masked_of_tables _ htables⟩
  · cases h
    refine ⟨_, rfl, ?_⟩
    cases tx with
    | none => exact congrArg Database.tick (masked_of_tables db (apply_masked htables w))
    | some tx => simp only [Database.save, Database.tick, Database.masked, htables]

theorem view_masked {tables : Tables} (h : db.tables.masked = tables.masked) (tx : Option TxId) :
    (db.view tx).masked = (({ db with tables := tables } : Database).view tx).masked := by
  cases tx with
  | none => exact h
  | some tx => exact foldl_masked h _

theorem findById_masked {users users' : List User} (h : users.map User.masked = users'.map User.masked)
    (id : UserId) : (Database.findById users id).map User.masked = (Database.findById users' id).map User.masked :=
  find_masked h fun _ => rfl

theorem isNone_masked {row row' : Option User} (h : row.map User.masked = row'.map User.masked) :
    row.isNone = row'.isNone := by
  rw [← Option.isNone_map, h, Option.isNone_map]

theorem setUsers_masked {users users' : List User} {tables : Tables} (h : db.tables.masked = tables.masked)
    (husers : users.map User.masked = users'.map User.masked) :
    (db.setUsers users).masked = (({ db with tables := tables } : Database).setUsers users').masked := by
  obtain ⟨old, oauthAccounts, otps, talentProfiles, employerProfiles⟩ := tables
  simp only [Tables.masked, Tables.mk.injEq] at h
  obtain ⟨-, haccounts, hotps, htalent, hemployer⟩ := h
  simp only [Database.setUsers, Database.masked, Tables.masked, husers, haccounts, hotps, htalent, hemployer]

theorem updateUser_masked {id : UserId} {payload : UserPayload} {reply : Reply (.updateUser id payload)}
    {tables : Tables} (h : db.tables.masked = tables.masked) (hexec : db.updateUser id payload = some (reply, t)) :
    ∃ reply' t', ({ db with tables := tables } : Database).updateUser id payload = some (reply', t') ∧
      Both (MaskedEq (.updateUser id payload)) reply reply' ∧ t.masked = t'.masked := by
  have husers := users_masked h
  have hfound := findById_masked husers id
  have hemail : ∀ email : String, (db.tables.users.any fun other => other.id ≠ id && other.email = email) =
      tables.users.any fun other => other.id ≠ id && other.email = email :=
    fun email => any_masked husers fun _ => rfl
  have hothers : ({ db with tables := tables } : Database).others none = db.others none := rfl
  have happly : ∀ user : User, (payload.apply user.masked).masked = (payload.apply user).masked := fun _ => rfl
  unfold Database.updateUser at hexec ⊢
  simp only [hemail] at hexec
  simp only [hothers]
  cases hrow : Database.findById db.tables.users id with
  | none =>
    simp only [hrow] at hexec hfound
    simp only [Option.map_eq_none_iff.mp hfound.symm]
    cases hexec
    exact ⟨_, _, rfl, rfl, masked_of_tables db h⟩
  | some user =>
    rw [hrow, Option.map_some] at hfound
    obtain ⟨user', hrow', huser'⟩ := Option.map_eq_some_iff.mp hfound.symm
    simp only [hrow] at hexec
    simp only [hrow']
    split_ifs at hexec ⊢ with hfits hlocked hnull hunique hwaits
    · cases hexec
      exact ⟨_, _, rfl, rfl, masked_of_tables db h⟩
    · cases hexec
      exact ⟨_, _, rfl, rfl, masked_of_tables db h⟩
    · cases hexec
      exact ⟨_, _, rfl, rfl, masked_of_tables db h⟩
    · cases hexec
      have hrow : (some (payload.apply user)).map User.masked = (some (payload.apply user')).map User.masked := by
        have happly : (payload.apply user).masked = (payload.apply user').masked := by
          rw [← happly user, ← happly user', huser']
        simp only [Option.map_some, happly]
      exact ⟨_, _, rfl, hrow, setUsers_masked h (updateWhere_masked husers happly)⟩

theorem listUsers_masked {users users' : List User} (h : users.map User.masked = users'.map User.masked)
    (n m : ℕ) : (((users.mergeSort fun u v => v.createdAt ≤ u.createdAt).drop n).take m).map User.masked =
      (((users'.mergeSort fun u v => v.createdAt ≤ u.createdAt).drop n).take m).map User.masked := by
  have hsort : ∀ us : List User, (us.mergeSort fun u v => v.createdAt ≤ u.createdAt).map User.masked =
      (us.map User.masked).mergeSort fun u v => v.createdAt ≤ u.createdAt :=
    fun us => List.map_mergeSort fun u _ v _ => rfl
  rw [List.map_take, List.map_drop, hsort, h, ← hsort, ← List.map_drop, ← List.map_take]

theorem exec_masked : Lockstep server Op.Shown MaskedEq fun db db' => db.masked = db'.masked := by
  intro o ω db db' ho h reply t hexec
  obtain ⟨htables, hdb⟩ := eq_of_masked h
  generalize db'.tables = tables at htables hdb
  subst hdb
  have husers := users_masked htables
  cases o with
  | dateNow => cases hexec; exact ⟨_, _, rfl, rfl, h⟩
  | hashText text => cases hexec; exact ⟨_, _, rfl, rfl, congrArg Database.tick h⟩
  | hashToken token => cases hexec; exact ⟨_, _, rfl, rfl, congrArg Database.tick h⟩
  | signAsync payload jti secret expiresIn => cases hexec; exact ⟨_, _, rfl, rfl, congrArg Database.tick h⟩
  | findUser tx id =>
    cases hexec
    exact ⟨_, _, rfl, findById_masked (users_masked (view_masked htables tx)) id, h⟩
  | findUserByEmail email =>
    cases hexec
    exact ⟨_, _, rfl, find_masked husers fun user => rfl, h⟩
  | listUsers page limit =>
    cases hexec
    exact ⟨_, _, rfl, listUsers_masked husers _ _, h⟩
  | insertUser tx payload =>
    have htaken := any_masked (users_masked (view_masked htables tx)) (f := fun user => user.email = payload.email)
      fun _ => rfl
    change db.insertUser tx payload = some (reply, t) at hexec
    unfold Database.insertUser at hexec
    rw [htaken] at hexec
    obtain ⟨t', ht, hmasked⟩ := insertUnique_masked htables hexec
    exact ⟨_, _, ht, both_refl reply, hmasked⟩
  | updateUser id payload => exact updateUser_masked htables hexec
  | startTransaction =>
    cases hexec
    refine ⟨_, _, rfl, rfl, ?_⟩
    simp only [Database.tick, Database.masked, htables]
  | commitTransaction tx =>
    cases hexec
    refine ⟨_, _, rfl, rfl, ?_⟩
    have hview := view_masked htables (some tx)
    simp only [Database.masked, hview]
    rfl
  | rollbackTransaction tx =>
    cases hexec
    refine ⟨_, _, rfl, rfl, ?_⟩
    simp only [Database.masked, htables]
    rfl
  | findTalentProfile tx userId =>
    cases hexec
    have hprofiles := talentProfiles_masked (view_masked htables (some tx))
    exact ⟨_, _, rfl, congrArg (List.find? fun profile : TalentProfile => profile.user_id = userId) hprofiles, h⟩
  | insertTalentProfile tx profile =>
    have hprofiles := talentProfiles_masked (view_masked htables (some tx))
    have hdangling := isNone_masked (findById_masked (users_masked (view_masked htables (some tx)))
      (profile db.fresh).user_id)
    change db.insertTalentProfile tx profile = some (reply, t) at hexec
    unfold Database.insertTalentProfile at hexec
    simp only [hprofiles, hdangling] at hexec
    obtain ⟨t', ht, hmasked⟩ := insertUnique_masked htables hexec
    exact ⟨_, _, ht, both_refl reply, hmasked⟩
  | findEmployerProfile tx userId =>
    cases hexec
    have hprofiles := employerProfiles_masked (view_masked htables (some tx))
    exact ⟨_, _, rfl, congrArg (List.find? fun profile : EmployerProfile => profile.user_id = userId) hprofiles, h⟩
  | insertEmployerProfile tx profile =>
    have hprofiles := employerProfiles_masked (view_masked htables (some tx))
    have hdangling := isNone_masked (findById_masked (users_masked (view_masked htables (some tx)))
      (profile db.fresh).user_id)
    change db.insertEmployerProfile tx profile = some (reply, t) at hexec
    unfold Database.insertEmployerProfile at hexec
    simp only [hprofiles, hdangling] at hexec
    obtain ⟨t', ht, hmasked⟩ := insertUnique_masked htables hexec
    exact ⟨_, _, ht, both_refl reply, hmasked⟩
  | markOnboardingComplete tx id =>
    change db.markOnboardingComplete tx id = some (reply, t) at hexec
    have hothers : ({ db with tables := tables } : Database).others (some tx) = db.others (some tx) := rfl
    change ∃ reply' t', ({ db with tables := tables } : Database).markOnboardingComplete tx id =
      some (reply', t') ∧ _
    unfold Database.markOnboardingComplete at hexec ⊢
    simp only [hothers]
    split_ifs at hexec ⊢
    cases hexec
    refine ⟨_, _, rfl, rfl, ?_⟩
    simp only [Database.save, Database.masked, htables]
  | _ => exact ho.elim

end Statements

end SkillBridge
