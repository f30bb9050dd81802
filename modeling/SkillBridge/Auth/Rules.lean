import SkillBridge.Auth.Service
import SkillBridge.Database.Effects
import SkillBridge.Interleaving.Sequential

set_option autoImplicit false

/-! Rules for the services when they run alone on an account. -/

namespace SkillBridge

open Interleaving Prog

instance : Inhabited Draw := ⟨{}⟩

structure Database.HasAccount (db : Database) (id : UserId) (account : User) : Prop where
  found : Database.findById db.tables.users id = some account
  unlocked : (db.others none).any (Write.locks id) = false

theorem Database.HasAccount.update {db : Database} {id : UserId} {account : User} (h : db.HasAccount id account)
    (payload : UserPayload) : (db.update id payload).HasAccount id (payload.apply account) :=
  ⟨findById_updateWhere_self (fun _ => rfl) h.found, h.unlocked⟩

section Rules

variable {env : Env} {failure : Failure → Bool} {db : Database} {id : UserId} {account user : User}

theorem wp_findUser {Q : Except Failure (Option User) → Database → Prop} (h : db.HasAccount id account)
    (found : Q (.ok (some account)) db) (failed : ∀ e, failure e = true → Q (.error e) db) :
    (perform (.findUser none id)).Wp (server.failing failure) Q db :=
  wp_perform_of_eq (fun _ => rfl)
    (show Q (.ok (Database.findById db.tables.users id)) db from h.found.symm ▸ found) failed

theorem wp_updateUser {Q : Except Failure (Option User) → Database → Prop} (h : db.HasAccount id account)
    {payload : UserPayload} (notNull : payload.violatesNotNull = false) (fits : payload.fits = true)
    (email : payload.email = none)
    (updated : Q (.ok (some (payload.apply account))) (db.update id payload))
    (failed : ∀ e, failure e = true → Q (.error e) db) :
    (perform (.updateUser id payload)).Wp (server.failing failure) Q db := by
  exact wp_perform_of_eq (fun _ => Database.updateUser_eq h.found h.unlocked notNull fits email) updated failed

theorem wp_findOne {Q : Except Failure User → Database → Prop} (h : db.HasAccount id account)
    (found : Q (.ok account) db) (failed : ∀ e, failure e = true → Q (.error e) db) :
    (UsersService.findOne id).Wp (server.failing failure) Q db := by
  apply wp_bind
  exact wp_findUser h found failed

theorem wp_liftExcept {α : Type} {Q : Except Failure α → Database → Prop} {r : Except Failure α} (h : Q r db) :
    (liftExcept r).Wp (server.failing failure) Q db := by
  cases r with
  | ok a => exact h
  | error e => exact h

theorem wp_signAsync {Q : Except Failure Jwt → Database → Prop} {payload : JwtPayload} {jti : Bool} {secret : String}
    {expiresIn : ℕ} (signed : Q (.ok (db.signAsync payload jti secret expiresIn)) db.tick)
    (failed : ∀ e, failure e = true → Q (.error e) db) :
    (perform (.signAsync payload jti secret expiresIn)).Wp (server.failing failure) Q db :=
  wp_perform_of_eq (fun _ => rfl) signed failed

theorem wp_issueTokens {Q : Except Failure AuthResult → Database → Prop} {message : String}
    (h : db.HasAccount user.id user)
    (issued : ∀ tokens hash t, t.HasAccount user.id { user with refreshTokenHash := some hash } →
      Q (.ok { message, user := AuthService.toAuthUser user, tokens }) t)
    (failed : ∀ e t, failure e = true → Q (.error e) t) :
    (AuthService.issueTokens env user message).Wp (server.failing failure) Q db := by
  apply wp_bind
  apply wp_bind
  refine wp_signAsync ?_ fun e he => failed e _ he
  apply wp_bind
  refine wp_signAsync ?_ fun e he => failed e _ he
  apply wp_bind
  apply wp_bind
  refine wp_perform_of_eq (fun _ => rfl) ?_ fun e he => failed e _ he
  apply wp_bind
  have h' : db.tick.tick.tick.HasAccount user.id user := ⟨h.found, h.unlocked⟩
  exact wp_updateUser h' rfl rfl rfl (issued _ _ _ (h'.update _)) fun e he => failed e _ he

end Rules

end SkillBridge
