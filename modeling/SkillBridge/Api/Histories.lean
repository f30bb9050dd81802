import SkillBridge.Api.Requests
import SkillBridge.Database.Effects

set_option autoImplicit false

/-!
What can have happened in a request before it signs a token or writes a user row. Everything that is said
about runs of the system rests on `handle_along`, the only place that goes through the programs.
-/

namespace SkillBridge

open Interleaving Prog

abbrev ApiEvent : Type := Event backend Database Request

section Definitions

variable (env : Env)

abbrev accessSign (user : User) : Op :=
  .signAsync (AuthService.sessionPayload user) true env.JWT_ACCESS_SECRET env.JWT_ACCESS_EXPIRES_IN

abbrev refreshSign (user : User) : Op :=
  .signAsync (AuthService.sessionPayload user) true env.JWT_REFRESH_SECRET env.JWT_REFRESH_EXPIRES_IN

abbrev stateSign (user : User) : Op :=
  .signAsync { sub := user.id, email := none, role := none, onboardingComplete := none
               type := some "2fa_pending", jti := none }
    false env.JWT_ACCESS_SECRET (5 * 60 * 1000)

def userRow : ApiCall → Option User
  | ⟨.findUser _ _, .ok row⟩ => row
  | ⟨.findUserByEmail _, .ok row⟩ => row
  | ⟨.findOauthAccount _ _, .ok linked⟩ => linked.map Prod.snd
  | _ => none

def lastRow (past : List ApiCall) : Option User := past.findSome? userRow

def Request.onboarding : Request → Option Credentials
  | talentOnboarding c _ => some c
  | employerOnboarding c _ => some c
  | _ => none

/-- The request is about to issue tokens for `user`, and this is all it has done. -/
inductive Issues : Request → User → List ApiCall → Prop
  | login {email password : String} {user : User} {hash : Digest String}
      (verified : user.is_verified = true) (noTwoFa : user.two_fa_enabled = false)
      (stored : user.password = some hash) (matching : hash.plain = password) :
      Issues (.login email password) user [done (.findUserByEmail email) (some user)]
  | verifyEmail {email code : String} {user : User} {otp : Otp}
      (verified : user.is_verified = true) (matching : otp.otpHash.plain = code) :
      Issues (.verifyEmail email code) user
        (consumed .verification_otps user.id otp ++ [done (.findUserByEmail email) (some user)])
  | verifyEmailFirst {email code : String} {row user : User} {otp : Otp} {updated : Option User}
      (unverified : row.is_verified = false) (matching : otp.otpHash.plain = code) :
      Issues (.verifyEmail email code) user
        (done (.findUser none row.id) (some user) ::
          done (.updateUser row.id { is_verified := some true }) updated ::
          (consumed .verification_otps row.id otp ++ [done (.findUserByEmail email) (some row)]))
  | googleCallback {profile : GoogleProfile} {signupRole : Option OAuthSignupRole} {user : User}
      {past : List ApiCall} {linked : Reply (.findOauthAccount "google" profile.providerId)}
      (row : lastRow past = some user)
      (first : [⟨.findOauthAccount "google" profile.providerId, linked⟩] <:+ past) :
      Issues (.googleCallback profile signupRole) user past
  | verify2fa {token : Jwt} {code stored secret : String} {user : User} {payload : JwtPayload} {now now' : ℕ}
      (admitted : token.verify env.JWT_ACCESS_SECRET now = .ok payload)
      (pending : payload.type = some "2fa_pending") (enabled : user.two_fa_enabled = true)
      (totp : user.two_fa_totp_secret = some stored)
      (decrypted : Encryption.decrypt env.aes env.encryptionKey stored = .ok secret)
      (valid : env.otplib.verifySync secret code now' = .ok true) :
      Issues (.verify2fa (some token) code) user
        [done .dateNow now', done (.findUser none payload.sub) (some user), done .dateNow now]
  | refresh {token : Jwt} {user : User} {payload : JwtPayload} {now : ℕ} {hash : Digest Jwt}
      (admitted : token.verify env.JWT_REFRESH_SECRET now = .ok payload)
      (stored : user.refreshTokenHash = some hash) (matching : hash.plain = token) :
      Issues (.refresh (some token)) user
        [done (.findUser none payload.sub) (some user), done .dateNow now]
  | onboarding {req : Request} {c : Credentials} {token : Jwt} {row user : User} {payload : JwtPayload}
      {now : ℕ} {past : List ApiCall} (request : req.onboarding = some c) (presented : c.token = some token)
      (admitted : token.verify env.JWT_ACCESS_SECRET now = .ok payload) :
      Issues req user (done (.findUser none row.id) (some user) ::
        (past ++ [done (.findUser none payload.sub) (some row), done .dateNow now]))

abbrev signed (user : User) (tokens : AuthTokens) : List ApiCall :=
  [done (refreshSign env user) tokens.refreshToken, done (accessSign env user) tokens.accessToken]

abbrev hashed (user : User) (tokens : AuthTokens) (hash : Digest Jwt) : List ApiCall :=
  done (.hashToken tokens.refreshToken) hash :: signed env user tokens

/-- Why a request updates a user row. -/
inductive UserWrite : Request → UserId → UserPayload → List ApiCall → Prop
  | session {req : Request} {user : User} {tokens : AuthTokens} {hash : Digest Jwt} {past : List ApiCall}
      (issues : Issues env req user past) (other : ∀ token, req ≠ .refresh token) :
      UserWrite req user.id { refreshTokenHash := some (some hash) } (hashed env user tokens hash ++ past)
  | logout {token : Jwt} {payload : JwtPayload} {now : ℕ} {user : User} {hash : Digest Jwt}
      (admitted : token.verify env.JWT_REFRESH_SECRET now = .ok payload)
      (stored : user.refreshTokenHash = some hash) (matching : hash.plain = token) :
      UserWrite (.logout (some token)) user.id { refreshTokenHash := some none }
        [done (.findUser none payload.sub) (some user), done .dateNow now]
  | resetPassword {email code password : String} {user : User} {otp : Otp} {hash : Digest String}
      (matching : otp.otpHash.plain = code) :
      UserWrite (.resetPassword email code password) user.id
        { password := some (some hash), refreshTokenHash := some none }
        (done (.hashText password) hash :: (consumed .password_reset_otps user.id otp ++
          [done (.findUserByEmail (trim email)) (some user)]))
  | verifyEmail {email code : String} {user : User} {otp : Otp}
      (unverified : user.is_verified = false) (matching : otp.otpHash.plain = code) :
      UserWrite (.verifyEmail email code) user.id { is_verified := some true }
        (consumed .verification_otps user.id otp ++ [done (.findUserByEmail email) (some user)])
  | linkByEmail {profile : GoogleProfile} {signupRole : Option OAuthSignupRole} {user : User}
      {past : List ApiCall} (unverified : user.is_verified = false) :
      UserWrite (.googleCallback profile signupRole) user.id { is_verified := some true }
        (done (.findUserByEmail profile.email) (some user) :: past)
  | setup2faTotp {c : Credentials} {user : User} {id : UserId} {encryptedSecret : String}
      {past : List ApiCall} (inactive : user.two_fa_method = none) :
      UserWrite (.setup2faTotp c) id { two_fa_totp_secret := some (some encryptedSecret) }
        (done (.findUser none id) (some user) :: past)
  | enableTotp2fa {c : Credentials} {code : String} {id : UserId} {past : List ApiCall} :
      UserWrite (.enable2faTotp c code) id { two_fa_enabled := some true, two_fa_method := some (some .totp) }
        past
  | disable2fa {c : Credentials} {code : String} {id : UserId} {past : List ApiCall} :
      UserWrite (.disable2fa c code) id
        { two_fa_enabled := some false, two_fa_method := some (some .totp), two_fa_totp_secret := some none }
        past
  | updateUser {c : Credentials} {id : UserId} {dto : UpdateUserDto} {past : List ApiCall}
      {password : Option (Option (Digest String))} (set : password.join.isSome = dto.password.join.isSome) :
      UserWrite (.updateUser c id dto) id (UsersService.UpdateUserDto.toPayload dto password) past

inductive UserInsert : Request → Option TxId → NewUser → List ApiCall → Prop
  | register {dto : RegisterDto} {payload : NewUser} {hash : Digest String}
      (password : payload.password = some hash) (unverified : payload.is_verified = false) :
      UserInsert (.register dto) none payload
        [done (.hashText dto.password) hash, done (.findUserByEmail payload.email) none]
  | createUser {c : Credentials} {dto : CreateUserDto} {payload : NewUser} {past : List ApiCall} :
      UserInsert (.createUser c dto) none payload past
  | googleCallback {profile : GoogleProfile} {signupRole : Option OAuthSignupRole} {tx : TxId}
      {payload : NewUser} {past : List ApiCall} (email : payload.email = profile.email)
      (password : payload.password = none) (verified : payload.is_verified = true) :
      UserInsert (.googleCallback profile signupRole) (some tx) payload past

inductive Signs : Request → Op → List ApiCall → Prop
  | access {req : Request} {user : User} {past : List ApiCall} (issues : Issues env req user past) :
      Signs req (accessSign env user) past
  | refresh {req : Request} {user : User} {access : Jwt} {past : List ApiCall}
      (issues : Issues env req user past) :
      Signs req (refreshSign env user) (done (accessSign env user) access :: past)
  | state {email password : String} {user : User} (verified : user.is_verified = true)
      (enabled : user.two_fa_enabled = true) :
      Signs (.login email password) (stateSign env user) [done (.findUserByEmail email) (some user)]

/-- How a call stands to the calls that the same request has made before. -/
def Explained (req : Request) : ApiCall → List ApiCall → Prop
  | ⟨.signAsync payload jti secret expiresIn, _⟩, past =>
    Signs env req (.signAsync payload jti secret expiresIn) past
  | ⟨.hashToken token, _⟩, past => ∃ user access past', Issues env req user past' ∧
    past = signed env user ⟨access, token⟩ ++ past'
  | ⟨.updateUser id payload, _⟩, past => UserWrite env req id payload past
  | ⟨.rotateRefreshTokenHash id currentHash nextHash, _⟩, past => ∃ user tokens past',
    Issues env req user past' ∧ (∃ token, req = .refresh token) ∧ user.id = id ∧
    user.refreshTokenHash = some currentHash ∧ past = hashed env user tokens nextHash ++ past'
  | ⟨.insertUser tx payload, _⟩, past => UserInsert req tx payload past
  | ⟨.deleteUser id, _⟩, _ => ∃ c, req = .deleteUser c id
  | _, _ => True

/-- What a request that hands out tokens has done at its end. -/
inductive Granted (req : Request) (tokens : AuthTokens) : List ApiCall → Prop
  | session {user : User} {hash : Digest Jwt} {updated : Option User} {past : List ApiCall}
      (issues : Issues env req user past) (other : ∀ token, req ≠ .refresh token) :
      Granted req tokens (done (.updateUser user.id { refreshTokenHash := some (some hash) }) updated ::
        (hashed env user tokens hash ++ past))
  | refresh {user : User} {currentHash nextHash : Digest Jwt} {token : Jwt} {past : List ApiCall}
      (request : req = .refresh (some token)) (issues : Issues env req user past)
      (stored : user.refreshTokenHash = some currentHash) :
      Granted req tokens (done (.rotateRefreshTokenHash user.id currentHash nextHash) true ::
        (hashed env user tokens nextHash ++ past))

inductive LoggedOut (token : Jwt) : List ApiCall → Prop
  | rejected {now : ℕ} {e : JwtError} (h : token.verify env.JWT_REFRESH_SECRET now = .error e) :
      LoggedOut token [done .dateNow now]
  | notCurrent {now : ℕ} {payload : JwtPayload} {row : Option User}
      (h : token.verify env.JWT_REFRESH_SECRET now = .ok payload)
      (other : ∀ user hash, row = some user → user.refreshTokenHash = some hash → hash.plain ≠ token) :
      LoggedOut token [done (.findUser none payload.sub) row, done .dateNow now]
  | revoked {now : ℕ} {payload : JwtPayload} {user : User} {updated : Option User}
      (h : token.verify env.JWT_REFRESH_SECRET now = .ok payload) :
      LoggedOut token [done (.updateUser user.id { refreshTokenHash := some none }) updated,
        done (.findUser none payload.sub) (some user), done .dateNow now]

def Outcome (req : Request) : Except Failure Response → List ApiCall → Prop
  | .ok response, past => (∀ tokens, response.authTokens = some tokens → Granted env req tokens past) ∧
    (∀ token, response.stateToken = some token → ∃ email password user,
      req = .login email password ∧ user.is_verified = true ∧ user.two_fa_enabled = true ∧
      past = [done (stateSign env user) token, done (.findUserByEmail email) (some user)]) ∧
    (∀ token, req = .logout (some token) → LoggedOut env token past)
  | .error _, _ => True

end Definitions

def Op.Plain : Op → Prop
  | .signAsync _ _ _ _ => False
  | .hashToken _ => False
  | .updateUser _ _ => False
  | .rotateRefreshTokenHash _ _ _ => False
  | .insertUser _ _ => False
  | .deleteUser _ => False
  | _ => True

variable {env : Env} {req : Request} {α β : Type} {past : List ApiCall}

theorem Explained.of_plain {c : ApiCall} (h : c.1.Plain) : Explained env req c past := by
  obtain ⟨o, r⟩ := c
  cases o <;> trivial

theorem plain_along {p : Action α} {Q : Except Failure α → List ApiCall → Prop} (hp : p.Calls Op.Plain)
    (hQ : ∀ r l, (∀ c ∈ l, c.1.Plain) → Q r (l ++ past)) : p.Along (Explained env req) Q past :=
  along_of_calls (fun _ _ h => .of_plain h) hp hQ

theorem perform_bind_along {Q : Except Failure β → List ApiCall → Prop} {o : Op} {f : o.Res → Action β}
    (explained : ∀ r, Explained env req ⟨o, r⟩ past) (failed : ∀ e, Q (.error e) (⟨o, .error e⟩ :: past))
    (hf : ∀ r, (f r).Along (Explained env req) Q (done o r :: past)) :
    (perform o >>= f).Along (Explained env req) Q past := along_perform_bind explained failed hf

theorem query_bind_along {Q : Except Failure β → List ApiCall → Prop} {o : Op} {f : o.Res → Action β}
    (plain : o.Plain) (lax : ∀ e l, Q (.error e) l)
    (hf : ∀ r, (f r).Along (Explained env req) Q (done o r :: past)) :
    (perform o >>= f).Along (Explained env req) Q past :=
  perform_bind_along (fun _ => .of_plain plain) (fun e => lax e _) hf

theorem plain_bind_along {Q : Except Failure β → List ApiCall → Prop} {p : Action α} {f : α → Action β}
    (hp : p.Calls Op.Plain) (failed : ∀ e l, Q (.error e) (l ++ past))
    (hf : ∀ a l, (f a).Along (Explained env req) Q (l ++ past)) :
    (p >>= f).Along (Explained env req) Q past := by
  apply along_bind
  apply plain_along hp
  intro r l hl
  cases r with
  | ok a => exact hf a l
  | error e => exact failed e l

theorem liftExcept_bind_along {G : ApiCall → List ApiCall → Prop} {Q : Except Failure β → List ApiCall → Prop}
    {x : Except Failure α} {f : α → Action β} (failed : ∀ e, Q (.error e) past)
    (hf : ∀ a, x = .ok a → (f a).Along G Q past) : (liftExcept x >>= f).Along G Q past := by
  cases x with
  | ok a => exact hf a rfl
  | error e => exact failed e

end SkillBridge
