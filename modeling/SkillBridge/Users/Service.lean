import SkillBridge.Config.Env

set_option autoImplicit false

/-! `src/modules/users/users.service.ts` and the model actions it calls. -/

namespace SkillBridge

open Interleaving

structure CreateUserDto where
  email : String
  password : String
  first_name : String
  last_name : String
  country : String
  profile_pic_url : Option String := none
  signup_reason : Option String := none
  role : Option UserRole := none

structure UpdateUserDto where
  email : Option (Option String) := none
  password : Option (Option String) := none
  first_name : Option (Option String) := none
  last_name : Option (Option String) := none
  country : Option (Option String) := none
  profile_pic_url : Option (Option String) := none
  signup_reason : Option (Option String) := none
  role : Option (Option UserRole) := none

structure PaginationDto where
  page : ℕ := 1
  limit : ℕ := 20

inductive OAuthSignupRole
  | talent
  | employer
  deriving DecidableEq

def OAuthSignupRole.toUserRole : OAuthSignupRole → UserRole
  | talent => .talent
  | employer => .employer

def fitsProfile (email firstName lastName : String) (avatarUrl : Option String) : Bool :=
  fitsColumns [(some 255, some email), (some 255, some firstName), (some 255, some lastName), (some 500, avatarUrl)]

structure OAuthProfilePayload where
  providerId : String
  email : String
  firstName : String
  lastName : String
  avatarUrl : Option String
  fits : fitsProfile email firstName lastName avatarUrl = true

structure CreateVerifiedUserWithOauthLinkParams where
  email : String
  first_name : String
  last_name : String
  country : String
  avatar_url : Option String
  provider : String
  providerId : String
  role : OAuthSignupRole

def OAUTH_DEFAULT_COUNTRY := "Unknown"

theorem NewUser.fits_of_profile {payload : NewUser}
    (h : fitsProfile payload.email payload.first_name payload.last_name payload.avatar_url = true)
    (country : payload.country = OAUTH_DEFAULT_COUNTRY) (reason : payload.signup_reason = none) :
    payload.fits = true := by
  have hcountry : fitsColumn (some 100) OAUTH_DEFAULT_COUNTRY = true := by decide
  simp only [fitsProfile, fitsColumns, List.all_cons, List.all_nil, Bool.and_true, Bool.and_eq_true] at h
  simp [NewUser.fits, fitsColumns, h, country, reason, hcountry]

namespace UserModelAction

def createUserWithOauthLink (tx : TxId) (params : CreateVerifiedUserWithOauthLinkParams) : Action User := do
  let user ← perform (.insertUser (some tx)
    { email := params.email
      password := none
      first_name := params.first_name
      last_name := params.last_name
      avatar_url := params.avatar_url
      country := params.country
      is_verified := true
      onboarding_complete := false
      role := params.role.toUserRole
      signup_reason := none })
  let _ ← perform (.insertOauthAccount (some tx) user.id params.provider params.providerId)
  match ← perform (.findUser (some tx) user.id) with
  | some user => pure user
  | none => throw (.error "EntityNotFoundError")

def createVerifiedUserWithOauthLink (params : CreateVerifiedUserWithOauthLinkParams) : Action User :=
  transaction fun tx => createUserWithOauthLink tx params

end UserModelAction

namespace UsersService

def findByEmail (email : String) : Action (Option User) := perform (.findUserByEmail email)

def create (dto : CreateUserDto) : Action User := do
  match ← findByEmail dto.email with
  | some _ => throw (conflictError ErrorMessages.EMAIL_ALREADY_REGISTERED)
  | none =>
    let passwordHash ← perform (.hashText dto.password)
    perform (.insertUser none
      { email := dto.email
        password := some passwordHash
        first_name := dto.first_name
        last_name := dto.last_name
        avatar_url := dto.profile_pic_url
        country := dto.country
        is_verified := false
        onboarding_complete := false
        role := dto.role.getD .talent
        signup_reason := trimToNull dto.signup_reason })

def findAll (pagination : PaginationDto) : Action (List User) :=
  perform (.listUsers pagination.page pagination.limit)

def findOneOrNull (id : UserId) : Action (Option User) := perform (.findUser none id)

def findOne (id : UserId) : Action User := do
  match ← findOneOrNull id with
  | some user => pure user
  | none => throw (notFoundError (ErrorMessages.NOT_FOUND id))

def UpdateUserDto.toPayload (dto : UpdateUserDto) (password : Option (Option (Digest String))) : UserPayload :=
  { email := dto.email
    password
    first_name := dto.first_name
    last_name := dto.last_name
    avatar_url := dto.profile_pic_url
    country := dto.country
    role := dto.role
    signup_reason := dto.signup_reason }

def hashPassword : Option (Option String) → Action (Option (Option (Digest String)))
  | some (some password) => do
    let hash ← perform (.hashText password)
    pure (some (some hash))
  | some none => pure (some none)
  | none => pure none

def update (id : UserId) (dto : UpdateUserDto) : Action User := do
  let _ ← findOne id
  let password ← hashPassword dto.password
  match ← perform (.updateUser id (UpdateUserDto.toPayload dto password)) with
  | some updated => pure updated
  | none => throw (internalServerError ErrorMessages.UPDATE_FAILED)

def remove (id : UserId) : Action Unit := do
  let _ ← findOne id
  perform (.deleteUser id)

def setRefreshTokenHash (id : UserId) (hash : Option (Digest Jwt)) : Action Unit := do
  let _ ← perform (.updateUser id { refreshTokenHash := some hash })

def updatePassword (id : UserId) (passwordHash : Digest String) : Action Unit := do
  let _ ← perform (.updateUser id { password := some (some passwordHash), refreshTokenHash := some none })

def markVerified (id : UserId) : Action User := do
  let _ ← perform (.updateUser id { is_verified := some true })
  findOne id

def getUserForOnboarding (tx : TxId) (id : UserId) : Action User := do
  match ← perform (.findUser (some tx) id) with
  | some user => pure user
  | none => throw (notFoundError (ErrorMessages.NOT_FOUND id))

def markOnboardingCompleteWithManager (tx : TxId) (id : UserId) : Action Unit :=
  perform (.markOnboardingComplete tx id)

def rotateRefreshTokenHash (id : UserId) (currentHash nextHash : Digest Jwt) : Action Bool :=
  perform (.rotateRefreshTokenHash id currentHash nextHash)

def findOauthAccountWithUser (provider providerId : String) : Action (Option (OAuthUser × User)) :=
  perform (.findOauthAccount provider providerId)

def linkOauthAccountToUser (userId : UserId) (provider providerId : String) : Action Unit :=
  tryCatch (do let _ ← perform (.insertOauthAccount none userId provider providerId))
    fun err => do
      if isPostgresUniqueViolation err then
        let byExternal ← findOauthAccountWithUser provider providerId
        if byExternal.any fun linked => linked.2.id = userId then pure ()
        else
          let forUserProvider ← perform (.findOauthAccountOfUser userId provider)
          if forUserProvider.any fun account => account.provider_id = providerId then pure ()
          else throw err
      else throw err

def set2faTotpActiveState (userId : UserId) (state : Bool) : Action Unit := do
  let _ ← perform (.updateUser userId
    { two_fa_enabled := some state
      two_fa_method := some (some .totp)
      two_fa_totp_secret := if state then none else some none })

/-- Only `NotFoundException` and `ConflictError` pass as they are. -/
def setup2faTotpFailed (error : Failure) : Action Unit :=
  if error.status = some 404 ∨ error.status = some 409 then throw error
  else throw (internalServerError ErrorMessages.INTERNAL_SERVER_ERROR)

def setup2faTotp (userId : UserId) (encryptedSecret : String) : Action Unit :=
  tryCatch (do
      match ← perform (.findUser none userId) with
      | none => throw (notFoundError (ErrorMessages.NOT_FOUND userId))
      | some user =>
        if user.two_fa_method ≠ none then throw (conflictError ErrorMessages.TWO_FA_ALREADY_ACTIVE)
        else
          let _ ← perform (.updateUser userId { two_fa_totp_secret := some (some encryptedSecret) }))
    setup2faTotpFailed

def linkByEmail (user : User) (provider providerId : String) : Action User := do
  if user.is_verified then pure () else let _ ← markVerified user.id
  linkOauthAccountToUser user.id provider providerId
  findOne user.id

def resolveOAuthUserFromProviderProfile (provider : String) (profile : OAuthProfilePayload)
    (signupRole : Option OAuthSignupRole) : Action User := do
  match ← findOauthAccountWithUser provider profile.providerId with
  | some linked => pure linked.2
  | none =>
    match ← findByEmail profile.email with
    | some byEmail => linkByEmail byEmail provider profile.providerId
    | none =>
      tryCatch (match signupRole with
          | none => throw .oauthSignupRoleRequired
          | some signupRole => UserModelAction.createVerifiedUserWithOauthLink
            { email := profile.email
              first_name := profile.firstName
              last_name := profile.lastName
              country := OAUTH_DEFAULT_COUNTRY
              avatar_url := profile.avatarUrl
              provider
              providerId := profile.providerId
              role := signupRole })
        fun err => do
          if isPostgresUniqueViolation err then
            match ← findByEmail profile.email with
            | some raced => linkByEmail raced provider profile.providerId
            | none => throw err
          else throw err

section Calls

variable {K : Op → Prop}

theorem calls_findOne {id : UserId} (read : K (.findUser none id)) : (findOne id).Calls K := by
  refine Prog.calls_bind (Prog.calls_perform read) fun row => ?_
  cases row <;> trivial

theorem calls_create {dto : CreateUserDto} (read : K (.findUserByEmail dto.email)) (hashed : K (.hashText dto.password))
    (inserted : ∀ payload : NewUser, payload.role = dto.role.getD .talent → payload.onboarding_complete = false →
      K (.insertUser none payload)) : (create dto).Calls K := by
  refine Prog.calls_bind (Prog.calls_perform read) fun existing => ?_
  cases existing with
  | some user => trivial
  | none =>
    refine Prog.calls_bind (Prog.calls_perform hashed) fun passwordHash => ?_
    exact Prog.calls_perform (inserted _ rfl rfl)

theorem calls_linkOauthAccountToUser {userId : UserId} {provider providerId : String}
    (linked : K (.insertOauthAccount none userId provider providerId))
    (byExternal : K (.findOauthAccount provider providerId))
    (forUserProvider : K (.findOauthAccountOfUser userId provider)) :
    (linkOauthAccountToUser userId provider providerId).Calls K := by
  apply Prog.calls_tryCatch
  · exact Prog.calls_bind (Prog.calls_perform linked) fun _ => trivial
  · intro e
    split_ifs
    · refine Prog.calls_bind (Prog.calls_perform byExternal) fun account => ?_
      split_ifs
      · trivial
      · refine Prog.calls_bind (Prog.calls_perform forUserProvider) fun account => ?_
        split_ifs <;> trivial
    · trivial

theorem calls_linkByEmail {user : User} {provider providerId : String}
    (verified : K (.updateUser user.id { is_verified := some true })) (read : K (.findUser none user.id))
    (linked : K (.insertOauthAccount none user.id provider providerId))
    (byExternal : K (.findOauthAccount provider providerId))
    (forUserProvider : K (.findOauthAccountOfUser user.id provider)) :
    (linkByEmail user provider providerId).Calls K := by
  have hlink : (linkOauthAccountToUser user.id provider providerId >>= fun _ => findOne user.id).Calls K :=
    Prog.calls_bind (calls_linkOauthAccountToUser linked byExternal forUserProvider) fun _ => calls_findOne read
  unfold linkByEmail
  dsimp only
  split_ifs
  · exact hlink
  · exact Prog.calls_bind (Prog.calls_bind (Prog.calls_perform verified) fun _ => calls_findOne read) fun _ => hlink

end Calls

end UsersService

/-! A user with two-factor authentication and a database to evaluate the system on. -/

def sampleUser : User where
  id := 1
  email := "user@example.com"
  password := some ⟨"correct horse", 0⟩
  first_name := "Ada"
  last_name := "Lovelace"
  avatar_url := none
  country := OAUTH_DEFAULT_COUNTRY
  is_verified := true
  onboarding_complete := false
  role := .talent
  signup_reason := none
  two_fa_enabled := true
  two_fa_method := some .totp
  two_fa_totp_secret := some "000000000000000000000000::000053"
  refreshTokenHash := none
  createdAt := 0

def sampleDatabase (users : List User) : Database where
  tables := { users, oauthAccounts := [], otps := fun _ => [], talentProfiles := [], employerProfiles := [] }
  transactions := []
  fresh := 10
  appNow := 1700000000000
  dbNow := 1700000000000

end SkillBridge
