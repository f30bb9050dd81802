import SkillBridge.Database.Schema
import SkillBridge.Interleaving.Safety
import SkillBridge.Shared.Errors

set_option autoImplicit false

namespace SkillBridge

open Interleaving

/-! The statements the services send to PostgreSQL and the library calls they await. -/

structure Mail where
  toAddress : String
  otp : String
  expiresAt : ℕ
  recipientFirstName : String
  deriving DecidableEq

/-- A statement with a transaction runs inside it; the others commit at once. -/
inductive Op
  | findUser (tx : Option TxId) (id : UserId)
  | findUserByEmail (email : String)
  | listUsers (page limit : ℕ)
  | insertUser (tx : Option TxId) (payload : NewUser)
  | updateUser (id : UserId) (payload : UserPayload)
  | rotateRefreshTokenHash (id : UserId) (currentHash nextHash : Digest Jwt)
  | markOnboardingComplete (tx : TxId) (id : UserId)
  | deleteUser (id : UserId)
  | findOauthAccount (provider providerId : String)
  | findOauthAccountOfUser (userId : UserId) (provider : String)
  | insertOauthAccount (tx : Option TxId) (userId : UserId) (provider providerId : String)
  | invalidateActiveOtps (table : OtpTable) (userId : UserId)
  | insertOtp (table : OtpTable) (payload : NewOtp)
  | findLatestOtp (table : OtpTable) (userId : UserId)
  | markOtpUsed (table : OtpTable) (id : OtpId)
  | countRecentResends (table : OtpTable) (userId : UserId) (since : ℕ)
  | findTalentProfile (tx : TxId) (userId : UserId)
  | insertTalentProfile (tx : TxId) (profile : ℕ → TalentProfile)
  | findEmployerProfile (tx : TxId) (userId : UserId)
  | insertEmployerProfile (tx : TxId) (profile : ℕ → EmployerProfile)
  | startTransaction
  | commitTransaction (tx : TxId)
  | rollbackTransaction (tx : TxId)
  | hashText (text : String)
  | hashToken (token : Jwt)
  | signAsync (payload : JwtPayload) (jti : Bool) (secret : String) (expiresIn : ℕ)
  | dateNow
  | randomInt (bound : ℕ)
  | randomBytes (size : ℕ)
  | generateSecret
  | sendVerificationOtp (mail : Mail)
  | sendPasswordReset (mail : Mail)
  | enqueuePasswordReset (userId : UserId)

def Op.Res : Op → Type
  | findUser _ _ => Option User
  | findUserByEmail _ => Option User
  | listUsers _ _ => List User
  | insertUser _ _ => User
  | updateUser _ _ => Option User
  | rotateRefreshTokenHash _ _ _ => Bool
  | markOnboardingComplete _ _ => Unit
  | deleteUser _ => Unit
  | findOauthAccount _ _ => Option (OAuthUser × User)
  | findOauthAccountOfUser _ _ => Option OAuthUser
  | insertOauthAccount _ _ _ _ => OAuthUser
  | invalidateActiveOtps _ _ => Unit
  | insertOtp _ _ => Otp
  | findLatestOtp _ _ => Option Otp
  | markOtpUsed _ _ => Bool
  | countRecentResends _ _ _ => ℕ
  | findTalentProfile _ _ => Option TalentProfile
  | insertTalentProfile _ _ => TalentProfile
  | findEmployerProfile _ _ => Option EmployerProfile
  | insertEmployerProfile _ _ => EmployerProfile
  | startTransaction => TxId
  | commitTransaction _ => Unit
  | rollbackTransaction _ => Unit
  | hashText _ => Digest String
  | hashToken _ => Digest Jwt
  | signAsync _ _ _ _ => Jwt
  | dateNow => ℕ
  | randomInt _ => ℕ
  | randomBytes _ => List UInt8
  | generateSecret => String
  | sendVerificationOtp _ => Unit
  | sendPasswordReset _ => Unit
  | enqueuePasswordReset _ => Unit

abbrev backend : Signature := ⟨Op, Op.Res, Failure⟩

abbrev Action := Prog backend

inductive Write
  | insertUser (payload : NewUser) (id : UserId) (createdAt : ℕ)
  | insertOauthAccount (account : OAuthUser)
  | insertTalentProfile (profile : TalentProfile)
  | insertEmployerProfile (profile : EmployerProfile)
  | markOnboardingComplete (id : UserId)

def updateWhere (id : UserId) (f : User → User) (users : List User) : List User :=
  users.map fun user => if user.id = id then f user else user

def Write.apply (t : Tables) : Write → Tables
  | insertUser payload id createdAt => { t with users := t.users ++ [payload.toUser id createdAt] }
  | insertOauthAccount account => { t with oauthAccounts := t.oauthAccounts ++ [account] }
  | insertTalentProfile profile => { t with talentProfiles := t.talentProfiles ++ [profile] }
  | insertEmployerProfile profile => { t with employerProfiles := t.employerProfiles ++ [profile] }
  | markOnboardingComplete id =>
    { t with users := updateWhere id (fun user => { user with onboarding_complete := true }) t.users }

/-- The committed tables, the writes of the open transactions and the clocks of the two servers. New
keys, salts and token ids are drawn from `fresh`. -/
structure Database where
  tables : Tables
  transactions : List (TxId × List Write)
  fresh : ℕ
  appNow : ℕ
  dbNow : ℕ

namespace Database

variable (db : Database)

def pending (tx : TxId) : List Write := (db.transactions.lookup tx).getD []

/-- What a statement of `tx` reads under READ COMMITTED. -/
def view : Option TxId → Tables
  | none => db.tables
  | some tx => (db.pending tx).foldl Write.apply db.tables

def others (tx : Option TxId) : List Write :=
  (db.transactions.filter fun t => some t.1 ≠ tx).flatMap Prod.snd

def save (tx : Option TxId) (w : Write) : Database :=
  match tx with
  | none => { db with tables := w.apply db.tables }
  | some tx =>
    { db with transactions := db.transactions.map fun t => if t.1 = tx then (t.1, t.2 ++ [w]) else t }

def tick : Database := { db with fresh := db.fresh + 1 }

def setUsers (users : List User) : Database := { db with tables := { db.tables with users } }

def setOtps (table : OtpTable) (otps : List Otp) : Database :=
  { db with tables := { db.tables with otps := fun t => if t = table then otps else db.tables.otps t } }

end Database

namespace Write

def insertsEmail (email : String) : Write → Bool
  | insertUser payload _ _ => payload.email = email
  | _ => false

def linksLike (userId : UserId) (provider providerId : String) : Write → Bool
  | insertOauthAccount account =>
    account.provider = provider && (account.user_id = userId || account.provider_id = providerId)
  | _ => false

def insertsTalentProfileOf (userId : UserId) : Write → Bool
  | insertTalentProfile profile => profile.user_id = userId
  | _ => false

def insertsEmployerProfileOf (userId : UserId) : Write → Bool
  | insertEmployerProfile profile => profile.user_id = userId
  | _ => false

def locks (userId : UserId) : Write → Bool
  | markOnboardingComplete id => id = userId
  | _ => false

def references (userId : UserId) : Write → Bool
  | insertUser _ _ _ => false
  | insertOauthAccount account => account.user_id = userId
  | insertTalentProfile profile => profile.user_id = userId
  | insertEmployerProfile profile => profile.user_id = userId
  | markOnboardingComplete id => id = userId

end Write

/-- What a call draws from outside: random numbers, texts and bytes, the order of rows that tie. -/
structure Draw where
  number : ℕ := 0
  text : String := ""
  bytes : List UInt8 := []

abbrev Reply (o : Op) : Type := backend.Reply o

namespace Database

variable (db : Database)

def findById (users : List User) (id : UserId) : Option User := users.find? fun user => user.id = id

/-- The values are checked before the row is inserted. A unique key is checked against the committed rows and
those of the own transaction first; then the statement waits while another open transaction holds the key.
Foreign keys are checked last. -/
def insertUnique {α : Type} (fits taken waits dangling : Bool) (row : α) (tx : Option TxId) (w : Write) :
    Option (Except Failure α × Database) :=
  if !fits then some (.error (.queryFailed .dataException), db)
  else if taken then some (.error (.queryFailed .uniqueViolation), db)
  else if waits then none
  else if dangling then some (.error (.queryFailed .foreignKeyViolation), db)
  else some (.ok row, (db.save tx w).tick)

def insertUser (tx : Option TxId) (payload : NewUser) : Option (Except Failure User × Database) :=
  db.insertUnique payload.fits ((db.view tx).users.any fun user => user.email = payload.email)
    ((db.others tx).any (Write.insertsEmail payload.email)) false (payload.toUser db.fresh db.dbNow) tx
    (.insertUser payload db.fresh db.dbNow)

def updateUser (id : UserId) (payload : UserPayload) : Option (Except Failure (Option User) × Database) :=
  match findById db.tables.users id with
  | none => some (.ok none, db)
  | some user =>
    if !payload.fits then some (.error (.queryFailed .dataException), db)
    else if (db.others none).any (Write.locks id) then none
    else if payload.violatesNotNull then some (.error (.queryFailed .notNullViolation), db)
    else if payload.email.join.any fun email =>
        db.tables.users.any fun other => other.id ≠ id && other.email = email then
      some (.error (.queryFailed .uniqueViolation), db)
    else if payload.email.join.any fun email => (db.others none).any (Write.insertsEmail email) then none
    else some (.ok (some (payload.apply user)), db.setUsers (updateWhere id payload.apply db.tables.users))

def rotateRefreshTokenHash (id : UserId) (currentHash nextHash : Digest Jwt) :
    Option (Except Failure Bool × Database) :=
  match findById db.tables.users id with
  | none => some (.ok false, db)
  | some user =>
    if user.refreshTokenHash ≠ some currentHash then some (.ok false, db)
    else if (db.others none).any (Write.locks id) then none
    else some (.ok true, db.setUsers
      (updateWhere id (fun user => { user with refreshTokenHash := some nextHash }) db.tables.users))

def markOnboardingComplete (tx : TxId) (id : UserId) : Option (Except Failure Unit × Database) :=
  if (db.others (some tx)).any (Write.locks id) then none
  else some (.ok (), db.save (some tx) (.markOnboardingComplete id))

/-- OTPs and profiles are deleted with their user, OAuth accounts forbid the deletion. -/
def deleteUser (id : UserId) : Option (Except Failure Unit × Database) :=
  if (db.others none).any (Write.references id) then none
  else if db.tables.oauthAccounts.any fun account => account.user_id = id then
    some (.error (.queryFailed .foreignKeyViolation), db)
  else some (.ok (), { db with tables := { db.tables with
    users := db.tables.users.filter fun user => user.id ≠ id
    otps := fun t => (db.tables.otps t).filter fun otp => otp.userId ≠ id
    talentProfiles := db.tables.talentProfiles.filter fun profile => profile.user_id ≠ id
    employerProfiles := db.tables.employerProfiles.filter fun profile => profile.user_id ≠ id } })

def findOauthAccount (provider providerId : String) : Option (OAuthUser × User) :=
  match db.tables.oauthAccounts.find? fun account =>
      account.provider = provider && account.provider_id = providerId with
  | none => none
  | some account => (findById db.tables.users account.user_id).map fun user => (account, user)

def insertOauthAccount (tx : Option TxId) (userId : UserId) (provider providerId : String) :
    Option (Except Failure OAuthUser × Database) :=
  let account := ⟨db.fresh, userId, provider, providerId, db.dbNow⟩
  db.insertUnique (fitsIdentity provider providerId)
    ((db.view tx).oauthAccounts.any fun other =>
      other.provider = provider && (other.user_id = userId || other.provider_id = providerId))
    ((db.others tx).any (Write.linksLike userId provider providerId))
    (findById (db.view tx).users userId).isNone account tx (.insertOauthAccount account)

def activeOtps (table : OtpTable) (userId : UserId) : List Otp :=
  (db.tables.otps table).filter fun otp => otp.userId = userId && otp.Active db.dbNow

def invalidateActiveOtps (table : OtpTable) (userId : UserId) : Database :=
  db.setOtps table ((db.tables.otps table).map fun otp =>
    if otp.userId = userId ∧ otp.Active db.dbNow then { otp with usedAt := some db.dbNow } else otp)

def insertOtp (table : OtpTable) (payload : NewOtp) : Except Failure Otp × Database :=
  if (findById db.tables.users payload.userId).isNone then
    (.error (.queryFailed .foreignKeyViolation), db)
  else
    let otp := payload.toOtp db.fresh db.dbNow
    (.ok otp, (db.setOtps table (db.tables.otps table ++ [otp])).tick)

/-- `ORDER BY created_at DESC`: any of the rows created last may come first. -/
def findLatestOtp (table : OtpTable) (userId : UserId) (draw : ℕ) : Option Otp :=
  let active := db.activeOtps table userId
  let latest := active.filter fun otp => active.all fun other => other.createdAt ≤ otp.createdAt
  latest[draw % latest.length]?

def markOtpUsed (table : OtpTable) (id : OtpId) : Bool × Database :=
  if (db.tables.otps table).any fun otp => otp.id = id && otp.usedAt = none then
    (true, db.setOtps table ((db.tables.otps table).map fun otp =>
      if otp.id = id ∧ otp.usedAt = none then { otp with usedAt := some db.dbNow } else otp))
  else (false, db)

def countRecentResends (table : OtpTable) (userId : UserId) (since : ℕ) : ℕ :=
  ((db.tables.otps table).filter fun otp =>
    otp.userId = userId && otp.requestSource = .resend && since ≤ otp.createdAt).length

def insertTalentProfile (tx : TxId) (profile : ℕ → TalentProfile) :
    Option (Except Failure TalentProfile × Database) :=
  let row := profile db.fresh
  db.insertUnique row.fits ((db.view (some tx)).talentProfiles.any fun other => other.user_id = row.user_id)
    ((db.others (some tx)).any (Write.insertsTalentProfileOf row.user_id))
    (findById (db.view (some tx)).users row.user_id).isNone row (some tx) (.insertTalentProfile row)

def insertEmployerProfile (tx : TxId) (profile : ℕ → EmployerProfile) :
    Option (Except Failure EmployerProfile × Database) :=
  let row := profile db.fresh
  db.insertUnique row.fits ((db.view (some tx)).employerProfiles.any fun other => other.user_id = row.user_id)
    ((db.others (some tx)).any (Write.insertsEmployerProfileOf row.user_id))
    (findById (db.view (some tx)).users row.user_id).isNone row (some tx) (.insertEmployerProfile row)

def closeTransaction (tx : TxId) : List (TxId × List Write) := db.transactions.filter fun t => t.1 ≠ tx

def signAsync (payload : JwtPayload) (jti : Bool) (secret : String) (expiresIn : ℕ) : Jwt :=
  let iat := db.appNow / 1000
  { secret, iat, exp := iat + expiresIn / 1000
    payload := { payload with jti := if jti then some db.fresh else none } }

def exec : (o : Op) → Draw → Database → Option (Reply o × Database)
  | .findUser tx id, _, db => some (.ok (findById (db.view tx).users id), db)
  | .findUserByEmail email, _, db => some (.ok (db.tables.users.find? fun user => user.email = email), db)
  | .listUsers page limit, _, db =>
    some (.ok (((db.tables.users.mergeSort fun u v => v.createdAt ≤ u.createdAt).drop
      ((page - 1) * limit)).take limit), db)
  | .insertUser tx payload, _, db => db.insertUser tx payload
  | .updateUser id payload, _, db => db.updateUser id payload
  | .rotateRefreshTokenHash id currentHash nextHash, _, db =>
    db.rotateRefreshTokenHash id currentHash nextHash
  | .markOnboardingComplete tx id, _, db => db.markOnboardingComplete tx id
  | .deleteUser id, _, db => db.deleteUser id
  | .findOauthAccount provider providerId, _, db => some (.ok (db.findOauthAccount provider providerId), db)
  | .findOauthAccountOfUser userId provider, _, db =>
    some (.ok (db.tables.oauthAccounts.find? fun account =>
      account.user_id = userId && account.provider = provider), db)
  | .insertOauthAccount tx userId provider providerId, _, db =>
    db.insertOauthAccount tx userId provider providerId
  | .invalidateActiveOtps table userId, _, db => some (.ok (), db.invalidateActiveOtps table userId)
  | .insertOtp table payload, _, db => some (db.insertOtp table payload)
  | .findLatestOtp table userId, ω, db => some (.ok (db.findLatestOtp table userId ω.number), db)
  | .markOtpUsed table id, _, db => some (.ok (db.markOtpUsed table id).1, (db.markOtpUsed table id).2)
  | .countRecentResends table userId since, _, db => some (.ok (db.countRecentResends table userId since), db)
  | .findTalentProfile tx userId, _, db =>
    some (.ok ((db.view (some tx)).talentProfiles.find? fun profile => profile.user_id = userId), db)
  | .insertTalentProfile tx profile, _, db => db.insertTalentProfile tx profile
  | .findEmployerProfile tx userId, _, db =>
    some (.ok ((db.view (some tx)).employerProfiles.find? fun profile => profile.user_id = userId), db)
  | .insertEmployerProfile tx profile, _, db => db.insertEmployerProfile tx profile
  | .startTransaction, _, db =>
    some (.ok db.fresh, { db with transactions := (db.fresh, []) :: db.transactions }.tick)
  | .commitTransaction tx, _, db =>
    some (.ok (), { db with tables := db.view (some tx), transactions := db.closeTransaction tx })
  | .rollbackTransaction tx, _, db => some (.ok (), { db with transactions := db.closeTransaction tx })
  | .hashText text, _, db => some (.ok ⟨text, db.fresh⟩, db.tick)
  | .hashToken token, _, db => some (.ok ⟨token, db.fresh⟩, db.tick)
  | .signAsync payload jti secret expiresIn, _, db =>
    some (.ok (db.signAsync payload jti secret expiresIn), db.tick)
  | .dateNow, _, db => some (.ok db.appNow, db)
  | .randomInt bound, ω, db => some (.ok (ω.number % bound), db)
  | .randomBytes size, ω, db => if ω.bytes.length = size then some (.ok ω.bytes, db) else none
  | .generateSecret, ω, db => some (.ok ω.text, db)
  | .sendVerificationOtp _, _, db => some (.ok (), db)
  | .sendPasswordReset _, _, db => some (.ok (), db)
  | .enqueuePasswordReset _, _, db => some (.ok (), db)

end Database

structure Tick where
  app : ℕ
  db : ℕ

/-- A lost connection, a mail or a hash that fails: any call may, and then it has no effect. -/
def infrastructureFailure : Failure → Bool
  | .queryFailed .connectionLost => true
  | .error _ => true
  | _ => false

def server : Machine backend Database Draw Tick where
  exec := Database.exec
  failure := infrastructureFailure
  env m db := { db with appNow := db.appNow + m.app, dbNow := db.dbNow + m.db }

end SkillBridge
