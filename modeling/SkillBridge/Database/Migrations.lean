import SkillBridge.Relational.Migrations

set_option autoImplicit false

/-! `src/database/migrations`, in the order of their timestamps. -/

namespace SkillBridge.Migrations

open Relational

inductive Name
  | users | verification_otps | user_oauth_accounts | waitlist_entries | contact_messages | candidate_profiles
  | employer_profiles | password_reset_tokens | talent_profiles | password_reset_otps
  | id | email | password | first_name | last_name | avatar_url | role | refresh_token_hash | created_at | updated_at
  | deleted_at | country | is_verified | onboarding_complete | signup_reason | two_fa_enabled | two_fa_method
  | two_fa_totp_secret
  | user_id | otp_hash | expires_at | used_at | request_source | provider | provider_id
  | full_name | subject | message | joining_as | preferred_role | referral_source
  | role_track | status | bio | profile_share_link | is_published | published_at
  | company_name | company_size | industry | website_url | company_description | hiring_region
  | token_lookup_hash | token_hash
  | users_role_enum | users_two_fa_method_enum
  | IDX_verification_otps_user_created_at | IDX_waitlist_entries_created_at | IDX_contact_messages_created_at
  | IDX_user_oauth_provider | IDX_oauth_provider_external_id | IDX_password_reset_tokens_user_used_expires
  | IDX_password_reset_otps_user_used_expires
  | UQ_e378ee51a78adea4509c0e906d8 | UQ_7eb25183e951b6ca44f292df21a | REL_a093a39110ecd3602d87f0e814
  | PK_9458665223e7b768f5e632efe49 | FK_a093a39110ecd3602d87f0e814b
  deriving DecidableEq

section QueryRunner

variable (table : Name)

def createType (name : Name) (labels : List String) : Step Name := .query (.createType name labels)
def dropType (name : Name) (ifExists : Bool) : Step Name := .query (.dropType name ifExists)
def createTable (table : Table Name) (ifNotExist : Bool) : Step Name := .query (.createTable table ifNotExist)
def dropTable : Step Name := .query (.dropTable table)
def addColumn (column : Column Name) : Step Name := .query (.alterTable table (.addColumn column))
def dropColumn (column : Name) : Step Name := .query (.alterTable table (.dropColumn column))
def setNotNull (column : Name) : Step Name := .query (.alterTable table (.setNotNull column))
def dropNotNull (column : Name) : Step Name := .query (.alterTable table (.dropNotNull column))
def setDefault (column : Name) (label : String) : Step Name :=
  .query (.alterTable table (.setDefault column (.value (.text label))))
def dropDefault (column : Name) : Step Name := .query (.alterTable table (.dropDefault column))
def setType (column : Name) (type : ColumnType Name) : Step Name := .query (.alterTable table (.setType column type))
def createForeignKey (key : ForeignKey Name) : Step Name := .query (.alterTable table (.addForeignKey key))
def dropConstraint (name : Name) (ifExists : Bool) : Step Name :=
  .query (.alterTable table (.dropConstraint name ifExists))
def createIndex (index : Index Name) (ifNotExists : Bool) : Step Name :=
  .query (.createIndex table index ifNotExists)
def dropIndex (name : Name) (ifExists : Bool) : Step Name := .query (.dropIndex name ifExists)
def update (set : List (Name × Value)) (condition : Row Name → Bool) : Step Name :=
  .query (.update table set condition)

end QueryRunner

def uuid (name : Name) : Column Name := { name, type := .uuid }
def varchar (name : Name) (length : ℕ) : Column Name := { name, type := .varchar length }
def text (name : Name) : Column Name := { name, type := .text }
def timestamptz (name : Name) : Column Name := { name, type := .timestamptz }
def boolean (name : Name) : Column Name := { name, type := .boolean, default := some (.value (.boolean false)) }

def nullable (column : Column Name) : Column Name := { column with isNullable := true }
def labelled (column : Column Name) (label : String) : Column Name :=
  { column with default := some (.value (.text label)) }
def computed (column : Column Name) (function : String) : Column Name := { column with default := some (.call function) }

def toUser (cascades : Bool) : ForeignKey Name :=
  { columns := [.user_id], referencedTable := .users, referencedColumns := [.id], cascades }

/-- The extension that gives `uuid_generate_v4` is left out. -/
def CreateUsers : Migration Name where
  name := "CreateUsers1777397612137"
  up :=
    [createType .users_role_enum ["admin", "user"],
      createTable
        { name := .users
          columns :=
            [computed (uuid .id) "uuid_generate_v4()", varchar .email 255, varchar .password 255,
              varchar .first_name 255, varchar .last_name 255, nullable (varchar .avatar_url 500),
              labelled { name := .role, type := .enum .users_role_enum } "user",
              nullable (varchar .refresh_token_hash 500), computed (timestamptz .created_at) "now()",
              computed (timestamptz .updated_at) "now()", nullable (timestamptz .deleted_at)]
          keys := [{ columns := [.id] }, { columns := [.email] }] } true]
  down := [dropTable .users, dropType .users_role_enum true]

def AlignUsersWithAuthContract : Migration Name where
  name := "AlignUsersWithAuthContract1777480000000"
  up :=
    [dropDefault .users .role,
      setType .users .role (.varchar 20),
      dropType .users_role_enum false,
      createType .users_role_enum ["admin", "candidate", "employer"],
      update .users [(.role, .text "candidate")] fun r => r .role = .text "user",
      setType .users .role (.enum .users_role_enum),
      addColumn .users (nullable (varchar .country 100)),
      addColumn .users (boolean .is_verified),
      addColumn .users (boolean .onboarding_complete),
      update .users [(.is_verified, .boolean true), (.onboarding_complete, .boolean true)] fun _ => true,
      update .users [(.country, .text "Unknown")] fun r => r .country = .null,
      setNotNull .users .country,
      setDefault .users .role "candidate"]
  down :=
    [dropDefault .users .role,
      setType .users .role (.varchar 20),
      update .users [(.role, .text "user")] fun r => r .role ≠ .null && r .role ≠ .text "admin",
      dropType .users_role_enum false,
      createType .users_role_enum ["admin", "user"],
      setType .users .role (.enum .users_role_enum),
      setDefault .users .role "user",
      dropColumn .users .onboarding_complete,
      dropColumn .users .is_verified,
      dropColumn .users .country]

def CreateVerificationOtps : Migration Name where
  name := "CreateVerificationOtps1777560000000"
  up :=
    [createTable
        { name := .verification_otps
          columns :=
            [computed (uuid .id) "gen_random_uuid()", uuid .user_id, varchar .otp_hash 255, timestamptz .expires_at,
              nullable (timestamptz .used_at), labelled (varchar .request_source 20) "initial",
              computed (timestamptz .created_at) "now()"]
          keys := [{ columns := [.id] }] } true,
      createForeignKey .verification_otps (toUser true),
      createIndex .verification_otps
        { name := .IDX_verification_otps_user_created_at, columns := [.user_id, .created_at] } false]
  down :=
    [dropIndex .IDX_verification_otps_user_created_at false,
      .ifTable .verification_otps [.alterTable .verification_otps (.dropForeignKey .user_id)],
      dropTable .verification_otps]

def CreateUserOauthAccounts : Migration Name where
  name := "CreateUserOauthAccounts1778303543544"
  up :=
    [createTable
        { name := .user_oauth_accounts
          columns :=
            [computed (uuid .id) "uuid_generate_v4()", uuid .user_id, varchar .provider 20, varchar .provider_id 255,
              computed (timestamptz .created_at) "now()"]
          keys :=
            [{ name := some .UQ_e378ee51a78adea4509c0e906d8, columns := [.provider] },
              { name := some .UQ_7eb25183e951b6ca44f292df21a, columns := [.provider_id] },
              { name := some .REL_a093a39110ecd3602d87f0e814, columns := [.user_id] },
              { name := some .PK_9458665223e7b768f5e632efe49, columns := [.id] }] } false,
      createForeignKey .user_oauth_accounts { toUser false with name := some .FK_a093a39110ecd3602d87f0e814b }]
  down := [dropConstraint .user_oauth_accounts .FK_a093a39110ecd3602d87f0e814b false, dropTable .user_oauth_accounts]

def CreateInquiriesTables : Migration Name where
  name := "CreateInquiriesTables1778308000000"
  up :=
    [createTable
        { name := .waitlist_entries
          columns :=
            [computed (uuid .id) "gen_random_uuid()", varchar .email 255, computed (timestamptz .created_at) "now()"]
          keys := [{ columns := [.id] }, { columns := [.email] }] } true,
      createIndex .waitlist_entries { name := .IDX_waitlist_entries_created_at, columns := [.created_at] } false,
      createTable
        { name := .contact_messages
          columns :=
            [computed (uuid .id) "gen_random_uuid()", varchar .full_name 255, varchar .email 255, varchar .subject 255,
              text .message, computed (timestamptz .created_at) "now()"]
          keys := [{ columns := [.id] }] } true,
      createIndex .contact_messages { name := .IDX_contact_messages_created_at, columns := [.created_at] } false]
  down :=
    [dropIndex .IDX_contact_messages_created_at false, dropTable .contact_messages,
      dropIndex .IDX_waitlist_entries_created_at false, dropTable .waitlist_entries]

def FixUserOauthAccountConstraints : Migration Name where
  name := "FixUserOauthAccountConstraints1778312000000"
  up :=
    [dropConstraint .user_oauth_accounts .UQ_e378ee51a78adea4509c0e906d8 true,
      dropConstraint .user_oauth_accounts .UQ_7eb25183e951b6ca44f292df21a true,
      dropConstraint .user_oauth_accounts .REL_a093a39110ecd3602d87f0e814 true,
      createIndex .user_oauth_accounts
        { name := .IDX_user_oauth_provider, columns := [.user_id, .provider], isUnique := true } true,
      createIndex .user_oauth_accounts
        { name := .IDX_oauth_provider_external_id, columns := [.provider, .provider_id], isUnique := true } true]
  down := [.throw <| "Migration FixUserOauthAccountConstraints1778312000000 is irreversible. " ++
    "Rollback would restore a broken schema that prevents users from linking multiple OAuth providers."]

def MakeUserPasswordNullableForOAuth : Migration Name where
  name := "MakeUserPasswordNullableForOAuth1778314000000"
  up := [dropNotNull .users .password]
  down :=
    [.refuseNull .users .password
        "Cannot revert MakeUserPasswordNullableForOAuth: OAuth-only users with NULL password exist",
      setNotNull .users .password]

def CreateRoleProfiles : Migration Name where
  name := "CreateRoleProfiles1778322000000"
  up :=
    [createTable
        { name := .candidate_profiles
          columns :=
            [computed (uuid .id) "gen_random_uuid()", uuid .user_id, varchar .role_track 50,
              labelled (varchar .status 20) "not_started", nullable (text .bio),
              nullable (varchar .profile_share_link 255), boolean .is_published, nullable (timestamptz .published_at),
              computed (timestamptz .created_at) "now()", computed (timestamptz .updated_at) "now()"]
          keys := [{ columns := [.id] }, { columns := [.user_id] }, { columns := [.profile_share_link] }]
          foreignKeys := [toUser true] } false,
      createTable
        { name := .employer_profiles
          columns :=
            [computed (uuid .id) "gen_random_uuid()", uuid .user_id, varchar .company_name 255,
              nullable (varchar .company_size 50), nullable (varchar .industry 100),
              nullable (varchar .website_url 255), nullable (text .company_description),
              nullable (varchar .hiring_region 100), computed (timestamptz .created_at) "now()",
              computed (timestamptz .updated_at) "now()"]
          keys := [{ columns := [.id] }, { columns := [.user_id] }]
          foreignKeys := [toUser true] } false]
  down := [dropTable .employer_profiles, dropTable .candidate_profiles]

def MakeUserPasswordNullable : Migration Name where
  name := "MakeUserPasswordNullable1778335465924"
  up := [dropNotNull .users .password]
  down :=
    [.refuseNull .users .password "Cannot revert MakeUserPasswordNullable: OAuth-only users with NULL password exist",
      setNotNull .users .password]

def RestoreIncorrectlyDroppedIndexes : Migration Name where
  name := "RestoreIncorrectlyDroppedIndexes1778336000000"
  up :=
    [createIndex .waitlist_entries { name := .IDX_waitlist_entries_created_at, columns := [.created_at] } true,
      createIndex .contact_messages { name := .IDX_contact_messages_created_at, columns := [.created_at] } true,
      createIndex .verification_otps
        { name := .IDX_verification_otps_user_created_at, columns := [.user_id, .created_at] } true]
  down :=
    [dropIndex .IDX_verification_otps_user_created_at true, dropIndex .IDX_contact_messages_created_at true,
      dropIndex .IDX_waitlist_entries_created_at true]

def passwordResetTokens : List (Step Name) :=
  [createTable
      { name := .password_reset_tokens
        columns :=
          [computed (uuid .id) "gen_random_uuid()", uuid .user_id, varchar .token_lookup_hash 64,
            varchar .token_hash 255, timestamptz .expires_at, nullable (timestamptz .used_at),
            computed (timestamptz .created_at) "now()"]
        keys := [{ columns := [.id] }, { columns := [.token_lookup_hash] }] } true,
    createForeignKey .password_reset_tokens (toUser true),
    createIndex .password_reset_tokens
      { name := .IDX_password_reset_tokens_user_used_expires, columns := [.user_id, .used_at, .expires_at] } false]

def CreatePasswordResetTokens : Migration Name where
  name := "CreatePasswordResetTokens1778400000000"
  up := passwordResetTokens
  down :=
    [dropIndex .IDX_password_reset_tokens_user_used_expires false,
      .ifTable .password_reset_tokens [.alterTable .password_reset_tokens (.dropForeignKey .user_id)],
      dropTable .password_reset_tokens]

def RenameCandidateRoleToTalent : Migration Name where
  name := "RenameCandidateRoleToTalent1778401000000"
  up :=
    [dropDefault .users .role, .query (.renameLabel .users_role_enum "candidate" "talent"),
      setDefault .users .role "talent"]
  down :=
    [dropDefault .users .role, .query (.renameLabel .users_role_enum "talent" "candidate"),
      setDefault .users .role "candidate"]

def ExtendWaitlistAndUserSignupReason : Migration Name where
  name := "ExtendWaitlistAndUserSignupReason1778500000000"
  up :=
    [addColumn .users (nullable (varchar .signup_reason 255)),
      addColumn .waitlist_entries (nullable (varchar .joining_as 20)),
      addColumn .waitlist_entries (nullable (varchar .full_name 255)),
      addColumn .waitlist_entries (nullable (varchar .preferred_role 255)),
      addColumn .waitlist_entries (nullable (varchar .referral_source 255))]
  down :=
    [dropColumn .waitlist_entries .referral_source, dropColumn .waitlist_entries .preferred_role,
      dropColumn .waitlist_entries .full_name, dropColumn .waitlist_entries .joining_as,
      dropColumn .users .signup_reason]

def AddedTwoFactorAuth : Migration Name where
  name := "AddedTwoFactorAuth1778554754925"
  up :=
    [addColumn .users (boolean .two_fa_enabled),
      createType .users_two_fa_method_enum ["totp"],
      addColumn .users (nullable { name := .two_fa_method, type := .enum .users_two_fa_method_enum }),
      addColumn .users (nullable (text .two_fa_totp_secret))]
  down :=
    [dropColumn .users .two_fa_enabled, dropColumn .users .two_fa_method, dropType .users_two_fa_method_enum false,
      dropColumn .users .two_fa_totp_secret]

def RenameCandidateProfilesToTalentProfiles : Migration Name where
  name := "RenameCandidateProfilesToTalentProfiles1778600000000"
  up := [.query (.renameTable .candidate_profiles .talent_profiles)]
  down := [.query (.renameTable .talent_profiles .candidate_profiles)]

def ReplacePasswordResetTokensWithOtps : Migration Name where
  name := "ReplacePasswordResetTokensWithOtps1778700000000"
  up :=
    [.ifTable .password_reset_tokens
        [.alterTable .password_reset_tokens (.dropForeignKey .user_id), .dropTable .password_reset_tokens],
      createTable
        { name := .password_reset_otps
          columns :=
            [computed (uuid .id) "gen_random_uuid()", uuid .user_id, varchar .otp_hash 255, timestamptz .expires_at,
              nullable (timestamptz .used_at), labelled (varchar .request_source 20) "initial",
              computed (timestamptz .created_at) "now()"]
          keys := [{ columns := [.id] }] } true,
      createForeignKey .password_reset_otps (toUser true),
      createIndex .password_reset_otps
        { name := .IDX_password_reset_otps_user_used_expires, columns := [.user_id, .used_at, .expires_at] } false]
  down :=
    .ifTable .password_reset_otps
        [.alterTable .password_reset_otps (.dropForeignKey .user_id),
          .dropIndex .IDX_password_reset_otps_user_used_expires false, .dropTable .password_reset_otps] ::
      passwordResetTokens

def migrations : List (Migration Name) :=
  [CreateUsers, AlignUsersWithAuthContract, CreateVerificationOtps, CreateUserOauthAccounts, CreateInquiriesTables,
    FixUserOauthAccountConstraints, MakeUserPasswordNullableForOAuth, CreateRoleProfiles, MakeUserPasswordNullable,
    RestoreIncorrectlyDroppedIndexes, CreatePasswordResetTokens, RenameCandidateRoleToTalent,
    ExtendWaitlistAndUserSignupReason, AddedTwoFactorAuth, RenameCandidateProfilesToTalentProfiles,
    ReplacePasswordResetTokensWithOtps]

end SkillBridge.Migrations
