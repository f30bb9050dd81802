import SkillBridge.Interleaving.Safety
import SkillBridge.Security.SecondFactor
import SkillBridge.Security.MailboxControl
import SkillBridge.OneTimeCodes.LiveCodes
import SkillBridge.Security.TwoFactorEnrolment
import SkillBridge.Database.Transactions
import SkillBridge.Interleaving.Completion
import SkillBridge.OAuthLinking.Account
import SkillBridge.OAuthLinking.Steps
import SkillBridge.OAuthLinking.Calls
import SkillBridge.OAuthLinking.Convergence
import SkillBridge.Database.Constraints
import SkillBridge.Api.Footprint
import SkillBridge.OneTimeCodes.ResendLimit
import SkillBridge.Api.Http
import SkillBridge.Security.AdminRole
import SkillBridge.Security.VerifiedSessions
import SkillBridge.Security.ConfirmedSecret
import SkillBridge.Security.StateTokens
import SkillBridge.Security.DeviceSessions
import SkillBridge.GoogleSignUp.Browser
import SkillBridge.GoogleSignUp.SignUp
import SkillBridge.GoogleSignUp.RoleCookie
import SkillBridge.Database.OpenWrites
import SkillBridge.Onboarding.Histories
import SkillBridge.Onboarding.Profiles
import SkillBridge.Onboarding.Stages
import SkillBridge.Onboarding.Completion
import SkillBridge.Onboarding.ExactlyOnce
import SkillBridge.Auth.Cookies
import SkillBridge.Interleaving.Faults
import SkillBridge.OneTimeCodes.AllOrNothing
import SkillBridge.OneTimeCodes.FailedDelivery
import SkillBridge.Common.HttpExceptionFilter
import SkillBridge.Inquiries.Service
import SkillBridge.Interleaving.Enrolment
import SkillBridge.Inquiries.Duplicates
import SkillBridge.Security.AccountRecovery
import SkillBridge.Api.ResponseBodies
import SkillBridge.Interleaving.Lockstep
import SkillBridge.Security.SecretColumns
import SkillBridge.Security.ResponseSecrets
import SkillBridge.Interleaving.Persistence
import SkillBridge.Users.Deletion
import SkillBridge.Api.Validation
import SkillBridge.Users.StoredPasswords
import SkillBridge.Users.UsableCredentials
import SkillBridge.Security.Logout
import SkillBridge.Users.Mailboxes
import SkillBridge.Placeholders.OneByOne
import SkillBridge.Mail.Templates
import SkillBridge.Config.Duration
import SkillBridge.Config.EncryptionKey
import SkillBridge.Shared.Dates
import SkillBridge.Auth.Lifetimes
import SkillBridge.Mail.OutboundEmailQueue
import SkillBridge.Api.TextBodies
import SkillBridge.Inquiries.StoredTexts
import SkillBridge.Api.Isolation
import SkillBridge.Api.Permanence
import SkillBridge.OAuthLinking.LinkedIdentities
import SkillBridge.Api.Progress
import SkillBridge.Journeys.Rules
import SkillBridge.Interleaving.Client
import SkillBridge.Journeys.OneTimeCodes
import SkillBridge.Journeys.PasswordRecovery
import SkillBridge.Journeys.Sessions
import SkillBridge.Api.PasswordResetQueue
import SkillBridge.Journeys.SecondFactor
import SkillBridge.Database.Migrations
import SkillBridge.Database.Deployments
import SkillBridge.Database.ForeignKeys
