import SkillBridge.Auth.Service

set_option autoImplicit false

/-! `src/modules/talent/talent.service.ts` and `src/modules/employer/employer.service.ts`. -/

namespace SkillBridge

open Interleaving

structure CompleteTalentOnboardingDto where
  roleTrack : String
  bio : Option String := none

structure CompleteEmployerOnboardingDto where
  companyName : String
  companySize : Option String := none
  industry : Option String := none
  websiteUrl : Option String := none
  companyDescription : Option String := none
  hiringRegion : Option String := none

structure OnboardingResult (Profile : Type) where
  message : String
  user : AuthUser
  profile : Profile
  tokens : AuthTokens

namespace Onboarding

def userOf (tx : TxId) (userId : UserId) : Action User :=
  tryCatch (UsersService.getUserForOnboarding tx userId) fun error =>
    if error.status = some 404 then throw (forbiddenError ErrorMessages.INVALID_USER) else throw error

def saveProfile {Profile : Type} (userId : UserId) (find : TxId → Action (Option Profile))
    (profileExists : String) (save : TxId → Action Profile) (tx : TxId) : Action Profile := do
  let user ← userOf tx userId
  if user.onboarding_complete then throw (forbiddenError ErrorMessages.ALREADY_COMPLETED)
  else
    match ← find tx with
    | some _ => throw (conflictError profileExists)
    | none =>
      let savedProfile ← save tx
      UsersService.markOnboardingCompleteWithManager tx userId
      pure savedProfile

def completeOnboarding {Profile : Type} (env : Env) (userId : UserId)
    (find : TxId → Action (Option Profile)) (profileExists : String) (save : TxId → Action Profile)
    (message : String) : Action (OnboardingResult Profile) := do
  let profile ← transaction (saveProfile userId find profileExists save)
  let session ← AuthService.issueSessionForUser env userId message
  pure { message := session.message, user := session.user, profile, tokens := session.tokens }

theorem calls_saveProfile {Profile : Type} {K : Op → Prop} {userId : UserId} {tx : TxId}
    {find : TxId → Action (Option Profile)} {profileExists : String} {save : TxId → Action Profile}
    (read : K (.findUser (some tx) userId)) (marked : K (.markOnboardingComplete tx userId))
    (hfind : (find tx).Calls K) (hsave : (save tx).Calls K) :
    (saveProfile userId find profileExists save tx).Calls K := by
  refine Prog.calls_bind ?_ fun user => ?_
  · apply Prog.calls_tryCatch
    · refine Prog.calls_bind (Prog.calls_perform read) fun row => ?_
      cases row <;> trivial
    · intro e
      split_ifs <;> trivial
  · split_ifs
    · trivial
    · refine Prog.calls_bind hfind fun existing => ?_
      cases existing with
      | some _ => trivial
      | none =>
        refine Prog.calls_bind hsave fun _ => ?_
        exact Prog.calls_bind (Prog.calls_perform marked) fun _ => trivial

end Onboarding

def TalentService.completeOnboarding (env : Env) (userId : UserId) (dto : CompleteTalentOnboardingDto) :
    Action (OnboardingResult TalentProfile) :=
  Onboarding.completeOnboarding env userId (fun tx => perform (.findTalentProfile tx userId))
    ErrorMessages.TALENT_PROFILE_EXISTS
    (fun tx => perform (.insertTalentProfile tx fun id =>
      { id
        user_id := userId
        role_track := trim dto.roleTrack
        bio := trimToNull dto.bio
        status := .not_started
        profile_share_link := none
        is_published := false
        published_at := none }))
    SuccessMessages.TALENT_COMPLETED

def EmployerService.completeOnboarding (env : Env) (userId : UserId) (dto : CompleteEmployerOnboardingDto) :
    Action (OnboardingResult EmployerProfile) :=
  Onboarding.completeOnboarding env userId (fun tx => perform (.findEmployerProfile tx userId))
    ErrorMessages.EMPLOYER_PROFILE_EXISTS
    (fun tx => perform (.insertEmployerProfile tx fun id =>
      { id
        user_id := userId
        company_name := trim dto.companyName
        company_size := trimToNull dto.companySize
        industry := trimToNull dto.industry
        website_url := trimToNull dto.websiteUrl
        company_description := trimToNull dto.companyDescription
        hiring_region := trimToNull dto.hiringRegion }))
    SuccessMessages.EMPLOYER_COMPLETED

end SkillBridge
