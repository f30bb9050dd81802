import SkillBridge.Database.Pending
import SkillBridge.OneTimeCodes.Rows

set_option autoImplicit false

/-! Which rows a statement can take away or turn back: only a deletion takes any, and then those of one user. -/

namespace SkillBridge

open Interleaving Database

/-- What may become of a row of `users`: it stays verified and onboarded. -/
structure User.Forward (user user' : User) : Prop where
  id : user'.id = user.id
  createdAt : user'.createdAt = user.createdAt
  verified : user.is_verified = true → user'.is_verified = true
  onboarded : user.onboarding_complete = true → user'.onboarding_complete = true

def Otp.Forward (otp otp' : Otp) : Prop :=
  otp' = otp ∨ otp.usedAt = none ∧ ∃ now, otp' = { otp with usedAt := some now }

structure Tables.Grows (t t' : Tables) : Prop where
  users : ∀ user ∈ t.users, ∃ user' ∈ t'.users, user.Forward user'
  oauthAccounts : t.oauthAccounts <+: t'.oauthAccounts
  otps : ∀ table, ∀ otp ∈ t.otps table, ∃ otp' ∈ t'.otps table, otp.Forward otp'
  talentProfiles : t.talentProfiles <+: t'.talentProfiles
  employerProfiles : t.employerProfiles <+: t'.employerProfiles

def Op.Advances : Op → Prop
  | .updateUser _ payload => payload.is_verified ≠ some false ∧ payload.onboarding_complete ≠ some false
  | _ => True

section Forward

variable {user user' user'' : User} {otp otp' otp'' : Otp}

theorem User.Forward.refl (user : User) : user.Forward user := ⟨rfl, rfl, fun h => h, fun h => h⟩

theorem User.Forward.trans (h : user.Forward user') (h' : user'.Forward user'') : user.Forward user'' :=
  ⟨h'.id.trans h.id, h'.createdAt.trans h.createdAt, fun hv => h'.verified (h.verified hv),
    fun ho => h'.onboarded (h.onboarded ho)⟩

theorem Otp.Forward.refl (otp : Otp) : otp.Forward otp := .inl rfl

theorem Otp.Forward.trans (h : otp.Forward otp') (h' : otp'.Forward otp'') : otp.Forward otp'' := by
  rcases h with rfl | ⟨hunused, now, rfl⟩
  · exact h'
  · rcases h' with rfl | ⟨hunused', -, -⟩
    · exact .inr ⟨hunused, now, rfl⟩
    · cases hunused'

theorem Otp.Forward.userId (h : otp.Forward otp') : otp'.userId = otp.userId := by
  rcases h with rfl | ⟨-, now, rfl⟩ <;> rfl

theorem forward_apply {payload : UserPayload} (h : (Op.updateUser user.id payload).Advances) :
    user.Forward (payload.apply user) := by
  refine ⟨rfl, rfl, fun hverified => ?_, fun honboarded => ?_⟩
  · rw [UserPayload.apply_is_verified]
    rcases hpayload : payload.is_verified with - | (- | -)
    · exact hverified
    · exact absurd hpayload h.1
    · rfl
  · show payload.onboarding_complete.getD user.onboarding_complete = true
    rcases hpayload : payload.onboarding_complete with - | (- | -)
    · exact honboarded
    · exact absurd hpayload h.2
    · rfl

end Forward

section Grows

variable {t t' t'' : Tables}

theorem Tables.Grows.refl (t : Tables) : t.Grows t :=
  ⟨fun user h => ⟨user, h, .refl user⟩, List.prefix_rfl, fun _ otp h => ⟨otp, h, .refl otp⟩, List.prefix_rfl,
    List.prefix_rfl⟩

theorem Tables.Grows.trans (h : t.Grows t') (h' : t'.Grows t'') : t.Grows t'' := by
  refine ⟨fun user hmem => ?_, h.oauthAccounts.trans h'.oauthAccounts, fun table otp hmem => ?_,
    h.talentProfiles.trans h'.talentProfiles, h.employerProfiles.trans h'.employerProfiles⟩
  · obtain ⟨user', hmem', hforward⟩ := h.users user hmem
    obtain ⟨user'', hmem'', hforward'⟩ := h'.users user' hmem'
    exact ⟨user'', hmem'', hforward.trans hforward'⟩
  · obtain ⟨otp', hmem', hforward⟩ := h.otps table otp hmem
    obtain ⟨otp'', hmem'', hforward'⟩ := h'.otps table otp' hmem'
    exact ⟨otp'', hmem'', hforward.trans hforward'⟩

theorem grows_setUsers {users : List User} (h : ∀ user ∈ t.users, ∃ user' ∈ users, user.Forward user') :
    t.Grows { t with users } :=
  { Tables.Grows.refl t with users := h }

theorem grows_updateWhere {id : UserId} {f : User → User} (h : ∀ user : User, user.id = id → user.Forward (f user)) :
    t.Grows { t with users := updateWhere id f t.users } := by
  refine grows_setUsers fun user hmem => ⟨_, List.mem_map_of_mem hmem, ?_⟩
  split_ifs with hid
  · exact h user hid
  · exact .refl user

theorem grows_append_user (user : User) : t.Grows { t with users := t.users ++ [user] } :=
  grows_setUsers fun user' hmem => ⟨user', List.mem_append_left _ hmem, .refl user'⟩

theorem grows_setOtps {otps : OtpTable → List Otp}
    (h : ∀ table, ∀ otp ∈ t.otps table, ∃ otp' ∈ otps table, otp.Forward otp') : t.Grows { t with otps } :=
  { Tables.Grows.refl t with otps := h }

theorem grows_apply (w : Write) : t.Grows (w.apply t) := by
  cases w with
  | insertUser payload id createdAt => exact grows_append_user _
  | insertOauthAccount account => exact { Tables.Grows.refl t with oauthAccounts := List.prefix_append _ _ }
  | insertTalentProfile profile => exact { Tables.Grows.refl t with talentProfiles := List.prefix_append _ _ }
  | insertEmployerProfile profile => exact { Tables.Grows.refl t with employerProfiles := List.prefix_append _ _ }
  | markOnboardingComplete id => exact grows_updateWhere fun user _ => ⟨rfl, rfl, fun h => h, fun _ => rfl⟩

theorem grows_foldl (ws : List Write) : t.Grows (ws.foldl Write.apply t) := by
  induction ws generalizing t with
  | nil => exact .refl t
  | cons w ws ih => exact (grows_apply w).trans ih

end Grows

section Step

variable {db t : Database} {o : Op} {reply : Reply o}

theorem Database.Effect.grows (he : Effect db o reply t) (hadvances : o.Advances) :
    db.tables.Grows t.tables ∨ ∃ id, (⟨o, reply⟩ : ApiCall) = done (.deleteUser id) () ∧
      t.tables = { db.tables with
        users := db.tables.users.filter fun user => user.id ≠ id
        otps := fun t => (db.tables.otps t).filter fun otp => otp.userId ≠ id
        talentProfiles := db.tables.talentProfiles.filter fun profile => profile.user_id ≠ id
        employerProfiles := db.tables.employerProfiles.filter fun profile => profile.user_id ≠ id } := by
  cases he with
  | insertUser unique alone => exact .inl (grows_append_user _)
  | @updateUser id payload user found unique alone =>
    refine .inl (grows_updateWhere fun row hid => ?_)
    subst hid
    exact forward_apply hadvances
  | rotated found stored => exact .inl (grows_updateWhere fun row _ => ⟨rfl, rfl, fun h => h, fun h => h⟩)
  | deleteUser => exact .inr ⟨_, rfl, rfl⟩
  | linked found => exact .inl { Tables.Grows.refl db.tables with oauthAccounts := List.prefix_append _ _ }
  | @invalidated table userId =>
    refine .inl (grows_setOtps fun table' otp hmem => ?_)
    split_ifs with htable
    · subst htable
      refine ⟨_, List.mem_map_of_mem hmem, ?_⟩
      split_ifs with hactive
      · exact .inr ⟨hactive.2.1, _, rfl⟩
      · exact .refl otp
    · exact ⟨otp, hmem, .refl otp⟩
  | @insertOtp table payload =>
    refine .inl (grows_setOtps fun table' otp hmem => ⟨otp, ?_, .refl otp⟩)
    split_ifs with htable
    · subst htable
      exact List.mem_append_left _ hmem
    · exact hmem
  | @markOtpUsed table otpId unused =>
    refine .inl (grows_setOtps fun table' otp hmem => ?_)
    split_ifs with htable
    · subst htable
      refine ⟨_, List.mem_map_of_mem hmem, ?_⟩
      split_ifs with hused
      · exact .inr ⟨hused.2, _, rfl⟩
      · exact .refl otp
    · exact ⟨otp, hmem, .refl otp⟩
  | committed => exact .inl (grows_foldl _)
  | _ => exact .inl (.refl _)

end Step

end SkillBridge
