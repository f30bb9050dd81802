import SkillBridge.Api.Runs
import SkillBridge.Database.Growth
import SkillBridge.Users.Deletion

set_option autoImplicit false

/-! What a run of the system can never take back. -/

namespace SkillBridge

open Interleaving Database

/-- Between two states of a run every row moves on, unless its user has been deleted in between, for good. Links
to provider accounts stay in any case. -/
structure Evolves (s t : Database) : Prop where
  users : ∀ user ∈ s.tables.users, (∃ user' ∈ t.tables.users, user.Forward user') ∨ Deleted user.id t
  deleted : ∀ id, Deleted id s → Deleted id t
  oauthAccounts : s.tables.oauthAccounts <+: t.tables.oauthAccounts
  otps : ∀ user ∈ s.tables.users, ∀ table, ∀ otp ∈ s.tables.otps table, otp.userId = user.id →
    (∃ otp' ∈ t.tables.otps table, otp.Forward otp') ∨ Deleted user.id t
  talentProfiles : ∀ user ∈ s.tables.users, ∀ profile ∈ s.tables.talentProfiles, profile.user_id = user.id →
    profile ∈ t.tables.talentProfiles ∨ Deleted user.id t
  employerProfiles : ∀ user ∈ s.tables.users, ∀ profile ∈ s.tables.employerProfiles, profile.user_id = user.id →
    profile ∈ t.tables.employerProfiles ∨ Deleted user.id t

section Evolution

variable {s t u : Database} {o : Op} {reply : Reply o}

theorem Evolves.of_grows (hgrows : s.tables.Grows t.tables) (hdeleted : ∀ id, Deleted id s → Deleted id t) :
    Evolves s t :=
  ⟨fun user h => .inl (hgrows.users user h), hdeleted, hgrows.oauthAccounts,
    fun _ _ table otp h _ => .inl (hgrows.otps table otp h),
    fun _ _ _ h _ => .inl (hgrows.talentProfiles.subset h), fun _ _ _ h _ => .inl (hgrows.employerProfiles.subset h)⟩

theorem Evolves.trans (h : Evolves s t) (h' : Evolves t u) : Evolves s u := by
  have huser : ∀ user ∈ s.tables.users, (∃ user' ∈ t.tables.users, user.Forward user') ∨ Deleted user.id u :=
    fun user hmem => (h.users user hmem).imp_right (h'.deleted user.id)
  constructor
  · intro user hmem
    rcases huser user hmem with ⟨user', hmem', hforward⟩ | hdeleted
    · rcases h'.users user' hmem' with ⟨user'', hmem'', hforward'⟩ | hdeleted
      · exact .inl ⟨user'', hmem'', hforward.trans hforward'⟩
      · exact .inr (hforward.id ▸ hdeleted)
    · exact .inr hdeleted
  · exact fun id hid => h'.deleted id (h.deleted id hid)
  · exact h.oauthAccounts.trans h'.oauthAccounts
  · intro user hmem table otp hotp hid
    rcases h.otps user hmem table otp hotp hid with ⟨otp', hotp', hforward⟩ | hdeleted
    · rcases huser user hmem with ⟨user', hmem', huserForward⟩ | hdeleted
      · have hid' : otp'.userId = user'.id := by rw [hforward.userId, hid, huserForward.id]
        rcases h'.otps user' hmem' table otp' hotp' hid' with ⟨otp'', hotp'', hforward'⟩ | hdeleted
        · exact .inl ⟨otp'', hotp'', hforward.trans hforward'⟩
        · exact .inr (huserForward.id ▸ hdeleted)
      · exact .inr hdeleted
    · exact .inr (h'.deleted user.id hdeleted)
  · intro user hmem profile hprofile hid
    rcases h.talentProfiles user hmem profile hprofile hid with hprofile' | hdeleted
    · rcases huser user hmem with ⟨user', hmem', huserForward⟩ | hdeleted
      · have := h'.talentProfiles user' hmem' profile hprofile' (hid.trans huserForward.id.symm)
        rwa [huserForward.id] at this
      · exact .inr hdeleted
    · exact .inr (h'.deleted user.id hdeleted)
  · intro user hmem profile hprofile hid
    rcases h.employerProfiles user hmem profile hprofile hid with hprofile' | hdeleted
    · rcases huser user hmem with ⟨user', hmem', huserForward⟩ | hdeleted
      · have := h'.employerProfiles user' hmem' profile hprofile' (hid.trans huserForward.id.symm)
        rwa [huserForward.id] at this
      · exact .inr hdeleted
    · exact .inr (h'.deleted user.id hdeleted)

theorem evolves_step (hc : s.Constraints) (ha : server.Answers o s reply t) (hadvances : o.Advances) :
    Evolves s t := by
  have hdeleted : ∀ id, Deleted id s → Deleted id t := fun id hid => hid.step ha
  rcases (answers_effect ha).grows hadvances with hgrows | ⟨id, -, htables⟩
  · exact .of_grows hgrows hdeleted
  · have hgone : ∀ user ∈ s.tables.users, user.id = id → Deleted user.id t := by
      rintro user hmem rfl
      refine ⟨(hc.taken hmem).step ha, fun user' hmem' => ?_⟩
      rw [htables] at hmem'
      exact of_decide_eq_true (List.mem_filter.mp hmem').2
    have hkept : ∀ user ∈ s.tables.users, ∀ i, i = user.id → decide (i ≠ id) = true ∨ Deleted user.id t := by
      rintro user hmem i rfl
      by_cases hid : user.id = id
      · exact .inr (hgone user hmem hid)
      · exact .inl (decide_eq_true hid)
    refine ⟨fun user hmem => ?_, hdeleted, by rw [htables], fun user hmem table otp hotp hid => ?_,
      fun user hmem profile hprofile hid => ?_, fun user hmem profile hprofile hid => ?_⟩
    · refine (hkept user hmem user.id rfl).imp_left fun hne => ⟨user, ?_, .refl user⟩
      rw [htables]
      exact List.mem_filter.mpr ⟨hmem, hne⟩
    · refine (hkept user hmem otp.userId hid).imp_left fun hne => ⟨otp, ?_, .refl otp⟩
      rw [htables]
      exact List.mem_filter.mpr ⟨hotp, hne⟩
    · refine (hkept user hmem profile.user_id hid).imp_left fun hne => ?_
      rw [htables]
      exact List.mem_filter.mpr ⟨hprofile, hne⟩
    · refine (hkept user hmem profile.user_id hid).imp_left fun hne => ?_
      rw [htables]
      exact List.mem_filter.mpr ⟨hprofile, hne⟩

theorem evolves_tick (s : Database) (m : Tick) : Evolves s (server.env m s) :=
  .of_grows (.refl s.tables) fun _ h => ⟨h.1.tick, h.2⟩

end Evolution

section Runs

variable {env : Env} {req : Request} {db : Database} {p q : ApiPool}

theorem UserWrite.advances {id : UserId} {payload : UserPayload} {past : List ApiCall}
    (h : UserWrite env req id payload past) : (Op.updateUser id payload).Advances := by
  cases h <;> exact ⟨nofun, nofun⟩

theorem advances_of_explained {call : ApiCall} {past : List ApiCall} (h : Explained env req call past) :
    call.1.Advances := by
  obtain ⟨o, reply⟩ := call
  cases o with
  | updateUser id payload =>
    have hwrite : UserWrite env req id payload past := h
    exact hwrite.advances
  | _ => trivial

/-- Verification, completed onboarding, used codes, profiles and provider links last, and the id of a deleted user
is never given to another. -/
theorem run_evolves (hc : db.Constraints) (hp : (api env).Reachable (.start db) p) (hq : (api env).Reachable p q) :
    Evolves p.world.state q.world.state := by
  induction hq with
  | refl => exact .of_grows (.refl _) fun _ h => h
  | @tail q r hpq hs ih =>
    cases hs with
    | spawn h => exact ih
    | @run pid req o k reply t hk ha =>
      have hconstraints := constraints_of_reachable hc (hp.trans hpq)
      have hstep : (api env).Reachable (.start db) (q.answer pid req o k reply t) :=
        (hp.trans hpq).tail (.run hk ha)
      exact ih.trans (evolves_step hconstraints ha (advances_of_explained (explained hstep).1))
    | env m => exact ih.trans (evolves_tick _ m)

def deletionRun : Option ApiPool :=
  let admin : User := { sampleUser with id := 0, email := "admin@example.com", role := .admin, two_fa_enabled := false }
  let token : Jwt :=
    { secret := sampleEnv.JWT_ACCESS_SECRET
      payload := { AuthService.sessionPayload admin with jti := some 10 }
      iat := 1700000000
      exp := 1700000900 }
  (api sampleEnv).play (.start (sampleDatabase [admin, sampleUser]))
    [.spawn (.login "admin@example.com" "correct horse"), .run 0 {}, .run 0 {}, .run 0 {}, .run 0 {}, .run 0 {},
      .spawn (.deleteUser { authorization := some token } 1), .run 1 {}, .run 1 {}, .run 1 {}, .run 1 {}]

theorem deletionRun_isSome : deletionRun.isSome = true := rfl

theorem evolves_in_deletionRun : ∃ db, Evolves db (deletionRun.get deletionRun_isSome).world.state ∧
    (findById db.tables.users 1).isSome = true ∧
    findById (deletionRun.get deletionRun_isSome).world.state.tables.users 1 = none := by
  have hp := System.reachable_of_play (Option.some_get deletionRun_isSome).symm
  refine ⟨_, run_evolves ?_ .refl hp, rfl, by decide +kernel⟩
  exact ⟨by simp [rows, pendingOf, sampleDatabase, Apart, User.row, sampleUser],
    by simp [rows, pendingOf, sampleDatabase, User.row, sampleUser], by simp [links, pendingOf, sampleDatabase], .nil,
    by simp [sampleDatabase]⟩

end Runs

end SkillBridge
