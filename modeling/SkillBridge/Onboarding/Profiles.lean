import SkillBridge.Api.Runs
import SkillBridge.Onboarding.Histories
import SkillBridge.Security.VerifiedSessions

set_option autoImplicit false

/-!
The flag of a user, the profiles and the role. The flag follows the profiles in every run; the role follows
them only where `PATCH /users` and the onboarding of the same user do not come into conflict.
-/

namespace SkillBridge

open Interleaving Database

def ProfileKind.role : ProfileKind → UserRole
  | talent => .talent
  | employer => .employer

def ProfileKind.other : ProfileKind → ProfileKind
  | talent => employer
  | employer => talent

theorem ProfileKind.eq_or_other (kind kind' : ProfileKind) : kind' = kind ∨ kind' = kind.other := by
  cases kind <;> cases kind' <;> decide

theorem ProfileKind.other_ne (kind : ProfileKind) : kind.other ≠ kind := by cases kind <;> decide

theorem ProfileKind.other_other (kind : ProfileKind) : kind.other.other = kind := by cases kind <;> rfl

instance {P : ProfileKind → Prop} [DecidablePred P] : Decidable (∀ kind, P kind) :=
  decidable_of_iff (P .talent ∧ P .employer)
    ⟨fun h kind => by cases kind <;> [exact h.1; exact h.2], fun h => ⟨h .talent, h .employer⟩⟩

def Tables.owners (tables : Tables) : ProfileKind → List UserId
  | .talent => tables.talentProfiles.map TalentProfile.user_id
  | .employer => tables.employerProfiles.map EmployerProfile.user_id

def User.Matches (tables : Tables) (user : User) : Prop :=
  ∀ kind, user.role = kind.role → (user.onboarding_complete = true ↔ user.id ∈ tables.owners kind)

instance (tables : Tables) (user : User) : Decidable (user.Matches tables) := inferInstanceAs (Decidable (∀ _, _))

structure MatchesRole (tables : Tables) : Prop where
  users : ∀ user ∈ tables.users, user.Matches tables
  single : ∀ kind, ∀ id ∈ tables.owners kind, id ∉ tables.owners kind.other

/-- An update gives a role only to a user who has not completed the onboarding, or has with that role; and an
onboarding commits only while the user neither has the other role nor a profile of it. -/
def RoleKept (db : Database) : ApiCall → Prop
  | ⟨.updateUser id payload, .ok (some _)⟩ => ∀ user ∈ db.tables.users, user.id = id → ∀ kind,
    payload.role.join = some kind.role → user.onboarding_complete = true → id ∈ db.tables.owners kind
  | ⟨.commitTransaction tx, .ok _⟩ => ∀ w ∈ db.pending tx, ∀ profile ∈ w.profile,
    profile.2 ∉ db.tables.owners profile.1.other ∧
    ∀ user ∈ db.tables.users, user.id = profile.2 → user.role ≠ profile.1.other.role
  | _ => True

instance (db : Database) (call : ApiCall) : Decidable (RoleKept db call) := by
  unfold RoleKept
  split <;> infer_instance

section Owners

variable {tables : Tables} {kind : ProfileKind} {id : UserId}

theorem mem_owners_apply (w : Write) :
    id ∈ (w.apply tables).owners kind ↔ id ∈ tables.owners kind ∨ w.profile = some (kind, id) := by
  cases w <;> cases kind <;> simp [Write.apply, Tables.owners, Write.profile, eq_comm]

theorem mem_owners_foldl (ws : List Write) : id ∈ (ws.foldl Write.apply tables).owners kind ↔
    id ∈ tables.owners kind ∨ ∃ w ∈ ws, w.profile = some (kind, id) := by
  induction ws generalizing tables with
  | nil => simp
  | cons w ws ih => simp only [List.foldl_cons, ih, mem_owners_apply, List.mem_cons, exists_eq_or_imp, or_assoc]

theorem users_apply_of_profile {w : Write} {profile : ProfileKind × UserId} (h : w.profile = some profile) :
    (w.apply tables).users = tables.users := by
  cases w <;> first | rfl | cases h

theorem MatchesRole.congr {tables' : Tables} (h : MatchesRole tables) (husers : tables'.users = tables.users)
    (howners : tables'.owners = tables.owners) : MatchesRole tables' := by
  refine ⟨fun user hmem kind => ?_, fun kind => ?_⟩
  · rw [howners]
    exact h.users user (husers ▸ hmem) kind
  · rw [howners]
    exact h.single kind

end Owners

section Pending

def Write.Onboards (db : Database) : Write → Prop
  | insertUser payload _ _ => payload.onboarding_complete = false
  | insertTalentProfile profile => Taken db profile.user_id
  | insertEmployerProfile profile => Taken db profile.user_id
  | _ => True

variable {db t : Database} {o : Op} {reply : Reply o} {tx : TxId} {w : Write} {kind : ProfileKind} {id : UserId}

theorem Write.Onboards.taken (h : w.Onboards db) (hprofile : w.profile = some (kind, id)) : Taken db id := by
  cases w <;> cases hprofile <;> exact h

theorem Write.Onboards.tick {m : Tick} (h : w.Onboards db) : w.Onboards (server.env m db) := by
  cases w with
  | insertTalentProfile profile => exact Taken.tick h
  | insertEmployerProfile profile => exact Taken.tick h
  | _ => exact h

theorem Write.Onboards.step (h : w.Onboards db) (ha : server.Answers o db reply t) : w.Onboards t := by
  cases w with
  | insertTalentProfile profile => exact Taken.step h ha
  | insertEmployerProfile profile => exact Taken.step h ha
  | _ => exact h

theorem found_of_saves (ha : server.Answers o db reply t) (hsaves : Saves db tx o reply w)
    (hprofile : w.profile = some (kind, id)) : ∃ user ∈ (db.view (some tx)).users, user.id = id := by
  have hfound : (findById (db.view (some tx)).users id).isSome = true := by
    rcases ha with ⟨ω, hexec⟩ | ⟨e, -, rfl, -⟩
    · cases hsaves with
      | insertTalentProfile =>
        cases hprofile
        rcases insertUnique_cases hexec with ⟨e, herr, -⟩ | ⟨-, -, hdangling, -⟩
        · cases herr
        · simpa using hdangling
      | insertEmployerProfile =>
        cases hprofile
        rcases insertUnique_cases hexec with ⟨e, herr, -⟩ | ⟨-, -, hdangling, -⟩
        · cases herr
        · simpa using hdangling
      | _ => cases hprofile
    · cases hsaves
  obtain ⟨user, huser⟩ := Option.isSome_iff_exists.mp hfound
  exact ⟨user, List.mem_of_find?_eq_some huser, by simpa using List.find?_some huser⟩

theorem saved_of_saves {o : Op} {r : o.Res} (hsaves : SavesProfile tx id o)
    (ha : server.Answers o db (.ok r) t) :
    ∃ w kind, saved (done o r) = some (tx, w) ∧ w.profile = some (kind, id) := by
  rcases ha with ⟨ω, hexec⟩ | ⟨e, -, herr, -⟩
  · cases hsaves with
    | talent owner =>
      rcases insertUnique_cases hexec with ⟨e, herr, -⟩ | ⟨-, -, -, hrow, -⟩
      · cases herr
      · obtain rfl := Except.ok.inj hrow
        exact ⟨_, .talent, rfl, congrArg (fun id => some (ProfileKind.talent, id)) (owner db.fresh)⟩
    | employer owner =>
      rcases insertUnique_cases hexec with ⟨e, herr, -⟩ | ⟨-, -, -, hrow, -⟩
      · cases herr
      · obtain rfl := Except.ok.inj hrow
        exact ⟨_, .employer, rfl, congrArg (fun id => some (ProfileKind.employer, id)) (owner db.fresh)⟩
  · cases herr

end Pending

section Histories

variable {tx : TxId} {id : UserId} {past : List ApiCall} {writes : Option (List Write)}

inductive CommitWrites : List Write → Prop
  | onboarding {w : Write} {kind : ProfileKind} {id : UserId} (profile : w.profile = some (kind, id)) :
      CommitWrites [w, .markOnboardingComplete id]
  | signUp {payload : NewUser} {id : UserId} {createdAt : ℕ} {account : OAuthUser} :
      CommitWrites [.insertUser payload id createdAt, .insertOauthAccount account]

def RepliesWith (past : List ApiCall) : Prop := ∀ tx id o (r : o.Res), SavesProfile tx id o → done o r ∈ past →
  ∃ w kind, saved (done o r) = some (tx, w) ∧ w.profile = some (kind, id)

theorem openWrites_outside {o : Op} {reply : Reply o} (hstarted : started ⟨o, reply⟩ = none) (ho : o.Outside) :
    openWrites tx (⟨o, reply⟩ :: past) = openWrites tx past := by
  rw [openWrites_cons]
  apply writesAfter_of_ne
  · simp [hstarted]
  · simp [show o.transaction = none from ho]

theorem openWrites_saved {o : Op} {reply : Reply o} {w : Write} {writes : List Write}
    (hstarted : started ⟨o, reply⟩ = none) (hclosed : closed ⟨o, reply⟩ = none)
    (hsaved : saved ⟨o, reply⟩ = some (tx, w)) (h : openWrites tx past = some writes) :
    openWrites tx (⟨o, reply⟩ :: past) = some (writes ++ [w]) := by
  rw [openWrites_cons, writesAfter_saved hstarted hclosed hsaved, h]
  rfl

theorem Checked.openWrites (h : Checked tx id past) : openWrites tx past = some [] := by
  cases h with
  | @intro o reply row past finds =>
    calc SkillBridge.openWrites tx _ = SkillBridge.openWrites tx
          (done (.findUser (some tx) id) row :: done .startTransaction tx :: past) := by
          cases finds <;> exact openWrites_outside rfl rfl
      _ = SkillBridge.openWrites tx (done .startTransaction tx :: past) := openWrites_outside rfl rfl
      _ = some [] := openWrites_started tx past

theorem Saved.openWrites (h : Saved tx id past) (hreplies : RepliesWith past) :
    ∃ w kind, openWrites tx past = some [w] ∧ w.profile = some (kind, id) := by
  cases h with
  | @intro o r past saves checked =>
    obtain ⟨w, kind, hsaved, hprofile⟩ := hreplies tx id o r saves List.mem_cons_self
    have hstarted : started (done o r) = none := by cases saves <;> rfl
    have hclosed : closed (done o r) = none := by cases saves <;> rfl
    exact ⟨w, kind, openWrites_saved hstarted hclosed hsaved checked.openWrites, hprofile⟩

theorem Committing.openWrites (h : Committing tx past) (hreplies : RepliesWith past) :
    ∃ writes, openWrites tx past = some writes ∧ CommitWrites writes := by
  cases h with
  | @onboarding id past hsaved =>
    obtain ⟨w, kind, hwrites, hprofile⟩ := hsaved.openWrites fun tx id o r hsaves hmem =>
      hreplies tx id o r hsaves (List.mem_cons_of_mem _ hmem)
    exact ⟨_, openWrites_saved rfl rfl rfl hwrites, .onboarding hprofile⟩
  | @signUp user account row payload provider providerId past =>
    refine ⟨_, ?_, @CommitWrites.signUp payload user.id user.createdAt account⟩
    refine Eq.trans (openWrites_outside rfl rfl) ?_
    exact openWrites_saved rfl rfl rfl (openWrites_saved rfl rfl rfl (openWrites_started tx past))

end Histories

section Commits

variable {db : Database} {tx : TxId} {kind : ProfileKind} {id : UserId}

theorem view_onboarding {w : Write} (h : db.pending tx = [w, .markOnboardingComplete id])
    (hprofile : w.profile = some (kind, id)) : (db.view (some tx)).users =
      updateWhere id (fun user => { user with onboarding_complete := true }) db.tables.users ∧
    ∀ kind' i, i ∈ (db.view (some tx)).owners kind' ↔ i ∈ db.tables.owners kind' ∨ kind' = kind ∧ i = id := by
  have hview : db.view (some tx) = (Write.markOnboardingComplete id).apply (w.apply db.tables) := by
    rw [view, h]
    rfl
  rw [hview]
  constructor
  · exact congrArg (updateWhere id _) (users_apply_of_profile hprofile)
  · intro kind' i
    rw [mem_owners_apply, mem_owners_apply, hprofile]
    simp [Write.profile, eq_comm]

theorem view_signUp {payload : NewUser} {createdAt : ℕ} {account : OAuthUser}
    (h : db.pending tx = [.insertUser payload id createdAt, .insertOauthAccount account]) :
    (db.view (some tx)).users = db.tables.users ++ [payload.toUser id createdAt] ∧
      (db.view (some tx)).owners = db.tables.owners := by
  have hview : db.view (some tx) =
      (Write.insertOauthAccount account).apply ((Write.insertUser payload id createdAt).apply db.tables) := by
    rw [view, h]
    rfl
  rw [hview]
  exact ⟨rfl, rfl⟩

end Commits

section Flag

structure OnboardingStep (e : ApiEvent) (l : List ApiEvent) : Prop where
  transacts : Transacts e.call (calls e.pid l)
  footprint : Footprint e.req e.op
  replies : RepliesWith (calls e.pid l)

structure ProfilesKept (w : ServerWorld Request) : Prop where
  booked : Booked w
  constraints : w.state.Constraints
  pending : Pending (Write.Onboards w.state) w.state
  taken : ∀ kind, ∀ id ∈ w.state.tables.owners kind, Taken w.state id
  completed : ∀ user ∈ w.state.tables.users, ∀ kind, user.id ∈ w.state.tables.owners kind →
    user.onboarding_complete = true

variable {w : ServerWorld Request} {pid : ℕ} {req : Request} {o : Op} {reply : Reply o} {t : Database} {tx : TxId}
  {kind : ProfileKind} {id : UserId}

theorem Booked.commits (h : Booked w) {reply : Reply (.commitTransaction tx)}
    (hstep : OnboardingStep ⟨pid, req, w.state, .commitTransaction tx, reply⟩ w.trace) :
    CommitWrites (w.state.pending tx) := by
  obtain ⟨writes, hopen, hcommits⟩ := Committing.openWrites hstep.transacts.2 hstep.replies
  rw [h.pending_eq (hstep.transacts.1 tx rfl) hopen]
  exact hcommits

theorem mem_map_filter_ne {α : Type} {f : α → UserId} {l : List α} {i : UserId} :
    i ∈ (l.filter fun a => f a ≠ id).map f ↔ i ∈ l.map f ∧ i ≠ id := by
  simp only [List.mem_map, List.mem_filter, decide_eq_true_eq]
  constructor
  · rintro ⟨a, ⟨hmem, hne⟩, rfl⟩
    exact ⟨⟨a, hmem, rfl⟩, hne⟩
  · rintro ⟨⟨a, hmem, rfl⟩, hne⟩
    exact ⟨a, ⟨hmem, hne⟩, rfl⟩

theorem mem_owners_delete {db : Database} (he : Effect db (.deleteUser id) (.ok ()) t) {i : UserId} :
    i ∈ t.tables.owners kind ↔ i ∈ db.tables.owners kind ∧ i ≠ id := by
  cases he with
  | unchanged h => cases h
  | saved h => cases h
  | drawn h => cases h
  | deleteUser => cases kind <;> exact mem_map_filter_ne

theorem mem_owners_effect {db : Database} (he : Effect db o reply t) (hmem : id ∈ t.tables.owners kind) :
    id ∈ db.tables.owners kind ∨ ∃ tx, ∃ w ∈ db.pending tx, w.profile = some (kind, id) := by
  cases he with
  | deleteUser => exact .inl ((mem_owners_delete .deleteUser).mp hmem).1
  | @committed tx => exact ((mem_owners_foldl _).mp hmem).imp_right fun h => ⟨tx, h⟩
  | _ => exact .inl hmem

theorem ProfilesKept.pending_step (h : ProfilesKept w)
    (hstep : OnboardingStep ⟨pid, req, w.state, o, reply⟩ w.trace) (ha : server.Answers o w.state reply t) :
    Pending (Write.Onboards t) t := by
  apply (h.pending.imp fun w hw => hw.step ha).step (answers_transactions ha)
  intro tx w' hsaves
  have htaken : ∀ {kind id}, w'.profile = some (kind, id) → (∃ i, Checked tx i (calls pid w.trace)) →
      o.transaction = some tx → Taken t id := by
    rintro kind id hprofile ⟨i, hchecked⟩ hown
    obtain ⟨user, hmem, rfl⟩ := found_of_saves ha hsaves hprofile
    have hpending := h.booked.pending_eq (hstep.transacts.1 tx hown) hchecked.openWrites
    rw [view, hpending] at hmem
    exact (h.constraints.taken hmem).step ha
  cases hsaves with
  | insertUser => exact hstep.footprint.1
  | insertTalentProfile free alone =>
    obtain ⟨i, hchecked, -⟩ := hstep.transacts.2
    exact htaken rfl ⟨i, hchecked⟩ rfl
  | insertEmployerProfile free alone =>
    obtain ⟨i, hchecked, -⟩ := hstep.transacts.2
    exact htaken rfl ⟨i, hchecked⟩ rfl
  | _ => trivial

theorem ProfilesKept.new_user (h : ProfilesKept w) {payload : NewUser} {createdAt : ℕ}
    (hpending : .insertUser payload id createdAt ∈ w.state.pending tx) :
    payload.onboarding_complete = false ∧ ∀ kind, id ∉ w.state.tables.owners kind :=
  ⟨h.pending.pending tx _ hpending, fun kind howner =>
    (h.taken kind id howner).pending.pending tx _ hpending payload createdAt rfl⟩

theorem ProfilesKept.completed_commit (h : ProfilesKept w) (hcommits : CommitWrites (w.state.pending tx)) :
    ∀ user ∈ (w.state.view (some tx)).users, ∀ kind, user.id ∈ (w.state.view (some tx)).owners kind →
      user.onboarding_complete = true := by
  intro user hmem kind howner
  generalize hwrites : w.state.pending tx = writes at hcommits
  cases hcommits with
  | @onboarding write kind' id hprofile =>
    obtain ⟨husers, howners⟩ := view_onboarding hwrites hprofile
    rw [husers] at hmem
    obtain ⟨old, hold, rfl⟩ := List.mem_map.mp hmem
    split_ifs at howner ⊢ with hid
    · rfl
    · rcases (howners kind old.id).mp howner with howner | ⟨-, heq⟩
      · exact h.completed old hold kind howner
      · exact absurd heq hid
  | @signUp payload id createdAt account =>
    obtain ⟨husers, howners⟩ := view_signUp hwrites
    rw [howners] at howner
    rw [husers] at hmem
    rcases List.mem_append.mp hmem with hmem | hmem
    · exact h.completed user hmem kind howner
    · obtain rfl := List.mem_singleton.mp hmem
      have hpending : Write.insertUser payload id createdAt ∈ w.state.pending tx := by
        rw [hwrites]
        exact List.mem_cons_self
      exact absurd howner ((h.new_user hpending).2 kind)

theorem ProfilesKept.completed_step (h : ProfilesKept w)
    (hstep : OnboardingStep ⟨pid, req, w.state, o, reply⟩ w.trace) (he : Effect w.state o reply t) :
    ∀ user ∈ t.tables.users, ∀ kind, user.id ∈ t.tables.owners kind → user.onboarding_complete = true := by
  intro user hmem kind howner
  cases he with
  | @insertUser payload unique alone =>
    rcases List.mem_append.mp hmem with hmem | hmem
    · exact h.completed user hmem kind howner
    · obtain rfl := List.mem_singleton.mp hmem
      exact absurd (h.taken kind _ howner).lt (Nat.lt_irrefl _)
  | @updateUser id payload found =>
    obtain ⟨old, hold, rfl⟩ := List.mem_map.mp hmem
    have hcomplete := h.completed old hold kind
    split_ifs at howner ⊢
    · have hkept : payload.onboarding_complete = none := hstep.footprint.1
      simpa [UserPayload.apply, hkept] using hcomplete howner
    · exact hcomplete howner
  | rotated found stored =>
    obtain ⟨old, hold, rfl⟩ := List.mem_map.mp hmem
    have hcomplete := h.completed old hold kind
    split_ifs at howner ⊢ <;> exact hcomplete howner
  | deleteUser =>
    exact h.completed user (List.mem_filter.mp hmem).1 kind ((mem_owners_delete .deleteUser).mp howner).1
  | committed => exact h.completed_commit (h.booked.commits hstep) user hmem kind howner
  | _ => exact h.completed user hmem kind howner

theorem ProfilesKept.perform (h : ProfilesKept w)
    (hstep : OnboardingStep ⟨pid, req, w.state, o, reply⟩ w.trace) (ha : server.Answers o w.state reply t) :
    ProfilesKept (w.perform pid req o reply t) := by
  have he := answers_effect ha
  refine ⟨h.booked.perform ha hstep.transacts.1, h.constraints.step he, h.pending_step hstep ha, ?_,
    h.completed_step hstep he⟩
  intro kind id hmem
  rcases mem_owners_effect he hmem with hold | ⟨tx, w', hpending, hprofile⟩
  · exact (h.taken kind id hold).step ha
  · exact ((h.pending.pending tx w' hpending).taken hprofile).step ha

theorem ProfilesKept.tick {m : Tick} (h : ProfilesKept w) : ProfilesKept ⟨server.env m w.state, w.trace⟩ where
  booked := h.booked.tick rfl rfl
  constraints := h.constraints.tick
  pending := Pending.imp h.pending fun _ hw => hw.tick
  taken kind id howner := (h.taken kind id howner).tick
  completed := h.completed

end Flag

section Role

variable {tables tables' : Tables} {user : User}

theorem User.Matches.of_incomplete (hincomplete : user.onboarding_complete = false)
    (hnone : ∀ kind, user.id ∉ tables.owners kind) : user.Matches tables :=
  fun kind _ => iff_of_false (by simp [hincomplete]) (hnone kind)

theorem MatchesRole.append (h : MatchesRole tables) (husers : tables'.users = tables.users ++ [user])
    (howners : tables'.owners = tables.owners) (hincomplete : user.onboarding_complete = false)
    (hnone : ∀ kind, user.id ∉ tables.owners kind) : MatchesRole tables' := by
  refine ⟨fun user' hmem => ?_, fun kind => howners ▸ h.single kind⟩
  rw [husers] at hmem
  have hmatches : user'.Matches tables := by
    rcases List.mem_append.mp hmem with hmem | hmem
    · exact h.users user' hmem
    · obtain rfl := List.mem_singleton.mp hmem
      exact .of_incomplete hincomplete hnone
  exact fun kind => howners ▸ hmatches kind

theorem MatchesRole.rows {f : User → User} {id : UserId} (h : MatchesRole tables)
    (husers : tables'.users = updateWhere id f tables.users) (howners : tables'.owners = tables.owners) :
    MatchesRole tables' ↔ ∀ user ∈ tables.users, user.id = id → (f user).Matches tables := by
  have hmatches : ∀ user : User, user.Matches tables' ↔ user.Matches tables := by
    intro user
    rw [User.Matches, howners]
    rfl
  constructor
  · intro h' user hmem hid
    have hmem' : f user ∈ tables'.users := by
      rw [husers]
      exact List.mem_map.mpr ⟨user, hmem, if_pos hid⟩
    exact (hmatches _).mp (h'.users _ hmem')
  · refine fun hf => ⟨fun user' hmem => (hmatches _).mpr ?_, fun kind => howners ▸ h.single kind⟩
    rw [husers] at hmem
    obtain ⟨user, huser, rfl⟩ := List.mem_map.mp hmem
    split_ifs with hid
    · exact hf user huser hid
    · exact h.users user huser

theorem MatchesRole.onboard {kind : ProfileKind} {id : UserId} (h : MatchesRole tables)
    (husers : tables'.users = updateWhere id (fun user => { user with onboarding_complete := true }) tables.users)
    (howners : ∀ kind' i, i ∈ tables'.owners kind' ↔ i ∈ tables.owners kind' ∨ kind' = kind ∧ i = id) :
    MatchesRole tables' ↔
      id ∉ tables.owners kind.other ∧ ∀ user ∈ tables.users, user.id = id → user.role ≠ kind.other.role := by
  constructor
  · intro h'
    have hother := h'.single kind id ((howners kind id).mpr (.inr ⟨rfl, rfl⟩))
    refine ⟨fun howner => hother ((howners _ _).mpr (.inl howner)), fun user hmem hid hrole => hother ?_⟩
    have hmem' : { user with onboarding_complete := true } ∈ tables'.users := by
      rw [husers]
      exact List.mem_map.mpr ⟨user, hmem, if_pos hid⟩
    exact hid ▸ (h'.users _ hmem' kind.other hrole).mp rfl
  · rintro ⟨hother, hrole⟩
    refine ⟨fun user' hmem kind' hkind => ?_, fun kind' i howner howner' => ?_⟩
    · rw [husers] at hmem
      obtain ⟨user, huser, rfl⟩ := List.mem_map.mp hmem
      split_ifs at hkind ⊢ with hid
      · rcases kind.eq_or_other kind' with rfl | rfl
        · exact iff_of_true rfl ((howners _ _).mpr (.inr ⟨rfl, hid⟩))
        · exact absurd hkind (hrole user huser hid)
      · rw [howners]
        simpa [hid] using h.users user huser kind' hkind
    · rcases (howners _ _).mp howner with hold | ⟨rfl, rfl⟩ <;>
        rcases (howners _ _).mp howner' with hold' | ⟨hkind, hid⟩
      · exact h.single kind' i hold hold'
      · rw [← hkind, kind'.other_other, ← hid] at hother
        exact hother hold
      · exact hother hold'
      · exact kind'.other_ne hkind

variable {w : ServerWorld Request} {pid : ℕ} {req : Request} {o : Op} {reply : Reply o} {t : Database} {tx : TxId}
  {kind : ProfileKind} {id : UserId}

theorem roleKept_of_unchanged {db : Database} (h : o.changes reply = false) : RoleKept db ⟨o, reply⟩ := by
  unfold RoleKept
  split
  · rename_i heq
    obtain ⟨rfl, hreply⟩ := Sigma.mk.inj heq
    obtain rfl := eq_of_heq hreply
    cases h
  · rename_i heq
    obtain ⟨rfl, hreply⟩ := Sigma.mk.inj heq
    obtain rfl := eq_of_heq hreply
    cases h
  · trivial

theorem ProfilesKept.matches_update (h : ProfilesKept w) (hm : MatchesRole w.state.tables) {payload : UserPayload}
    (hkept : payload.onboarding_complete = none) (row : User) :
    MatchesRole (w.state.update id payload).tables ↔ RoleKept w.state (done (.updateUser id payload) (some row)) := by
  refine Iff.trans (@MatchesRole.rows _ _ payload.apply id hm rfl rfl) ?_
  refine forall₂_congr fun user hmem => forall_congr' fun hid => ?_
  have hcompleted := h.completed user hmem
  have hcomplete : (payload.apply user).onboarding_complete = user.onboarding_complete := by
    simp [UserPayload.apply, hkept]
  cases hrole : payload.role.join with
  | none =>
    have hsame : (payload.apply user).role = user.role := by simp [UserPayload.apply, hrole]
    refine iff_of_true (fun kind => ?_) (by simp)
    rw [hsame, hcomplete]
    exact hm.users user hmem kind
  | some role =>
    have hgiven : (payload.apply user).role = role := by simp [UserPayload.apply, hrole]
    refine forall_congr' fun kind => ?_
    rw [hgiven, hcomplete, UserPayload.apply_id, ← hid, Option.some.injEq]
    exact imp_congr_right fun _ => ⟨Iff.mp, fun h => ⟨h, hcompleted kind⟩⟩

theorem ProfilesKept.matches_commit (h : ProfilesKept w) (hm : MatchesRole w.state.tables)
    (hcommits : CommitWrites (w.state.pending tx)) :
    MatchesRole (w.state.view (some tx)) ↔ RoleKept w.state (done (.commitTransaction tx) ()) := by
  show _ ↔ ∀ w' ∈ w.state.pending tx, _
  generalize hwrites : w.state.pending tx = writes at hcommits
  cases hcommits with
  | @onboarding write kind id hprofile =>
    obtain ⟨husers, howners⟩ := view_onboarding hwrites hprofile
    rw [hm.onboard husers howners]
    constructor
    · intro hkept w' hmem profile hprofile'
      rcases List.mem_cons.mp hmem with rfl | hmem
      · obtain rfl := Option.some.inj (hprofile.symm.trans hprofile')
        exact hkept
      · obtain rfl := List.mem_singleton.mp hmem
        cases hprofile'
    · exact fun hkept => hkept write List.mem_cons_self (kind, id) hprofile
  | @signUp payload id createdAt account =>
    obtain ⟨husers, howners⟩ := view_signUp hwrites
    have hpending : Write.insertUser payload id createdAt ∈ w.state.pending tx := by
      rw [hwrites]
      exact List.mem_cons_self
    obtain ⟨hincomplete, hnone⟩ := h.new_user hpending
    refine iff_of_true (hm.append husers howners hincomplete hnone) ?_
    intro w' hmem profile hprofile
    rcases List.mem_cons.mp hmem with rfl | hmem
    · cases hprofile
    · obtain rfl := List.mem_singleton.mp hmem
      cases hprofile

theorem MatchesRole.delete {db : Database} (h : MatchesRole db.tables)
    (he : Effect db (.deleteUser id) (.ok ()) t)
    (husers : t.tables.users = db.tables.users.filter fun user => user.id ≠ id) : MatchesRole t.tables := by
  refine ⟨fun user hmem kind hkind => ?_, fun kind i howner howner' => ?_⟩
  · rw [husers, List.mem_filter, decide_eq_true_eq] at hmem
    rw [mem_owners_delete he, and_iff_left hmem.2]
    exact h.users user hmem.1 kind hkind
  · exact h.single kind i ((mem_owners_delete he).mp howner).1 ((mem_owners_delete he).mp howner').1

theorem ProfilesKept.matches_iff (h : ProfilesKept w) (hm : MatchesRole w.state.tables)
    (hstep : OnboardingStep ⟨pid, req, w.state, o, reply⟩ w.trace) (ha : server.Answers o w.state reply t) :
    MatchesRole t.tables ↔ RoleKept w.state ⟨o, reply⟩ := by
  cases answers_effect ha with
  | unchanged hchanges => exact iff_of_true hm (roleKept_of_unchanged hchanges)
  | drawn hdraws => exact iff_of_true (hm.congr rfl rfl) (by cases o <;> trivial)
  | insertUser unique alone =>
    refine iff_of_true (hm.append rfl rfl hstep.footprint.1 fun kind howner => ?_) trivial
    exact absurd (h.taken kind _ howner).lt (Nat.lt_irrefl _)
  | @updateUser id payload user found => exact h.matches_update hm hstep.footprint.1 (payload.apply user)
  | @rotated id currentHash nextHash =>
    have hrows := @MatchesRole.rows _ (w.state.setUsers _).tables
      (fun user => { user with refreshTokenHash := some nextHash }) id hm rfl rfl
    exact iff_of_true (hrows.mpr fun user hmem _ => hm.users user hmem) trivial
  | deleteUser => exact iff_of_true (hm.delete .deleteUser rfl) trivial
  | saved hsaves => exact iff_of_true (hm.congr rfl rfl) (by cases o <;> trivial)
  | committed => exact h.matches_commit hm (h.booked.commits hstep)
  | _ => exact iff_of_true (hm.congr rfl rfl) trivial

end Role

section Runs

variable {env : Env} {db : Database} {p : ApiPool}

/-- Only the administrator that `UserSeeder` creates. -/
structure OnlyAdmin (db : Database) : Prop where
  constraints : db.Constraints
  users : ∃ admin, db.tables.users = [admin] ∧ admin.role = .admin ∧ admin.is_verified = true ∧
    admin.onboarding_complete = true
  unlinked : db.tables.oauthAccounts = []
  codes : ∀ table, db.tables.otps table = []
  talentProfiles : db.tables.talentProfiles = []
  employerProfiles : db.tables.employerProfiles = []
  idle : db.transactions = []

theorem OnlyAdmin.owners (h : OnlyAdmin db) (kind : ProfileKind) : db.tables.owners kind = [] := by
  cases kind with
  | talent => simp [Tables.owners, h.talentProfiles]
  | employer => simp [Tables.owners, h.employerProfiles]

theorem OnlyAdmin.matches (h : OnlyAdmin db) : MatchesRole db.tables := by
  refine ⟨fun user hmem kind hkind => ?_, fun kind id howner => ?_⟩
  · obtain ⟨admin, husers, hrole, -⟩ := h.users
    rw [husers] at hmem
    obtain rfl := List.mem_singleton.mp hmem
    rw [hrole] at hkind
    cases kind <;> cases hkind
  · rw [h.owners] at howner
    cases howner

theorem OnlyAdmin.profilesKept (h : OnlyAdmin db) : ProfilesKept ⟨db, []⟩ := by
  refine ⟨.start h.idle, h.constraints, .of_idle h.idle, fun kind id howner => ?_, fun user _ kind howner => ?_⟩ <;>
    exact absurd ((h.owners kind) ▸ howner) List.not_mem_nil

theorem repliesWith_of_reachable {Ω μ Req α : Type} {Y : System backend Database Ω μ Req α}
    (answers : ∀ o s reply t, Y.Answers o s reply t → server.Answers o s reply t) {p : Pool backend Database Req α}
    (hp : Y.Reachable (.start db) p) {l₁ l₂ : List (Event backend Database Req)} {e : Event backend Database Req}
    (htrace : p.world.trace = l₁ ++ e :: l₂) (pid : ℕ) : RepliesWith (calls pid l₂) := by
  intro tx id o r hsaves hmem
  obtain ⟨before, ω, t, hexec⟩ := exec_of_mem_calls answers hp htrace hmem
  exact saved_of_saves hsaves (.inl ⟨ω, hexec⟩)

theorem onboardingStep (hp : (api env).Reachable (.start db) p) : Justified OnboardingStep p.world.trace := by
  refine justified_of_split fun l₁ e l₂ htrace => ⟨?_, ?_, ?_⟩
  · exact (htrace ▸ (System.Reachable.along handle_transacts hp).2).at
  · exact System.Reachable.footprint (handle_footprint env) hp (by rw [htrace]; simp)
  · exact repliesWith_of_reachable (fun _ _ _ _ h => h) hp htrace e.pid

theorem onboarding_matches_role_iff (hseed : OnlyAdmin db) (hp : (api env).Reachable (.start db) p) :
    (∀ q, (api env).Reachable (.start db) q → (api env).Reachable q p → MatchesRole q.world.state.tables) ↔
      Justified (fun e _ => RoleKept e.before e.call) p.world.trace := by
  refine Iff.trans ?_ (and_iff_right hseed.matches)
  refine System.Reachable.keeps_iff (P := fun db : Database => MatchesRole db.tables) hseed.profilesKept ?_ ?_ ?_ ?_
    hp (onboardingStep hp)
  · exact fun m w h => h.tick
  · exact fun m db h => h
  · exact fun w pid req o reply t h ha hstep => h.perform hstep ha
  · exact fun w pid req o reply t h ha hstep hmatches => h.matches_iff hmatches hstep ha

def seededAdmin : User :=
  { sampleUser with
    id := 0, email := "admin@example.com", role := .admin, onboarding_complete := true, two_fa_enabled := false
    two_fa_method := none, two_fa_totp_secret := none }

theorem onlyAdmin_seeded : OnlyAdmin (sampleDatabase [seededAdmin]) :=
  ⟨(seeded_singleton rfl (by decide)).constraints, ⟨seededAdmin, rfl, rfl, rfl, rfl⟩, rfl, fun _ => rfl, rfl, rfl, rfl⟩

def signUpAsTalent : Option ApiPool :=
  (api sampleEnv).play (.start (sampleDatabase [seededAdmin]))
    (.spawn (.googleCallback sampleProfile (some .talent)) :: List.replicate 11 (.run 0 {}))

theorem signUpAsTalent_isSome : signUpAsTalent.isSome = true := rfl

def onboardAsTalent : Option ApiPool :=
  (api sampleEnv).play (signUpAsTalent.get signUpAsTalent_isSome)
    (.spawn (.talentOnboarding { accessCookie := (issued (signUpAsTalent.get signUpAsTalent_isSome)).head? }
      { roleTrack := "backend" }) :: List.replicate 13 (.run 1 {}))

theorem onboardAsTalent_isSome : onboardAsTalent.isSome = true := rfl

theorem onboardAsTalent_reachable : (api sampleEnv).Reachable (.start (sampleDatabase [seededAdmin]))
    (onboardAsTalent.get onboardAsTalent_isSome) :=
  (System.reachable_of_play (Option.some_get signUpAsTalent_isSome).symm).trans
    (System.reachable_of_play (Option.some_get onboardAsTalent_isSome).symm)

theorem onboardAsTalent_matches : (11, true) ∈ (onboardAsTalent.get onboardAsTalent_isSome).world.state.tables.users.map
      (fun user => (user.id, user.onboarding_complete)) ∧
    ∀ q, (api sampleEnv).Reachable (.start (sampleDatabase [seededAdmin])) q →
      (api sampleEnv).Reachable q (onboardAsTalent.get onboardAsTalent_isSome) → MatchesRole q.world.state.tables :=
  ⟨by decide +kernel, (onboarding_matches_role_iff onlyAdmin_seeded onboardAsTalent_reachable).mpr (by decide +kernel)⟩

def adminLogin : Option ApiPool :=
  (api sampleEnv).play (onboardAsTalent.get onboardAsTalent_isSome)
    (.spawn (.login "admin@example.com" "correct horse") :: List.replicate 5 (.run 2 {}))

theorem adminLogin_isSome : adminLogin.isSome = true := rfl

def patchTalent : Option ApiPool :=
  (api sampleEnv).play (adminLogin.get adminLogin_isSome)
    (.spawn (.updateUser { accessCookie := (issued (adminLogin.get adminLogin_isSome))[4]? } 11
      { role := some (some .employer) }) :: List.replicate 4 (.run 3 {}))

theorem patchTalent_isSome : patchTalent.isSome = true := rfl

theorem patched_talent_unmatched : ¬ ∀ (env : Env) (db : Database) (p : ApiPool), OnlyAdmin db →
    (api env).Reachable (.start db) p → MatchesRole p.world.state.tables := by
  intro h
  have hp := (onboardAsTalent_reachable.trans
    (System.reachable_of_play (Option.some_get adminLogin_isSome).symm)).trans
    (System.reachable_of_play (Option.some_get patchTalent_isSome).symm)
  have hunmatched : ¬ ∀ user ∈ (patchTalent.get patchTalent_isSome).world.state.tables.users,
      user.Matches (patchTalent.get patchTalent_isSome).world.state.tables := by decide +kernel
  exact hunmatched (h sampleEnv _ _ onlyAdmin_seeded hp).users

end Runs

end SkillBridge
