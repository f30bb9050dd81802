import SkillBridge.Database.OpenWrites

set_option autoImplicit false

/-!
The order in which transactions take what other statements wait for: a new user or profile first, the link or the
flag of the user after it. A process that holds something waits only for what comes later in this order.
-/

namespace SkillBridge

open Interleaving Database

def Write.level : Write → ℕ
  | insertUser _ _ _ => 1
  | insertTalentProfile _ => 1
  | insertEmployerProfile _ => 1
  | insertOauthAccount _ => 2
  | markOnboardingComplete _ => 2

/-- A statement waits for no write of a lower level; at 3 it does not wait at all. -/
def Op.demand : Op → ℕ
  | insertUser _ _ => 1
  | updateUser _ _ => 1
  | rotateRefreshTokenHash _ _ _ => 1
  | deleteUser _ => 1
  | insertTalentProfile _ _ => 1
  | insertEmployerProfile _ _ => 1
  | insertOauthAccount _ _ _ _ => 2
  | markOnboardingComplete _ _ => 2
  | _ => 3

theorem Op.demand_le (o : Op) : o.demand ≤ 3 := by
  cases o <;> simp [Op.demand]

theorem Write.level_pos (w : Write) : 0 < w.level := by
  cases w <;> simp [Write.level]

section Waiting

variable {db : Database} {o : Op} {tx : Option TxId}

theorem mem_others {w : Write} (h : w ∈ db.others tx) : ∃ entry ∈ db.transactions, w ∈ entry.2 := by
  obtain ⟨entry, hentry, hw⟩ := List.mem_flatMap.mp h
  exact ⟨entry, (List.mem_filter.mp hentry).1, hw⟩

def HeldFrom (n : ℕ) (db : Database) : Prop := ∃ entry ∈ db.transactions, ∃ w ∈ entry.2, n ≤ w.level

theorem heldFrom_of_any {n : ℕ} {f : Write → Bool} (h : (db.others tx).any f = true)
    (hf : ∀ w, f w = true → n ≤ w.level) : HeldFrom n db := by
  obtain ⟨w, hw, hfw⟩ := List.any_eq_true.mp h
  obtain ⟨entry, hentry, hmem⟩ := mem_others hw
  exact ⟨entry, hentry, w, hmem, hf w hfw⟩

theorem le_of_locks {id : UserId} {w : Write} (h : w.locks id = true) : 2 ≤ w.level := by
  cases w <;> first | exact Nat.le_refl _ | cases h

theorem le_of_linksLike {id : UserId} {provider providerId : String} {w : Write}
    (h : w.linksLike id provider providerId = true) : 2 ≤ w.level := by
  cases w <;> first | exact Nat.le_refl _ | cases h

theorem heldFrom_of_insertUnique {α : Type} {n : ℕ} {fits taken waits dangling : Bool} {row : α} {w : Write}
    (hnone : db.insertUnique fits taken waits dangling row tx w = none) (hwaits : waits = true → HeldFrom n db) :
    HeldFrom n db := by
  unfold insertUnique at hnone
  split_ifs at hnone with hfits htaken hw
  exact hwaits hw

theorem answered_or_heldFrom (o : Op) (db : Database) :
    (∃ ω reply t, exec o ω db = some (reply, t)) ∨ HeldFrom o.demand db := by
  by_cases h : ∃ reply t, exec o {} db = some (reply, t)
  · obtain ⟨reply, t, h⟩ := h
    exact .inl ⟨_, reply, t, h⟩
  have hnone : exec o {} db = none := by
    cases hexec : exec o {} db with
    | none => rfl
    | some result => exact absurd ⟨result.1, result.2, hexec⟩ h
  cases o with
  | insertUser tx payload =>
    exact .inr (heldFrom_of_insertUnique hnone fun hw => heldFrom_of_any hw fun w _ => w.level_pos)
  | insertTalentProfile tx profile =>
    exact .inr (heldFrom_of_insertUnique hnone fun hw => heldFrom_of_any hw fun w _ => w.level_pos)
  | insertEmployerProfile tx profile =>
    exact .inr (heldFrom_of_insertUnique hnone fun hw => heldFrom_of_any hw fun w _ => w.level_pos)
  | insertOauthAccount tx userId provider providerId =>
    exact .inr (heldFrom_of_insertUnique hnone fun hw => heldFrom_of_any hw fun w => le_of_linksLike)
  | updateUser id payload =>
    simp only [exec, Database.updateUser] at hnone
    right
    split at hnone
    · cases hnone
    · split_ifs at hnone with hfits hlocked hnull htaken hemail
      · exact heldFrom_of_any hlocked fun w _ => w.level_pos
      · obtain ⟨email, -, hany⟩ := (Option.any_eq_true _ _).mp hemail
        exact heldFrom_of_any hany fun w _ => w.level_pos
  | rotateRefreshTokenHash id currentHash nextHash =>
    simp only [exec, Database.rotateRefreshTokenHash] at hnone
    right
    split at hnone
    · cases hnone
    · split_ifs at hnone with hstale hlocked
      exact heldFrom_of_any hlocked fun w _ => w.level_pos
  | deleteUser id =>
    simp only [exec, Database.deleteUser] at hnone
    right
    split_ifs at hnone with hreferenced
    exact heldFrom_of_any hreferenced fun w _ => w.level_pos
  | markOnboardingComplete tx id =>
    simp only [exec, Database.markOnboardingComplete] at hnone
    right
    split_ifs at hnone with hlocked
    exact heldFrom_of_any hlocked fun w => le_of_locks
  | randomBytes size => exact .inl ⟨{ bytes := List.replicate size 0 }, _, _, if_pos (by simp)⟩
  | _ => cases hnone

end Waiting

section Order

def Concluded (past : List ApiCall) : Prop :=
  ∀ tx e, ⟨.commitTransaction tx, .error e⟩ ∉ past ∧ ⟨.rollbackTransaction tx, .error e⟩ ∉ past

/-- A process demands more than it holds. -/
def Climbs (call : ApiCall) (past : List ApiCall) : Prop :=
  Concluded past → ∀ tx writes, openWrites tx past = some writes → ∀ w ∈ writes, w.level < call.1.demand

def AtRest (past : List ApiCall) : Prop := ∀ tx writes, openWrites tx past = some writes → writes = []

def Rests (past : List ApiCall) : Prop := Concluded past → AtRest past

def HoldsUpTo (tx : TxId) (n : ℕ) (past : List ApiCall) : Prop :=
  ∀ tx' writes, openWrites tx' past = some writes → ∀ w ∈ writes, tx' = tx ∧ w.level ≤ n

variable {o : Op} {reply : Reply o} {tx tx' : TxId} {n : ℕ} {past : List ApiCall} {call : ApiCall}

theorem Concluded.of_cons (h : Concluded (call :: past)) : Concluded past := fun tx e =>
  ⟨fun hmem => (h tx e).1 (List.mem_cons_of_mem _ hmem), fun hmem => (h tx e).2 (List.mem_cons_of_mem _ hmem)⟩

theorem level_of_saved {entry : TxId × Write} (h : saved ⟨o, reply⟩ = some entry) :
    entry.2.level = o.demand := by
  unfold saved at h
  split at h <;> cases h
  all_goals
    rename_i heq
    obtain ⟨rfl, -⟩ := Sigma.mk.inj heq
    rfl

theorem openWrites_cons_cases {writes : List Write} (h : openWrites tx (⟨o, reply⟩ :: past) = some writes) :
    writes = [] ∨ closed ⟨o, reply⟩ ≠ some tx ∧ ∃ old, openWrites tx past = some old ∧
      ∀ w ∈ writes, w ∈ old ∨ o.transaction = some tx ∧ w.level = o.demand := by
  rw [openWrites_cons, writesAfter] at h
  split_ifs at h with hstarted hclosed
  · exact .inl (Option.some.inj h).symm
  obtain ⟨old, hold, rfl⟩ := Option.map_eq_some_iff.mp h
  refine .inr ⟨hclosed, old, hold, fun w hw => ?_⟩
  rcases List.mem_append.mp hw with hw | hw
  · exact .inl hw
  obtain ⟨entry, hentry, rfl⟩ := List.mem_map.mp hw
  obtain ⟨hsaved, htx⟩ := Option.filter_eq_some_iff.mp (Option.mem_toList.mp hentry)
  rw [decide_eq_true_eq] at htx
  exact .inr ⟨htx ▸ transaction_of_saved hsaved, level_of_saved hsaved⟩

theorem AtRest.outside (h : AtRest past) (ho : o.transaction = none) : AtRest (⟨o, reply⟩ :: past) := by
  intro tx writes hopen
  rcases openWrites_cons_cases hopen with rfl | ⟨-, old, hold, hmem⟩
  · rfl
  obtain rfl := h tx old hold
  refine List.eq_nil_iff_forall_not_mem.mpr fun w hw => ?_
  rcases hmem w hw with hw | ⟨htx, -⟩
  · cases hw
  · rw [ho] at htx
    cases htx

theorem AtRest.holdsUpTo (h : AtRest past) : HoldsUpTo tx 0 past := by
  intro tx' writes hopen w hw
  rw [h tx' writes hopen] at hw
  cases hw

theorem HoldsUpTo.mono {m : ℕ} (h : HoldsUpTo tx n past) (hnm : n ≤ m) : HoldsUpTo tx m past := by
  intro tx' writes hopen w hw
  obtain ⟨htx, hle⟩ := h tx' writes hopen w hw
  exact ⟨htx, Nat.le_trans hle hnm⟩

theorem HoldsUpTo.outside (h : HoldsUpTo tx n past) (ho : o.transaction = none) :
    HoldsUpTo tx n (⟨o, reply⟩ :: past) := by
  intro tx' writes hopen w hw
  rcases openWrites_cons_cases hopen with rfl | ⟨-, old, hold, hmem⟩
  · cases hw
  rcases hmem w hw with hw | ⟨htx, -⟩
  · exact h tx' old hold w hw
  · rw [ho] at htx
    cases htx

theorem HoldsUpTo.inside (h : HoldsUpTo tx n past) (ho : o.transaction = some tx) (hn : n < o.demand) :
    HoldsUpTo tx o.demand (⟨o, reply⟩ :: past) := by
  intro tx' writes hopen w hw
  rcases openWrites_cons_cases hopen with rfl | ⟨-, old, hold, hmem⟩
  · cases hw
  rcases hmem w hw with hw | ⟨htx, hlevel⟩
  · obtain ⟨rfl, hle⟩ := h tx' old hold w hw
    exact ⟨rfl, by omega⟩
  · exact ⟨Option.some.inj (htx.symm.trans ho), Nat.le_of_eq hlevel⟩

theorem HoldsUpTo.closed (h : HoldsUpTo tx n past) (ho : o.transaction = some tx)
    (hclosed : closed ⟨o, reply⟩ = some tx) : AtRest (⟨o, reply⟩ :: past) := by
  intro tx' writes hopen
  by_cases htx : tx' = tx
  · subst htx
    rcases openWrites_cons_cases hopen with rfl | ⟨hne, -⟩
    · rfl
    · exact absurd hclosed hne
  · rcases openWrites_cons_cases hopen with rfl | ⟨-, old, hold, hmem⟩
    · rfl
    · refine List.eq_nil_iff_forall_not_mem.mpr fun w hw => ?_
      rcases hmem w hw with hw | ⟨ho', -⟩
      · exact htx (h tx' old hold w hw).1
      · exact htx (Option.some.inj (ho'.symm.trans ho))

theorem Rests.outside (h : Rests past) (ho : o.transaction = none) : Rests (⟨o, reply⟩ :: past) :=
  fun hc => (h hc.of_cons).outside ho

theorem Climbs.of_rests (h : Rests past) : Climbs call past := by
  intro hc tx writes hopen w hw
  rw [h hc tx writes hopen] at hw
  cases hw

theorem Climbs.of_holdsUpTo (h : HoldsUpTo tx n past) (hn : n < call.1.demand) : Climbs call past := by
  intro _ tx' writes hopen w hw
  have hle := (h tx' writes hopen w hw).2
  omega

end Order

end SkillBridge
