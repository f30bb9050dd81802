import Mathlib.Data.List.Nodup
import SkillBridge.Database.Effects

set_option autoImplicit false

/-! The rows of the one-time codes: what a statement does to them, and what it cannot undo. -/

namespace SkillBridge

open Interleaving Database

inductive OtpsEffect (table : OtpTable) (db t : Database) : (o : Op) → Reply o → Prop
  | kept {o : Op} {r : Reply o} (h : t.tables.otps table = db.tables.otps table) : OtpsEffect table db t o r
  | inserted {payload : NewOtp} (fresh : t.fresh = db.fresh + 1)
      (h : t.tables.otps table = db.tables.otps table ++ [payload.toOtp db.fresh db.dbNow]) :
      OtpsEffect table db t (.insertOtp table payload) (.ok (payload.toOtp db.fresh db.dbNow))
  | invalidated {userId : UserId} (h : t.tables.otps table = (db.tables.otps table).map fun otp =>
        if otp.userId = userId ∧ otp.Active db.dbNow then { otp with usedAt := some db.dbNow } else otp) :
      OtpsEffect table db t (.invalidateActiveOtps table userId) (.ok ())
  | used {id : OtpId} (h : t.tables.otps table = (db.tables.otps table).map fun otp =>
        if otp.id = id ∧ otp.usedAt = none then { otp with usedAt := some db.dbNow } else otp) :
      OtpsEffect table db t (.markOtpUsed table id) (.ok true)
  | deleted {id : UserId} (h : t.tables.otps table = (db.tables.otps table).filter fun otp => otp.userId ≠ id) :
      OtpsEffect table db t (.deleteUser id) (.ok ())

variable {db t : Database} {o : Op} {reply : Reply o} {table : OtpTable} {id : OtpId}

theorem otps_foldl (ws : List Write) (tables : Tables) : (ws.foldl Write.apply tables).otps = tables.otps := by
  induction ws generalizing tables with
  | nil => rfl
  | cons w ws ih =>
    rw [List.foldl_cons, ih]
    cases w <;> rfl

theorem otps_setOtps_ne {other : OtpTable} (h : table ≠ other) (otps : List Otp) :
    (db.setOtps other otps).tables.otps table = db.tables.otps table := if_neg h

theorem otps_setOtps (otps : List Otp) : (db.setOtps table otps).tables.otps table = otps := if_pos rfl

theorem Database.Effect.otps (h : Effect db o reply t) (table : OtpTable) : OtpsEffect table db t o reply := by
  cases h with
  | @invalidated other userId =>
    by_cases ht : table = other
    · subst ht
      exact .invalidated (otps_setOtps _)
    · exact .kept (otps_setOtps_ne ht _)
  | @insertOtp other payload =>
    by_cases ht : table = other
    · subst ht
      exact .inserted rfl (otps_setOtps _)
    · exact .kept (otps_setOtps_ne ht _)
  | @markOtpUsed other id unused =>
    by_cases ht : table = other
    · subst ht
      exact .used (otps_setOtps _)
    · exact .kept (otps_setOtps_ne ht _)
  | deleteUser => exact .deleted rfl
  | @committed tx => exact .kept (congrFun (otps_foldl _ _) table)
  | _ => exact .kept rfl

structure OtpKeys (table : OtpTable) (db : Database) : Prop where
  unique : ((db.tables.otps table).map Otp.id).Nodup
  fresh : ∀ otp ∈ db.tables.otps table, otp.id < db.fresh

theorem OtpKeys.eq_of_id (h : OtpKeys table db) {otp otp' : Otp} (hm : otp ∈ db.tables.otps table)
    (hm' : otp' ∈ db.tables.otps table) (hid : otp.id = otp'.id) : otp = otp' :=
  List.inj_on_of_nodup_map h.unique hm hm' hid

theorem map_id_map {f : Otp → Otp} (hf : ∀ otp, (f otp).id = otp.id) (otps : List Otp) :
    (otps.map f).map Otp.id = otps.map Otp.id := by
  rw [List.map_map]
  exact List.map_congr_left fun otp _ => hf otp

theorem OtpKeys.map (h : OtpKeys table db) {f : Otp → Otp} (hf : ∀ otp, (f otp).id = otp.id)
    (ht : t.tables.otps table = (db.tables.otps table).map f) (hle : db.fresh ≤ t.fresh) : OtpKeys table t := by
  refine ⟨by rw [ht, map_id_map hf]; exact h.unique, ?_⟩
  intro otp hm
  rw [ht] at hm
  obtain ⟨old, hold, rfl⟩ := List.mem_map.mp hm
  rw [hf]
  exact Nat.lt_of_lt_of_le (h.fresh old hold) hle

theorem OtpKeys.step (h : OtpKeys table db) (he : Effect db o reply t) : OtpKeys table t := by
  have hle := he.fresh_le
  cases he.otps table with
  | kept ht => exact ⟨by rw [ht]; exact h.unique, fun otp hm => Nat.lt_of_lt_of_le (h.fresh otp (ht ▸ hm)) hle⟩
  | @inserted payload fresh ht =>
    constructor
    · rw [ht, List.map_append, List.nodup_append]
      refine ⟨h.unique, by simp, ?_⟩
      intro a ha b hb
      obtain ⟨otp, hm, rfl⟩ := List.mem_map.mp ha
      have hb : b = db.fresh := by simpa [NewOtp.toOtp] using hb
      rw [hb]
      exact Nat.ne_of_lt (h.fresh otp hm)
    · intro otp hm
      rw [ht] at hm
      rcases List.mem_append.mp hm with hm | hm
      · rw [fresh]
        exact Nat.lt_succ_of_lt (h.fresh otp hm)
      · obtain rfl := List.mem_singleton.mp hm
        rw [fresh]
        exact Nat.lt_succ_self _
  | invalidated ht =>
    refine h.map ?_ ht hle
    intro otp
    split_ifs <;> rfl
  | used ht =>
    refine h.map ?_ ht hle
    intro otp
    split_ifs <;> rfl
  | @deleted id ht =>
    refine ⟨?_, fun otp hm => ?_⟩
    · rw [ht]
      exact h.unique.sublist (List.filter_sublist.map Otp.id)
    · rw [ht] at hm
      exact Nat.lt_of_lt_of_le (h.fresh otp (List.mem_filter.mp hm).1) hle

structure Spent (table : OtpTable) (id : OtpId) (db : Database) : Prop where
  lt : id < db.fresh
  used : ∀ otp ∈ db.tables.otps table, otp.id = id → otp.usedAt ≠ none

theorem Database.Effect.unused (he : Effect db o reply t) {otp : Otp} (hm : otp ∈ t.tables.otps table)
    (hunused : otp.usedAt = none) : otp ∈ db.tables.otps table ∨
      otp.id = db.fresh ∧ ∃ payload, (⟨o, reply⟩ : Call backend) = ⟨.insertOtp table payload, .ok otp⟩ := by
  cases he.otps table with
  | kept ht => exact .inl (ht ▸ hm)
  | @inserted payload fresh ht =>
    rw [ht] at hm
    rcases List.mem_append.mp hm with hm | hm
    · exact .inl hm
    · obtain rfl := List.mem_singleton.mp hm
      exact .inr ⟨rfl, payload, rfl⟩
  | invalidated ht =>
    rw [ht] at hm
    obtain ⟨old, hold, rfl⟩ := List.mem_map.mp hm
    split_ifs at hunused ⊢ with hactive
    exact .inl hold
  | used ht =>
    rw [ht] at hm
    obtain ⟨old, hold, rfl⟩ := List.mem_map.mp hm
    split_ifs at hunused ⊢ with hactive
    exact .inl hold
  | deleted ht =>
    rw [ht] at hm
    exact .inl (List.mem_filter.mp hm).1

theorem Database.Effect.origin (he : Effect db o reply t) {otp : Otp} (hm : otp ∈ t.tables.otps table) :
    (∃ old ∈ db.tables.otps table, old.userId = otp.userId ∧ old.id = otp.id) ∨
      ∃ payload, (⟨o, reply⟩ : Call backend) = ⟨.insertOtp table payload, .ok otp⟩ := by
  cases he.otps table with
  | kept ht => exact .inl ⟨otp, ht ▸ hm, rfl, rfl⟩
  | @inserted payload fresh ht =>
    rw [ht] at hm
    rcases List.mem_append.mp hm with hm | hm
    · exact .inl ⟨otp, hm, rfl, rfl⟩
    · obtain rfl := List.mem_singleton.mp hm
      exact .inr ⟨payload, rfl⟩
  | invalidated ht =>
    rw [ht] at hm
    obtain ⟨old, hold, rfl⟩ := List.mem_map.mp hm
    refine .inl ⟨old, hold, ?_⟩
    split_ifs <;> exact ⟨rfl, rfl⟩
  | used ht =>
    rw [ht] at hm
    obtain ⟨old, hold, rfl⟩ := List.mem_map.mp hm
    refine .inl ⟨old, hold, ?_⟩
    split_ifs <;> exact ⟨rfl, rfl⟩
  | deleted ht =>
    rw [ht] at hm
    exact .inl ⟨otp, (List.mem_filter.mp hm).1, rfl, rfl⟩

theorem inserted_eq {payload : NewOtp} {otp : Otp} (he : Effect db (.insertOtp table payload) (.ok otp) t) :
    otp = payload.toOtp db.fresh db.dbNow ∧ t.fresh = db.fresh + 1 := by
  cases he with
  | unchanged h => cases h
  | drawn h => cases h
  | saved h => cases h
  | insertOtp => exact ⟨rfl, rfl⟩

theorem Spent.step (h : Spent table id db) (he : Effect db o reply t) : Spent table id t := by
  refine ⟨Nat.lt_of_lt_of_le h.lt he.fresh_le, ?_⟩
  intro otp hm hid hunused
  rcases he.unused hm hunused with hm | ⟨hfresh, -⟩
  · exact h.used otp hm hid hunused
  · exact absurd (hid.symm.trans hfresh) (Nat.ne_of_lt h.lt)

theorem spent_of_used (hk : OtpKeys table db) (he : Effect db (.markOtpUsed table id) (.ok true) t) :
    Spent table id t ∧ ∃ otp ∈ db.tables.otps table, otp.id = id ∧ otp.usedAt = none := by
  cases he with
  | unchanged h => cases h
  | drawn h => cases h
  | saved h => cases h
  | markOtpUsed unused =>
    obtain ⟨otp, hm, hotp⟩ := List.any_eq_true.mp unused
    simp only [Bool.and_eq_true, decide_eq_true_eq] at hotp
    refine ⟨⟨hotp.1 ▸ hk.fresh otp hm, ?_⟩, otp, hm, hotp⟩
    intro row hrow hid hunused
    rw [otps_setOtps] at hrow
    obtain ⟨old, hold, rfl⟩ := List.mem_map.mp hrow
    split_ifs at hid hunused with hcond
    exact hcond ⟨hid, hunused⟩

theorem spent_of_invalidated {userId : UserId} (hk : OtpKeys table db)
    (he : Effect db (.invalidateActiveOtps table userId) (.ok ()) t) {otp : Otp}
    (hm : otp ∈ db.tables.otps table)
    (huser : otp.userId = userId) (hactive : otp.Active db.dbNow) : Spent table otp.id t := by
  cases he with
  | unchanged h => cases h
  | drawn h => cases h
  | saved h => cases h
  | invalidated =>
    refine ⟨hk.fresh otp hm, ?_⟩
    intro row hrow hid hunused
    unfold invalidateActiveOtps at hrow
    rw [otps_setOtps] at hrow
    obtain ⟨old, hold, rfl⟩ := List.mem_map.mp hrow
    split_ifs at hid hunused with hcond
    obtain rfl := hk.eq_of_id hold hm hid
    exact hcond ⟨huser, hactive⟩

theorem mem_of_findLatestOtp {userId : UserId} {draw : ℕ} {otp : Otp}
    (h : db.findLatestOtp table userId draw = some otp) :
    otp ∈ db.tables.otps table ∧ otp.userId = userId ∧ otp.Active db.dbNow := by
  have hmem := List.mem_of_getElem? h
  simp only [activeOtps, List.mem_filter, Bool.and_eq_true, decide_eq_true_eq] at hmem
  exact hmem.1

end SkillBridge
