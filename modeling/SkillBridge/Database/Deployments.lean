import SkillBridge.Database.SchemaHistory

set_option autoImplicit false

/-! Deployments and reverts, on whatever the releases before have left in the database. -/

namespace SkillBridge.Migrations

open Relational

section Steps

variable {db db' : Instance Name} {migration : Migration Name} {k : ℕ}

theorem checked_runs {views : List (Name × View Name)} {steps : List (Step Name)}
    (h : (checkSteps (View.keepsAll views) ⟨db.schema, []⟩ steps).isSome = true) :
    ∃ db', runSteps db steps = .ok db' ∧ ∀ a ∈ views, a.2.Same a.1 db.rows db'.rows := by
  obtain ⟨known, hknown⟩ := Option.isSome_iff_exists.mp h
  have hdescribes : Known.Describes ⟨db.schema, []⟩ db := ⟨rfl, fun _ hname => absurd hname List.not_mem_nil⟩
  obtain ⟨db', hrun, -, hsame⟩ := checkSteps_sound (View.keeping_all views) hdescribes hknown
  exact ⟨db', hrun, hsame⟩

theorem up_runs (hget : migrations[k]? = some migration) (hs : db.schema ∈ schemas k) :
    ∃ db', runSteps db migration.up = .ok db' ∧ SameRecords db.schema db.rows db'.rows := by
  -- two migrations look at rows that are there, all others are decided by the schema
  by_cases hchecked : k ∈ [1, 5]
  · simp only [List.mem_cons, List.not_mem_nil, or_false] at hchecked
    rcases hchecked with rfl | rfl
    · cases hget
      rw [List.mem_singleton.mp hs]
      exact align_runs (List.mem_singleton.mp hs)
    · cases hget
      rw [List.mem_singleton.mp hs]
      exact fix_runs (List.mem_singleton.mp hs)
  · exact checked_runs ((checked hget).up hchecked _ hs)

theorem up_schema (hget : migrations[k]? = some migration) (hs : db.schema ∈ schemas k)
    (hrun : runSteps db migration.up = .ok db') : db'.schema ∈ schemas (k + 1) := by
  have hall := (checked hget).up_schema _ hs
  rw [runSteps_schema hrun] at hall
  exact of_decide_eq_true hall

theorem down_schema (hget : migrations[k]? = some migration) (hs : db.schema ∈ schemas (k + 1))
    (hrun : runSteps db migration.down = .ok db') : db'.schema ∈ schemas k := by
  have hall := (checked hget).down_schema _ hs
  rw [runSteps_schema hrun] at hall
  exact of_decide_eq_true hall

end Steps

section Passwords

variable {db : Instance Name} {migration : Migration Name} {k : ℕ}

theorem passwords_down (hget : migrations[k]? = some migration) (hk : k ∈ [6, 8]) :
    ∃ message, migration.down = [.refuseNull .users .password message, setNotNull .users .password] := by
  simp only [List.mem_cons, List.not_mem_nil, or_false] at hk
  rcases hk with rfl | rfl
  · cases hget
    exact ⟨_, rfl⟩
  · cases hget
    exact ⟨_, rfl⟩

theorem passwords_restored (hget : migrations[k]? = some migration) (hk : k ∈ [6, 8])
    (hs : db.schema ∈ schemas (k + 1)) (hset : ∀ r ∈ db.rows .users, r .password ≠ .null) :
    ∃ db', runSteps db migration.down = .ok db' ∧ SameRecords (schemaAfter k) db.rows db'.rows := by
  obtain ⟨message, hdown⟩ := passwords_down hget hk
  have hnone : ¬ ((db.rows .users).any fun r => r .password = .null) = true := by
    simpa using hset
  have hsafe : SafeSteps db.schema db.rows [setNotNull .users .password] := ⟨hset, True.intro⟩
  obtain ⟨db', hrun, hrows⟩ := runSteps_ok ((checked hget).passwords hk _ hs) hsafe
  have hsame : db'.rows = db.rows := by
    simp only [hrows, moveSteps, setNotNull, Statement.move, Change.onRow, List.map_id', Function.update_eq_self]
  refine ⟨db', ?_, fun a _ => ?_⟩
  · rw [hdown, runSteps, List.foldlM_cons, Step.run, if_neg hnone]
    exact hrun
  · rw [View.Same, hsame]

theorem passwords_missing (hget : migrations[k]? = some migration) (hk : k ∈ [6, 8])
    (hmissing : ¬ ∀ r ∈ db.rows .users, r .password ≠ .null) :
    ∃ message, runSteps db migration.down = .error (.thrown message) := by
  obtain ⟨message, hdown⟩ := passwords_down hget hk
  have hsome : ((db.rows .users).any fun r => r .password = .null) = true := by
    simpa using hmissing
  refine ⟨message, ?_⟩
  rw [hdown, runSteps, List.foldlM_cons, Step.run, if_pos hsome]
  rfl

end Passwords

section Reverts

variable {db : Instance Name} {migration : Migration Name} {k : ℕ}

/-- When the migration after the first `k` can be reverted: `FixUserOauthAccountConstraints` never, those that let
the password be null where it is null nowhere. -/
def Revertible (k : ℕ) (db : Instance Name) : Prop :=
  k ≠ 5 ∧ (k ∈ [6, 8] → ∀ r ∈ db.rows .users, r .password ≠ .null)

theorem down_runs (hget : migrations[k]? = some migration) (hs : db.schema ∈ schemas (k + 1))
    (h : Revertible k db) :
    ∃ db', runSteps db migration.down = .ok db' ∧ SameRecords (schemaAfter k) db.rows db'.rows := by
  by_cases hchecked : k ∈ [1, 5, 6, 8]
  · simp only [List.mem_cons, List.not_mem_nil, or_false] at hchecked
    rcases hchecked with rfl | rfl | rfl | rfl
    · cases hget
      exact unalign_runs (List.mem_singleton.mp hs)
    · exact absurd rfl h.1
    · exact passwords_restored hget (by decide) hs (h.2 (by decide))
    · exact passwords_restored hget (by decide) hs (h.2 (by decide))
  · exact checked_runs ((checked hget).down hchecked _ hs)

theorem down_refused (hget : migrations[k]? = some migration) (h : ¬ Revertible k db) :
    ∃ message, runSteps db migration.down = .error (.thrown message) := by
  by_cases hfix : k = 5
  · subst hfix
    cases hget
    exact ⟨_, rfl⟩
  · have hpasswords := Classical.not_imp.mp fun himp => h ⟨hfix, himp⟩
    exact passwords_missing hget hpasswords.1 hpasswords.2

end Reverts

section Deployments

variable {s t : Migrated Name}

/-- The tables of `db` are still there with all their columns, and the rows are the same in these. -/
def KeepsRecords (db db' : Instance Name) : Prop :=
  (∀ a ∈ kept db.schema, ∃ b ∈ kept db'.schema, b.1 = a.1 ∧ a.2.Within b.2) ∧
    SameRecords db.schema db.rows db'.rows

theorem KeepsRecords.trans {db db' db'' : Instance Name} (h : KeepsRecords db db') (h' : KeepsRecords db' db'') :
    KeepsRecords db db'' := by
  constructor
  · intro a ha
    obtain ⟨b, hb, hname, hwithin⟩ := h.1 a ha
    obtain ⟨c, hc, hname', hwithin'⟩ := h'.1 b hb
    exact ⟨c, hc, hname'.trans hname, fun n hn => hwithin'.1 n (hwithin.1 n hn),
      fun l hl => hwithin'.2 l (hwithin.2 l hl)⟩
  · intro a ha
    obtain ⟨b, hb, hname, hwithin⟩ := h.1 a ha
    have hsame := hwithin.same (h'.2 b hb)
    rw [hname] at hsame
    exact hsame.trans (h.2 a ha)

theorem lineage : Lineage migrations schemas KeepsRecords where
  refl db := ⟨fun a ha => ⟨a, ha, rfl, fun _ hn => hn, fun _ hl => hl⟩, fun _ _ => rfl⟩
  trans := KeepsRecords.trans
  start := List.mem_singleton_self _
  up {k migration db} hget hs := by
    obtain ⟨db', hrun, hsame⟩ := up_runs hget hs
    have hs' := up_schema hget hs hrun
    refine ⟨db', hrun, hs', ?_, hsame⟩
    rw [(checked hget).kept_eq _ hs, (checked hget).kept_eq_up _ hs']
    exact (checked hget).kept_grows
  down := down_schema

/-- Whatever has been migrated, reverted and written before, a deployment leads to the one schema and keeps the
records. -/
theorem records_survive_deployment (h : Migrated.Reachable migrations s) :
    ∃ t, migrate migrations migrations.length s = .ok t ∧ t.executed = migrations.length ∧
      t.db.schema = schemaAfter migrations.length ∧ SameRecords s.db.schema s.db.rows t.db.rows := by
  obtain ⟨hle, hs⟩ := lineage.reachable h
  obtain ⟨t, ht, hexecuted, hschema, -, hsame⟩ := lineage.migrate_ok hs hle (Nat.le_refl _)
  exact ⟨t, ht, hexecuted, List.mem_singleton.mp hschema, hsame⟩

theorem revert_ok (h : Migrated.Reachable migrations s) {k : ℕ} (hk : s.executed = k + 1)
    (hrevertible : Revertible k s.db) :
    ∃ t, revert migrations s = .ok t ∧ t.executed = k ∧ t.db.schema ∈ schemas k ∧
      SameRecords t.db.schema s.db.rows t.db.rows := by
  obtain ⟨hle, hs⟩ := lineage.reachable h
  rw [hk] at hle hs
  have hget : migrations[k]? = some migrations[k] := List.getElem?_eq_getElem hle
  obtain ⟨db', hrun, hsame⟩ := down_runs hget hs hrevertible
  have hs' := down_schema hget hs hrun
  refine ⟨⟨k, db'⟩, ?_, rfl, hs', ?_⟩
  · simp only [revert, hk, hget]
    exact map_eq_ok.mpr ⟨db', hrun, rfl⟩
  · rw [SameRecords, (checked hget).kept_eq _ hs']
    exact hsame

theorem revert_refused (h : Migrated.Reachable migrations s) {k : ℕ} (hk : s.executed = k + 1)
    (hrevertible : ¬ Revertible k s.db) : ∃ message, revert migrations s = .error (.thrown message) := by
  have hle := (lineage.reachable h).1
  rw [hk] at hle
  have hget : migrations[k]? = some migrations[k] := List.getElem?_eq_getElem hle
  obtain ⟨message, hrun⟩ := down_refused hget hrevertible
  refine ⟨message, ?_⟩
  simp only [revert, hk, hget, hrun]
  rfl

/-- A revert keeps what the release before knows of the records, or one of the migrations says why it is refused. -/
theorem records_survive_revert (h : Migrated.Reachable migrations s) {k : ℕ} (hk : s.executed = k + 1) :
    (Revertible k s.db → ∃ t, revert migrations s = .ok t ∧ t.executed = k ∧ t.db.schema ∈ schemas k ∧
      SameRecords t.db.schema s.db.rows t.db.rows) ∧
    (¬ Revertible k s.db → ∃ message, revert migrations s = .error (.thrown message)) :=
  ⟨revert_ok h hk, revert_refused h hk⟩

end Deployments

section FirstReleases

def accountRow (n : ℕ) (email role : String) : Row Name
  | .id => .uuid n
  | .email => .text email
  | .password => .text "hash"
  | .first_name => .text "Ada"
  | .last_name => .text "Obi"
  | .role => .text role
  | .country => .text "Nigeria"
  | .created_at | .updated_at => .timestamp 0
  | .is_verified | .onboarding_complete => .boolean true
  | _ => .null

def onlyUsers (users : List (Row Name)) : Rows Name
  | .users => users
  | _ => []

theorem reachable_of_schema {k : ℕ} (hk : k ≤ migrations.length) {db : Instance Name}
    (h : schemas k = [schemaAfter k]) (hdb : db.schema = schemaAfter k) : Migrated.Reachable migrations ⟨k, db⟩ := by
  obtain ⟨t, ht, rfl, hschema, -⟩ := lineage.migrate_ok (s := ⟨0, .empty⟩) lineage.start (Nat.zero_le k) hk
  rw [h] at hschema
  -- `t` has the schema but no rows yet; they are written in one step
  have hwrite := hdb.trans (List.mem_singleton.mp hschema).symm
  exact .tail (.tail .refl (.migrate _ (Nat.zero_le _) hk ht)) (.write db hwrite)

def firstRelease : Instance Name where
  schema := schemaAfter 1
  rows := onlyUsers [accountRow 0 "ada@example.com" "admin", accountRow 1 "obi@example.com" "user"]
  admissible := by decide

theorem firstRelease_reachable : Migrated.Reachable migrations ⟨1, firstRelease⟩ :=
  reachable_of_schema (by decide) rfl rfl

theorem records_survive_first_deployment : ∃ t, migrate migrations migrations.length ⟨1, firstRelease⟩ = .ok t ∧
    SameRecords (schemaAfter 1) firstRelease.rows t.db.rows := by
  obtain ⟨t, ht, -, -, hsame⟩ := records_survive_deployment firstRelease_reachable
  exact ⟨t, ht, hsame⟩

def secondRelease : Instance Name where
  schema := schemaAfter 2
  rows := onlyUsers [accountRow 0 "ada@example.com" "admin", accountRow 1 "obi@example.com" "employer"]
  admissible := by decide

theorem secondRelease_reachable : Migrated.Reachable migrations ⟨2, secondRelease⟩ :=
  reachable_of_schema (by decide) rfl rfl

theorem records_survive_second_revert : ∃ t, revert migrations ⟨2, secondRelease⟩ = .ok t ∧
    SameRecords t.db.schema secondRelease.rows t.db.rows := by
  have hrevertible : Revertible 1 secondRelease := ⟨by decide, fun hk => absurd hk (by decide)⟩
  obtain ⟨t, ht, -, -, hsame⟩ := (records_survive_revert secondRelease_reachable rfl).1 hrevertible
  exact ⟨t, ht, hsame⟩

end FirstReleases

end SkillBridge.Migrations
