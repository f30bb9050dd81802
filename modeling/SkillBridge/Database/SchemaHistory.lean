import SkillBridge.Database.Migrations

set_option autoImplicit false

/-!
Which schemas the migrations lead through, and what becomes of the records on the way. `typeorm` executes the
pending migrations in one transaction and reverts the last one in one.
-/

namespace SkillBridge.Migrations

open Relational

def schemaAfter : ℕ → Schema Name
  | 0 => {}
  | k + 1 => ((migrations[k]?).bind fun migration => migration.up.foldlM Step.alter (schemaAfter k)).getD {}

/-- `RestoreIncorrectlyDroppedIndexes` takes away indexes that it has not created. -/
def withoutIndexes (schema : Schema Name) : Schema Name :=
  (RestoreIncorrectlyDroppedIndexes.down.foldlM Step.alter schema).getD {}

/-- `MakeUserPasswordNullable` puts a constraint back that an earlier migration has taken away. -/
def withPasswords (schema : Schema Name) : Schema Name :=
  (MakeUserPasswordNullable.down.foldlM Step.alter schema).getD {}

/-- The schemas at which the database can be when the first `k` migrations are executed. -/
def schemas (k : ℕ) : List (Schema Name) :=
  let schema := schemaAfter k
  if k = 6 ∨ k = 9 then [schema, withoutIndexes schema]
  else if k = 7 ∨ k = 8 then
    [schema, withoutIndexes schema, withPasswords schema, withPasswords (withoutIndexes schema)]
  else [schema]

/-- All columns but the role, whose labels are renamed; of it, who is an administrator. -/
def recordsOf (table : Table Name) : View Name where
  columns := table.columnNames.filter fun column => column ≠ .role
  labels := if .role ∈ table.columnNames then [(.role, "admin")] else []

def kept (schema : Schema Name) : List (Name × View Name) :=
  (schema.tables.filter fun table => table.name ∉ [.candidate_profiles, .password_reset_tokens]).map
    fun table => (table.name, recordsOf table)

def SameRecords (schema : Schema Name) (rows rows' : Rows Name) : Prop :=
  ∀ a ∈ kept schema, a.2.Same a.1 rows rows'

/-- The migrations that run whatever the rows are, and the schemas that all of them lead to. -/
@[mk_iff] structure Checked (k : ℕ) (migration : Migration Name) : Prop where
  up_schema : ∀ schema ∈ schemas k, (migration.up.foldlM Step.alter schema).all (· ∈ schemas (k + 1)) = true
  down_schema : ∀ schema ∈ schemas (k + 1), (migration.down.foldlM Step.alter schema).all (· ∈ schemas k) = true
  kept_eq : ∀ schema ∈ schemas k, kept schema = kept (schemaAfter k)
  kept_eq_up : ∀ schema ∈ schemas (k + 1), kept schema = kept (schemaAfter (k + 1))
  kept_grows : ∀ a ∈ kept (schemaAfter k), ∃ b ∈ kept (schemaAfter (k + 1)), b.1 = a.1 ∧ a.2.Within b.2
  up : k ∉ [1, 5] → ∀ schema ∈ schemas k,
    (checkSteps (View.keepsAll (kept schema)) ⟨schema, []⟩ migration.up).isSome = true
  down : k ∉ [1, 5, 6, 8] → ∀ schema ∈ schemas (k + 1),
    (checkSteps (View.keepsAll (kept (schemaAfter k))) ⟨schema, []⟩ migration.down).isSome = true
  up_coherent : k ∈ [1, 5] → coherentSteps (schemaAfter k) migration.up = true
  down_coherent : k = 1 → coherentSteps (schemaAfter (k + 1)) migration.down = true
  passwords : k ∈ [6, 8] → ∀ schema ∈ schemas (k + 1),
    coherentSteps schema [setNotNull .users .password] = true

instance (k : ℕ) : DecidablePred (Checked k) := fun migration => decidable_of_iff' _ (checked_iff k migration)

theorem migrations_checked : ∀ k < 16, (migrations[k]?).all (fun migration => Checked k migration) = true := by
  decide +kernel

theorem checked {k : ℕ} {migration : Migration Name} (h : migrations[k]? = some migration) : Checked k migration := by
  have hall := migrations_checked k (List.getElem?_eq_some_iff.mp h).1
  rw [h] at hall
  exact of_decide_eq_true hall

section Roles

variable {rows : Rows Name} {r : Row Name}

def account : View Name where
  columns :=
    [.id, .email, .password, .first_name, .last_name, .avatar_url, .refresh_token_hash, .created_at, .updated_at,
      .deleted_at]
  labels := [(.role, "admin")]

theorem kept_first : kept (schemaAfter 1) = [(.users, account)] := rfl

theorem same_first {rows' : Rows Name} (h : account.Same .users rows rows') : SameRecords (schemaAfter 1) rows rows' := by
  intro a ha
  rw [kept_first] at ha
  obtain rfl := List.mem_singleton.mp ha
  exact h

def HaveRoles (labels : List String) (users : List (Row Name)) : Prop :=
  ∀ r ∈ users, ∃ label ∈ labels, r .role = .text label

variable {labels : List String} {users : List (Row Name)}

theorem HaveRoles.admits (h : HaveRoles labels users) {types : List (EnumType Name)} {type : ColumnType Name}
    (hall : ∀ label ∈ labels, type.admits types (.text label) = true) :
    ∀ r ∈ users, r .role = .null ∨ type.admits types (r .role) = true := by
  intro r hr
  obtain ⟨label, hlabel, hrole⟩ := h r hr
  rw [hrole]
  exact .inr (hall label hlabel)

theorem HaveRoles.replace (h : HaveRoles labels users) (labels' : List String) (label : String)
    (f : String → Bool) {condition : Row Name → Bool} (hf : ∀ r other, r .role = .text other → condition r = f other)
    (hlabel : label ∈ labels') (hother : ∀ other ∈ labels, f other = false → other ∈ labels') :
    HaveRoles labels' (users.map fun r => if condition r = true then assign r [(.role, .text label)] else r) := by
  intro r hr
  obtain ⟨s, hs, rfl⟩ := List.mem_map.mp hr
  obtain ⟨other, hmem, hrole⟩ := h s hs
  rw [hf s other hrole]
  split_ifs with hcondition
  · exact ⟨label, hlabel, rfl⟩
  · exact ⟨other, hother other hmem (Bool.not_eq_true _ ▸ hcondition), hrole⟩

theorem update_safe {schema : Schema Name} {name : Name} {set : List (Name × Value)} {condition : Row Name → Bool}
    (h : (Statement.update name set condition).Safe schema fun _ => []) :
    (Statement.update name set condition).Safe schema rows := h

theorem replaced_null {n : Name} {v : Value} (hv : v ≠ .null) :
    ∀ r ∈ users.map fun r => if decide (r n = .null) = true then assign r [(n, v)] else r, r n ≠ .null := by
  intro r hr
  obtain ⟨s, -, rfl⟩ := List.mem_map.mp hr
  split_ifs with hnull
  · rwa [assign, List.foldl_cons, List.foldl_nil, Function.update_self]
  · exact fun h => hnull (decide_eq_true h)

theorem align_safe (h : HaveRoles ["admin", "user"] (rows .users)) :
    SafeSteps (schemaAfter 1) rows AlignUsersWithAuthContract.up := by
  refine ⟨True.intro, ?_, True.intro, True.intro, update_safe (by decide), ?_, .inr ?_, .inr ?_, .inr ?_,
    update_safe (by decide), update_safe (by decide), ?_, True.intro, True.intro⟩
  -- the roles fit the column as texts first, and once they are rewritten as the new labels
  · simp only [Statement.move, Change.onRow, List.map_id', Function.update_eq_self]
    exact h.admits (by decide)
  · simp only [Statement.move, Function.update_self, Change.onRow, List.map_id']
    refine (h.replace ["admin", "candidate"] "candidate" (fun role => role = "user") (fun r other hrole => ?_)
      (by decide) (by decide)).admits (by decide)
    simp only [hrole, Value.text.injEq]
  -- the default of each new column fits it
  · rintro v ⟨⟩
    rfl
  · rintro v ⟨⟩
    rfl
  · rintro v ⟨⟩
    rfl
  · simp only [Statement.move, Function.update_self]
    exact replaced_null Value.noConfusion

theorem unalign_safe (h : HaveRoles ["admin", "candidate", "employer"] (rows .users)) :
    SafeSteps (schemaAfter 2) rows AlignUsersWithAuthContract.down := by
  refine ⟨True.intro, ?_, update_safe (by decide), True.intro, True.intro, ?_, True.intro, True.intro,
    True.intro, True.intro, True.intro⟩
  · simp only [Statement.move, Change.onRow, List.map_id', Function.update_eq_self]
    exact h.admits (by decide)
  · simp only [Statement.move, Function.update_self, Change.onRow, List.map_id']
    refine (h.replace ["admin", "user"] "user" (fun role => role ≠ "admin") (fun r other hrole => ?_)
      (by decide) (by decide)).admits (by decide)
    simp [hrole]

theorem of_role {b : Bool} {label : String} (hlabel : label ≠ "admin") (h : b = true → r .role ≠ .text "admin") :
    account.of (if b = true then assign r [(.role, .text label)] else r) = account.of r := by
  split_ifs with hb
  · unfold View.of
    congr 1
    change [decide (Value.text label = .text "admin")] = [decide (r .role = .text "admin")]
    rw [decide_eq_false (h hb), decide_eq_false fun heq => hlabel (Value.text.inj heq)]
  · rfl

theorem align_same :
    SameRecords (schemaAfter 1) rows (moveSteps (schemaAfter 1) rows AlignUsersWithAuthContract.up) := by
  apply same_first
  rw [View.Same]
  simp only [moveSteps, AlignUsersWithAuthContract, setType, dropDefault, update, addColumn, setNotNull, setDefault,
    dropType, createType, Statement.move, Function.update_self, Change.onRow, List.map_map]
  refine List.map_congr_left fun r hr => ?_
  simp only [Function.comp_apply, if_true]
  rw [View.of_assign_if (by decide), View.of_assign (by decide), View.of_update (by decide),
    View.of_update (by decide), View.of_update (by decide)]
  refine of_role (by decide) fun huser => ?_
  rw [of_decide_eq_true huser]
  decide

theorem unalign_same :
    SameRecords (schemaAfter 1) rows (moveSteps (schemaAfter 2) rows AlignUsersWithAuthContract.down) := by
  apply same_first
  rw [View.Same]
  simp only [moveSteps, AlignUsersWithAuthContract, setType, dropDefault, update, dropColumn, setDefault,
    dropType, createType, Statement.move, Function.update_self, Change.onRow, List.map_map]
  refine List.map_congr_left fun r hr => ?_
  simp only [Function.comp_apply]
  refine of_role (by decide) fun hother => ?_
  exact of_decide_eq_true ((Bool.and_eq_true _ _).mp hother).2

end Roles

section FirstMigrations

variable {db db' : Instance Name}

theorem haveRoles {labels : List String}
    (hcolumn : ∃ table ∈ db.schema.tables, table.name = .users ∧ ∃ column ∈ table.columns, column.name = .role ∧
      column.isNullable = false ∧ column.type = .enum .users_role_enum)
    (htypes : ∀ type ∈ db.schema.types, type.name = .users_role_enum → type.labels = labels) :
    HaveRoles labels (db.rows .users) := by
  intro r hr
  obtain ⟨table, htable, hname, column, hmem, hrole, hnullable, htype⟩ := hcolumn
  have htyped := (db.admissible.fits table htable).typed r (hname ▸ hr) column hmem
  rw [Column.admits, hrole, hnullable, htype] at htyped
  split_ifs at htyped
  cases hvalue : r .role with
  | text label =>
    rw [hvalue, ColumnType.admits, List.any_eq_true] at htyped
    obtain ⟨type, hmem, hlabel⟩ := htyped
    obtain ⟨hname, hlabel⟩ := (Bool.and_eq_true _ _).mp hlabel
    rw [htypes type hmem (of_decide_eq_true hname)] at hlabel
    exact ⟨label, List.contains_iff_mem.mp hlabel, rfl⟩
  | _ =>
    rw [hvalue] at htyped
    cases htyped

theorem align_runs (h : db.schema = schemaAfter 1) :
    ∃ db', runSteps db AlignUsersWithAuthContract.up = .ok db' ∧ SameRecords (schemaAfter 1) db.rows db'.rows := by
  have hroles : HaveRoles ["admin", "user"] (db.rows .users) := by
    apply haveRoles
    · rw [h]
      decide
    · rw [h]
      decide
  obtain ⟨db', hrun, hrows⟩ := runSteps_ok (h ▸ (checked rfl).up_coherent (by decide)) (h ▸ align_safe hroles)
  rw [h] at hrows
  exact ⟨db', hrun, hrows ▸ align_same⟩

theorem unalign_runs (h : db.schema = schemaAfter 2) :
    ∃ db', runSteps db AlignUsersWithAuthContract.down = .ok db' ∧ SameRecords (schemaAfter 1) db.rows db'.rows := by
  have hroles : HaveRoles ["admin", "candidate", "employer"] (db.rows .users) := by
    apply haveRoles
    · rw [h]
      decide
    · rw [h]
      decide
  obtain ⟨db', hrun, hrows⟩ := runSteps_ok (h ▸ (checked rfl).down_coherent rfl) (h ▸ unalign_safe hroles)
  rw [h] at hrows
  exact ⟨db', hrun, hrows ▸ unalign_same⟩

theorem fix_runs (h : db.schema = schemaAfter 5) :
    ∃ db', runSteps db FixUserOauthAccountConstraints.up = .ok db' ∧ SameRecords (schemaAfter 5) db.rows db'.rows := by
  obtain ⟨table, htable, hname, hprovider, huser⟩ : ∃ table ∈ db.schema.tables, table.name = .user_oauth_accounts ∧
      [.provider_id] ∈ table.uniques ∧ [.user_id] ∈ table.uniques := by
    rw [h]
    decide
  have hapart := (db.admissible.fits table htable).apart
  rw [hname] at hapart
  have hsafe : SafeSteps db.schema db.rows FixUserOauthAccountConstraints.up := by
    refine ⟨True.intro, True.intro, True.intro, fun _ => ?_, fun _ => ?_, True.intro⟩
    · simp only [Statement.move, Function.update_self, Change.onRow, List.map_id']
      exact (hapart _ huser).imp (Apart.mono (by decide))
    · simp only [Statement.move, Function.update_self, Change.onRow, List.map_id']
      exact (hapart _ hprovider).imp (Apart.mono (by decide))
  obtain ⟨db', hrun, hrows⟩ := runSteps_ok (h ▸ (checked rfl).up_coherent (by decide)) hsafe
  have hsame : db'.rows = db.rows := by
    simp only [hrows, moveSteps, FixUserOauthAccountConstraints, dropConstraint, createIndex, Statement.move,
      Change.onRow, List.map_id', Function.update_eq_self]
  refine ⟨db', hrun, fun a _ => ?_⟩
  rw [View.Same, hsame]

end FirstMigrations

end SkillBridge.Migrations
