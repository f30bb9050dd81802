import Mathlib.Data.List.Forall2
import Mathlib.Logic.Relation
import SkillBridge.Relational.Preservation

set_option autoImplicit false

/-!
Migrations that are run and reverted in one transaction each, and a check that tells from the schema alone that a
migration runs on every database.
-/

namespace SkillBridge.Relational

variable {N : Type} [DecidableEq N]

inductive MigrationError
  | rejected
  | thrown (message : String)
  deriving DecidableEq

inductive Step (N : Type)
  | query (statement : Statement N)
  | ifTable (name : N) (body : List (Statement N))
  | refuseNull (table column : N) (message : String)
  | throw (message : String)

structure Migration (N : Type) where
  name : String
  up : List (Step N)
  down : List (Step N)

def Statement.run (db : Instance N) (statement : Statement N) : Except MigrationError (Instance N) :=
  match statement.exec db with
  | some db => .ok db
  | none => .error .rejected

def Step.run (db : Instance N) : Step N → Except MigrationError (Instance N)
  | query statement => statement.run db
  | ifTable name body => if name ∈ db.schema.tableNames then body.foldlM Statement.run db else .ok db
  | refuseNull table column message =>
    if (db.rows table).any fun r => r column = .null then .error (.thrown message) else .ok db
  | throw message => .error (.thrown message)

def runSteps (db : Instance N) (steps : List (Step N)) : Except MigrationError (Instance N) := steps.foldlM Step.run db

/-- What the steps do to the schema; the rows only decide whether they are refused. -/
def Step.alter (schema : Schema N) : Step N → Option (Schema N)
  | query statement => statement.alter schema
  | ifTable name body => if name ∈ schema.tableNames then body.foldlM Statement.alter schema else some schema
  | refuseNull _ _ _ => some schema
  | throw _ => none

section Schemas

variable {db db' : Instance N}

theorem Statement.run_schema {statement : Statement N} (h : statement.run db = .ok db') :
    statement.alter db.schema = some db'.schema := by
  unfold Statement.run at h
  split at h
  · rename_i db'' hexec
    cases h
    obtain ⟨schema, halter, hif⟩ := Option.bind_eq_some_iff.mp hexec
    split_ifs at hif
    cases hif
    exact halter
  · cases h

theorem foldlM_schema {α : Type} {run : Instance N → α → Except MigrationError (Instance N)}
    {alter : Schema N → α → Option (Schema N)}
    (hrun : ∀ db a db', run db a = .ok db' → alter db.schema a = some db'.schema) {l : List α}
    (h : l.foldlM run db = .ok db') : l.foldlM alter db.schema = some db'.schema := by
  induction l generalizing db with
  | nil =>
    cases h
    rfl
  | cons a l ih =>
    rw [List.foldlM_cons] at h ⊢
    cases ha : run db a with
    | error e =>
      rw [ha] at h
      cases h
    | ok db'' =>
      rw [ha] at h
      rw [hrun db a db'' ha]
      exact ih h

theorem Step.run_schema {step : Step N} (h : step.run db = .ok db') : step.alter db.schema = some db'.schema := by
  cases step with
  | query statement => exact Statement.run_schema h
  | ifTable name body =>
    simp only [run] at h
    simp only [alter]
    split_ifs at h ⊢
    · exact foldlM_schema (fun _ _ _ => Statement.run_schema) h
    · cases h
      rfl
  | refuseNull table column message =>
    simp only [run] at h
    split_ifs at h
    cases h
    rfl
  | throw message => cases h

theorem runSteps_schema {steps : List (Step N)} (h : runSteps db steps = .ok db') :
    steps.foldlM Step.alter db.schema = some db'.schema :=
  foldlM_schema (fun _ _ _ => Step.run_schema) h

end Schemas

section Queries

def coherentSteps : Schema N → List (Step N) → Bool
  | _, [] => true
  | schema, .query statement :: steps =>
    (statement.alter schema).any fun schema => decide schema.Coherent && coherentSteps schema steps
  | _, _ => false

def SafeSteps : Schema N → Rows N → List (Step N) → Prop
  | schema, rows, .query statement :: steps => statement.Safe schema rows ∧
      SafeSteps ((statement.alter schema).getD schema) (statement.move schema rows) steps
  | _, _, _ => True

def moveSteps : Schema N → Rows N → List (Step N) → Rows N
  | schema, rows, .query statement :: steps =>
    moveSteps ((statement.alter schema).getD schema) (statement.move schema rows) steps
  | _, rows, _ => rows

theorem runSteps_ok {steps : List (Step N)} {db : Instance N} (hcoherent : coherentSteps db.schema steps = true)
    (hsafe : SafeSteps db.schema db.rows steps) :
    ∃ db', runSteps db steps = .ok db' ∧ db'.rows = moveSteps db.schema db.rows steps := by
  induction steps generalizing db with
  | nil => exact ⟨db, rfl, rfl⟩
  | cons step steps ih =>
    cases step with
    | query statement =>
      obtain ⟨schema, halter, hrest⟩ := (Option.any_eq_true _ _).mp hcoherent
      obtain ⟨hschema, hrest⟩ := (Bool.and_eq_true _ _).mp hrest
      obtain ⟨hadmissible, hexec⟩ := Statement.exec_eq halter (of_decide_eq_true hschema) hsafe.1
      have hget : (statement.alter db.schema).getD db.schema = schema := by rw [halter, Option.getD_some]
      have hsteps := hsafe.2
      rw [hget] at hsteps
      obtain ⟨db', hrun, hrows⟩ := @ih ⟨schema, _, hadmissible⟩ hrest hsteps
      refine ⟨db', ?_, ?_⟩
      · rw [runSteps, List.foldlM_cons, Step.run, Statement.run, hexec]
        exact hrun
      · rw [hrows, moveSteps, hget]
    | _ => cases hcoherent

end Queries

section Checks

/-- What is known before a step: the schema, and tables without rows. -/
structure Known (N : Type) where
  schema : Schema N
  empty : List N

instance (schema : Schema N) (rows : Rows N) (type : N) (old new : String) :
    Decidable ((Statement.renameLabel type old new).Safe schema rows) :=
  inferInstanceAs (Decidable (∀ table ∈ schema.tables, ∀ column ∈ table.columns,
    column.type = .enum type → schema.Free table.name column.name))

instance (schema : Schema N) (rows : Rows N) (name : N) (set : List (N × Value)) (condition : Row N → Bool) :
    Decidable ((Statement.update name set condition).Safe schema rows) :=
  inferInstanceAs (Decidable (∀ a ∈ set, schema.Free name a.1 ∧ ∀ table ∈ schema.tables, table.name = name →
    ∀ column ∈ table.columns, column.name = a.1 → column.admits schema.types a.2 = true))

/-- Safe whatever the rows are of the tables not known to be empty. -/
def Statement.harmless (known : Known N) : Statement N → Bool
  | alterTable name (.addColumn column) =>
    known.empty.contains name || (column.fill.all fun v => column.admits known.schema.types v)
  | alterTable name (.setNotNull _) | alterTable name (.setType _ _) | alterTable name (.addForeignKey _) =>
    known.empty.contains name
  | createIndex name index _ => !index.isUnique || known.empty.contains name
  | renameLabel type old new => decide ((renameLabel type old new).Safe known.schema fun _ => [])
  | update name set condition => decide ((update name set condition).Safe known.schema fun _ => [])
  | _ => true

def Statement.emptied (known : Known N) : Statement N → List N
  | createTable table ifNotExists =>
    if ifNotExists ∧ table.name ∈ known.schema.tableNames then known.empty else table.name :: known.empty
  | renameTable _ new => known.empty.filter fun name => name ≠ new
  | _ => known.empty

variable (keeps : Schema N → Statement N → Bool)

def Statement.check (known : Known N) (statement : Statement N) : Option (Known N) :=
  (statement.alter known.schema).bind fun schema =>
    if schema.Coherent ∧ statement.harmless known = true ∧ keeps known.schema statement = true then
      some ⟨schema, statement.emptied known⟩
    else none

def Step.check (known : Known N) : Step N → Option (Known N)
  | query statement => statement.check keeps known
  | ifTable name body =>
    if name ∈ known.schema.tableNames then body.foldlM (Statement.check keeps) known else some known
  | refuseNull table _ _ => if table ∈ known.empty then some known else none
  | throw _ => none

def checkSteps (known : Known N) (steps : List (Step N)) : Option (Known N) := steps.foldlM (Step.check keeps) known

structure Known.Describes (known : Known N) (db : Instance N) : Prop where
  schema : db.schema = known.schema
  empty : ∀ name ∈ known.empty, db.rows name = []

variable {keeps} {known known' : Known N} {db : Instance N}

theorem Statement.harmless_safe {statement : Statement N} (h : known.Describes db)
    (hharmless : statement.harmless known = true) : statement.Safe db.schema db.rows := by
  have hnone : ∀ name, known.empty.contains name = true → db.rows name = [] := fun name hname =>
    h.empty name (List.contains_iff_mem.mp hname)
  rw [h.schema]
  cases statement with
  | alterTable name change =>
    cases change with
    | addColumn column =>
      rcases (Bool.or_eq_true _ _).mp hharmless with hempty | hfill
      · exact .inl (hnone name hempty)
      · exact .inr fun v hv => by rwa [hv] at hfill
    | setNotNull | setType | addForeignKey =>
      simp only [Statement.Safe, Change.Safe, hnone name hharmless]
      exact fun r hr => nomatch hr
    | _ => trivial
  | createIndex name index ifNotExists =>
    intro hunique
    rcases (Bool.or_eq_true _ _).mp hharmless with hplain | hempty
    · rw [hunique] at hplain
      cases hplain
    · rw [hnone name hempty]
      exact .nil
  | renameLabel | update => exact of_decide_eq_true hharmless
  | _ => trivial

theorem Statement.emptied_move {statement : Statement N} (h : known.Describes db) {name : N}
    (hname : name ∈ statement.emptied known) : statement.move db.schema db.rows name = [] := by
  cases statement with
  | createTable table ifNotExists =>
    simp only [emptied] at hname
    simp only [move, h.schema]
    split_ifs at hname ⊢ with hold
    · exact h.empty name hname
    · by_cases heq : name = table.name
      · rw [heq, Function.update_self]
      · rw [Function.update_of_ne heq]
        exact h.empty name ((List.mem_cons.mp hname).resolve_left heq)
  | renameTable old new =>
    obtain ⟨hmem, hne⟩ := List.mem_filter.mp hname
    simp only [move]
    split_ifs with heq
    · exact absurd heq (of_decide_eq_true hne)
    · rfl
    · exact h.empty name hmem
  | dropTable other =>
    simp only [move]
    by_cases heq : name = other
    · rw [heq, Function.update_self]
    · rw [Function.update_of_ne heq]
      exact h.empty name hname
  | alterTable other | update other =>
    simp only [move]
    by_cases heq : name = other
    · subst heq
      rw [Function.update_self, h.empty name hname]
      rfl
    · rw [Function.update_of_ne heq]
      exact h.empty name hname
  | renameLabel =>
    simp only [move, h.empty name hname, List.map_nil]
  | _ => exact h.empty name hname

/-- What a checked statement does is what any two states are related by that its like relates. -/
structure Keeping (keeps : Schema N → Statement N → Bool) (R : Rows N → Rows N → Prop) : Prop where
  refl : ∀ rows, R rows rows
  trans : ∀ {rows rows' rows''}, R rows rows' → R rows' rows'' → R rows rows''
  move : ∀ {schema rows statement}, keeps schema statement = true → R rows (statement.move schema rows)

variable {R : Rows N → Rows N → Prop}

theorem Statement.check_sound (hR : Keeping keeps R) (h : known.Describes db) {statement : Statement N}
    (hcheck : statement.check keeps known = some known') :
    ∃ db', statement.run db = .ok db' ∧ known'.Describes db' ∧ R db.rows db'.rows := by
  obtain ⟨schema, halter, hif⟩ := Option.bind_eq_some_iff.mp hcheck
  split_ifs at hif with hall
  cases hif
  obtain ⟨hcoherent, hharmless, hkeeps⟩ := hall
  rw [← h.schema] at halter
  obtain ⟨hadmissible, hexec⟩ := Statement.exec_eq halter hcoherent (harmless_safe h hharmless)
  refine ⟨_, by rw [Statement.run, hexec], ⟨rfl, fun name hname => emptied_move h hname⟩, ?_⟩
  rw [← h.schema] at hkeeps
  exact hR.move hkeeps

/-- A list of steps, each of which runs where its check admits it, runs where the check of the list admits it. -/
theorem foldlM_sound {α : Type} {check : Known N → α → Option (Known N)}
    {run : Instance N → α → Except MigrationError (Instance N)} (hR : Keeping keeps R)
    (sound : ∀ a known known' db, known.Describes db → check known a = some known' →
      ∃ db', run db a = .ok db' ∧ known'.Describes db' ∧ R db.rows db'.rows)
    (h : known.Describes db) {list : List α} (hcheck : list.foldlM check known = some known') :
    ∃ db', list.foldlM run db = .ok db' ∧ known'.Describes db' ∧ R db.rows db'.rows := by
  induction list generalizing known db with
  | nil =>
    cases hcheck
    exact ⟨db, rfl, h, hR.refl _⟩
  | cons a list ih =>
    rw [List.foldlM_cons] at hcheck
    obtain ⟨middle, hmiddle, hrest⟩ := Option.bind_eq_some_iff.mp hcheck
    obtain ⟨db₁, hrun, hdb₁, hR₁⟩ := sound _ _ _ _ h hmiddle
    obtain ⟨db₂, hrun', hdb₂, hR₂⟩ := ih hdb₁ hrest
    refine ⟨db₂, ?_, hdb₂, hR.trans hR₁ hR₂⟩
    rw [List.foldlM_cons, hrun]
    exact hrun'

theorem Step.check_sound (hR : Keeping keeps R) (h : known.Describes db) {step : Step N}
    (hcheck : step.check keeps known = some known') :
    ∃ db', step.run db = .ok db' ∧ known'.Describes db' ∧ R db.rows db'.rows := by
  cases step with
  | query statement => exact statement.check_sound hR h hcheck
  | ifTable name body =>
    simp only [check] at hcheck
    simp only [run, h.schema]
    split_ifs at hcheck ⊢
    · refine foldlM_sound hR ?_ h hcheck
      exact fun statement _ _ _ hdb => Statement.check_sound hR hdb
    · cases hcheck
      exact ⟨db, rfl, h, hR.refl _⟩
  | refuseNull table column message =>
    simp only [check] at hcheck
    split_ifs at hcheck with hempty
    cases hcheck
    simp only [run, h.empty table hempty]
    exact ⟨db, rfl, h, hR.refl _⟩
  | throw message => cases hcheck

theorem checkSteps_sound (hR : Keeping keeps R) (h : known.Describes db) {steps : List (Step N)}
    (hcheck : checkSteps keeps known steps = some known') :
    ∃ db', runSteps db steps = .ok db' ∧ known'.Describes db' ∧ R db.rows db'.rows := by
  refine foldlM_sound hR ?_ h hcheck
  exact fun step _ _ _ hdb => Step.check_sound hR hdb

end Checks

section Views

/-- What is read of a row: columns, and whether columns hold given labels. -/
structure View (N : Type) where
  columns : List N
  labels : List (N × String)
  deriving DecidableEq

def View.of (view : View N) (r : Row N) : List Value × List Bool :=
  (view.columns.map r, view.labels.map fun a => r a.1 = .text a.2)

def View.reads (view : View N) : List N := view.columns ++ view.labels.map Prod.fst

def View.keeps (table : N) (view : View N) (schema : Schema N) : Statement N → Bool
  | .createTable other _ => other.name ≠ table
  | .dropTable other => other ≠ table
  | .renameTable old new => old ≠ table && new ≠ table
  | .alterTable other (.addColumn column) => other ≠ table || column.name ∉ view.reads
  | .renameLabel type old new =>
    view.columns.all (fun n => !schema.isOfType table n type) &&
      view.labels.all fun a => !schema.isOfType table a.1 type || (a.2 ≠ old && a.2 ≠ new)
  | .update other set _ => other ≠ table || set.all fun a => a.1 ∉ view.reads
  | _ => true

def View.Same (table : N) (view : View N) (rows rows' : Rows N) : Prop :=
  (rows' table).map view.of = (rows table).map view.of

def View.Within (view other : View N) : Prop :=
  (∀ n ∈ view.columns, n ∈ other.columns) ∧ ∀ a ∈ view.labels, a ∈ other.labels

instance : DecidableRel (View.Within (N := N)) := fun _ _ => inferInstanceAs (Decidable (_ ∧ _))

variable {table : N} {view : View N} {r s : Row N}

omit [DecidableEq N] in
theorem View.Within.of_eq {other : View N} (h : view.Within other) (heq : other.of r = other.of s) :
    view.of r = view.of s := by
  obtain ⟨hcolumns, hlabels⟩ := Prod.mk.inj heq
  unfold View.of
  congr 1
  · exact List.map_congr_left fun n hn => List.map_inj_left.mp hcolumns n (h.1 n hn)
  · exact List.map_congr_left fun a ha => List.map_inj_left.mp hlabels a (h.2 a ha)

omit [DecidableEq N] in
theorem View.Within.same {other : View N} (h : view.Within other) {rows rows' : Rows N}
    (hsame : other.Same table rows rows') : view.Same table rows rows' := by
  unfold View.Same at hsame ⊢
  rw [← List.forall₂_eq_eq_eq, List.forall₂_map_left_iff, List.forall₂_map_right_iff] at hsame ⊢
  exact hsame.imp fun _ _ heq => h.of_eq heq

omit [DecidableEq N] in
theorem View.of_congr (h : ∀ n ∈ view.reads, r n = s n) : view.of r = view.of s := by
  unfold View.of
  congr 1
  · exact List.map_congr_left fun n hn => h n (List.mem_append_left _ hn)
  · refine List.map_congr_left fun a ha => ?_
    rw [h a.1 (List.mem_append_right _ (List.mem_map_of_mem ha))]

theorem View.of_update {n : N} (h : n ∉ view.reads) (r : Row N) (v : Value) :
    view.of (Function.update r n v) = view.of r :=
  View.of_congr fun _ hn => Function.update_of_ne (ne_of_mem_of_not_mem hn h) _ _

theorem View.of_assign {set : List (N × Value)} (h : ∀ a ∈ set, a.1 ∉ view.reads) (r : Row N) :
    view.of (assign r set) = view.of r :=
  View.of_congr fun _ hn => assign_of_notMem (fun a ha => (ne_of_mem_of_not_mem hn (h a ha)).symm) r

theorem View.of_assign_if {set : List (N × Value)} (h : ∀ a ∈ set, a.1 ∉ view.reads) (r : Row N) (b : Bool) :
    view.of (if b = true then assign r set else r) = view.of r := by
  split_ifs
  · exact View.of_assign h r
  · rfl

omit [DecidableEq N] in
theorem View.same_map {rows rows' : Rows N} {f : Row N → Row N} (heq : rows' table = (rows table).map f)
    (h : ∀ r ∈ rows table, view.of (f r) = view.of r) : view.Same table rows rows' := by
  rw [View.Same, heq, List.map_map]
  exact List.map_congr_left h

theorem relabel_eq_text {old new label : String} (hold : label ≠ old) (hnew : label ≠ new) {v : Value} :
    relabel old new v = .text label ↔ v = .text label := by
  unfold relabel
  split_ifs with heq
  · subst heq
    simp [Ne.symm hold, Ne.symm hnew]
  · rfl

theorem View.keeping (table : N) (view : View N) : Keeping (view.keeps table) (view.Same table) where
  refl _ := rfl
  trans h h' := Eq.trans h' h
  move := by
    intro schema rows statement hkeeps
    cases statement with
    | createTable other ifNotExists =>
      simp only [Statement.move]
      split_ifs
      · rfl
      · rw [View.Same, Function.update_of_ne (Ne.symm (of_decide_eq_true hkeeps))]
    | dropTable other =>
      rw [View.Same, Statement.move, Function.update_of_ne (Ne.symm (of_decide_eq_true hkeeps))]
    | renameTable old new =>
      simp only [View.keeps, Bool.and_eq_true, decide_eq_true_eq] at hkeeps
      simp only [View.Same, Statement.move, if_neg (Ne.symm hkeeps.1), if_neg (Ne.symm hkeeps.2)]
    | alterTable other change =>
      by_cases heq : other = table
      · subst heq
        refine View.same_map (Function.update_self ..) fun r _ => ?_
        cases change with
        | addColumn column =>
          simp only [View.keeps, ne_eq, not_true_eq_false, decide_false, Bool.false_or, decide_eq_true_eq] at hkeeps
          exact View.of_update hkeeps r _
        | _ => rfl
      · rw [View.Same, Statement.move, Function.update_of_ne (Ne.symm heq)]
    | renameLabel type old new =>
      simp only [View.keeps, Bool.and_eq_true, List.all_eq_true, Bool.or_eq_true, Bool.not_eq_true', decide_eq_true_eq]
        at hkeeps
      refine View.same_map rfl fun r _ => ?_
      unfold View.of
      congr 1
      · exact List.map_congr_left fun n hn => if_neg (by simp [hkeeps.1 n hn])
      · refine List.map_congr_left fun a ha => decide_eq_decide.mpr ?_
        dsimp only
        rcases hkeeps.2 a ha with hother | ⟨hold, hnew⟩
        · rw [if_neg (by simp [hother])]
        · split_ifs
          · exact relabel_eq_text hold hnew
          · rfl
    | update other set condition =>
      by_cases heq : other = table
      · subst heq
        simp only [View.keeps, ne_eq, not_true_eq_false, decide_false, Bool.false_or, List.all_eq_true,
          decide_eq_true_eq] at hkeeps
        exact View.same_map (Function.update_self ..) fun r _ => View.of_assign_if hkeeps r _
      · rw [View.Same, Statement.move, Function.update_of_ne (Ne.symm heq)]
    | _ => rfl

def View.keepsAll (views : List (N × View N)) (schema : Schema N) (statement : Statement N) : Bool :=
  views.all fun a => a.2.keeps a.1 schema statement

theorem View.keeping_all (views : List (N × View N)) :
    Keeping (View.keepsAll views) fun rows rows' => ∀ a ∈ views, a.2.Same a.1 rows rows' where
  refl rows a _ := (View.keeping a.1 a.2).refl rows
  trans h h' a ha := (View.keeping a.1 a.2).trans (h a ha) (h' a ha)
  move hkeeps a ha := (View.keeping a.1 a.2).move (List.all_eq_true.mp hkeeps a ha)

end Views

section Histories

def Instance.empty : Instance N where
  schema := {}
  rows _ := []
  admissible := by
    refine ⟨⟨List.nodup_nil, List.nodup_nil, List.nodup_nil, ?_⟩, ?_⟩
    · exact fun _ h => nomatch h
    · exact fun _ h => nomatch h

/-- How many migrations have been executed; they are executed in their order and reverted from the last. -/
structure Migrated (N : Type) [DecidableEq N] where
  executed : ℕ
  db : Instance N

variable (migrations : List (Migration N))

/-- Where the first `n` migrations are there, those that are pending are executed, all or none. -/
def migrate (n : ℕ) (s : Migrated N) : Except MigrationError (Migrated N) :=
  (((migrations.take n).drop s.executed).foldlM (fun db migration => runSteps db migration.up) s.db).map
    fun db => ⟨n, db⟩

def revert (s : Migrated N) : Except MigrationError (Migrated N) :=
  match s.executed with
  | 0 => .ok s
  | k + 1 =>
    match migrations[k]? with
    | some migration => (runSteps s.db migration.down).map fun db => ⟨k, db⟩
    | none => .ok s

/-- Between the migrations anything may be written that the constraints allow. -/
inductive Migrated.Step : Migrated N → Migrated N → Prop
  | migrate {s t : Migrated N} (n : ℕ) (hle : s.executed ≤ n) (hlen : n ≤ migrations.length)
      (h : migrate migrations n s = .ok t) : Step s t
  | revert {s t : Migrated N} (h : revert migrations s = .ok t) : Step s t
  | write {s : Migrated N} (db : Instance N) (h : db.schema = s.db.schema) : Step s ⟨s.executed, db⟩

def Migrated.Reachable : Migrated N → Prop := Relation.ReflTransGen (Migrated.Step migrations) ⟨0, .empty⟩

/-- Each migration leads from the schemas before it to those after it, and back if it is reverted at all. -/
structure Lineage (schemas : ℕ → List (Schema N)) (R : Instance N → Instance N → Prop) : Prop where
  refl : ∀ db, R db db
  trans : ∀ {db db' db''}, R db db' → R db' db'' → R db db''
  start : {} ∈ schemas 0
  up : ∀ {k migration db}, migrations[k]? = some migration → db.schema ∈ schemas k →
    ∃ db', runSteps db migration.up = .ok db' ∧ db'.schema ∈ schemas (k + 1) ∧ R db db'
  down : ∀ {k migration db db'}, migrations[k]? = some migration → db.schema ∈ schemas (k + 1) →
    runSteps db migration.down = .ok db' → db'.schema ∈ schemas k

variable {migrations} {schemas : ℕ → List (Schema N)} {R : Instance N → Instance N → Prop} {s t : Migrated N}

theorem map_eq_ok {α β : Type} {f : α → β} {x : Except MigrationError α} {b : β} :
    x.map f = .ok b ↔ ∃ a, x = .ok a ∧ f a = b := by
  cases x with
  | error e => simp [Except.map]
  | ok a => simp [Except.map]

theorem Lineage.migrate_ok (hl : Lineage migrations schemas R) (hs : s.db.schema ∈ schemas s.executed) {n : ℕ}
    (hle : s.executed ≤ n) (hlen : n ≤ migrations.length) :
    ∃ t, migrate migrations n s = .ok t ∧ t.executed = n ∧ t.db.schema ∈ schemas n ∧ R s.db t.db := by
  induction hle with
  | refl =>
    refine ⟨s, ?_, rfl, hs, hl.refl _⟩
    rw [migrate, List.drop_eq_nil_of_le (List.length_take_le ..)]
    rfl
  | @step n hle ih =>
    obtain ⟨t, ht, -, hschema, hR⟩ := ih (Nat.le_of_succ_le hlen)
    obtain ⟨db, hdb, rfl⟩ := map_eq_ok.mp ht
    have hget : migrations[n]? = some migrations[n] := List.getElem?_eq_getElem hlen
    obtain ⟨db', hrun, hdb', hR'⟩ := hl.up hget hschema
    refine ⟨⟨n + 1, db'⟩, map_eq_ok.mpr ⟨db', ?_, rfl⟩, rfl, hdb', hl.trans hR hR'⟩
    have hlength : (migrations.take n).length = n := List.length_take_of_le (Nat.le_of_succ_le hlen)
    rw [List.take_add_one, hget, List.drop_append_of_le_length (hlength.symm ▸ hle), List.foldlM_append, hdb]
    change (runSteps db migrations[n].up).bind pure = .ok db'
    rw [hrun]
    rfl

theorem Lineage.step (hl : Lineage migrations schemas R) (hlen : s.executed ≤ migrations.length)
    (hs : s.db.schema ∈ schemas s.executed) (h : Migrated.Step migrations s t) :
    t.executed ≤ migrations.length ∧ t.db.schema ∈ schemas t.executed := by
  cases h with
  | migrate n hle hlen h =>
    obtain ⟨u, hu, rfl, hschema, -⟩ := hl.migrate_ok hs hle hlen
    cases hu.symm.trans h
    exact ⟨hlen, hschema⟩
  | revert h =>
    unfold revert at h
    split at h
    · cases h
      exact ⟨hlen, hs⟩
    · rename_i k hk
      split at h
      · rename_i migration hmigration
        obtain ⟨db, hrun, rfl⟩ := map_eq_ok.mp h
        rw [hk] at hlen hs
        exact ⟨Nat.le_of_succ_le hlen, hl.down hmigration hs hrun⟩
      · cases h
        exact ⟨hlen, hs⟩
  | write db h => exact ⟨hlen, h ▸ hs⟩

theorem Lineage.reachable (hl : Lineage migrations schemas R) (h : Migrated.Reachable migrations s) :
    s.executed ≤ migrations.length ∧ s.db.schema ∈ schemas s.executed := by
  induction h with
  | refl => exact ⟨Nat.zero_le _, hl.start⟩
  | tail _ hstep ih => exact hl.step ih.1 ih.2 hstep

end Histories

end SkillBridge.Relational
