import Mathlib.Data.List.Nodup
import Mathlib.Tactic.MkIffOfInductiveProp

set_option autoImplicit false

/-! Tables with typed columns, keys and references, over any type `N` of identifiers. -/

namespace SkillBridge.Relational

inductive Value
  | null
  | uuid (n : ℕ)
  | text (s : String)
  | boolean (b : Bool)
  | timestamp (ms : ℕ)
  deriving DecidableEq

inductive Default
  | value (v : Value)
  | call (function : String)
  deriving DecidableEq

variable (N : Type)

inductive ColumnType
  | uuid
  | varchar (length : ℕ)
  | text
  | boolean
  | timestamptz
  | enum (name : N)
  deriving DecidableEq

structure Column where
  name : N
  type : ColumnType N
  isNullable : Bool := false
  default : Option Default := none
  deriving DecidableEq

structure Key where
  name : Option N := none
  columns : List N
  deriving DecidableEq

structure Index where
  name : N
  columns : List N
  isUnique : Bool := false
  deriving DecidableEq

structure ForeignKey where
  name : Option N := none
  columns : List N
  referencedTable : N
  referencedColumns : List N
  cascades : Bool := false
  deriving DecidableEq

structure Table where
  name : N
  columns : List (Column N)
  keys : List (Key N)
  indexes : List (Index N) := []
  foreignKeys : List (ForeignKey N) := []
  deriving DecidableEq

structure EnumType where
  name : N
  labels : List String
  deriving DecidableEq

structure Schema where
  types : List (EnumType N) := []
  tables : List (Table N) := []
  deriving DecidableEq

abbrev Row : Type := N → Value

abbrev Rows : Type := N → List (Row N)

variable {N} [DecidableEq N]

def ColumnType.admits (types : List (EnumType N)) : ColumnType N → Value → Bool
  | uuid, .uuid _ | text, .text _ | boolean, .boolean _ | timestamptz, .timestamp _ => true
  | varchar length, .text s => s.length ≤ length
  | enum name, .text s => types.any fun type => type.name = name && type.labels.contains s
  | _, _ => false

def Column.admits (types : List (EnumType N)) (column : Column N) (v : Value) : Bool :=
  if v = .null then column.isNullable else column.type.admits types v

def Table.columnNames (table : Table N) : List N := table.columns.map Column.name

def Table.uniques (table : Table N) : List (List N) :=
  table.keys.map Key.columns ++ (table.indexes.filter Index.isUnique).map Index.columns

/-- Rows with a null are apart from all others. -/
def Apart (columns : List N) (r s : Row N) : Prop := ∃ n ∈ columns, r n = .null ∨ r n ≠ s n

theorem Apart.mono {N : Type} {columns columns' : List N} {r s : Row N} (h : columns ⊆ columns')
    (hapart : Apart columns r s) : Apart columns' r s := by
  obtain ⟨n, hn, hrs⟩ := hapart
  exact ⟨n, h hn, hrs⟩

def ForeignKey.Holds (rows : Rows N) (key : ForeignKey N) (r : Row N) : Prop :=
  (∃ n ∈ key.columns, r n = .null) ∨
    ∃ s ∈ rows key.referencedTable, key.columns.map r = key.referencedColumns.map s

@[mk_iff] structure Table.Fits (types : List (EnumType N)) (rows : Rows N) (table : Table N) : Prop where
  typed : ∀ r ∈ rows table.name, ∀ column ∈ table.columns, column.admits types (r column.name) = true
  apart : ∀ columns ∈ table.uniques, (rows table.name).Pairwise (Apart columns)
  holds : ∀ key ∈ table.foreignKeys, ∀ r ∈ rows table.name, key.Holds rows r

def ColumnType.known (types : List (EnumType N)) : ColumnType N → Bool
  | enum name => (types.map EnumType.name).contains name
  | _ => true

@[mk_iff] structure Table.Coherent (schema : Schema N) (table : Table N) : Prop where
  columns : table.columnNames.Nodup
  types : ∀ column ∈ table.columns, column.type.known schema.types = true
  uniques : ∀ columns ∈ table.uniques, ∀ n ∈ columns, n ∈ table.columnNames
  references : ∀ key ∈ table.foreignKeys, (∀ n ∈ key.columns, n ∈ table.columnNames) ∧
    ∃ other ∈ schema.tables, other.name = key.referencedTable ∧
      ∀ n ∈ key.referencedColumns, n ∈ other.columnNames

def Schema.tableNames (schema : Schema N) : List N := schema.tables.map Table.name

def Schema.indexNames (schema : Schema N) : List N :=
  schema.tables.flatMap fun table => table.indexes.map Index.name

@[mk_iff] structure Schema.Coherent (schema : Schema N) : Prop where
  types : (schema.types.map EnumType.name).Nodup
  names : schema.tableNames.Nodup
  indexes : schema.indexNames.Nodup
  tables : ∀ table ∈ schema.tables, table.Coherent schema

@[mk_iff] structure Admissible (schema : Schema N) (rows : Rows N) : Prop where
  coherent : schema.Coherent
  fits : ∀ table ∈ schema.tables, table.Fits schema.types rows

/-- A database in which no constraint of its schema is violated. -/
structure Instance (N : Type) [DecidableEq N] where
  schema : Schema N
  rows : Rows N
  admissible : Admissible schema rows

section Decidability

variable (types : List (EnumType N)) (schema : Schema N) (rows : Rows N) (table : Table N)

instance (columns : List N) : DecidableRel (Apart columns) := fun r s =>
  inferInstanceAs (Decidable (∃ n ∈ columns, r n = .null ∨ r n ≠ s n))

instance (key : ForeignKey N) (r : Row N) : Decidable (key.Holds rows r) := inferInstanceAs (Decidable (_ ∨ _))

instance : Decidable (table.Fits types rows) := decidable_of_iff' _ (Table.fits_iff types rows table)

instance : Decidable (table.Coherent schema) := decidable_of_iff' _ (Table.coherent_iff schema table)

instance : Decidable schema.Coherent := decidable_of_iff' _ (Schema.coherent_iff schema)

instance : Decidable (Admissible schema rows) := decidable_of_iff' _ (admissible_iff schema rows)

end Decidability

end SkillBridge.Relational
