import Mathlib.Logic.Function.Basic
import SkillBridge.Relational.Schema

set_option autoImplicit false

/-!
The statements of a migration, after PostgreSQL: each changes the schema and the rows at once, or is refused where
the outcome would violate a constraint.
-/

namespace SkillBridge.Relational

variable {N : Type} [DecidableEq N]

/-- `dropForeignKey` takes the first column of the key, and does nothing where there is no such key. -/
inductive Change (N : Type)
  | addColumn (column : Column N)
  | dropColumn (column : N)
  | setNotNull (column : N)
  | dropNotNull (column : N)
  | setDefault (column : N) (default : Default)
  | dropDefault (column : N)
  | setType (column : N) (type : ColumnType N)
  | addForeignKey (key : ForeignKey N)
  | dropForeignKey (column : N)
  | dropConstraint (name : N) (ifExists : Bool)

inductive Statement (N : Type)
  | createType (name : N) (labels : List String)
  | dropType (name : N) (ifExists : Bool)
  | renameLabel (type : N) (old new : String)
  | createTable (table : Table N) (ifNotExists : Bool)
  | dropTable (name : N)
  | renameTable (old new : N)
  | alterTable (table : N) (change : Change N)
  | createIndex (table : N) (index : Index N) (ifNotExists : Bool)
  | dropIndex (name : N) (ifExists : Bool)
  | update (table : N) (set : List (N × Value)) (condition : Row N → Bool)

/-- What the rows hold that are there when the column is added; the server computes nothing here. -/
def Column.fill (column : Column N) : Option Value :=
  match column.default with
  | none => some .null
  | some (.value v) => some v
  | some (.call _) => none

def Table.alterColumn (table : Table N) (n : N) (f : Column N → Column N) : Option (Table N) :=
  if n ∈ table.columnNames then
    some { table with columns := table.columns.map fun column => if column.name = n then f column else column }
  else none

namespace Change

def alter (table : Table N) : Change N → Option (Table N)
  | addColumn column => column.fill.map fun _ => { table with columns := table.columns ++ [column] }
  | dropColumn n =>
    if n ∈ table.columnNames then
      some { table with
        columns := table.columns.filter fun column => column.name ≠ n
        keys := table.keys.filter fun key => n ∉ key.columns
        indexes := table.indexes.filter fun index => n ∉ index.columns
        foreignKeys := table.foreignKeys.filter fun key => n ∉ key.columns }
    else none
  | setNotNull n => table.alterColumn n fun column => { column with isNullable := false }
  | dropNotNull n => table.alterColumn n fun column => { column with isNullable := true }
  | setDefault n default => table.alterColumn n fun column => { column with default }
  | dropDefault n => table.alterColumn n fun column => { column with default := none }
  | setType n type => table.alterColumn n fun column => { column with type }
  | addForeignKey key => some { table with foreignKeys := table.foreignKeys ++ [key] }
  | dropForeignKey n =>
    some { table with foreignKeys := table.foreignKeys.eraseP fun key => key.columns.head? = some n }
  | dropConstraint name ifExists =>
    if ifExists ∨ some name ∈ table.keys.map Key.name ∨ some name ∈ table.foreignKeys.map ForeignKey.name then
      some { table with
        keys := table.keys.filter fun key => key.name ≠ some name
        foreignKeys := table.foreignKeys.filter fun key => key.name ≠ some name }
    else none

def onRow (r : Row N) : Change N → Row N
  | addColumn column => Function.update r column.name (column.fill.getD .null)
  -- `USING "column"::type`: a label and its text are one value here
  | _ => r

end Change

def Schema.table? (schema : Schema N) (name : N) : Option (Table N) :=
  schema.tables.find? fun table => table.name = name

def Schema.alterTable (schema : Schema N) (name : N) (f : Table N → Option (Table N)) : Option (Schema N) :=
  ((schema.table? name).bind f).map fun table =>
    { schema with tables := schema.tables.map fun other => if other.name = name then table else other }

def Schema.renameTable (schema : Schema N) (old new : N) : Schema N :=
  let rename (name : N) : N := if name = old then new else name
  { schema with tables := schema.tables.map fun table =>
      { table with
        name := rename table.name
        foreignKeys := table.foreignKeys.map fun key =>
          { key with referencedTable := rename key.referencedTable } } }

def relabel (old new : String) (v : Value) : Value := if v = .text old then .text new else v

def Column.relabel (type : N) (old new : String) (column : Column N) : Column N :=
  if column.type = .enum type ∧ column.default = some (.value (.text old)) then
    { column with default := some (.value (.text new)) }
  else column

def Schema.renameLabel (schema : Schema N) (type : N) (old new : String) : Schema N where
  types := schema.types.map fun other => if other.name = type then
    { other with labels := other.labels.map fun label => if label = old then new else label } else other
  tables := schema.tables.map fun table => { table with columns := table.columns.map (Column.relabel type old new) }

def Schema.isOfType (schema : Schema N) (table column type : N) : Bool :=
  (schema.table? table).any fun table => table.columns.any fun other =>
    other.name = column && other.type = .enum type

def assign (r : Row N) (set : List (N × Value)) : Row N := set.foldl (fun r a => Function.update r a.1 a.2) r

namespace Statement

def alter (schema : Schema N) : Statement N → Option (Schema N)
  | createType name labels => some { schema with types := schema.types ++ [⟨name, labels⟩] }
  | dropType name ifExists =>
    if name ∈ schema.types.map EnumType.name then
      some { schema with types := schema.types.filter fun type => type.name ≠ name }
    else if ifExists then some schema else none
  | renameLabel type old new =>
    if schema.types.any fun other => other.name = type && other.labels.contains old && !other.labels.contains new then
      some (schema.renameLabel type old new)
    else none
  | createTable table ifNotExists =>
    if ifNotExists ∧ table.name ∈ schema.tableNames then some schema
    else some { schema with tables := schema.tables ++ [table] }
  | dropTable name =>
    if name ∈ schema.tableNames then
      some { schema with tables := schema.tables.filter fun table => table.name ≠ name }
    else none
  | renameTable old new => if old ∈ schema.tableNames then some (schema.renameTable old new) else none
  | alterTable table change => schema.alterTable table change.alter
  | createIndex table index ifNotExists =>
    if ifNotExists ∧ index.name ∈ schema.indexNames then some schema
    else schema.alterTable table fun table => some { table with indexes := table.indexes ++ [index] }
  | dropIndex name ifExists =>
    if name ∈ schema.indexNames then
      some { schema with tables := schema.tables.map fun table =>
        { table with indexes := table.indexes.filter fun index => index.name ≠ name } }
    else if ifExists then some schema else none
  | update table _ _ => if table ∈ schema.tableNames then some schema else none

def move (schema : Schema N) (rows : Rows N) : Statement N → Rows N
  | createTable table ifNotExists =>
    if ifNotExists ∧ table.name ∈ schema.tableNames then rows else Function.update rows table.name []
  | dropTable name => Function.update rows name []
  | renameTable old new => fun name => if name = new then rows old else if name = old then [] else rows name
  | alterTable table change => Function.update rows table ((rows table).map change.onRow)
  | update table set condition =>
    Function.update rows table ((rows table).map fun r => if condition r then assign r set else r)
  | renameLabel type old new => fun table => (rows table).map fun r n =>
    if schema.isOfType table n type then relabel old new (r n) else r n
  | _ => rows

def exec (db : Instance N) (statement : Statement N) : Option (Instance N) :=
  (statement.alter db.schema).bind fun schema =>
    if h : Admissible schema (statement.move db.schema db.rows) then some ⟨schema, _, h⟩ else none

end Statement

end SkillBridge.Relational
