import EntityStore.Sql.Render
import EntityStore.Entity

/-!
# Table definitions

The statement that creates the table of a hierarchy. Columns of derived types are nullable, since
the other types of the hierarchy share the row. A foreign key becomes a constraint if it refers to
the key of its principal.
-/

namespace EntityStore.Schema

def columnDefinition (rootColumns : List String) (p : Property) : String :=
  Sql.identifier p.columnName ++ " " ++ p.type.columnType ++
    (if !p.nullable && rootColumns.contains p.columnName then " NOT NULL" else "")

def identifierList (names : List String) : String :=
  Sql.commaSeparated (names.map Sql.identifier)

def columnsOf (s : Schema) (id : TypeId) (names : List String) :
    Except SchemaError (List String) :=
  names.mapM (fun name => do
    let p ← s.property id name
    return p.columnName)

/-- The constraint for a foreign key, if it belongs to the table of a root and refers to a key. -/
def foreignKeyConstraint? (s : Schema) (root : EntityType) (fk : ForeignKey) :
    Except SchemaError (Option String) := do
  let dependentRoot ← s.root fk.dependent
  if dependentRoot.id ≠ root.id then return none
  let principalKey ← s.keyProperties fk.principal
  if principalKey.map (·.name) ≠ fk.principalProperties then return none
  let dependentColumns ← s.columnsOf fk.dependent fk.dependentProperties
  let principalColumns ← s.columnsOf fk.principal fk.principalProperties
  let table ← s.tableName fk.principal
  return some ("FOREIGN KEY (" ++ identifierList dependentColumns ++ ") REFERENCES " ++
    Sql.identifier table ++ " (" ++ identifierList principalColumns ++ ")")

def createTable (s : Schema) (id : TypeId) : Except SchemaError String := do
  let root ← s.root id
  let columns ← s.tableColumns id
  let rootColumns := root.properties.map (·.columnName)
  let key ← s.keyProperties id
  let constraints ← s.foreignKeys.mapM (s.foreignKeyConstraint? root)
  let table ← s.tableName id
  let definitions := columns.map (columnDefinition rootColumns) ++
    ["PRIMARY KEY (" ++ identifierList (key.map (·.columnName)) ++ ")"] ++
    constraints.filterMap (fun c => c)
  return "CREATE TABLE IF NOT EXISTS " ++ Sql.identifier table ++ " (" ++
    Sql.commaSeparated definitions ++ ")"

end EntityStore.Schema
