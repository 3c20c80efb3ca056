import EntityStore.Entity
import EntityStore.Sql.Modification

/-!
# Commands

A command writes one row: an insert, an update or a delete. It is made of a pending entry, which is
refused if the schema does not allow it.
-/

namespace EntityStore

structure ColumnChange where
  property : String
  column : String
  value : Value
  isKey : Bool
  isWrite : Bool
deriving DecidableEq

structure Command where
  entityType : TypeId
  table : String
  state : EntryState
  key : EntityKey
  columns : List ColumnChange
deriving DecidableEq

namespace EntryState

def name : EntryState → String
  | .added => "added"
  | .modified => "modified"
  | .deleted => "deleted"

end EntryState

namespace Command

def refused (reason : String) : StoreError := .invalidArgument "entries" reason

def keyColumns (c : Command) : List ColumnChange := c.columns.filter (·.isKey)

def writeColumns (c : Command) : List ColumnChange := c.columns.filter (·.isWrite)

/-- Updates and deletes must find their row. -/
def needsRow (c : Command) : Bool :=
  match c.state with
  | .added => false
  | .modified | .deleted => true

def coerceFor (p : Property) (v : Value) : Except StoreError Value :=
  match v.coerce p.type with
  | .ok w => .ok w
  | .error e => .error (refused ("property '" ++ p.name ++ "': " ++ e.message))

def checkNullable (typeName : String) (p : Property) (v : Value) : Except StoreError Unit :=
  if v.isNull && !p.nullable then
    .error (refused ("required property '" ++ p.name ++ "' of '" ++ typeName ++ "' is NULL"))
  else .ok ()

def change (p : Property) (v : Value) (isKey isWrite : Bool) : Except StoreError ColumnChange := do
  let v ← coerceFor p v
  return { property := p.name, column := p.columnName, value := v, isKey := isKey
           isWrite := isWrite }

structure Context where
  type : EntityType
  entry : PendingEntry
  keyNames : List String
  discriminator : Option String

namespace Context

def isKey (c : Context) (p : Property) : Bool := c.keyNames.contains p.name

def keyValue (c : Context) (p : Property) : Value := (c.entry.identifying? p.name).getD .null

/-- The value that an insert writes for a property: the discriminator is filled in from the type,
anything else that is not given is null. -/
def insertedValue (c : Context) (p : Property) : Value :=
  match c.entry.current.get? p.name with
  | some v => v
  | none =>
    if c.discriminator = some p.name then c.type.discriminatorValue.getD .null else .null

def insertColumn (c : Context) (p : Property) : Except StoreError ColumnChange := do
  let v := c.insertedValue p
  checkNullable c.type.name p v
  change p v (c.isKey p) true

def checkKeyUnchanged (c : Context) (p : Property) : Except StoreError Unit :=
  match c.entry.current.get? p.name, c.entry.loaded.get? p.name with
  | some current, some loaded =>
    if current.same loaded then .ok ()
    else .error (refused ("key property '" ++ p.name ++ "' of a modified '" ++ c.type.name ++
      "' cannot change"))
  | _, _ => .ok ()

def isChanged (c : Context) (p : Property) (current : Value) : Bool :=
  match c.entry.loaded.get? p.name with
  | some loaded => !loaded.same current
  | none => true

/-- The column that an update touches for a property, if the entry has a value for it. -/
def updateColumn (c : Context) (p : Property) : Except StoreError (Option ColumnChange) := do
  if c.isKey p then
    c.checkKeyUnchanged p
    let column ← change p (c.keyValue p) true false
    return some column
  else
    match c.entry.current.get? p.name with
    | none => return none
    | some v =>
      checkNullable c.type.name p v
      let column ← change p v false (c.isChanged p v)
      return some column

/-- An update that changes nothing writes all it has, or the key itself, so that the row is still
looked for. -/
def writeSomething (columns : List ColumnChange) : List ColumnChange :=
  if columns.any (·.isWrite) then columns
  else if columns.any (fun c => !c.isKey) then
    columns.map (fun c => { c with isWrite := !c.isKey })
  else columns.map (fun c => { c with isWrite := true })

def columns (c : Context) (properties : List Property) : Except StoreError (List ColumnChange) :=
  match c.entry.state with
  | .added => properties.mapM c.insertColumn
  | .modified => do
    let columns ← properties.mapM c.updateColumn
    return writeSomething (columns.filterMap (fun c => c))
  | .deleted =>
    (properties.filter c.isKey).mapM (fun p => change p (c.keyValue p) true false)

end Context

def keyOf (s : Schema) (t : EntityType) (e : PendingEntry) : Except StoreError EntityKey :=
  match e.key s with
  | .error cause => .error (refused ("missing key value: " ++ cause.message))
  | .ok key =>
    if key.any Value.isNull then
      .error (refused ("key of '" ++ t.name ++ "' entity contains NULL"))
    else .ok key

def checkNames (t : EntityType) (properties : List Property) (names : List String) :
    Except StoreError Unit :=
  match names.find? (fun n => !properties.any (fun p => p.name == n)) with
  | some n => .error (refused ("'" ++ t.name ++ "' has no property '" ++ n ++ "'"))
  | none => .ok ()

def typeOf (s : Schema) (e : PendingEntry) : Except StoreError EntityType :=
  match s.entityType e.entityType with
  | .error cause => .error (refused cause.message)
  | .ok t =>
    if t.isAbstract then
      .error (refused ("cannot save an instance of abstract type '" ++ t.name ++ "'"))
    else .ok t

def ofEntry (s : Schema) (e : PendingEntry) : Except StoreError Command := do
  let t ← typeOf s e
  let key ← keyOf s t e
  let properties ← s.properties t.id
  let keyProperties ← s.keyProperties t.id
  let discriminator ← s.discriminator? t.id
  checkNames t properties e.current.keys
  let context : Context :=
    { type := t, entry := e, keyNames := keyProperties.map (·.name)
      discriminator := discriminator.map (·.name) }
  let columns ← context.columns properties
  let table ← s.tableName t.id
  return { entityType := t.id, table := table, state := e.state, key := key, columns := columns }

def sql (c : Command) : String × List Value :=
  let names (columns : List ColumnChange) := columns.map (·.column)
  let values (columns : List ColumnChange) := columns.map (·.value)
  match c.state with
  | .added => (Sql.insert c.table (names c.writeColumns), values c.writeColumns)
  | .modified =>
    (Sql.update c.table (names c.writeColumns) (names c.keyColumns),
      values c.writeColumns ++ values c.keyColumns)
  | .deleted => (Sql.delete c.table (names c.keyColumns), values c.keyColumns)

end Command

end EntityStore
