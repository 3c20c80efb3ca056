import EntityStore.Sql.Reader
import EntityStore.Sql.Evaluation
import EntityStore.Result.Materializer

/-!
# Databases that run statements

Tables are created, written and read by statements. A statement either takes effect as a whole or
fails and leaves the database as it was. Required columns and keys are checked row by row,
references between tables at the end of the statement.
-/

namespace EntityStore.Engine

open EntityStore.Sql (Statement TableDefinition ColumnDefinition Reference Assignment Bound)

structure Table where
  definition : TableDefinition
  rows : List Record
deriving DecidableEq

structure Database where
  tables : OrderedMap String Table
deriving DecidableEq, Inhabited

def failure (message : String) : StoreError := .engine .other message

def unknownTable (name : String) : StoreError := failure ("no such table: " ++ name)

/-- The value that a placeholder stands for: the engine has no truth values and takes what is not a
number for null. -/
def bindValue : Value → Value
  | .bool b => .integer (Value.ofBool b)
  | .real r => if r.isNaN then .null else .real r
  | v => v

/-- A column of whole numbers keeps whole reals as integers, a column of reals keeps integers as
reals. -/
def storedAs (type : String) : Value → Value
  | .integer i => if type = "REAL" then .real (Binary64.ofInt i.toInt) else .integer i
  | .real r =>
    if type = "INTEGER" ∧ r.isWhole ∧ (Binary64.ofInt r.toInt64.toInt).numericEq r
    then .integer r.toInt64 else .real r
  | v => v

def numbered (parameters : List Value) : Parameters :=
  .ofList (parameters.zipIdx.map (fun (v, i) => (toString (i + 1), bindValue v)))

def field (r : Record) (column : String) : Value := (r.get? column).getD .null

def equal (v w : Value) : Bool := v.compare? w == some .eq

namespace Table

variable (t : Table)

def qualified (column : String) : String := t.definition.name ++ "." ++ column

/-- A row of the table with the given values; columns that are not given are null. -/
def record (values : List (String × Value)) : Record :=
  .ofList (t.definition.columns.map (fun c =>
    (c.name, storedAs c.type ((OrderedMap.lookup c.name values).getD .null))))

/-- A row with some values replaced; of two values for a column the last counts. -/
def change (values : List (String × Value)) (r : Record) : Record :=
  t.record (values.reverse ++ r.entries)

def checkRequired (r : Record) : Except StoreError Unit :=
  match t.definition.columns.find? (fun c => c.notNull && (field r c.name).isNull) with
  | some c => .error (failure ("NOT NULL constraint failed: " ++ t.qualified c.name))
  | none => .ok ()

def keyOf (r : Record) : List Value := t.definition.key.map (field r)

/-- Keys that contain null are different from every key. -/
def sameKey (r r' : Record) : Bool :=
  ((t.keyOf r).zip (t.keyOf r')).all (fun (v, w) => equal v w)

def checkKey (others : List Record) (r : Record) : Except StoreError Unit :=
  if others.any (t.sameKey r) then
    .error (failure ("UNIQUE constraint failed: " ++
      Sql.commaSeparated (t.definition.key.map t.qualified)))
  else .ok ()

def check (others : List Record) (r : Record) : Except StoreError Unit := do
  t.checkRequired r
  t.checkKey others r

def insert (values : List (String × Value)) : Except StoreError Table := do
  let r := t.record values
  t.check t.rows r
  return { t with rows := t.rows ++ [r] }

def satisfies (parameters : Parameters) (conditions : List Assignment) (r : Record) :
    Except StoreError Bool :=
  conditions.allM (fun (column, e) =>
    SqlExpr.holds parameters [("", r)] (.equals (.column "" column) e))

def assigned (parameters : Parameters) (assignments : List Assignment) (r : Record) :
    Except StoreError (List (String × Value)) :=
  assignments.mapM (fun (column, e) => do
    let v ← e.eval parameters [("", r)]
    return (column, v))

/-- Changes the rows that match, one after the other; gives their number and all rows. The rows
that are done are passed along. -/
def updateRows (parameters : Parameters) (assignments conditions : List Assignment) :
    List Record → List Record → Except StoreError (Nat × List Record)
  | done, [] => .ok (0, done)
  | done, r :: rest => do
    let isMatch ← satisfies parameters conditions r
    if isMatch then
      let values ← assigned parameters assignments r
      let r := t.change values r
      t.check (done ++ rest) r
      let (count, rows) ← updateRows parameters assignments conditions (done ++ [r]) rest
      return (count + 1, rows)
    else updateRows parameters assignments conditions (done ++ [r]) rest

def update (parameters : Parameters) (assignments conditions : List Assignment) :
    Except StoreError (Nat × Table) := do
  let (count, rows) ← t.updateRows parameters assignments conditions [] t.rows
  return (count, { t with rows := rows })

def delete (parameters : Parameters) (conditions : List Assignment) :
    Except StoreError (Nat × Table) := do
  let kept ← t.rows.filterM (fun r => do
    let isMatch ← satisfies parameters conditions r
    return !isMatch)
  return (t.rows.length - kept.length, { t with rows := kept })

end Table

namespace Database

def empty : Database := ⟨.empty⟩

def hasTables (db : Database) : Bool := db.tables.size != 0

def table (db : Database) (name : String) : Except StoreError Table :=
  match db.tables.get? name with
  | some t => .ok t
  | none => .error (unknownTable name)

def rows (db : Database) (name : String) : List Record :=
  ((db.tables.get? name).map (·.rows)).getD []

def put (db : Database) (t : Table) : Database := ⟨db.tables.insert t.definition.name t⟩

/-- A reference holds if a part of it is null or a row with the referenced values exists. -/
def referenceHolds (db : Database) (ref : Reference) (r : Record) : Bool :=
  let values := ref.columns.map (field r)
  values.any Value.isNull ||
    (db.rows ref.table).any (fun target =>
      (values.zip (ref.target.map (field target))).all (fun (v, w) => equal v w))

def isConsistent (db : Database) : Bool :=
  db.tables.values.all (fun t =>
    t.definition.references.all (fun ref => t.rows.all (db.referenceHolds ref)))

def checkReferences (db : Database) : Except StoreError Unit :=
  if db.isConsistent then .ok () else .error (failure "FOREIGN KEY constraint failed")

/-- A limit of a result. One that is too large to be a number is refused. -/
def bound : Bound → Except StoreError (Option UInt64)
  | .none => .ok none
  | .count n => .ok (some (UInt64.ofNat n))
  | .tooLarge => .error (failure "datatype mismatch")

/-- The limit and the offset of a result; after a limit of zero the offset is not looked at. -/
def page (limit offset : Bound) : Except StoreError (Option UInt64 × Option UInt64) := do
  let limit ← bound limit
  if limit = some 0 then return (limit, none)
  let offset ← bound offset
  return (limit, offset)

def query (db : Database) (parameters : List Value) : Statement → Except StoreError (List Row)
  | .select s limit offset => do
    s.tables.forM (fun t => discard (db.table t.table))
    let (limit, offset) ← page limit offset
    Select.evaluate { s with limit := limit, offset := offset } (numbered parameters) db.rows
  | .values exprs => do
    let row ← exprs.mapM (fun e => e.eval (numbered parameters) [])
    return [row]
  | _ => .ok []

def execute (db : Database) (parameters : List Value) :
    Statement → Except StoreError (Nat × Database)
  | .createTable definition =>
    if db.tables.contains definition.name then .ok (0, db)
    else .ok (0, db.put { definition := definition, rows := [] })
  | .insert name columns exprs => do
    let t ← db.table name
    let values ← exprs.mapM (fun e => e.eval (numbered parameters) [])
    let t ← t.insert (columns.zip values)
    let db := db.put t
    db.checkReferences
    return (1, db)
  | .update name assignments conditions => do
    let t ← db.table name
    let (count, t) ← t.update (numbered parameters) assignments conditions
    let db := db.put t
    db.checkReferences
    return (count, db)
  | .delete name conditions => do
    let t ← db.table name
    let (count, t) ← t.delete (numbered parameters) conditions
    let db := db.put t
    db.checkReferences
    return (count, db)
  | .select _ _ _ | .values _ =>
    .error (failure "Execute returned results - did you mean to call query?")

end Database

end EntityStore.Engine
