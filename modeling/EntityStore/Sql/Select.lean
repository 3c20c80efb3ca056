import EntityStore.Sql.Expr

/-!
# Select statements

Tables under aliases, joined in order; the columns of a result row; a predicate, an order and a
page. A column entry that is not projected serves the predicate only and has no place in the row.
-/

namespace EntityStore

structure TableRef where
  table : String
  label : String
  source : SourceId
deriving DecidableEq, Inhabited

structure ColumnEntry where
  expr : SqlExpr
  label : Option String
  projected : Bool
  source : Option SourceId
deriving DecidableEq

structure TableJoin where
  table : TableRef
  condition : SqlExpr
deriving DecidableEq

structure SqlOrder where
  expr : SqlExpr
  direction : Direction
deriving DecidableEq

structure Select where
  source : TableRef
  joins : List TableJoin
  columns : List ColumnEntry
  predicate : Option SqlExpr
  orderBy : List SqlOrder
  limit : Option UInt64
  offset : Option UInt64
deriving DecidableEq

namespace Select

def ofTable (t : TableRef) : Select :=
  { source := t, joins := [], columns := [], predicate := none, orderBy := []
    limit := none, offset := none }

def tables (s : Select) : List TableRef := s.source :: s.joins.map (·.table)

def tableFor? (s : Select) (source : SourceId) : Option TableRef :=
  s.tables.find? (·.source == source)

def projection (s : Select) : List ColumnEntry := s.columns.filter (·.projected)

def width (s : Select) : Nat := s.projection.length

/-- The place of an expression in the result row. An entry that is projected already is used
again; one that only serves the predicate is moved to the end and projected. -/
def project (s : Select) (e : SqlExpr) (source : Option SourceId) : Nat × Select :=
  let entry : ColumnEntry := { expr := e, label := none, projected := true, source := source }
  match s.columns.findIdx? (·.expr.same e) with
  | none => (s.width, { s with columns := s.columns ++ [entry] })
  | some i =>
    if ((s.columns[i]?).map (·.projected)).getD false then
      (((s.columns.take i).filter (·.projected)).length, s)
    else (s.width, { s with columns := s.columns.eraseIdx i ++ [entry] })

def addFilterColumn (s : Select) (e : SqlExpr) (source : Option SourceId) : Select :=
  if s.columns.any (·.expr.same e) then s
  else { s with columns := s.columns ++
    [{ expr := e, label := none, projected := false, source := source }] }

def readsColumn (column : String) (source : SourceId) (c : ColumnEntry) : Bool :=
  c.source == some source && (match c.expr with
    | .column _ name => name == column
    | _ => false)

/-- The entry of a source that reads a column, if there is exactly one. -/
def findColumn? (s : Select) (source : SourceId) (column : String) : Option ColumnEntry :=
  match s.columns.filter (readsColumn column source) with
  | [c] => some c
  | _ => none

def addPredicate (s : Select) (e : SqlExpr) : Select :=
  let predicate := match s.predicate with
    | some present => SqlExpr.and present e
    | none => e
  { s with predicate := some predicate }

/-- Restricts a source, in the place of an earlier restriction of it. -/
def setDiscriminator (s : Select) (source : SourceId) (p : SqlExpr) : Select :=
  match s.predicate.bind (SqlExpr.replaceDiscriminator? source p) with
  | some predicate => { s with predicate := some predicate }
  | none => s.addPredicate (.discriminator source p)

def discriminator? (s : Select) (source : SourceId) : Option SqlExpr :=
  s.predicate.bind (SqlExpr.findDiscriminator? source)

end Select

end EntityStore
