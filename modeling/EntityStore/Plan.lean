import EntityStore.Result.Shaper

/-!
# From queries to select statements

The plan of a query is a select statement over the tables of its sources, each under the alias `t`
with the number of the source, and the shape that makes results of its rows. Every source is
restricted to the rows of its entity type, whether it is selected as an entity or not.
-/

namespace EntityStore

def SourceId.tableLabel (id : SourceId) : String := "t" ++ id.text

structure Plan where
  select : Select
  shape : ResultShape
deriving DecidableEq

namespace Plan

/-- The entity types of the declared sources. -/
abbrev Scope := List (SourceId × TypeId)

/-- Every entity type must be known and every source declared once. -/
def scopeOf (s : Schema) : Scope → List QuerySource → Except StoreError Scope
  | scope, [] => .ok scope
  | scope, source :: rest => do
    discard (s.entityType source.entityType)
    if (OrderedMap.lookup source.id scope).isSome then
      throw (.queryRejected ("query source " ++ source.id.text ++ " is declared twice"))
    scopeOf s (scope ++ [(source.id, source.entityType)]) rest

def typeOf (scope : Scope) (source : SourceId) : Except StoreError TypeId :=
  match OrderedMap.lookup source scope with
  | some id => .ok id
  | none => .error (.schema (.querySourceNotFound source))

def tableRef (s : Schema) (scope : Scope) (source : SourceId) : Except StoreError TableRef := do
  let id ← typeOf scope source
  let table ← s.tableName id
  return { table := table, label := source.tableLabel, source := source }

def columnExpr (source : SourceId) (p : Property) : SqlExpr :=
  .column source.tableLabel p.columnName

def expr (s : Schema) (scope : Scope) : Expr → Except StoreError SqlExpr
  | .property source name => do
    let id ← typeOf scope source
    let p ← s.property id name
    return columnExpr source p
  | .constant v => return .literal v
  | .parameter name => return .parameter name
  | .compare op l r => do
    let l ← expr s scope l
    let r ← expr s scope r
    return .compare op l r
  | .and l r => do
    let l ← expr s scope l
    let r ← expr s scope r
    return .and l r
  | .or l r => do
    let l ← expr s scope l
    let r ← expr s scope r
    return .or l r
  | .not e => do
    let e ← expr s scope e
    return .not e
  | .isNull e => do
    let e ← expr s scope e
    return .isNull e

def join (s : Schema) (scope : Scope) (j : Join) : Except StoreError TableJoin := do
  let id ← typeOf scope j.source.id
  let inner ← s.property id j.innerKey
  let table ← tableRef s scope j.source.id
  let outer ← expr s scope j.outerKey
  return { table := table, condition := .equals outer (columnExpr j.source.id inner) }

def orderTerm (s : Schema) (scope : Scope) (t : OrderTerm) : Except StoreError SqlOrder := do
  let e ← expr s scope t.expr
  return { expr := e, direction := t.direction }

def skeleton (s : Schema) (scope : Scope) (q : QueryShape) : Except StoreError Select := do
  let source ← tableRef s scope q.source.id
  let joins ← q.joins.mapM (join s scope)
  let predicate ← q.filter.mapM (expr s scope)
  let orderBy ← q.orderBy.mapM (orderTerm s scope)
  return { Select.ofTable source with
    joins := joins, predicate := predicate, orderBy := orderBy, limit := q.take
    offset := q.skip }

def projectProperty (source : SourceId) : Materializer.ColumnAdder := fun select p =>
  select.project (columnExpr source p) (some source)

def materializers (s : Schema) (scope : Scope) :
    Select → List SourceId → Except StoreError (List Materializer × Select)
  | select, [] => .ok ([], select)
  | select, source :: rest => do
    let id ← typeOf scope source
    match Materializer.build s id (projectProperty source) source select with
    | (.error e, _) => throw e
    | (.ok m, select) =>
      let (ms, select) ← materializers s scope select rest
      return (m :: ms, select)

def valueColumns (s : Schema) (scope : Scope) :
    Select → List Expr → Except StoreError (List ValueColumn × Select)
  | select, [] => .ok ([], select)
  | select, .property source name :: rest => do
    let id ← typeOf scope source
    let p ← s.property id name
    let (index, select) := projectProperty source select p
    let (columns, select) ← valueColumns s scope select rest
    return ({ index := index, type := p.type } :: columns, select)
  | _, _ :: _ =>
    .error (.queryRejected "only property references can be selected as values")

def materializedSources : Selector → List SourceId
  | .entity source => [source]
  | .entities sources => sources
  | .properties _ => []

def project (s : Schema) (scope : Scope) (select : Select) :
    Selector → Except StoreError (ResultShape × Select)
  | .entity source => do
    let id ← typeOf scope source
    match Materializer.build s id (projectProperty source) source select with
    | (.error e, _) => throw e
    | (.ok m, select) => return (.entity m, select)
  | .entities sources => do
    let (ms, select) ← materializers s scope select sources
    return (.entities ms, select)
  | .properties exprs => do
    let (columns, select) ← valueColumns s scope select exprs
    return (.values columns, select)

def restrictSources (s : Schema) (materialized : List SourceId) :
    Select → List QuerySource → Except StoreError Select
  | select, [] => .ok select
  | select, source :: rest =>
    if materialized.contains source.id then restrictSources s materialized select rest
    else
      match Materializer.restrict s source.entityType (columnExpr source.id) source.id select with
      | (.error e, _) => .error e
      | (.ok (), select) => restrictSources s materialized select rest

def ofQuery (s : Schema) (q : Query) : Except StoreError Plan := do
  let scope ← scopeOf s [] q.sources
  let select ← skeleton s scope q.shape
  let (shape, select) ← project s scope select q.shape.selector
  let select ← restrictSources s (materializedSources q.shape.selector) select q.sources
  return { select := select, shape := shape }

end Plan

end EntityStore
