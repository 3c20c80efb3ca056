import EntityStore.Sql.Render
import EntityStore.Query.Document
import EntityStore.Value.Tagged

/-!
# Documents of statements

The JSON form of column expressions and select statements, for inspection.
-/

namespace EntityStore

namespace SqlExpr

def toJson : SqlExpr → Json
  | .column t c => .obj [("col", .arr [.str t, .str c])]
  | .literal v => .obj [("lit", v.toTagged)]
  | .parameter p => .obj [("param", .str p)]
  | .compare op l r => .obj [("cmp", .arr [.str op.tag, l.toJson, r.toJson])]
  | .and l r => .obj [("and", .arr [l.toJson, r.toJson])]
  | .or l r => .obj [("or", .arr [l.toJson, r.toJson])]
  | .not e => .obj [("not", e.toJson)]
  | .isNull e => .obj [("isnull", e.toJson)]
  | .discriminator s e => .obj [("disc", .arr [s.toJson, e.toJson])]

def ofJsonWith : Nat → Json → Option SqlExpr
  | 0, _ => none
  | height + 1, j =>
    let read := ofJsonWith height
    match j with
    | .obj [("col", .arr [.str t, .str c])] => some (.column t c)
    | .obj [("lit", v)] => (Value.ofTagged? v).map .literal
    | .obj [("param", .str p)] => some (.parameter p)
    | .obj [("cmp", .arr [.str op, l, r])] => do
      return .compare (← CompareOp.ofTag? op) (← read l) (← read r)
    | .obj [("and", .arr [l, r])] => do return .and (← read l) (← read r)
    | .obj [("or", .arr [l, r])] => do return .or (← read l) (← read r)
    | .obj [("not", e)] => (read e).map .not
    | .obj [("isnull", e)] => (read e).map .isNull
    | .obj [("disc", .arr [s, e])] => do
      return .discriminator (← SourceId.ofJson? s) (← read e)
    | _ => none

def ofJson? (j : Json) : Option SqlExpr := ofJsonWith (j.depth + 1) j

end SqlExpr

namespace TableRef

def toJson (t : TableRef) : Json := .arr [.str t.table, .str t.label, t.source.toJson]

def ofJson? : Json → Option TableRef
  | .arr [.str table, .str label, source] =>
    (SourceId.ofJson? source).map (fun id => { table := table, label := label, source := id })
  | _ => none

end TableRef

def ColumnEntry.toJson (c : ColumnEntry) : Json :=
  .arr [c.expr.toJson, Json.ofOption .str c.label, .bool c.projected,
    Json.ofOption SourceId.toJson c.source]

def Select.fields (s : Select) : List (String × Json) :=
  [("sql", .str s.render.text), ("parameters", .arr (s.render.parameterNames.map .str)),
    ("columns", .arr (s.columns.map ColumnEntry.toJson)), ("projection_len", .int s.width),
    ("tables", .arr (s.tables.map TableRef.toJson)),
    ("predicate", Json.ofOption SqlExpr.toJson s.predicate)]

end EntityStore
