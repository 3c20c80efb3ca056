import EntityStore.Query.Basic
import EntityStore.Json.Parser
import EntityStore.Json.Printer

/-!
# Query documents

The JSON form of queries.
-/

namespace EntityStore

def TypeId.ofJson? (j : Json) : Option TypeId := j.uint32?.map TypeId.mk

def TypeId.toJson (id : TypeId) : Json := .int id.toNat

def SourceId.ofJson? (j : Json) : Option SourceId := j.uint32?.map SourceId.mk

def SourceId.toJson (id : SourceId) : Json := .int id.toNat

namespace QuerySource

def ofJson? (j : Json) : Option QuerySource := do
  match ← j.record? ["id", "entity_type"] with
  | [id, entityType] =>
    return {
      id := ← Json.required SourceId.ofJson? id
      entityType := ← Json.required TypeId.ofJson? entityType }
  | _ => none

def toJson (s : QuerySource) : Json :=
  .obj [("id", s.id.toJson), ("entity_type", s.entityType.toJson)]

end QuerySource

namespace CompareOp

def all : List CompareOp := [.eq, .ne, .lt, .le, .gt, .ge]

def tag : CompareOp → String
  | .eq => "Eq"
  | .ne => "Ne"
  | .lt => "Lt"
  | .le => "Le"
  | .gt => "Gt"
  | .ge => "Ge"

def ofTag? (s : String) : Option CompareOp := all.find? (·.tag == s)

def ofJson? (j : Json) : Option CompareOp := do
  let (name, content) ← j.variant?
  Json.unit? content
  ofTag? name

end CompareOp

namespace Direction

def tag : Direction → String
  | .ascending => "Ascending"
  | .descending => "Descending"

def ofTag? (s : String) : Option Direction :=
  [Direction.ascending, .descending].find? (·.tag == s)

def ofJson? (j : Json) : Option Direction := do
  let (name, content) ← j.variant?
  Json.unit? content
  ofTag? name

end Direction

namespace Expr

def toJson : Expr → Json
  | .property source name =>
    .obj [("Property", .obj [("source", source.toJson), ("property", .str name)])]
  | .constant v => .obj [("Constant", v.toJson)]
  | .parameter name => .obj [("Parameter", .str name)]
  | .compare op left right =>
    .obj [("Compare",
      .obj [("op", .str op.tag), ("left", left.toJson), ("right", right.toJson)])]
  | .and left right => .obj [("And", .arr [left.toJson, right.toJson])]
  | .or left right => .obj [("Or", .arr [left.toJson, right.toJson])]
  | .not inner => .obj [("Not", inner.toJson)]
  | .isNull inner => .obj [("IsNull", inner.toJson)]

/-- Reads an expression; the first argument bounds its height. -/
def ofJsonWith : Nat → Json → Option Expr
  | 0, _ => none
  | depth + 1, .obj [(tag, content)] =>
    match tag with
    | "Property" => do
      match ← content.record? ["source", "property"] with
      | [source, name] =>
        return .property (← Json.required SourceId.ofJson? source)
          (← Json.required Json.str? name)
      | _ => none
    | "Constant" => (Value.ofJson? content).map .constant
    | "Parameter" => content.str?.map .parameter
    | "Compare" => do
      match ← content.record? ["op", "left", "right"] with
      | [op, left, right] =>
        return .compare (← Json.required CompareOp.ofJson? op)
          (← Json.required (ofJsonWith depth) left)
          (← Json.required (ofJsonWith depth) right)
      | _ => none
    | "And" => pair depth content .and
    | "Or" => pair depth content .or
    | "Not" => (ofJsonWith depth content).map .not
    | "IsNull" => (ofJsonWith depth content).map .isNull
    | _ => none
  | _, _ => none
where
  pair (depth : Nat) (content : Json) (make : Expr → Expr → Expr) : Option Expr :=
    match content with
    | .arr [left, right] => do
      let left ← ofJsonWith depth left
      let right ← ofJsonWith depth right
      return make left right
    | _ => none

def ofJson? (j : Json) : Option Expr := ofJsonWith (j.depth + 1) j

end Expr

namespace OrderTerm

def ofJson? (j : Json) : Option OrderTerm := do
  match ← j.record? ["expr", "direction"] with
  | [expr, direction] =>
    return {
      expr := ← Json.required Expr.ofJson? expr
      direction := ← Json.required Direction.ofJson? direction }
  | _ => none

def toJson (t : OrderTerm) : Json :=
  .obj [("expr", t.expr.toJson), ("direction", .str t.direction.tag)]

end OrderTerm

namespace Join

def ofJson? (j : Json) : Option Join := do
  match ← j.record? ["source", "outer_key", "inner_key"] with
  | [source, outerKey, innerKey] =>
    return {
      source := ← Json.required QuerySource.ofJson? source
      outerKey := ← Json.required Expr.ofJson? outerKey
      innerKey := ← Json.required Json.str? innerKey }
  | _ => none

def toJson (j : Join) : Json :=
  .obj [("source", j.source.toJson), ("outer_key", j.outerKey.toJson),
    ("inner_key", .str j.innerKey)]

end Join

namespace Selector

def ofJson? (j : Json) : Option Selector := do
  let (tag, content) ← j.variant?
  let content ← content
  match tag with
  | "Entity" => (SourceId.ofJson? content).map .entity
  | "Entities" => (content.list? SourceId.ofJson?).map .entities
  | "Properties" => (content.list? Expr.ofJson?).map .properties
  | _ => none

def toJson : Selector → Json
  | .entity source => .obj [("Entity", source.toJson)]
  | .entities sources => .obj [("Entities", .arr (sources.map SourceId.toJson))]
  | .properties exprs => .obj [("Properties", .arr (exprs.map Expr.toJson))]

end Selector

def QueryShape.fields (s : QueryShape) : List (String × Json) :=
  [("from", s.source.toJson), ("joins", .arr (s.joins.map Join.toJson)),
    ("filter", Json.ofOption Expr.toJson s.filter),
    ("order_by", .arr (s.orderBy.map OrderTerm.toJson)),
    ("skip", Json.ofOption (fun n => .int n.toNat) s.skip),
    ("take", Json.ofOption (fun n => .int n.toNat) s.take),
    ("selector", s.selector.toJson)]

def QueryShape.toJson (s : QueryShape) : Json := .obj s.fields

/-- Values under names; the last value written under a name counts. -/
def parametersOfJson? : Json → Option (OrderedMap String Value)
  | .obj fields => do
    let pairs ← fields.mapM (fun f => (Value.ofJson? f.2).map (f.1, ·))
    return OrderedMap.ofList pairs
  | _ => none

namespace Query

def toJson (q : Query) : Json :=
  .obj (q.shape.fields ++
    [("parameters", .obj (q.parameters.entries.map (fun e => (e.1, e.2.toJson))))])

def ofJson? (j : Json) : Option Query := do
  match ← j.record? ["from", "joins", "filter", "order_by", "skip", "take", "selector",
      "parameters"] with
  | [source, joins, filter, orderBy, skip, take, selector, parameters] =>
    return {
      shape := {
        source := ← Json.required QuerySource.ofJson? source
        joins := ← Json.orDefault [] (Json.list? Join.ofJson?) joins
        filter := ← Json.optional Expr.ofJson? filter
        orderBy := ← Json.orDefault [] (Json.list? OrderTerm.ofJson?) orderBy
        skip := ← Json.optional Json.uint64? skip
        take := ← Json.optional Json.uint64? take
        selector := ← Json.required Selector.ofJson? selector }
      parameters := ← Json.orDefault .empty parametersOfJson? parameters }
  | _ => none

def text (q : Query) : String := q.toJson.text

def ofText? (text : String) : Option Query := do
  let j ← Json.parse? Json.nestingLimit text
  ofJson? j

def same (q r : Query) : Bool :=
  let a := q.shape
  let b := r.shape
  decide (a.source = b.source) && sameList (fun j k =>
      decide (j.source = k.source ∧ j.innerKey = k.innerKey) && j.outerKey.same k.outerKey)
    a.joins b.joins &&
  (match a.filter, b.filter with
    | some e, some f => e.same f
    | none, none => true
    | _, _ => false) &&
  sameList (fun s t => decide (s.direction = t.direction) && s.expr.same t.expr)
    a.orderBy b.orderBy &&
  decide (a.skip = b.skip ∧ a.take = b.take) &&
  (match a.selector, b.selector with
    | .properties es, .properties fs => sameList Expr.same es fs
    | s, t => decide (s = t)) &&
  decide (q.parameters.size = r.parameters.size) &&
  q.parameters.entries.all (fun e =>
    match r.parameters.get? e.1 with
    | some v => e.2.same v
    | none => false)
where
  sameList {α : Type} (eq : α → α → Bool) (xs ys : List α) : Bool :=
    decide (xs.length = ys.length) && (xs.zip ys).all (fun p => eq p.1 p.2)

end Query

end EntityStore
