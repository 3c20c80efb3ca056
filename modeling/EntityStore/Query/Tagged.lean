import EntityStore.Query.Document
import EntityStore.Value.Tagged

/-!
# Tagged expressions

A compact JSON form of expressions in which constants keep their types.
-/

namespace EntityStore.Expr

def ofTaggedWith : Nat → Json → Option Expr
  | 0, _ => none
  | height + 1, j =>
    let read := ofTaggedWith height
    match j with
    | .obj [("property", .arr [source, .str name])] =>
      (SourceId.ofJson? source).map (.property · name)
    | .obj [("constant", v)] => (Value.ofTagged? v).map .constant
    | .obj [("parameter", .str name)] => some (.parameter name)
    | .obj [("compare", .arr [.str op, l, r])] => do
      return .compare (← CompareOp.ofTag? op) (← read l) (← read r)
    | .obj [("equals", .arr [l, r])] => do return equals (← read l) (← read r)
    | .obj [("and", .arr [l, r])] => do return .and (← read l) (← read r)
    | .obj [("or", .arr [l, r])] => do return .or (← read l) (← read r)
    | .obj [("negate", e)] => (read e).map .not
    | .obj [("is_null", e)] => (read e).map .isNull
    | _ => none

def ofTagged? (j : Json) : Option Expr := ofTaggedWith (j.depth + 1) j

end EntityStore.Expr
