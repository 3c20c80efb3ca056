import EntityStore.Query.Basic

/-!
# Column expressions

The expressions of a select statement, over columns of tables under aliases. A discriminator node
marks the restriction of one source to the rows of its entity type.
-/

namespace EntityStore

inductive SqlExpr
  | column (table column : String)
  | literal (v : Value)
  | parameter (name : String)
  | compare (op : CompareOp) (left right : SqlExpr)
  | and (left right : SqlExpr)
  | or (left right : SqlExpr)
  | not (inner : SqlExpr)
  | isNull (inner : SqlExpr)
  | discriminator (source : SourceId) (predicate : SqlExpr)
deriving DecidableEq, Inhabited

namespace SqlExpr

def equals (left right : SqlExpr) : SqlExpr := .compare .eq left right

/-- The disjunction of expressions, grouped to the left; none of no expressions. -/
def any? : List SqlExpr → Option SqlExpr
  | [] => none
  | e :: rest => some (rest.foldl .or e)

def same : SqlExpr → SqlExpr → Bool
  | .column t c, .column t' c' => t == t' && c == c'
  | .literal v, .literal w => v.same w
  | .parameter p, .parameter q => p == q
  | .compare op l r, .compare op' l' r' => decide (op = op') && same l l' && same r r'
  | .and l r, .and l' r' => same l l' && same r r'
  | .or l r, .or l' r' => same l l' && same r r'
  | .not e, .not f => same e f
  | .isNull e, .isNull f => same e f
  | .discriminator s p, .discriminator s' p' => decide (s = s') && same p p'
  | _, _ => false

/-- The restriction of a source, looked for under conjunctions, disjunctions, negations and null
tests, left before right. -/
def findDiscriminator? (source : SourceId) : SqlExpr → Option SqlExpr
  | .discriminator s p => if s = source then some p else none
  | .and l r | .or l r => (findDiscriminator? source l).or (findDiscriminator? source r)
  | .not e | .isNull e => findDiscriminator? source e
  | _ => none

/-- Puts another restriction in the place of the first one of a source, if there is one. -/
def replaceDiscriminator? (source : SourceId) (p : SqlExpr) : SqlExpr → Option SqlExpr
  | .discriminator s _ => if s = source then some (.discriminator source p) else none
  | .and l r =>
    match replaceDiscriminator? source p l with
    | some l => some (.and l r)
    | none => (replaceDiscriminator? source p r).map (.and l)
  | .or l r =>
    match replaceDiscriminator? source p l with
    | some l => some (.or l r)
    | none => (replaceDiscriminator? source p r).map (.or l)
  | .not e => (replaceDiscriminator? source p e).map .not
  | .isNull e => (replaceDiscriminator? source p e).map .isNull
  | _ => none

end SqlExpr

end EntityStore
