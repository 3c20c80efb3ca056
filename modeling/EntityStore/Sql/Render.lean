import EntityStore.Sql.Select

/-!
# SQL text of select statements

Identifiers are always quoted and constants written out. Parameters become numbered placeholders;
the number of a parameter is its place among the distinct names in the order of the text.
-/

namespace EntityStore

/-- A text with the names that its placeholders stand for: `?1` is the first, and so on. -/
structure SqlText where
  text : String
  parameterNames : List String
deriving DecidableEq

namespace Sql

def doubleQuote (quote : Char) (s : String) : String :=
  String.ofList (s.toList.flatMap (fun c => if c = quote then [c, c] else [c]))

def identifier (name : String) : String := "\"" ++ doubleQuote '"' name ++ "\""

def upperHex (n : Nat) : Char := (Nat.digitChar (n % 16)).toUpper

def hexByte (b : UInt8) : List Char := [upperHex (b.toNat / 16), upperHex b.toNat]

def literal : Value → String
  | .null => "NULL"
  | .bool b => if b then "1" else "0"
  | .integer i => toString i.toInt
  | .real r => Layout.faithful.render r
  | .text s => "'" ++ doubleQuote '\'' s ++ "'"
  | .blob bytes => "X'" ++ String.ofList (bytes.flatMap hexByte) ++ "'"

def placeholder (n : Nat) : String := "?" ++ toString n

def commaSeparated (parts : List String) : String := ", ".intercalate parts

def distinct (names : List String) : List String :=
  (names.foldl (fun seen n => if seen.contains n then seen else n :: seen) []).reverse

end Sql

def CompareOp.symbol : CompareOp → String
  | .eq => "="
  | .ne => "<>"
  | .lt => "<"
  | .le => "<="
  | .gt => ">"
  | .ge => ">="

namespace SqlExpr

def parameters : SqlExpr → List String
  | .column _ _ | .literal _ => []
  | .parameter name => [name]
  | .compare _ l r | .and l r | .or l r => l.parameters ++ r.parameters
  | .not e | .isNull e | .discriminator _ e => e.parameters

def render (names : List String) : SqlExpr → String
  | .column t c => Sql.identifier t ++ "." ++ Sql.identifier c
  | .literal v => Sql.literal v
  | .parameter name => Sql.placeholder (names.idxOf name + 1)
  | .compare op l r => l.render names ++ " " ++ op.symbol ++ " " ++ r.render names
  | .and l r => "(" ++ l.render names ++ " AND " ++ r.render names ++ ")"
  | .or l r => "(" ++ l.render names ++ " OR " ++ r.render names ++ ")"
  | .not e => "NOT (" ++ e.render names ++ ")"
  | .isNull e => e.render names ++ " IS NULL"
  | .discriminator _ e => e.render names

end SqlExpr

namespace Select

/-- The expressions of a statement in the order of its text: result columns, join conditions,
predicate, order. -/
def expressions (s : Select) : List SqlExpr :=
  s.projection.map (·.expr) ++ s.joins.map (·.condition) ++ s.predicate.toList ++
    s.orderBy.map (·.expr)

def parameterNames (s : Select) : List String :=
  Sql.distinct (s.expressions.flatMap SqlExpr.parameters)

def renderColumn (names : List String) (c : ColumnEntry) : String :=
  c.expr.render names ++
    (match c.label with
      | some label => " AS " ++ Sql.identifier label
      | none => "")

/-- A row without columns still needs one in SQL. -/
def renderColumns (names : List String) (s : Select) : String :=
  match s.projection with
  | [] => "1"
  | columns => Sql.commaSeparated (columns.map (renderColumn names))

def renderTable (t : TableRef) : String :=
  Sql.identifier t.table ++ " AS " ++ Sql.identifier t.label

def renderJoin (names : List String) (j : TableJoin) : String :=
  " INNER JOIN " ++ renderTable j.table ++ " ON " ++ j.condition.render names

def renderOrder (names : List String) (o : SqlOrder) : String :=
  o.expr.render names ++ (if o.direction = .descending then " DESC" else "")

def renderOrderBy (names : List String) : List SqlOrder → String
  | [] => ""
  | terms => " ORDER BY " ++ Sql.commaSeparated (terms.map (renderOrder names))

/-- An offset needs a limit; minus one is none. -/
def renderPage : Option UInt64 → Option UInt64 → String
  | some limit, some offset =>
    " LIMIT " ++ toString limit.toNat ++ " OFFSET " ++ toString offset.toNat
  | some limit, none => " LIMIT " ++ toString limit.toNat
  | none, some offset => " LIMIT -1 OFFSET " ++ toString offset.toNat
  | none, none => ""

def render (s : Select) : SqlText :=
  let names := s.parameterNames
  { text := "SELECT " ++ renderColumns names s ++ " FROM " ++ renderTable s.source ++
      String.join (s.joins.map (renderJoin names)) ++
      (match s.predicate with
        | some p => " WHERE " ++ p.render names
        | none => "") ++
      renderOrderBy names s.orderBy ++ renderPage s.limit s.offset
    parameterNames := names }

end Select

end EntityStore
