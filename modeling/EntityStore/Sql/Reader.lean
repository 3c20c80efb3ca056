import EntityStore.Sql.Lexeme
import EntityStore.Sql.Statement

/-!
# Reading SQL statements

Operators bind as usual: comparisons of size more tightly than equality and tests for null, these
more tightly than `NOT`, then `AND`, then `OR`; operators of one level group to the left.
-/

namespace EntityStore.Sql

/-- What a reader makes of the front of the lexemes, with what follows it. -/
abbrev Reader (α : Type) := List Lexeme → Option (α × List Lexeme)

namespace Reader

def symbol (s : String) : Reader Unit
  | .symbol t :: rest => if t = s then some ((), rest) else none
  | _ => none

def word (s : String) : Reader Unit
  | .word t :: rest => if t = s then some ((), rest) else none
  | _ => none

def words : List String → Reader Unit
  | [], ls => some ((), ls)
  | w :: rest, ls => do
    let (_, ls) ← word w ls
    words rest ls

def name : Reader String
  | .name s :: rest => some (s, rest)
  | _ => none

/-- Items separated by a symbol; the first argument bounds their number. -/
def separated (separator : String) (item : Reader α) : Nat → Reader (List α)
  | 0, _ => none
  | fuel + 1, ls => do
    let (a, ls) ← item ls
    match symbol separator ls with
    | some (_, ls) =>
      let (rest, ls) ← separated separator item fuel ls
      return (a :: rest, ls)
    | none => return ([a], ls)

def commaList (item : Reader α) : Reader (List α) := fun ls =>
  separated "," item (ls.length + 1) ls

def parenthesised (inner : Reader α) : Reader α := fun ls => do
  let (_, ls) ← symbol "(" ls
  let (a, ls) ← inner ls
  let (_, ls) ← symbol ")" ls
  return (a, ls)

def negated : Value → Option Value
  | .integer i => some (.integer (-i))
  | .real r =>
    if r = Binary64.ofInt (-Int64.minValue.toInt) then some (.integer Int64.minValue)
    else some (.real (Binary64.nearest true r.units 1))
  | _ => none

def atom? : Reader SqlExpr
  | .name t :: .symbol "." :: .name c :: rest => some (.column t c, rest)
  | .name c :: rest => some (.column "" c, rest)
  | .value v :: rest => some (.literal v, rest)
  | .symbol "-" :: .value v :: rest => (negated v).map (fun v => (.literal v, rest))
  | .placeholder n :: rest => some (.parameter (toString n), rest)
  | .word w :: rest => if w = "NULL" then some (.literal .null, rest) else none
  | _ => none

def sizeOperator? : List Lexeme → Option (CompareOp × List Lexeme)
  | .symbol "<" :: rest => some (.lt, rest)
  | .symbol "<=" :: rest => some (.le, rest)
  | .symbol ">" :: rest => some (.gt, rest)
  | .symbol ">=" :: rest => some (.ge, rest)
  | _ => none

inductive EqualityOperator
  | compare (op : CompareOp)
  | is

def equalityOperator? : List Lexeme → Option (EqualityOperator × List Lexeme)
  | .symbol "=" :: rest => some (.compare .eq, rest)
  | .symbol "<>" :: rest => some (.compare .ne, rest)
  | .word "IS" :: rest => some (.is, rest)
  | _ => none

/-- Equality that holds of two nulls and is never unknown. -/
def isSame (l r : SqlExpr) : SqlExpr :=
  if r = .literal .null then .isNull l
  else
    .or (.and (.isNull l) (.isNull r))
      (.and (.and (.not (.isNull l)) (.not (.isNull r))) (.equals l r))

def EqualityOperator.apply : EqualityOperator → SqlExpr → SqlExpr → SqlExpr
  | .compare op, l, r => .compare op l r
  | .is, l, r => isSame l r

/-- The levels of operators, the tightest last. -/
inductive Level
  | or
  | and
  | not
  | equality
  | size
  | atom

/-- Reads an expression of a level and goes on with operators of that level. The first argument
bounds the recursion. -/
def expression : Nat → Level → Reader SqlExpr
  | 0, _, _ => none
  | fuel + 1, .or, ls => do
    let (l, ls) ← expression fuel .and ls
    more fuel .or l ls
  | fuel + 1, .and, ls => do
    let (l, ls) ← expression fuel .not ls
    more fuel .and l ls
  | fuel + 1, .not, ls =>
    match word "NOT" ls with
    | some (_, ls) => do
      let (e, ls) ← expression fuel .not ls
      return (.not e, ls)
    | none => expression fuel .equality ls
  | fuel + 1, .equality, ls => do
    let (l, ls) ← expression fuel .size ls
    more fuel .equality l ls
  | fuel + 1, .size, ls => do
    let (l, ls) ← expression fuel .atom ls
    more fuel .size l ls
  | fuel + 1, .atom, ls =>
    match symbol "(" ls with
    | some (_, ls) => do
      let (e, ls) ← expression fuel .or ls
      let (_, ls) ← symbol ")" ls
      return (e, ls)
    | none => atom? ls
where
  /-- Goes on after a left operand. -/
  more : Nat → Level → SqlExpr → Reader SqlExpr
    | 0, _, _, _ => none
    | fuel + 1, .or, l, ls =>
      match word "OR" ls with
      | some (_, ls) => do
        let (r, ls) ← expression fuel .and ls
        more fuel .or (.or l r) ls
      | none => some (l, ls)
    | fuel + 1, .and, l, ls =>
      match word "AND" ls with
      | some (_, ls) => do
        let (r, ls) ← expression fuel .not ls
        more fuel .and (.and l r) ls
      | none => some (l, ls)
    | fuel + 1, .equality, l, ls =>
      match equalityOperator? ls with
      | some (op, ls) => do
        let (r, ls) ← expression fuel .size ls
        more fuel .equality (op.apply l r) ls
      | none => some (l, ls)
    | fuel + 1, .size, l, ls =>
      match sizeOperator? ls with
      | some (op, ls) => do
        let (r, ls) ← expression fuel .atom ls
        more fuel .size (.compare op l r) ls
      | none => some (l, ls)
    | _ + 1, _, l, ls => some (l, ls)

/-- Every lexeme needs at most one step of each level. -/
def expr : Reader SqlExpr := fun ls => expression (6 * ls.length + 6) .or ls

def assignment : Reader Assignment := fun ls => do
  let (column, ls) ← name ls
  let (_, ls) ← symbol "=" ls
  let (e, ls) ← expression (6 * ls.length + 6) .size ls
  return ((column, e), ls)

def conditionsWith : Nat → Reader (List Assignment)
  | 0, _ => none
  | fuel + 1, ls => do
    let (a, ls) ← assignment ls
    match word "AND" ls with
    | some (_, ls) =>
      let (rest, ls) ← conditionsWith fuel ls
      return (a :: rest, ls)
    | none => return ([a], ls)

def conditions : Reader (List Assignment) := fun ls => conditionsWith (ls.length + 1) ls

inductive TablePart
  | column (c : ColumnDefinition)
  | key (columns : List String)
  | reference (r : Reference)

def tablePart : Reader TablePart
  | .name column :: .word type :: rest =>
    match words ["NOT", "NULL"] rest with
    | some (_, rest) => some (.column ⟨column, type, true⟩, rest)
    | none => some (.column ⟨column, type, false⟩, rest)
  | .word "PRIMARY" :: .word "KEY" :: rest => do
    let (columns, rest) ← parenthesised (commaList name) rest
    return (.key columns, rest)
  | .word "FOREIGN" :: .word "KEY" :: rest => do
    let (columns, rest) ← parenthesised (commaList name) rest
    let (_, rest) ← word "REFERENCES" rest
    let (table, rest) ← name rest
    let (target, rest) ← parenthesised (commaList name) rest
    return (.reference ⟨columns, table, target⟩, rest)
  | _ => none

def TablePart.addTo (d : TableDefinition) : TablePart → TableDefinition
  | .column c => { d with columns := d.columns ++ [c] }
  | .key columns => { d with key := columns }
  | .reference r => { d with references := d.references ++ [r] }

def createTable : Reader Statement := fun ls => do
  let (_, ls) ← words ["TABLE", "IF", "NOT", "EXISTS"] ls
  let (table, ls) ← name ls
  let (parts, ls) ← parenthesised (commaList tablePart) ls
  return (.createTable (parts.foldl TablePart.addTo ⟨table, [], [], []⟩), ls)

def insert : Reader Statement := fun ls => do
  let (_, ls) ← word "INTO" ls
  let (table, ls) ← name ls
  let (columns, ls) ← parenthesised (commaList name) ls
  let (_, ls) ← word "VALUES" ls
  let (values, ls) ← parenthesised (commaList expr) ls
  return (.insert table columns values, ls)

def update : Reader Statement := fun ls => do
  let (table, ls) ← name ls
  let (_, ls) ← word "SET" ls
  let (assignments, ls) ← commaList assignment ls
  let (_, ls) ← word "WHERE" ls
  let (conditions, ls) ← conditions ls
  return (.update table assignments conditions, ls)

def delete : Reader Statement := fun ls => do
  let (_, ls) ← word "FROM" ls
  let (table, ls) ← name ls
  let (_, ls) ← word "WHERE" ls
  let (conditions, ls) ← conditions ls
  return (.delete table conditions, ls)

def tableRef : Reader TableRef := fun ls => do
  let (table, ls) ← name ls
  let (_, ls) ← word "AS" ls
  let (label, ls) ← name ls
  return ({ table := table, label := label, source := ⟨0⟩ }, ls)

def joinsWith : Nat → Reader (List TableJoin)
  | 0, _ => none
  | fuel + 1, ls =>
    match words ["INNER", "JOIN"] ls with
    | none => some ([], ls)
    | some (_, ls) => do
      let (table, ls) ← tableRef ls
      let (_, ls) ← word "ON" ls
      let (condition, ls) ← expr ls
      let (rest, ls) ← joinsWith fuel ls
      return (⟨table, condition⟩ :: rest, ls)

def resultColumn : Reader ColumnEntry := fun ls => do
  let (e, ls) ← expr ls
  match words ["AS"] ls with
  | some (_, ls) =>
    let (label, ls) ← name ls
    return ({ expr := e, label := some label, projected := true, source := none }, ls)
  | none => return ({ expr := e, label := none, projected := true, source := none }, ls)

def orderTerm : Reader SqlOrder := fun ls => do
  let (e, ls) ← expr ls
  match word "DESC" ls with
  | some (_, ls) => return (⟨e, .descending⟩, ls)
  | none => return (⟨e, .ascending⟩, ls)

def clause (start : List String) (default : α) (body : Reader α) : Reader α := fun ls =>
  match words start ls with
  | some (_, ls) => body ls
  | none => some (default, ls)

def bound : Reader Bound
  | .symbol "-" :: .value (.integer _) :: rest => some (.none, rest)
  | .value (.integer i) :: rest => some (.count i.toInt.toNat, rest)
  | .value (.real _) :: rest => some (.tooLarge, rest)
  | _ => none

def selectAfter (columns : List ColumnEntry) : Reader Statement := fun ls => do
  let (source, ls) ← tableRef ls
  let (joins, ls) ← joinsWith (ls.length + 1) ls
  let (predicate, ls) ← clause ["WHERE"] none (fun ls => do
    let (e, ls) ← expr ls
    return (some e, ls)) ls
  let (orderBy, ls) ← clause ["ORDER", "BY"] [] (commaList orderTerm) ls
  let (limit, ls) ← clause ["LIMIT"] Bound.none bound ls
  let (offset, ls) ← clause ["OFFSET"] Bound.none bound ls
  let s : Select :=
    { source := source, joins := joins, columns := columns, predicate := predicate
      orderBy := orderBy, limit := none, offset := none }
  return (.select s limit offset, ls)

def select : Reader Statement := fun ls => do
  let (columns, ls) ← commaList resultColumn ls
  match word "FROM" ls with
  | some (_, ls) => selectAfter columns ls
  | none => return (.values (columns.map (·.expr)), ls)

def statement : Reader Statement
  | .word "CREATE" :: rest => createTable rest
  | .word "INSERT" :: rest => insert rest
  | .word "UPDATE" :: rest => update rest
  | .word "DELETE" :: rest => delete rest
  | .word "SELECT" :: rest => select rest
  | _ => none

end Reader

def Statement.ofText? (text : String) : Option Statement := do
  let ls ← Lexeme.scan text
  match ← Reader.statement ls with
  | (s, []) => return s
  | _ => none

end EntityStore.Sql
