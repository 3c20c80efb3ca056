import EntityStore.Sql.Select

/-!
# SQL statements as data

The statements that a store sends to a database. Placeholders are parameters named by their
numbers.
-/

namespace EntityStore.Sql

structure ColumnDefinition where
  name : String
  type : String
  notNull : Bool
deriving DecidableEq

structure Reference where
  columns : List String
  table : String
  target : List String
deriving DecidableEq

structure TableDefinition where
  name : String
  columns : List ColumnDefinition
  key : List String
  references : List Reference
deriving DecidableEq

abbrev Assignment := String × SqlExpr

/-- A limit or offset as it is written: a whole number, or one that is too large to be one. -/
inductive Bound
  | none
  | count (n : Nat)
  | tooLarge
deriving DecidableEq

inductive Statement
  | createTable (definition : TableDefinition)
  | insert (table : String) (columns : List String) (values : List SqlExpr)
  | update (table : String) (assignments conditions : List Assignment)
  | delete (table : String) (conditions : List Assignment)
  | select (s : Select) (limit offset : Bound)
  | values (exprs : List SqlExpr)

end EntityStore.Sql
