import EntityStore.Sql.Render

/-!
# SQL text of modifications

Insert, update and delete statements by column names; values are always parameters, numbered from
left to right.
-/

namespace EntityStore.Sql

def placeholders (start count : Nat) : List String :=
  (List.range count).map (fun i => placeholder (start + i))

def assignments (columns : List String) (start : Nat) : List String :=
  columns.mapIdx (fun i c => identifier c ++ " = " ++ placeholder (start + i))

def keyCondition (keyColumns : List String) (start : Nat) : String :=
  " AND ".intercalate (assignments keyColumns start)

def insert (table : String) (columns : List String) : String :=
  "INSERT INTO " ++ identifier table ++ " (" ++ commaSeparated (columns.map identifier) ++
    ") VALUES (" ++ commaSeparated (placeholders 1 columns.length) ++ ")"

def update (table : String) (columns keyColumns : List String) : String :=
  "UPDATE " ++ identifier table ++ " SET " ++ commaSeparated (assignments columns 1) ++
    " WHERE " ++ keyCondition keyColumns (columns.length + 1)

def delete (table : String) (keyColumns : List String) : String :=
  "DELETE FROM " ++ identifier table ++ " WHERE " ++ keyCondition keyColumns 1

end EntityStore.Sql
