import EntityStore.Engine.Disk
import EntityStore.Json.Parser
import EntityStore.Json.Printer
import EntityStore.Json.Reader
import EntityStore.Value.Tagged

/-!
# Database files

The text that a database is kept as: a line that names the format, then the tables with their rows
as a document. A row lists its values in the order of the columns.
-/

namespace EntityStore

namespace Json

def ofStrings (names : List String) : Json := .arr (names.map .str)

def strings? (j : Json) : Option (List String) := j.list? str?

end Json

namespace Sql

def ColumnDefinition.toJson (c : ColumnDefinition) : Json :=
  .arr [.str c.name, .str c.type, .bool c.notNull]

def ColumnDefinition.ofJson? : Json → Option ColumnDefinition
  | .arr [.str name, .str type, .bool notNull] => some ⟨name, type, notNull⟩
  | _ => none

def Reference.toJson (r : Reference) : Json :=
  .arr [.ofStrings r.columns, .str r.table, .ofStrings r.target]

def Reference.ofJson? : Json → Option Reference
  | .arr [columns, .str table, target] => do
    return ⟨← columns.strings?, table, ← target.strings?⟩
  | _ => none

def TableDefinition.toJson (d : TableDefinition) : Json :=
  .arr [.str d.name, .arr (d.columns.map (·.toJson)), .ofStrings d.key,
    .arr (d.references.map (·.toJson))]

def TableDefinition.ofJson? : Json → Option TableDefinition
  | .arr [.str name, columns, key, references] => do
    return ⟨name, ← columns.list? ColumnDefinition.ofJson?, ← key.strings?,
      ← references.list? Reference.ofJson?⟩
  | _ => none

end Sql

namespace Engine

namespace Table

def toJson (t : Table) : Json :=
  .arr [t.definition.toJson,
    .arr (t.rows.map (fun r =>
      Value.listToTagged (t.definition.columns.map (fun c => field r c.name))))]

def ofJson? : Json → Option Table
  | .arr [definition, rows] => do
    let definition ← Sql.TableDefinition.ofJson? definition
    let rows ← rows.list? (Json.list? Value.ofTagged?)
    return ⟨definition, rows.map (fun row => .ofList ((definition.columns.map (·.name)).zip row))⟩
  | _ => none

end Table

namespace Database

/-- The first line of a file that holds a database. -/
def heading : String := "entity store, format 1\n"

def toText (db : Database) : String :=
  heading ++ (Json.arr (db.tables.values.map (·.toJson))).text ++ "\n"

def ofText? (text : String) : Option Database := do
  if text.startsWith heading then
    let document ← Json.parse? Json.nestingLimit (String.ofList (text.toList.drop heading.length))
    let tables ← document.list? Table.ofJson?
    return ⟨.ofList (tables.map (fun t => (t.definition.name, t)))⟩
  else none

end Database

namespace Content

def ofText (text : String) : Content :=
  match Database.ofText? text with
  | some db => .database db
  | none => .text text

end Content

end Engine

end EntityStore
