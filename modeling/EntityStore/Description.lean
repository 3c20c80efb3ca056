import EntityStore.Connection.Retry
import EntityStore.Entity.Tagged
import EntityStore.Error.Document
import EntityStore.Result.Shaper
import EntityStore.Save.Batches

/-!
# Descriptions

Documents that say what values of the library are made of.
-/

namespace EntityStore

def DiscriminatorKey.describe : DiscriminatorKey → Json
  | .integer i => .obj [("integer", .int i.toInt)]
  | .text s => .obj [("text", .str s)]

def Value.describe (v : Value) : Json :=
  .obj [("value", v.toTagged), ("display", .str v.display), ("debug", .str v.inspect),
    ("type", Json.ofOption (fun t : ValueType => .str t.name) v.type?),
    ("sql_type", Json.ofOption (fun t : ValueType => .str t.columnType) v.type?),
    ("is_null", .bool v.isNull),
    ("discriminator_key", Json.ofOption DiscriminatorKey.describe v.discriminatorKey?),
    ("json", .str v.toJson.text)]

def ValueColumn.describe (c : ValueColumn) : Json := .arr [.int c.index, .str c.type.name]

def ResultShape.describe : ResultShape → Json
  | .entity m => .obj [("entity", .bool m.readsDiscriminator)]
  | .entities ms => .obj [("entities", .arr (ms.map (fun m => .bool m.readsDiscriminator)))]
  | .values columns => .obj [("values", .arr (columns.map ValueColumn.describe))]

def ColumnChange.describe (c : ColumnChange) : Json :=
  .arr [.str c.property, .str c.column, c.value.toTagged, .bool c.isKey, .bool c.isWrite]

def Command.describe (c : Command) : Json :=
  .obj [("type", c.entityType.toJson), ("table", .str c.table), ("state", .str c.state.tag),
    ("key", Value.listToTagged c.key), ("columns", .arr (c.columns.map ColumnChange.describe)),
    ("requires_existing", .bool c.needsRow), ("sql", .str c.sql.1),
    ("parameters", Value.listToTagged c.sql.2)]

def Batch.describe (b : Batch) : Json :=
  .obj [("len", .int b.length), ("empty", .bool b.isEmpty),
    ("commands", .arr (b.map (fun c => .arr [.str c.sql.1, Value.listToTagged c.sql.2])))]

def RetryPhase.describe : RetryPhase → Json
  | .idle => .str "idle"
  | .probing attempt => .obj [("probing", .int attempt)]
  | .retrying attempt delay => .obj [("retrying", .arr [.int attempt, .int delay])]
  | .ready => .str "ready"
  | .failed => .str "failed"

def RetryStep.describe : RetryStep Json → Json
  | .done j => .obj [("done", j)]
  | .wait delay => .obj [("wait", .int delay)]
  | .fail e => .obj [("fail", e.toJson)]

def StoreError.classify (e : StoreError) : Json :=
  .obj [("error", .str e.kind), ("message", .str e.message),
    ("transient", .bool e.isTransient), ("cancelled", .bool e.isCancelled)]

end EntityStore
