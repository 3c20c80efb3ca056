import EntityStore.Entity
import EntityStore.Query.Document
import EntityStore.Value.Tagged

/-!
# Tagged entities

The JSON form of entities and pending changes in which values keep their types.
-/

namespace EntityStore

def Entity.toTagged (e : Entity) : Json :=
  .obj [("type", e.entityType.toJson), ("name", .str e.typeName), ("values", e.values.toTagged)]

def Materialized.toTagged : Materialized → Json
  | .entity e => .obj [("entity", e.toTagged)]
  | .values vs => .obj [("values", Value.listToTagged vs)]
  | .tuple parts => .obj [("tuple", .arr (parts.map (fun e => .obj [("entity", e.toTagged)])))]

namespace EntryState

def tag : EntryState → String
  | .added => "Added"
  | .modified => "Modified"
  | .deleted => "Deleted"

def ofTag? (s : String) : Option EntryState :=
  [EntryState.added, .modified, .deleted].find? (·.tag == s)

end EntryState

def PendingEntry.ofTagged? (j : Json) : Option PendingEntry := do
  match ← j.record? ["type", "state", "current", "loaded"] with
  | [type, state, current, loaded] =>
    return {
      entityType := ← Json.required TypeId.ofJson? type
      state := ← Json.required (fun j => j.str?.bind EntryState.ofTag?) state
      current := ← Json.orDefault .empty OrderedMap.ofTagged? current
      loaded := ← Json.orDefault .empty OrderedMap.ofTagged? loaded }
  | _ => none

end EntityStore
