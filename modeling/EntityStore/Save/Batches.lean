import EntityStore.Save.Command
import EntityStore.Save.Precedence
import EntityStore.Options

/-!
# Batches

The commands of a save, ordered by foreign keys. A principal is inserted before the rows that refer
to it; a row is deleted or made to refer elsewhere before the principal it referred to is deleted.
Commands at one level of this order keep the order of their entries and are cut into batches.
-/

namespace EntityStore

abbrev Batch := List Command

namespace Batches

/-- The values of some properties in the types of the principal, unless one is missing, null or
does not fit. -/
def references? (values : Values) (properties : List String) (types : List ValueType) :
    Option EntityKey :=
  (properties.zip types).mapM (fun (name, type) => do
    let v ← values.get? name
    if v.isNull then none else v.convert? type)

/-- The entries of one type of change that a foreign key may refer to, with the values by which it
does. -/
def principals (entries : List (Nat × PendingEntry)) (state : EntryState)
    (values : PendingEntry → Values) (properties : List String) (types : List ValueType) :
    List (Nat × EntityKey) :=
  entries.filterMap (fun (i, e) =>
    if e.state = state then (references? (values e) properties types).map (i, ·) else none)

/-- The entries in `candidates` with a key, other than entry `i`. -/
def matching (candidates : List (Nat × EntityKey)) (key : Option EntityKey) (i : Nat) : List Nat :=
  match key with
  | none => []
  | some key => (candidates.filter (fun c => decide (c.2 = key) && c.1 != i)).map (·.1)

/-- The values of an entity after the save, as far as they are known. -/
def valuesAfter (e : PendingEntry) : Values := e.loaded.override e.current

/-- The edges at a dependent: from the inserted principals that it will refer to, and to the
deleted ones that it referred to. -/
def edgesAt (fk : ForeignKey) (types : List ValueType) (added deleted : List (Nat × EntityKey))
    (i : Nat) (e : PendingEntry) : List (Nat × Nat) :=
  let after := references? (valuesAfter e) fk.dependentProperties types
  let before := references? e.loaded fk.dependentProperties types
  let incoming := (matching added after i).map (·, i)
  let outgoing := (matching deleted before i).map (i, ·)
  match e.state with
  | .added => incoming
  | .modified => incoming ++ outgoing
  | .deleted => outgoing

def filterAssignable (s : Schema) (entries : List (Nat × PendingEntry)) (ancestor : TypeId) :
    Except SchemaError (List (Nat × PendingEntry)) :=
  entries.filterM (fun (_, e) => s.isAssignable e.entityType ancestor)

def edgesOf (s : Schema) (entries : List (Nat × PendingEntry)) (fk : ForeignKey) :
    Except SchemaError (List (Nat × Nat)) := do
  let types ← fk.principalProperties.mapM (fun name => do
    let p ← s.property fk.principal name
    return p.type)
  let candidates ← filterAssignable s entries fk.principal
  let added := principals candidates .added (·.current) fk.principalProperties types
  let deleted := principals candidates .deleted (·.loaded) fk.principalProperties types
  let dependents ← filterAssignable s entries fk.dependent
  return dependents.flatMap (fun (i, e) => edgesAt fk types added deleted i e)

def numbered (entries : List PendingEntry) : List (Nat × PendingEntry) :=
  entries.zipIdx.map (fun (e, i) => (i, e))

def precedence (s : Schema) (entries : List PendingEntry) : Except SchemaError Precedence := do
  let edges ← s.foreignKeys.mapM (edgesOf s (numbered entries))
  return .ofEdges entries.length edges.flatten

def cycleAt (n : Nat) : StoreError :=
  .circularDependency ("entry " ++ toString n ++ " participates in a foreign key cycle")

def atLevel (levels : List (Nat × Nat)) (commands : List (Nat × Command)) (level : Nat) :
    List Command :=
  (commands.filter (fun c => levels.lookup c.1 == some level)).map (·.2)

/-- Cuts a list into pieces of `size`, the last one possibly shorter. -/
def cut {α : Type} (size : Nat) : Nat → List α → List (List α)
  | 0, _ => []
  | _ + 1, [] => []
  | pieces + 1, xs => xs.take size :: cut size pieces (xs.drop size)

def ofEntries (s : Schema) (options : StoreOptions) (entries : List PendingEntry) :
    Except StoreError (List Batch) := do
  let commands ← entries.mapM (Command.ofEntry s)
  let graph ← precedence s entries
  match graph.order? with
  | .error n => throw (cycleAt n)
  | .ok order =>
    let levels := graph.levels order
    let indexed := commands.zipIdx.map (fun (c, i) => (i, c))
    let size := max 1 options.maxBatchSize.toNat
    return (List.range entries.length).flatMap (fun level =>
      let commands := atLevel levels indexed level
      cut size commands.length commands)

end Batches

end EntityStore
