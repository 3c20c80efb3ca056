import EntityStore.Plan
import EntityStore.Proofs.Sql.Sorters

/-!
# The direct reading of a query

What a query asks for, said of the records of its sources and without a select statement: take a
record for each source in every possible way, keep the combinations that match, sort them, cut out
the page and read the selected columns.
-/

namespace EntityStore.Reading

/-- A record for each of some sources. -/
abbrev Combination := List (SourceId × Record)

def read (c : Combination) (source : SourceId) (column : String) : Value :=
  ((OrderedMap.lookup source c).bind (·.get? column)).getD .null

def records (s : Schema) (tables : TableContents) (x : QuerySource) : List Record :=
  match s.tableName x.entityType with
  | .ok name => tables name
  | .error _ => []

/-- Every way to take a record for each source; the first source varies slowest. -/
def combinations (s : Schema) (tables : TableContents) : List QuerySource → List Combination
  | [] => [[]]
  | x :: rest => (records s tables x).flatMap (fun r =>
      (combinations s tables rest).map ((x.id, r) :: ·))

section

variable (s : Schema) (q : Query)

def sourceType? (source : SourceId) : Option TypeId :=
  (q.sources.find? (·.id == source)).map (·.entityType)

def property? (source : SourceId) (name : String) : Option Property :=
  (sourceType? q source).bind (fun id => (s.property id name).toOption)

/-- The value of an expression, in three-valued logic. -/
def value (c : Combination) : Expr → Value
  | .property source name =>
    match property? s q source name with
    | some p => read c source p.columnName
    | none => .null
  | .constant v => v
  | .parameter name => (q.parameters.get? name).getD .null
  | .compare op l r => .ofTruth (((value c l).compare? (value c r)).map op.holds)
  | .and l r => .ofTruth (andTruth (value c l).truth (value c r).truth)
  | .or l r => .ofTruth (orTruth (value c l).truth (value c r).truth)
  | .not e => .ofTruth ((value c e).truth.map (!·))
  | .isNull e => .bool (value c e).isNull

def joins (c : Combination) (j : Join) : Bool :=
  (value s q c j.outerKey).compare? (value s q c (.property j.source.id j.innerKey)) == some .eq

/-- The discriminator of a hierarchy and its values in the concrete types. There is nothing to tell
apart without a discriminator, or if the only concrete type is the root. -/
def discriminators? (id : TypeId) : Option (Property × List Value) :=
  match s.concreteTypes id, s.root id, s.discriminator? id with
  | .ok types, .ok root, .ok (some p) =>
    if types.map (·.id) = [root.id] then none
    else some (p, types.filterMap (·.discriminatorValue))
  | _, _, _ => none

def isOfType (c : Combination) (x : QuerySource) : Bool :=
  match discriminators? s x.entityType with
  | none => true
  | some (p, values) =>
    values.any (fun v => (read c x.id p.columnName).compare? v == some .eq)

def satisfies (c : Combination) : Bool :=
  q.shape.joins.all (joins s q c) && q.shape.filter.all (fun e => (value s q c e).truth == some true) &&
    q.sources.all (isOfType s c)

def sortKeys (c : Combination) : List Value := q.shape.orderBy.map (fun o => value s q c o.expr)

def before (c d : Combination) : Bool :=
  Select.compareKeys (q.shape.orderBy.map (·.direction)) (sortKeys s q c) (sortKeys s q d) == .lt

def entityColumns (source : SourceId) : List (SourceId × String) :=
  match (sourceType? q source).map s.concreteTypes with
  | some (.ok types) => types.flatMap (fun t =>
      match s.properties t.id with
      | .ok properties => properties.map (fun p => (source, p.columnName))
      | .error _ => [])
  | _ => []

def valueColumn? : Expr → Option (SourceId × String)
  | .property source name => (property? s q source name).map (fun p => (source, p.columnName))
  | _ => none

def mentioned : Selector → List (SourceId × String)
  | .entity source => entityColumns s q source
  | .entities sources => sources.flatMap (entityColumns s q)
  | .properties exprs => exprs.filterMap (valueColumn? s q)

end

def mention {α : Type} [DecidableEq α] (known : List α) (x : α) : List α :=
  if x ∈ known then known else known ++ [x]

/-- The columns of a row: each mentioned column once. -/
def selected (s : Schema) (q : Query) : List (SourceId × String) :=
  (mentioned s q q.shape.selector).foldl mention []

/-- The combinations that match, before they are sorted. -/
def kept (s : Schema) (q : Query) (tables : TableContents) : List Combination :=
  (combinations s tables q.sources).filter (satisfies s q)

def shown (s : Schema) (q : Query) (sorted : List Combination) : List Row :=
  (Select.page q.shape.skip q.shape.take sorted).map
    (fun c => (selected s q).map (fun (source, column) => read c source column))

def rows (s : Schema) (q : Query) (tables : TableContents) : List Row :=
  shown s q (Sorting.sort (before s q) (kept s q tables))

/-- The rows by any sorting procedure; none if it gives up. -/
def rowsBy (sorter : Sorter) (s : Schema) (q : Query) (tables : TableContents) : Option (List Row) :=
  (sorter.sort (before s q) (kept s q tables)).map (shown s q)

def sourcesOf : Expr → List SourceId
  | .property source _ => [source]
  | .constant _ | .parameter _ => []
  | .compare _ l r | .and l r | .or l r => sourcesOf l ++ sourcesOf r
  | .not e | .isNull e => sourcesOf e

def parametersOf : Expr → List String
  | .parameter name => [name]
  | .property _ _ | .constant _ => []
  | .compare _ l r | .and l r | .or l r => parametersOf l ++ parametersOf r
  | .not e | .isNull e => parametersOf e

/-- The key of each join is read from sources that are there by then. -/
def Scoped (q : Query) : Prop :=
  ∀ (i : Nat) (j : Join), q.shape.joins[i]? = some j →
    ∀ source ∈ sourcesOf j.outerKey, source ∈ (q.sources.take (i + 2)).map (·.id)

instance (q : Query) : Decidable (Scoped q) :=
  decidable_of_iff (∀ p ∈ q.shape.joins.zipIdx, ∀ source ∈ sourcesOf p.1.outerKey,
      source ∈ (q.sources.take (p.2 + 2)).map (·.id)) (by
    simp only [Prod.forall, List.mem_zipIdx_iff_getElem?]
    exact forall_comm)

def expressions (q : Query) : List Expr :=
  q.shape.joins.map (·.outerKey) ++ q.shape.filter.toList ++ q.shape.orderBy.map (·.expr)

def Supplied (q : Query) : Prop :=
  ∀ e ∈ expressions q, ∀ name ∈ parametersOf e, ∃ v, q.parameters.get? name = some v

instance (q : Query) : Decidable (Supplied q) :=
  decidable_of_iff (∀ e ∈ expressions q, ∀ name ∈ parametersOf e, (q.parameters.get? name).isSome) (by
    simp only [Option.isSome_iff_exists]
    rfl)

theorem combinations_snoc (s : Schema) (tables : TableContents) (xs : List QuerySource)
    (x : QuerySource) :
    combinations s tables (xs ++ [x]) = (combinations s tables xs).flatMap (fun c =>
      (records s tables x).map (fun r => c ++ [(x.id, r)])) := by
  induction xs with
  | nil => simp [combinations, List.map_eq_flatMap]
  | cons y xs ih =>
    simp only [List.cons_append, combinations, ih, List.flatMap_assoc, List.map_flatMap,
      List.flatMap_map, List.map_map]
    rfl

theorem keys_of_mem_combinations {s : Schema} {tables : TableContents} {xs : List QuerySource}
    {c : Combination} (h : c ∈ combinations s tables xs) : c.map Prod.fst = xs.map (·.id) := by
  induction xs generalizing c with
  | nil =>
    obtain rfl := List.mem_singleton.mp h
    rfl
  | cons x xs ih =>
    obtain ⟨r, _, hc⟩ := List.mem_flatMap.mp h
    obtain ⟨d, hd, rfl⟩ := List.mem_map.mp hc
    simp [ih hd]

theorem mem_mention {α : Type} [DecidableEq α] {known : List α} {x y : α} :
    y ∈ mention known x ↔ y ∈ known ∨ y = x := by
  unfold mention
  split
  · rename_i h
    exact ⟨Or.inl, fun h' => h'.elim id (fun hy => hy ▸ h)⟩
  · simp

end EntityStore.Reading
