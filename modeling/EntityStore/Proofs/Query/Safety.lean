import EntityStore.Proofs.Query.Translation
import EntityStore.Proofs.Schema.Validity

/-!
# Safety of plans

If all parameters have values, the statement of a plan fails only where the key of a join reads a
source that is joined later, or where its rows cannot be sorted. Its rows are as wide as its projection,
and what makes results of them reads within this width.
-/

namespace EntityStore

def EntityShape.indices (shape : EntityShape) : List Nat := shape.columns.map (·.index)

def Materializer.indices : Materializer → List Nat
  | .plain shape => shape.indices
  | .dispatching _ index _ shapes => index :: shapes.flatMap (fun entry => entry.2.indices)

/-- Every place of the row that is read to make a result. -/
def ResultShape.indices : ResultShape → List Nat
  | .entity m => m.indices
  | .entities ms => ms.flatMap Materializer.indices
  | .values columns => columns.map (·.index)

namespace Reading

open Traversal

section

variable {s : Schema} {q : Query} {columns : List (SourceId × String)} {source : SourceId}

theorem ReadsEntity.index_lt {t : EntityType × List Property} {shape : EntityShape}
    (h : ReadsEntity columns source t shape) : ∀ index ∈ shape.indices, index < columns.length := by
  intro index hindex
  obtain ⟨c, hc, rfl⟩ := List.mem_map.1 hindex
  obtain ⟨p, -, hplace⟩ := exists_of_mem_right h.places hc
  exact (List.getElem?_eq_some_iff.1 hplace.column).1

theorem ReadsSource.index_lt {id : TypeId} {m : Materializer}
    (h : ReadsSource s columns source id m) : ∀ index ∈ m.indices, index < columns.length := by
  cases h with
  | plain _ hreads => exact hreads.index_lt
  | dispatching _ _ _ hplace hreads =>
    refine List.forall_mem_cons.2 ⟨(List.getElem?_eq_some_iff.1 hplace).1, ?_⟩
    intro index hindex
    obtain ⟨entry, hentry, hindex⟩ := List.mem_flatMap.1 hindex
    obtain ⟨t, -, -, hentity⟩ := exists_of_mem_right hreads hentry
    exact hentity.index_lt index hindex

theorem ReadsShape.index_lt {selector : Selector} {shape : ResultShape}
    (h : ReadsShape s q columns selector shape) :
    ∀ index ∈ shape.indices, index < columns.length := by
  cases h with
  | entity hreads =>
    obtain ⟨id, -, hreads⟩ := hreads
    exact hreads.index_lt
  | entities hreads =>
    intro index hindex
    obtain ⟨m, hm, hindex⟩ := List.mem_flatMap.1 hindex
    obtain ⟨source, -, id, -, hreads⟩ := exists_of_mem_right hreads hm
    exact hreads.index_lt index hindex
  | values hreads =>
    intro index hindex
    obtain ⟨c, hc, rfl⟩ := List.mem_map.1 hindex
    obtain ⟨e, -, source, name, p, -, -, -, hplace⟩ := exists_of_mem_right hreads hc
    exact (List.getElem?_eq_some_iff.1 hplace).1

theorem length_of_mem_rowsBy {sorter : Sorter} {tables : TableContents} {found : List Row}
    (h : rowsBy sorter s q tables = some found) : ∀ row ∈ found, row.length = (selected s q).length := by
  obtain ⟨sorted, -, rfl⟩ := Option.map_eq_some_iff.1 h
  intro row hrow
  obtain ⟨c, -, rfl⟩ := List.mem_map.1 hrow
  rw [List.length_map]

theorem Planned.width_eq {plan : Plan} (h : Planned s q plan) :
    plan.select.width = (selected s q).length := by
  rw [Select.width, h.projection, List.length_map]

/-- Plans whose parameters have values do not go wrong, however their rows are sorted, but for keys of joins
that read a source which is joined later. Only sort keys in no weak order can make the sort give up. -/
theorem evaluate_safe {plan : Plan} (h : Plan.ofQuery s q = .ok plan) (hsupplied : Supplied q)
    (sorter : Sorter) (db : MemoryDatabase) :
    (∀ index ∈ plan.shape.indices, index < plan.select.width) ∧
      (∀ rows, plan.select.evaluateBy sorter q.parameters db.rows = .ok (some rows) →
        ∀ row ∈ rows, row.length = plan.select.width) ∧
      (Scoped q → ∃ rows, plan.select.evaluateBy sorter q.parameters db.rows = .ok rows ∧
        (Sorting.WeakOrderOn (before s q) (kept s q db.rows) → rows.isSome)) ∧
      ∀ error, plan.select.evaluateBy sorter q.parameters db.rows = .error error →
        ∃ i j source, q.shape.joins[i]? = some j ∧ source ∈ sourcesOf j.outerKey ∧
          source ∉ (q.sources.take (i + 2)).map (·.id) ∧
          error = SqlExpr.unknownTable source.tableLabel := by
  have hplanned := planned_ofQuery h
  rw [hplanned.width_eq, hplanned.evaluateBy]
  refine ⟨hplanned.shape.index_lt, ?_, ?_, ?_⟩
  · intro found hok
    exact length_of_mem_rowsBy (guarded_eq_ok_iff.1 hok).2
  · intro hscoped
    rw [runFailure?_eq_none hplanned.sources hscoped hsupplied, guarded_none]
    refine ⟨_, rfl, fun hweak => ?_⟩
    rw [rowsBy_eq sorter hweak]
    rfl
  · intro error herror
    exact (fault_of_runFailure? hplanned.sources (guarded_eq_error_iff.1 herror)).early hsupplied

end

theorem evaluate_safe_kiwis :
    ∃ plan, Plan.ofQuery animals kiwis = .ok plan ∧ Supplied kiwis ∧
      (∀ index ∈ plan.shape.indices, index < plan.select.width) ∧ Scoped kiwis ∧
      Sorting.WeakOrderOn (before animals kiwis) (kept animals kiwis zoo.rows) ∧
      ∀ sorter : Sorter, ∃ rows, plan.select.evaluateBy sorter kiwis.parameters zoo.rows = .ok (some rows) := by
  have hweak : Sorting.WeakOrderOn (before animals kiwis) (kept animals kiwis zoo.rows) :=
    ⟨by decide, by decide⟩
  obtain ⟨hindices, -, -, -⟩ := evaluate_safe (s := animals) (q := kiwis) rfl (by decide) .insertion zoo
  refine ⟨_, rfl, by decide, hindices, by decide, hweak, fun sorter => ?_⟩
  obtain ⟨-, -, hok, -⟩ := evaluate_safe (s := animals) (q := kiwis) rfl (by decide) sorter zoo
  obtain ⟨rows, heval, hsome⟩ := hok (by decide)
  obtain ⟨found, rfl⟩ := Option.isSome_iff_exists.1 (hsome hweak)
  exact ⟨found, heval⟩

/-- Blogs with themselves, twice: the key of the first join reads the source of the second. -/
def blogTriples : Query :=
  { shape :=
      { source := ⟨⟨0⟩, ⟨0⟩⟩
        joins := [⟨⟨⟨1⟩, ⟨0⟩⟩, .property ⟨2⟩ "Id", "Id"⟩, ⟨⟨⟨2⟩, ⟨0⟩⟩, .property ⟨0⟩ "Id", "Id"⟩]
        filter := none, orderBy := [], skip := none, take := none
        selector := .properties [.property ⟨0⟩ "Id"] }
    parameters := .empty }

def oneBlog : MemoryDatabase :=
  ⟨.ofList [("Blog", .ofList [([.integer 1], .ofList [("Id", .integer 1)])])]⟩

theorem unbound_blogTriples :
    Schema.ofDef Schema.blogDef = .ok Schema.blogs ∧
      ∃ plan, Plan.ofQuery Schema.blogs blogTriples = .ok plan ∧ Supplied blogTriples ∧
        oneBlog.evaluate plan.select blogTriples.parameters =
          .error (.queryRejected "unknown table alias 't2'") :=
  ⟨rfl, _, rfl, by decide, rfl⟩

end Reading

end EntityStore
