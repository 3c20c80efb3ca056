import EntityStore.Query.Fingerprint
import EntityStore.Proofs.Json.Printer

/-!
# Fingerprints of shapes

A document has no form for the reals that are not finite: they stand in it as null. Apart from that
the text of a shape determines the shape, so where the hash does not collide, equal fingerprints
mean equal shapes up to those constants.
-/

namespace EntityStore

namespace Value

/-- The value as a document keeps it. -/
def documented : Value → Value
  | .real r => if r.isFinite then .real r else .null
  | v => v

theorem exact_toJson (v : Value) : v.toJson.Exact := by
  cases v with
  | real r =>
    by_cases hr : r.isFinite = true <;> simp [toJson, hr, Json.Exact]
  | blob bytes =>
    simp only [toJson, Json.Exact]
    induction bytes with
    | nil => trivial
    | cons b bytes ih => exact ⟨trivial, ih⟩
  | _ => trivial

theorem documented_documented (v : Value) : v.documented.documented = v.documented := by
  cases v with
  | real r => by_cases hr : r.isFinite = true <;> simp [documented, hr]
  | _ => rfl

theorem toJson_documented (v : Value) : v.documented.toJson = v.toJson := by
  cases v with
  | real r => by_cases hr : r.isFinite = true <;> simp [documented, toJson, hr]
  | _ => rfl

theorem toJson_inj_of_documented {v w : Value} (hv : v.documented = v) (hw : w.documented = w)
    (h : v.toJson = w.toJson) : v = w := by
  have hfinite : ∀ r : Binary64, (Value.real r).documented = .real r → r.isFinite = true := by
    intro r hr
    by_contra hinfinite
    rw [documented, if_neg hinfinite] at hr
    cases hr
  cases v <;> cases w <;> simp_all [toJson]
  case integer.integer i j => exact Int64.toInt_inj.1 h
  case blob.blob bytes bytes' =>
    refine (List.map_inj_right ?_).1 h
    intro a b hab
    simp only [Json.int.injEq, Nat.cast_inj] at hab
    exact UInt8.toNat_inj.1 hab

theorem toJson_eq_iff {v w : Value} : v.toJson = w.toJson ↔ v.documented = w.documented := by
  constructor
  · intro h
    rw [← toJson_documented v, ← toJson_documented w] at h
    exact toJson_inj_of_documented v.documented_documented w.documented_documented h
  · intro h
    rw [← toJson_documented v, h, toJson_documented]

end Value

theorem map_eq_map_iff {α β γ : Type} {f : α → β} {g : α → γ} (h : ∀ a b, f a = f b ↔ g a = g b)
    (xs ys : List α) : xs.map f = ys.map f ↔ xs.map g = ys.map g := by
  induction xs generalizing ys with
  | nil => cases ys <;> simp
  | cons x xs ih =>
    cases ys with
    | nil => simp
    | cons y ys => simp [h, ih]

theorem map_eq_self {α : Type} {f : α → α} {xs : List α} (h : ∀ x ∈ xs, f x = x) : xs.map f = xs :=
  (List.map_congr_left (g := id) h).trans (List.map_id xs)

theorem SourceId.toJson_inj {id id' : SourceId} : id.toJson = id'.toJson ↔ id = id' := by
  obtain ⟨index⟩ := id
  obtain ⟨index'⟩ := id'
  simp [toJson, toNat, UInt32.toNat_inj]

theorem TypeId.toJson_inj {id id' : TypeId} : id.toJson = id'.toJson ↔ id = id' := by
  obtain ⟨index⟩ := id
  obtain ⟨index'⟩ := id'
  simp [toJson, toNat, UInt32.toNat_inj]

theorem QuerySource.toJson_inj {s t : QuerySource} : s.toJson = t.toJson ↔ s = t := by
  obtain ⟨id, entityType⟩ := s
  obtain ⟨id', entityType'⟩ := t
  simp [toJson, SourceId.toJson_inj, TypeId.toJson_inj]

theorem CompareOp.tag_inj {op op' : CompareOp} : op.tag = op'.tag ↔ op = op' := by
  cases op <;> cases op' <;> decide

theorem Direction.tag_inj {d d' : Direction} : d.tag = d'.tag ↔ d = d' := by
  cases d <;> cases d' <;> decide

namespace Expr

def mapConstants (f : Value → Value) : Expr → Expr
  | .property source name => .property source name
  | .constant v => .constant (f v)
  | .parameter name => .parameter name
  | .compare op left right => .compare op (left.mapConstants f) (right.mapConstants f)
  | .and left right => .and (left.mapConstants f) (right.mapConstants f)
  | .or left right => .or (left.mapConstants f) (right.mapConstants f)
  | .not inner => .not (inner.mapConstants f)
  | .isNull inner => .isNull (inner.mapConstants f)

def constants : Expr → List Value
  | .property _ _ | .parameter _ => []
  | .constant v => [v]
  | .compare _ left right | .and left right | .or left right => left.constants ++ right.constants
  | .not inner | .isNull inner => inner.constants

theorem mapConstants_eq_self {f : Value → Value} {e : Expr} (h : ∀ v ∈ e.constants, f v = v) :
    e.mapConstants f = e := by
  induction e with
  | property source name => rfl
  | constant v => rw [mapConstants, h v List.mem_cons_self]
  | parameter name => rfl
  | compare op left right ihl ihr | and left right ihl ihr | or left right ihl ihr =>
    rw [mapConstants, ihl fun v hv => h v (List.mem_append_left _ hv),
      ihr fun v hv => h v (List.mem_append_right _ hv)]
  | not inner ih | isNull inner ih => rw [mapConstants, ih h]

theorem toJson_eq_iff (e e' : Expr) :
    e.toJson = e'.toJson ↔ e.mapConstants Value.documented = e'.mapConstants Value.documented := by
  induction e generalizing e' with
  | property source name => cases e' <;> simp [toJson, mapConstants, SourceId.toJson_inj]
  | constant v => cases e' <;> simp [toJson, mapConstants, Value.toJson_eq_iff]
  | parameter name => cases e' <;> simp [toJson, mapConstants]
  | compare op left right ihl ihr =>
    cases e' <;> simp [toJson, mapConstants, CompareOp.tag_inj, ihl, ihr]
  | and left right ihl ihr => cases e' <;> simp [toJson, mapConstants, ihl, ihr]
  | or left right ihl ihr => cases e' <;> simp [toJson, mapConstants, ihl, ihr]
  | not inner ih => cases e' <;> simp [toJson, mapConstants, ih]
  | isNull inner ih => cases e' <;> simp [toJson, mapConstants, ih]

theorem exact_toJson (e : Expr) : e.toJson.Exact := by
  induction e with
  | property source name => exact ⟨⟨trivial, trivial, trivial⟩, trivial⟩
  | constant v => exact ⟨v.exact_toJson, trivial⟩
  | parameter name => exact ⟨trivial, trivial⟩
  | compare op left right ihl ihr => exact ⟨⟨trivial, ihl, ihr, trivial⟩, trivial⟩
  | and left right ihl ihr => exact ⟨⟨ihl, ihr, trivial⟩, trivial⟩
  | or left right ihl ihr => exact ⟨⟨ihl, ihr, trivial⟩, trivial⟩
  | not inner ih => exact ⟨ih, trivial⟩
  | isNull inner ih => exact ⟨ih, trivial⟩

theorem toJson_ne_null (e : Expr) : e.toJson ≠ .null := by
  cases e <;> exact nofun

end Expr

def OrderTerm.mapConstants (f : Value → Value) (t : OrderTerm) : OrderTerm :=
  { t with expr := t.expr.mapConstants f }

def Join.mapConstants (f : Value → Value) (j : Join) : Join :=
  { j with outerKey := j.outerKey.mapConstants f }

def Selector.mapConstants (f : Value → Value) : Selector → Selector
  | .entity source => .entity source
  | .entities sources => .entities sources
  | .properties exprs => .properties (exprs.map (Expr.mapConstants f))

def QueryShape.mapConstants (f : Value → Value) (s : QueryShape) : QueryShape :=
  { s with
    joins := s.joins.map (Join.mapConstants f)
    filter := s.filter.map (Expr.mapConstants f)
    orderBy := s.orderBy.map (OrderTerm.mapConstants f)
    selector := s.selector.mapConstants f }

theorem OrderTerm.toJson_eq_iff (t t' : OrderTerm) :
    t.toJson = t'.toJson ↔ t.mapConstants Value.documented = t'.mapConstants Value.documented := by
  obtain ⟨expr, direction⟩ := t
  obtain ⟨expr', direction'⟩ := t'
  simp [toJson, mapConstants, Expr.toJson_eq_iff, Direction.tag_inj]

theorem Join.toJson_eq_iff (j j' : Join) :
    j.toJson = j'.toJson ↔ j.mapConstants Value.documented = j'.mapConstants Value.documented := by
  obtain ⟨source, outerKey, innerKey⟩ := j
  obtain ⟨source', outerKey', innerKey'⟩ := j'
  simp [toJson, mapConstants, QuerySource.toJson_inj, Expr.toJson_eq_iff]

theorem Selector.toJson_eq_iff (s s' : Selector) :
    s.toJson = s'.toJson ↔ s.mapConstants Value.documented = s'.mapConstants Value.documented := by
  have hexprs := map_eq_map_iff Expr.toJson_eq_iff
  have hsources : ∀ ids ids' : List SourceId, ids.map SourceId.toJson = ids'.map SourceId.toJson ↔ ids = ids' :=
    fun ids ids' => List.map_inj_right fun _ _ h => SourceId.toJson_inj.1 h
  cases s <;> cases s' <;> simp [toJson, mapConstants, SourceId.toJson_inj, hexprs, hsources]

theorem ofOption_page_inj (n n' : Option UInt64) :
    Json.ofOption (fun n : UInt64 => .int n.toNat) n = Json.ofOption (fun n : UInt64 => .int n.toNat) n' ↔
      n = n' := by
  cases n <;> cases n' <;> simp [Json.ofOption, UInt64.toNat_inj]

theorem ofOption_filter_eq_iff (e e' : Option Expr) :
    Json.ofOption Expr.toJson e = Json.ofOption Expr.toJson e' ↔
      e.map (Expr.mapConstants Value.documented) = e'.map (Expr.mapConstants Value.documented) := by
  cases e <;> cases e' <;>
    simp [Json.ofOption, Expr.toJson_eq_iff, Expr.toJson_ne_null, (Expr.toJson_ne_null _).symm]

theorem exactItems_map {α : Type} {write : α → Json} (h : ∀ a, (write a).Exact) (xs : List α) :
    Json.ExactItems (xs.map write) := by
  induction xs with
  | nil => trivial
  | cons x xs ih => exact ⟨h x, ih⟩

theorem exact_ofOption {α : Type} {write : α → Json} (h : ∀ a, (write a).Exact) (a : Option α) :
    (Json.ofOption write a).Exact := by
  cases a with
  | none => trivial
  | some a => exact h a

theorem SourceId.exact_toJson (id : SourceId) : id.toJson.Exact := trivial

theorem exact_int (i : Int) : (Json.int i).Exact := trivial

theorem QuerySource.exact_toJson (s : QuerySource) : s.toJson.Exact := ⟨trivial, trivial, trivial⟩

theorem Join.exact_toJson (j : Join) : j.toJson.Exact :=
  ⟨j.source.exact_toJson, j.outerKey.exact_toJson, trivial, trivial⟩

theorem OrderTerm.exact_toJson (t : OrderTerm) : t.toJson.Exact := ⟨t.expr.exact_toJson, trivial, trivial⟩

theorem Selector.exact_toJson (s : Selector) : s.toJson.Exact := by
  cases s with
  | entity source => exact ⟨trivial, trivial⟩
  | entities sources => exact ⟨exactItems_map SourceId.exact_toJson sources, trivial⟩
  | properties exprs => exact ⟨exactItems_map Expr.exact_toJson exprs, trivial⟩

namespace QueryShape

def constants (s : QueryShape) : List Value :=
  s.joins.flatMap (·.outerKey.constants) ++ s.filter.toList.flatMap Expr.constants ++
    s.orderBy.flatMap (·.expr.constants) ++
    (match s.selector with
      | .properties exprs => exprs.flatMap Expr.constants
      | _ => [])

theorem mapConstants_eq_self {f : Value → Value} {s : QueryShape} (h : ∀ v ∈ s.constants, f v = v) :
    s.mapConstants f = s := by
  obtain ⟨source, joins, filter, orderBy, skip, take, selector⟩ := s
  simp only [constants, List.mem_append, List.mem_flatMap, Option.mem_toList] at h
  have hjoins : joins.map (Join.mapConstants f) = joins := by
    refine map_eq_self fun j hj => ?_
    rw [Join.mapConstants, Expr.mapConstants_eq_self fun v hv => h v (Or.inl (Or.inl (Or.inl ⟨j, hj, hv⟩)))]
  have hfilter : filter.map (Expr.mapConstants f) = filter := by
    cases filter with
    | none => rfl
    | some e =>
      rw [Option.map_some, Expr.mapConstants_eq_self fun v hv => h v (Or.inl (Or.inl (Or.inr ⟨e, rfl, hv⟩)))]
  have horder : orderBy.map (OrderTerm.mapConstants f) = orderBy := by
    refine map_eq_self fun t ht => ?_
    rw [OrderTerm.mapConstants, Expr.mapConstants_eq_self fun v hv => h v (Or.inl (Or.inr ⟨t, ht, hv⟩))]
  have hselector : selector.mapConstants f = selector := by
    cases selector with
    | entity source => rfl
    | entities sources => rfl
    | properties exprs =>
      rw [Selector.mapConstants, map_eq_self fun e he =>
        Expr.mapConstants_eq_self fun v hv => h v (Or.inr (List.mem_flatMap.2 ⟨e, he, hv⟩))]
  simp only [mapConstants, hjoins, hfilter, horder, hselector]

theorem exact_toJson (s : QueryShape) : s.toJson.Exact :=
  ⟨s.source.exact_toJson, exactItems_map Join.exact_toJson s.joins,
    exact_ofOption Expr.exact_toJson s.filter, exactItems_map OrderTerm.exact_toJson s.orderBy,
    exact_ofOption (fun _ => exact_int _) s.skip, exact_ofOption (fun _ => exact_int _) s.take,
    s.selector.exact_toJson, trivial⟩

theorem toJson_eq_iff (s t : QueryShape) :
    s.toJson = t.toJson ↔ s.mapConstants Value.documented = t.mapConstants Value.documented := by
  obtain ⟨source, joins, filter, orderBy, skip, take, selector⟩ := s
  obtain ⟨source', joins', filter', orderBy', skip', take', selector'⟩ := t
  simp [toJson, fields, mapConstants, QuerySource.toJson_inj, map_eq_map_iff Join.toJson_eq_iff,
    ofOption_filter_eq_iff, map_eq_map_iff OrderTerm.toJson_eq_iff, ofOption_page_inj,
    Selector.toJson_eq_iff]

/-- The text of a shape determines it, up to reals that are not finite. -/
theorem text_eq_iff (s t : QueryShape) :
    s.text = t.text ↔ s.mapConstants Value.documented = t.mapConstants Value.documented := by
  rw [← toJson_eq_iff]
  constructor
  · exact Json.text_inj s.exact_toJson t.exact_toJson
  · intro h
    rw [text, text, h]

theorem eq_of_utf8_eq {a b : String} (h : a.toUTF8.data.toList = b.toUTF8.data.toList) : a = b := by
  have hdata := Array.toList_inj.1 h
  exact String.toByteArray_inj.1 (ByteArray.ext hdata)

def HashedApart (s t : QueryShape) : Prop :=
  Blake3.hash s.text.toUTF8.data.toList = Blake3.hash t.text.toUTF8.data.toList →
    s.text.toUTF8.data.toList = t.text.toUTF8.data.toList

theorem fingerprint_eq_iff_text {s t : QueryShape} (h : s.HashedApart t) :
    s.fingerprint = t.fingerprint ↔ s.text = t.text := by
  constructor
  · intro heq
    rw [fingerprint, fingerprint, Fingerprint.mk.injEq] at heq
    exact eq_of_utf8_eq (h heq)
  · intro heq
    rw [fingerprint, fingerprint, heq]

end QueryShape

end EntityStore
