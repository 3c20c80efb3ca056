import EntityStore.Proofs.Json.Parser
import EntityStore.Proofs.OrderedMap
import EntityStore.Proofs.Query.Fingerprint

/-!
# Query documents are read back

Every part of a query is read back from its document, from the values at the leaves up to the whole
query. A value carries no mark of its type in a document; it is the kinds of documents, tried in a
fixed order, that tell the types apart. Reals are left out: not all of them have a document, and not
every literal is read as the real nearest to it.
-/

namespace EntityStore

namespace Json

/-- A document without reals from which `a` is read. -/
structure Encodes {α : Type} (read : Json → Option α) (j : Json) (a : α) : Prop where
  integral : j.Integral
  read_eq : read j = some a

variable {α : Type} {read : Json → Option α} {write : α → Json}

theorem encodes_str (s : String) : Encodes str? (.str s) s := ⟨trivial, rfl⟩

theorem integral_toNat {n bound : Nat} (hn : n < bound) (hbound : bound ≤ UInt64.size) :
    (Json.int n).Integral := by
  have hmin : Int64.minValue.toInt ≤ 0 := by decide
  exact ⟨by omega, by omega⟩

theorem nat?_toNat {n bound : Nat} (hn : n < bound) : nat? bound (.int n) = some n := by
  simp [nat?, hn]

theorem encodes_uint32 (n : UInt32) : Encodes uint32? (.int n.toNat) n where
  integral := integral_toNat n.toNat_lt (by decide)
  read_eq := by
    rw [uint32?, nat?_toNat n.toNat_lt, Option.map_some, UInt32.ofNat_toNat]

theorem encodes_uint64 (n : UInt64) : Encodes uint64? (.int n.toNat) n where
  integral := integral_toNat n.toNat_lt le_rfl
  read_eq := by
    rw [uint64?, nat?_toNat n.toNat_lt, Option.map_some, UInt64.ofNat_toNat]

theorem encodes_list {as : List α} (h : ∀ a ∈ as, Encodes read (write a) a) :
    Encodes (list? read) (.arr (as.map write)) as := by
  have hlist : IntegralItems (as.map write) ∧ (as.map write).mapM read = some as := by
    induction as with
    | nil => exact ⟨trivial, rfl⟩
    | cons a as ih =>
      obtain ⟨ha, has⟩ := List.forall_mem_cons.1 h
      obtain ⟨hintegral, hread⟩ := ih has
      refine ⟨⟨ha.integral, hintegral⟩, ?_⟩
      rw [List.map_cons, List.mapM_cons, ha.read_eq, hread]
      rfl
  exact ⟨hlist.1, hlist.2⟩

theorem encodes_ofOption {a : Option α} (h : ∀ x ∈ a, Encodes read (write x) x)
    (hnull : ∀ x, write x ≠ .null) : Encodes (nullable? read) (ofOption write a) a := by
  cases a with
  | none => exact ⟨trivial, rfl⟩
  | some x =>
    have hx := h x rfl
    refine ⟨hx.integral, ?_⟩
    rw [ofOption, nullable?, hx.read_eq]
    · rfl
    · exact hnull x

theorem fields_toJson {entries : List (String × α)} (h : ∀ e ∈ entries, Encodes read (write e.2) e.2) :
    IntegralFields (entries.map fun e => (e.1, write e.2)) ∧
      (entries.map fun e => (e.1, write e.2)).mapM (fun f => (read f.2).map (f.1, ·)) = some entries := by
  induction entries with
  | nil => exact ⟨trivial, rfl⟩
  | cons e entries ih =>
    obtain ⟨he, hentries⟩ := List.forall_mem_cons.1 h
    obtain ⟨hintegral, hread⟩ := ih hentries
    refine ⟨⟨he.integral, hintegral⟩, ?_⟩
    rw [List.map_cons, List.mapM_cons, he.read_eq, hread]
    rfl

end Json

open Json (Encodes)

theorem Value.encodes_toJson {v : Value} (hv : v.type? ≠ some .real) : Encodes Value.ofJson? v.toJson v := by
  cases v with
  | null => exact ⟨trivial, rfl⟩
  | bool b => exact ⟨trivial, rfl⟩
  | integer i =>
    have hmin : Int64.minValue.toInt ≤ i.toInt := i.minValue_le_toInt
    have hmax : i.toInt ≤ Int64.maxValue.toInt := i.toInt_le
    have hsize : Int64.maxValue.toInt < UInt64.size := by decide
    refine ⟨⟨hmin, lt_of_le_of_lt hmax hsize⟩, ?_⟩
    rw [toJson, ofJson?, if_pos ⟨hmin, hmax⟩, Int64.ofInt_toInt]
  | real r => exact absurd rfl hv
  | text s => exact ⟨trivial, rfl⟩
  | blob bytes =>
    have hbytes : Encodes (Json.list? byte?) (.arr (bytes.map fun b => .int b.toNat)) bytes := by
      apply Json.encodes_list
      intro b _
      refine ⟨Json.integral_toNat b.toNat_lt (by decide), ?_⟩
      rw [byte?, Json.nat?_toNat b.toNat_lt, Option.map_some, UInt8.ofNat_toNat]
    refine ⟨hbytes.integral, ?_⟩
    exact congrArg (Option.map Value.blob) hbytes.read_eq

theorem Value.depth_toJson_le (v : Value) : v.toJson.depth ≤ 1 := by
  cases v with
  | real r =>
    rw [toJson]
    split <;> exact Nat.zero_le 1
  | blob bytes =>
    have hitems : Json.itemsDepth (bytes.map fun b => .int b.toNat) = 0 := by
      induction bytes with
      | nil => rfl
      | cons b bytes ih => simp [Json.itemsDepth, Json.depth, ih]
    rw [toJson, Json.depth, hitems]
  | _ => exact Nat.zero_le 1

theorem SourceId.encodes_toJson (id : SourceId) : Encodes SourceId.ofJson? id.toJson id := by
  have hindex := Json.encodes_uint32 id.index
  exact ⟨hindex.integral, congrArg (Option.map SourceId.mk) hindex.read_eq⟩

theorem TypeId.encodes_toJson (id : TypeId) : Encodes TypeId.ofJson? id.toJson id := by
  have hindex := Json.encodes_uint32 id.index
  exact ⟨hindex.integral, congrArg (Option.map TypeId.mk) hindex.read_eq⟩

theorem QuerySource.encodes_toJson (s : QuerySource) : Encodes QuerySource.ofJson? s.toJson s where
  integral := ⟨s.id.encodes_toJson.integral, s.entityType.encodes_toJson.integral, trivial⟩
  read_eq := by
    simp [toJson, ofJson?, Json.record?, Json.field?, Json.required, s.id.encodes_toJson.read_eq,
      s.entityType.encodes_toJson.read_eq]

theorem CompareOp.encodes_tag (op : CompareOp) : Encodes CompareOp.ofJson? (.str op.tag) op :=
  ⟨trivial, by cases op <;> rfl⟩

theorem Direction.encodes_tag (d : Direction) : Encodes Direction.ofJson? (.str d.tag) d :=
  ⟨trivial, by cases d <;> rfl⟩

namespace Expr

/-- With a bound above the depth of its document an expression is read back. -/
theorem encodes_toJson_with {e : Expr} (he : ∀ v ∈ e.constants, v.type? ≠ some .real) {n : Nat}
    (hn : e.toJson.depth < n) : Encodes (ofJsonWith n) e.toJson e := by
  -- the reader recurses on the bound; a part lies at least one level deeper than the whole
  induction n generalizing e with
  | zero => cases hn
  | succ n ih =>
    cases e with
    | property source name =>
      have hsource := source.encodes_toJson
      refine ⟨⟨⟨hsource.integral, trivial, trivial⟩, trivial⟩, ?_⟩
      simp [toJson, ofJsonWith, Json.record?, Json.field?, Json.required, hsource.read_eq, Json.str?]
    | constant v =>
      have hv := Value.encodes_toJson (he v List.mem_cons_self)
      refine ⟨⟨hv.integral, trivial⟩, ?_⟩
      simp [toJson, ofJsonWith, hv.read_eq]
    | parameter name =>
      refine ⟨⟨trivial, trivial⟩, ?_⟩
      simp [toJson, ofJsonWith, Json.str?]
    | compare op left right =>
      simp only [toJson, Json.depth, Json.fieldsDepth] at hn
      have hleft := ih (fun v hv => he v (List.mem_append_left _ hv)) (show left.toJson.depth < n by omega)
      have hright := ih (fun v hv => he v (List.mem_append_right _ hv)) (show right.toJson.depth < n by omega)
      refine ⟨⟨⟨trivial, hleft.integral, hright.integral, trivial⟩, trivial⟩, ?_⟩
      simp [toJson, ofJsonWith, Json.record?, Json.field?, Json.required, op.encodes_tag.read_eq,
        hleft.read_eq, hright.read_eq]
    | and left right | or left right =>
      simp only [toJson, Json.depth, Json.fieldsDepth, Json.itemsDepth] at hn
      have hleft := ih (fun v hv => he v (List.mem_append_left _ hv)) (show left.toJson.depth < n by omega)
      have hright := ih (fun v hv => he v (List.mem_append_right _ hv)) (show right.toJson.depth < n by omega)
      refine ⟨⟨⟨hleft.integral, hright.integral, trivial⟩, trivial⟩, ?_⟩
      simp [toJson, ofJsonWith, ofJsonWith.pair, hleft.read_eq, hright.read_eq]
    | not inner | isNull inner =>
      simp only [toJson, Json.depth, Json.fieldsDepth] at hn
      have hinner := ih (e := inner) he (by omega)
      refine ⟨⟨hinner.integral, trivial⟩, ?_⟩
      simp [toJson, ofJsonWith, hinner.read_eq]

theorem encodes_toJson {e : Expr} (he : ∀ v ∈ e.constants, v.type? ≠ some .real) :
    Encodes Expr.ofJson? e.toJson e := by
  have hwith := encodes_toJson_with he (Nat.lt_succ_self _)
  exact ⟨hwith.integral, hwith.read_eq⟩

end Expr

theorem OrderTerm.encodes_toJson {t : OrderTerm} (ht : ∀ v ∈ t.expr.constants, v.type? ≠ some .real) :
    Encodes OrderTerm.ofJson? t.toJson t := by
  have hexpr := Expr.encodes_toJson ht
  refine ⟨⟨hexpr.integral, trivial, trivial⟩, ?_⟩
  simp [toJson, ofJson?, Json.record?, Json.field?, Json.required, hexpr.read_eq,
    t.direction.encodes_tag.read_eq]

theorem Join.encodes_toJson {j : Join} (hj : ∀ v ∈ j.outerKey.constants, v.type? ≠ some .real) :
    Encodes Join.ofJson? j.toJson j := by
  have hsource := j.source.encodes_toJson
  have houter := Expr.encodes_toJson hj
  refine ⟨⟨hsource.integral, houter.integral, trivial, trivial⟩, ?_⟩
  simp [toJson, ofJson?, Json.record?, Json.field?, Json.required, hsource.read_eq, houter.read_eq,
    (Json.encodes_str j.innerKey).read_eq]

theorem Selector.encodes_toJson {s : Selector}
    (hs : ∀ exprs, s = .properties exprs → ∀ e ∈ exprs, ∀ v ∈ e.constants, v.type? ≠ some .real) :
    Encodes Selector.ofJson? s.toJson s := by
  cases s with
  | entity source =>
    have hsource := source.encodes_toJson
    exact ⟨⟨hsource.integral, trivial⟩, congrArg (Option.map entity) hsource.read_eq⟩
  | entities sources =>
    have hsources := Json.encodes_list fun (source : SourceId) (_ : source ∈ sources) => source.encodes_toJson
    exact ⟨⟨hsources.integral, trivial⟩, congrArg (Option.map entities) hsources.read_eq⟩
  | properties exprs =>
    have hexprs := Json.encodes_list fun e he => Expr.encodes_toJson (hs exprs rfl e he)
    exact ⟨⟨hexprs.integral, trivial⟩, congrArg (Option.map properties) hexprs.read_eq⟩

theorem Parameters.encodes {parameters : Parameters}
    (hvalues : ∀ v ∈ parameters.values, v.type? ≠ some .real) :
    Encodes parametersOfJson? (.obj (parameters.entries.map fun e => (e.1, e.2.toJson))) parameters := by
  have hencodes : ∀ e ∈ parameters.entries, Encodes Value.ofJson? e.2.toJson e.2 := fun e he =>
    Value.encodes_toJson (hvalues e.2 (List.mem_map_of_mem he))
  obtain ⟨hintegral, hread⟩ := Json.fields_toJson hencodes
  have hentries := OrderedMap.entries_ofList parameters.distinct
  refine ⟨hintegral, ?_⟩
  simp only [parametersOfJson?, hread, Option.bind_eq_bind, Option.bind_some, Option.pure_def]
  exact congrArg some (OrderedMap.ext hentries)

theorem encodes_page (n : Option UInt64) :
    Encodes (Json.nullable? Json.uint64?) (Json.ofOption (fun n : UInt64 => .int n.toNat) n) n :=
  Json.encodes_ofOption (fun n _ => Json.encodes_uint64 n) fun _ => nofun

namespace Query

theorem encodes_toJson {q : Query}
    (hconstants : ∀ v ∈ q.shape.constants, v.type? ≠ some .real)
    (hvalues : ∀ v ∈ q.parameters.values, v.type? ≠ some .real) : Encodes Query.ofJson? q.toJson q := by
  obtain ⟨⟨source, joins, filter, orderBy, skip, take, selector⟩, parameters⟩ := q
  simp only [QueryShape.constants, List.mem_append, List.mem_flatMap, Option.mem_toList] at hconstants
  have hsource := source.encodes_toJson
  have hjoins := Json.encodes_list fun j hj =>
    Join.encodes_toJson fun v hv => hconstants v (Or.inl (Or.inl (Or.inl ⟨j, hj, hv⟩)))
  have hfilter := Json.encodes_ofOption (a := filter) (fun e he =>
    Expr.encodes_toJson fun v hv => hconstants v (Or.inl (Or.inl (Or.inr ⟨e, he, hv⟩)))) Expr.toJson_ne_null
  have horder := Json.encodes_list fun t ht =>
    OrderTerm.encodes_toJson fun v hv => hconstants v (Or.inl (Or.inr ⟨t, ht, hv⟩))
  have hskip := encodes_page skip
  have htake := encodes_page take
  have hselector : Encodes Selector.ofJson? selector.toJson selector := by
    apply Selector.encodes_toJson
    rintro exprs rfl e he v hv
    exact hconstants v (Or.inr (List.mem_flatMap.2 ⟨e, he, hv⟩))
  have hparameters := Parameters.encodes hvalues
  refine ⟨⟨hsource.integral, hjoins.integral, hfilter.integral, horder.integral, hskip.integral,
    htake.integral, hselector.integral, hparameters.integral, trivial⟩, ?_⟩
  simp [toJson, QueryShape.fields, ofJson?, Json.record?, Json.field?, Json.required, Json.orDefault,
    Json.optional, hsource.read_eq, hjoins.read_eq, hfilter.read_eq, horder.read_eq, hskip.read_eq,
    htake.read_eq, hselector.read_eq, hparameters.read_eq]

/-- A query without reals is read back from its text, with its parameters in their order, and a value
that is no real is read back in its own type. -/
theorem ofText?_text :
    (∀ q : Query, (∀ v ∈ q.shape.constants, v.type? ≠ some .real) →
      (∀ v ∈ q.parameters.values, v.type? ≠ some .real) → q.toJson.depth ≤ Json.nestingLimit →
        ofText? q.text = some q) ∧
    ∀ v : Value, v.type? ≠ some .real →
      (Json.parse? Json.nestingLimit v.toJson.text).bind Value.ofJson? = some v := by
  constructor
  · intro q hconstants hvalues hdepth
    have hq := encodes_toJson hconstants hvalues
    have hparse := Json.parse?_text hq.integral hdepth
    rw [ofText?, text, hparse]
    exact hq.read_eq
  · intro v hv
    have hvalue := Value.encodes_toJson hv
    have hlimit : 1 ≤ Json.nestingLimit := by decide
    have hparse := Json.parse?_text hvalue.integral (le_trans v.depth_toJson_le hlimit)
    rw [hparse]
    exact hvalue.read_eq

/-- A query with values of all types but real, and its parameters out of alphabetical order. -/
def leaves : Query :=
  let filter : Expr := .and (.isNull (.constant .null)) (.not (.constant (.integer Int64.minValue)))
  let q := ((entities ⟨0⟩).restrict filter).take 18446744073709551615
  (q.withParameter "b" (.text "\"\\\n\x01é")).withParameter "a" (.bool true)

theorem ofText?_text_leaves :
    ofText? leaves.text = some leaves ∧
      (Json.parse? Json.nestingLimit (Value.blob [0, 255]).toJson.text).bind Value.ofJson? =
        some (.blob [0, 255]) :=
  ⟨ofText?_text.1 leaves (by decide) (by decide) (by decide),
    ofText?_text.2 (.blob [0, 255]) (by decide)⟩

end Query

end EntityStore
