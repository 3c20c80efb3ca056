import EntityStore.Proofs.Schema.Validity
import EntityStore.Save.Command

/-!
# Commands of entries

On a valid schema an entry is either refused, with a reason, or gives a command for the row that
its identifying values name. No other failure is possible.
-/

namespace EntityStore.Command

open Traversal Schema

variable {α β : Type}

/-- Fails in no other way than by refusing an entry. -/
def OnlyRefuses (x : Except StoreError α) : Prop :=
  ∀ e, x = .error e → ∃ reason, e = refused reason

theorem onlyRefuses_ok (a : α) : OnlyRefuses (.ok a) := fun e h => by cases h

theorem onlyRefuses_refused (reason : String) :
    OnlyRefuses (.error (refused reason) : Except StoreError α) := by
  intro e h
  cases h
  exact ⟨reason, rfl⟩

theorem OnlyRefuses.bind {x : Except StoreError α} {f : α → Except StoreError β}
    (hx : OnlyRefuses x) (hf : ∀ a, x = .ok a → OnlyRefuses (f a)) : OnlyRefuses (x >>= f) := by
  cases x with
  | error e =>
    obtain ⟨reason, rfl⟩ := hx e rfl
    exact onlyRefuses_refused reason
  | ok a => exact hf a rfl

theorem OnlyRefuses.mapM {f : α → Except StoreError β} {l : List α}
    (h : ∀ a, OnlyRefuses (f a)) : OnlyRefuses (l.mapM f) := by
  intro e he
  obtain ⟨a, _, ha⟩ := exists_error_of_mapM he
  exact h a e ha

theorem onlyRefuses_checkNullable (typeName : String) (p : Property) (v : Value) :
    OnlyRefuses (checkNullable typeName p v) := by
  unfold checkNullable
  split
  · exact onlyRefuses_refused _
  · exact onlyRefuses_ok ()

theorem onlyRefuses_change (p : Property) (v : Value) (isKey isWrite : Bool) :
    OnlyRefuses (change p v isKey isWrite) := by
  refine OnlyRefuses.bind ?_ (fun w _ => onlyRefuses_ok _)
  unfold coerceFor
  split
  · exact onlyRefuses_ok _
  · exact onlyRefuses_refused _

namespace Context

theorem onlyRefuses_insertColumn (c : Context) (p : Property) : OnlyRefuses (c.insertColumn p) :=
  (onlyRefuses_checkNullable _ _ _).bind (fun _ _ => onlyRefuses_change _ _ _ _)

theorem onlyRefuses_updateColumn (c : Context) (p : Property) : OnlyRefuses (c.updateColumn p) := by
  unfold updateColumn
  split
  · refine OnlyRefuses.bind ?_ (fun _ _ =>
      (onlyRefuses_change _ _ _ _).bind (fun _ _ => onlyRefuses_ok _))
    unfold checkKeyUnchanged
    split
    · split
      · exact onlyRefuses_ok ()
      · exact onlyRefuses_refused _
    · exact onlyRefuses_ok ()
  · split
    · exact onlyRefuses_ok _
    · exact (onlyRefuses_checkNullable _ _ _).bind (fun _ _ =>
        (onlyRefuses_change _ _ _ _).bind (fun _ _ => onlyRefuses_ok _))

theorem onlyRefuses_columns (c : Context) (properties : List Property) :
    OnlyRefuses (c.columns properties) := by
  unfold columns
  split
  · exact OnlyRefuses.mapM c.onlyRefuses_insertColumn
  · exact (OnlyRefuses.mapM c.onlyRefuses_updateColumn).bind (fun _ _ => onlyRefuses_ok _)
  · exact OnlyRefuses.mapM (fun p => onlyRefuses_change _ _ _ _)

end Context

theorem onlyRefuses_typeOf (s : Schema) (e : PendingEntry) : OnlyRefuses (typeOf s e) := by
  unfold typeOf
  split
  · exact onlyRefuses_refused _
  · split
    · exact onlyRefuses_refused _
    · exact onlyRefuses_ok _

theorem onlyRefuses_keyOf (s : Schema) (t : EntityType) (e : PendingEntry) :
    OnlyRefuses (keyOf s t e) := by
  unfold keyOf
  split
  · exact onlyRefuses_refused _
  · split
    · exact onlyRefuses_refused _
    · exact onlyRefuses_ok _

theorem onlyRefuses_checkNames (t : EntityType) (properties : List Property) (names : List String) :
    OnlyRefuses (checkNames t properties names) := by
  unfold checkNames
  split
  · exact onlyRefuses_refused _
  · exact onlyRefuses_ok ()

theorem typeOf_eq_ok_iff {s : Schema} {e : PendingEntry} {t : EntityType} :
    typeOf s e = .ok t ↔ s.entityType e.entityType = .ok t ∧ t.isAbstract = false := by
  unfold typeOf
  cases s.entityType e.entityType with
  | error cause => simp
  | ok u =>
    simp only [Except.ok.injEq]
    split
    · rename_i habstract
      constructor
      · nofun
      · rintro ⟨rfl, hconcrete⟩
        exact absurd habstract (by simp [hconcrete])
    · rename_i habstract
      rw [Except.ok.injEq]
      refine ⟨?_, And.left⟩
      rintro rfl
      exact ⟨rfl, by simpa using habstract⟩

theorem checkNames_eq_ok_iff {t : EntityType} {properties : List Property} {names : List String} :
    checkNames t properties names = .ok () ↔ ∀ name ∈ names, ∃ p ∈ properties, p.name = name := by
  have hfind : names.find? (fun n => !properties.any (fun p => p.name == n)) = none ↔
      ∀ name ∈ names, ∃ p ∈ properties, p.name = name := by
    simp [List.find?_eq_none]
  rw [checkNames, ← hfind]
  cases names.find? (fun n => !properties.any (fun p => p.name == n)) <;> simp

/-- What the schema says about the type of an entry. -/
structure Shape (s : Schema) (t : EntityType) where
  root : EntityType
  key : List Property
  properties : List Property
  discriminator : Option Property
  isRoot : root ∈ s.roots
  root_eq : s.root t.id = .ok root
  rootKey_eq : s.keyProperties root.id = .ok key
  keyProperties_eq : s.keyProperties t.id = .ok key
  properties_eq : s.properties t.id = .ok properties
  discriminator_eq : s.discriminator? t.id = .ok discriminator
  key_subset : ∀ p ∈ key, p ∈ properties

def Shape.context {s : Schema} {t : EntityType} (shape : Shape s t) (e : PendingEntry) : Context where
  type := t
  entry := e
  keyNames := shape.key.map (·.name)
  discriminator := shape.discriminator.map (·.name)

theorem exists_shape {s : Schema} (hs : s.Valid) {id : TypeId} {t : EntityType}
    (ht : s.entityType id = .ok t) : t.id = id ∧ Nonempty (Shape s t) := by
  have hid := hs.id_eq_of_entityType ht
  obtain ⟨r, key, all, hroot, hmem, _, hrootKey, hkey, hall, hsub⟩ := hs.exists_keyProperties ht
  obtain ⟨discriminator, hdiscriminator⟩ := hs.exists_discriminator ht
  subst hid
  exact ⟨rfl, ⟨⟨r, key, all, discriminator, hmem, hroot, hrootKey, hkey, hall, hdiscriminator, hsub⟩⟩⟩

/-- The command of an entry in terms of what the schema says about its type. -/
theorem ofEntry_eq {s : Schema} {e : PendingEntry} {t : EntityType} (ht : typeOf s e = .ok t)
    (shape : Shape s t) :
    ofEntry s e = (do
      let key ← keyOf s t e
      checkNames t shape.properties e.current.keys
      let columns ← (shape.context e).columns shape.properties
      return { entityType := t.id, table := tableOf shape.root, state := e.state, key := key
               columns := columns }) := by
  simp only [ofEntry, ht, ok_bind, shape.properties_eq, shape.keyProperties_eq,
    shape.discriminator_eq, tableName_of_root shape.root_eq]
  rfl

/-- On a valid schema an entry is refused or gives a command. -/
theorem onlyRefuses_ofEntry {s : Schema} (hs : s.Valid) (e : PendingEntry) :
    OnlyRefuses (ofEntry s e) := by
  cases ht : typeOf s e with
  | error cause =>
    obtain ⟨reason, rfl⟩ := onlyRefuses_typeOf s e cause ht
    rw [ofEntry, ht]
    exact onlyRefuses_refused reason
  | ok t =>
    obtain ⟨_, ⟨shape⟩⟩ := exists_shape hs (typeOf_eq_ok_iff.1 ht).1
    rw [ofEntry_eq ht shape]
    exact (onlyRefuses_keyOf s t e).bind (fun _ _ =>
      (onlyRefuses_checkNames _ _ _).bind (fun _ _ =>
        (Context.onlyRefuses_columns _ _).bind (fun _ _ => onlyRefuses_ok _)))

structure Accepted (s : Schema) (e : PendingEntry) (c : Command) (t : EntityType)
    (shape : Shape s t) : Prop where
  type : s.entityType e.entityType = .ok t
  type_id : t.id = e.entityType
  key : keyOf s t e = .ok c.key
  columns : (shape.context e).columns shape.properties = .ok c.columns
  table : c.table = tableOf shape.root
  state : c.state = e.state

theorem ofEntry_eq_ok_iff {s : Schema} {e : PendingEntry} {c : Command} {t : EntityType}
    (ht : typeOf s e = .ok t) (hid : t.id = e.entityType) (shape : Shape s t) :
    ofEntry s e = .ok c ↔ Accepted s e c t shape ∧ c.entityType = t.id ∧
      checkNames t shape.properties e.current.keys = .ok () := by
  rw [ofEntry_eq ht shape]
  simp only [bind_eq_ok_iff, pure_eq_ok]
  constructor
  · rintro ⟨key, hkey, ⟨⟩, hnames, columns, hcolumns, rfl⟩
    exact ⟨⟨(typeOf_eq_ok_iff.1 ht).1, hid, hkey, hcolumns, rfl, rfl⟩, rfl, hnames⟩
  · rintro ⟨h, htype, hnames⟩
    refine ⟨c.key, h.key, (), hnames, c.columns, h.columns, ?_⟩
    rw [← h.table, ← h.state, ← htype]

theorem exists_accepted {s : Schema} (hs : s.Valid) {e : PendingEntry} {c : Command}
    (h : ofEntry s e = .ok c) : ∃ t shape, Accepted s e c t shape := by
  obtain ⟨t, ht, _⟩ := bind_eq_ok_iff.mp h
  obtain ⟨hid, ⟨shape⟩⟩ := exists_shape hs (typeOf_eq_ok_iff.1 ht).1
  exact ⟨t, shape, ((ofEntry_eq_ok_iff ht hid shape).1 h).1⟩

end EntityStore.Command
