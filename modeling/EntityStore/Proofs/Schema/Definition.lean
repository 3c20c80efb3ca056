import EntityStore.Proofs.Schema.Discriminators
import EntityStore.Sql.Definition

/-!
# Table definitions of accepted schemas

Every hierarchy of an accepted schema has a table definition: what the definition looks up, from the
columns to the types and properties of the foreign keys, is there.
-/

namespace EntityStore.Schema

open Traversal

variable {s : Schema}

theorem exists_columnsOf {id : TypeId} {names : List String}
    (h : ∀ name ∈ names, ∃ p, s.property id name = .ok p) : ∃ columns, s.columnsOf id names = .ok columns := by
  refine exists_mapM (fun name hname => ?_)
  obtain ⟨p, hp⟩ := h name hname
  rw [hp]
  exact ⟨p.columnName, rfl⟩

theorem Resolved.exists_foreignKeyConstraint? (hs : s.Valid) {fk : ForeignKey} (hfk : s.Resolved fk)
    (root : EntityType) : ∃ c, s.foreignKeyConstraint? root fk = .ok c := by
  obtain ⟨t, ht, hdependent⟩ := hfk.dependent
  obtain ⟨u, hu, hprincipal⟩ := hfk.principal
  obtain ⟨t', ht'⟩ := hs.exists_entityType ht
  obtain ⟨u', hu'⟩ := hs.exists_entityType hu
  obtain ⟨dependentRoot, _, _, hroot, -⟩ := hs.exists_keyProperties (hdependent ▸ ht')
  obtain ⟨principalRoot, key, _, hroot', -, -, -, hkey, -⟩ := hs.exists_keyProperties (hprincipal ▸ hu')
  obtain ⟨columns, hcolumns⟩ := exists_columnsOf hfk.dependentProperties
  obtain ⟨columns', hcolumns'⟩ := exists_columnsOf hfk.principalProperties
  rw [foreignKeyConstraint?, hroot, hkey, hcolumns, hcolumns', tableName_of_root hroot']
  simp only [ok_bind]
  split
  · exact ⟨_, rfl⟩
  · split
    · exact ⟨_, rfl⟩
    · exact ⟨_, rfl⟩

theorem exists_createTable {d : SchemaDef} (hd : ofDef d = .ok s) {r : EntityType} (hr : r ∈ s.roots) :
    ∃ sql, s.createTable r.id = .ok sql := by
  have hs := valid_of_ofDef hd
  obtain ⟨t, ht⟩ := hs.exists_entityType (List.mem_of_mem_filter hr)
  obtain ⟨root, key, _, hroot, hmem, -, -, hkey, -⟩ := hs.exists_keyProperties ht
  obtain ⟨types, hchecked⟩ := exists_checked hd hmem
  have hcolumns : s.tableColumns r.id = .ok (distinctColumns (types.flatMap (·.properties))) := by
    rw [tableColumns, hroot, ok_bind, hchecked.hierarchy]
    rfl
  obtain ⟨constraints, hconstraints⟩ := exists_mapM (f := s.foreignKeyConstraint? root)
    (fun fk hfk => (resolved_of_ofDef hd hfk).exists_foreignKeyConstraint? hs root)
  rw [createTable, hroot, ok_bind, hcolumns, ok_bind, hkey, ok_bind, hconstraints, ok_bind,
    tableName_of_root hroot]
  exact ⟨_, rfl⟩

end EntityStore.Schema
