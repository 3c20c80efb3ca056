import Mathlib.Data.List.Infix
import Mathlib.Data.List.Pairwise
import EntityStore.Proofs.Value.SortOrder
import EntityStore.Sql.Select

/-!
# Places in the result row

An expression is found by sameness, in which the two zeros are equal and a NaN is not even equal to
itself. Without NaN this is an equivalence, and a statement has no two entries for one expression. So
the place that a projected expression once got remains its place, whatever is projected or made available
to the predicate later.
-/

namespace EntityStore

/-! ### Sameness -/

theorem Binary64.numericEq_comm (x y : Binary64) : x.numericEq y = y.numericEq x := by
  rw [numericEq, numericEq, compare?_swap x y]
  cases x.compare? y with
  | none => rfl
  | some o => cases o <;> rfl

theorem Binary64.numericEq_self (x : Binary64) : x.numericEq x = !x.isNaN := by
  rw [numericEq, compare?, Bool.or_self, Std.ReflOrd.compare_self]
  cases x.isNaN <;> rfl

theorem Binary64.numericEq_trans {x y z : Binary64} (hxy : x.numericEq y = true)
    (hyz : y.numericEq z = true) : x.numericEq z = true := by
  rw [numericEq_comm] at hxy
  obtain ⟨hx, hyx⟩ := Value.signedUnits_of_numericEq hxy
  obtain ⟨hz, hyz⟩ := Value.signedUnits_of_numericEq hyz
  exact Value.numericEq_of_signedUnits hx hz (hyx.symm.trans hyz)

namespace Value

variable {u v w : Value}

def nanFree : Value → Bool
  | .real r => !r.isNaN
  | _ => true

theorem same_self (v : Value) : v.same v = v.nanFree := by
  cases v with
  | real r => exact r.numericEq_self
  | _ => simp [same, nanFree]

theorem same_comm (v w : Value) : v.same w = w.same v := by
  cases v with
  | real x =>
    cases w with
    | real y => exact x.numericEq_comm y
    | _ => rfl
  | _ => cases w <;> simp [same, eq_comm]

theorem same_cases (h : v.same w = true) :
    v = w ∨ ∃ x y, v = .real x ∧ w = .real y ∧ x.numericEq y = true := by
  cases v with
  | real x =>
    cases w with
    | real y => exact .inr ⟨x, y, rfl, rfl, h⟩
    | _ => cases h
  | _ => exact .inl (of_decide_eq_true (by simpa only [same] using h))

theorem same_trans (huv : u.same v = true) (hvw : v.same w = true) : u.same w = true := by
  rcases same_cases huv with rfl | ⟨x, y, rfl, rfl, hxy⟩
  · exact hvw
  · rcases same_cases hvw with rfl | ⟨_, z, ⟨⟩, rfl, hyz⟩
    · exact huv
    · exact Binary64.numericEq_trans hxy hyz

end Value

namespace SqlExpr

def nanFree : SqlExpr → Bool
  | .column _ _ | .parameter _ => true
  | .literal v => v.nanFree
  | .compare _ l r | .and l r | .or l r => nanFree l && nanFree r
  | .not e | .isNull e | .discriminator _ e => nanFree e

theorem same_self (e : SqlExpr) : e.same e = e.nanFree := by
  induction e with
  | literal v => exact v.same_self
  | _ => simp_all [same, nanFree]

theorem same_comm (e f : SqlExpr) : e.same f = f.same e := by
  induction e generalizing f with
  | column _ _ | parameter _ => cases f <;> simp [same, Bool.beq_comm]
  | literal v =>
    cases f with
    | literal w => exact v.same_comm w
    | _ => rfl
  | compare _ _ _ ihl ihr =>
    cases f with
    | compare _ l r => simp [same, ihl l, ihr r, eq_comm]
    | _ => rfl
  | and _ _ ihl ihr =>
    cases f with
    | and l r => rw [same, same, ihl, ihr]
    | _ => rfl
  | or _ _ ihl ihr =>
    cases f with
    | or l r => rw [same, same, ihl, ihr]
    | _ => rfl
  | not _ ih =>
    cases f with
    | not e => exact ih e
    | _ => rfl
  | isNull _ ih =>
    cases f with
    | isNull e => exact ih e
    | _ => rfl
  | discriminator _ _ ih =>
    cases f with
    | discriminator _ p => simp [same, ih p, eq_comm]
    | _ => rfl

theorem same_trans {e f g : SqlExpr} (hef : e.same f = true) (hfg : f.same g = true) :
    e.same g = true := by
  -- the cases are those of `same`: one for each constructor that both sides have, the last one for all others
  fun_induction same e f generalizing g with
  | case2 v w =>
    cases g with
    | literal u => exact Value.same_trans hef hfg
    | _ => cases hfg
  | case10 => cases hef
  | _ => cases g <;> first | cases hfg | simp_all [same]

theorem not_same_of_same {e f g : SqlExpr} (hef : e.same f = false) (heg : e.same g = true) :
    f.same g = false := by
  by_contra hfg
  rw [Bool.not_eq_false, same_comm] at hfg
  exact Bool.false_ne_true (hef.symm.trans (same_trans heg hfg))

end SqlExpr

namespace Select

variable {s s' : Select} {e : SqlExpr} {source : Option SourceId} {c d : ColumnEntry}

/-! ### One call -/

def projectedEntry (e : SqlExpr) (source : Option SourceId) : ColumnEntry :=
  { expr := e, label := none, projected := true, source := source }

theorem exists_append_of_findIdx? {α : Type} {p : α → Bool} {l : List α} {i : Nat}
    (h : l.findIdx? p = some i) :
    ∃ before a after, l = before ++ a :: after ∧ before.length = i ∧ p a = true := by
  obtain ⟨hi, hp, -⟩ := List.findIdx?_eq_some_iff_getElem.1 h
  refine ⟨l.take i, l[i], l.drop (i + 1), ?_, List.length_take_of_le hi.le, hp⟩
  rw [List.getElem_cons_drop, List.take_append_drop]

inductive Projecting (s : Select) (e : SqlExpr) (source : Option SourceId) : Nat × Select → Prop
  | again {before after : List ColumnEntry} {c : ColumnEntry} (hcolumns : s.columns = before ++ c :: after)
      (hsame : c.expr.same e = true) (hprojected : c.projected = true) :
      Projecting s e source ((before.filter (·.projected)).length, s)
  | promoted {before after : List ColumnEntry} {c : ColumnEntry} (hcolumns : s.columns = before ++ c :: after)
      (hsame : c.expr.same e = true) (hprojected : c.projected = false) :
      Projecting s e source
        (s.width, { s with columns := before ++ after ++ [projectedEntry e source] })
  | new (hnew : ∀ c ∈ s.columns, c.expr.same e = false) :
      Projecting s e source (s.width, { s with columns := s.columns ++ [projectedEntry e source] })

theorem projecting (s : Select) (e : SqlExpr) (source : Option SourceId) :
    s.Projecting e source (s.project e source) := by
  unfold project
  simp only
  split
  · rename_i hnone
    exact .new (List.findIdx?_eq_none_iff.1 hnone)
  · rename_i i hi
    obtain ⟨before, c, after, hcolumns, rfl, hsame⟩ := exists_append_of_findIdx? hi
    rw [hcolumns, List.getElem?_append_right (Nat.le_refl _), Nat.sub_self, List.getElem?_cons_zero,
      Option.map_some, Option.getD_some]
    cases hprojected : c.projected with
    | true =>
      rw [if_pos rfl, List.take_left]
      exact .again hcolumns hsame hprojected
    | false =>
      rw [if_neg Bool.false_ne_true, List.eraseIdx_append_of_length_le (Nat.le_refl _), Nat.sub_self,
        List.eraseIdx_zero, List.tail_cons]
      exact .promoted hcolumns hsame hprojected

/-- No two entries are for the same expression. -/
structure Tidy (s : Select) : Prop where
  apart : s.columns.Pairwise (fun c d => c.expr.same d.expr = false)
  nanFree : ∀ c ∈ s.columns, c.expr.nanFree = true

theorem Tidy.eq_of_same (h : s.Tidy) (hc : c ∈ s.columns) (hd : d ∈ s.columns)
    (hce : c.expr.same e = true) (hde : d.expr.same e = true) : c = d := by
  by_contra hne
  have hsymm : Std.Symm (fun c d : ColumnEntry => c.expr.same d.expr = false) :=
    ⟨fun c d hcd => by rwa [SqlExpr.same_comm]⟩
  have hapart := SqlExpr.not_same_of_same (h.apart.forall hc hd hne) hce
  exact Bool.false_ne_true (hapart.symm.trans hde)

theorem Tidy.not_same (h : s.Tidy) {before after : List ColumnEntry} (hcolumns : s.columns = before ++ c :: after)
    (hsame : c.expr.same e = true) (hd : d ∈ before ++ after) : d.expr.same e = false := by
  have hapart := h.apart
  rw [hcolumns, List.pairwise_middle (fun hcd => by rwa [SqlExpr.same_comm]), List.pairwise_cons] at hapart
  exact SqlExpr.not_same_of_same (hapart.1 d hd) hsame

theorem Tidy.append (h : s.Tidy) {columns : List ColumnEntry} (hsub : columns.Sublist s.columns)
    (hnew : ∀ d ∈ columns, d.expr.same c.expr = false) (hfree : c.expr.nanFree = true) :
    Tidy { s with columns := columns ++ [c] } where
  apart := List.pairwise_append.2 ⟨h.apart.sublist hsub, List.pairwise_singleton _ _, by simpa using hnew⟩
  nanFree d hd := by
    rcases List.mem_append.1 hd with hd | hd
    · exact h.nanFree d (hsub.subset hd)
    · rwa [List.mem_singleton.1 hd]

theorem Tidy.project (h : s.Tidy) (he : e.nanFree = true) : (s.project e source).2.Tidy := by
  have hprojecting := projecting s e source
  generalize s.project e source = result at hprojecting
  cases hprojecting with
  | again _ _ _ => exact h
  | promoted hcolumns hsame _ =>
    refine h.append ?_ (fun d hd => h.not_same hcolumns hsame hd) he
    rw [hcolumns]
    exact (List.sublist_cons_self _ _).append_left _
  | new hnew => exact h.append (List.Sublist.refl _) hnew he

theorem Tidy.project_again (h : s.Tidy) (source : Option SourceId) (hc : c ∈ s.projection)
    (hsame : c.expr.same e = true) :
    ∃ i, s.project e source = (i, s) ∧ s.projection[i]? = some c := by
  obtain ⟨hmem, hprojected⟩ := List.mem_filter.1 hc
  have hprojecting := projecting s e source
  generalize s.project e source = result at hprojecting
  cases hprojecting with
  | @again before after d hcolumns hsame' hprojected' =>
    obtain rfl := h.eq_of_same hmem (by simp [hcolumns]) hsame hsame'
    refine ⟨_, rfl, ?_⟩
    rw [projection, hcolumns, List.filter_append, List.filter_cons_of_pos hprojected',
      List.getElem?_append_right (Nat.le_refl _), Nat.sub_self, List.getElem?_cons_zero]
  | @promoted before after d hcolumns hsame' hprojected' =>
    -- the entry that would be promoted is the one that is projected already
    obtain rfl := h.eq_of_same hmem (by simp [hcolumns]) hsame hsame'
    exact absurd hprojected (Bool.eq_false_iff.1 hprojected')
  | new hnew => exact absurd hsame (Bool.eq_false_iff.1 (hnew c hmem))

theorem project_first (source : Option SourceId) (hnone : ∀ c ∈ s.projection, c.expr.same e = false) :
    (s.project e source).1 = s.width ∧
      (s.project e source).2.projection = s.projection ++ [projectedEntry e source] := by
  have hprojecting := projecting s e source
  generalize s.project e source = result at hprojecting
  cases hprojecting with
  | @again before after c hcolumns hsame hprojected =>
    have hc : c ∈ s.projection := List.mem_filter.2 ⟨by simp [hcolumns], hprojected⟩
    exact absurd hsame (Bool.eq_false_iff.1 (hnone c hc))
  | promoted hcolumns _ hprojected =>
    refine ⟨rfl, ?_⟩
    simp [projection, hcolumns, hprojected, projectedEntry]
  | new _ =>
    refine ⟨rfl, ?_⟩
    simp [projection, projectedEntry]

theorem Tidy.project_cases (h : s.Tidy) (e : SqlExpr) (source : Option SourceId) :
    (∃ i c, s.project e source = (i, s) ∧ s.projection[i]? = some c ∧ c.expr.same e = true) ∨
      (s.project e source).2.projection = s.projection ++ [projectedEntry e source] := by
  by_cases hfound : ∃ c ∈ s.projection, c.expr.same e = true
  · obtain ⟨c, hc, hsame⟩ := hfound
    obtain ⟨i, heq, hi⟩ := h.project_again source hc hsame
    exact .inl ⟨i, c, heq, hi, hsame⟩
  · simp only [not_exists, not_and, Bool.not_eq_true] at hfound
    exact .inr (project_first source hfound).2

theorem Tidy.addFilterColumn (h : s.Tidy) (he : e.nanFree = true) : (s.addFilterColumn e source).Tidy := by
  rw [Select.addFilterColumn]
  split
  · exact h
  · rename_i hnew
    refine h.append (List.Sublist.refl _) ?_ he
    simpa using hnew

theorem projection_addFilterColumn : (s.addFilterColumn e source).projection = s.projection := by
  rw [addFilterColumn]
  split
  · rfl
  · simp [projection]

theorem addFilterColumn_of_mem (hc : c ∈ s.projection) (hsame : c.expr.same e = true) :
    s.addFilterColumn e source = s :=
  if_pos (List.any_eq_true.2 ⟨c, (List.mem_filter.1 hc).1, hsame⟩)

/-! ### Sequences of calls -/

inductive ColumnCall
  | project (e : SqlExpr) (source : Option SourceId)
  | filter (e : SqlExpr) (source : Option SourceId)

def ColumnCall.expr : ColumnCall → SqlExpr
  | .project e _ | .filter e _ => e

def ColumnCall.perform (s : Select) : ColumnCall → Select
  | .project e source => (s.project e source).2
  | .filter e source => s.addFilterColumn e source

def ColumnCall.Projects (call : ColumnCall) (e : SqlExpr) : Prop :=
  ∃ f source, call = .project f source ∧ f.same e = true

def afterCalls (s : Select) (calls : List ColumnCall) : Select :=
  calls.foldl ColumnCall.perform { s with columns := [] }

/-- The one place of an expression in the result row. -/
def Placed (s : Select) (e : SqlExpr) (i : Nat) : Prop :=
  ∀ j, (∃ c, s.projection[j]? = some c ∧ c.expr.same e = true) ↔ j = i

variable {call : ColumnCall} {calls : List ColumnCall}

theorem afterCalls_concat : s.afterCalls (calls ++ [call]) = call.perform (s.afterCalls calls) := by
  rw [afterCalls, List.foldl_append]
  rfl

theorem Tidy.perform (h : s.Tidy) (hfree : call.expr.nanFree = true) : (call.perform s).Tidy := by
  cases call with
  | project e source => exact h.project hfree
  | filter e source => exact h.addFilterColumn hfree

theorem tidy_afterCalls (hfree : ∀ call ∈ calls, call.expr.nanFree = true) : (s.afterCalls calls).Tidy := by
  induction calls using List.reverseRecOn with
  | nil =>
    constructor
    case apart => exact List.Pairwise.nil
    case nanFree => simp [afterCalls]
  | append_singleton calls call ih =>
    rw [List.forall_mem_append, List.forall_mem_singleton] at hfree
    rw [afterCalls_concat]
    exact (ih hfree.1).perform hfree.2

theorem Tidy.prefix_perform (h : s.Tidy) : s.projection <+: (call.perform s).projection := by
  cases call with
  | project e source =>
    rw [ColumnCall.perform]
    rcases h.project_cases e source with ⟨i, c, heq, -⟩ | hfirst
    · rw [heq]
    · rw [hfirst]
      exact List.prefix_append _ _
  | filter e source => rw [ColumnCall.perform, projection_addFilterColumn]

theorem prefix_afterCalls (s : Select) (calls more : List ColumnCall)
    (hfree : ∀ call ∈ calls ++ more, call.expr.nanFree = true) :
    (s.afterCalls calls).projection <+: (s.afterCalls (calls ++ more)).projection := by
  induction more using List.reverseRecOn with
  | nil => rw [List.append_nil]
  | append_singleton more call ih =>
    rw [← List.append_assoc, List.forall_mem_append] at hfree
    rw [← List.append_assoc, afterCalls_concat]
    exact (ih hfree.1).trans (tidy_afterCalls hfree.1).prefix_perform

theorem exists_mem_projection_iff (hfree : ∀ call ∈ calls, call.expr.nanFree = true) :
    (∃ c ∈ (s.afterCalls calls).projection, c.expr.same e = true) ↔ ∃ call ∈ calls, call.Projects e := by
  induction calls using List.reverseRecOn with
  | nil => simp [afterCalls, projection]
  | append_singleton calls call ih =>
    rw [List.forall_mem_append] at hfree
    have htidy := tidy_afterCalls (s := s) hfree.1
    simp only [List.mem_append, List.mem_singleton, or_and_right, exists_or, exists_eq_left, ← ih hfree.1]
    rw [afterCalls_concat]
    cases call with
    | filter f source =>
      rw [ColumnCall.perform, projection_addFilterColumn]
      simp [ColumnCall.Projects]
    | project f source =>
      have hprojects : (ColumnCall.project f source).Projects e ↔ f.same e = true := by
        simp [ColumnCall.Projects]
      rw [hprojects, ColumnCall.perform]
      rcases htidy.project_cases f source with ⟨i, c, heq, hc, hcf⟩ | hfirst
      · rw [heq, or_iff_left_of_imp]
        intro hfe
        exact ⟨c, List.mem_of_getElem? hc, SqlExpr.same_trans hcf hfe⟩
      · rw [hfirst]
        simp [or_and_right, exists_or, projectedEntry]

theorem mem_projection_afterCalls (hfree : ∀ call ∈ calls, call.expr.nanFree = true)
    (hc : c ∈ (s.afterCalls calls).projection) :
    ∃ e source, .project e source ∈ calls ∧ c = projectedEntry e source := by
  induction calls using List.reverseRecOn with
  | nil => cases hc
  | append_singleton calls call ih =>
    rw [List.forall_mem_append] at hfree
    have htidy := tidy_afterCalls (s := s) hfree.1
    have hearlier : c ∈ (s.afterCalls calls).projection →
        ∃ e source, .project e source ∈ calls ++ [call] ∧ c = projectedEntry e source := by
      intro hc
      obtain ⟨e, source, hmem, heq⟩ := ih hfree.1 hc
      exact ⟨e, source, List.mem_append_left _ hmem, heq⟩
    rw [afterCalls_concat] at hc
    cases call with
    | filter f source =>
      rw [ColumnCall.perform, projection_addFilterColumn] at hc
      exact hearlier hc
    | project f source =>
      rw [ColumnCall.perform] at hc
      rcases htidy.project_cases f source with ⟨i, d, heq, -⟩ | hfirst
      · rw [heq] at hc
        exact hearlier hc
      · rw [hfirst] at hc
        rcases List.mem_append.1 hc with hc | hc
        · exact hearlier hc
        · exact ⟨f, source, List.mem_append_right _ List.mem_cons_self, List.mem_singleton.1 hc⟩

theorem Tidy.nodup_projection (h : s.Tidy) : s.projection.Nodup := by
  refine (h.apart.imp_of_mem ?_).filter _
  rintro c _ hc - hapart rfl
  rw [SqlExpr.same_self, h.nanFree c hc] at hapart
  cases hapart

theorem Tidy.placed (h : s.Tidy) {i : Nat} (hc : s.projection[i]? = some c) (hsame : c.expr.same e = true) :
    s.Placed e i := by
  have hmem : ∀ {j : Nat} {d : ColumnEntry}, s.projection[j]? = some d → d ∈ s.columns :=
    fun hd => (List.mem_filter.1 (List.mem_of_getElem? hd)).1
  intro j
  constructor
  · rintro ⟨d, hd, hde⟩
    obtain rfl := h.eq_of_same (hmem hc) (hmem hd) hsame hde
    obtain ⟨hj, -⟩ := List.getElem?_eq_some_iff.1 hd
    exact (List.getElem?_inj hj h.nodup_projection).1 (hd.trans hc.symm)
  · rintro rfl
    exact ⟨c, hc, hsame⟩

theorem Placed.mono {i : Nat} (h : s.Placed e i) (hgrows : s.projection <+: s'.projection) (hs' : s'.Tidy) :
    s'.Placed e i := by
  obtain ⟨c, hc, hsame⟩ := (h i).2 rfl
  obtain ⟨hi, -⟩ := List.getElem?_eq_some_iff.1 hc
  obtain ⟨after, hafter⟩ := hgrows
  refine hs'.placed ?_ hsame
  rw [← hafter, List.getElem?_append_left hi, hc]

theorem Tidy.placed_project (h : s.Tidy) (he : e.nanFree = true) :
    (s.project e source).2.Placed e (s.project e source).1 := by
  by_cases hfound : ∃ c ∈ s.projection, c.expr.same e = true
  · obtain ⟨c, hc, hsame⟩ := hfound
    obtain ⟨i, heq, hi⟩ := h.project_again source hc hsame
    rw [heq]
    exact h.placed hi hsame
  · simp only [not_exists, not_and, Bool.not_eq_true] at hfound
    obtain ⟨hindex, hprojection⟩ := project_first source hfound
    have hlast : (s.project e source).2.projection[(s.project e source).1]? = some (projectedEntry e source) := by
      rw [hindex, hprojection, width, List.getElem?_concat_length]
    exact (h.project he).placed hlast ((SqlExpr.same_self e).trans he)

theorem Tidy.perform_again (h : s.Tidy) (hfound : ∃ c ∈ s.projection, c.expr.same call.expr = true) :
    call.perform s = s := by
  obtain ⟨c, hc, hsame⟩ := hfound
  cases call with
  | project e source =>
    obtain ⟨i, heq, -⟩ := h.project_again (e := e) source hc hsame
    rw [ColumnCall.perform, heq]
  | filter e source => exact addFilterColumn_of_mem hc hsame

/-- In a statement that starts without columns no expression has two entries, and only what is projected
has a place in the row. With each call the row stays as it is, or it gets one entry more at its end: that of
an expression projected for the first time. The place that is returned is that of the expression from then
on. -/
theorem placed_afterCalls (s : Select) (calls : List ColumnCall)
    (hfree : ∀ call ∈ calls, call.expr.nanFree = true) :
    (s.afterCalls calls).columns.Pairwise (fun c d => c.expr.same d.expr = false) ∧
    (∀ c ∈ (s.afterCalls calls).projection,
      ∃ e source, .project e source ∈ calls ∧ c = projectedEntry e source) ∧
    ∀ before call after, calls = before ++ call :: after →
      (s.afterCalls before).projection <+: (s.afterCalls calls).projection ∧
      ((∃ c ∈ before, c.Projects call.expr) → call.perform (s.afterCalls before) = s.afterCalls before) ∧
      match call with
      | .filter e source =>
        ((s.afterCalls before).addFilterColumn e source).projection = (s.afterCalls before).projection
      | .project e source =>
        (s.afterCalls calls).Placed e ((s.afterCalls before).project e source).1 ∧
        ((¬∃ c ∈ before, c.Projects e) →
          ((s.afterCalls before).project e source).1 = (s.afterCalls before).width ∧
          ((s.afterCalls before).project e source).2.projection =
            (s.afterCalls before).projection ++ [projectedEntry e source]) := by
  have htidy := tidy_afterCalls (s := s) hfree
  refine ⟨htidy.apart, fun c hc => mem_projection_afterCalls hfree hc, ?_⟩
  rintro before call after rfl
  obtain ⟨hbefore, hlater⟩ := List.forall_mem_append.1 hfree
  have hcall := hlater call List.mem_cons_self
  have hearlier := tidy_afterCalls (s := s) hbefore
  refine ⟨prefix_afterCalls s _ _ hfree, ?_, ?_⟩
  · intro hprojects
    exact hearlier.perform_again ((exists_mem_projection_iff hbefore).2 hprojects)
  · cases call with
    | filter e source => exact projection_addFilterColumn
    | project e source =>
      constructor
      · refine (hearlier.placed_project hcall).mono ?_ htidy
        have hgrows := prefix_afterCalls s (before ++ [.project e source]) after (by simpa using hfree)
        rwa [afterCalls_concat, List.append_assoc] at hgrows
      · intro hnew
        apply project_first source
        rw [← exists_mem_projection_iff (s := s) hbefore] at hnew
        simpa using hnew

def shelf : TableRef := ⟨"Book", "t0", ⟨0⟩⟩

def shelfColumn (name : String) : SqlExpr := .column "t0" name

/-- The title serves the predicate before it is projected, and of the two zeros only one gets a place. -/
def shelfCalls : List ColumnCall :=
  [.filter (shelfColumn "Title") (some ⟨0⟩), .project (shelfColumn "Id") (some ⟨0⟩),
    .filter (shelfColumn "Year") (some ⟨0⟩), .project (shelfColumn "Title") (some ⟨0⟩),
    .project (.literal (.real ⟨0⟩)) none, .project (.literal (.real (.ofMagnitude true 0))) none]

theorem placed_afterCalls_shelf :
    (∀ call ∈ shelfCalls, call.expr.nanFree = true) ∧
      ((ofTable shelf).afterCalls shelfCalls).Placed (shelfColumn "Title") 1 ∧
      ((ofTable shelf).afterCalls shelfCalls).Placed (.literal (.real (.ofMagnitude true 0))) 2 ∧
      ((ofTable shelf).afterCalls shelfCalls).columns.map (·.expr) =
        [shelfColumn "Id", shelfColumn "Year", shelfColumn "Title", .literal (.real ⟨0⟩)] := by
  have hfree : ∀ call ∈ shelfCalls, call.expr.nanFree = true := by decide
  obtain ⟨-, -, hcalls⟩ := placed_afterCalls (ofTable shelf) shelfCalls hfree
  obtain ⟨-, -, htitle, -⟩ := hcalls (shelfCalls.take 3) _ (shelfCalls.drop 4) rfl
  obtain ⟨-, -, hzero, -⟩ := hcalls (shelfCalls.take 5) _ (shelfCalls.drop 6) rfl
  exact ⟨hfree, htitle, hzero, rfl⟩

end Select

end EntityStore
