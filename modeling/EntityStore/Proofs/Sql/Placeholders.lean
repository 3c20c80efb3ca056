import Mathlib.Data.List.Induction
import EntityStore.Proofs.Sql.Scanning

/-!
# Placeholders of select statements

The names of the parameters of a statement are collected in the order of its text, each at its first
occurrence, and every occurrence is written as the number of its name. So the placeholders that are
read in the text are those of the parameters, one for each occurrence.
-/

namespace EntityStore

open Sql Lexeme

/-! ### Names -/

namespace Sql

variable {n : String} {names before : List String}

theorem distinct_concat (names : List String) (n : String) :
    distinct (names ++ [n]) = if n ∈ distinct names then distinct names else distinct names ++ [n] := by
  rw [distinct, distinct, List.foldl_append, List.foldl_cons, List.foldl_nil]
  generalize names.foldl (fun seen n => if seen.contains n then seen else n :: seen) [] = seen
  by_cases hn : n ∈ seen <;> simp [hn]

theorem mem_distinct_iff : n ∈ distinct names ↔ n ∈ names := by
  induction names using List.reverseRecOn with
  | nil => rfl
  | append_singleton names m ih =>
    rw [distinct_concat, List.mem_append, List.mem_singleton, ← ih]
    split
    · next hm =>
      rw [or_iff_left_of_imp]
      rintro rfl
      exact hm
    · rw [List.mem_append, List.mem_singleton]

theorem nodup_distinct (names : List String) : (distinct names).Nodup := by
  induction names using List.reverseRecOn with
  | nil => exact List.nodup_nil
  | append_singleton names m ih =>
    rw [distinct_concat]
    split
    · exact ih
    · next hm =>
      rw [← List.concat_eq_append]
      exact ih.concat hm

theorem distinct_prefix (before after : List String) : distinct before <+: distinct (before ++ after) := by
  induction after using List.reverseRecOn with
  | nil => rw [List.append_nil]
  | append_singleton after m ih =>
    rw [← List.append_assoc, distinct_concat]
    split
    · exact ih
    · exact ih.trans (List.prefix_append _ _)

theorem pairwise_distinct (names : List String) :
    (distinct names).Pairwise (fun p q => names.idxOf p < names.idxOf q) := by
  induction names using List.reverseRecOn with
  | nil => exact List.Pairwise.nil
  | append_singleton names m ih =>
    have hkeeps : ∀ p ∈ distinct names, (names ++ [m]).idxOf p = names.idxOf p :=
      fun p hp => List.idxOf_append_of_mem (mem_distinct_iff.1 hp)
    have hordered : (distinct names).Pairwise (fun p q => (names ++ [m]).idxOf p < (names ++ [m]).idxOf q) := by
      apply ih.imp_of_mem
      intro p q hp hq hlt
      rwa [hkeeps p hp, hkeeps q hq]
    rw [distinct_concat]
    split
    · exact hordered
    · next hm =>
      refine List.pairwise_append.2 ⟨hordered, List.pairwise_singleton _ _, ?_⟩
      intro p hp q hq
      obtain rfl := List.mem_singleton.1 hq
      rw [hkeeps p hp, List.idxOf_append_of_notMem (mem_distinct_iff.not.1 hm)]
      exact Nat.lt_add_right _ (List.idxOf_lt_length_iff.2 (mem_distinct_iff.1 hp))

def numbers (names parameters : List String) : List Nat := parameters.map (fun p => names.idxOf p + 1)

theorem numbers_append (names parameters more : List String) :
    numbers names (parameters ++ more) = numbers names parameters ++ numbers names more := List.map_append

theorem numbers_flatMap {α : Type} (names : List String) (items : List α) (parameters : α → List String) :
    numbers names (items.flatMap parameters) = items.flatMap (fun i => numbers names (parameters i)) :=
  List.map_flatMap

end Sql

/-! ### Texts -/

theorem SqlExpr.places_render (names : List String) (e : SqlExpr) :
    Places (e.render names) (numbers names e.parameters) := by
  have hand : Joins " AND " := joins_words ["AND"] rfl rfl
  have hor : Joins " OR " := joins_words ["OR"] rfl rfl
  induction e with
  | column t c =>
    have hpoint : Separates "." [.symbol "."] :=
      ⟨fun _ _ hrest => hrest.cons rfl rfl le_rfl, fun _ => Text.stopsAt_cons.2 rfl⟩
    exact (((spells_identifier t).append_leads hpoint).append_spells (spells_identifier c)).fills.places
  | literal v => exact places_literal v
  | parameter name => exact places_placeholder _
  | compare op l r ihl ihr =>
    have hplaces := ihl.append ((joins_operator op).follows ihr)
    rw [parameters, numbers_append]
    simpa only [render, String.append_assoc] using hplaces
  | and l r ihl ihr =>
    rw [parameters, numbers_append]
    exact ihl.group hand ihr
  | or l r ihl ihr =>
    rw [parameters, numbers_append]
    exact ihl.group hor ihr
  | not e ih =>
    have hwords : ["NOT"].all isKeyword = true := rfl
    have hnot : Opens "NOT (" := fun rest after hrest => (opens_bracket rest after hrest).words hwords
    have hplaces := hnot.places (ih.append joins_bracket.follows_self)
    simpa only [render, parameters, String.append_assoc, List.append_nil] using hplaces
  | isNull e ih =>
    have his : Joins " IS " := joins_words ["IS"] rfl rfl
    have hword : Places "NULL" [] := places_word rfl
    have hnull : Follows " IS NULL" [] := his.follows hword
    have hplaces := ih.append hnull
    simpa only [render, parameters, List.append_nil] using hplaces
  | discriminator source e ih => exact ih

namespace Select

/-- The parameters of a statement, as often as they stand in its text and in this order. A column that
serves the predicate only is neither written nor evaluated, so it counts for nothing. -/
def occurrences (s : Select) : List String := s.expressions.flatMap SqlExpr.parameters

theorem places_columns (names : List String) (s : Select) : Places (renderColumns names s)
    (numbers names (s.projection.flatMap (·.expr.parameters))) := by
  have hcolumn : ∀ c : ColumnEntry, Places (renderColumn names c) (numbers names c.expr.parameters) := by
    rintro ⟨expr, label, projected, source⟩
    have has : Joins " AS " := joins_words ["AS"] rfl rfl
    have hexpr := expr.places_render names
    rw [← List.append_nil (numbers names expr.parameters)]
    cases label with
    | none => exact hexpr.append follows_empty
    | some label => exact hexpr.append (has.follows (places_identifier label))
  unfold renderColumns
  rw [numbers_flatMap]
  split
  · next hnone =>
    rw [hnone]
    exact places_toString 1
  · next hsome => exact places_intercalate joins_comma hsome hcolumn

theorem places_table (t : TableRef) : Places (renderTable t) [] := by
  have has : Joins " AS " := joins_words ["AS"] rfl rfl
  have hplaces := (places_identifier t.table).append (has.follows (places_identifier t.label))
  simpa only [renderTable, String.append_assoc, List.append_nil] using hplaces

theorem follows_join (names : List String) (j : TableJoin) :
    Follows (renderJoin names j) (numbers names j.condition.parameters) := by
  have hjoin : Joins " INNER JOIN " := joins_words ["INNER", "JOIN"] rfl rfl
  have hon : Joins " ON " := joins_words ["ON"] rfl rfl
  have hfollows := hjoin.follows ((places_table j.table).append (hon.follows (j.condition.places_render names)))
  simp only [← String.append_assoc, List.nil_append] at hfollows
  exact hfollows

theorem follows_predicate (names : List String) (predicate : Option SqlExpr) :
    Follows (match predicate with | some p => " WHERE " ++ p.render names | none => "")
      (numbers names (predicate.toList.flatMap SqlExpr.parameters)) := by
  have hwhere : Joins " WHERE " := joins_words ["WHERE"] rfl rfl
  cases predicate with
  | none => exact follows_empty
  | some p =>
    rw [Option.toList_some, List.flatMap_singleton]
    exact hwhere.follows (p.places_render names)

theorem follows_orderBy (names : List String) (orderBy : List SqlOrder) :
    Follows (renderOrderBy names orderBy) (numbers names (orderBy.flatMap (·.expr.parameters))) := by
  have horder : Joins " ORDER BY " := joins_words ["ORDER", "BY"] rfl rfl
  have hterm : ∀ o : SqlOrder, Places (renderOrder names o) (numbers names o.expr.parameters) := by
    intro o
    have hdirection : Follows (if o.direction = .descending then " DESC" else "") [] := by
      split
      · have hblank : Joins " " := joins_words [] rfl rfl
        have hdescending : Places "DESC" [] := places_word rfl
        exact hblank.follows hdescending
      · exact follows_empty
    have hplaces := (o.expr.places_render names).append hdirection
    rwa [List.append_nil] at hplaces
  unfold renderOrderBy
  rw [numbers_flatMap]
  split
  · exact follows_empty
  · next hsome => exact horder.follows (places_intercalate joins_comma hsome hterm)

theorem follows_page (limit offset : Option UInt64) : Follows (renderPage limit offset) [] := by
  have hlimit : Joins " LIMIT " := joins_words ["LIMIT"] rfl rfl
  have hoffset : Joins " OFFSET " := joins_words ["OFFSET"] rfl rfl
  cases limit with
  | some limit =>
    cases offset with
    | some offset =>
      have hfollows := hlimit.follows ((places_toString limit.toNat).append
        (hoffset.follows (places_toString offset.toNat)))
      rw [← String.append_assoc, ← String.append_assoc] at hfollows
      exact hfollows
    | none => exact hlimit.follows (places_toString limit.toNat)
  | none =>
    cases offset with
    | some offset =>
      have hnone : Places "-1" [] := places_numeral true (digits_singleton rfl).numeral rfl
      have hfollows := hlimit.follows (hnone.append (hoffset.follows (places_toString offset.toNat)))
      simp only [← String.append_assoc, String.reduceAppend] at hfollows
      exact hfollows
    | none => exact follows_empty

theorem places_text (s : Select) : Places s.render.text (numbers s.parameterNames s.occurrences) := by
  have hselect : Opens "SELECT " := opens_words ["SELECT"] rfl rfl
  have hfrom : Joins " FROM " := joins_words ["FROM"] rfl rfl
  have hoccurrences : s.occurrences = s.projection.flatMap (·.expr.parameters) ++
      (s.joins.flatMap (·.condition.parameters) ++ (s.predicate.toList.flatMap SqlExpr.parameters ++
        s.orderBy.flatMap (·.expr.parameters))) := by
    simp only [occurrences, expressions, List.flatMap_append, List.flatMap_map, List.append_assoc]
  have hjoins := Lexeme.follows_join (follows_join s.parameterNames) s.joins
  have hplaces := hselect.places ((places_columns s.parameterNames s).append
    ((hfrom.follows (places_table s.source)).append (hjoins.append
      ((follows_predicate s.parameterNames s.predicate).append
        ((follows_orderBy s.parameterNames s.orderBy).append (follows_page s.limit s.offset))))))
  rw [hoccurrences, numbers_append, numbers_append, numbers_append, numbers_flatMap _ s.joins]
  simp only [← String.append_assoc, List.nil_append, List.append_nil] at hplaces
  exact hplaces

end Select

end EntityStore
