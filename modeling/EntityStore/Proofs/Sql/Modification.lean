import EntityStore.Proofs.Sql.Lexing
import EntityStore.Sql.Modification
import EntityStore.Sql.Reader

/-!
# Modifications read back

The text of an insert, an update or a delete is read back as the statement that gives every column a
placeholder of its own, and the placeholders are numbered in the order of the text.
-/

namespace EntityStore.Sql

open Lexeme

def Lexeme.placeholderNumber? : Lexeme → Option Nat
  | .placeholder n => some n
  | _ => none

variable {α β : Type} {table : String} {columns keyColumns : List String}

/-! ### The lexemes -/

def equation (a : String × Nat) : List Lexeme := [.name a.1, .symbol "=", .placeholder a.2]

def binding (a : String × Nat) : Assignment := (a.1, .parameter (toString a.2))

def insertLexemes (table : String) (columns : List String) : List Lexeme :=
  [.word "INSERT", .word "INTO"] ++ [.name table] ++ [.symbol "("] ++
    [.symbol ","].intercalate (columns.map (fun c => [.name c])) ++
    [.symbol ")", .word "VALUES", .symbol "("] ++
    [.symbol ","].intercalate ((List.range' 1 columns.length).map (fun n => [.placeholder n])) ++ [.symbol ")"]

def updateLexemes (table : String) (columns keyColumns : List String) : List Lexeme :=
  [.word "UPDATE"] ++ [.name table] ++ [.word "SET"] ++
    [.symbol ","].intercalate ((columns.zipIdx 1).map equation) ++ [.word "WHERE"] ++
    [.word "AND"].intercalate ((keyColumns.zipIdx (columns.length + 1)).map equation)

def deleteLexemes (table : String) (keyColumns : List String) : List Lexeme :=
  [.word "DELETE", .word "FROM"] ++ [.name table] ++ [.word "WHERE"] ++
    [.word "AND"].intercalate ((keyColumns.zipIdx 1).map equation)

theorem spells_equation (a : String × Nat) :
    Spells (identifier a.1 ++ " = " ++ placeholder a.2) (equation a) :=
  ((spells_identifier a.1).append_leads separates_equals).append_spells (spells_placeholder a.2)

theorem assignments_eq (columns : List String) (start : Nat) :
    assignments columns start =
      (columns.zipIdx start).map (fun a => identifier a.1 ++ " = " ++ placeholder a.2) := by
  rw [assignments, List.mapIdx_eq_zipIdx_map, List.zipIdx_eq_map_add (i := start), List.map_map]
  simp [Function.comp_def]

theorem placeholders_eq (start count : Nat) :
    placeholders start count = (List.range' start count).map placeholder := by
  rw [placeholders, List.range'_eq_map_range, List.map_map]
  rfl

theorem zipIdx_ne_nil (h : columns ≠ []) (start : Nat) : columns.zipIdx start ≠ [] := by
  simpa using h

theorem spells_insert (h : columns ≠ []) : Spells (insert table columns) (insertLexemes table columns) := by
  have hnames := spells_intercalate spells_identifier separates_comma h
  have hcount : List.range' 1 columns.length ≠ [] := by simpa using h
  have hvalues := spells_intercalate spells_placeholder separates_comma hcount
  rw [← placeholders_eq] at hvalues
  have hstart := leads_insertInto.append_spells (spells_identifier table)
  exact ((((hstart.append_leads separates_open).append_spells hnames).append_leads
    separates_values).append_spells hvalues).append_leads separates_close |>.spells

theorem spells_update (h : columns ≠ []) (hkey : keyColumns ≠ []) :
    Spells (update table columns keyColumns) (updateLexemes table columns keyColumns) := by
  have hset := spells_intercalate spells_equation separates_comma (zipIdx_ne_nil h 1)
  have hwhere := spells_intercalate spells_equation separates_and (zipIdx_ne_nil hkey (columns.length + 1))
  rw [← assignments_eq] at hset hwhere
  have hstart := leads_update.append_spells (spells_identifier table)
  exact (((hstart.append_leads separates_set).append_spells hset).append_leads
    separates_where).append_spells hwhere

theorem spells_delete (hkey : keyColumns ≠ []) :
    Spells (delete table keyColumns) (deleteLexemes table keyColumns) := by
  have hwhere := spells_intercalate spells_equation separates_and (zipIdx_ne_nil hkey 1)
  rw [← assignments_eq] at hwhere
  have hstart := leads_deleteFrom.append_spells (spells_identifier table)
  exact (hstart.append_leads separates_where).append_spells hwhere

/-! ### The placeholders -/

theorem filterMap_intercalate {f : α → Option β} {sep : α} (hsep : f sep = none) (parts : List (List α)) :
    ([sep].intercalate parts).filterMap f = parts.flatMap (List.filterMap f) := by
  induction parts with
  | nil => rfl
  | cons part parts ih =>
    cases parts with
    | nil => simp
    | cons next parts =>
      rw [List.intercalate_cons_cons, List.filterMap_append, List.filterMap_append, ih]
      simp [hsep]

theorem numbers_equations (sep : Lexeme) (hsep : sep.placeholderNumber? = none) (columns : List String) (start : Nat) :
    ([sep].intercalate ((columns.zipIdx start).map equation)).filterMap placeholderNumber? =
      List.range' start columns.length := by
  rw [filterMap_intercalate hsep, List.flatMap_map, ← List.zipIdx_map_snd start columns]
  induction columns.zipIdx start with
  | nil => rfl
  | cons a rest ih =>
    rw [List.flatMap_cons, ih]
    rfl

theorem numbers_names (names : List String) :
    ([.symbol ","].intercalate (names.map (fun c => [.name c]))).filterMap placeholderNumber? = [] := by
  rw [filterMap_intercalate rfl, List.flatMap_map]
  exact List.flatMap_eq_nil_iff.2 (fun _ _ => rfl)

theorem numbers_placeholders (numbers : List Nat) :
    ([.symbol ","].intercalate (numbers.map (fun n => [.placeholder n]))).filterMap placeholderNumber? =
      numbers := by
  rw [filterMap_intercalate rfl, List.flatMap_map]
  exact List.flatMap_singleton' numbers

theorem numbers_insert (table : String) (columns : List String) :
    (insertLexemes table columns).filterMap placeholderNumber? = List.range' 1 columns.length := by
  simp only [insertLexemes, List.filterMap_append, numbers_names, numbers_placeholders]
  exact List.append_nil _

theorem numbers_update (table : String) (columns keyColumns : List String) :
    (updateLexemes table columns keyColumns).filterMap placeholderNumber? =
      List.range' 1 (columns.length + keyColumns.length) := by
  have hword : ∀ w, [Lexeme.word w].filterMap placeholderNumber? = [] := fun _ => rfl
  have hname : [Lexeme.name table].filterMap placeholderNumber? = [] := rfl
  have hrange := List.range'_append_1 (s := 1) (m := columns.length) (n := keyColumns.length)
  simp only [updateLexemes, List.filterMap_append, numbers_equations (.symbol ",") rfl,
    numbers_equations (.word "AND") rfl, hword, hname, List.nil_append, List.append_nil]
  rw [← hrange, Nat.add_comm 1]

theorem numbers_delete (table : String) (keyColumns : List String) :
    (deleteLexemes table keyColumns).filterMap placeholderNumber? = List.range' 1 keyColumns.length := by
  simp only [deleteLexemes, List.filterMap_append, numbers_equations (.word "AND") rfl]
  rfl

/-! ### The statements -/

namespace Reader

structure Closes (rest : List Lexeme) : Prop where
  size : sizeOperator? rest = none
  equality : equalityOperator? rest = none
  and : word "AND" rest = none
  or : word "OR" rest = none

section

variable {rest : List Lexeme}

theorem expression_size_placeholder (fuel n : Nat) (h : sizeOperator? rest = none) :
    expression (fuel + 2) .size (.placeholder n :: rest) = some (.parameter (toString n), rest) := by
  have hopen : symbol "(" (.placeholder n :: rest) = none := rfl
  have hatom : atom? (.placeholder n :: rest) = some (.parameter (toString n), rest) := rfl
  simp only [expression, expression.more, hopen, hatom, h, Option.bind_eq_bind, Option.bind_some]

theorem expression_placeholder (fuel n : Nat) (h : Closes rest) :
    expression (fuel + 6) .or (.placeholder n :: rest) = some (.parameter (toString n), rest) := by
  have hnot : word "NOT" (.placeholder n :: rest) = none := rfl
  have hopen : symbol "(" (.placeholder n :: rest) = none := rfl
  have hatom : atom? (.placeholder n :: rest) = some (.parameter (toString n), rest) := rfl
  simp only [expression, expression.more, hnot, hopen, hatom, h.size, h.equality, h.and, h.or,
    Option.bind_eq_bind, Option.bind_some]

theorem expr_placeholder (n : Nat) (h : Closes rest) :
    expr (.placeholder n :: rest) = some (.parameter (toString n), rest) :=
  expression_placeholder (6 * (rest.length + 1)) n h

theorem assignment_equation (a : String × Nat) (h : sizeOperator? rest = none) :
    assignment (equation a ++ rest) = some ((a.1, .parameter (toString a.2)), rest) := by
  have hvalue := expression_size_placeholder (6 * (rest.length + 1) + 4) a.2 h
  simp only [equation, List.cons_append, List.nil_append, assignment, name, symbol, if_true, List.length_cons,
    Option.bind_eq_bind, Option.bind_some, hvalue, Option.pure_def]

theorem length_le_intercalate (sep : Lexeme) (parts : List (List Lexeme)) :
    parts.length ≤ ([sep].intercalate parts).length + 1 := by
  induction parts with
  | nil => exact Nat.zero_le _
  | cons part parts ih =>
    cases parts with
    | nil => simp
    | cons next parts =>
      rw [List.intercalate_cons_cons, List.length_append, List.length_append, List.length_cons,
        List.length_singleton]
      omega

theorem intercalate_cons_append (sep : Lexeme) (lex : α → List Lexeme) (a b : α) (items : List α)
    (rest : List Lexeme) :
    [sep].intercalate ((a :: b :: items).map lex) ++ rest =
      lex a ++ sep :: ([sep].intercalate ((b :: items).map lex) ++ rest) := by
  simp

theorem separated_intercalate {sep : String} {item : Reader β} {lex : α → List Lexeme} {read : α → β}
    (Follows : List Lexeme → Prop) (hitem : ∀ a ls, Follows ls → item (lex a ++ ls) = some (read a, ls))
    (hsep : ∀ ls, Follows (.symbol sep :: ls)) (hrest : Follows rest) (hstop : symbol sep rest = none)
    {items : List α} (hne : items ≠ []) {fuel : Nat} (hfuel : items.length ≤ fuel) :
    separated sep item fuel ([.symbol sep].intercalate (items.map lex) ++ rest) =
      some (items.map read, rest) := by
  have hsymbol : ∀ ls, symbol sep (.symbol sep :: ls) = some ((), ls) := fun ls => if_pos rfl
  induction items generalizing fuel with
  | nil => exact absurd rfl hne
  | cons a items ih =>
    obtain ⟨fuel, rfl⟩ := Nat.exists_eq_succ_of_ne_zero (Nat.ne_of_gt (Nat.zero_lt_of_lt hfuel))
    cases items with
    | nil =>
      have ha := hitem a rest hrest
      simp only [List.map_cons, List.map_nil, List.intercalate_singleton, separated, ha, hstop,
        Option.bind_eq_bind, Option.bind_some, Option.pure_def]
    | cons b items =>
      have ih := ih (List.cons_ne_nil b items) (Nat.le_of_succ_le_succ hfuel)
      have ha := hitem a _ (hsep ([.symbol sep].intercalate ((b :: items).map lex) ++ rest))
      rw [intercalate_cons_append]
      simp only [separated, ha, hsymbol, ih, Option.bind_eq_bind, Option.bind_some, Option.pure_def]
      rfl

theorem commaList_intercalate {item : Reader β} {lex : α → List Lexeme} {read : α → β}
    (Follows : List Lexeme → Prop) (hitem : ∀ a ls, Follows ls → item (lex a ++ ls) = some (read a, ls))
    (hsep : ∀ ls, Follows (.symbol "," :: ls)) (hrest : Follows rest) (hstop : symbol "," rest = none)
    {items : List α} (hne : items ≠ []) :
    commaList item ([.symbol ","].intercalate (items.map lex) ++ rest) = some (items.map read, rest) := by
  apply separated_intercalate Follows hitem hsep hrest hstop hne
  have hlength := length_le_intercalate (.symbol ",") (items.map lex)
  rw [List.length_map] at hlength
  rw [List.length_append]
  omega

theorem conditionsWith_equations {conditions : List (String × Nat)} (hne : conditions ≠ []) {fuel : Nat}
    (hfuel : conditions.length ≤ fuel) :
    conditionsWith fuel ([.word "AND"].intercalate (conditions.map equation)) =
      some (conditions.map binding, []) := by
  have hword : ∀ ls, word "AND" (.word "AND" :: ls) = some ((), ls) := fun _ => rfl
  induction conditions generalizing fuel with
  | nil => exact absurd rfl hne
  | cons a conditions ih =>
    obtain ⟨fuel, rfl⟩ := Nat.exists_eq_succ_of_ne_zero (Nat.ne_of_gt (Nat.zero_lt_of_lt hfuel))
    cases conditions with
    | nil =>
      have ha : assignment (equation a) = some (binding a, []) := assignment_equation a rfl
      have hstop : word "AND" [] = none := rfl
      simp only [List.map_cons, List.map_nil, List.intercalate_singleton, conditionsWith, ha, hstop,
        Option.bind_eq_bind, Option.bind_some, Option.pure_def]
    | cons b conditions =>
      have ih := ih (List.cons_ne_nil b conditions) (Nat.le_of_succ_le_succ hfuel)
      let rest : List Lexeme := .word "AND" :: [.word "AND"].intercalate ((b :: conditions).map equation)
      have ha : assignment (equation a ++ rest) = some (binding a, rest) := assignment_equation a rfl
      have hcons := intercalate_cons_append (.word "AND") equation a b conditions []
      rw [List.append_nil, List.append_nil] at hcons
      rw [hcons]
      simp only [conditionsWith, rest, ha, hword, ih, Option.bind_eq_bind, Option.bind_some, Option.pure_def]
      rfl

theorem conditions_equations {items : List (String × Nat)} (hne : items ≠ []) :
    conditions ([.word "AND"].intercalate (items.map equation)) = some (items.map binding, []) := by
  apply conditionsWith_equations hne
  have hlength := length_le_intercalate (.word "AND") (items.map equation)
  rwa [List.length_map] at hlength

theorem parenthesised_eq {inner : Reader α} {ls : List Lexeme} {a : α}
    (h : inner ls = some (a, .symbol ")" :: rest)) : parenthesised inner (.symbol "(" :: ls) = some (a, rest) := by
  have hopen : symbol "(" (.symbol "(" :: ls) = some ((), ls) := rfl
  have hclose : symbol ")" (.symbol ")" :: rest) = some ((), rest) := rfl
  simp only [parenthesised, hopen, h, hclose, Option.bind_eq_bind, Option.bind_some, Option.pure_def]

theorem closes_comma (ls : List Lexeme) : Closes (.symbol "," :: ls) := ⟨rfl, rfl, rfl, rfl⟩

theorem closes_close (ls : List Lexeme) : Closes (.symbol ")" :: ls) := ⟨rfl, rfl, rfl, rfl⟩

theorem commaList_names {names : List String} (hne : names ≠ []) (ls : List Lexeme) :
    commaList name ([.symbol ","].intercalate (names.map (fun c => [.name c])) ++ .symbol ")" :: ls) =
      some (names, .symbol ")" :: ls) := by
  have hread : commaList name ([.symbol ","].intercalate (names.map (fun c => [.name c])) ++ .symbol ")" :: ls) =
      some (names.map (fun c => c), .symbol ")" :: ls) :=
    commaList_intercalate (fun _ => True) (fun _ _ _ => rfl) (fun _ => trivial) trivial rfl hne
  rwa [List.map_id'] at hread

theorem commaList_placeholders {numbers : List Nat} (hne : numbers ≠ []) (ls : List Lexeme) :
    commaList expr ([.symbol ","].intercalate (numbers.map (fun n => [.placeholder n])) ++ .symbol ")" :: ls) =
      some (numbers.map (fun n => .parameter (toString n)), .symbol ")" :: ls) :=
  commaList_intercalate Closes (fun n _ h => expr_placeholder n h) closes_comma (closes_close ls) rfl hne

theorem commaList_equations {items : List (String × Nat)} (hne : items ≠ []) (ls : List Lexeme) :
    commaList assignment ([.symbol ","].intercalate (items.map equation) ++ .word "WHERE" :: ls) =
      some (items.map binding, .word "WHERE" :: ls) :=
  commaList_intercalate (fun ls => sizeOperator? ls = none) (fun a _ h => assignment_equation a h)
    (fun _ => rfl) rfl rfl hne

end

end Reader

theorem ofText?_insert (h : columns ≠ []) :
    Statement.ofText? (insert table columns) =
      some (.insert table columns ((List.range' 1 columns.length).map (fun n => .parameter (toString n)))) := by
  have hcount : List.range' 1 columns.length ≠ [] := by simpa using h
  have hvalues := Reader.parenthesised_eq (Reader.commaList_placeholders hcount [])
  have hnames := Reader.parenthesised_eq (Reader.commaList_names h
    (.word "VALUES" :: .symbol "(" :: ([.symbol ","].intercalate
      ((List.range' 1 columns.length).map (fun n => [.placeholder n])) ++ [.symbol ")"])))
  have hlexemes : insertLexemes table columns = .word "INSERT" :: .word "INTO" :: .name table :: .symbol "(" ::
      ([.symbol ","].intercalate (columns.map (fun c => [.name c])) ++ .symbol ")" :: .word "VALUES" ::
        .symbol "(" :: ([.symbol ","].intercalate
          ((List.range' 1 columns.length).map (fun n => [.placeholder n])) ++ [.symbol ")"])) := by
    simp [insertLexemes]
  rw [Statement.ofText?, (spells_insert h).scan_eq, hlexemes]
  simp only [Option.bind_eq_bind, Option.bind_some, Reader.statement, Reader.insert, Reader.word, if_true,
    Reader.name, hnames, hvalues, Option.pure_def]

theorem ofText?_update (h : columns ≠ []) (hkey : keyColumns ≠ []) :
    Statement.ofText? (update table columns keyColumns) =
      some (.update table ((columns.zipIdx 1).map binding)
        ((keyColumns.zipIdx (columns.length + 1)).map binding)) := by
  let conditions := [Lexeme.word "AND"].intercalate ((keyColumns.zipIdx (columns.length + 1)).map equation)
  have hset := Reader.commaList_equations (zipIdx_ne_nil h 1) conditions
  have hwhere := Reader.conditions_equations (zipIdx_ne_nil hkey (columns.length + 1))
  have hlexemes : updateLexemes table columns keyColumns = .word "UPDATE" :: .name table :: .word "SET" ::
      ([.symbol ","].intercalate ((columns.zipIdx 1).map equation) ++ .word "WHERE" :: conditions) := by
    simp [updateLexemes, conditions]
  rw [Statement.ofText?, (spells_update h hkey).scan_eq, hlexemes]
  simp only [Option.bind_eq_bind, Option.bind_some, Reader.statement, Reader.update, Reader.word, if_true,
    Reader.name, hset, hwhere, conditions, Option.pure_def]

theorem ofText?_delete (hkey : keyColumns ≠ []) :
    Statement.ofText? (delete table keyColumns) =
      some (.delete table ((keyColumns.zipIdx 1).map binding)) := by
  have hwhere := Reader.conditions_equations (zipIdx_ne_nil hkey 1)
  have hlexemes : deleteLexemes table keyColumns = .word "DELETE" :: .word "FROM" :: .name table ::
      .word "WHERE" :: [Lexeme.word "AND"].intercalate ((keyColumns.zipIdx 1).map equation) := by
    simp [deleteLexemes]
  rw [Statement.ofText?, (spells_delete hkey).scan_eq, hlexemes]
  simp only [Option.bind_eq_bind, Option.bind_some, Reader.statement, Reader.delete, Reader.word, if_true,
    Reader.name, hwhere, Option.pure_def]

end EntityStore.Sql
