import EntityStore.Proofs.Sql.Modification
import EntityStore.Sql.Definition

/-!
# Table definitions read back

A table definition is written as its columns, its key and its references, separated by commas and in
brackets. The text is read back as the definition as long as no list of columns in it is empty.
-/

namespace EntityStore.Sql

open Lexeme Reader

variable {α : Type} {rest : List Char} {ls : List Lexeme}

/-! ### The text -/

def Reader.TablePart.text : TablePart → String
  | .column c => identifier c.name ++ " " ++ c.type ++ (if c.notNull then " NOT NULL" else "")
  | .key columns => "PRIMARY KEY (" ++ Schema.identifierList columns ++ ")"
  | .reference r => "FOREIGN KEY (" ++ Schema.identifierList r.columns ++ ") REFERENCES " ++
      identifier r.table ++ " (" ++ Schema.identifierList r.target ++ ")"

def TableDefinition.parts (d : TableDefinition) : List TablePart :=
  d.columns.map .column ++ .key d.key :: d.references.map .reference

def TableDefinition.text (d : TableDefinition) : String :=
  "CREATE TABLE IF NOT EXISTS " ++ identifier d.name ++ " (" ++
    commaSeparated (d.parts.map TablePart.text) ++ ")"

/-- Every column has a type of values, and every list of columns names some. -/
def Reader.TablePart.Complete : TablePart → Prop
  | .column c => ∃ type : ValueType, c.type = type.columnType
  | .key columns => columns ≠ []
  | .reference r => r.columns ≠ [] ∧ r.target ≠ []

/-! ### The lexemes -/

namespace Lexeme

structure SingleWord (w : String) : Prop where
  starts : ∃ c cs, w.toList = c :: cs ∧ c.isWhitespace = false ∧
    ∀ text, next? (c :: text) = some (.word (String.ofList ((c :: text).span isWordChar).1),
      ((c :: text).span isWordChar).2)
  letters : w.toList.all isWordChar = true

theorem singleWord_columnType (type : ValueType) : SingleWord type.columnType := by
  cases type <;> exact ⟨⟨_, _, rfl, rfl, fun _ => rfl⟩, rfl⟩

theorem singleWord_not : SingleWord "NOT" := ⟨⟨_, _, rfl, rfl, fun _ => rfl⟩, rfl⟩

theorem singleWord_null : SingleWord "NULL" := ⟨⟨_, _, rfl, rfl, fun _ => rfl⟩, rfl⟩

theorem SingleWord.scans {w : String} (hw : SingleWord w) (hstop : Text.StopsAt isWordChar rest) (h : Scans rest ls) :
    Scans (w.toList ++ rest) (.word w :: ls) := by
  obtain ⟨c, cs, heq, hblank, hnext⟩ := hw.starts
  have hletters := hw.letters
  rw [heq] at hletters
  have hspan : (c :: (cs ++ rest)).span isWordChar = (c :: cs, rest) :=
    Text.span_append (List.all_eq_true.1 hletters) hstop
  have hword : String.ofList (c :: cs) = w := by rw [← heq, String.ofList_toList]
  rw [heq, List.cons_append]
  apply h.cons hblank
  · rw [hnext, hspan, hword]
  · rw [List.length_append]
    exact Nat.le_add_left _ _

def continues? (c : Char) : Bool := c == '"' || isWordChar c

/-- A part of a text that is scanned to some lexemes where a word may end, as the type of a column does. -/
def Fills (text : String) (ls : List Lexeme) : Prop :=
  ∀ rest ls', Text.StopsAt continues? rest → Scans rest ls' → Scans (text.toList ++ rest) (ls ++ ls')

theorem stopsAt_extends? (h : Text.StopsAt continues? rest) : Text.StopsAt extends? rest := by
  intro c hc
  have hstop := h c hc
  simp only [continues?, isWordChar, Char.isAlphanum, Bool.or_eq_false_iff] at hstop
  exact Bool.or_eq_false_iff.2 ⟨hstop.1, hstop.2.1.2⟩

theorem stopsAt_isWordChar (h : Text.StopsAt continues? rest) : Text.StopsAt isWordChar rest :=
  fun c hc => (Bool.or_eq_false_iff.1 (h c hc)).2

theorem Spells.fills {text : String} (h : Spells text ls) : Fills text ls :=
  fun rest ls' hstop hrest => h rest ls' (stopsAt_extends? hstop) hrest

variable {a b : String} {la lb : List Lexeme}

theorem Fills.append (ha : Fills a la) (hb : Fills b lb)
    (hstart : ∀ rest, Text.StopsAt continues? (b.toList ++ rest)) : Fills (a ++ b) (la ++ lb) := by
  intro rest ls' hstop hrest
  rw [String.toList_append, List.append_assoc, List.append_assoc]
  exact ha _ _ (hstart rest) (hb rest ls' hstop hrest)

theorem Fills.append_leads (ha : Fills a la) (hb : Leads b lb)
    (hstart : ∀ rest, Text.StopsAt continues? (b.toList ++ rest)) : Leads (a ++ b) (la ++ lb) := by
  intro rest ls' hrest
  rw [String.toList_append, List.append_assoc, List.append_assoc]
  exact ha _ _ (hstart rest) (hb rest ls' hrest)

theorem Leads.append_fills (ha : Leads a la) (hb : Fills b lb) : Fills (a ++ b) (la ++ lb) := by
  intro rest ls' hstop hrest
  rw [String.toList_append, List.append_assoc, List.append_assoc]
  exact ha _ _ (hb rest ls' hstop hrest)

theorem SingleWord.fills {w : String} (hw : SingleWord w) : Fills w [.word w] :=
  fun _ _ hstop hrest => hw.scans (stopsAt_isWordChar hstop) hrest

theorem fills_intercalate {text : α → String} {lex : α → List Lexeme} {items : List α} (hne : items ≠ [])
    (hitem : ∀ i ∈ items, Fills (text i) (lex i)) :
    Fills (", ".intercalate (items.map text)) ([.symbol ","].intercalate (items.map lex)) := by
  induction items with
  | nil => exact absurd rfl hne
  | cons i items ih =>
    obtain ⟨hi, hitems⟩ := List.forall_mem_cons.1 hitem
    cases items with
    | nil => simpa using hi
    | cons j items =>
      have hitems := ih (List.cons_ne_nil j items) hitems
      simp only [List.map_cons] at hitems ⊢
      rw [String.intercalate_cons_cons, List.intercalate_cons_cons]
      exact (hi.append_leads separates_comma.leads (fun _ => Text.stopsAt_cons.2 rfl)).append_fills hitems

theorem separates_blank : Separates " " [] where
  leads := fun _ _ hrest => hrest.blank
  stops := fun _ => Text.stopsAt_cons.2 rfl

theorem leads_createTable : Leads "CREATE TABLE IF NOT EXISTS "
    [.word "CREATE", .word "TABLE", .word "IF", .word "NOT", .word "EXISTS"] := by
  intro rest ls' hrest
  have hexists : Scans ("EXISTS ".toList ++ rest) (.word "EXISTS" :: ls') := hrest.blank.cons rfl rfl (by simp)
  have hnot : Scans ("NOT EXISTS ".toList ++ rest) (.word "NOT" :: .word "EXISTS" :: ls') :=
    hexists.blank.cons rfl rfl (by simp)
  have hif : Scans ("IF NOT EXISTS ".toList ++ rest) (.word "IF" :: .word "NOT" :: .word "EXISTS" :: ls') :=
    hnot.blank.cons rfl rfl (by simp)
  have htable : Scans ("TABLE IF NOT EXISTS ".toList ++ rest)
      (.word "TABLE" :: .word "IF" :: .word "NOT" :: .word "EXISTS" :: ls') := hif.blank.cons rfl rfl (by simp)
  exact htable.blank.cons rfl rfl (by simp)

theorem leads_key : Leads "KEY (" [.word "KEY", .symbol "("] := by
  intro rest ls' hrest
  have hopen : Scans ('(' :: rest) (.symbol "(" :: ls') := hrest.cons rfl rfl (Nat.le_refl _)
  exact hopen.blank.cons rfl rfl (by simp)

theorem leads_primaryKey : Leads "PRIMARY KEY (" [.word "PRIMARY", .word "KEY", .symbol "("] :=
  fun rest ls' hrest => (leads_key rest ls' hrest).blank.cons rfl rfl (by simp)

theorem leads_foreignKey : Leads "FOREIGN KEY (" [.word "FOREIGN", .word "KEY", .symbol "("] :=
  fun rest ls' hrest => (leads_key rest ls' hrest).blank.cons rfl rfl (by simp)

theorem separates_references : Separates ") REFERENCES " [.symbol ")", .word "REFERENCES"] where
  leads := by
    intro rest ls' hrest
    have hreferences : Scans ("REFERENCES ".toList ++ rest) (.word "REFERENCES" :: ls') :=
      hrest.blank.cons rfl rfl (by simp)
    exact hreferences.blank.cons rfl rfl (by simp)
  stops := fun _ => Text.stopsAt_cons.2 rfl

end Lexeme

def names (columns : List String) : List Lexeme := [.symbol ","].intercalate (columns.map (fun c => [.name c]))

def Reader.TablePart.lexemes : TablePart → List Lexeme
  | .column c => [.name c.name, .word c.type] ++ if c.notNull then [.word "NOT", .word "NULL"] else []
  | .key columns => [.word "PRIMARY", .word "KEY", .symbol "("] ++ names columns ++ [.symbol ")"]
  | .reference r => [.word "FOREIGN", .word "KEY", .symbol "("] ++ names r.columns ++
      [.symbol ")", .word "REFERENCES"] ++ [.name r.table] ++ [.symbol "("] ++ names r.target ++ [.symbol ")"]

def TableDefinition.lexemes (d : TableDefinition) : List Lexeme :=
  [.word "CREATE", .word "TABLE", .word "IF", .word "NOT", .word "EXISTS"] ++ [.name d.name] ++
    [.symbol "("] ++ [.symbol ","].intercalate (d.parts.map TablePart.lexemes) ++ [.symbol ")"]

theorem spells_names {columns : List String} (h : columns ≠ []) :
    Spells (Schema.identifierList columns) (names columns) :=
  spells_intercalate spells_identifier separates_comma h

theorem fills_notNull : Fills " NOT NULL" [.word "NOT", .word "NULL"] := by
  intro rest ls' hstop hrest
  have hnull := (singleWord_null.scans (stopsAt_isWordChar hstop) hrest).blank
  exact (singleWord_not.scans (Text.stopsAt_cons.2 rfl) hnull).blank

theorem fills_column {c : ColumnDefinition} {type : ValueType} (htype : c.type = type.columnType) :
    Fills (TablePart.text (.column c)) (TablePart.lexemes (.column c)) := by
  obtain ⟨name, _, notNull⟩ := c
  subst htype
  have hcolumn := ((spells_identifier name).append_leads separates_blank).append_fills
    (singleWord_columnType type).fills
  cases notNull with
  | false =>
    rw [← String.append_empty (s := identifier name ++ " " ++ type.columnType)] at hcolumn
    exact hcolumn
  | true =>
    have hnotNull := hcolumn.append fills_notNull (fun _ => Text.stopsAt_cons.2 rfl)
    exact hnotNull

theorem leads_keyPart {columns : List String} (h : columns ≠ []) :
    Leads (TablePart.text (.key columns)) (TablePart.lexemes (.key columns)) :=
  (leads_primaryKey.append_spells (spells_names h)).append_leads separates_close

theorem leads_reference {r : Reference} (h : r.columns ≠ []) (htarget : r.target ≠ []) :
    Leads (TablePart.text (.reference r)) (TablePart.lexemes (.reference r)) :=
  ((((leads_foreignKey.append_spells (spells_names h)).append_leads separates_references).append_spells
    (spells_identifier r.table)).append_leads separates_open |>.append_spells
    (spells_names htarget)).append_leads separates_close

theorem Reader.TablePart.Complete.fills {p : TablePart} (h : p.Complete) : Fills p.text p.lexemes := by
  cases p with
  | column c =>
    obtain ⟨type, htype⟩ := h
    exact fills_column htype
  | key columns => exact (leads_keyPart h).spells.fills
  | reference r => exact (leads_reference h.1 h.2).spells.fills

namespace TableDefinition

variable {d : TableDefinition}

def Complete (d : TableDefinition) : Prop := ∀ p ∈ d.parts, p.Complete

theorem parts_ne_nil (d : TableDefinition) : d.parts ≠ [] := by simp [parts]

theorem Complete.leads (h : d.Complete) : Leads d.text d.lexemes := by
  have hparts := fills_intercalate d.parts_ne_nil (fun p hp => (h p hp).fills)
  have hstart := (leads_createTable.append_spells (spells_identifier d.name)).append_leads separates_open
  exact (hstart.append_fills hparts).append_leads separates_close.leads (fun _ => Text.stopsAt_cons.2 rfl)

end TableDefinition

/-! ### The statement -/

namespace Reader

variable {p : TablePart} {following : List Lexeme}

def StartsWithSymbol (ls : List Lexeme) : Prop := ∃ t tail, ls = .symbol t :: tail

theorem parenthesised_names {columns : List String} (hne : columns ≠ []) (ls : List Lexeme) :
    parenthesised (commaList name) (.symbol "(" :: (names columns ++ .symbol ")" :: ls)) = some (columns, ls) :=
  parenthesised_eq (commaList_names hne ls)

theorem tablePart_lexemes (h : p.Complete) (hfollowing : StartsWithSymbol following) :
    tablePart (p.lexemes ++ following) = some (p, following) := by
  cases p with
  | column c =>
    obtain ⟨name, type, notNull⟩ := c
    obtain ⟨t, tail, rfl⟩ := hfollowing
    cases notNull with
    | false => rfl
    | true => rfl
  | key columns =>
    have hread := parenthesised_names h following
    simp only [TablePart.lexemes, List.append_assoc, List.cons_append, List.nil_append, tablePart, hread,
      Option.bind_eq_bind, Option.bind_some, Option.pure_def]
  | reference r =>
    have htarget := parenthesised_names h.2 following
    have hread := parenthesised_names h.1 (.word "REFERENCES" :: .name r.table :: .symbol "(" ::
      (names r.target ++ .symbol ")" :: following))
    simp only [TablePart.lexemes, List.append_assoc, List.cons_append, List.nil_append, tablePart, hread, htarget,
      word, name, if_true, Option.bind_eq_bind, Option.bind_some, Option.pure_def]

theorem commaList_parts {parts : List TablePart} (hne : parts ≠ []) (h : ∀ p ∈ parts, p.Complete)
    (ls : List Lexeme) :
    commaList tablePart ([.symbol ","].intercalate (parts.map TablePart.lexemes) ++ .symbol ")" :: ls) =
      some (parts, .symbol ")" :: ls) := by
  -- the reader of a part is followed on complete parts only
  have hread : commaList tablePart ([.symbol ","].intercalate
      ((parts.attachWith _ h).map (fun p => p.1.lexemes)) ++ .symbol ")" :: ls) =
      some ((parts.attachWith _ h).map Subtype.val, .symbol ")" :: ls) :=
    commaList_intercalate StartsWithSymbol (fun p _ hls => tablePart_lexemes p.2 hls)
      (fun ls => ⟨",", ls, rfl⟩) ⟨")", ls, rfl⟩ rfl (by simpa using hne)
  rwa [List.attachWith_map_val, List.attachWith_map_subtype_val] at hread

theorem foldl_addTo_columns (columns : List ColumnDefinition) (d : TableDefinition) :
    (columns.map TablePart.column).foldl TablePart.addTo d = { d with columns := d.columns ++ columns } := by
  induction columns generalizing d with
  | nil => rw [List.append_nil]; rfl
  | cons c columns ih =>
    rw [List.map_cons, List.foldl_cons, ih, TablePart.addTo, List.append_assoc]
    rfl

theorem foldl_addTo_references (references : List Reference) (d : TableDefinition) :
    (references.map TablePart.reference).foldl TablePart.addTo d =
      { d with references := d.references ++ references } := by
  induction references generalizing d with
  | nil => rw [List.append_nil]; rfl
  | cons r references ih =>
    rw [List.map_cons, List.foldl_cons, ih, TablePart.addTo, List.append_assoc]
    rfl

theorem foldl_addTo_parts (d : TableDefinition) :
    d.parts.foldl TablePart.addTo ⟨d.name, [], [], []⟩ = d := by
  rw [TableDefinition.parts, List.foldl_append, foldl_addTo_columns, List.foldl_cons, TablePart.addTo,
    foldl_addTo_references]
  rfl

end Reader

/-- The text of a complete definition is read as the definition. -/
theorem TableDefinition.Complete.read_text {d : TableDefinition} (h : d.Complete) :
    Statement.ofText? d.text = some (.createTable d) := by
  have hparts := Reader.parenthesised_eq (Reader.commaList_parts d.parts_ne_nil h [])
  have hlexemes : d.lexemes = .word "CREATE" :: .word "TABLE" :: .word "IF" :: .word "NOT" :: .word "EXISTS" ::
      .name d.name :: .symbol "(" ::
      ([.symbol ","].intercalate (d.parts.map Reader.TablePart.lexemes) ++ [.symbol ")"]) := by
    simp [TableDefinition.lexemes]
  rw [Statement.ofText?, h.leads.spells.scan_eq, hlexemes]
  simp only [Option.bind_eq_bind, Option.bind_some, Reader.statement, Reader.createTable, Reader.words,
    Reader.word, if_true, Reader.name, hparts, Reader.foldl_addTo_parts, Option.pure_def]

end EntityStore.Sql
