import EntityStore.Proofs.Number.Numeral
import EntityStore.Proofs.Sql.Definition

/-!
# Parts of a select statement

A select statement is put together from parts that end where a blank, a comma or a closing bracket
follows. Each part is scanned by itself, so the placeholders of the whole are those of its parts in
order. Names and literals have none, whatever characters they are made of.
-/

namespace EntityStore.Sql.Lexeme

variable {cs rest : List Char} {c : Char} {l : Lexeme} {ls : List Lexeme} {m n after : List Nat}

/-- A text that is scanned, with the numbers of its placeholders. -/
def Scanned (cs : List Char) (numbers : List Nat) : Prop :=
  ∃ ls, Scans cs ls ∧ ls.filterMap placeholderNumber? = numbers

theorem scanned_nil : Scanned [] [] := ⟨[], scans_nil, rfl⟩

theorem Scanned.blank (h : Scanned rest after) : Scanned (' ' :: rest) after := by
  obtain ⟨ls, hscans, hnumbers⟩ := h
  exact ⟨ls, hscans.blank, hnumbers⟩

theorem Scanned.cons (h : Scanned rest after) (hblank : c.isWhitespace = false)
    (hnext : next? (c :: cs) = some (l, rest)) (hlength : rest.length ≤ cs.length)
    (hplain : l.placeholderNumber? = none) : Scanned (c :: cs) after := by
  obtain ⟨ls, hscans, hnumbers⟩ := h
  refine ⟨l :: ls, hscans.cons hblank hnext hlength, ?_⟩
  rw [List.filterMap_cons_none hplain, hnumbers]

theorem Scanned.scan_eq {text : String} (h : Scanned text.toList n) :
    (scan text).map (List.filterMap placeholderNumber?) = some n := by
  obtain ⟨ls, hscans, rfl⟩ := h
  rw [hscans.scan_eq, Option.map_some]

/-! ### Parts -/

/-- The characters before which no part of a statement ends. -/
def runsOn (c : Char) : Bool := !(c == ' ' || c == ',' || c == ')')

theorem runsOn_eq_false_iff : runsOn c = false ↔ c = ' ' ∨ c = ',' ∨ c = ')' := by
  simp only [runsOn, Bool.not_eq_false', Bool.or_eq_true, beq_iff_eq, or_assoc]

theorem stopsAt_of_runsOn {p : Char → Bool} (hblank : p ' ' = false) (hcomma : p ',' = false)
    (hclose : p ')' = false) (h : Text.StopsAt runsOn rest) : Text.StopsAt p rest := by
  intro c hc
  rcases runsOn_eq_false_iff.1 (h c hc) with rfl | rfl | rfl
  · exact hblank
  · exact hcomma
  · exact hclose

/-- A part of a statement with the numbers of its placeholders. -/
def Places (text : String) (numbers : List Nat) : Prop :=
  ∀ rest after, Text.StopsAt runsOn rest → Scanned rest after → Scanned (text.toList ++ rest) (numbers ++ after)

def Opens (text : String) : Prop := ∀ rest after, Scanned rest after → Scanned (text.toList ++ rest) after

structure Follows (text : String) (numbers : List Nat) : Prop where
  places : Places text numbers
  stops : ∀ rest, Text.StopsAt runsOn rest → Text.StopsAt runsOn (text.toList ++ rest)

structure Joins (text : String) : Prop where
  opens : Opens text
  stops : ∀ rest, Text.StopsAt runsOn (text.toList ++ rest)

variable {a b sep : String}

theorem Opens.places (ha : Opens a) (hb : Places b n) : Places (a ++ b) n := by
  intro rest after hstop hrest
  rw [String.toList_append, List.append_assoc]
  exact ha _ _ (hb _ _ hstop hrest)

theorem Places.append (ha : Places a m) (hb : Follows b n) : Places (a ++ b) (m ++ n) := by
  intro rest after hstop hrest
  rw [String.toList_append, List.append_assoc, List.append_assoc]
  exact ha _ _ (hb.stops rest hstop) (hb.places _ _ hstop hrest)

theorem Joins.follows (ha : Joins a) (hb : Places b n) : Follows (a ++ b) n where
  places := ha.opens.places hb
  stops := by
    intro rest _
    rw [String.toList_append, List.append_assoc]
    exact ha.stops _

theorem Joins.follows_self (ha : Joins a) : Follows a [] where
  places := fun rest after _ hrest => ha.opens rest after hrest
  stops := fun rest _ => ha.stops rest

theorem follows_empty : Follows "" [] where
  places := fun _ _ _ hrest => hrest
  stops := fun _ hstop => hstop

theorem Follows.append (ha : Follows a m) (hb : Follows b n) : Follows (a ++ b) (m ++ n) where
  places := ha.places.append hb
  stops := by
    intro rest hstop
    rw [String.toList_append, List.append_assoc]
    exact ha.stops _ (hb.stops rest hstop)

theorem Fills.places {text : String} (h : Fills text ls) : Places text (ls.filterMap placeholderNumber?) := by
  rintro rest after hstop ⟨ls', hscans, rfl⟩
  have hcontinues : Text.StopsAt continues? rest := stopsAt_of_runsOn rfl rfl rfl hstop
  exact ⟨ls ++ ls', h rest ls' hcontinues hscans, List.filterMap_append⟩

theorem places_intercalate {α : Type} {text : α → String} {numbers : α → List Nat} (hsep : Joins sep)
    {items : List α} (hne : items ≠ []) (hitem : ∀ i, Places (text i) (numbers i)) :
    Places (sep.intercalate (items.map text)) (items.flatMap numbers) := by
  induction items with
  | nil => exact absurd rfl hne
  | cons i items ih =>
    cases items with
    | nil => simpa using hitem i
    | cons j items =>
      have hitems := hsep.follows (ih (List.cons_ne_nil j items))
      have hplaces := (hitem i).append hitems
      rw [List.map_cons, List.map_cons, String.intercalate_cons_cons, List.flatMap_cons, String.append_assoc]
      exact hplaces

theorem follows_join {α : Type} {text : α → String} {numbers : α → List Nat}
    (hitem : ∀ i, Follows (text i) (numbers i)) (items : List α) :
    Follows (String.join (items.map text)) (items.flatMap numbers) := by
  induction items with
  | nil => exact follows_empty
  | cons i items ih =>
    have hfollows := (hitem i).append ih
    rw [List.map_cons, String.join_cons, List.flatMap_cons]
    exact hfollows

/-! ### Words and symbols -/

def isKeyword (w : String) : Bool :=
  w.toList.all isWordChar && w.toList.head?.any (fun c => !c.isDigit && c != 'X')

theorem next?_letter (hletter : isWordChar c = true) (hdigit : c.isDigit = false) (hblob : c ≠ 'X') (cs : List Char) :
    next? (c :: cs) = some (.word (String.ofList ((c :: cs).span isWordChar).1), ((c :: cs).span isWordChar).2) := by
  unfold next?
  split
  case h_8 heq =>
    cases heq
    simp [hdigit, hletter]
  case h_3 heq =>
    cases heq
    exact absurd rfl hblob
  case h_9 heq => cases heq
  -- what is left starts with a quote or a symbol
  all_goals
    rename_i heq
    cases heq
    cases hletter

theorem isWhitespace_of_isWordChar (h : isWordChar c = true) : c.isWhitespace = false := by
  by_contra hblank
  simp only [Char.isWhitespace, Bool.not_eq_false, Bool.or_eq_true, decide_eq_true_eq] at hblank
  rcases hblank with ((rfl | rfl) | rfl) | rfl <;> cases h

theorem singleWord_of_isKeyword {w : String} (h : isKeyword w = true) : SingleWord w := by
  obtain ⟨hletters, hfirst⟩ := Bool.and_eq_true_iff.1 h
  refine ⟨?_, hletters⟩
  cases hw : w.toList with
  | nil =>
    rw [hw] at hfirst
    cases hfirst
  | cons c cs =>
    rw [hw, List.all_cons, Bool.and_eq_true] at hletters
    simp only [hw, List.head?_cons, Option.any_some, Bool.and_eq_true, Bool.not_eq_true', bne_iff_ne] at hfirst
    exact ⟨c, cs, rfl, isWhitespace_of_isWordChar hletters.1, next?_letter hletters.1 hfirst.1 hfirst.2⟩

theorem Scanned.word {w : String} (h : Scanned rest after) (hword : isKeyword w = true)
    (hstop : Text.StopsAt isWordChar rest) : Scanned (w.toList ++ rest) after := by
  obtain ⟨ls, hscans, hnumbers⟩ := h
  exact ⟨.word w :: ls, (singleWord_of_isKeyword hword).scans hstop hscans, hnumbers⟩

theorem Scanned.words (h : Scanned rest after) {words : List String}
    (hwords : words.all isKeyword = true) :
    Scanned (words.flatMap (fun w => w.toList ++ [' ']) ++ rest) after := by
  induction words with
  | nil => exact h
  | cons w words ih =>
    obtain ⟨hw, hwords⟩ := Bool.and_eq_true_iff.1 hwords
    rw [List.flatMap_cons, List.append_assoc, List.append_assoc]
    exact (ih hwords).blank.word hw (Text.stopsAt_cons.2 rfl)

theorem opens_words {text : String} (words : List String) (hwords : words.all isKeyword = true)
    (htext : text.toList = words.flatMap (fun w => w.toList ++ [' '])) : Opens text := by
  intro rest after hrest
  rw [htext]
  exact hrest.words hwords

theorem joins_words {text : String} (words : List String) (hwords : words.all isKeyword = true)
    (htext : text.toList = ' ' :: words.flatMap (fun w => w.toList ++ [' '])) : Joins text where
  opens := by
    intro rest after hrest
    rw [htext]
    exact (hrest.words hwords).blank
  stops := by
    intro rest
    rw [htext]
    exact Text.stopsAt_cons.2 rfl

theorem places_word {text : String} (h : isKeyword text = true) : Places text [] :=
  fun _ _ hstop hrest => hrest.word h (stopsAt_of_runsOn rfl rfl rfl hstop)

theorem opens_bracket : Opens "(" := fun _ _ hrest => hrest.cons rfl rfl le_rfl rfl

theorem joins_bracket : Joins ")" where
  opens := fun _ _ hrest => hrest.cons rfl rfl le_rfl rfl
  stops := fun _ => Text.stopsAt_cons.2 rfl

theorem Places.group (ha : Places a m) (hsep : Joins sep) (hb : Places b n) :
    Places ("(" ++ a ++ sep ++ b ++ ")") (m ++ n) := by
  have hplaces := opens_bracket.places (ha.append (hsep.follows (hb.append joins_bracket.follows_self)))
  simpa only [String.append_assoc, List.append_nil] using hplaces

theorem joins_comma : Joins ", " where
  opens := fun _ _ hrest => hrest.blank.cons rfl rfl (by simp) rfl
  stops := fun _ => Text.stopsAt_cons.2 rfl

theorem joins_operator (op : CompareOp) : Joins (" " ++ op.symbol ++ " ") := by
  cases op <;> exact ⟨fun _ _ hrest => (hrest.blank.cons rfl rfl (by simp) rfl).blank, fun _ => Text.stopsAt_cons.2 rfl⟩

/-! ### Literals -/

theorem next?_digit (h : c.isDigit = true) (cs : List Char) :
    next? (c :: cs) = (number? (c :: cs)).map (fun (v, rest) => (.value v, rest)) := by
  unfold next?
  split
  case h_8 heq =>
    cases heq
    rw [if_pos h]
  case h_9 heq => cases heq
  all_goals
    rename_i heq
    cases heq
    cases h

theorem number?_append (h : Numeral cs) (hrest : Text.StopsAt Json.Token.extendsNumber rest) :
    ∃ v, number? (cs ++ rest) = some (v, rest) := by
  obtain ⟨whole, fraction, exponent, tail, tail', hne, hrun, hfraction, hexponent⟩ := h.read_append hrest
  simp only [number?, hrun, List.isEmpty_iff, hne, if_false, hfraction, hexponent, Option.bind_eq_bind,
    Option.bind_some]
  split
  · exact ⟨_, rfl⟩
  · exact ⟨_, rfl⟩

theorem Scanned.numeral (h : Scanned rest after) (hnumeral : Numeral cs)
    (hstop : Text.StopsAt Json.Token.extendsNumber rest) : Scanned (cs ++ rest) after := by
  obtain ⟨v, hread⟩ := number?_append hnumeral hstop
  obtain ⟨c, cs, rfl, hc⟩ := hnumeral.exists_head
  have hnext := next?_digit hc (cs ++ rest)
  rw [← List.cons_append, hread, Option.map_some] at hnext
  have hlength : rest.length ≤ (cs ++ rest).length := by
    rw [List.length_append]
    exact Nat.le_add_left _ _
  exact h.cons (isWhitespace_of_isWordChar (by simp [isWordChar, Char.isAlphanum, hc])) hnext hlength rfl

theorem Scanned.minus (h : Scanned rest after) : Scanned ('-' :: rest) after := h.cons rfl rfl le_rfl rfl

theorem places_numeral {text : String} (negative : Bool) (h : Numeral cs)
    (htext : text.toList = (if negative then ['-'] else []) ++ cs) : Places text [] := by
  intro rest after hstop hrest
  have hscanned := hrest.numeral h (stopsAt_of_runsOn rfl rfl rfl hstop)
  rw [htext, List.append_assoc]
  cases negative with
  | false => exact hscanned
  | true => exact hscanned.minus

theorem places_toString (k : Nat) : Places (toString k) [] := by
  apply places_numeral false (digits_toDigits k).numeral
  rw [Nat.toString_eq_ofList_toDigits, String.toList_ofList]
  rfl

theorem places_integer (i : Int) : Places (toString i) [] := by
  apply places_numeral (decide (i < 0)) (digits_toDigits i.natAbs).numeral
  rw [toList_toString_int, Json.renderInt]
  simp

theorem places_real (r : Binary64) : Places (Layout.faithful.render r) [] := by
  by_cases hfinite : r.isFinite = true
  · exact places_numeral r.isNegative (Layout.faithful.numeral_body r) (Layout.faithful.toList_render hfinite)
  · rw [Layout.render]
    split
    · exact places_word rfl
    · split
      · intro rest after hstop hrest
        have hinfinity : isKeyword "inf" = true := rfl
        exact (hrest.word hinfinity (stopsAt_of_runsOn rfl rfl rfl hstop)).minus
      · exact places_word rfl

theorem places_text (s : String) : Places (literal (.text s)) [] := by
  intro rest after hstop hrest
  have hquote : rest.head? ≠ some '\'' := by
    intro heq
    cases hstop '\'' heq
  have hnext : next? ('\'' :: ((doubleQuote '\'' s).toList ++ '\'' :: rest)) =
      some (.value (.text (String.ofList s.toList)), rest) := by
    rw [toList_doubleQuote, next?, quoted?_doubled '\'' s.toList hquote, Option.map_some]
  rw [toList_literal_text]
  apply hrest.cons rfl hnext _ rfl
  simp only [List.length_append, List.length_cons]
  omega

theorem hexValue?_upperHex : ∀ k < 16, Json.Token.hexValue? (upperHex k) = some k := by decide

theorem hexBytes?_append (bytes : List UInt8) (rest : List Char) :
    ∃ bytes', hexBytes? (bytes.flatMap hexByte ++ '\'' :: rest) = some (bytes', rest) := by
  induction bytes with
  | nil => exact ⟨[], rfl⟩
  | cons b bytes ih =>
    obtain ⟨bytes', hread⟩ := ih
    have hb := b.toNat_lt
    have hhigh := hexValue?_upperHex (b.toNat / 16) (by omega)
    have hlow := hexValue?_upperHex (b.toNat % 16) (Nat.mod_lt _ (by decide))
    rw [← upperHex_mod] at hlow
    have hquote := upperHex_ne_quote (b.toNat / 16) (by omega)
    simp only [List.flatMap_cons, hexByte, List.cons_append, List.nil_append]
    rw [hexBytes?]
    · simp only [hhigh, hlow, hread, Option.bind_eq_bind, Option.bind_some, Option.pure_def]
      exact ⟨_, rfl⟩
    · exact hquote

theorem places_blob (bytes : List UInt8) : Places (literal (.blob bytes)) [] := by
  intro rest after _ hrest
  obtain ⟨bytes', hread⟩ := hexBytes?_append bytes rest
  have hnext : next? ('X' :: '\'' :: (bytes.flatMap hexByte ++ '\'' :: rest)) =
      some (.value (.blob bytes'), rest) := by
    rw [next?, hread, Option.map_some]
  rw [toList_literal_blob]
  apply hrest.cons rfl hnext _ rfl
  simp only [List.length_append, List.length_cons]
  omega

theorem places_literal (v : Value) : Places (literal v) [] := by
  cases v with
  | null => exact places_word rfl
  | bool b =>
    cases b with
    | false => exact places_toString 0
    | true => exact places_toString 1
  | integer i => exact places_integer i.toInt
  | real r => exact places_real r
  | text s => exact places_text s
  | blob bytes => exact places_blob bytes

theorem places_identifier (name : String) : Places (identifier name) [] := (spells_identifier name).fills.places

theorem places_placeholder (k : Nat) : Places (Sql.placeholder k) [k] := (spells_placeholder k).fills.places

end EntityStore.Sql.Lexeme
