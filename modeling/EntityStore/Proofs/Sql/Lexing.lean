import EntityStore.Proofs.Sql.Literal
import EntityStore.Sql.Lexeme

/-!
# Lexemes of statements

What identifiers, placeholders, words and lists of them scan to. Where a quoted name or a number ends
is decided by what follows it, so the scanner is followed along the text together with all that comes
after.
-/

namespace EntityStore.Sql.Lexeme

variable {cs rest : List Char} {c : Char} {l : Lexeme} {ls : List Lexeme}

/-- The lexemes of a text, whatever fuel above its length they are found with. -/
def Scans (cs : List Char) (ls : List Lexeme) : Prop := ∀ n, cs.length < n → scanWith n cs = some ls

theorem scans_nil : Scans [] [] := by
  intro n hn
  obtain ⟨n, rfl⟩ := Nat.exists_eq_succ_of_ne_zero (Nat.ne_of_gt hn)
  rfl

theorem Scans.blank (h : Scans rest ls) : Scans (' ' :: rest) ls := by
  intro n hn
  obtain ⟨n, rfl⟩ := Nat.exists_eq_succ_of_ne_zero (Nat.ne_of_gt (Nat.zero_lt_of_lt hn))
  exact h n (Nat.lt_of_succ_lt_succ hn)

theorem Scans.cons (h : Scans rest ls) (hblank : c.isWhitespace = false)
    (hnext : next? (c :: cs) = some (l, rest)) (hlength : rest.length ≤ cs.length) :
    Scans (c :: cs) (l :: ls) := by
  intro n hn
  obtain ⟨n, rfl⟩ := Nat.exists_eq_succ_of_ne_zero (Nat.ne_of_gt (Nat.zero_lt_of_lt hn))
  have hrest : scanWith n rest = some ls := h n (lt_of_le_of_lt hlength (Nat.lt_of_succ_lt_succ hn))
  simp only [scanWith, hblank, Bool.false_eq_true, if_false, hnext, hrest, Option.bind_eq_bind,
    Option.bind_some, Option.pure_def]

theorem Scans.scan_eq {text : String} (h : Scans text.toList ls) : scan text = some ls := by
  apply h
  rw [String.length_toList]
  exact Nat.lt_succ_self _

def extends? (c : Char) : Bool := c == '"' || c.isDigit

theorem quoted?_doubled (quote : Char) (cs : List Char) (hrest : rest.head? ≠ some quote) :
    quoted? quote (cs.flatMap (fun c => if c = quote then [c, c] else [c]) ++ quote :: rest) =
      some (cs, rest) := by
  induction cs with
  | nil =>
    cases rest with
    | nil => simp [quoted?]
    | cons d rest =>
      have hd : d ≠ quote := fun heq => hrest (by rw [heq]; rfl)
      simp [quoted?, hd]
  | cons c cs ih =>
    rw [List.flatMap_cons, List.append_assoc]
    by_cases hc : c = quote
    · simp only [hc, if_true, List.cons_append, List.nil_append, quoted?, ih, Option.map_some]
    · have hne : cs.flatMap (fun c => if c = quote then [c, c] else [c]) ++ quote :: rest ≠ [] := by simp
      obtain ⟨d, text, htext⟩ := List.exists_cons_of_ne_nil hne
      rw [if_neg hc, List.cons_append, List.nil_append, htext, quoted?, if_neg hc, ← htext, ih,
        Option.map_some]

/-! ### Parts of a text -/

/-- A part of a text that is scanned to some lexemes wherever it stands. -/
def Leads (text : String) (ls : List Lexeme) : Prop :=
  ∀ rest ls', Scans rest ls' → Scans (text.toList ++ rest) (ls ++ ls')

/-- A part of a text that is scanned to some lexemes unless the text goes on with it. -/
def Spells (text : String) (ls : List Lexeme) : Prop :=
  ∀ rest ls', Text.StopsAt extends? rest → Scans rest ls' → Scans (text.toList ++ rest) (ls ++ ls')

structure Separates (text : String) (ls : List Lexeme) : Prop where
  leads : Leads text ls
  stops : ∀ rest, Text.StopsAt extends? (text.toList ++ rest)

variable {a b sep : String} {la lb lsep : List Lexeme}

theorem Leads.spells (h : Leads a la) : Spells a la := fun rest ls' _ hrest => h rest ls' hrest

theorem Leads.append_spells (ha : Leads a la) (hb : Spells b lb) : Spells (a ++ b) (la ++ lb) := by
  intro rest ls' hstop hrest
  rw [String.toList_append, List.append_assoc, List.append_assoc]
  exact ha _ _ (hb rest ls' hstop hrest)

theorem Spells.append_leads (ha : Spells a la) (hb : Separates b lb) : Leads (a ++ b) (la ++ lb) := by
  intro rest ls' hrest
  rw [String.toList_append, List.append_assoc, List.append_assoc]
  exact ha _ _ (hb.stops rest) (hb.leads rest ls' hrest)

theorem Spells.scan_eq (h : Spells a la) : scan a = some la := by
  have hscans := h [] [] Text.stopsAt_nil scans_nil
  rw [List.append_nil, List.append_nil] at hscans
  exact hscans.scan_eq

theorem spells_intercalate {α : Type} {text : α → String} {lex : α → List Lexeme}
    (hitem : ∀ i, Spells (text i) (lex i)) (hsep : Separates sep lsep) {items : List α} (hne : items ≠ []) :
    Spells (sep.intercalate (items.map text)) (lsep.intercalate (items.map lex)) := by
  induction items with
  | nil => exact absurd rfl hne
  | cons i items ih =>
    cases items with
    | nil => simpa using hitem i
    | cons j items =>
      have hrest := ih (List.cons_ne_nil j items)
      simp only [List.map_cons] at hrest ⊢
      rw [String.intercalate_cons_cons, List.intercalate_cons_cons]
      exact ((hitem i).append_leads hsep).append_spells hrest

theorem spells_identifier (name : String) : Spells (identifier name) [.name name] := by
  intro rest ls' hstop hrest
  have hquote : rest.head? ≠ some '"' := by
    intro heq
    cases hstop '"' heq
  have htext : (identifier name).toList ++ rest = '"' :: ((doubleQuote '"' name).toList ++ '"' :: rest) := by
    simp [identifier]
  rw [htext, toList_doubleQuote]
  apply hrest.cons rfl
  · rw [next?, quoted?_doubled '"' name.toList hquote, Option.map_some]
    simp only [String.ofList_toList]
  · simp only [List.length_append, List.length_cons]
    omega

theorem spells_placeholder (k : Nat) : Spells (Sql.placeholder k) [.placeholder k] := by
  intro rest ls' hstop hrest
  have htext : (Sql.placeholder k).toList ++ rest = '?' :: (Nat.toDigits 10 k ++ rest) := by
    rw [Sql.placeholder, String.toList_append, Nat.toString_eq_ofList_toDigits, String.toList_ofList]
    simp
  have hrun : Json.Token.digitRun (Nat.toDigits 10 k ++ rest) = (Nat.toDigits 10 k, rest) := by
    apply Text.span_append
    · exact fun c hc => Nat.isDigit_of_mem_toDigits (Nat.succ_pos 9) le_rfl hc
    · intro c hc
      exact (Bool.or_eq_false_iff.1 (hstop c hc)).2
  rw [htext]
  apply hrest.cons rfl
  · obtain ⟨d, ds, hds⟩ := List.exists_cons_of_ne_nil (Nat.toDigits_ne_nil (n := k) (b := 10))
    have hvalue := Decimal.digitsValue_toDigits k
    rw [hds] at hvalue
    rw [next?, hrun, hds]
    simp only [hvalue]
  · rw [List.length_append]
    omega

/-! ### Words and symbols -/

theorem leads_insertInto : Leads "INSERT INTO " [.word "INSERT", .word "INTO"] := by
  intro rest ls' hrest
  have hinto : Scans ("INTO ".toList ++ rest) (.word "INTO" :: ls') := hrest.blank.cons rfl rfl (by simp)
  exact hinto.blank.cons rfl rfl (by simp)

theorem leads_update : Leads "UPDATE " [.word "UPDATE"] :=
  fun _ _ hrest => hrest.blank.cons rfl rfl (by simp)

theorem leads_deleteFrom : Leads "DELETE FROM " [.word "DELETE", .word "FROM"] := by
  intro rest ls' hrest
  have hfrom : Scans ("FROM ".toList ++ rest) (.word "FROM" :: ls') := hrest.blank.cons rfl rfl (by simp)
  exact hfrom.blank.cons rfl rfl (by simp)

theorem separates_comma : Separates ", " [.symbol ","] where
  leads := fun _ _ hrest => hrest.blank.cons rfl rfl (by simp)
  stops := fun _ => Text.stopsAt_cons.2 rfl

theorem separates_equals : Separates " = " [.symbol "="] where
  leads := fun _ _ hrest => (hrest.blank.cons rfl rfl (by simp)).blank
  stops := fun _ => Text.stopsAt_cons.2 rfl

theorem separates_open : Separates " (" [.symbol "("] where
  leads := fun _ _ hrest => (hrest.cons rfl rfl le_rfl).blank
  stops := fun _ => Text.stopsAt_cons.2 rfl

theorem separates_close : Separates ")" [.symbol ")"] where
  leads := fun _ _ hrest => hrest.cons rfl rfl le_rfl
  stops := fun _ => Text.stopsAt_cons.2 rfl

theorem separates_values : Separates ") VALUES (" [.symbol ")", .word "VALUES", .symbol "("] where
  leads := by
    intro rest ls' hrest
    have hopen : Scans ('(' :: rest) (.symbol "(" :: ls') := hrest.cons rfl rfl le_rfl
    have hvalues : Scans ("VALUES (".toList ++ rest) (.word "VALUES" :: .symbol "(" :: ls') :=
      hopen.blank.cons rfl rfl (by simp)
    exact hvalues.blank.cons rfl rfl (by simp)
  stops := fun _ => Text.stopsAt_cons.2 rfl

theorem separates_set : Separates " SET " [.word "SET"] where
  leads := fun _ _ hrest => (hrest.blank.cons rfl rfl (by simp)).blank
  stops := fun _ => Text.stopsAt_cons.2 rfl

theorem separates_where : Separates " WHERE " [.word "WHERE"] where
  leads := fun _ _ hrest => (hrest.blank.cons rfl rfl (by simp)).blank
  stops := fun _ => Text.stopsAt_cons.2 rfl

theorem separates_and : Separates " AND " [.word "AND"] where
  leads := fun _ _ hrest => (hrest.blank.cons rfl rfl (by simp)).blank
  stops := fun _ => Text.stopsAt_cons.2 rfl

end EntityStore.Sql.Lexeme
