import EntityStore.Plan
import EntityStore.Proofs.Schema.Validity
import EntityStore.Proofs.Sql.Alike

/-!
# Expressions from their texts

Conjunctions, disjunctions and negations are written with brackets, comparisons and null tests
without. So a text is a chain: an operand, and then comparisons with further operands and null
tests. The chain determines the expression if it is read from the left, that is, if no comparison has
a comparison or a null test on its right.
-/

namespace EntityStore

def Expr.isClosed : Expr → Bool
  | .compare _ _ _ | .isNull _ => false
  | _ => true

/-- Right operands of comparisons are closed. -/
def Expr.LeftGrouped : Expr → Prop
  | .property _ _ | .constant _ | .parameter _ => True
  | .compare _ left right => left.LeftGrouped ∧ right.LeftGrouped ∧ right.isClosed = true
  | .and left right | .or left right => left.LeftGrouped ∧ right.LeftGrouped
  | .not inner | .isNull inner => inner.LeftGrouped

namespace SqlExpr

variable {names : List String} {a b : SqlExpr} {x y : List Char}

def isClosed : SqlExpr → Bool
  | .compare _ _ _ | .isNull _ => false
  | _ => true

/-- The text of the expression is a chain that is read from the left, and its parameters have
names. -/
def Readable (names : List String) : SqlExpr → Prop
  | .column _ _ | .literal _ => True
  | .parameter name => name ∈ names
  | .compare _ left right => left.Readable names ∧ right.Readable names ∧ right.isClosed = true
  | .and left right | .or left right => left.Readable names ∧ right.Readable names
  | .not inner | .isNull inner => inner.Readable names
  | .discriminator _ _ => False

inductive Link
  | compare (op : CompareOp) (right : SqlExpr)
  | isNull

def Link.apply (e : SqlExpr) : Link → SqlExpr
  | .compare op right => .compare op e right
  | .isNull => .isNull e

def head : SqlExpr → SqlExpr
  | .compare _ left _ => left.head
  | .isNull inner => inner.head
  | e => e

def links : SqlExpr → List Link
  | .compare op left right => left.links ++ [.compare op right]
  | .isNull inner => inner.links ++ [.isNull]
  | _ => []

theorem foldl_links (e : SqlExpr) : e.links.foldl Link.apply e.head = e := by
  induction e with
  | compare op left right ihl _ =>
    rw [links, head, List.foldl_append, ihl]
    rfl
  | isNull inner ih =>
    rw [links, head, List.foldl_append, ih]
    rfl
  | _ => rfl

theorem isClosed_head (e : SqlExpr) : e.head.isClosed = true := by
  induction e with
  | compare op left right ihl _ => exact ihl
  | isNull inner ih => exact ih
  | _ => rfl

theorem head_of_isClosed (h : a.isClosed = true) : a.head = a := by
  cases a with
  | compare op left right => cases h
  | isNull inner => cases h
  | _ => rfl

theorem links_of_isClosed (h : a.isClosed = true) : a.links = [] := by
  cases a with
  | compare op left right => cases h
  | isNull inner => cases h
  | _ => rfl

theorem Readable.head (h : a.Readable names) : a.head.Readable names := by
  induction a with
  | compare op left right ihl _ => exact ihl h.1
  | isNull inner ih => exact ih h
  | _ => exact h

/-! ### The text of a chain -/

def chars (names : List String) (e : SqlExpr) : List Char := (e.render names).toList

theorem chars_column (table column : String) : chars names (.column table column) =
    '"' :: ((Sql.doubleQuote '"' table).toList ++ '"' :: '.' :: '"' ::
      ((Sql.doubleQuote '"' column).toList ++ ['"'])) := by
  simp [chars, render, Sql.identifier]

theorem chars_parameter (name : String) :
    chars names (.parameter name) = '?' :: (toString (names.idxOf name + 1)).toList := by
  rw [chars, render, Sql.placeholder, String.toList_append]
  rfl

theorem chars_and (left right : SqlExpr) : chars names (.and left right) =
    '(' :: (left.chars names ++ (" AND ".toList ++ (right.chars names ++ [')']))) := by
  simp [chars, render]

theorem chars_or (left right : SqlExpr) : chars names (.or left right) =
    '(' :: (left.chars names ++ (" OR ".toList ++ (right.chars names ++ [')']))) := by
  simp [chars, render]

theorem chars_not (inner : SqlExpr) :
    chars names (.not inner) = "NOT (".toList ++ (inner.chars names ++ [')']) := by
  simp [chars, render]

def Link.render (names : List String) : Link → String
  | .compare op right => " " ++ op.symbol ++ " " ++ right.render names
  | .isNull => " IS NULL"

def Link.chars (names : List String) (l : Link) : List Char := (l.render names).toList

theorem Link.chars_compare (op : CompareOp) (right : SqlExpr) :
    Link.chars names (.compare op right) = ' ' :: (op.symbol.toList ++ ' ' :: right.chars names) := by
  simp [Link.chars, Link.render, SqlExpr.chars]

theorem Link.chars_isNull : Link.chars names .isNull = ' ' :: 'I' :: "S NULL".toList := by
  simp [Link.chars, Link.render]

theorem chars_chain (names : List String) (e : SqlExpr) :
    e.chars names = e.head.chars names ++ e.links.flatMap (Link.chars names) := by
  induction e with
  | compare op left right ihl _ =>
    rw [head, links, List.flatMap_append, ← List.append_assoc, ← ihl, List.flatMap_singleton,
      Link.chars_compare]
    simp [chars, render]
  | isNull inner ih =>
    rw [head, links, List.flatMap_append, ← List.append_assoc, ← ih, List.flatMap_singleton,
      Link.chars_isNull]
    simp [chars, render]
  | _ => exact (List.append_nil _).symm

def Ends (x : List Char) : Prop :=
  x = [] ∨ (∃ y, x = ')' :: y) ∨ ∃ c y, (c = 'A' ∨ c = 'O') ∧ x = ' ' :: c :: y

theorem Ends.stopsAt (h : Ends x) : Text.StopsAt Sql.goesOn x := by
  rcases h with rfl | ⟨y, rfl⟩ | ⟨c, y, -, rfl⟩
  · exact Text.stopsAt_nil
  · exact Text.stopsAt_cons.2 rfl
  · exact Text.stopsAt_cons.2 rfl

theorem ends_and (x : List Char) : Ends (" AND ".toList ++ x) := Or.inr (Or.inr ⟨'A', _, Or.inl rfl, rfl⟩)

theorem ends_or (x : List Char) : Ends (" OR ".toList ++ x) := Or.inr (Or.inr ⟨'O', _, Or.inr rfl, rfl⟩)

theorem ends_bracket (x : List Char) : Ends ([')'] ++ x) := Or.inr (Or.inl ⟨x, rfl⟩)

theorem symbol_chars (op : CompareOp) : ∃ c cs, op.symbol.toList = c :: cs ∧ c ≠ 'A' ∧ c ≠ 'O' := by
  cases op <;> exact ⟨_, _, rfl, by decide, by decide⟩

theorem Link.exists_chars (names : List String) (l : Link) :
    ∃ c y, l.chars names = ' ' :: c :: y ∧ c ≠ 'A' ∧ c ≠ 'O' := by
  cases l with
  | isNull => exact ⟨'I', _, Link.chars_isNull, by decide, by decide⟩
  | compare op right =>
    obtain ⟨c, cs, hsymbol, hand, hor⟩ := symbol_chars op
    refine ⟨c, cs ++ ' ' :: right.chars names, ?_, hand, hor⟩
    rw [Link.chars_compare, hsymbol, List.cons_append]

theorem Link.not_ends (l : Link) : ¬Ends (l.chars names ++ x) := by
  obtain ⟨c, y, hchars, hand, hor⟩ := l.exists_chars names
  rw [hchars]
  rintro (h | ⟨z, h⟩ | ⟨d, z, hd, h⟩)
  · cases h
  · cases h
  · cases h
    rcases hd with rfl | rfl
    · exact hand rfl
    · exact hor rfl

theorem stopsAt_links (hx : Ends x) (ls : List Link) :
    Text.StopsAt Sql.goesOn (ls.flatMap (Link.chars names) ++ x) := by
  cases ls with
  | nil => exact hx.stopsAt
  | cons l ls =>
    obtain ⟨c, y, hchars, -, -⟩ := l.exists_chars names
    rw [List.flatMap_cons, hchars]
    exact Text.stopsAt_cons.2 rfl

/-! ### Reading -/

/-- The expression can be read off the front of a longer text. -/
def Reads (names : List String) (a : SqlExpr) : Prop :=
  ∀ b x y, b.Readable names → Ends x → Ends y → a.chars names ++ x = b.chars names ++ y →
    a.Alike b ∧ x = y

def ReadsClosed (names : List String) (a : SqlExpr) : Prop :=
  ∀ b x y, b.Readable names → b.isClosed = true → Text.StopsAt Sql.goesOn x → Text.StopsAt Sql.goesOn y →
    a.chars names ++ x = b.chars names ++ y → a.Alike b ∧ x = y

def ReadsOperands (names : List String) (a : SqlExpr) : Prop :=
  ReadsClosed names a.head ∧ ∀ op right, Link.compare op right ∈ a.links → ReadsClosed names right

theorem symbol_goesOn (op : CompareOp) : ∀ c ∈ op.symbol.toList, Sql.goesOn c = true := by
  have hall : op.symbol.toList.all Sql.goesOn = true := by
    cases op <;> decide
  exact List.all_eq_true.1 hall

theorem symbol_inj {op op' : CompareOp} (h : op.symbol.toList = op'.symbol.toList) : op = op' := by
  cases op <;> cases op' <;> first | rfl | exact absurd h (by decide)

theorem symbol_append_ne_null {op : CompareOp} : op.symbol.toList ++ x ≠ 'I' :: y := by
  intro h
  cases op <;> cases h

theorem readable_of_mem_links (h : a.Readable names) {op : CompareOp} {right : SqlExpr}
    (hmem : Link.compare op right ∈ a.links) : right.Readable names ∧ right.isClosed = true := by
  induction a with
  | compare op' left right' ihl _ =>
    rcases List.mem_append.1 hmem with hmem | hmem
    · exact ihl h.1 hmem
    · cases List.mem_singleton.1 hmem
      exact h.2
  | isNull inner ih =>
    rcases List.mem_append.1 hmem with hmem | hmem
    · exact ih h hmem
    · cases List.mem_singleton.1 hmem
  | _ => cases hmem

theorem Link.append_inj {l l' : Link} (hab : a.Alike b)
    (hl : ∀ op right, l = .compare op right → ReadsClosed names right)
    (hl' : ∀ op right, l' = .compare op right → right.Readable names ∧ right.isClosed = true)
    (hx : Text.StopsAt Sql.goesOn x) (hy : Text.StopsAt Sql.goesOn y)
    (h : l.chars names ++ x = l'.chars names ++ y) : (l.apply a).Alike (l'.apply b) ∧ x = y := by
  cases l with
  | isNull =>
    cases l' with
    | isNull => exact ⟨hab.isNull, List.append_cancel_left h⟩
    | compare op right =>
      rw [Link.chars_isNull, Link.chars_compare, List.cons_append, List.cons_append, List.cons_append,
        List.append_assoc] at h
      exact absurd (List.tail_eq_of_cons_eq h).symm symbol_append_ne_null
  | compare op right =>
    cases l' with
    | isNull =>
      rw [Link.chars_isNull, Link.chars_compare, List.cons_append, List.cons_append, List.cons_append,
        List.append_assoc] at h
      exact absurd (List.tail_eq_of_cons_eq h) symbol_append_ne_null
    | compare op' right' =>
      rw [Link.chars_compare, Link.chars_compare, List.cons_append, List.cons_append, List.append_assoc,
        List.append_assoc] at h
      obtain ⟨hsymbol, hright⟩ := Text.run_append_inj (symbol_goesOn op) (symbol_goesOn op')
        (Text.stopsAt_cons.2 rfl) (Text.stopsAt_cons.2 rfl) (List.tail_eq_of_cons_eq h)
      obtain rfl := symbol_inj hsymbol
      obtain ⟨hreadable, hclosed⟩ := hl' op right' rfl
      obtain ⟨halike, hrest⟩ :=
        hl op right rfl right' x y hreadable hclosed hx hy (List.tail_eq_of_cons_eq hright)
      exact ⟨hab.compare op halike, hrest⟩

theorem links_append_inj {ls ls' : List Link} {a b : SqlExpr} (hab : a.Alike b)
    (hls : ∀ op right, Link.compare op right ∈ ls → ReadsClosed names right)
    (hls' : ∀ op right, Link.compare op right ∈ ls' → right.Readable names ∧ right.isClosed = true)
    (hx : Ends x) (hy : Ends y)
    (h : ls.flatMap (Link.chars names) ++ x = ls'.flatMap (Link.chars names) ++ y) :
    (ls.foldl Link.apply a).Alike (ls'.foldl Link.apply b) ∧ x = y := by
  induction ls generalizing a b ls' with
  | nil =>
    cases ls' with
    | nil => exact ⟨hab, h⟩
    | cons l ls' =>
      rw [List.flatMap_cons, List.append_assoc, List.flatMap_nil, List.nil_append] at h
      rw [h] at hx
      exact absurd hx l.not_ends
  | cons l ls ih =>
    rw [List.flatMap_cons, List.append_assoc] at h
    cases ls' with
    | nil =>
      rw [List.flatMap_nil, List.nil_append] at h
      rw [← h] at hy
      exact absurd hy l.not_ends
    | cons l' ls' =>
      rw [List.flatMap_cons, List.append_assoc] at h
      have hfirst : ∀ op right, l = .compare op right → ReadsClosed names right := by
        rintro op right rfl
        exact hls op right List.mem_cons_self
      have hfirst' : ∀ op right, l' = .compare op right → right.Readable names ∧ right.isClosed = true := by
        rintro op right rfl
        exact hls' op right List.mem_cons_self
      obtain ⟨halike, hrest⟩ := Link.append_inj hab hfirst hfirst' (stopsAt_links hx ls)
        (stopsAt_links hy ls') h
      have htail := fun op right hmem => hls op right (List.mem_cons_of_mem l hmem)
      have htail' := fun op right hmem => hls' op right (List.mem_cons_of_mem l' hmem)
      have hchain := ih halike htail htail' hrest
      exact hchain

theorem ReadsOperands.reads (h : ReadsOperands names a) : Reads names a := by
  intro b x y hb hx hy heq
  rw [chars_chain names a, chars_chain names b, List.append_assoc, List.append_assoc] at heq
  obtain ⟨hhead, hrest⟩ := h.1 b.head _ _ hb.head (isClosed_head b) (stopsAt_links hx a.links)
    (stopsAt_links hy b.links) heq
  have hchain := links_append_inj hhead h.2 (fun op right => readable_of_mem_links hb) hx hy hrest
  rw [foldl_links, foldl_links] at hchain
  exact hchain

theorem ReadsClosed.readsOperands (hclosed : a.isClosed = true) (h : ReadsClosed names a) :
    ReadsOperands names a := by
  constructor
  · rw [head_of_isClosed hclosed]
    exact h
  · intro op right hmem
    rw [links_of_isClosed hclosed] at hmem
    cases hmem

theorem ReadsOperands.readsClosed (hclosed : a.isClosed = true) (h : ReadsOperands names a) :
    ReadsClosed names a := by
  have hhead := h.1
  rw [head_of_isClosed hclosed] at hhead
  exact hhead

/-! ### Operands -/

def opening : List Char → Nat
  | '"' :: _ => 0
  | '?' :: _ => 1
  | '(' :: _ => 2
  | 'N' :: 'O' :: _ => 3
  | _ => 4

def kind : SqlExpr → Nat
  | .column _ _ => 0
  | .parameter _ => 1
  | .and _ _ | .or _ _ => 2
  | .not _ => 3
  | _ => 4

theorem opening_numeral {c : Char} {cs : List Char} (h : Layout.isNumeral c = true) : opening (c :: cs) = 4 := by
  have hother : c ≠ '"' ∧ c ≠ '?' ∧ c ≠ '(' ∧ c ≠ 'N' := by
    refine ⟨?_, ?_, ?_, ?_⟩ <;> rintro rfl <;> cases h
  simp [opening, hother]

theorem opening_numerals {cs : List Char} (hne : cs ≠ []) (h : ∀ c ∈ cs, Layout.isNumeral c = true)
    (x : List Char) : opening (cs ++ x) = 4 := by
  cases cs with
  | nil => exact absurd rfl hne
  | cons c cs => exact opening_numeral (h c List.mem_cons_self)

theorem opening_named {v : Value} (h : v ∈ Sql.named) (x : List Char) :
    opening ((Sql.literal v).toList ++ x) = 4 := by
  have hword : (Sql.literal v).toList ∈ ["NULL".toList, "NaN".toList, "inf".toList, "-inf".toList] := by
    revert v
    decide +kernel
  simp only [List.mem_cons, List.not_mem_nil, or_false] at hword
  rcases hword with hword | hword | hword | hword <;> rw [hword, String.toList_ofList] <;> rfl

theorem opening_literal (v : Value) (x : List Char) : opening ((Sql.literal v).toList ++ x) = 4 := by
  rw [← Sql.literal_plain v]
  obtain (hnamed | ⟨i, hi⟩ | ⟨r, hr, hfinite⟩) | ⟨s, hs⟩ | ⟨bytes, hbytes⟩ := Sql.plain_cases v
  · exact opening_named hnamed x
  · rw [hi, Sql.toList_literal_integer]
    exact opening_numerals (Json.renderInt_ne_nil _) (fun c => Json.isNumeral_of_mem_renderInt) x
  · rw [hr]
    exact opening_numerals (Layout.faithful.toList_render_ne_nil hfinite)
      (fun c => Layout.faithful.isNumeral_of_mem_render hfinite) x
  · rw [hs, Sql.toList_literal_text]
    rfl
  · rw [hbytes, Sql.toList_literal_blob]
    rfl

theorem opening_chars (ha : a.Readable names) (hclosed : a.isClosed = true) (x : List Char) :
    opening (a.chars names ++ x) = a.kind := by
  cases a with
  | column table column => rw [chars_column]; rfl
  | literal v => exact opening_literal v x
  | parameter name => rw [chars_parameter]; rfl
  | compare op left right => cases hclosed
  | and left right => rw [chars_and]; rfl
  | or left right => rw [chars_or]; rfl
  | not inner => rw [chars_not]; rfl
  | isNull inner => cases hclosed
  | discriminator source predicate => exact ha.elim

theorem toList_toString_nat (n : Nat) : (toString n).toList = Json.renderInt n :=
  Sql.toList_toString_int n

theorem readsClosed_of_kind (ha : a.Readable names) (hclosed : a.isClosed = true)
    (h : ∀ b x y, b.Readable names → b.isClosed = true → b.kind = a.kind → Text.StopsAt Sql.goesOn x →
      Text.StopsAt Sql.goesOn y → a.chars names ++ x = b.chars names ++ y → a.Alike b ∧ x = y) :
    ReadsClosed names a := by
  intro b x y hb hclosed' hx hy heq
  have hkind : b.kind = a.kind := by
    rw [← opening_chars ha hclosed x, heq, opening_chars hb hclosed' y]
  exact h b x y hb hclosed' hkind hx hy heq

theorem readsClosed_column (table column : String) : ReadsClosed names (.column table column) := by
  refine readsClosed_of_kind trivial rfl ?_
  intro b x y hb _ hkind hx hy heq
  cases b with
  | column table' column' =>
    simp only [chars_column, List.cons_append, List.append_assoc] at heq
    obtain ⟨rfl, hbehind⟩ := Sql.quoted_append_inj (by simp) (by simp) (List.tail_eq_of_cons_eq heq)
    simp only [List.cons.injEq, true_and, List.nil_append] at hbehind
    obtain ⟨rfl, hrest⟩ := Sql.quoted_append_inj (Sql.head?_ne_of_stopsAt hx rfl)
      (Sql.head?_ne_of_stopsAt hy rfl) hbehind
    exact ⟨Alike.refl _, hrest⟩
  | _ => cases hkind

theorem readsClosed_literal (v : Value) : ReadsClosed names (.literal v) := by
  refine readsClosed_of_kind trivial rfl ?_
  intro b x y hb hclosed hkind hx hy heq
  cases b with
  | literal w =>
    obtain ⟨hplain, hrest⟩ := Sql.literal_append_inj hx hy heq
    exact ⟨Alike.literal hplain, hrest⟩
  | compare op left right => cases hclosed
  | isNull inner => cases hclosed
  | discriminator source predicate => exact hb.elim
  | _ => cases hkind

theorem readsClosed_parameter {name : String} (h : name ∈ names) :
    ReadsClosed names (.parameter name) := by
  refine readsClosed_of_kind h rfl ?_
  intro b x y hb _ hkind hx hy heq
  cases b with
  | parameter name' =>
    rw [chars_parameter, chars_parameter, toList_toString_nat, toList_toString_nat] at heq
    have hdigits : ∀ i : Int, ∀ c ∈ Json.renderInt i, Sql.goesOn c = true := fun i c hc =>
      Sql.goesOn_of_isNumeral (Json.isNumeral_of_mem_renderInt hc)
    obtain ⟨hnumber, hrest⟩ := Text.run_append_inj (hdigits _) (hdigits _) hx hy (List.tail_eq_of_cons_eq heq)
    have hidx : names.idxOf name = names.idxOf name' := by
      have := Json.renderInt_inj hnumber
      omega
    obtain rfl := (List.idxOf_inj h).1 hidx
    exact ⟨Alike.refl _, hrest⟩
  | _ => cases hkind

theorem and_ne_or (x y : List Char) : " AND ".toList ++ x ≠ " OR ".toList ++ y := by
  simp

theorem readsClosed_and {left right : SqlExpr} (ha : (and left right).Readable names)
    (hleft : Reads names left) (hright : Reads names right) : ReadsClosed names (.and left right) := by
  refine readsClosed_of_kind ha rfl ?_
  intro b x y hb _ hkind hx hy heq
  cases b with
  | and left' right' =>
    simp only [chars_and, List.cons_append, List.append_assoc] at heq
    obtain ⟨hl, hrest⟩ := hleft left' _ _ hb.1 (ends_and _) (ends_and _) (List.tail_eq_of_cons_eq heq)
    obtain ⟨hr, hrest⟩ := hright right' _ _ hb.2 (ends_bracket _) (ends_bracket _)
      (List.append_cancel_left hrest)
    exact ⟨hl.and hr, List.append_cancel_left hrest⟩
  | or left' right' =>
    simp only [chars_and, chars_or, List.cons_append, List.append_assoc] at heq
    obtain ⟨-, hrest⟩ := hleft left' _ _ hb.1 (ends_and _) (ends_or _) (List.tail_eq_of_cons_eq heq)
    exact absurd hrest (and_ne_or _ _)
  | _ => cases hkind

theorem readsClosed_or {left right : SqlExpr} (ha : (or left right).Readable names)
    (hleft : Reads names left) (hright : Reads names right) : ReadsClosed names (.or left right) := by
  refine readsClosed_of_kind ha rfl ?_
  intro b x y hb _ hkind hx hy heq
  cases b with
  | or left' right' =>
    simp only [chars_or, List.cons_append, List.append_assoc] at heq
    obtain ⟨hl, hrest⟩ := hleft left' _ _ hb.1 (ends_or _) (ends_or _) (List.tail_eq_of_cons_eq heq)
    obtain ⟨hr, hrest⟩ := hright right' _ _ hb.2 (ends_bracket _) (ends_bracket _)
      (List.append_cancel_left hrest)
    exact ⟨hl.or hr, List.append_cancel_left hrest⟩
  | and left' right' =>
    simp only [chars_and, chars_or, List.cons_append, List.append_assoc] at heq
    obtain ⟨-, hrest⟩ := hleft left' _ _ hb.1 (ends_or _) (ends_and _) (List.tail_eq_of_cons_eq heq)
    exact absurd hrest.symm (and_ne_or _ _)
  | _ => cases hkind

theorem readsClosed_not {inner : SqlExpr} (ha : (not inner).Readable names) (h : Reads names inner) :
    ReadsClosed names (.not inner) := by
  refine readsClosed_of_kind ha rfl ?_
  intro b x y hb _ hkind hx hy heq
  cases b with
  | not inner' =>
    simp only [chars_not, List.append_assoc] at heq
    obtain ⟨hinner, hrest⟩ := h inner' _ _ hb (ends_bracket _) (ends_bracket _) (List.append_cancel_left heq)
    exact ⟨hinner.not, List.append_cancel_left hrest⟩
  | _ => cases hkind

theorem Readable.readsOperands (h : a.Readable names) : ReadsOperands names a := by
  induction a with
  | column table column => exact (readsClosed_column table column).readsOperands rfl
  | literal v => exact (readsClosed_literal v).readsOperands rfl
  | parameter name => exact (readsClosed_parameter h).readsOperands rfl
  | compare op left right ihl ihr =>
    obtain ⟨hhead, hlinks⟩ := ihl h.1
    refine ⟨hhead, ?_⟩
    intro op' right' hmem
    rcases List.mem_append.1 hmem with hmem | hmem
    · exact hlinks op' right' hmem
    · cases List.mem_singleton.1 hmem
      exact (ihr h.2.1).readsClosed h.2.2
  | and left right ihl ihr =>
    exact (readsClosed_and h (ihl h.1).reads (ihr h.2).reads).readsOperands rfl
  | or left right ihl ihr =>
    exact (readsClosed_or h (ihl h.1).reads (ihr h.2).reads).readsOperands rfl
  | not inner ih => exact (readsClosed_not h (ih h).reads).readsOperands rfl
  | isNull inner ih =>
    obtain ⟨hhead, hlinks⟩ := ih h
    refine ⟨hhead, ?_⟩
    intro op' right' hmem
    rcases List.mem_append.1 hmem with hmem | hmem
    · exact hlinks op' right' hmem
    · cases List.mem_singleton.1 hmem
  | discriminator source predicate => exact h.elim

theorem Readable.alike (ha : a.Readable names) (hb : b.Readable names)
    (h : a.render names = b.render names) : a.Alike b := by
  have hchars : a.chars names ++ [] = b.chars names ++ [] := by
    rw [chars, chars, h]
  exact (ha.readsOperands.reads b [] [] hb (Or.inl rfl) (Or.inl rfl) hchars).1

end SqlExpr

namespace Plan

variable {s : Schema} {scope : Scope} {names : List String}

theorem isClosed_expr {e : Expr} {a : SqlExpr} (h : expr s scope e = .ok a) : a.isClosed = e.isClosed := by
  cases e with
  | property source name =>
    obtain ⟨id, -, h⟩ := Traversal.bind_eq_ok_iff.1 h
    obtain ⟨p, -, h⟩ := Traversal.bind_eq_ok_iff.1 h
    cases h
    rfl
  | constant v => cases h; rfl
  | parameter name => cases h; rfl
  | compare op left right | and left right | or left right =>
    obtain ⟨l, -, h⟩ := Traversal.bind_eq_ok_iff.1 h
    obtain ⟨r, -, h⟩ := Traversal.bind_eq_ok_iff.1 h
    cases h
    rfl
  | not inner | isNull inner =>
    obtain ⟨e, -, h⟩ := Traversal.bind_eq_ok_iff.1 h
    cases h
    rfl

/-- The translation of an expression that is grouped to the left can be read. -/
theorem readable_expr {e : Expr} {a : SqlExpr} (h : expr s scope e = .ok a) (he : e.LeftGrouped)
    (hnames : a.parameters ⊆ names) : a.Readable names := by
  induction e generalizing a with
  | property source name =>
    obtain ⟨id, -, h⟩ := Traversal.bind_eq_ok_iff.1 h
    obtain ⟨p, -, h⟩ := Traversal.bind_eq_ok_iff.1 h
    cases h
    trivial
  | constant v =>
    cases h
    trivial
  | parameter name =>
    cases h
    exact hnames (List.mem_singleton.2 rfl)
  | compare op left right ihl ihr =>
    obtain ⟨l, hl, h⟩ := Traversal.bind_eq_ok_iff.1 h
    obtain ⟨r, hr, h⟩ := Traversal.bind_eq_ok_iff.1 h
    cases h
    obtain ⟨hnamesl, hnamesr⟩ := List.append_subset.1 hnames
    exact ⟨ihl hl he.1 hnamesl, ihr hr he.2.1 hnamesr, (isClosed_expr hr).trans he.2.2⟩
  | and left right ihl ihr | or left right ihl ihr =>
    obtain ⟨l, hl, h⟩ := Traversal.bind_eq_ok_iff.1 h
    obtain ⟨r, hr, h⟩ := Traversal.bind_eq_ok_iff.1 h
    cases h
    obtain ⟨hnamesl, hnamesr⟩ := List.append_subset.1 hnames
    exact ⟨ihl hl he.1 hnamesl, ihr hr he.2 hnamesr⟩
  | not inner ih | isNull inner ih =>
    obtain ⟨e, hinner, h⟩ := Traversal.bind_eq_ok_iff.1 h
    cases h
    have hread := ih hinner he hnames
    exact hread

/-- The text of a filter determines which bindings it keeps, where the right operands of comparisons
are no bare comparisons and null tests. -/
theorem holds_eq_of_render_eq {e f : Expr} {a b : SqlExpr} (ha : expr s scope e = .ok a)
    (hb : expr s scope f = .ok b) (he : e.LeftGrouped) (hf : f.LeftGrouped)
    (hnames : a.parameters ⊆ names) (hnames' : b.parameters ⊆ names)
    (h : a.render names = b.render names) (parameters : Parameters) (binding : Binding) :
    a.holds parameters binding = b.holds parameters binding := by
  have halike := (readable_expr ha he hnames).alike (readable_expr hb hf hnames') h
  exact halike.holds parameters binding

/-- A truth value and the number that stands for it have one text. -/
theorem holds_eq_of_render_eq_posts :
    let e : Expr := .compare .eq (.property ⟨0⟩ "BlogId") (.constant (.bool true))
    let f : Expr := .compare .eq (.property ⟨0⟩ "BlogId") (.constant (.integer 1))
    let a := SqlExpr.compare .eq (.column "t0" "BlogId") (.literal (.bool true))
    let b := SqlExpr.compare .eq (.column "t0" "BlogId") (.literal (.integer 1))
    (expr .blogs [(⟨0⟩, ⟨1⟩)] e = .ok a ∧ expr .blogs [(⟨0⟩, ⟨1⟩)] f = .ok b ∧
      e.LeftGrouped ∧ f.LeftGrouped ∧ a.parameters ⊆ [] ∧ b.parameters ⊆ [] ∧
      a.render [] = b.render []) ∧
    ∀ parameters binding, a.holds parameters binding = b.holds parameters binding := by
  intro e f a b
  have ha : expr .blogs [(⟨0⟩, ⟨1⟩)] e = .ok a := by decide +kernel
  have hb : expr .blogs [(⟨0⟩, ⟨1⟩)] f = .ok b := by decide +kernel
  have he : e.LeftGrouped := ⟨trivial, trivial, rfl⟩
  have hf : f.LeftGrouped := ⟨trivial, trivial, rfl⟩
  have htext : a.render [] = b.render [] := by decide +kernel
  have hnone : a.parameters ⊆ [] ∧ b.parameters ⊆ [] := ⟨List.Subset.refl [], List.Subset.refl []⟩
  exact ⟨⟨ha, hb, he, hf, hnone.1, hnone.2, htext⟩,
    holds_eq_of_render_eq ha hb he hf hnone.1 hnone.2 htext⟩

/-- A comparison on the right of another one has the text of a comparison on the left. -/
theorem right_comparison_posts :
    let e : Expr := .compare .eq (.property ⟨0⟩ "Id")
      (.compare .eq (.property ⟨0⟩ "BlogId") (.constant (.integer 3)))
    let f : Expr := .compare .eq (.compare .eq (.property ⟨0⟩ "Id") (.property ⟨0⟩ "BlogId"))
      (.constant (.integer 3))
    let binding : Binding := [("t0", .ofList [("Id", .integer 1), ("BlogId", .integer 3)])]
    ∃ a b, expr .blogs [(⟨0⟩, ⟨1⟩)] e = .ok a ∧ expr .blogs [(⟨0⟩, ⟨1⟩)] f = .ok b ∧
      Sql.distinct a.parameters = [] ∧ Sql.distinct b.parameters = [] ∧ a.render [] = b.render [] ∧
      a.holds .empty binding = .ok true ∧ b.holds .empty binding = .ok false :=
  ⟨.compare .eq (.column "t0" "Id") (.compare .eq (.column "t0" "BlogId") (.literal (.integer 3))),
    .compare .eq (.compare .eq (.column "t0" "Id") (.column "t0" "BlogId")) (.literal (.integer 3)),
    by decide +kernel⟩

end Plan

end EntityStore
