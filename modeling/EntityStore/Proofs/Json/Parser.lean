import EntityStore.Json.Parser
import EntityStore.Proofs.Json.Printer

/-!
# Documents read back

The text of a document without reals scans to the tokens of the document, and from these the
document is read back, unless it nests deeper than the limit. Where a number ends is decided by
what follows it, so the scanner is followed along the text together with all that comes after.
-/

namespace EntityStore.Json

mutual

def Integral : Json → Prop
  | .int i => Int64.minValue.toInt ≤ i ∧ i < UInt64.size
  | .real _ => False
  | .arr items => IntegralItems items
  | .obj fields => IntegralFields fields
  | _ => True

def IntegralItems : List Json → Prop
  | [] => True
  | v :: rest => v.Integral ∧ IntegralItems rest

def IntegralFields : List (String × Json) → Prop
  | [] => True
  | (_, v) :: rest => v.Integral ∧ IntegralFields rest

end

mutual

def tokens : Json → List Token
  | .null => [.null]
  | .bool b => [.bool b]
  | .int i => [.int i]
  | .real x => [.real x]
  | .str s => [.str s]
  | .arr items => .openList :: itemsTokens items
  | .obj fields => .openObject :: fieldsTokens fields

def itemsTokens : List Json → List Token
  | [] => [.closeList]
  | v :: rest => v.tokens ++ if rest = [] then [.closeList] else .comma :: itemsTokens rest

def fieldsTokens : List (String × Json) → List Token
  | [] => [.closeObject]
  | (name, v) :: rest =>
    .str name :: .colon ::
      (v.tokens ++ if rest = [] then [.closeObject] else .comma :: fieldsTokens rest)

end

namespace Token

variable {cs rest : List Char} {c : Char} {t : Token} {ts : List Token}

/-- The tokens of a text, whatever fuel above its length they are found with. -/
def Scans (cs : List Char) (ts : List Token) : Prop := ∀ n, cs.length < n → scanWith n cs = some ts

theorem scans_nil : Scans [] [] := by
  intro n hn
  obtain ⟨n, rfl⟩ := Nat.exists_eq_succ_of_ne_zero (Nat.ne_of_gt hn)
  rfl

theorem Scans.cons (h : Scans rest ts) (hblank : isBlank c = false)
    (hnext : next? (c :: cs) = some (t, rest)) (hlength : rest.length ≤ cs.length) :
    Scans (c :: cs) (t :: ts) := by
  intro n hn
  obtain ⟨n, rfl⟩ := Nat.exists_eq_succ_of_ne_zero (Nat.ne_of_gt (Nat.zero_lt_of_lt hn))
  have hrest : scanWith n rest = some ts := h n (lt_of_le_of_lt hlength (Nat.lt_of_succ_lt_succ hn))
  simp only [scanWith, hblank, Bool.false_eq_true, if_false, hnext, hrest,
    Option.bind_eq_bind, Option.bind_some, Option.pure_def]

theorem Scans.scan_eq (h : Scans cs ts) : scan cs = some ts := h _ (Nat.lt_succ_self _)

/-- The characters with which a number literal may go on. Unlike `Layout.isNumeral` these include the
capital letter, which is read but never written. -/
def extendsNumber (c : Char) : Bool := c.isDigit || c == '.' || c == 'e' || c == 'E'

theorem head_toDigits_ne_zero {n : Nat} (hn : 0 < n) : (Nat.toDigits 10 n).head? ≠ some '0' := by
  induction n using Nat.strongRecOn with
  | ind n ih =>
    by_cases hlt : n < 10
    · have hall : ∀ n < 10, 0 < n → (Nat.toDigits 10 n).head? ≠ some '0' := by decide
      exact hall n hlt hn
    · have hle : 10 ≤ n := not_lt.1 hlt
      rw [Nat.toDigits_of_base_le (by decide) hle, List.head?_append_of_ne_nil _ Nat.toDigits_ne_nil]
      exact ih (n / 10) (Nat.div_lt_self hn (by decide)) (Nat.div_pos hle (by decide))

theorem toDigits_ne_zero_cons (n : Nat) (d : Char) (ds : List Char) : Nat.toDigits 10 n ≠ '0' :: d :: ds := by
  intro h
  cases n with
  | zero => simp at h
  | succ n =>
    apply head_toDigits_ne_zero n.succ_pos
    rw [h]
    rfl

theorem digitRun_toDigits (n : Nat) (hrest : Text.StopsAt extendsNumber rest) :
    digitRun (Nat.toDigits 10 n ++ rest) = (Nat.toDigits 10 n, rest) := by
  apply Text.span_append
  · exact fun c hc => Nat.isDigit_of_mem_toDigits (Nat.succ_pos 9) le_rfl hc
  · intro c hc
    have hext := hrest c hc
    simp only [extendsNumber, Bool.or_eq_false_iff] at hext
    exact hext.1.1.1

theorem fractionPart?_stop (hrest : Text.StopsAt extendsNumber rest) :
    fractionPart? rest = some (none, rest) := by
  cases rest with
  | nil => rfl
  | cons c rest =>
    have hc : c ≠ '.' := by
      rintro rfl
      cases Text.stopsAt_cons.1 hrest
    unfold fractionPart?
    split
    · rename_i heq
      cases heq
      exact absurd rfl hc
    · rfl

theorem exponentPart?_stop (hrest : Text.StopsAt extendsNumber rest) :
    exponentPart? rest = some (none, rest) := by
  cases rest with
  | nil => rfl
  | cons c rest =>
    have hc : ¬(c = 'e' ∨ c = 'E') := by
      rintro (rfl | rfl) <;> cases Text.stopsAt_cons.1 hrest
    simp only [exponentPart?, if_neg hc]

theorem unsignedNumber?_toDigits (negative : Bool) (n : Nat) (hrest : Text.StopsAt extendsNumber rest) :
    unsignedNumber? negative (Nat.toDigits 10 n ++ rest) =
      some (wholeNumber negative (Nat.toDigits 10 n), rest) := by
  have hne : Nat.toDigits 10 n ≠ [] := Nat.toDigits_ne_nil
  have hzero := toDigits_ne_zero_cons n
  simp only [unsignedNumber?, digitRun_toDigits n hrest, fractionPart?_stop hrest, exponentPart?_stop hrest,
    Option.bind_eq_bind, Option.bind_some]

theorem wholeNumber_toDigits {i : Int} (hmin : Int64.minValue.toInt ≤ i) (hmax : i < UInt64.size) :
    wholeNumber (decide (i < 0)) (Nat.toDigits 10 i.natAbs) = .int i := by
  have hvalue := Decimal.digitsValue_toDigits i.natAbs
  by_cases hneg : i < 0
  · have hi : -((i.natAbs : Nat) : Int) = i := by omega
    have hne : ((i.natAbs : Nat) : Int) ≠ 0 := by omega
    simp only [wholeNumber, hvalue, hneg, decide_true, if_true, hi, hmin, bne_iff_ne.2 hne, Bool.and_self]
  · have hi : ((i.natAbs : Nat) : Int) = i := by omega
    simp only [wholeNumber, hvalue, hneg, decide_false, Bool.false_eq_true, if_false, hi, hmax, decide_true,
      if_true]

theorem next?_digit (h : c.isDigit = true) : next? (c :: cs) = unsignedNumber? false (c :: cs) := by
  unfold next?
  split <;> first | rfl | (rename_i heq; cases heq; cases h)

theorem next?_renderInt {i : Int} (hmin : Int64.minValue.toInt ≤ i) (hmax : i < UInt64.size)
    (hrest : Text.StopsAt extendsNumber rest) : next? (renderInt i ++ rest) = some (.int i, rest) := by
  have hnumber := unsignedNumber?_toDigits (decide (i < 0)) i.natAbs hrest
  rw [wholeNumber_toDigits hmin hmax] at hnumber
  by_cases hneg : i < 0
  · rw [decide_eq_true hneg] at hnumber
    rw [renderInt, if_pos hneg]
    exact hnumber
  · rw [decide_eq_false hneg] at hnumber
    rw [renderInt, if_neg hneg, List.nil_append]
    obtain ⟨c, cs, hcs⟩ := List.exists_cons_of_ne_nil (Nat.toDigits_ne_nil (n := i.natAbs) (b := 10))
    have hc : c.isDigit = true := by
      apply Nat.isDigit_of_mem_toDigits (Nat.succ_pos 9) le_rfl
      rw [hcs]
      exact List.mem_cons_self
    rw [hcs] at hnumber ⊢
    rw [← hnumber]
    exact next?_digit hc

theorem escapeChar_ne_nil (c : Char) : escapeChar c ≠ [] := by
  unfold escapeChar
  split_ifs <;> exact List.cons_ne_nil _ _

theorem stringBody?_escaped (cs rest : List Char) {n : Nat} (hn : (cs.flatMap escapeChar).length < n) :
    stringBody? n (cs.flatMap escapeChar ++ '"' :: rest) = some (cs, rest) := by
  induction cs generalizing n with
  | nil =>
    obtain ⟨n, rfl⟩ := Nat.exists_eq_succ_of_ne_zero (Nat.ne_of_gt hn)
    rfl
  | cons c cs ih =>
    obtain ⟨n, rfl⟩ := Nat.exists_eq_succ_of_ne_zero (Nat.ne_of_gt (Nat.zero_lt_of_lt hn))
    have hpos : 0 < (escapeChar c).length := List.length_pos_of_ne_nil (escapeChar_ne_nil c)
    rw [List.flatMap_cons, List.length_append] at hn
    have hbody : stringBody? n (cs.flatMap escapeChar ++ '"' :: rest) = some (cs, rest) := ih (by omega)
    rw [List.flatMap_cons, List.append_assoc, Nat.succ_eq_add_one, stringBody?, bodyChar?_escapeChar]
    · simp only [Option.bind_eq_bind, Option.bind_some, hbody, Option.pure_def]
    · exact fun x => escapeChar_ne_quote c _ x

theorem next?_renderString (s : String) (rest : List Char) :
    next? (renderString s ++ rest) = some (.str s, rest) := by
  have hlength : (s.toList.flatMap escapeChar).length < (s.toList.flatMap escapeChar ++ '"' :: rest).length + 1 := by
    rw [List.length_append]
    omega
  have hbody := stringBody?_escaped s.toList rest hlength
  simp only [renderString, List.cons_append, List.append_assoc, List.nil_append]
  rw [next?, hbody]
  simp only [Option.bind_eq_bind, Option.bind_some, Option.pure_def, String.ofList_toList]

theorem scans_renderInt {i : Int} (hmin : Int64.minValue.toInt ≤ i) (hmax : i < UInt64.size)
    (hrest : Text.StopsAt extendsNumber rest) (h : Scans rest ts) : Scans (renderInt i ++ rest) (.int i :: ts) := by
  have hnext := next?_renderInt hmin hmax hrest
  obtain ⟨c, cs, hcs⟩ := List.exists_cons_of_ne_nil (renderInt_ne_nil i)
  have hblank : isBlank c = false := by
    have hmem : c ∈ renderInt i := hcs ▸ List.mem_cons_self
    rw [← Bool.not_eq_true]
    intro hc
    simp only [isBlank, Bool.or_eq_true, beq_iff_eq] at hc
    rcases mem_renderInt hmem with rfl | hdigit
    · simp at hc
    · rcases hc with ((rfl | rfl) | rfl) | rfl <;> cases hdigit
  rw [hcs, List.cons_append] at hnext ⊢
  exact h.cons hblank hnext (by simp)

theorem scans_renderString (s : String) (h : Scans rest ts) :
    Scans (renderString s ++ rest) (.str s :: ts) := by
  refine h.cons rfl (next?_renderString s rest) ?_
  simp only [List.append_eq, List.length_append]
  omega

end Token

open Token (Scans extendsNumber)

mutual

theorem scans_render (j : Json) {rest : List Char} {ts : List Token} (hj : j.Integral)
    (hrest : Text.StopsAt extendsNumber rest) (h : Scans rest ts) :
    Scans (j.render ++ rest) (j.tokens ++ ts) := by
  cases j with
  | null => exact h.cons rfl rfl (Nat.le_add_right _ 3)
  | bool b =>
    cases b with
    | false => exact h.cons rfl rfl (Nat.le_add_right _ 4)
    | true => exact h.cons rfl rfl (Nat.le_add_right _ 3)
  | int i => exact Token.scans_renderInt hj.1 hj.2 hrest h
  | real x => exact hj.elim
  | str s => exact Token.scans_renderString s h
  | arr items =>
    have hitems := scans_renderItems items hj h
    simp only [render, tokens, List.cons_append, List.append_assoc, List.nil_append]
    exact hitems.cons rfl rfl le_rfl
  | obj fields =>
    have hfields := scans_renderFields fields hj h
    simp only [render, tokens, List.cons_append, List.append_assoc, List.nil_append]
    exact hfields.cons rfl rfl le_rfl

theorem scans_renderItems (items : List Json) {rest : List Char} {ts : List Token}
    (hitems : IntegralItems items) (h : Scans rest ts) :
    Scans (renderItems items ++ ']' :: rest) (itemsTokens items ++ ts) := by
  have hclose : Scans (']' :: rest) (.closeList :: ts) := h.cons rfl rfl le_rfl
  match items with
  | [] => exact hclose
  | [v] =>
    simp only [renderItems_cons, itemsTokens, if_true, List.append_assoc, List.nil_append, List.cons_append]
    exact scans_render v hitems.1 (Text.stopsAt_cons.2 rfl) hclose
  | v :: w :: items =>
    have htail := scans_renderItems (w :: items) hitems.2 h
    have hcomma := htail.cons (c := ',') (t := .comma) rfl rfl le_rfl
    rw [renderItems_cons, itemsTokens, if_neg (List.cons_ne_nil w items), if_neg (List.cons_ne_nil w items),
      List.append_assoc, List.append_assoc]
    exact scans_render v hitems.1 (Text.stopsAt_cons.2 rfl) hcomma

theorem scans_renderFields (fields : List (String × Json)) {rest : List Char} {ts : List Token}
    (hfields : IntegralFields fields) (h : Scans rest ts) :
    Scans (renderFields fields ++ '\x7d' :: rest) (fieldsTokens fields ++ ts) := by
  have hclose : Scans ('\x7d' :: rest) (.closeObject :: ts) := h.cons rfl rfl le_rfl
  match fields with
  | [] => exact hclose
  | [(name, v)] =>
    simp only [renderFields_cons, fieldsTokens, if_true, List.append_assoc, List.nil_append, List.cons_append]
    have hvalue := scans_render v hfields.1 (Text.stopsAt_cons.2 rfl) hclose
    exact Token.scans_renderString name (hvalue.cons rfl rfl le_rfl)
  | (name, v) :: f :: fields =>
    have htail := scans_renderFields (f :: fields) hfields.2 h
    have hcomma := htail.cons (c := ',') (t := .comma) rfl rfl le_rfl
    have hvalue := scans_render v hfields.1 (Text.stopsAt_cons.2 rfl) hcomma
    rw [renderFields_cons, fieldsTokens, if_neg (List.cons_ne_nil f fields), if_neg (List.cons_ne_nil f fields)]
    simp only [List.append_assoc, List.cons_append]
    exact Token.scans_renderString name (hvalue.cons rfl rfl le_rfl)

end

theorem tokens_append_ne_close (j : Json) (ts ts' : List Token) : j.tokens ++ ts ≠ .closeList :: ts' := by
  cases j <;> exact nofun

mutual

/-- A document is read off the front of its tokens, with any fuel that is not less than their number. -/
theorem value?_tokens (j : Json) {fuel depth : Nat} (ts : List Token) (hfuel : j.tokens.length ≤ fuel)
    (hdepth : j.depth ≤ depth) : value? fuel depth (j.tokens ++ ts) = some (j, ts) := by
  cases fuel with
  | zero => cases j <;> cases hfuel
  | succ fuel =>
    cases j with
    | null | bool | int | real | str => rfl
    | arr items =>
      cases depth with
      | zero => cases hdepth
      | succ depth =>
        match items with
        | [] => rfl
        | v :: items =>
          have hitems := items?_tokens (v :: items) ts (List.cons_ne_nil v items) (Nat.le_of_succ_le_succ hfuel)
            (Nat.le_of_succ_le_succ hdepth)
          have hopen : ∀ ts', itemsTokens (v :: items) ++ ts ≠ .closeList :: ts' := by
            intro ts'
            rw [itemsTokens, List.append_assoc]
            exact tokens_append_ne_close v _ ts'
          rw [tokens, List.cons_append, value?, hitems]
          · rfl
          · exact hopen
    | obj fields =>
      cases depth with
      | zero => cases hdepth
      | succ depth =>
        match fields with
        | [] => rfl
        | f :: fields =>
          have hfields := fields?_tokens (f :: fields) ts (List.cons_ne_nil f fields)
            (Nat.le_of_succ_le_succ hfuel) (Nat.le_of_succ_le_succ hdepth)
          have hopen : ∀ ts', fieldsTokens (f :: fields) ++ ts ≠ .closeObject :: ts' := by
            intro ts'
            rw [fieldsTokens]
            exact nofun
          rw [tokens, List.cons_append, value?, hfields]
          · rfl
          · exact hopen

theorem items?_tokens (items : List Json) {fuel depth : Nat} (ts : List Token) (hne : items ≠ [])
    (hfuel : (itemsTokens items).length ≤ fuel) (hdepth : itemsDepth items ≤ depth) :
    items? fuel depth (itemsTokens items ++ ts) = some (items, ts) := by
  match items with
  | [] => contradiction
  | [v] =>
    rw [itemsTokens, if_pos rfl, List.length_append, List.length_singleton] at hfuel
    cases fuel with
    | zero => cases hfuel
    | succ fuel =>
      have hvalue := value?_tokens v (.closeList :: ts) (Nat.le_of_succ_le_succ hfuel)
        (le_trans (le_max_left _ _) hdepth)
      rw [itemsTokens, if_pos rfl, List.append_assoc, List.singleton_append, items?, hvalue]
      rfl
  | v :: w :: rest =>
    rw [itemsTokens, if_neg (List.cons_ne_nil w rest), List.length_append, List.length_cons] at hfuel
    cases fuel with
    | zero => cases hfuel
    | succ fuel =>
      have hlength : v.tokens.length ≤ fuel := by omega
      have hlengths : (itemsTokens (w :: rest)).length ≤ fuel := by omega
      have hvalue := value?_tokens v (.comma :: (itemsTokens (w :: rest) ++ ts)) hlength
        (le_trans (le_max_left _ _) hdepth)
      have hitems := items?_tokens (w :: rest) ts (List.cons_ne_nil w rest) hlengths
        (le_trans (le_max_right _ _) hdepth)
      rw [itemsTokens, if_neg (List.cons_ne_nil w rest), List.append_assoc, List.cons_append, items?, hvalue]
      simp only [hitems, Option.bind_eq_bind, Option.bind_some, Option.pure_def]

theorem fields?_tokens (fields : List (String × Json)) {fuel depth : Nat} (ts : List Token)
    (hne : fields ≠ []) (hfuel : (fieldsTokens fields).length ≤ fuel) (hdepth : fieldsDepth fields ≤ depth) :
    fields? fuel depth (fieldsTokens fields ++ ts) = some (fields, ts) := by
  cases fuel with
  | zero => cases fields <;> cases hfuel
  | succ fuel =>
    match fields with
    | [] => contradiction
    | [(name, v)] =>
      rw [fieldsTokens, if_pos rfl] at hfuel
      simp only [List.length_cons, List.length_append, List.length_nil] at hfuel
      have hlength : v.tokens.length ≤ fuel := by omega
      have hvalue := value?_tokens v (.closeObject :: ts) hlength (le_trans (le_max_left _ _) hdepth)
      rw [fieldsTokens, if_pos rfl, List.cons_append, List.cons_append, List.append_assoc,
        List.singleton_append, fields?, hvalue]
      rfl
    | (name, v) :: f :: rest =>
      rw [fieldsTokens, if_neg (List.cons_ne_nil f rest)] at hfuel
      simp only [List.length_cons, List.length_append] at hfuel
      have hlength : v.tokens.length ≤ fuel := by omega
      have hlengths : (fieldsTokens (f :: rest)).length ≤ fuel := by omega
      have hvalue := value?_tokens v (.comma :: (fieldsTokens (f :: rest) ++ ts)) hlength
        (le_trans (le_max_left _ _) hdepth)
      have hfields := fields?_tokens (f :: rest) ts (List.cons_ne_nil f rest) hlengths
        (le_trans (le_max_right _ _) hdepth)
      rw [fieldsTokens, if_neg (List.cons_ne_nil f rest), List.cons_append, List.cons_append,
        List.append_assoc, List.cons_append, fields?, hvalue]
      simp only [hfields, Option.bind_eq_bind, Option.bind_some, Option.pure_def]

end

/-- Documents without reals are read back, unless they nest deeper than the limit. -/
theorem parse?_text {j : Json} {limit : Nat} (hj : j.Integral) (hdepth : j.depth ≤ limit) :
    parse? limit j.text = some j := by
  have hscan := (scans_render j hj Text.stopsAt_nil Token.scans_nil).scan_eq
  have hfuel : j.tokens.length ≤ 2 * j.tokens.length + 1 := by omega
  have hvalue := value?_tokens j [] hfuel hdepth
  rw [List.append_nil, List.append_nil] at hscan
  rw [List.append_nil] at hvalue
  simp only [parse?, text, String.toList_ofList, hscan, hvalue, Option.bind_eq_bind, Option.bind_some,
    Option.pure_def]

end EntityStore.Json
