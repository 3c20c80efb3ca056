import EntityStore.Json.Printer
import EntityStore.Proofs.Number.Layout

/-!
# Documents from their texts

The text of a document can be read off the front of a longer text, and it determines the document,
as long as all its reals are finite.
-/

namespace EntityStore.Json

mutual

def Exact : Json → Prop
  | .real x => x.isFinite = true
  | .arr items => ExactItems items
  | .obj fields => ExactFields fields
  | _ => True

def ExactItems : List Json → Prop
  | [] => True
  | v :: rest => v.Exact ∧ ExactItems rest

def ExactFields : List (String × Json) → Prop
  | [] => True
  | (_, v) :: rest => v.Exact ∧ ExactFields rest

end

theorem hexValue4?_escape {n : Nat} (h : n < 32) :
    Token.hexValue4? '0' '0' (hexDigit (n / 16)) (hexDigit n) = some n := by
  have hall : ∀ n < 32, Token.hexValue4? '0' '0' (hexDigit (n / 16)) (hexDigit n) = some n := by decide
  exact hall n h

theorem bodyChar?_escapeChar (c : Char) (rest : List Char) :
    Token.bodyChar? (escapeChar c ++ rest) = some (c, rest) := by
  fun_cases escapeChar c
  case case8 hcontrol =>
    have hlow : ¬(0xD800 ≤ c.toNat ∧ c.toNat < 0xDC00) := by omega
    have hhigh : ¬(0xDC00 ≤ c.toNat ∧ c.toNat < 0xE000) := by omega
    simp only [List.cons_append, List.nil_append, Token.bodyChar?, hexValue4?_escape hcontrol,
      Option.bind_eq_bind, Option.bind_some, if_neg hlow, if_neg hhigh, Char.ofNat_toNat]
  case case9 =>
    simp only [List.cons_append, List.nil_append]
    unfold Token.bodyChar?
    split <;> simp_all
  all_goals
    subst c
    rfl

theorem escapeChar_append_inj {c d : Char} {x y : List Char} (h : escapeChar c ++ x = escapeChar d ++ y) :
    c = d := by
  have hread := bodyChar?_escapeChar c x
  rw [h, bodyChar?_escapeChar] at hread
  cases hread
  rfl

theorem escapeChar_ne_quote (c : Char) (x y : List Char) : escapeChar c ++ x ≠ '"' :: y := by
  intro h
  have hread := bodyChar?_escapeChar c x
  rw [h] at hread
  have hc : '"' = c := congrArg Prod.fst (Option.some.inj hread)
  rw [← hc] at h
  cases h

theorem renderString_append_inj {s t : String} {x y : List Char}
    (h : renderString s ++ x = renderString t ++ y) : s = t ∧ x = y := by
  simp only [renderString, List.cons_append, List.append_assoc, List.nil_append, List.cons.injEq,
    true_and] at h
  obtain ⟨hs, hrest⟩ := Text.encoded_append_inj (fun _ _ _ _ => escapeChar_append_inj)
    (fun c x y (_ : True) => escapeChar_ne_quote c x y) trivial trivial h
  exact ⟨String.toList_inj.1 hs, hrest⟩

theorem mem_renderInt {i : Int} {c : Char} (h : c ∈ renderInt i) : c = '-' ∨ c.isDigit = true := by
  rcases List.mem_append.1 h with h | h
  · split at h
    · exact Or.inl (List.mem_singleton.1 h)
    · cases h
  · exact Or.inr (Nat.isDigit_of_mem_toDigits (Nat.succ_pos 9) le_rfl h)

theorem renderInt_ne_nil (i : Int) : renderInt i ≠ [] :=
  List.append_ne_nil_of_right_ne_nil _ Nat.toDigits_ne_nil

theorem renderInt_inj {i j : Int} (h : renderInt i = renderInt j) : i = j := by
  have hdigit : ∀ i : Int, '-' ∉ Nat.toDigits 10 i.natAbs := by
    intro i hmem
    have hfalse := Nat.isDigit_of_mem_toDigits (Nat.succ_pos 9) le_rfl hmem
    cases hfalse
  have hparts : (i < 0 ↔ j < 0) ∧ Nat.toDigits 10 i.natAbs = Nat.toDigits 10 j.natAbs := by
    unfold renderInt at h
    by_cases hi : i < 0 <;> by_cases hj : j < 0
    · rw [if_pos hi, if_pos hj] at h
      exact ⟨by simp [hi, hj], List.append_cancel_left h⟩
    · rw [if_pos hi, if_neg hj, List.nil_append] at h
      exact absurd (h ▸ List.mem_cons_self) (hdigit j)
    · rw [if_neg hi, if_pos hj, List.nil_append] at h
      exact absurd (h ▸ List.mem_cons_self) (hdigit i)
    · rw [if_neg hi, if_neg hj] at h
      exact ⟨by simp [hi, hj], h⟩
  obtain ⟨hsign, hdigits⟩ := hparts
  have hvalue := congrArg (fun cs => Nat.ofDigitChars 10 cs 0) hdigits
  simp only [Nat.ofDigitChars_ten_toDigits] at hvalue
  omega

theorem renderInt_ne_render (i : Int) {x : Binary64} (h : x.isFinite = true) :
    renderInt i ≠ (Layout.json.render x).toList := by
  intro heq
  rw [Layout.toList_render _ h] at heq
  obtain ⟨c, hmark, hc⟩ := Layout.json.exists_mark_body rfl x
  have hmem : c ∈ renderInt i := by
    rw [heq]
    exact List.mem_append_right _ hc
  rcases mem_renderInt hmem with rfl | hdigit
  · simp at hmark
  · rcases hmark with rfl | rfl <;> cases hdigit

theorem isNumeral_of_mem_renderInt {i : Int} {c : Char} (h : c ∈ renderInt i) :
    Layout.isNumeral c = true := by
  rcases mem_renderInt h with rfl | hdigit
  · rfl
  · exact Layout.isNumeral_of_isDigit hdigit

def kind : Json → Char
  | .null => 'n'
  | .bool b => if b then 't' else 'f'
  | .int _ | .real _ => '0'
  | .str _ => '"'
  | .arr _ => '['
  | .obj _ => '\x7b'

theorem exists_head_render {j : Json} (h : j.Exact) :
    ∃ c cs, j.render = c :: cs ∧ (c = j.kind ∨ j.kind = '0' ∧ Layout.isNumeral c = true) := by
  cases j with
  | null => exact ⟨_, _, rfl, Or.inl rfl⟩
  | bool b => cases b <;> exact ⟨_, _, rfl, Or.inl rfl⟩
  | int i =>
    obtain ⟨c, cs, hcs⟩ := List.exists_cons_of_ne_nil (renderInt_ne_nil i)
    have hmem : c ∈ renderInt i := by
      rw [hcs]
      exact List.mem_cons_self
    exact ⟨c, cs, hcs, Or.inr ⟨rfl, isNumeral_of_mem_renderInt hmem⟩⟩
  | real x =>
    obtain ⟨c, cs, hcs⟩ := List.exists_cons_of_ne_nil (Layout.json.toList_render_ne_nil h)
    refine ⟨c, cs, hcs, Or.inr ⟨rfl, Layout.json.isNumeral_of_mem_render h ?_⟩⟩
    rw [hcs]
    exact List.mem_cons_self
  | str s => exact ⟨_, _, rfl, Or.inl rfl⟩
  | arr items => exact ⟨_, _, rfl, Or.inl rfl⟩
  | obj fields => exact ⟨_, _, rfl, Or.inl rfl⟩

theorem kind_eq_of_isNumeral {j : Json} (h : Layout.isNumeral j.kind = true) : j.kind = '0' := by
  cases j with
  | bool b => cases b <;> cases h
  | int i => rfl
  | real x => rfl
  | null => cases h
  | str s => cases h
  | arr items => cases h
  | obj fields => cases h

theorem kind_eq_of_render_append {j k : Json} (hj : j.Exact) (hk : k.Exact) {x y : List Char}
    (h : j.render ++ x = k.render ++ y) : j.kind = k.kind := by
  obtain ⟨c, cs, hcs, hc⟩ := exists_head_render hj
  obtain ⟨d, ds, hds, hd⟩ := exists_head_render hk
  rw [hcs, hds] at h
  obtain rfl : c = d := List.head_eq_of_cons_eq h
  rcases hc with rfl | ⟨hc, hnumeral⟩
  · rcases hd with hd | ⟨hd, hnumeral⟩
    · exact hd
    · rw [hd]
      exact kind_eq_of_isNumeral hnumeral
  · rcases hd with rfl | ⟨hd, -⟩
    · rw [hc]
      exact (kind_eq_of_isNumeral hnumeral).symm
    · rw [hc, hd]

theorem number_of_kind {j : Json} (h : j.kind = '0') : (∃ i, j = .int i) ∨ ∃ x, j = .real x := by
  cases j with
  | int i => exact Or.inl ⟨i, rfl⟩
  | real x => exact Or.inr ⟨x, rfl⟩
  | bool b => cases b <;> cases h
  | null => cases h
  | str s => cases h
  | arr items => cases h
  | obj fields => cases h

theorem isNumeral_of_mem_number {j : Json} (h : j.Exact) (hkind : j.kind = '0') {c : Char}
    (hc : c ∈ j.render) : Layout.isNumeral c = true := by
  obtain ⟨i, rfl⟩ | ⟨x, rfl⟩ := number_of_kind hkind
  · exact isNumeral_of_mem_renderInt hc
  · exact Layout.json.isNumeral_of_mem_render h hc

theorem number_append_inj {j k : Json} (hj : j.Exact) (hk : k.Exact) (hkind : j.kind = '0')
    (hkind' : k.kind = '0') {x y : List Char} (hx : Text.StopsAt Layout.isNumeral x)
    (hy : Text.StopsAt Layout.isNumeral y) (h : j.render ++ x = k.render ++ y) : j = k ∧ x = y := by
  obtain ⟨htext, hrest⟩ := Text.run_append_inj (fun _ => isNumeral_of_mem_number hj hkind)
    (fun _ => isNumeral_of_mem_number hk hkind') hx hy h
  refine ⟨?_, hrest⟩
  obtain ⟨i, rfl⟩ | ⟨a, rfl⟩ := number_of_kind hkind <;>
    obtain ⟨i', rfl⟩ | ⟨b, rfl⟩ := number_of_kind hkind'
  · rw [renderInt_inj htext]
  · exact absurd htext (renderInt_ne_render i hk)
  · exact absurd htext.symm (renderInt_ne_render i' hj)
  · rw [Layout.json.render_inj hj hk (String.toList_inj.1 htext)]

theorem renderItems_cons (v : Json) (rest : List Json) :
    renderItems (v :: rest) = v.render ++ if rest = [] then [] else ',' :: renderItems rest := by
  cases rest with
  | nil => simp [renderItems]
  | cons w rest => simp [renderItems]

theorem renderFields_cons (name : String) (v : Json) (rest : List (String × Json)) :
    renderFields ((name, v) :: rest) =
      renderString name ++ ':' :: (v.render ++ if rest = [] then [] else ',' :: renderFields rest) := by
  cases rest with
  | nil => simp [renderFields]
  | cons f rest => simp [renderFields]

theorem stopsAt_items (rest : List Json) (x : List Char) :
    Text.StopsAt Layout.isNumeral ((if rest = [] then [] else ',' :: renderItems rest) ++ ']' :: x) := by
  split <;> exact Text.stopsAt_cons.2 rfl

theorem stopsAt_fields (rest : List (String × Json)) (x : List Char) :
    Text.StopsAt Layout.isNumeral ((if rest = [] then [] else ',' :: renderFields rest) ++ '\x7d' :: x) := by
  split <;> exact Text.stopsAt_cons.2 rfl

theorem tail_append_inj {α : Type} {rest rest' : List α} {close : Char} (hclose : close ≠ ',')
    {t t' x y : List Char}
    (h : (if rest = [] then [] else ',' :: t) ++ close :: x =
      (if rest' = [] then [] else ',' :: t') ++ close :: y) :
    (rest = [] ∧ rest' = [] ∧ x = y) ∨ t ++ close :: x = t' ++ close :: y := by
  by_cases hrest : rest = [] <;> by_cases hrest' : rest' = []
  · rw [if_pos hrest, if_pos hrest'] at h
    exact Or.inl ⟨hrest, hrest', List.tail_eq_of_cons_eq h⟩
  · rw [if_pos hrest, if_neg hrest'] at h
    exact absurd (List.head_eq_of_cons_eq h) hclose
  · rw [if_neg hrest, if_pos hrest'] at h
    exact absurd (List.head_eq_of_cons_eq h).symm hclose
  · rw [if_neg hrest, if_neg hrest'] at h
    exact Or.inr (List.tail_eq_of_cons_eq h)

theorem render_append_ne_close {j : Json} (hj : j.Exact) (x y : List Char) : j.render ++ x ≠ ']' :: y := by
  intro h
  obtain ⟨c, cs, hcs, hc⟩ := exists_head_render hj
  rw [hcs] at h
  obtain rfl : c = ']' := List.head_eq_of_cons_eq h
  rcases hc with hc | ⟨-, hnumeral⟩
  · cases j with
    | bool b => cases b <;> cases hc
    | _ => cases hc
  · cases hnumeral

mutual

theorem render_append_inj (j : Json) {k : Json} {x y : List Char} (hj : j.Exact) (hk : k.Exact)
    (hx : Text.StopsAt Layout.isNumeral x) (hy : Text.StopsAt Layout.isNumeral y)
    (h : j.render ++ x = k.render ++ y) : j = k ∧ x = y := by
  have hkind := kind_eq_of_render_append hj hk h
  by_cases hnumber : j.kind = '0'
  · exact number_append_inj hj hk hnumber (hkind.symm.trans hnumber) hx hy h
  rcases j with _ | (_ | _) | i | a | s | items | fields <;>
    rcases k with _ | (_ | _) | i' | b | t | items' | fields' <;>
    first | (cases hkind; done) | exact absurd rfl hnumber | skip
  case neg.null.null =>
    cases h
    exact ⟨rfl, rfl⟩
  case neg.bool.true.bool.true =>
    cases h
    exact ⟨rfl, rfl⟩
  case neg.bool.false.bool.false =>
    cases h
    exact ⟨rfl, rfl⟩
  case neg.str.str =>
    obtain ⟨rfl, hrest⟩ := renderString_append_inj h
    exact ⟨rfl, hrest⟩
  case neg.arr.arr =>
    simp only [render, List.cons_append, List.append_assoc, List.nil_append, List.cons.injEq,
      true_and] at h
    obtain ⟨rfl, hrest⟩ := renderItems_append_inj items hj hk h
    exact ⟨rfl, hrest⟩
  case neg.obj.obj =>
    simp only [render, List.cons_append, List.append_assoc, List.nil_append, List.cons.injEq,
      true_and] at h
    obtain ⟨rfl, hrest⟩ := renderFields_append_inj fields hj hk h
    exact ⟨rfl, hrest⟩

theorem renderItems_append_inj (items : List Json) {items' : List Json} {x y : List Char}
    (hitems : ExactItems items) (hitems' : ExactItems items')
    (h : renderItems items ++ ']' :: x = renderItems items' ++ ']' :: y) : items = items' ∧ x = y := by
  match items, items' with
  | [], [] =>
    cases h
    exact ⟨rfl, rfl⟩
  | [], w :: rest' =>
    rw [renderItems_cons, List.append_assoc] at h
    exact absurd h.symm (render_append_ne_close hitems'.1 _ _)
  | v :: rest, [] =>
    rw [renderItems_cons, List.append_assoc] at h
    exact absurd h (render_append_ne_close hitems.1 _ _)
  | v :: rest, w :: rest' =>
    rw [renderItems_cons, renderItems_cons, List.append_assoc, List.append_assoc] at h
    obtain ⟨hv, htail⟩ := render_append_inj v hitems.1 hitems'.1 (stopsAt_items rest x)
      (stopsAt_items rest' y) h
    obtain ⟨rfl, rfl, hxy⟩ | htail := tail_append_inj (by decide) htail
    · rw [hv]
      exact ⟨rfl, hxy⟩
    · obtain ⟨hrests, hxy⟩ := renderItems_append_inj rest hitems.2 hitems'.2 htail
      rw [hv, hrests]
      exact ⟨rfl, hxy⟩

theorem renderFields_append_inj (fields : List (String × Json)) {fields' : List (String × Json)}
    {x y : List Char} (hfields : ExactFields fields) (hfields' : ExactFields fields')
    (h : renderFields fields ++ '\x7d' :: x = renderFields fields' ++ '\x7d' :: y) :
    fields = fields' ∧ x = y := by
  match fields, fields' with
  | [], [] =>
    cases h
    exact ⟨rfl, rfl⟩
  | [], (name, w) :: rest' =>
    rw [renderFields_cons] at h
    cases h
  | (name, v) :: rest, [] =>
    rw [renderFields_cons] at h
    cases h
  | (name, v) :: rest, (name', w) :: rest' =>
    rw [renderFields_cons, renderFields_cons, List.append_assoc, List.append_assoc] at h
    obtain ⟨hname, hafter⟩ := renderString_append_inj h
    have hvalue := List.tail_eq_of_cons_eq hafter
    rw [List.append_eq, List.append_eq, List.append_assoc, List.append_assoc] at hvalue
    obtain ⟨hv, htail⟩ := render_append_inj v hfields.1 hfields'.1 (stopsAt_fields rest x)
      (stopsAt_fields rest' y) hvalue
    obtain ⟨rfl, rfl, hxy⟩ | htail := tail_append_inj (by decide) htail
    · rw [hname, hv]
      exact ⟨rfl, hxy⟩
    · obtain ⟨hrests, hxy⟩ := renderFields_append_inj rest hfields.2 hfields'.2 htail
      rw [hname, hv, hrests]
      exact ⟨rfl, hxy⟩

end

/-- Documents whose reals are finite are told apart by their texts. -/
theorem text_inj {j k : Json} (hj : j.Exact) (hk : k.Exact) (h : j.text = k.text) : j = k := by
  have hrender : j.render ++ [] = k.render ++ [] := by
    rw [List.append_nil, List.append_nil]
    exact String.ofList_inj.1 h
  exact (render_append_inj j hj hk Text.stopsAt_nil Text.stopsAt_nil hrender).1

end EntityStore.Json
