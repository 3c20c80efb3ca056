import EntityStore.Sql.Render
import EntityStore.Sql.Evaluation
import EntityStore.Proofs.Json.Printer

/-!
# Literals of statements

A literal is written so that its text tells the value, up to what SQL does not tell apart: a truth
value is the number that stands for it, and there is one NaN. Expressions do not tell these apart
either.
-/

namespace EntityStore

namespace Value

def plain : Value → Value
  | .bool b => .integer (ofBool b)
  | .real r => if r.isNaN then .real .nan else .real r
  | v => v

theorem plain_nan {r : Binary64} (h : r.isNaN = true) : (real r).plain = .real .nan := by
  rw [plain, if_pos h]

theorem plain_number {r : Binary64} (h : ¬r.isNaN = true) : (real r).plain = .real r := by
  rw [plain, if_neg h]

theorem isNull_plain (v : Value) : v.plain.isNull = v.isNull := by
  cases v with
  | real r =>
    by_cases h : r.isNaN = true
    · rw [plain_nan h]
      rfl
    · rw [plain_number h]
  | _ => rfl

theorem compare?_nan {x y : Binary64} (h : x.isNaN = true ∨ y.isNaN = true) : x.compare? y = none := by
  rw [Binary64.compare?, if_pos (by simpa using h)]

theorem truth_plain (v : Value) : v.plain.truth = v.truth := by
  cases v with
  | bool b => cases b <;> rfl
  | real r =>
    by_cases h : r.isNaN = true
    · rw [plain_nan h, truth, truth, Binary64.numericEq, Binary64.numericEq, compare?_nan (Or.inl h)]
      rfl
    · rw [plain_number h]
  | _ => rfl

theorem compareNonNull?_plain_left (v w : Value) : compareNonNull? v.plain w = compareNonNull? v w := by
  cases v with
  | bool b => cases w <;> rfl
  | real r =>
    by_cases h : r.isNaN = true
    · have hnan : Binary64.nan.isNaN = true := rfl
      rw [plain_nan h]
      cases w <;> simp [compareNonNull?, toReal?, toInt64?, compare?_nan (Or.inl h),
        compare?_nan (Or.inl hnan), rank]
    · rw [plain_number h]
  | _ => rfl

theorem compareNonNull?_plain_right (v w : Value) : compareNonNull? v w.plain = compareNonNull? v w := by
  cases w with
  | bool b => cases v <;> rfl
  | real r =>
    by_cases h : r.isNaN = true
    · have hnan : Binary64.nan.isNaN = true := rfl
      rw [plain_nan h]
      cases v <;> simp [compareNonNull?, toReal?, toInt64?, compare?_nan (Or.inr h),
        compare?_nan (Or.inr hnan), rank]
    · rw [plain_number h]
  | _ => rfl

theorem compare?_plain (v w : Value) : compare? v.plain w.plain = compare? v w := by
  rw [compare?, compare?, isNull_plain, isNull_plain, compareNonNull?_plain_left,
    compareNonNull?_plain_right]

end Value

theorem Binary64.eq_infinity {r : Binary64} (hnan : ¬r.isNaN = true) (hfinite : ¬r.isFinite = true) :
    r = infinity r.isNegative := by
  have hmagnitude : r.magnitude = infinityMagnitude := by
    simp only [isNaN, isFinite, decide_eq_true_eq] at hnan hfinite
    omega
  cases hsign : r.isNegative with
  | false => exact eq_of_magnitude_eq (hsign.trans (by decide)) (hmagnitude.trans (by decide))
  | true => exact eq_of_magnitude_eq (hsign.trans (by decide)) (hmagnitude.trans (by decide))

namespace Sql

theorem literal_plain (v : Value) : literal v.plain = literal v := by
  cases v with
  | bool b => cases b <;> decide
  | real r =>
    by_cases h : r.isNaN = true
    · rw [Value.plain_nan h, literal, literal, Layout.render, Layout.render, if_pos h]
      rfl
    · rw [Value.plain_number h]
  | _ => rfl

theorem toList_toString_int (i : Int) : (toString i).toList = Json.renderInt i := by
  cases i with
  | ofNat n =>
    change (toString n).toList = _
    rw [Nat.toString_eq_ofList_toDigits, String.toList_ofList]
    rfl
  | negSucc n =>
    change ("-" ++ toString (n + 1)).toList = _
    rw [String.toList_append, Nat.toString_eq_ofList_toDigits, String.toList_ofList, String.toList_ofList,
      Json.renderInt, if_pos (Int.negSucc_lt_zero n), Int.natAbs_negSucc]

def named : List Value := [.null, .real .nan, .real (.infinity false), .real (.infinity true)]

def IsWord (v : Value) : Prop :=
  v ∈ named ∨ (∃ i, v = .integer i) ∨ ∃ r, v = .real r ∧ r.isFinite = true

theorem plain_cases (v : Value) :
    IsWord v.plain ∨ (∃ s, v.plain = .text s) ∨ ∃ bytes, v.plain = .blob bytes := by
  cases v with
  | null => exact Or.inl (Or.inl (by decide))
  | bool b => exact Or.inl (Or.inr (Or.inl ⟨_, rfl⟩))
  | integer i => exact Or.inl (Or.inr (Or.inl ⟨i, rfl⟩))
  | real r =>
    left
    by_cases hnan : r.isNaN = true
    · rw [Value.plain_nan hnan]
      exact Or.inl (by decide)
    · rw [Value.plain_number hnan]
      by_cases hfinite : r.isFinite = true
      · exact Or.inr (Or.inr ⟨r, rfl, hfinite⟩)
      · rw [Binary64.eq_infinity hnan hfinite]
        cases r.isNegative with
        | false => exact Or.inl (by decide)
        | true => exact Or.inl (by decide)
  | text s => exact Or.inr (Or.inl ⟨s, rfl⟩)
  | blob bytes => exact Or.inr (Or.inr ⟨bytes, rfl⟩)

def wordKind (cs : List Char) : Nat :=
  if 'N' ∈ cs ∨ 'i' ∈ cs then 0 else if '.' ∈ cs ∨ 'e' ∈ cs then 1 else 2

theorem wordKind_named : ∀ v ∈ named, wordKind (literal v).toList = 0 := by decide +kernel

theorem named_inj : ∀ v ∈ named, ∀ w ∈ named, literal v = literal w → v = w := by decide +kernel

theorem toList_literal_integer (i : Int64) : (literal (.integer i)).toList = Json.renderInt i.toInt :=
  toList_toString_int i.toInt

theorem wordKind_integer (i : Int64) : wordKind (literal (.integer i)).toList = 2 := by
  rw [toList_literal_integer]
  have hother : ∀ c, c ≠ '-' → c.isDigit = false → c ∉ Json.renderInt i.toInt := by
    intro c hminus hdigit hmem
    rcases Json.mem_renderInt hmem with h | h
    · exact hminus h
    · rw [hdigit] at h
      cases h
  rw [wordKind, if_neg, if_neg]
  · rintro (hmem | hmem)
    · exact hother '.' (by decide) rfl hmem
    · exact hother 'e' (by decide) rfl hmem
  · rintro (hmem | hmem)
    · exact hother 'N' (by decide) rfl hmem
    · exact hother 'i' (by decide) rfl hmem

theorem wordKind_real {r : Binary64} (h : r.isFinite = true) : wordKind (literal (.real r)).toList = 1 := by
  have hnumeral : ∀ c ∈ (literal (.real r)).toList, Layout.isNumeral c = true :=
    fun c hc => Layout.faithful.isNumeral_of_mem_render h hc
  rw [wordKind, if_neg, if_pos]
  · obtain ⟨c, hmark, hc⟩ := Layout.exists_mark_body (l := Layout.faithful) rfl r
    have hmem : c ∈ (literal (.real r)).toList := by
      rw [literal, Layout.toList_render _ h]
      exact List.mem_append_right _ hc
    rcases hmark with rfl | rfl
    · exact Or.inl hmem
    · exact Or.inr hmem
  · rintro (hmem | hmem)
    · cases hnumeral 'N' hmem
    · cases hnumeral 'i' hmem

theorem word_inj {v w : Value} (hv : IsWord v) (hw : IsWord w) (h : literal v = literal w) : v = w := by
  have hkind : wordKind (literal v).toList = wordKind (literal w).toList := by rw [h]
  rcases hv with hv | ⟨i, rfl⟩ | ⟨r, rfl, hr⟩
  · rw [wordKind_named v hv] at hkind
    rcases hw with hw | ⟨j, rfl⟩ | ⟨q, rfl, hq⟩
    · exact named_inj v hv w hw h
    · rw [wordKind_integer] at hkind
      cases hkind
    · rw [wordKind_real hq] at hkind
      cases hkind
  · rw [wordKind_integer] at hkind
    rcases hw with hw | ⟨j, rfl⟩ | ⟨q, rfl, hq⟩
    · rw [wordKind_named w hw] at hkind
      cases hkind
    · have htext := congrArg String.toList h
      rw [toList_literal_integer, toList_literal_integer] at htext
      rw [Int64.toInt_inj.1 (Json.renderInt_inj htext)]
    · rw [wordKind_real hq] at hkind
      cases hkind
  · rw [wordKind_real hr] at hkind
    rcases hw with hw | ⟨j, rfl⟩ | ⟨q, rfl, hq⟩
    · rw [wordKind_named w hw] at hkind
      cases hkind
    · rw [wordKind_integer] at hkind
      cases hkind
    · rw [Layout.faithful.render_inj hr hq h]

/-- A token of a statement goes on up to a space, a closing bracket or the end. -/
def goesOn (c : Char) : Bool := c != ' ' && c != ')'

theorem goesOn_of_isNumeral {c : Char} (h : Layout.isNumeral c = true) : goesOn c = true := by
  by_contra hstop
  simp only [goesOn, Bool.and_eq_true, bne_iff_ne, not_and_or, not_not] at hstop
  rcases hstop with rfl | rfl <;> cases h

theorem goesOn_of_mem_word {v : Value} (h : IsWord v) : ∀ c ∈ (literal v).toList, goesOn c = true := by
  have hnamed : ∀ v ∈ named, (literal v).toList.all goesOn = true := by decide +kernel
  intro c hc
  rcases h with h | ⟨i, rfl⟩ | ⟨r, rfl, hr⟩
  · exact List.all_eq_true.1 (hnamed v h) c hc
  · rw [toList_literal_integer] at hc
    exact goesOn_of_isNumeral (Json.isNumeral_of_mem_renderInt hc)
  · exact goesOn_of_isNumeral (Layout.faithful.isNumeral_of_mem_render hr hc)

theorem toList_doubleQuote (quote : Char) (s : String) :
    (doubleQuote quote s).toList = s.toList.flatMap (fun c => if c = quote then [c, c] else [c]) := by
  rw [doubleQuote, String.toList_ofList]

theorem quoted_append_inj {quote : Char} {s t : String} {x y : List Char} (hx : x.head? ≠ some quote)
    (hy : y.head? ≠ some quote)
    (h : (doubleQuote quote s).toList ++ quote :: x = (doubleQuote quote t).toList ++ quote :: y) :
    s = t ∧ x = y := by
  rw [toList_doubleQuote, toList_doubleQuote] at h
  have hchar : ∀ c d (x y : List Char), (if c = quote then [c, c] else [c]) ++ x =
      (if d = quote then [d, d] else [d]) ++ y → c = d := by
    intro c d x y heq
    by_cases hc : c = quote <;> by_cases hd : d = quote <;> simp_all
  have hquote : ∀ c (x y : List Char), y.head? ≠ some quote →
      (if c = quote then [c, c] else [c]) ++ x ≠ quote :: y := by
    intro c x y hy heq
    by_cases hc : c = quote
    · rw [if_pos hc] at heq
      have htail := List.tail_eq_of_cons_eq heq
      rw [← htail, hc] at hy
      exact hy rfl
    · rw [if_neg hc] at heq
      exact hc (List.head_eq_of_cons_eq heq)
  obtain ⟨hs, hrest⟩ := Text.encoded_append_inj hchar hquote hx hy h
  exact ⟨String.toList_inj.1 hs, hrest⟩

theorem upperHex_inj : ∀ m < 16, ∀ n < 16, upperHex m = upperHex n → m = n := by decide

theorem upperHex_ne_quote : ∀ n < 16, upperHex n ≠ '\'' := by decide

theorem upperHex_mod (n : Nat) : upperHex n = upperHex (n % 16) := by
  rw [upperHex, upperHex, Nat.mod_mod]

theorem hexByte_append_inj (b c : UInt8) (x y : List Char) (h : hexByte b ++ x = hexByte c ++ y) : b = c := by
  have hb := b.toNat_lt
  have hc := c.toNat_lt
  simp only [hexByte, List.cons_append, List.cons.injEq] at h
  obtain ⟨hhigh, hlow, -⟩ := h
  rw [upperHex_mod b.toNat, upperHex_mod c.toNat] at hlow
  have hdiv := upperHex_inj _ (by omega) _ (by omega) hhigh
  have hmod := upperHex_inj _ (Nat.mod_lt _ (by omega)) _ (Nat.mod_lt _ (by omega)) hlow
  apply UInt8.toNat_inj.1
  omega

theorem bytes_append_inj {bytes bytes' : List UInt8} {x y : List Char}
    (h : bytes.flatMap hexByte ++ '\'' :: x = bytes'.flatMap hexByte ++ '\'' :: y) :
    bytes = bytes' ∧ x = y := by
  have hquote : ∀ (b : UInt8) (x y : List Char), True → hexByte b ++ x ≠ '\'' :: y := by
    intro b x y _ heq
    have hb := b.toNat_lt
    exact upperHex_ne_quote (b.toNat / 16) (by omega) (List.head_eq_of_cons_eq heq)
  exact Text.encoded_append_inj hexByte_append_inj hquote trivial trivial h

theorem word_append_ne {v : Value} (h : IsWord v) {x : List Char} (hx : Text.StopsAt goesOn x) {c : Char}
    (hc : c = '\'' ∨ c = 'X') (y : List Char) : (literal v).toList ++ x ≠ c :: y := by
  have hnamed : ∀ v ∈ named, (literal v).toList.all (fun c => !decide (c = '\'' ∨ c = 'X')) = true := by
    decide +kernel
  have hnumeral : ∀ c, Layout.isNumeral c = true → ¬(c = '\'' ∨ c = 'X') := by
    rintro c hnumeral (rfl | rfl) <;> cases hnumeral
  intro heq
  rcases List.append_eq_cons_iff.1 heq with ⟨-, rfl⟩ | ⟨cs, hcs, -⟩
  · have hgoes := Text.stopsAt_cons.1 hx
    rcases hc with rfl | rfl <;> cases hgoes
  · have hmem : c ∈ (literal v).toList := by
      rw [hcs]
      exact List.mem_cons_self
    rcases h with h | ⟨i, rfl⟩ | ⟨r, rfl, hr⟩
    · have hnone := List.all_eq_true.1 (hnamed v h) c hmem
      simp [hc] at hnone
    · rw [toList_literal_integer] at hmem
      exact hnumeral c (Json.isNumeral_of_mem_renderInt hmem) hc
    · exact hnumeral c (Layout.faithful.isNumeral_of_mem_render hr hmem) hc

theorem head?_ne_of_stopsAt {x : List Char} (hx : Text.StopsAt goesOn x) {c : Char} (hc : goesOn c = true) :
    x.head? ≠ some c := by
  intro h
  rw [hx c h] at hc
  cases hc

theorem toList_literal_text (s : String) (x : List Char) :
    (literal (.text s)).toList ++ x = '\'' :: ((doubleQuote '\'' s).toList ++ '\'' :: x) := by
  simp [literal]

theorem toList_literal_blob (bytes : List UInt8) (x : List Char) :
    (literal (.blob bytes)).toList ++ x = 'X' :: '\'' :: (bytes.flatMap hexByte ++ '\'' :: x) := by
  simp [literal]

/-- A literal can be read off the front of a longer text. -/
theorem literal_append_inj {v w : Value} {x y : List Char} (hx : Text.StopsAt goesOn x)
    (hy : Text.StopsAt goesOn y) (h : (literal v).toList ++ x = (literal w).toList ++ y) :
    v.plain = w.plain ∧ x = y := by
  rw [← literal_plain v, ← literal_plain w] at h
  rcases plain_cases v with hv | ⟨s, hv⟩ | ⟨bytes, hv⟩ <;>
    rcases plain_cases w with hw | ⟨t, hw⟩ | ⟨bytes', hw⟩
  · obtain ⟨htext, hrest⟩ := Text.run_append_inj (goesOn_of_mem_word hv) (goesOn_of_mem_word hw) hx hy h
    exact ⟨word_inj hv hw (String.toList_inj.1 htext), hrest⟩
  · rw [hw, toList_literal_text] at h
    exact absurd h (word_append_ne hv hx (Or.inl rfl) _)
  · rw [hw, toList_literal_blob] at h
    exact absurd h (word_append_ne hv hx (Or.inr rfl) _)
  · rw [hv, toList_literal_text] at h
    exact absurd h.symm (word_append_ne hw hy (Or.inl rfl) _)
  · rw [hv, hw, toList_literal_text, toList_literal_text] at h
    obtain ⟨rfl, hrest⟩ := quoted_append_inj (head?_ne_of_stopsAt hx rfl) (head?_ne_of_stopsAt hy rfl)
      (List.tail_eq_of_cons_eq h)
    exact ⟨hv.trans hw.symm, hrest⟩
  · rw [hv, hw, toList_literal_text, toList_literal_blob] at h
    cases h
  · rw [hv, toList_literal_blob] at h
    exact absurd h.symm (word_append_ne hw hy (Or.inr rfl) _)
  · rw [hv, hw, toList_literal_text, toList_literal_blob] at h
    cases h
  · rw [hv, hw, toList_literal_blob, toList_literal_blob] at h
    obtain ⟨rfl, hrest⟩ := bytes_append_inj (List.tail_eq_of_cons_eq (List.tail_eq_of_cons_eq h))
    exact ⟨hv.trans hw.symm, hrest⟩

end Sql

end EntityStore
