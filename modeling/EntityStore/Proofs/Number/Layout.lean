import EntityStore.Number.Layout
import EntityStore.Number.Notation
import EntityStore.Proofs.Number.Shortest
import EntityStore.Proofs.Text.Runs
import Mathlib.Tactic.FieldSimp
import Mathlib.Algebra.Order.Field.Rat

/-!
# Numbers from their texts

Every layout writes the shortest decimal of a number so that its value can be read off the text, in
positional notation as with an exponent. So two finite numbers that have one text in a layout are
the same number.
-/

namespace EntityStore

open Json.Token (digitRun exponentPart?)

def Decimal.value (d : Decimal) : Rat :=
  (Nat.ofDigitChars 10 d.digits 0 : Rat) * 10 ^ (d.point - (d.digits.length : Int))

namespace Shortest

theorem exists_dropTrailingZeros (cs : List Char) :
    ∃ n, cs = dropTrailingZeros cs ++ List.replicate n '0' := by
  have hsplit := List.takeWhile_append_dropWhile (p := (· == '0')) (l := cs.reverse)
  have hzeros : cs.reverse.takeWhile (· == '0') =
      List.replicate (cs.reverse.takeWhile (· == '0')).length '0' := by
    apply List.eq_replicate_of_mem
    intro c hc
    exact beq_iff_eq.1 (List.mem_takeWhile_imp (p := (· == '0')) hc)
  refine ⟨(cs.reverse.takeWhile (· == '0')).length, ?_⟩
  have hreverse := congrArg List.reverse hsplit
  rw [List.reverse_append, List.reverse_reverse, hzeros, List.reverse_replicate] at hreverse
  exact hreverse.symm

theorem mem_of_mem_dropTrailingZeros {cs : List Char} {c : Char} (h : c ∈ dropTrailingZeros cs) : c ∈ cs := by
  obtain ⟨n, hn⟩ := exists_dropTrailingZeros cs
  rw [hn]
  exact List.mem_append_left _ h

theorem isDigit_of_mem_decimal {tie : TieRule} {x : Binary64} {c : Char}
    (h : c ∈ (decimal tie x).digits) : c.isDigit = true :=
  Nat.isDigit_of_mem_toDigits (Nat.succ_pos 9) le_rfl (mem_of_mem_dropTrailingZeros h)

theorem value_decimal (tie : TieRule) (x : Binary64) :
    (decimal tie x).value * 10 ^ 350 = (point tie x : Rat) := by
  obtain ⟨d, e, hsearch⟩ : ∃ d e, search (interval x) tie (size x) 17 1 = (d, e) := ⟨_, _, rfl⟩
  have hdecimal : decimal tie x =
      { digits := dropTrailingZeros (Nat.toDigits 10 d)
        point := ((Nat.toDigits 10 d).length : Int) + (e : Int) - 350 } := by
    unfold decimal
    simp only
    rw [← size, hsearch]
  obtain ⟨n, hn⟩ := exists_dropTrailingZeros (Nat.toDigits 10 d)
  have hd : d = 10 ^ n * Nat.ofDigitChars 10 (dropTrailingZeros (Nat.toDigits 10 d)) 0 := by
    rw [← Nat.ofDigitChars_replicate_zero, ← Nat.ofDigitChars_append, ← hn, Nat.ofDigitChars_ten_toDigits]
  have hlength := congrArg List.length hn
  rw [List.length_append, List.length_replicate] at hlength
  generalize dropTrailingZeros (Nat.toDigits 10 d) = digits at hdecimal hd hlength
  have hexponent : ((Nat.toDigits 10 d).length : Int) + e - 350 - digits.length = (n : Int) + e - 350 := by
    omega
  rw [point, hsearch, hdecimal, Decimal.value, hexponent, hd]
  push_cast
  rw [zpow_sub₀ (by norm_num), zpow_add₀ (by norm_num), zpow_natCast, zpow_natCast]
  field_simp

theorem magnitude_eq_of_value_eq {tie tie' : TieRule} {x y : Binary64} (hx : x.magnitude ≠ 0)
    (hy : y.magnitude ≠ 0) (h : (decimal tie x).value = (decimal tie' y).value) :
    x.magnitude = y.magnitude := by
  have hpoint := value_decimal tie x
  rw [h, value_decimal] at hpoint
  exact (magnitude_eq_of_point_eq hy hx (Nat.cast_inj.1 hpoint)).symm

theorem value_decimal_pos (tie : TieRule) {x : Binary64} (h : x.magnitude ≠ 0) :
    0 < (decimal tie x).value := by
  have hpos := point_pos tie h
  have hvalue := value_decimal tie x
  by_contra hle
  have hneg : (decimal tie x).value * 10 ^ 350 ≤ 0 :=
    mul_nonpos_of_nonpos_of_nonneg (not_lt.1 hle) (by positivity)
  rw [hvalue] at hneg
  exact absurd (Nat.cast_pos.2 hpos) (not_lt.2 hneg)

end Shortest

namespace Decimal

def exponentOf (cs : List Char) : Int :=
  match exponentPart? cs with
  | some (some e, _) => e
  | _ => 0

def valueOf (cs : List Char) : Rat :=
  let (whole, rest) := digitRun cs
  let (fraction, rest) := Binary64.fractionDigits rest
  (Nat.ofDigitChars 10 (whole ++ fraction) 0 : Rat) * 10 ^ (exponentOf rest - (fraction.length : Int))

variable {whole fraction rest : List Char}

theorem valueOf_point (hwhole : ∀ c ∈ whole, c.isDigit = true) (hfraction : ∀ c ∈ fraction, c.isDigit = true)
    (hrest : Text.StopsAt Char.isDigit rest) :
    valueOf (whole ++ '.' :: (fraction ++ rest)) =
      (Nat.ofDigitChars 10 (whole ++ fraction) 0 : Rat) * 10 ^ (exponentOf rest - (fraction.length : Int)) := by
  have hpoint : Text.StopsAt Char.isDigit ('.' :: (fraction ++ rest)) := Text.stopsAt_cons.2 rfl
  simp only [valueOf, digitRun, Text.span_append hwhole hpoint, Binary64.fractionDigits,
    Text.span_append hfraction hrest]

theorem valueOf_whole (hwhole : ∀ c ∈ whole, c.isDigit = true) (hrest : Text.StopsAt Char.isDigit rest)
    (hpoint : rest.head? ≠ some '.') :
    valueOf (whole ++ rest) = (Nat.ofDigitChars 10 whole 0 : Rat) * 10 ^ exponentOf rest := by
  have hfraction : Binary64.fractionDigits rest = ([], rest) := by
    unfold Binary64.fractionDigits
    split
    · exact absurd rfl hpoint
    · rfl
  simp only [valueOf, digitRun, Text.span_append hwhole hrest, hfraction, List.append_nil, List.length_nil,
    Nat.cast_zero, Int.sub_zero]

theorem exponentOf_nil : exponentOf [] = 0 := rfl

theorem digitsValue_eq (cs : List Char) : Json.Token.digitsValue cs = Nat.ofDigitChars 10 cs 0 := by
  rw [Json.Token.digitsValue, Nat.ofDigitChars_eq_foldl]
  simp only [Nat.mul_comm 10]

theorem digitsValue_toDigits (n : Nat) : Json.Token.digitsValue (Nat.toDigits 10 n) = n := by
  rw [digitsValue_eq, Nat.ofDigitChars_ten_toDigits]

theorem exponentOf_e (plus : Bool) (e : Int) :
    exponentOf ('e' :: ((if e < 0 then ['-'] else if plus then ['+'] else []) ++
      Nat.toDigits 10 e.natAbs)) = e := by
  have hdigits : digitRun (Nat.toDigits 10 e.natAbs) = (Nat.toDigits 10 e.natAbs, []) := by
    have hall : ∀ c ∈ Nat.toDigits 10 e.natAbs, c.isDigit = true := fun c hc =>
      Nat.isDigit_of_mem_toDigits (Nat.succ_pos 9) le_rfl hc
    have hspan := Text.span_append hall Text.stopsAt_nil
    rwa [List.append_nil] at hspan
  have hvalue := digitsValue_toDigits e.natAbs
  obtain ⟨c, cs, hcs⟩ := List.exists_cons_of_ne_nil (Nat.toDigits_ne_nil (n := e.natAbs) (b := 10))
  have hc : c.isDigit = true := by
    apply Nat.isDigit_of_mem_toDigits (Nat.succ_pos 9) le_rfl
    rw [hcs]
    exact List.mem_cons_self
  rw [hcs] at hdigits hvalue ⊢
  by_cases hneg : e < 0
  · simp [exponentOf, exponentPart?, hneg, hdigits, hvalue, abs_of_neg hneg]
  · rw [if_neg hneg]
    have hplus : c ≠ '+' := by
      rintro rfl
      cases hc
    have hminus : c ≠ '-' := by
      rintro rfl
      cases hc
    cases plus with
    | true =>
      simp [exponentOf, exponentPart?, hdigits, hvalue, abs_of_nonneg (not_lt.1 hneg)]
    | false =>
      simp [exponentOf, exponentPart?, hdigits, hvalue, hplus, hminus, abs_of_nonneg (not_lt.1 hneg)]

end Decimal

namespace Layout

open Decimal (valueOf exponentOf)

variable {d : Decimal}

theorem ofDigitChars_zeros (n : Nat) (cs : List Char) :
    Nat.ofDigitChars 10 (List.replicate n '0' ++ cs) 0 = Nat.ofDigitChars 10 cs 0 := by
  rw [Nat.ofDigitChars_append, Nat.ofDigitChars_replicate_zero, Nat.mul_zero]

theorem isDigit_of_mem_zeros {n : Nat} {c : Char} (h : c ∈ List.replicate n '0') : c.isDigit = true := by
  rw [List.eq_of_mem_replicate h]
  rfl

theorem valueOf_positional (l : Layout) (h : ∀ c ∈ d.digits, c.isDigit = true) :
    valueOf (l.positional d) = d.value := by
  unfold positional
  split
  · next hpoint =>
    have hzero : ∀ c ∈ ['0'], c.isDigit = true := by simp
    have hfraction : ∀ c ∈ List.replicate (-d.point).toNat '0' ++ d.digits, c.isDigit = true := by
      intro c hc
      exact (List.mem_append.1 hc).elim isDigit_of_mem_zeros (h c)
    have hvalue := Decimal.valueOf_point hzero hfraction Text.stopsAt_nil
    have hdigits := ofDigitChars_zeros ((-d.point).toNat + 1) d.digits
    rw [List.replicate_succ, List.cons_append] at hdigits
    rw [List.append_nil, List.singleton_append, List.singleton_append, hdigits, Decimal.exponentOf_nil,
      List.length_append, List.length_replicate] at hvalue
    rw [hvalue, Decimal.value]
    congr 2
    omega
  · next hpoint =>
    simp only
    split
    · next hlong =>
      have hwhole : ∀ c ∈ d.digits ++ List.replicate (d.point.toNat - d.digits.length) '0', c.isDigit = true := by
        intro c hc
        exact (List.mem_append.1 hc).elim (h c) isDigit_of_mem_zeros
      have hdigits : (Nat.ofDigitChars 10 (d.digits ++ List.replicate (d.point.toNat - d.digits.length) '0') 0 : Rat) =
          d.value := by
        have hexponent : d.point - d.digits.length = ((d.point.toNat - d.digits.length : Nat) : Int) := by omega
        rw [Nat.ofDigitChars_append, Nat.ofDigitChars_replicate_zero, Decimal.value, hexponent, zpow_natCast]
        push_cast
        ring
      cases l.wholeMark with
      | true =>
        have hzero : ∀ c ∈ ['0'], c.isDigit = true := by simp
        have hvalue := Decimal.valueOf_point hwhole hzero Text.stopsAt_nil
        rw [List.append_nil, Nat.ofDigitChars_append, Decimal.exponentOf_nil] at hvalue
        rw [if_pos rfl, hvalue, ← hdigits]
        simp [Nat.ofDigitChars_cons]
        ring
      | false =>
        have hvalue := Decimal.valueOf_whole hwhole Text.stopsAt_nil (by simp)
        rw [Decimal.exponentOf_nil, zpow_zero, mul_one, hdigits] at hvalue
        exact hvalue
    · next hshort =>
      have htake : ∀ c ∈ d.digits.take d.point.toNat, c.isDigit = true := fun c hc => h c (List.mem_of_mem_take hc)
      have hdrop : ∀ c ∈ d.digits.drop d.point.toNat, c.isDigit = true := fun c hc => h c (List.mem_of_mem_drop hc)
      have hvalue := Decimal.valueOf_point htake hdrop Text.stopsAt_nil
      rw [List.append_nil, List.take_append_drop, Decimal.exponentOf_nil, List.length_drop] at hvalue
      rw [hvalue, Decimal.value]
      congr 2
      omega

theorem valueOf_exponential (l : Layout) (h : ∀ c ∈ d.digits, c.isDigit = true) (hne : d.digits ≠ []) :
    valueOf (l.exponential d) = d.value := by
  obtain ⟨c, cs, hdigits⟩ := List.exists_cons_of_ne_nil hne
  have hexponent := Decimal.exponentOf_e l.plusSign (d.point - 1)
  unfold exponential
  rw [hdigits] at h ⊢
  simp only [List.take_succ_cons, List.take_zero, List.drop_succ_cons, List.drop_zero, List.append_assoc,
    List.cons_append, List.nil_append] at hexponent ⊢
  generalize (if d.point - 1 < 0 then ['-'] else if l.plusSign = true then ['+'] else []) ++
    Nat.toDigits 10 (d.point - 1).natAbs = tail at hexponent ⊢
  have hstop : Text.StopsAt Char.isDigit ('e' :: tail) := Text.stopsAt_cons.2 rfl
  have hfirst : ∀ b ∈ [c], b.isDigit = true := fun b hb => h b (List.mem_of_mem_take (i := 1) hb)
  have hvalue : d.value = (Nat.ofDigitChars 10 (c :: cs) 0 : Rat) * 10 ^ (d.point - 1 - (cs.length : Int)) := by
    rw [Decimal.value, hdigits, List.length_cons]
    congr 2
    omega
  cases cs with
  | nil =>
    have hread := Decimal.valueOf_whole hfirst hstop (by simp)
    rw [hexponent] at hread
    rw [hvalue, List.length_nil, Nat.cast_zero, Int.sub_zero]
    exact hread
  | cons b cs =>
    have hread := Decimal.valueOf_point hfirst (fun b hb => h b (List.mem_cons_of_mem _ hb)) hstop
    rw [hexponent] at hread
    rw [hvalue]
    exact hread

def body (l : Layout) (x : Binary64) : List Char :=
  if x.units = 0 then l.zero
  else
    let d := Shortest.decimal l.tie x
    if l.isPositional d.point then l.positional d else l.exponential d

theorem toList_render (l : Layout) {x : Binary64} (h : x.isFinite = true) :
    (l.render x).toList = (if x.isNegative then ['-'] else []) ++ l.body x := by
  have hnumber : x.isNaN = false := by
    simp only [Binary64.isFinite, Binary64.isNaN, decide_eq_true_eq, decide_eq_false_iff_not] at h ⊢
    omega
  rw [render, if_neg (by rw [hnumber]; exact Bool.false_ne_true), if_pos h, String.toList_ofList]
  rfl

theorem units_eq_zero_iff (x : Binary64) : x.units = 0 ↔ x.magnitude = 0 := by
  rw [Binary64.units_eq]
  constructor
  · intro hunits
    by_contra hne
    exact (Binary64.unitsOf_pos hne).ne' hunits
  · intro hzero
    rw [hzero]
    rfl

theorem digits_decimal_ne_nil (tie : TieRule) {x : Binary64} (h : x.magnitude ≠ 0) :
    (Shortest.decimal tie x).digits ≠ [] := by
  intro hnil
  have hpos := Shortest.value_decimal_pos tie h
  rw [Decimal.value, hnil] at hpos
  simp at hpos

theorem valueOf_body (l : Layout) (x : Binary64) :
    valueOf (l.body x) = if x.magnitude = 0 then 0 else (Shortest.decimal l.tie x).value := by
  have hdigits : ∀ c ∈ (Shortest.decimal l.tie x).digits, c.isDigit = true :=
    fun c hc => Shortest.isDigit_of_mem_decimal hc
  unfold body
  by_cases hzero : x.magnitude = 0
  · rw [if_pos ((units_eq_zero_iff x).2 hzero), if_pos hzero, zero]
    cases l.wholeMark with
    | true =>
      have hdigit : ∀ c ∈ ['0'], c.isDigit = true := by simp
      have hread := Decimal.valueOf_point hdigit hdigit Text.stopsAt_nil
      rw [List.append_nil] at hread
      exact hread.trans (by simp [Nat.ofDigitChars_cons])
    | false =>
      have hdigit : ∀ c ∈ ['0'], c.isDigit = true := by simp
      have hread := Decimal.valueOf_whole hdigit Text.stopsAt_nil (by simp)
      exact hread.trans (by simp [Nat.ofDigitChars_cons])
  · rw [if_neg ((units_eq_zero_iff x).not.2 hzero), if_neg hzero]
    simp only
    split
    · exact valueOf_positional l hdigits
    · exact valueOf_exponential l hdigits (digits_decimal_ne_nil l.tie hzero)

def isNumeral (c : Char) : Bool := c.isDigit || c == '.' || c == 'e' || c == '+' || c == '-'

theorem isNumeral_of_isDigit {c : Char} (h : c.isDigit = true) : isNumeral c = true := by
  simp [isNumeral, h]

theorem isNumeral_of_mem_positional (l : Layout) (h : ∀ c ∈ d.digits, c.isDigit = true) {c : Char}
    (hc : c ∈ l.positional d) : isNumeral c = true := by
  have hzeros : ∀ n, c ∈ List.replicate n '0' → isNumeral c = true := fun n hmem =>
    isNumeral_of_isDigit (isDigit_of_mem_zeros hmem)
  have hdigits : c ∈ d.digits → isNumeral c = true := fun hmem => isNumeral_of_isDigit (h c hmem)
  unfold positional at hc
  split at hc
  · simp only [List.mem_cons, List.mem_append] at hc
    rcases hc with rfl | rfl | hc | hc
    · rfl
    · rfl
    · exact hzeros _ hc
    · exact hdigits hc
  · simp only at hc
    split at hc
    · rw [List.mem_append, List.mem_append] at hc
      rcases hc with (hc | hc) | hc
      · exact hdigits hc
      · exact hzeros _ hc
      · split at hc
        · simp only [List.mem_cons, List.not_mem_nil, or_false] at hc
          rcases hc with rfl | rfl <;> rfl
        · cases hc
    · rw [List.mem_append, List.mem_cons] at hc
      rcases hc with hc | rfl | hc
      · exact hdigits (List.mem_of_mem_take hc)
      · rfl
      · exact hdigits (List.mem_of_mem_drop hc)

theorem isNumeral_of_mem_exponential (l : Layout) (h : ∀ c ∈ d.digits, c.isDigit = true) {c : Char}
    (hc : c ∈ l.exponential d) : isNumeral c = true := by
  have hdigits : c ∈ d.digits → isNumeral c = true := fun hmem => isNumeral_of_isDigit (h c hmem)
  simp only [exponential, List.mem_append, List.mem_cons] at hc
  rcases hc with ((hc | hc) | rfl | hc) | hc
  · exact hdigits (List.mem_of_mem_take hc)
  · split at hc
    · cases hc
    · rcases List.mem_cons.1 hc with rfl | hc
      · rfl
      · exact hdigits (List.mem_of_mem_drop hc)
  · rfl
  · split at hc
    · rcases List.mem_singleton.1 hc with rfl
      rfl
    · split at hc
      · rcases List.mem_singleton.1 hc with rfl
        rfl
      · cases hc
  · exact isNumeral_of_isDigit (Nat.isDigit_of_mem_toDigits (Nat.succ_pos 9) le_rfl hc)

theorem isNumeral_of_mem_body (l : Layout) {x : Binary64} {c : Char} (h : c ∈ l.body x) :
    isNumeral c = true := by
  have hdigits : ∀ c ∈ (Shortest.decimal l.tie x).digits, c.isDigit = true :=
    fun c hc => Shortest.isDigit_of_mem_decimal hc
  unfold body at h
  split at h
  · unfold zero at h
    split at h
    · simp only [List.mem_cons, List.not_mem_nil, or_false] at h
      rcases h with rfl | rfl | rfl <;> rfl
    · rcases List.mem_singleton.1 h with rfl
      rfl
  · simp only at h
    split at h
    · exact isNumeral_of_mem_positional l hdigits h
    · exact isNumeral_of_mem_exponential l hdigits h

theorem exists_head_body (l : Layout) (x : Binary64) :
    ∃ c cs, l.body x = c :: cs ∧ c.isDigit = true := by
  unfold body
  split
  · unfold zero
    split
    · exact ⟨_, _, rfl, rfl⟩
    · exact ⟨_, _, rfl, rfl⟩
  · next hunits =>
    have hzero : x.magnitude ≠ 0 := (units_eq_zero_iff x).not.1 hunits
    obtain ⟨c, cs, hdigits⟩ := List.exists_cons_of_ne_nil (digits_decimal_ne_nil l.tie hzero)
    have hc : c ∈ (Shortest.decimal l.tie x).digits := by
      rw [hdigits]
      exact List.mem_cons_self
    replace hc := Shortest.isDigit_of_mem_decimal hc
    simp only
    split
    · unfold positional
      split
      · exact ⟨_, _, rfl, rfl⟩
      · next hpoint =>
        obtain ⟨n, hn⟩ : ∃ n, (Shortest.decimal l.tie x).point.toNat = n + 1 :=
          ⟨(Shortest.decimal l.tie x).point.toNat - 1, by omega⟩
        simp only [hdigits, hn]
        split
        · exact ⟨c, _, rfl, hc⟩
        · exact ⟨c, _, rfl, hc⟩
    · unfold exponential
      rw [hdigits]
      exact ⟨c, _, rfl, hc⟩

theorem toList_render_ne_nil (l : Layout) {x : Binary64} (h : x.isFinite = true) :
    (l.render x).toList ≠ [] := by
  obtain ⟨c, cs, hbody, -⟩ := l.exists_head_body x
  rw [toList_render l h, hbody]
  exact List.append_ne_nil_of_right_ne_nil _ (List.cons_ne_nil _ _)

theorem isNumeral_of_mem_render (l : Layout) {x : Binary64} (h : x.isFinite = true) {c : Char}
    (hc : c ∈ (l.render x).toList) : isNumeral c = true := by
  rw [toList_render l h] at hc
  rcases List.mem_append.1 hc with hc | hc
  · split at hc
    · rw [List.mem_singleton.1 hc]
      rfl
    · cases hc
  · exact l.isNumeral_of_mem_body hc

theorem exists_mark_body {l : Layout} (h : l.wholeMark = true) (x : Binary64) :
    ∃ c, (c = '.' ∨ c = 'e') ∧ c ∈ l.body x := by
  unfold body
  split
  · exact ⟨'.', Or.inl rfl, by simp [zero, h]⟩
  · simp only
    split
    · refine ⟨'.', Or.inl rfl, ?_⟩
      simp only [positional, h]
      split
      · simp
      · split
        · simp
        · simp
    · refine ⟨'e', Or.inr rfl, ?_⟩
      simp [exponential]

/-- Two finite numbers with one text in a layout are the same number. -/
theorem render_inj (l : Layout) {x y : Binary64} (hx : x.isFinite = true) (hy : y.isFinite = true)
    (h : l.render x = l.render y) : x = y := by
  have htext := congrArg String.toList h
  rw [toList_render l hx, toList_render l hy] at htext
  obtain ⟨c, cs, hbody, hc⟩ := l.exists_head_body x
  obtain ⟨c', cs', hbody', hc'⟩ := l.exists_head_body y
  have hsign : x.isNegative = y.isNegative ∧ l.body x = l.body y := by
    cases hneg : x.isNegative <;> cases hneg' : y.isNegative
    case false.false =>
      rw [hneg, hneg'] at htext
      exact ⟨rfl, htext⟩
    case true.true =>
      rw [hneg, hneg'] at htext
      exact ⟨rfl, List.append_cancel_left htext⟩
    case false.true =>
      rw [hneg, hneg', hbody] at htext
      cases htext
      cases hc
    case true.false =>
      rw [hneg, hneg', hbody'] at htext
      cases htext
      cases hc'
  obtain ⟨hneg, hbodies⟩ := hsign
  have hvalue := congrArg valueOf hbodies
  rw [valueOf_body, valueOf_body] at hvalue
  have hmagnitude : x.magnitude = y.magnitude := by
    by_cases hzero : x.magnitude = 0 <;> by_cases hzero' : y.magnitude = 0
    · rw [hzero, hzero']
    · rw [if_pos hzero, if_neg hzero'] at hvalue
      exact absurd hvalue (Shortest.value_decimal_pos l.tie hzero').ne
    · rw [if_neg hzero, if_pos hzero'] at hvalue
      exact absurd hvalue (Shortest.value_decimal_pos l.tie hzero).ne'
    · rw [if_neg hzero, if_neg hzero'] at hvalue
      exact Shortest.magnitude_eq_of_value_eq hzero hzero' hvalue
  exact Binary64.eq_of_magnitude_eq hneg hmagnitude

end Layout

end EntityStore
