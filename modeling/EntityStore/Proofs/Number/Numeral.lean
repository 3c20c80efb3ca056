import EntityStore.Proofs.Json.Parser

/-!
# Numerals

Every layout writes a number after its sign as digits, with a fraction and an exponent or without.
Such a text is read up to its end, so a reader of numbers never refuses it.
-/

namespace EntityStore

open Json.Token (digitRun fractionPart? exponentPart? digitsValue)

structure Digits (cs : List Char) : Prop where
  ne_nil : cs ≠ []
  isDigit : ∀ c ∈ cs, c.isDigit = true

inductive Fraction : List Char → Prop
  | absent : Fraction []
  | present {digits : List Char} (h : Digits digits) : Fraction ('.' :: digits)

inductive Exponent : List Char → Prop
  | absent : Exponent []
  | present {sign digits : List Char} (hsign : sign ∈ [[], ['+'], ['-']]) (h : Digits digits) :
      Exponent ('e' :: (sign ++ digits))

inductive Numeral : List Char → Prop
  | intro {whole fraction exponent : List Char} (hwhole : Digits whole) (hfraction : Fraction fraction)
      (hexponent : Exponent exponent) : Numeral (whole ++ (fraction ++ exponent))

variable {cs digits fraction exponent rest : List Char}

theorem digits_singleton {c : Char} (h : c.isDigit = true) : Digits [c] where
  ne_nil := List.cons_ne_nil _ _
  isDigit := List.forall_mem_singleton.2 h

theorem digits_toDigits (n : Nat) : Digits (Nat.toDigits 10 n) where
  ne_nil := Nat.toDigits_ne_nil
  isDigit := fun _ hc => Nat.isDigit_of_mem_toDigits (Nat.succ_pos 9) le_rfl hc

theorem Digits.append_zeros (h : Digits cs) (n : Nat) : Digits (cs ++ List.replicate n '0') where
  ne_nil := List.append_ne_nil_of_left_ne_nil h.ne_nil _
  isDigit := fun c hc => (List.mem_append.1 hc).elim (h.isDigit c) Layout.isDigit_of_mem_zeros

theorem Digits.zeros_append (h : Digits cs) (n : Nat) : Digits (List.replicate n '0' ++ cs) where
  ne_nil := List.append_ne_nil_of_right_ne_nil _ h.ne_nil
  isDigit := fun c hc => (List.mem_append.1 hc).elim Layout.isDigit_of_mem_zeros (h.isDigit c)

theorem Digits.numeral (h : Digits cs) : Numeral cs := by
  rw [← List.append_nil cs]
  exact .intro h .absent .absent

theorem Digits.numeral_point (h : Digits cs) (hdigits : Digits digits) : Numeral (cs ++ '.' :: digits) := by
  rw [← List.append_nil ('.' :: digits)]
  exact .intro h (.present hdigits) .absent

theorem Numeral.exists_head (h : Numeral cs) : ∃ c tail, cs = c :: tail ∧ c.isDigit = true := by
  cases h with
  | intro hwhole hfraction hexponent =>
    obtain ⟨c, tail, rfl⟩ := List.exists_cons_of_ne_nil hwhole.ne_nil
    exact ⟨c, _, rfl, hwhole.isDigit c List.mem_cons_self⟩

/-! ### Layouts -/

namespace Layout

variable {d : Decimal}

theorem numeral_positional (l : Layout) (h : Digits d.digits) : Numeral (l.positional d) := by
  unfold positional
  split
  · exact (digits_singleton rfl).numeral_point (h.zeros_append _)
  · next hpoint =>
    simp only
    split
    · cases l.wholeMark with
      | true => exact (h.append_zeros _).numeral_point (digits_singleton rfl)
      | false =>
        rw [if_neg Bool.false_ne_true, List.append_nil]
        exact (h.append_zeros _).numeral
    · next hshort =>
      have htake : Digits (d.digits.take d.point.toNat) := by
        refine ⟨?_, fun c hc => h.isDigit c (List.mem_of_mem_take hc)⟩
        rw [Ne, List.take_eq_nil_iff, not_or]
        exact ⟨by omega, h.ne_nil⟩
      have hdrop : Digits (d.digits.drop d.point.toNat) := by
        refine ⟨?_, fun c hc => h.isDigit c (List.mem_of_mem_drop hc)⟩
        rw [Ne, List.drop_eq_nil_iff]
        exact hshort
      exact htake.numeral_point hdrop

theorem numeral_exponential (l : Layout) (h : Digits d.digits) : Numeral (l.exponential d) := by
  obtain ⟨c, cs, hcs⟩ := List.exists_cons_of_ne_nil h.ne_nil
  have hdigits := h.isDigit
  rw [hcs] at hdigits
  obtain ⟨hfirst, hothers⟩ := List.forall_mem_cons.1 hdigits
  have hsign : (if d.point - 1 < 0 then ['-'] else if l.plusSign then ['+'] else []) ∈ [[], ['+'], ['-']] := by
    split
    · simp
    · split <;> simp
  have hexponent := Exponent.present hsign (digits_toDigits (d.point - 1).natAbs)
  simp only [exponential, hcs, List.take_succ_cons, List.take_zero, List.drop_succ_cons, List.drop_zero,
    List.append_assoc, List.cons_append]
  cases cs with
  | nil =>
    have hnumeral := Numeral.intro (digits_singleton hfirst) .absent hexponent
    exact hnumeral
  | cons b cs =>
    have hfraction := Fraction.present (Digits.mk (List.cons_ne_nil b cs) hothers)
    have hnumeral := Numeral.intro (digits_singleton hfirst) hfraction hexponent
    exact hnumeral

/-- Whatever the layout, the text of a finite number after its sign is a numeral. -/
theorem numeral_body (l : Layout) (x : Binary64) : Numeral (l.body x) := by
  have hzero : Digits ['0'] := digits_singleton rfl
  unfold body
  split
  · unfold zero
    cases l.wholeMark with
    | true => exact hzero.numeral_point hzero
    | false => exact hzero.numeral
  · next hunits =>
    have hdigits : Digits (Shortest.decimal l.tie x).digits :=
      ⟨digits_decimal_ne_nil l.tie ((units_eq_zero_iff x).not.1 hunits), fun _ hc => Shortest.isDigit_of_mem_decimal hc⟩
    simp only
    split
    · exact l.numeral_positional hdigits
    · exact l.numeral_exponential hdigits

end Layout

/-! ### Reading -/

theorem Digits.digitRun_append (h : Digits cs) (hrest : Text.StopsAt Char.isDigit rest) :
    digitRun (cs ++ rest) = (cs, rest) := Text.span_append h.isDigit hrest

theorem Fraction.read_append (h : Fraction fraction)
    (hrest : Text.StopsAt (fun c => c.isDigit || c == '.') rest) :
    ∃ digits, fractionPart? (fraction ++ rest) = some (digits, rest) := by
  cases h with
  | absent =>
    refine ⟨none, ?_⟩
    unfold fractionPart?
    split
    · next heq =>
      rw [List.nil_append] at heq
      rw [heq] at hrest
      cases Text.stopsAt_cons.1 hrest
    · rfl
  | present h =>
    have hstop : Text.StopsAt Char.isDigit rest := fun c hc => (Bool.or_eq_false_iff.1 (hrest c hc)).1
    have hrun := h.digitRun_append hstop
    obtain ⟨d, ds, rfl⟩ := List.exists_cons_of_ne_nil h.ne_nil
    refine ⟨some (d :: ds), ?_⟩
    rw [List.cons_append, fractionPart?, hrun]

theorem stopsAt_isDigit (h : Text.StopsAt Json.Token.extendsNumber rest) : Text.StopsAt Char.isDigit rest := by
  intro c hc
  have hstop := h c hc
  simp only [Json.Token.extendsNumber, Bool.or_eq_false_iff] at hstop
  exact hstop.1.1.1

theorem Exponent.read_append (h : Exponent exponent) (hrest : Text.StopsAt Json.Token.extendsNumber rest) :
    ∃ e, exponentPart? (exponent ++ rest) = some (e, rest) := by
  cases h with
  | absent => exact ⟨none, Json.Token.exponentPart?_stop hrest⟩
  | present hsign h =>
    have hstop : Text.StopsAt Char.isDigit rest := stopsAt_isDigit hrest
    have hrun := h.digitRun_append hstop
    obtain ⟨d, ds, rfl⟩ := List.exists_cons_of_ne_nil h.ne_nil
    rw [List.cons_append] at hrun
    have hne : ∀ c, c.isDigit = false → d ≠ c := by
      rintro c hc rfl
      cases hc.symm.trans (h.isDigit d List.mem_cons_self)
    simp only [List.mem_cons, List.not_mem_nil, or_false] at hsign
    rcases hsign with rfl | rfl | rfl
    · simp [exponentPart?, hne '+' rfl, hne '-' rfl, hrun]
    · simp [exponentPart?, hrun]
    · simp [exponentPart?, hrun]

theorem Fraction.stopsAt_append (h : Fraction fraction) (hrest : Text.StopsAt Char.isDigit rest) :
    Text.StopsAt Char.isDigit (fraction ++ rest) := by
  cases h with
  | absent => exact hrest
  | present h => exact Text.stopsAt_cons.2 rfl

theorem Exponent.stopsAt_append (h : Exponent exponent) (hrest : Text.StopsAt Json.Token.extendsNumber rest) :
    Text.StopsAt (fun c => c.isDigit || c == '.') (exponent ++ rest) := by
  cases h with
  | absent =>
    intro c hc
    have hstop := hrest c hc
    simp only [Json.Token.extendsNumber, Bool.or_eq_false_iff] at hstop
    exact Bool.or_eq_false_iff.2 hstop.1.1
  | present hsign h => exact Text.stopsAt_cons.2 rfl

theorem Numeral.read_append (h : Numeral cs) (hrest : Text.StopsAt Json.Token.extendsNumber rest) :
    ∃ whole fraction exponent tail tail', whole ≠ [] ∧ digitRun (cs ++ rest) = (whole, tail) ∧
      fractionPart? tail = some (fraction, tail') ∧ exponentPart? tail' = some (exponent, rest) := by
  cases h with
  | intro hwhole hfraction hexponent =>
    have hstop := hexponent.stopsAt_append hrest
    have hdigits : Text.StopsAt Char.isDigit (_ ++ rest) := fun c hc => (Bool.or_eq_false_iff.1 (hstop c hc)).1
    obtain ⟨digits, hread⟩ := hfraction.read_append hstop
    obtain ⟨e, hreadExponent⟩ := hexponent.read_append hrest
    refine ⟨_, digits, e, _, _, hwhole.ne_nil, ?_, hread, hreadExponent⟩
    rw [List.append_assoc, List.append_assoc]
    exact hwhole.digitRun_append (hfraction.stopsAt_append hdigits)

end EntityStore
