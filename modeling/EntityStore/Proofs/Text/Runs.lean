import Mathlib.Data.List.TakeDrop
import Mathlib.Data.List.TakeWhile

/-!
# Runs of characters

A run of characters of one kind ends where a character of another kind follows, and a quoted run,
in which every quote stands twice, ends at the first single one. So both can be read off the front
of a text.
-/

namespace EntityStore.Text

variable {p : Char → Bool} {cs cs' rest rest' : List Char}

def StopsAt (p : Char → Bool) (rest : List Char) : Prop := ∀ c ∈ rest.head?, p c = false

theorem stopsAt_nil : StopsAt p [] := by
  intro c h
  cases h

theorem stopsAt_cons {c : Char} : StopsAt p (c :: rest) ↔ p c = false := by
  simp [StopsAt]

theorem span_append (h : ∀ c ∈ cs, p c = true) (hrest : StopsAt p rest) :
    (cs ++ rest).span p = (cs, rest) := by
  rw [List.span_eq_takeWhile_dropWhile, List.takeWhile_append_of_pos h, List.dropWhile_append_of_pos h]
  cases rest with
  | nil => simp
  | cons c rest =>
    have hc : ¬p c = true := by
      rw [stopsAt_cons.1 hrest]
      exact Bool.false_ne_true
    rw [List.takeWhile_cons_of_neg hc, List.dropWhile_cons_of_neg hc, List.append_nil]

theorem run_append_inj (h : ∀ c ∈ cs, p c = true) (h' : ∀ c ∈ cs', p c = true)
    (hrest : StopsAt p rest) (hrest' : StopsAt p rest') (heq : cs ++ rest = cs' ++ rest') :
    cs = cs' ∧ rest = rest' := by
  have hspan := span_append h hrest
  rw [heq, span_append h' hrest'] at hspan
  cases hspan
  exact ⟨rfl, rfl⟩

theorem encoded_append_inj {α : Type} {encode : α → List Char} {quote : Char} {stop : List Char → Prop}
    (hitem : ∀ a b x y, encode a ++ x = encode b ++ y → a = b)
    (hquote : ∀ a x y, stop y → encode a ++ x ≠ quote :: y) {items items' : List α} (hrest : stop rest)
    (hrest' : stop rest')
    (heq : items.flatMap encode ++ quote :: rest = items'.flatMap encode ++ quote :: rest') :
    items = items' ∧ rest = rest' := by
  induction items generalizing items' with
  | nil =>
    cases items' with
    | nil =>
      cases heq
      exact ⟨rfl, rfl⟩
    | cons b items' =>
      rw [List.flatMap_cons, List.append_assoc] at heq
      exact absurd heq.symm (hquote b _ _ hrest)
  | cons a items ih =>
    rw [List.flatMap_cons, List.append_assoc] at heq
    cases items' with
    | nil => exact absurd heq (hquote a _ _ hrest')
    | cons b items' =>
      rw [List.flatMap_cons, List.append_assoc] at heq
      obtain rfl := hitem a b _ _ heq
      obtain ⟨rfl, hrests⟩ := ih (List.append_cancel_left heq)
      exact ⟨rfl, hrests⟩

end EntityStore.Text
