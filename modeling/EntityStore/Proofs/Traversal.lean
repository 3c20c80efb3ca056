import Mathlib.Data.List.Forall2
import EntityStore.Error

/-!
# Computations that may fail

When a sequence of steps succeeds, and when a traversal of a list does. A traversal succeeds exactly
when every step does, and then its result corresponds to the list place by place.
-/

namespace EntityStore.Traversal

variable {ε α β γ : Type}

theorem bind_eq_ok_iff {x : Except ε α} {f : α → Except ε β} {b : β} :
    x >>= f = .ok b ↔ ∃ a, x = .ok a ∧ f a = .ok b := by
  cases x with
  | error e => simp [bind, Except.bind]
  | ok a => simp [bind, Except.bind]

@[simp] theorem ok_bind {a : α} {f : α → Except ε β} : (.ok a : Except ε α) >>= f = f a := rfl

@[simp] theorem error_bind {e : ε} {f : α → Except ε β} :
    (.error e : Except ε α) >>= f = .error e := rfl

@[simp] theorem pure_eq_ok {a b : α} : (pure a : Except ε α) = .ok b ↔ a = b := by
  simp [pure, Except.pure]

theorem map_eq_ok_iff {x : Except ε α} {f : α → β} {b : β} :
    f <$> x = .ok b ↔ ∃ a, x = .ok a ∧ f a = b := by
  cases x with
  | error e => simp [Functor.map, Except.map]
  | ok a => simp [Functor.map, Except.map]

@[simp] theorem discard_eq_ok_iff {x : Except ε α} : discard x = .ok () ↔ ∃ a, x = .ok a := by
  cases x with
  | error e => simp [discard, Functor.discard, Functor.mapConst, Except.map]
  | ok a => simp [discard, Functor.discard, Functor.mapConst, Except.map]

@[simp] theorem liftM_eq_ok_iff {x : Except SchemaError α} {a : α} :
    (liftM x : Except StoreError α) = .ok a ↔ x = .ok a := by
  cases x with
  | error e => exact ⟨fun h => (by cases h), fun h => (by cases h)⟩
  | ok b => exact ⟨fun h => (by cases h; rfl), fun h => (by cases h; rfl)⟩

theorem toOption_eq_some_iff {x : Except ε α} {a : α} : x.toOption = some a ↔ x = .ok a := by
  cases x <;> simp [Except.toOption]

theorem exists_of_mem_left {R : α → β → Prop} {l : List α} {r : List β} (h : List.Forall₂ R l r)
    {a : α} (ha : a ∈ l) : ∃ b ∈ r, R a b := by
  obtain ⟨i, hi, rfl⟩ := List.getElem_of_mem ha
  have hlt : i < r.length := h.length_eq ▸ hi
  exact ⟨r[i], List.getElem_mem hlt, h.get hi hlt⟩

theorem exists_of_mem_right {R : α → β → Prop} {l : List α} {r : List β} (h : List.Forall₂ R l r)
    {b : β} (hb : b ∈ r) : ∃ a ∈ l, R a b := by
  obtain ⟨i, hi, rfl⟩ := List.getElem_of_mem hb
  have hlt : i < l.length := h.length_eq ▸ hi
  exact ⟨l[i], List.getElem_mem hlt, h.get hlt hi⟩

theorem forall_mem_iff_of_forall₂ {R : α → β → Prop} {P : α → Prop} {Q : β → Prop} {l : List α} {r : List β}
    (h : List.Forall₂ R l r) (hiff : ∀ a b, R a b → (P a ↔ Q b)) : (∀ a ∈ l, P a) ↔ ∀ b ∈ r, Q b := by
  constructor
  · intro hl b hb
    obtain ⟨a, ha, hab⟩ := exists_of_mem_right h hb
    exact (hiff a b hab).1 (hl a ha)
  · intro hr a ha
    obtain ⟨b, hb, hab⟩ := exists_of_mem_left h ha
    exact (hiff a b hab).2 (hr b hb)

theorem forall₂_and_right {R : α → β → Prop} {P : β → Prop} {l : List α} {r : List β} :
    List.Forall₂ (fun a b => R a b ∧ P b) l r ↔ List.Forall₂ R l r ∧ ∀ b ∈ r, P b := by
  constructor
  · intro h
    refine ⟨h.imp (fun _ _ hab => hab.1), ?_⟩
    intro b hb
    obtain ⟨_, -, -, hb⟩ := exists_of_mem_right h hb
    exact hb
  · rintro ⟨h, hr⟩
    induction h with
    | nil => exact .nil
    | cons hab _ ih =>
      obtain ⟨hb, hr⟩ := List.forall_mem_cons.1 hr
      exact .cons ⟨hab, hb⟩ (ih hr)

theorem forall₂_filter {R : α → β → Prop} {keep : α → Bool} {keep' : β → Bool} {l : List α} {r : List β}
    (h : List.Forall₂ R l r) (hkeep : ∀ a b, R a b → keep' b = keep a) :
    List.Forall₂ R (l.filter keep) (r.filter keep') := by
  induction h with
  | nil => exact .nil
  | @cons a b l r hab _ ih =>
    have hsame := hkeep a b hab
    cases hb : keep a with
    | true =>
      rw [List.filter_cons_of_pos hb, List.filter_cons_of_pos (hsame.trans hb)]
      exact .cons hab ih
    | false =>
      rw [List.filter_cons_of_neg (by simp [hb]), List.filter_cons_of_neg (by simp [hsame, hb])]
      exact ih

theorem exists_find?_of_forall₂ {R : α → β → Prop} {P : α → Bool} {Q : β → Bool} {l : List α} {r : List β}
    (h : List.Forall₂ R l r) (hsame : ∀ a b, R a b → Q b = P a) {b : β} (hb : r.find? Q = some b) :
    ∃ a, l.find? P = some a ∧ R a b := by
  induction h with
  | nil => cases hb
  | @cons a b' l r hab _ ih =>
    have hsame' := hsame a b' hab
    cases ha : P a with
    | true =>
      rw [List.find?_cons_of_pos (hsame'.trans ha)] at hb
      cases hb
      exact ⟨a, List.find?_cons_of_pos ha, hab⟩
    | false =>
      rw [List.find?_cons_of_neg (by simp [hsame', ha])] at hb
      obtain ⟨a', ha', hab'⟩ := ih hb
      exact ⟨a', by rw [List.find?_cons_of_neg (by simp [ha]), ha'], hab'⟩

theorem forall₂_filterMap {R : α → Option β → Prop} {keep : α → Bool} {l : List α} {r : List (Option β)}
    (h : List.Forall₂ R l r) (hkeep : ∀ a o, R a o → o.isSome = keep a) :
    List.Forall₂ (fun a b => R a (some b)) (l.filter keep) (r.filterMap (fun o => o)) := by
  induction h with
  | nil => exact .nil
  | @cons a o l r hao _ ih =>
    have hsame := hkeep a o hao
    cases o with
    | some b =>
      rw [List.filter_cons_of_pos hsame.symm]
      exact .cons hao ih
    | none =>
      rw [List.filter_cons_of_neg (by simp [← hsame])]
      exact ih

theorem pairwise_of_forall₂ {R : α → β → Prop} {S : α → α → Prop} {T : β → β → Prop} {l : List α} {r : List β}
    (h : List.Forall₂ R l r) (hpairs : l.Pairwise S)
    (himp : ∀ a ∈ l, ∀ a' ∈ l, ∀ b b', S a a' → R a b → R a' b' → T b b') : r.Pairwise T := by
  induction h with
  | nil => exact .nil
  | @cons a b l r hab hrest ih =>
    obtain ⟨hfirst, hpairs⟩ := List.pairwise_cons.1 hpairs
    refine List.pairwise_cons.2 ⟨?_, ih hpairs (fun x hx y hy =>
      himp x (List.mem_cons_of_mem a hx) y (List.mem_cons_of_mem a hy))⟩
    intro b' hb'
    obtain ⟨a', ha', hab'⟩ := exists_of_mem_right hrest hb'
    exact himp a List.mem_cons_self a' (List.mem_cons_of_mem a ha') b b' (hfirst a' ha') hab hab'

theorem mapM_eq_ok_iff {f : α → Except ε β} {l : List α} {r : List β} :
    l.mapM f = .ok r ↔ List.Forall₂ (fun a b => f a = .ok b) l r := by
  induction l generalizing r with
  | nil => cases r <;> simp
  | cons a l ih =>
    simp only [List.mapM_cons, bind_eq_ok_iff, pure_eq_ok, ih]
    constructor
    · rintro ⟨b, hb, bs, hbs, rfl⟩
      exact .cons hb hbs
    · intro h
      cases h with
      | cons hb hbs => exact ⟨_, hb, _, hbs, rfl⟩

theorem exists_mapM {f : α → Except ε β} {l : List α} (h : ∀ a ∈ l, ∃ b, f a = .ok b) :
    ∃ r, l.mapM f = .ok r := by
  induction l with
  | nil => exact ⟨[], rfl⟩
  | cons a l ih =>
    obtain ⟨b, hb⟩ := h a List.mem_cons_self
    obtain ⟨r, hr⟩ := ih (fun x hx => h x (List.mem_cons_of_mem _ hx))
    exact ⟨b :: r, by rw [List.mapM_cons, hb, ok_bind, hr]; rfl⟩

theorem exists_mapM_iff {f : α → Except ε β} {l : List α} :
    (∃ r, l.mapM f = .ok r) ↔ ∀ a ∈ l, ∃ b, f a = .ok b := by
  constructor
  · rintro ⟨r, hr⟩ a ha
    obtain ⟨b, -, hb⟩ := exists_of_mem_left (mapM_eq_ok_iff.1 hr) ha
    exact ⟨b, hb⟩
  · exact exists_mapM

theorem exists_bind_bind_iff {x : Except ε α} {y : Except ε β} {f : α → β → γ} :
    (∃ c, (do let a ← x; let b ← y; return f a b : Except ε γ) = .ok c) ↔
      (∃ a, x = .ok a) ∧ ∃ b, y = .ok b := by
  simp only [bind_eq_ok_iff, pure_eq_ok]
  constructor
  · rintro ⟨_, a, ha, b, hb, -⟩
    exact ⟨⟨a, ha⟩, b, hb⟩
  · rintro ⟨⟨a, ha⟩, b, hb⟩
    exact ⟨_, a, ha, b, hb, rfl⟩

theorem exists_bind_pure_iff {x : Except ε α} {f : α → β} :
    (∃ b, (do let a ← x; return f a : Except ε β) = .ok b) ↔ ∃ a, x = .ok a := by
  simp only [bind_eq_ok_iff, pure_eq_ok]
  constructor
  · rintro ⟨_, a, ha, -⟩
    exact ⟨a, ha⟩
  · rintro ⟨a, ha⟩
    exact ⟨_, a, ha, rfl⟩

theorem first_error_of_mapM {f : α → Except ε β} {l : List α} {e : ε} (h : l.mapM f = .error e) :
    ∃ before a after, l = before ++ a :: after ∧ (∀ x ∈ before, ∃ b, f x = .ok b) ∧ f a = .error e := by
  induction l with
  | nil => cases h
  | cons a l ih =>
    rw [List.mapM_cons] at h
    cases hf : f a with
    | error e' =>
      rw [hf, error_bind] at h
      cases h
      exact ⟨[], a, l, rfl, List.forall_mem_nil _, hf⟩
    | ok b =>
      rw [hf, ok_bind] at h
      cases hl : l.mapM f with
      | error e' =>
        rw [hl, error_bind] at h
        cases h
        obtain ⟨before, x, after, rfl, hbefore, hfx⟩ := ih hl
        exact ⟨a :: before, x, after, rfl, List.forall_mem_cons.2 ⟨⟨b, hf⟩, hbefore⟩, hfx⟩
      | ok bs =>
        rw [hl] at h
        cases h

theorem exists_error_of_mapM {f : α → Except ε β} {l : List α} {e : ε} (h : l.mapM f = .error e) :
    ∃ a ∈ l, f a = .error e := by
  obtain ⟨before, a, after, rfl, -, ha⟩ := first_error_of_mapM h
  exact ⟨a, List.mem_append_right _ List.mem_cons_self, ha⟩

/-- A result, unless there is something to fail with. -/
def guarded (failure : Option ε) (a : α) : Except ε α :=
  match failure with
  | none => .ok a
  | some e => .error e

@[simp] theorem guarded_none (a : α) : guarded (none : Option ε) a = .ok a := rfl

@[simp] theorem guarded_some (e : ε) (a : α) : guarded (some e) a = .error e := rfl

theorem guarded_eq_ok_iff {failure : Option ε} {a b : α} :
    guarded failure a = .ok b ↔ failure = none ∧ a = b := by
  cases failure <;> simp [guarded]

theorem guarded_eq_error_iff {failure : Option ε} {a : α} {e : ε} :
    guarded failure a = .error e ↔ failure = some e := by
  cases failure <;> simp [guarded]

theorem guarded_bind {failure failure' : Option ε} {a : α} {b : β} {f : α → Except ε β}
    (h : failure = none → f a = guarded failure' b) :
    guarded failure a >>= f = guarded (failure.or failure') b := by
  cases failure with
  | none => exact h rfl
  | some e => rfl

theorem findSome?_cons (f : α → Option β) (a : α) (l : List α) :
    (a :: l).findSome? f = (f a).or (l.findSome? f) := by
  rw [List.findSome?_cons]
  cases f a <;> rfl

theorem findSome?_none (l : List α) : l.findSome? (fun _ => (none : Option β)) = none :=
  List.findSome?_eq_none_iff.2 (fun _ _ => rfl)

theorem findSome?_flatMap (f : β → Option γ) (g : α → List β) (l : List α) :
    (l.flatMap g).findSome? f = l.findSome? (fun a => (g a).findSome? f) := by
  induction l with
  | nil => rfl
  | cons a l ih => rw [List.flatMap_cons, List.findSome?_append, findSome?_cons, ih]

theorem guarded_bind_ok {failure : Option ε} {a : α} {b : β} {f : α → Except ε β}
    (h : failure = none → f a = .ok b) : guarded failure a >>= f = guarded failure b := by
  cases failure with
  | none => exact h rfl
  | some e => rfl

theorem guarded_congr {failure : Option ε} {a b : α} (h : failure = none → a = b) :
    guarded failure a = guarded failure b := by
  cases failure with
  | none => rw [h rfl]
  | some e => rfl

theorem mapM_guarded {failure : α → Option ε} {r : α → γ} {g : β → Except ε γ} {l : List α} {l' : List β}
    (h : List.Forall₂ (fun a b => g b = guarded (failure a) (r a)) l l') :
    l'.mapM g = guarded (l.findSome? failure) (l.map r) := by
  induction h with
  | nil => rfl
  | @cons a b l l' hb _ ih =>
    rw [List.mapM_cons, hb, ih, findSome?_cons]
    apply guarded_bind
    intro _
    cases l.findSome? failure <;> rfl

theorem mapM_map_guarded {f : α → β} {g : β → Except ε γ} {failure : α → Option ε} {r : α → γ}
    {l : List α} (h : ∀ a ∈ l, g (f a) = guarded (failure a) (r a)) :
    (l.map f).mapM g = guarded (l.findSome? failure) (l.map r) := by
  apply mapM_guarded
  rw [List.forall₂_map_right_iff, List.forall₂_same]
  exact h

theorem filterAuxM_map_guarded {f : α → β} {p : β → Except ε Bool} {failure : α → Option ε}
    {q : α → Bool} (l : List α) (acc : List β) (h : ∀ a ∈ l, p (f a) = guarded (failure a) (q a)) :
    (l.map f).filterAuxM p acc =
      guarded (l.findSome? failure) (((l.filter q).map f).reverse ++ acc) := by
  induction l generalizing acc with
  | nil => rfl
  | cons a l ih =>
    obtain ⟨ha, hl⟩ := List.forall_mem_cons.1 h
    rw [List.map_cons, List.filterAuxM, ha, findSome?_cons]
    apply guarded_bind
    intro _
    rw [ih _ hl]
    cases hq : q a <;> simp [hq]

theorem filterM_map_guarded {f : α → β} {p : β → Except ε Bool} {failure : α → Option ε}
    {q : α → Bool} {l : List α} (h : ∀ a ∈ l, p (f a) = guarded (failure a) (q a)) :
    (l.map f).filterM p = guarded (l.findSome? failure) ((l.filter q).map f) := by
  rw [List.filterM, filterAuxM_map_guarded l [] h, List.append_nil]
  cases l.findSome? failure with
  | none => exact congrArg Except.ok (List.reverse_reverse _)
  | some e => rfl

theorem filterM_map_ok {f : α → β} {p : β → Except ε Bool} {q : α → Bool} {l : List α}
    (h : ∀ a ∈ l, p (f a) = .ok (q a)) : (l.map f).filterM p = .ok ((l.filter q).map f) := by
  have hguarded : ∀ a ∈ l, p (f a) = guarded none (q a) := h
  rw [filterM_map_guarded hguarded, findSome?_none, guarded_none]

theorem filterM_ok {p : α → Except ε Bool} {q : α → Bool} {l : List α}
    (h : ∀ a ∈ l, p a = .ok (q a)) : l.filterM p = .ok (l.filter q) := by
  simpa using filterM_map_ok (f := fun a => a) h

theorem exists_of_filterAuxM {p : α → Except ε Bool} {l acc r : List α} (h : l.filterAuxM p acc = .ok r) :
    ∀ a ∈ l, ∃ b, p a = .ok b := by
  induction l generalizing acc with
  | nil => exact List.forall_mem_nil _
  | cons a l ih =>
    rw [List.filterAuxM, bind_eq_ok_iff] at h
    obtain ⟨b, hb, h⟩ := h
    exact List.forall_mem_cons.2 ⟨⟨b, hb⟩, ih h⟩

theorem eq_filter_of_filterM {p : α → Except ε Bool} {l r : List α} (h : l.filterM p = .ok r) :
    r = l.filter (fun a => (p a).toOption == some true) := by
  have htests : ∀ a ∈ l, ∃ b, p a = .ok b := by
    rw [List.filterM, bind_eq_ok_iff] at h
    obtain ⟨r', hr', -⟩ := h
    exact exists_of_filterAuxM hr'
  have hfilter : l.filterM p = .ok (l.filter (fun a => (p a).toOption == some true)) := by
    apply filterM_ok
    intro a ha
    obtain ⟨b, hb⟩ := htests a ha
    rw [hb]
    cases b <;> rfl
  rw [h] at hfilter
  exact Except.ok.inj hfilter

theorem mapM_map_ok {f : α → β} {g : β → Except ε γ} {r : α → γ} {l : List α}
    (h : ∀ a ∈ l, g (f a) = .ok (r a)) : (l.map f).mapM g = .ok (l.map r) := by
  have hguarded : ∀ a ∈ l, g (f a) = guarded none (r a) := h
  rw [mapM_map_guarded hguarded, findSome?_none, guarded_none]

/-- Of the results of a selection, those that are kept are the results of a narrower selection. -/
theorem filter_map_ok {f g : α → Except ε β} {p q : α → Bool} {keep : β → Bool} {l : List α} {bs : List β}
    (hbs : (l.filter p).map f = bs.map .ok) (hsub : ∀ a ∈ l, q a = true → p a = true)
    (hkeep : ∀ a ∈ l, p a = true → ∀ b, f a = .ok b → keep b = q a ∧ (q a = true → g a = .ok b)) :
    (l.filter q).map g = (bs.filter keep).map .ok := by
  induction l generalizing bs with
  | nil =>
    obtain rfl := List.map_eq_nil_iff.1 hbs.symm
    rfl
  | cons a l ih =>
    have ih : ∀ bs : List β, (l.filter p).map f = bs.map .ok → (l.filter q).map g = (bs.filter keep).map .ok :=
      fun bs hbs => ih hbs (fun x hx => hsub x (List.mem_cons_of_mem _ hx))
        (fun x hx => hkeep x (List.mem_cons_of_mem _ hx))
    cases hp : p a with
    | false =>
      have hq : q a = false := by
        rw [← Bool.not_eq_true]
        intro hq
        exact Bool.false_ne_true (hp.symm.trans (hsub a List.mem_cons_self hq))
      rw [List.filter_cons_of_neg (by simp [hp])] at hbs
      rw [List.filter_cons_of_neg (by simp [hq])]
      exact ih bs hbs
    | true =>
      rw [List.filter_cons_of_pos hp, List.map_cons] at hbs
      obtain ⟨b, bs, rfl, hb, hbs'⟩ := List.map_eq_cons_iff.1 hbs.symm
      obtain ⟨hb', hg⟩ := hkeep a List.mem_cons_self hp b hb.symm
      have hrest := ih bs hbs'.symm
      cases hq : q a with
      | false =>
        rw [List.filter_cons_of_neg (by simp [hq]), List.filter_cons_of_neg (by simp [hb', hq])]
        exact hrest
      | true =>
        rw [List.filter_cons_of_pos hq, List.filter_cons_of_pos (hb'.trans hq), List.map_cons, List.map_cons,
          hg hq, hrest]

theorem mapM_eq_mapM {f : α → Except ε γ} {g : β → Except ε γ} {l : List α} {l' : List β}
    (h : List.Forall₂ (fun a b => f a = g b) l l') : l.mapM f = l'.mapM g := by
  induction h with
  | nil => rfl
  | cons hhead _ ih => rw [List.mapM_cons, List.mapM_cons, hhead, ih]

theorem exists_filterM {p : α → Except ε Bool} {l : List α} (h : ∀ a ∈ l, ∃ b, p a = .ok b) :
    ∃ r, l.filterM p = .ok r ∧ ∀ a, a ∈ r ↔ a ∈ l ∧ p a = .ok true := by
  let q : α → Bool := fun a =>
    match p a with
    | .ok b => b
    | .error _ => false
  have hq : ∀ a ∈ l, p a = .ok (q a) := by
    intro a ha
    obtain ⟨b, hb⟩ := h a ha
    simp only [q, hb]
  refine ⟨_, filterM_ok hq, ?_⟩
  intro a
  rw [List.mem_filter]
  refine and_congr_right ?_
  intro ha
  rw [hq a ha, Except.ok.injEq]

theorem flatMap_eq_of_forall₂ {f : α → List γ} {g : β → List γ} {l : List α} {l' : List β}
    (h : List.Forall₂ (fun a b => g b = f a) l l') : l'.flatMap g = l.flatMap f := by
  induction h with
  | nil => rfl
  | cons hb _ ih => rw [List.flatMap_cons, List.flatMap_cons, hb, ih]

theorem forM_eq_ok_iff {f : α → Except ε Unit} {l : List α} :
    forM l f = .ok () ↔ ∀ a ∈ l, f a = .ok () := by
  induction l with
  | nil => simp [pure, Except.pure]
  | cons a l ih =>
    simp only [List.forM_cons, bind_eq_ok_iff, ih, List.mem_cons, forall_eq_or_imp]
    exact ⟨fun ⟨_, ha, hl⟩ => ⟨ha, hl⟩, fun ⟨ha, hl⟩ => ⟨(), ha, hl⟩⟩

/-- What every step preserves, a run of steps preserves. -/
theorem foldlM_preserves {f : β → α → Except ε β} {P : β → Prop} {l : List α} {b b' : β}
    (h : l.foldlM f b = .ok b') (hb : P b)
    (hf : ∀ a ∈ l, ∀ b b', P b → f b a = .ok b' → P b') : P b' := by
  induction l generalizing b with
  | nil =>
    cases h
    exact hb
  | cons a l ih =>
    rw [List.foldlM_cons, bind_eq_ok_iff] at h
    obtain ⟨b₁, hb₁, h⟩ := h
    exact ih h (hf a List.mem_cons_self b b₁ hb hb₁)
      (fun x hx => hf x (List.mem_cons_of_mem _ hx))

end EntityStore.Traversal
