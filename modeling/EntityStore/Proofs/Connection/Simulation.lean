import EntityStore.Proofs.Connection.Session

/-!
# Programs that do the same

Two programs over a session are coupled if from related sessions they come to corresponding outcomes in
related sessions. They do the same if from equal states they come to the same outcome, leave the same
state and have made the same calls and waits in the same order. What they log may differ. The relation
follows the way in which programs are put together.
-/

namespace EntityStore.Run

variable {σ σ' α β γ δ : Type}

def Corresponds (R : α → β → Prop) : Except StoreError α → Except StoreError β → Prop
  | .ok a, .ok b => R a b
  | .error e, .error e' => e = e'
  | _, _ => False

theorem corresponds_eq_iff {a b : Except StoreError α} : Corresponds Eq a b ↔ a = b := by
  cases a <;> cases b <;> simp [Corresponds]

theorem Corresponds.bind {R : α → β → Prop} {S : γ → δ → Prop} {a : Except StoreError α}
    {b : Except StoreError β} (h : Corresponds R a b) {f : α → Except StoreError γ}
    {g : β → Except StoreError δ} (hfg : ∀ x y, R x y → Corresponds S (f x) (g y)) :
    Corresponds S (a >>= f) (b >>= g) := by
  cases a with
  | ok x =>
    cases b with
    | ok y => exact hfg x y h
    | error e => cases h
  | error e =>
    cases b with
    | ok y => cases h
    | error e' => exact h

theorem Corresponds.with_eq {R : α → β → Prop} {a : Except StoreError α} {b : Except StoreError β}
    (h : Corresponds R a b) : Corresponds (fun x y => R x y ∧ a = .ok x ∧ b = .ok y) a b := by
  cases a with
  | ok x =>
    cases b with
    | ok y => exact ⟨h, rfl, rfl⟩
    | error e => cases h
  | error e =>
    cases b with
    | ok y => cases h
    | error e' => exact h

/-- Programs that lead related sessions to corresponding outcomes and related sessions. -/
def Coupled (Q : Session σ → Session σ' → Prop) (R : α → β → Prop) (x : Run σ α) (y : Run σ' β) : Prop :=
  ∀ session session', Q session session' →
    Corresponds R (x session).1 (y session').1 ∧ Q (x session).2 (y session').2

namespace Coupled

variable {Q : Session σ → Session σ' → Prop} {R : α → β → Prop} {S : γ → δ → Prop}

theorem pure {a : α} {b : β} (h : R a b) : Coupled Q R (Pure.pure a : Run σ α) (Pure.pure b : Run σ' β) :=
  fun _ _ hQ => ⟨h, hQ⟩

theorem throw (e : StoreError) :
    Coupled Q R (MonadExcept.throw e : Run σ α) (MonadExcept.throw e : Run σ' β) :=
  fun _ _ hQ => ⟨rfl, hQ⟩

theorem ofExcept {a : Except StoreError α} {b : Except StoreError β} (h : Corresponds R a b) :
    Coupled Q R (Run.ofExcept a : Run σ α) (Run.ofExcept b : Run σ' β) := by
  intro session session' hQ
  rw [run_ofExcept, run_ofExcept]
  exact ⟨h, hQ⟩

theorem bind {x : Run σ α} {y : Run σ' β} (h : Coupled Q R x y) {f : α → Run σ γ} {g : β → Run σ' δ}
    (hfg : ∀ a b, R a b → Coupled Q S (f a) (g b)) : Coupled Q S (x >>= f) (y >>= g) := by
  intro session session' hQ
  obtain ⟨houtcome, hQ⟩ := h session session' hQ
  rw [run_bind, run_bind]
  generalize x session = before at *
  generalize y session' = before' at *
  obtain ⟨outcome, after⟩ := before
  obtain ⟨outcome', after'⟩ := before'
  cases outcome with
  | ok a =>
    cases outcome' with
    | ok b => exact hfg a b houtcome after after' hQ
    | error e' => cases houtcome
  | error e =>
    cases outcome' with
    | ok b => cases houtcome
    | error e' => exact ⟨houtcome, hQ⟩

theorem attempt {x : Run σ α} {y : Run σ' β} (h : Coupled Q R x y) :
    Coupled Q (Corresponds R) (Run.attempt x) (Run.attempt y) := h

theorem attempt_eq {x : Run σ α} {y : Run σ' α} (h : Coupled Q Eq x y) :
    Coupled Q Eq (Run.attempt x) (Run.attempt y) := by
  intro session session' hQ
  obtain ⟨houtcome, hQ⟩ := h session session' hQ
  exact ⟨corresponds_eq_iff.1 houtcome, hQ⟩

theorem logged {x : Run σ α} {y : Run σ' β} (h : Coupled Q R x y) {store store' operation operation' : String}
    (hlog : ∀ e, Coupled Q Eq (Run.log [.failure store operation e] : Run σ Unit)
      (Run.log [.failure store' operation' e] : Run σ' Unit)) :
    Coupled Q R (Run.logged store operation x) (Run.logged store' operation' y) := by
  refine h.attempt.bind ?_
  intro outcome outcome' houtcome
  cases outcome with
  | ok a =>
    cases outcome' with
    | ok b => exact .pure houtcome
    | error e' => cases houtcome
  | error e =>
    cases outcome' with
    | ok b => cases houtcome
    | error e' =>
      obtain rfl : e = e' := houtcome
      exact (hlog e).bind (fun _ _ _ => .throw e)

end Coupled

/-- The ends of two runs that differ at most in what was logged. -/
structure Agrees (x y : Except StoreError α × Session σ) : Prop where
  outcome : x.1 = y.1
  state : x.2.state = y.2.state
  trace : x.2.trace = y.2.trace

/-- Programs that do the same from every state with a property, and keep the property. -/
def SameRun (P : σ → Prop) (R : α → β → Prop) (x : Run σ α) (y : Run σ β) : Prop :=
  ∀ session session' : Session σ, P session.state → session.state = session'.state →
    session.trace = session'.trace →
    Corresponds R (x session).1 (y session').1 ∧ (x session).2.state = (y session').2.state ∧
      (x session).2.trace = (y session').2.trace ∧ P (x session).2.state

variable {P : σ → Prop} {R : α → β → Prop} {S : γ → δ → Prop}

theorem sameRun_iff {x : Run σ α} {y : Run σ β} :
    SameRun P R x y ↔ Coupled (fun session session' => session.state = session'.state ∧
      session.trace = session'.trace ∧ P session.state) R x y :=
  ⟨fun h session session' hQ => h session session' hQ.2.2 hQ.1 hQ.2.1,
    fun h session session' hP hstate htrace => h session session' ⟨hstate, htrace, hP⟩⟩

theorem SameRun.agrees {x y : Run σ α} (h : SameRun P Eq x y) {session : Session σ}
    (hsession : P session.state) : Agrees (x session) (y session) := by
  obtain ⟨houtcome, hstate, htrace, -⟩ := h session session hsession rfl rfl
  exact ⟨corresponds_eq_iff.1 houtcome, hstate, htrace⟩

theorem SameRun.pure {a : α} {b : β} (h : R a b) :
    SameRun P R (Pure.pure a) (Pure.pure b) := fun _ _ hP hstate htrace => ⟨h, hstate, htrace, hP⟩

theorem SameRun.throw (e : StoreError) :
    SameRun P R (throw e : Run σ α) (MonadExcept.throw e : Run σ β) :=
  fun _ _ hP hstate htrace => ⟨rfl, hstate, htrace, hP⟩

theorem SameRun.ofExcept (x : Except StoreError α) :
    SameRun P Eq (Run.ofExcept x) (Run.ofExcept x) := by
  intro session session' hP hstate htrace
  rw [run_ofExcept, run_ofExcept]
  exact ⟨corresponds_eq_iff.2 rfl, hstate, htrace, hP⟩

theorem SameRun.log (events events' : List LogEvent) :
    SameRun P Eq (Run.log events : Run σ Unit) (Run.log events') :=
  fun _ _ hP hstate htrace => ⟨rfl, hstate, htrace, hP⟩

theorem SameRun.state : SameRun P Eq (Run.state : Run σ σ) Run.state :=
  fun _ _ hP hstate htrace => ⟨hstate, hstate, htrace, hP⟩

theorem SameRun.record (call : Call) : SameRun P Eq (Run.record call : Run σ Unit) (Run.record call) :=
  fun _ _ hP hstate htrace => ⟨rfl, hstate, congrArg (· ++ [call]) htrace, hP⟩

theorem SameRun.modify {f : σ → σ} (h : ∀ s, P s → P (f s)) :
    SameRun P Eq
      (modify (fun session => { session with state := f session.state }) : Run σ Unit)
      (modify (fun session => { session with state := f session.state })) :=
  fun _ _ hP hstate htrace => ⟨rfl, congrArg f hstate, htrace, h _ hP⟩

theorem SameRun.bind {x : Run σ α} {y : Run σ β} (h : SameRun P R x y) {f : α → Run σ γ}
    {g : β → Run σ δ} (hfg : ∀ a b, R a b → SameRun P S (f a) (g b)) :
    SameRun P S (x >>= f) (y >>= g) :=
  sameRun_iff.2 ((sameRun_iff.1 h).bind (fun a b hab => sameRun_iff.1 (hfg a b hab)))

theorem SameRun.attempt {x : Run σ α} {y : Run σ β} (h : SameRun P R x y) :
    SameRun P (Corresponds R) (Run.attempt x) (Run.attempt y) := h

theorem SameRun.attempt_eq {x y : Run σ α} (h : SameRun P Eq x y) :
    SameRun P Eq (Run.attempt x) (Run.attempt y) := by
  intro session session' hP hstate htrace
  obtain ⟨houtcome, hrest⟩ := h session session' hP hstate htrace
  exact ⟨corresponds_eq_iff.1 houtcome, hrest⟩

structure SameReply (x y : Reply σ α) : Prop where
  result : x.result = y.result
  state : x.state = y.state

theorem SameRun.call (call : Call) {f g : σ → Reply σ α} (h : ∀ s, SameReply (f s) (g s))
    (hP : ∀ s, P s → P (f s).state) : SameRun P Eq (Run.call call f) (Run.call call g) := by
  intro session session' hsession hstate htrace
  have hreply : SameReply (f session.state) (g session'.state) := hstate ▸ h session.state
  rw [run_call, run_call]
  refine ⟨corresponds_eq_iff.2 hreply.result, hreply.state, ?_, hP _ hsession⟩
  exact congrArg (· ++ [call]) htrace

theorem SameRun.logged {x : Run σ α} {y : Run σ β} (h : SameRun P R x y)
    (store store' operation operation' : String) :
    SameRun P R (Run.logged store operation x) (Run.logged store' operation' y) :=
  sameRun_iff.2 ((sameRun_iff.1 h).logged (fun _ => sameRun_iff.1 (.log _ _)))

end EntityStore.Run
