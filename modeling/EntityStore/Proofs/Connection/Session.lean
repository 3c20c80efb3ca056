import EntityStore.Connection.Session

/-!
# Runs of programs over a session

What a program does to a session, step by step: the outcome and the session after it.
-/

namespace EntityStore.Run

variable {σ α β : Type}

theorem run_bind (x : Run σ α) (f : α → Run σ β) (session : Session σ) :
    (x >>= f) session = match x session with
      | (.ok a, session') => f a session'
      | (.error e, session') => (.error e, session') := by
  change ExceptT.bindCont f (x session).1 (x session).2 = _
  obtain ⟨outcome, session'⟩ := x session
  cases outcome <;> rfl

@[simp] theorem run_pure (a : α) (session : Session σ) : (pure a : Run σ α) session = (.ok a, session) := rfl

@[simp] theorem run_throw (e : StoreError) (session : Session σ) :
    (throw e : Run σ α) session = (.error e, session) := rfl

@[simp] theorem run_state (session : Session σ) :
    (Run.state : Run σ σ) session = (.ok session.state, session) := rfl

@[simp] theorem run_ofExcept (x : Except StoreError α) (session : Session σ) :
    (Run.ofExcept x) session = (x, session) := by
  cases x <;> rfl

@[simp] theorem run_log (events : List LogEvent) (session : Session σ) :
    (Run.log events : Run σ Unit) session =
      (.ok (), { session with events := session.events ++ events }) := rfl

@[simp] theorem run_wait (milliseconds : Nat) (session : Session σ) :
    (Run.wait milliseconds : Run σ Unit) session =
      (.ok (), { session with trace := session.trace ++ [.wait milliseconds] }) := rfl

@[simp] theorem run_attempt (r : Run σ α) (session : Session σ) :
    Run.attempt r session = (.ok (r session).1, (r session).2) := rfl

@[simp] theorem run_call (call : Call) (f : σ → Reply σ α) (session : Session σ) :
    Run.call call f session = ((f session.state).result,
      { session with
        state := (f session.state).state
        trace := session.trace ++ [call]
        events := session.events ++ (f session.state).events }) := by
  rw [Run.call, run_bind]
  change Run.request f { session with trace := session.trace ++ [call] } = _
  simp only [Run.request]
  rw [run_bind]
  change (set _ >>= fun _ => Run.ofExcept (f session.state).result : Run σ α) _ = _
  rw [run_bind]
  exact run_ofExcept _ _

theorem run_logged (store operation : String) (r : Run σ α) (session : Session σ) :
    (Run.logged store operation r) session = match r session with
      | (.ok a, session') => (.ok a, session')
      | (.error e, session') =>
        (.error e, { session' with events := session'.events ++ [.failure store operation e] }) := by
  rw [Run.logged, run_bind, run_attempt]
  obtain ⟨outcome, session'⟩ := r session
  cases outcome <;> rfl

theorem outcome_logged (store operation : String) (r : Run σ α) (session : Session σ) :
    (Run.logged store operation r session).1 = (r session).1 := by
  rw [run_logged]
  obtain ⟨outcome, session'⟩ := r session
  cases outcome <;> rfl

end EntityStore.Run

namespace EntityStore.Connection

variable {σ : Type}

@[simp] theorem run_databaseName (c : Connection σ) (session : Session σ) :
    c.databaseName session = (.ok (c.database session.state), session) := by
  rw [databaseName, Run.run_bind, Run.run_state]
  rfl

@[simp] theorem run_renew (c : Connection σ) (session : Session σ) :
    c.renew session = (.ok (),
      { session with
        state := c.connect session.state
        trace := session.trace ++ [.connect] }) := rfl

@[simp] theorem run_openNow (c : Connection σ) (session : Session σ) :
    c.openNow session = (.ok (c.isOpen session.state), session) := by
  rw [openNow, Run.run_bind, Run.run_state]
  rfl

@[simp] theorem run_close (c : Connection σ) (session : Session σ) :
    c.close session = (.ok (),
      { session with
        state := (c.closeLink session.state).state
        trace := session.trace ++ [.closeLink (c.isOpen session.state)]
        events := session.events ++ (c.closeLink session.state).events }) := by
  rw [close, Run.run_bind, run_openNow]
  change (Except.ok (), (Run.call _ c.closeLink session).2) = _
  rw [Run.run_call]

end EntityStore.Connection
