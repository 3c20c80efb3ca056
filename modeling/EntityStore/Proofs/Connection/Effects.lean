import EntityStore.Proofs.Connection.Transaction
import EntityStore.Proofs.Store.Saves

/-!
# What programs add to a session

A session only grows: a program adds calls and events to what is there. Which calls and which events
it can add follows the way in which it is put together.
-/

namespace EntityStore

namespace Run

variable {σ α β : Type}

/-- However it ends, a program leads from every session to one that is related to it. -/
def Relates (R : Session σ → Session σ → Prop) (r : Run σ α) : Prop :=
  ∀ session, R session (r session).2

namespace Relates

variable {R : Session σ → Session σ → Prop} [Std.Refl R]

theorem pure (a : α) : Relates R (Pure.pure a : Run σ α) := Std.Refl.refl

theorem throw (e : StoreError) : Relates R (MonadExcept.throw e : Run σ α) := Std.Refl.refl

theorem state : Relates R (Run.state : Run σ σ) := Std.Refl.refl

theorem ofExcept (x : Except StoreError α) : Relates R (Run.ofExcept x : Run σ α) := by
  intro session
  rw [run_ofExcept]
  exact Std.Refl.refl session

theorem checkCancelled (c : Connection σ) (mode : Mode) : Relates R (c.checkCancelled mode) := by
  intro session
  rcases c.run_checkCancelled mode session with ⟨-, hcheck⟩ | ⟨-, hcheck⟩
  · rw [hcheck]
    exact Std.Refl.refl session
  · rw [hcheck]
    exact Std.Refl.refl session

theorem checkCancelledBy {γ : Type} (b : Backend σ γ) (mode : Mode) : Relates R (b.checkCancelled mode) := by
  intro session
  rw [b.run_checkCancelled]
  exact Std.Refl.refl session

omit [Std.Refl R]

theorem attempt {x : Run σ α} (h : Relates R x) : Relates R (Run.attempt x) := h

theorem bind [IsTrans (Session σ) R] {x : Run σ α} (h : Relates R x) {f : α → Run σ β}
    (hf : ∀ a, Relates R (f a)) : Relates R (x >>= f) := by
  intro session
  have hx := h session
  rw [run_bind]
  generalize x session = ended at hx
  obtain ⟨outcome, session'⟩ := ended
  cases outcome with
  | ok a => exact IsTrans.trans _ _ _ hx (hf a session')
  | error e => exact hx

end Relates

structure Adds (P : Call → Prop) (Q : LogEvent → Prop) (before after : Session σ) : Prop where
  calls : ∃ calls, after.trace = before.trace ++ calls ∧ ∀ call ∈ calls, P call
  events : ∃ events, after.events = before.events ++ events ∧ ∀ event ∈ events, Q event

/-- A program that makes only calls with one property, and only events with another one are logged. -/
abbrev Confined (P : Call → Prop) (Q : LogEvent → Prop) (r : Run σ α) : Prop := Relates (Adds P Q) r

variable {P : Call → Prop} {Q : LogEvent → Prop}

instance : Std.Refl (Adds P Q : Session σ → Session σ → Prop) where
  refl _ :=
    { calls := ⟨[], (List.append_nil _).symm, List.forall_mem_nil _⟩
      events := ⟨[], (List.append_nil _).symm, List.forall_mem_nil _⟩ }

instance : IsTrans (Session σ) (Adds P Q) where
  trans before between after h h' := by
    obtain ⟨⟨calls, htrace, hcalls⟩, ⟨events, hlog, hevents⟩⟩ := h
    obtain ⟨⟨calls', htrace', hcalls'⟩, ⟨events', hlog', hevents'⟩⟩ := h'
    refine ⟨⟨calls ++ calls', ?_, ?_⟩, ⟨events ++ events', ?_, ?_⟩⟩
    · rw [htrace', htrace, List.append_assoc]
    · exact List.forall_mem_append.2 ⟨hcalls, hcalls'⟩
    · rw [hlog', hlog, List.append_assoc]
    · exact List.forall_mem_append.2 ⟨hevents, hevents'⟩

theorem Adds.refl (session : Session σ) : Adds P Q session session := Std.Refl.refl session

theorem Confined.modify (f : σ → σ) :
    Confined P Q (modify (fun session => { session with state := f session.state }) : Run σ Unit) := by
  intro session
  have hsame : Adds P Q session session := .refl session
  exact ⟨hsame.calls, hsame.events⟩

theorem Confined.log {events : List LogEvent} (h : ∀ event ∈ events, Q event) :
    Confined P Q (Run.log events : Run σ Unit) := by
  intro session
  exact ⟨(Adds.refl (Q := Q) session).calls, events, rfl, h⟩

theorem Confined.wait {milliseconds : Nat} (h : P (.wait milliseconds)) :
    Confined P Q (Run.wait milliseconds : Run σ Unit) := by
  intro session
  exact ⟨⟨_, rfl, List.forall_mem_singleton.2 h⟩, (Adds.refl (P := P) session).events⟩

theorem Confined.call {call : Call} {f : σ → Reply σ α} (h : P call)
    (hevents : ∀ s, ∀ event ∈ (f s).events, Q event) : Confined P Q (Run.call call f) := by
  intro session
  rw [run_call]
  exact ⟨⟨_, rfl, List.forall_mem_singleton.2 h⟩, _, rfl, hevents session.state⟩

end Run

namespace Connection

open Run

variable {σ : Type} {c : Connection σ} {P : Call → Prop} {Q : LogEvent → Prop}

theorem confined_databaseName : Confined P Q c.databaseName :=
  Relates.state.bind (fun _ => .pure _)

theorem confined_openNow : Confined P Q c.openNow := Relates.state.bind (fun _ => .pure _)

theorem confined_renew (h : P .connect) : Confined P Q c.renew := by
  intro session
  rw [run_renew]
  exact ⟨⟨_, rfl, List.forall_mem_singleton.2 h⟩, (Adds.refl (P := P) session).events⟩

theorem confined_close (hclose : ∀ wasOpen, P (.closeLink wasOpen))
    (hevents : ∀ s, ∀ event ∈ (c.closeLink s).events, Q event) : Confined P Q c.close := by
  refine confined_openNow.bind (fun wasOpen => ?_)
  have hcall : Confined P Q (Run.call (.closeLink wasOpen) c.closeLink) := Confined.call (hclose wasOpen) hevents
  exact hcall.attempt.bind (fun _ => .pure ())

theorem confined_run {sensitive : Bool} {sql : String} {parameters : List Value}
    (hexecute : P (.execute sql parameters))
    (hcommand : ∀ database, Q (.command database sql parameters sensitive))
    (hevents : ∀ s, ∀ event ∈ (c.execute sql parameters s).events, Q event) :
    Confined P Q (c.run sensitive sql parameters) := by
  refine confined_databaseName.bind (fun database => ?_)
  refine (Confined.log (List.forall_mem_singleton.2 (hcommand database))).bind (fun _ => ?_)
  exact Confined.call hexecute hevents

theorem confined_collect (mode : Mode) (rows : List Row) : Confined P Q (c.collect mode rows) := by
  induction rows with
  | nil => exact .pure []
  | cons row rest ih =>
    refine (Confined.modify c.deliver).bind (fun _ => ?_)
    refine (Relates.checkCancelled c mode).bind (fun _ => ?_)
    exact ih.bind (fun _ => .pure _)

theorem confined_rows (mode : Mode) {sensitive : Bool} {sql : String} {parameters : List Value}
    (hquery : P (.query sql parameters))
    (hcommand : ∀ database, Q (.command database sql parameters sensitive))
    (hevents : ∀ s, ∀ event ∈ (c.query sql parameters s).events, Q event) :
    Confined P Q (c.rows mode sensitive sql parameters) := by
  refine confined_databaseName.bind (fun database => ?_)
  refine (Confined.log (List.forall_mem_singleton.2 (hcommand database))).bind (fun _ => ?_)
  refine (Confined.call hquery hevents).bind (fun source => ?_)
  refine (confined_collect mode source.rows).bind (fun rows => ?_)
  cases source.failure with
  | none => exact .pure rows
  | some e => exact .throw e

end Connection

end EntityStore
