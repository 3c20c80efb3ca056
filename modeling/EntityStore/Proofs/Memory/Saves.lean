import EntityStore.Proofs.Store.Saves
import EntityStore.Proofs.Memory.Staging
import EntityStore.Memory.Store

/-!
# Sequences of saves

A save of an in-memory store applies the commands of all its entries to the database or leaves the
database as it was, whatever makes it fail. So what every command preserves holds after any sequence
of saves.
-/

namespace EntityStore.Memory

open Traversal

/-- A save: how it is called, whether the caller has given up by then, and the changes. -/
structure SaveCall where
  mode : Mode
  isCancelled : Bool
  entries : List PendingEntry

def afterSave (name : String) (s : Schema) (db : MemoryDatabase) (call : SaveCall) :
    MemoryDatabase :=
  let session := Session.ofState (State.mk db call.isCancelled)
  (((backend name s).saveChanges call.mode call.entries).run session).2.state.database

def afterSaves (name : String) (s : Schema) (calls : List SaveCall) (db : MemoryDatabase) :
    MemoryDatabase :=
  calls.foldl (afterSave name s) db

theorem run_save_cases (s : Schema) (entries : List PendingEntry) (session : Session State) :
    (∃ e, save s entries session = (.error e, session)) ∨
      ∃ commands affected db, entries.mapM (Command.ofEntry s) = .ok commands ∧
        session.state.database.apply commands = .ok (affected, db) ∧
        save s entries session =
          (.ok affected, { session with state := { session.state with database := db } }) := by
  rw [save, Run.run_bind, Run.run_ofExcept]
  cases hcommands : entries.mapM (Command.ofEntry s) with
  | error e => exact Or.inl ⟨e, rfl⟩
  | ok commands =>
    have hget : (get : Run State (Session State)) session = (.ok session, session) := rfl
    simp only [apply, Run.run_bind, hget]
    cases happly : session.state.database.apply commands with
    | error e => exact Or.inl ⟨e, rfl⟩
    | ok result => exact Or.inr ⟨commands, result.1, result.2, rfl, happly, rfl⟩

theorem afterSave_cases (name : String) (s : Schema) (db : MemoryDatabase) (call : SaveCall) :
    afterSave name s db call = db ∨
      ∃ commands affected, call.entries.mapM (Command.ofEntry s) = .ok commands ∧
        db.apply commands = .ok (affected, afterSave name s db call) := by
  have hrun : ∀ r : Run State Nat, r.run = r := fun _ => rfl
  simp only [afterSave, hrun, Backend.run_saveChanges]
  split
  · exact Or.inl rfl
  split
  · exact Or.inl rfl
  rcases run_save_cases s call.entries (Session.ofState (State.mk db call.isCancelled)) with
    ⟨e, hsave⟩ | ⟨commands, affected, db', hcommands, happly, hsave⟩
  · left
    simp only [backend, hsave]
    rfl
  · right
    refine ⟨commands, affected, hcommands, ?_⟩
    simp only [backend, hsave]
    exact happly

/-- What the command of every entry preserves, a sequence of saves preserves. -/
theorem afterSaves_preserves {P : MemoryDatabase → Prop} (name : String) (s : Schema)
    {calls : List SaveCall} {db : MemoryDatabase} (hdb : P db)
    (hstep : ∀ call ∈ calls, ∀ e ∈ call.entries, ∀ c, Command.ofEntry s e = .ok c →
      ∀ db db', P db → db.applyCommand c = .ok db' → P db') : P (afterSaves name s calls db) := by
  induction calls generalizing db with
  | nil => exact hdb
  | cons call calls ih =>
    refine ih ?_ (fun later hlater => hstep later (List.mem_cons_of_mem call hlater))
    rcases afterSave_cases name s db call with heq | ⟨commands, affected, hcommands, happly⟩
    · rw [heq]
      exact hdb
    · rw [MemoryDatabase.apply_eq, map_eq_ok_iff] at happly
      obtain ⟨db', hfold, heq⟩ := happly
      cases heq
      refine foldlM_preserves hfold hdb ?_
      intro c hc db₁ db₂ hdb₁ happly
      obtain ⟨e, he, hec⟩ := exists_of_mem_right (mapM_eq_ok_iff.mp hcommands) hc
      exact hstep call List.mem_cons_self e he c hec _ _ hdb₁ happly

end EntityStore.Memory
