import EntityStore.Proofs.Connection.Session
import EntityStore.Store.Basic

/-!
# Saves of any store

A save does nothing once the caller has given up or if there are no changes. Otherwise it is the
save of the backend, with one event that tells how it went.
-/

namespace EntityStore.Backend

variable {σ γ : Type}

theorem run_checkCancelled (b : Backend σ γ) (mode : Mode) (session : Session σ) :
    b.checkCancelled mode session =
      (if mode = .cancellable ∧ b.isCancelled session.state = true then .error .cancelled else .ok (),
        session) := by
  rw [checkCancelled, Run.run_bind, Run.run_state]
  by_cases h : mode = .cancellable ∧ b.isCancelled session.state = true
  · simp [h]
  · simp [h]

theorem run_saveChanges (b : Backend σ γ) (mode : Mode) (entries : List PendingEntry)
    (session : Session σ) :
    b.saveChanges mode entries session =
      if mode = .cancellable ∧ b.isCancelled session.state = true then
        (.error .cancelled, { session with
          events := session.events ++ [.failure b.name (saveOperation mode) .cancelled] })
      else if entries.isEmpty then (.ok 0, session)
      else match b.save mode entries session with
        | (.ok affected, session') => (.ok affected, { session' with
          events := session'.events ++ [b.savedEvent entries affected] })
        | (.error e, session') => (.error e, { session' with
          events := session'.events ++ [.failure b.name (saveOperation mode) e] }) := by
  rw [saveChanges, Run.run_logged, Run.run_bind, run_checkCancelled]
  by_cases hcancelled : mode = .cancellable ∧ b.isCancelled session.state = true
  · simp [hcancelled]
  · by_cases hempty : entries.isEmpty = true
    · simp [hcancelled, hempty]
    · simp only [if_neg hcancelled, if_neg hempty, Run.run_bind]
      obtain ⟨outcome, session'⟩ := b.save mode entries session
      cases outcome <;> rfl

end EntityStore.Backend
