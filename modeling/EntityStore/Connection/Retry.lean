import EntityStore.Log
import EntityStore.Options

/-!
# Retrying

The policy by which attempts that fail for a passing reason are repeated: up to a limit, with
growing waits.
-/

namespace EntityStore

inductive RetryPhase
  | idle
  | probing (attempt : Nat)
  | retrying (attempt : Nat) (delay : Nat)
  | ready
  | failed
deriving DecidableEq

inductive RetryStep (α : Type)
  | done (a : α)
  | wait (milliseconds : Nat)
  | fail (e : StoreError)

structure RetryState where
  config : RetryConfig
  phase : RetryPhase
  attempts : Nat
deriving DecidableEq

namespace RetryState

def start (config : RetryConfig) : RetryState :=
  { config := config, phase := .idle, attempts := 0 }

def beginAttempt (s : RetryState) : RetryState :=
  { s with phase := .probing (s.attempts + 1), attempts := s.attempts + 1 }

def retryEvent (s : RetryState) (delay : Nat) (e : StoreError) : LogEvent :=
  .warn "transient error while creating store, retrying"
    [("attempt", toString s.attempts), ("max_attempts", toString s.config.maxAttempts.toNat),
      ("delay_ms", toString delay), ("error", e.message)]

def next (s : RetryState) (outcome : Except StoreError α) :
    RetryStep α × RetryState × List LogEvent :=
  match outcome with
  | .ok a => (.done a, { s with phase := .ready }, [])
  | .error e =>
    if !e.isTransient then (.fail e, { s with phase := .failed }, [])
    else if s.config.attemptLimit ≤ s.attempts then
      (.fail (.retryLimitExceeded s.attempts e), { s with phase := .failed }, [])
    else
      let delay := s.config.backoff (s.attempts - 1)
      (.wait delay, { s with phase := .retrying s.attempts delay }, [s.retryEvent delay e])

end RetryState

end EntityStore
