import EntityStore.Query.Fingerprint
import EntityStore.Log

/-!
# Compiled queries

A store keeps the compiled form of every shape of query it has seen. A look-up first claims a slot for
its shape, which stays empty if the compilation fails. An empty slot is as good as none: the shape is
compiled again the next time.
-/

namespace EntityStore

structure QueryCache (γ : Type) where
  slots : OrderedMap Fingerprint (Option γ)

/-- What compiling gives: a compiled query or a failure, and the events that it logs. -/
structure Compilation (γ : Type) where
  result : Except StoreError γ
  events : List LogEvent

namespace QueryCache

variable {γ : Type}

def empty : QueryCache γ := ⟨.empty⟩

def find? (c : QueryCache γ) (key : Fingerprint) : Option γ := (c.slots.get? key).join

def size (c : QueryCache γ) : Nat := (c.slots.values.filter (·.isSome)).length

def contains (c : QueryCache γ) (key : Fingerprint) : Bool := (c.find? key).isSome

def claim (c : QueryCache γ) (key : Fingerprint) : QueryCache γ :=
  if c.slots.contains key then c else ⟨c.slots.insert key none⟩

def hitEvent (key : Fingerprint) : LogEvent :=
  .trace "compiled query cache hit" [("fingerprint", key.inspect)]

def missEvent (key : Fingerprint) : LogEvent :=
  .trace "compiled query cache miss" [("fingerprint", key.inspect)]

def getOrAdd (c : QueryCache γ) (key : Fingerprint) (compile : Compilation γ) :
    Compilation γ × QueryCache γ :=
  let claimed := c.claim key
  match claimed.find? key with
  | some q => (⟨.ok q, [hitEvent key]⟩, claimed)
  | none =>
    let compiled := { compile with events := missEvent key :: compile.events }
    match compile.result with
    | .ok q => (compiled, ⟨claimed.slots.insert key (some q)⟩)
    | .error _ => (compiled, claimed)

end QueryCache

end EntityStore
