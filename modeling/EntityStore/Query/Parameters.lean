import EntityStore.Query.Basic
import EntityStore.Error

/-!
# Parameters

The values that a run of a query supplies for the names in it.
-/

namespace EntityStore.Parameters

def value (parameters : Parameters) (name : String) : Except StoreError Value :=
  match parameters.get? name with
  | some v => .ok v
  | none => .error (.invalidArgument name "no value supplied for query parameter")

end EntityStore.Parameters
