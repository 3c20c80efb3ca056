import EntityStore.Json.Parser
import EntityStore.Json.Printer
import EntityStore.Json.Reader

/-!
# Store options

Everything has a default, so a document or an environment that says little is enough.
-/

namespace EntityStore

/-- How often the creation of a store is tried, and how long to wait in between, in milliseconds. -/
structure RetryConfig where
  maxAttempts : UInt32
  baseDelay : UInt64
  maxDelay : UInt64
deriving DecidableEq

namespace RetryConfig

def standard : RetryConfig := { maxAttempts := 10, baseDelay := 100, maxDelay := 5000 }

def immediate (maxAttempts : UInt32) : RetryConfig :=
  { maxAttempts := maxAttempts, baseDelay := 0, maxDelay := 0 }

/-- The wait before a retry, counted from zero: the base delay doubles with each retry, at most 31
times, and is cut at the greatest delay. -/
def backoff (c : RetryConfig) (retry : Nat) : Nat :=
  min c.maxDelay.toNat (min (UInt64.size - 1) (c.baseDelay.toNat * Nat.pow 2 (min retry 31)))

def attemptLimit (c : RetryConfig) : Nat := max 1 c.maxAttempts.toNat

def ofJson? (j : Json) : Option RetryConfig := do
  match ← j.record? ["max_attempts", "base_delay_ms", "max_delay_ms"] with
  | [maxAttempts, baseDelay, maxDelay] =>
    return {
      maxAttempts := ← Json.orDefault standard.maxAttempts Json.uint32? maxAttempts
      baseDelay := ← Json.orDefault standard.baseDelay Json.uint64? baseDelay
      maxDelay := ← Json.orDefault standard.maxDelay Json.uint64? maxDelay }
  | _ => none

def toJson (c : RetryConfig) : Json :=
  .obj [("max_attempts", .int c.maxAttempts.toNat), ("base_delay_ms", .int c.baseDelay.toNat),
    ("max_delay_ms", .int c.maxDelay.toNat)]

end RetryConfig

structure StoreOptions where
  /-- Whether values of parameters may be logged. -/
  sensitiveLogging : Bool
  /-- The greatest number of commands in a batch. -/
  maxBatchSize : UInt64
  retry : RetryConfig
  /-- Whether an in-memory store uses the database it is opened on, or a fresh one of its own. -/
  persistInMemory : Bool
deriving DecidableEq

namespace StoreOptions

def standard : StoreOptions :=
  { sensitiveLogging := false, maxBatchSize := 42, retry := .standard, persistInMemory := true }

def ofJson? (j : Json) : Option StoreOptions := do
  match ← j.record? ["sensitive_data_logging", "max_batch_size", "retry",
      "persist_in_memory"] with
  | [sensitive, maxBatchSize, retry, persist] =>
    return {
      sensitiveLogging := ← Json.orDefault false Json.bool? sensitive
      maxBatchSize := ← Json.orDefault standard.maxBatchSize Json.uint64? maxBatchSize
      retry := ← Json.orDefault RetryConfig.standard RetryConfig.ofJson? retry
      persistInMemory := ← Json.orDefault true Json.bool? persist }
  | _ => none

def toJson (o : StoreOptions) : Json :=
  .obj [("sensitive_data_logging", .bool o.sensitiveLogging),
    ("max_batch_size", .int o.maxBatchSize.toNat), ("retry", o.retry.toJson),
    ("persist_in_memory", .bool o.persistInMemory)]

def text (o : StoreOptions) : String := o.toJson.text

def ofText? (text : String) : Option StoreOptions := do
  let j ← Json.parse? Json.nestingLimit text
  ofJson? j

/-- A number below `bound` in decimal digits, with an optional plus sign. -/
def number? (bound : Nat) (s : String) : Option Nat :=
  let digits := match s.toList with
    | '+' :: rest => rest
    | cs => cs
  if digits.isEmpty || !digits.all Char.isDigit then none
  else
    let n := digits.foldl (fun n c => n * 10 + (c.toNat - '0'.toNat)) 0
    if n < bound then some n else none

def isYes (s : String) : Bool := ["1", "true", "TRUE", "yes"].contains s

/-- The options that environment variables give; what is unset or unreadable is as usual. -/
def ofEnvironment (lookup : String → Option String) : StoreOptions :=
  let number (name : String) (bound : Nat) : Option Nat := (lookup name).bind (number? bound)
  { sensitiveLogging := ((lookup "QUARRY_SENSITIVE_LOGGING").map isYes).getD false
    maxBatchSize :=
      ((number "QUARRY_MAX_BATCH_SIZE" UInt64.size).map UInt64.ofNat).getD standard.maxBatchSize
    retry :=
      { RetryConfig.standard with
        maxAttempts := ((number "QUARRY_RETRY_MAX_ATTEMPTS" UInt32.size).map UInt32.ofNat).getD
          RetryConfig.standard.maxAttempts
        baseDelay := ((number "QUARRY_RETRY_BASE_DELAY_MS" UInt64.size).map UInt64.ofNat).getD
          RetryConfig.standard.baseDelay }
    persistInMemory := true }

end StoreOptions

end EntityStore
