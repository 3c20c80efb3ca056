import EntityStore.Error

/-!
# Log events

Events are values: a level, a message and named texts. Values of parameters occur in an event only
if the store is told that it may log sensitive data.
-/

namespace EntityStore

inductive LogLevel
  | error
  | warn
  | info
  | debug
  | trace
deriving DecidableEq

def LogLevel.tag : LogLevel → String
  | .error => "ERROR"
  | .warn => "WARN"
  | .info => "INFO"
  | .debug => "DEBUG"
  | .trace => "TRACE"

structure LogEvent where
  level : LogLevel
  message : String
  fields : List (String × String)
deriving DecidableEq

namespace LogEvent

def error (message : String) (fields : List (String × String)) : LogEvent :=
  ⟨.error, message, fields⟩

def warn (message : String) (fields : List (String × String)) : LogEvent :=
  ⟨.warn, message, fields⟩

def info (message : String) (fields : List (String × String)) : LogEvent :=
  ⟨.info, message, fields⟩

def debug (message : String) (fields : List (String × String)) : LogEvent :=
  ⟨.debug, message, fields⟩

def trace (message : String) (fields : List (String × String)) : LogEvent :=
  ⟨.trace, message, fields⟩

def failure (store operation : String) (e : StoreError) : LogEvent :=
  if e.isCancelled then
    debug "operation cancelled" [("store", store), ("operation", operation)]
  else
    error "data store operation failed"
      [("store", store), ("operation", operation), ("error", e.message)]

def toJson (e : LogEvent) : Json :=
  .arr [.str e.level.tag, .str e.message,
    .arr (e.fields.map (fun (name, text) => .arr [.str name, .str text]))]

def command (database sql : String) (parameters : List Value) (sensitive : Bool) : LogEvent :=
  debug "executing command" [("database", database), ("sql", sql),
    ("parameters",
      if sensitive then Value.inspectList parameters else toString parameters.length)]

end LogEvent

end EntityStore
