import EntityStore.Connection.Transaction
import EntityStore.Proofs.Connection.Effects
import EntityStore.Proofs.Connection.History

/-!
# Programs that report no failure

Failures are reported by stores. A connection tells what it does, but it reports nothing, and neither
does a query or a save on it, however it ends.
-/

namespace EntityStore

def LogEvent.isReport (event : LogEvent) : Bool :=
  event.message == "data store operation failed" || event.message == "operation cancelled"

theorem LogEvent.isReport_command (database sql : String) (parameters : List Value) (sensitive : Bool) :
    (LogEvent.command database sql parameters sensitive).isReport = false := rfl

namespace Connection

open Run

variable {σ α : Type}

def told (c : Connection σ) (s : σ) : Call → List LogEvent
  | .connect => []
  | .openLink => (c.openLink s).events
  | .closeLink _ => (c.closeLink s).events
  | .beginTransaction => (c.beginTransaction s).events
  | .commit => (c.commit s).events
  | .rollback => (c.rollback s).events
  | .probeDatabase => (c.databaseExists s).events
  | .probeTables => (c.hasTables s).events
  | .createDatabase => (c.createDatabase s).events
  | .deleteDatabase => (c.deleteDatabase s).events
  | .execute sql parameters => (c.execute sql parameters s).events
  | .query sql parameters => (c.query sql parameters s).events
  | .wait _ => []

def Quiet (c : Connection σ) : Prop := ∀ s call, ∀ event ∈ c.told s call, event.isReport = false

abbrev ReportsNothing (r : Run σ α) : Prop := Confined (fun _ => True) (fun event => event.isReport = false) r

theorem reportsNothing_log {event : LogEvent} (h : event.isReport = false) :
    ReportsNothing (Run.log [event] : Run σ Unit) :=
  Confined.log (List.forall_mem_singleton.2 h)

namespace Quiet

variable {c : Connection σ} (h : c.Quiet)

include h

theorem call {call : Call} {f : σ → Reply σ α} (hf : ∀ s, c.told s call = (f s).events) :
    ReportsNothing (Run.call call f) :=
  Confined.call trivial (fun s => hf s ▸ h s call)

theorem close : ReportsNothing c.close := confined_close (fun _ => trivial) (fun s => h s (.closeLink true))

theorem rows (mode : Mode) (sensitive : Bool) (sql : String) (parameters : List Value) :
    ReportsNothing (c.rows mode sensitive sql parameters) :=
  confined_rows mode trivial (fun _ => LogEvent.isReport_command _ _ _ _)
    (fun s => h s (.query sql parameters))

theorem runCommand (mode : Mode) (sensitive : Bool) (command : Command) :
    ReportsNothing (c.runCommand mode sensitive command) := by
  refine (Relates.checkCancelled c mode).bind (fun _ => ?_)
  refine Relates.bind ?_ (fun affected => .ofExcept (checkAffected command affected))
  exact confined_run trivial (fun _ => LogEvent.isReport_command _ _ _ _) (fun s => h s (statement command))

theorem runCommands (mode : Mode) (sensitive : Bool) (commands : List Command) (total : UInt64) :
    ReportsNothing (c.runCommands mode sensitive total commands) := by
  induction commands generalizing total with
  | nil => exact .pure total
  | cons command rest ih => exact (h.runCommand mode sensitive command).bind (fun affected => ih _)

theorem runBatches (mode : Mode) (sensitive : Bool) (batches : List Batch) (index : Nat) (total : UInt64) :
    ReportsNothing (c.runBatches mode sensitive index total batches) := by
  induction batches generalizing index total with
  | nil => exact .pure total
  | cons batch rest ih =>
    refine (reportsNothing_log rfl).bind (fun _ => ?_)
    exact (h.runCommands mode sensitive batch total).bind (fun total => ih (index + 1) total)

theorem transactionBody (mode : Mode) (sensitive : Bool) (batches : List Batch) :
    ReportsNothing (c.transactionBody mode sensitive batches) := by
  refine (h.runBatches mode sensitive batches 0 0).bind (fun total => ?_)
  refine (Relates.checkCancelled c mode).bind (fun _ => ?_)
  exact (h.call (fun _ => rfl)).bind (fun _ => .pure total)

theorem abandon : ReportsNothing c.abandon := by
  have hrollback : ReportsNothing (Run.call .rollback c.rollback) := h.call (fun _ => rfl)
  refine hrollback.attempt.bind (fun outcome => ?_)
  cases outcome with
  | ok => exact .pure ()
  | error e => exact confined_databaseName.bind (fun database => reportsNothing_log rfl)

theorem closeIf (opened : Bool) : ReportsNothing (c.closeIf opened) := by
  cases opened with
  | false => exact .pure ()
  | true => exact h.close

theorem transact (mode : Mode) (sensitive : Bool) (batches : List Batch) (opened : Bool) :
    ReportsNothing (c.transact mode sensitive batches opened) := by
  have hbegin : ReportsNothing c.startTransaction := h.call (fun _ => rfl)
  refine hbegin.attempt.bind (fun begun => ?_)
  cases begun with
  | error e => exact (h.closeIf opened).bind (fun _ => .throw e)
  | ok =>
    refine (h.transactionBody mode sensitive batches).attempt.bind (fun outcome => ?_)
    cases outcome with
    | ok total => exact (h.closeIf opened).bind (fun _ => .pure total)
    | error e => exact h.abandon.bind (fun _ => (h.closeIf opened).bind (fun _ => .throw e))

theorem save (mode : Mode) (sensitive : Bool) (batches : List Batch) :
    ReportsNothing (c.save mode sensitive batches) := by
  refine (Relates.checkCancelled c mode).bind (fun _ => confined_openNow.bind (fun wasOpen => ?_))
  cases wasOpen with
  | true => exact h.transact mode sensitive batches false
  | false =>
    have hstart : ReportsNothing c.start := h.call (fun _ => rfl)
    exact hstart.bind (fun _ => h.transact mode sensitive batches true)

end Quiet

end Connection

theorem Scripted.quiet_connection : Scripted.connection.Quiet := by
  intro s call event hevent
  cases call <;> cases hevent

namespace Engine.Link

variable {α : Type}

def QuietReply (reply : Reply Link α) : Prop := ∀ event ∈ reply.events, event.isReport = false

theorem quiet_refuse (l : Link) (e : StoreError) : QuietReply (l.refuse e : Reply Link α) :=
  List.forall_mem_nil _

theorem quiet_whenOpen (l : Link) {answer : Nat → Reply Link α} (h : ∀ number, QuietReply (answer number)) :
    QuietReply (l.whenOpen answer) := by
  unfold whenOpen
  split
  · exact h _
  · exact quiet_refuse l _

theorem quiet_withStatement (l : Link) (sql : String) {answer : Nat → Sql.Statement → Reply Link α}
    (h : ∀ number statement, QuietReply (answer number statement)) :
    QuietReply (l.withStatement sql answer) := by
  refine quiet_whenOpen l (fun number => ?_)
  cases Sql.Statement.ofText? sql with
  | some statement => exact h number statement
  | none => exact quiet_refuse l _

theorem quiet_closeLink (l : Link) : QuietReply l.closeLink := by
  unfold closeLink
  split
  · exact List.forall_mem_singleton.2 rfl
  · exact List.forall_mem_nil _

theorem quiet_removeFiles (l : Link) (paths : List String) : QuietReply (l.removeFiles paths) := by
  induction paths generalizing l with
  | nil => exact List.forall_mem_singleton.2 rfl
  | cons path rest ih =>
    rw [removeFiles]
    split
    · exact quiet_refuse l _
    · exact ih _

theorem quiet_connection : connection.Quiet := by
  intro l call
  cases call with
  | connect => exact List.forall_mem_nil _
  | openLink =>
    change QuietReply l.openLink
    unfold openLink
    split
    · exact List.forall_mem_nil _
    · split
      · exact List.forall_mem_singleton.2 rfl
      · exact quiet_refuse l _
  | closeLink => exact quiet_closeLink l
  | beginTransaction =>
    refine quiet_whenOpen l (fun number => ?_)
    cases l.transaction with
    | some t => exact quiet_refuse l _
    | none => exact List.forall_mem_singleton.2 rfl
  | commit =>
    refine quiet_whenOpen l (fun number => ?_)
    cases l.transaction with
    | some t => exact List.forall_mem_singleton.2 rfl
    | none => exact quiet_refuse l _
  | rollback =>
    refine quiet_whenOpen l (fun number => ?_)
    cases l.transaction with
    | some t => exact List.forall_mem_singleton.2 rfl
    | none => exact quiet_refuse l _
  | probeDatabase => exact List.forall_mem_nil _
  | probeTables => exact quiet_whenOpen l (fun number => List.forall_mem_nil _)
  | createDatabase =>
    change QuietReply l.createDatabase
    unfold createDatabase
    split
    · exact List.forall_mem_singleton.2 rfl
    · exact quiet_refuse l _
  | deleteDatabase => exact List.forall_mem_append.2 ⟨quiet_closeLink l, quiet_removeFiles _ _⟩
  | execute sql parameters =>
    change QuietReply (l.execute sql parameters)
    refine quiet_withStatement l sql (fun number statement => ?_)
    cases (l.seen number).execute parameters statement with
    | ok _ => exact List.forall_mem_nil _
    | error e => exact quiet_refuse _ e
  | query sql parameters =>
    refine quiet_withStatement l sql (fun number statement => ?_)
    cases (l.seen number).query parameters statement with
    | ok _ => exact List.forall_mem_nil _
    | error e => exact quiet_refuse _ e
  | wait => exact List.forall_mem_nil _

end Engine.Link

end EntityStore
