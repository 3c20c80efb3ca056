import EntityStore.Proofs.Connection.Simulation
import EntityStore.Proofs.Connection.Transaction

/-!
# What the log tells of values

Two connections are asked the same, but with other values. As long as they answer alike, a query or a
save over the one logs what it logs over the other, unless the log may tell sensitive data.
-/

namespace EntityStore

namespace Run

variable {σ σ' α : Type}

/-- Sessions in related states that have logged the same. -/
structure LoggedAlike (S : σ → σ' → Prop) (session : Session σ) (session' : Session σ') : Prop where
  state : S session.state session'.state
  events : session.events = session'.events

structure LikeReply (S : σ → σ' → Prop) (x : Reply σ α) (y : Reply σ' α) : Prop where
  result : x.result = y.result
  events : x.events = y.events
  state : S x.state y.state

variable {S : σ → σ' → Prop}

theorem loggedAlike_log (events : List LogEvent) :
    Coupled (LoggedAlike S) Eq (Run.log events : Run σ Unit) (Run.log events : Run σ' Unit) :=
  fun _ _ h => ⟨rfl, h.state, congrArg (· ++ events) h.events⟩

theorem loggedAlike_state : Coupled (LoggedAlike S) S (Run.state : Run σ σ) (Run.state : Run σ' σ') :=
  fun _ _ h => ⟨h.state, h⟩

theorem loggedAlike_record (call call' : Call) :
    Coupled (LoggedAlike S) Eq (Run.record call : Run σ Unit) (Run.record call' : Run σ' Unit) :=
  fun _ _ h => ⟨rfl, h.state, h.events⟩

theorem loggedAlike_modify {f : σ → σ} {f' : σ' → σ'} (hf : ∀ s s', S s s' → S (f s) (f' s')) :
    Coupled (LoggedAlike S) Eq
      (modify (fun session => { session with state := f session.state }) : Run σ Unit)
      (modify (fun session => { session with state := f' session.state }) : Run σ' Unit) :=
  fun _ _ h => ⟨rfl, hf _ _ h.state, h.events⟩

theorem loggedAlike_call (call call' : Call) {f : σ → Reply σ α} {f' : σ' → Reply σ' α}
    (hf : ∀ s s', S s s' → LikeReply S (f s) (f' s')) :
    Coupled (LoggedAlike S) Eq (Run.call call f) (Run.call call' f') := by
  intro session session' h
  have hreply := hf _ _ h.state
  rw [run_call, run_call]
  refine ⟨corresponds_eq_iff.2 hreply.result, hreply.state, ?_⟩
  change session.events ++ _ = session'.events ++ _
  rw [h.events, hreply.events]

end Run

open Run

theorem LogEvent.command_eq_of_length {parameters parameters' : List Value}
    (h : parameters.length = parameters'.length) (database sql : String) :
    LogEvent.command database sql parameters false = LogEvent.command database sql parameters' false := by
  rw [command, command, h]
  rfl

theorem Run.loggedAlike_command {σ σ' : Type} {S : σ → σ' → Prop} {parameters parameters' : List Value}
    (h : parameters.length = parameters'.length) (database sql : String) :
    Coupled (LoggedAlike S) Eq (Run.log [.command database sql parameters false] : Run σ Unit)
      (Run.log [.command database sql parameters' false] : Run σ' Unit) := by
  rw [LogEvent.command_eq_of_length h]
  exact loggedAlike_log _

structure Command.SameText (x y : Command) : Prop where
  table : x.table = y.table
  state : x.state = y.state
  text : x.sql.1 = y.sql.1
  count : x.sql.2.length = y.sql.2.length

theorem Command.SameText.checkAffected_eq {x y : Command} (h : x.SameText y) (affected : UInt64) :
    Connection.checkAffected x affected = Connection.checkAffected y affected := by
  rw [Connection.checkAffected, Connection.checkAffected, needsRow, needsRow, h.table, h.state]

namespace Connection

variable {σ σ' : Type}

/-- Connections that answer related calls alike and stay in related states. A statement and a query
count as related to others only if both are sent. -/
structure AnswersLike (c : Connection σ) (c' : Connection σ') (S : σ → σ' → Prop)
    (sent : Call → Call → Prop) : Prop where
  connect {s s'} (h : S s s') : S (c.connect s) (c'.connect s')
  database {s s'} (h : S s s') : c.database s = c'.database s'
  isOpen {s s'} (h : S s s') : c.isOpen s = c'.isOpen s'
  isCancelled {s s'} (h : S s s') : c.isCancelled s = c'.isCancelled s'
  openLink {s s'} (h : S s s') : LikeReply S (c.openLink s) (c'.openLink s')
  closeLink {s s'} (h : S s s') : LikeReply S (c.closeLink s) (c'.closeLink s')
  beginTransaction {s s'} (h : S s s') : LikeReply S (c.beginTransaction s) (c'.beginTransaction s')
  commit {s s'} (h : S s s') : LikeReply S (c.commit s) (c'.commit s')
  rollback {s s'} (h : S s s') : LikeReply S (c.rollback s) (c'.rollback s')
  execute {sql parameters parameters'} (hsent : sent (.execute sql parameters) (.execute sql parameters'))
    {s s'} (h : S s s') : LikeReply S (c.execute sql parameters s) (c'.execute sql parameters' s')
  query {sql parameters parameters'} (hsent : sent (.query sql parameters) (.query sql parameters'))
    {s s'} (h : S s s') : LikeReply S (c.query sql parameters s) (c'.query sql parameters' s')
  deliver {s s'} (h : S s s') : S (c.deliver s) (c'.deliver s')

structure Sends (sent : Call → Call → Prop) (x y : Command) : Prop extends x.SameText y where
  sent : sent (statement x) (statement y)

namespace AnswersLike

variable {c : Connection σ} {c' : Connection σ'} {S : σ → σ' → Prop} {sent : Call → Call → Prop}
  (h : AnswersLike c c' S sent)

include h

theorem checkCancelled (mode : Mode) :
    Coupled (LoggedAlike S) Eq (c.checkCancelled mode) (c'.checkCancelled mode) := by
  refine loggedAlike_state.bind (fun s s' hs => ?_)
  rw [h.isCancelled hs]
  split_ifs
  · exact .throw _
  · exact .pure rfl

theorem openNow : Coupled (LoggedAlike S) Eq c.openNow c'.openNow :=
  loggedAlike_state.bind (fun _ _ hs => .pure (h.isOpen hs))

theorem databaseName : Coupled (LoggedAlike S) Eq c.databaseName c'.databaseName :=
  loggedAlike_state.bind (fun _ _ hs => .pure (h.database hs))

theorem renew : Coupled (LoggedAlike S) Eq c.renew c'.renew :=
  (loggedAlike_record .connect .connect).bind
    (fun _ _ _ => loggedAlike_modify (fun _ _ hs => h.connect hs))

theorem start : Coupled (LoggedAlike S) Eq c.start c'.start :=
  loggedAlike_call _ _ (fun _ _ hs => h.openLink hs)

theorem close : Coupled (LoggedAlike S) Eq c.close c'.close := by
  refine h.openNow.bind (fun wasOpen wasOpen' _ => ?_)
  have hclose := loggedAlike_call (.closeLink wasOpen) (.closeLink wasOpen') (fun _ _ hs => h.closeLink hs)
  exact hclose.attempt_eq.bind (fun _ _ _ => .pure rfl)

theorem collect (mode : Mode) (rows : List Row) :
    Coupled (LoggedAlike S) Eq (c.collect mode rows) (c'.collect mode rows) := by
  induction rows with
  | nil => exact .pure rfl
  | cons row rest ih =>
    refine (loggedAlike_modify (fun _ _ hs => h.deliver hs)).bind (fun _ _ _ => ?_)
    refine (h.checkCancelled mode).bind (fun _ _ _ => ?_)
    refine ih.bind ?_
    rintro rows _ rfl
    exact .pure rfl

section

variable {sql : String} {parameters parameters' : List Value}

theorem run (hlength : parameters.length = parameters'.length)
    (hsent : sent (.execute sql parameters) (.execute sql parameters')) :
    Coupled (LoggedAlike S) Eq (c.run false sql parameters) (c'.run false sql parameters') := by
  refine h.databaseName.bind ?_
  rintro database _ rfl
  refine (loggedAlike_command hlength database sql).bind (fun _ _ _ => ?_)
  exact loggedAlike_call _ _ (fun _ _ hs => h.execute hsent hs)

theorem rows (mode : Mode) (hlength : parameters.length = parameters'.length)
    (hsent : sent (.query sql parameters) (.query sql parameters')) :
    Coupled (LoggedAlike S) Eq (c.rows mode false sql parameters) (c'.rows mode false sql parameters') := by
  refine h.databaseName.bind ?_
  rintro database _ rfl
  refine (loggedAlike_command hlength database sql).bind (fun _ _ _ => ?_)
  have hquery := loggedAlike_call (.query sql parameters) (.query sql parameters')
    (fun _ _ hs => h.query hsent hs)
  refine hquery.bind ?_
  rintro source _ rfl
  refine (h.collect mode source.rows).bind ?_
  rintro rows _ rfl
  cases source.failure with
  | none => exact .pure rfl
  | some e => exact .throw e

end

theorem runCommand (mode : Mode) {x y : Command} (hxy : Sends sent x y) :
    Coupled (LoggedAlike S) Eq (c.runCommand mode false x) (c'.runCommand mode false y) := by
  refine (h.checkCancelled mode).bind (fun _ _ _ => ?_)
  have hsent := hxy.sent
  have hrun : Coupled (LoggedAlike S) Eq (c.run false x.sql.1 x.sql.2) (c'.run false y.sql.1 y.sql.2) := by
    rw [statement, statement, ← hxy.text] at hsent
    rw [← hxy.text]
    exact h.run hxy.count hsent
  refine hrun.bind ?_
  rintro affected _ rfl
  exact .ofExcept (corresponds_eq_iff.2 (hxy.checkAffected_eq affected))

theorem runCommands (mode : Mode) {commands commands' : List Command}
    (hcommands : List.Forall₂ (Sends sent) commands commands') (total : UInt64) :
    Coupled (LoggedAlike S) Eq (c.runCommands mode false total commands)
      (c'.runCommands mode false total commands') := by
  induction hcommands generalizing total with
  | nil => exact .pure rfl
  | cons hcommand _ ih =>
    refine (h.runCommand mode hcommand).bind ?_
    rintro affected _ rfl
    exact ih (total + affected)

theorem runBatches (mode : Mode) {batches batches' : List Batch}
    (hbatches : List.Forall₂ (List.Forall₂ (Sends sent)) batches batches') (index : Nat) (total : UInt64) :
    Coupled (LoggedAlike S) Eq (c.runBatches mode false index total batches)
      (c'.runBatches mode false index total batches') := by
  induction hbatches generalizing index total with
  | nil => exact .pure rfl
  | @cons batch batch' _ _ hbatch _ ih =>
    have hevent : batchEvent index batch = batchEvent index batch' := by
      rw [batchEvent, batchEvent, hbatch.length_eq]
    rw [Connection.runBatches, Connection.runBatches, hevent]
    refine (loggedAlike_log _).bind (fun _ _ _ => ?_)
    refine (h.runCommands mode hbatch total).bind ?_
    rintro total' _ rfl
    exact ih (index + 1) total'

theorem transactionBody (mode : Mode) {batches batches' : List Batch}
    (hbatches : List.Forall₂ (List.Forall₂ (Sends sent)) batches batches') :
    Coupled (LoggedAlike S) Eq (c.transactionBody mode false batches)
      (c'.transactionBody mode false batches') := by
  refine (h.runBatches mode hbatches 0 0).bind ?_
  rintro total _ rfl
  refine (h.checkCancelled mode).bind (fun _ _ _ => ?_)
  have hcommit := loggedAlike_call .commit .commit (fun _ _ hs => h.commit hs)
  exact hcommit.bind (fun _ _ _ => .pure rfl)

theorem abandon : Coupled (LoggedAlike S) Eq c.abandon c'.abandon := by
  have hrollback := loggedAlike_call .rollback .rollback (fun _ _ hs => h.rollback hs)
  refine hrollback.attempt_eq.bind ?_
  rintro outcome _ rfl
  cases outcome with
  | ok => exact .pure rfl
  | error e =>
    refine h.databaseName.bind ?_
    rintro database _ rfl
    exact loggedAlike_log _

theorem closeIf (opened : Bool) : Coupled (LoggedAlike S) Eq (c.closeIf opened) (c'.closeIf opened) := by
  cases opened with
  | false => exact .pure rfl
  | true => exact h.close

theorem transact (mode : Mode) {batches batches' : List Batch}
    (hbatches : List.Forall₂ (List.Forall₂ (Sends sent)) batches batches') (opened : Bool) :
    Coupled (LoggedAlike S) Eq (c.transact mode false batches opened)
      (c'.transact mode false batches' opened) := by
  have hclose := h.closeIf opened
  have hbegin := loggedAlike_call .beginTransaction .beginTransaction
    (fun _ _ hs => h.beginTransaction hs)
  refine hbegin.attempt_eq.bind ?_
  rintro begun _ rfl
  cases begun with
  | error e => exact hclose.bind (fun _ _ _ => .throw e)
  | ok =>
    refine (h.transactionBody mode hbatches).attempt_eq.bind ?_
    rintro outcome _ rfl
    cases outcome with
    | ok total => exact hclose.bind (fun _ _ _ => .pure rfl)
    | error e => exact h.abandon.bind (fun _ _ _ => hclose.bind (fun _ _ _ => .throw e))

theorem save (mode : Mode) {batches batches' : List Batch}
    (hbatches : List.Forall₂ (List.Forall₂ (Sends sent)) batches batches') :
    Coupled (LoggedAlike S) Eq (c.save mode false batches) (c'.save mode false batches') := by
  refine (h.checkCancelled mode).bind (fun _ _ _ => ?_)
  refine h.openNow.bind ?_
  rintro wasOpen _ rfl
  cases wasOpen with
  | true => exact h.transact mode hbatches false
  | false => exact h.start.bind (fun _ _ _ => h.transact mode hbatches true)

end AnswersLike

end Connection

end EntityStore
