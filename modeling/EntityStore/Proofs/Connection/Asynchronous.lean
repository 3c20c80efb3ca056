import EntityStore.Proofs.Connection.History
import EntityStore.Proofs.Connection.Simulation
import EntityStore.Proofs.Connection.Transaction
import EntityStore.Relational.Driver

/-!
# Awaited connections

As long as nobody gives up, a program that awaits its connection does the same as one that does not.
This holds for every driver that answers those who await it as it answers the others: the two programs
meet the same states, and what the one checks in addition it always finds in order.
-/

namespace EntityStore

open Run

namespace Connection

variable {σ : Type}

/-- The states that a connection comes to by calls and by the rows it hands over. -/
inductive Leads (c : Connection σ) (s : σ) : σ → Prop
  | refl : Leads c s s
  | call {s' : σ} (h : Leads c s s') (call : Call) : Leads c s (c.after s' call)
  | deliver {s' : σ} (h : Leads c s s') : Leads c s (c.deliver s')

def NeverCancelled (c : Connection σ) (s : σ) : Prop := ∀ s', c.Leads s s' → c.isCancelled s' = false

variable {c : Connection σ} {s s' s'' : σ}

theorem Leads.trans (h : c.Leads s s') (h' : c.Leads s' s'') : c.Leads s s'' := by
  induction h' with
  | refl => exact h
  | call _ call ih => exact .call ih call
  | deliver _ ih => exact .deliver ih

theorem NeverCancelled.isCancelled (h : c.NeverCancelled s) : c.isCancelled s = false := h s .refl

theorem NeverCancelled.of_leads (h : c.NeverCancelled s) (hleads : c.Leads s s') :
    c.NeverCancelled s' := fun _ hleads' => h _ (hleads.trans hleads')

theorem NeverCancelled.after (h : c.NeverCancelled s) (call : Call) :
    c.NeverCancelled (c.after s call) := h.of_leads (.call .refl call)

theorem NeverCancelled.deliver (h : c.NeverCancelled s) : c.NeverCancelled (c.deliver s) :=
  h.of_leads (.deliver .refl)

end Connection

namespace Driver

variable {σ : Type}

/-- The asynchronous methods answer as their synchronous counterparts. What they log is their own
affair. -/
structure AnswersAlike (d : Driver σ) : Prop where
  opened (s : σ) : SameReply (d.openLink s) (d.openAsync s)
  executed (sql : String) (parameters : List Value) (s : σ) :
    SameReply (d.execute sql parameters s) (d.executeAsync sql parameters s)
  queried (sql : String) (parameters : List Value) (s : σ) :
    SameReply (d.query sql parameters s) (d.queryAsync sql parameters s)

theorem answersAlike_embedded (c : Connection σ) : (embedded c).AnswersAlike where
  opened _ := ⟨rfl, rfl⟩
  executed _ _ _ := ⟨rfl, rfl⟩
  queried _ _ _ := ⟨rfl, rfl⟩

variable {d : Driver σ}

theorem sameRun_checkCancelled :
    SameRun d.NeverCancelled Eq (d.checkCancelled .plain) (d.awaiting.checkCancelled .cancellable) := by
  intro session session' hnever hstate htrace
  obtain ⟨⟨hmode, -⟩, -⟩ | ⟨-, hcheck⟩ := d.toConnection.run_checkCancelled .plain session
  · cases hmode
  obtain ⟨⟨-, hgives⟩, -⟩ | ⟨-, hcheck'⟩ := d.awaiting.run_checkCancelled .cancellable session'
  · have hgoes : d.isCancelled session'.state = false := hstate ▸ hnever.isCancelled
    exact absurd (hgoes.symm.trans hgives) Bool.false_ne_true
  rw [hcheck, hcheck']
  exact ⟨rfl, hstate, htrace, hnever⟩

theorem sameRun_openNow : SameRun d.NeverCancelled Eq d.openNow d.awaiting.openNow :=
  SameRun.state.bind (fun _ _ hs => .pure (congrArg d.isOpen hs))

theorem sameRun_databaseName : SameRun d.NeverCancelled Eq d.databaseName d.awaiting.databaseName :=
  SameRun.state.bind (fun _ _ hs => .pure (congrArg d.database hs))

theorem sameRun_renew : SameRun d.NeverCancelled Eq d.renew d.awaiting.renew :=
  (SameRun.record .connect).bind (fun _ _ _ => .modify (fun _ hnever => hnever.after .connect))

theorem sameRun_call {α : Type} (call : Call) (f : σ → Reply σ α)
    (h : ∀ s, d.after s call = (f s).state) :
    SameRun d.NeverCancelled Eq (Run.call call f) (Run.call call f) :=
  .call call (fun _ => ⟨rfl, rfl⟩) (fun s hnever => h s ▸ hnever.after call)

theorem sameRun_close : SameRun d.NeverCancelled Eq d.close d.awaiting.close := by
  refine sameRun_openNow.bind ?_
  rintro wasOpen _ rfl
  have hclose := sameRun_call (d := d) (.closeLink wasOpen) d.closeLink (fun _ => rfl)
  exact hclose.attempt_eq.bind (fun _ _ _ => .pure rfl)

theorem sameRun_abandon : SameRun d.NeverCancelled Eq d.abandon d.awaiting.abandon := by
  refine (sameRun_call .rollback d.rollback (fun _ => rfl)).attempt_eq.bind ?_
  rintro outcome _ rfl
  cases outcome with
  | ok => exact .pure rfl
  | error e => exact sameRun_databaseName.bind (fun _ _ _ => .log _ _)

theorem sameRun_closeIf (opened : Bool) :
    SameRun d.NeverCancelled Eq (d.closeIf opened) (d.awaiting.closeIf opened) := by
  cases opened with
  | false => exact .pure rfl
  | true => exact sameRun_close

theorem sameRun_collect (rows : List Row) :
    SameRun d.NeverCancelled Eq (d.collect .plain rows) (d.awaiting.collect .cancellable rows) := by
  induction rows with
  | nil => exact .pure rfl
  | cons row rest ih =>
    refine (SameRun.modify (fun _ hnever => hnever.deliver)).bind (fun _ _ _ => ?_)
    refine sameRun_checkCancelled.bind (fun _ _ _ => ?_)
    refine ih.bind ?_
    rintro rows _ rfl
    exact .pure rfl

namespace AnswersAlike

variable (h : d.AnswersAlike)

include h

theorem start : SameRun d.NeverCancelled Eq d.start d.awaiting.start :=
  .call _ h.opened (fun _ hnever => hnever.after .openLink)

theorem run (sensitive : Bool) (sql : String) (parameters : List Value) :
    SameRun d.NeverCancelled Eq (d.run sensitive sql parameters)
      (d.awaiting.run sensitive sql parameters) := by
  refine sameRun_databaseName.bind (fun _ _ _ => ?_)
  refine (SameRun.log _ _).bind (fun _ _ _ => ?_)
  exact .call _ (h.executed sql parameters) (fun _ hnever => hnever.after (.execute sql parameters))

theorem rows (sensitive : Bool) (sql : String) (parameters : List Value) :
    SameRun d.NeverCancelled Eq (d.rows .plain sensitive sql parameters)
      (d.awaiting.rows .cancellable sensitive sql parameters) := by
  refine sameRun_databaseName.bind (fun _ _ _ => ?_)
  refine (SameRun.log _ _).bind (fun _ _ _ => ?_)
  have hquery : SameRun d.NeverCancelled Eq (Run.call (.query sql parameters) (d.query sql parameters))
      (Run.call (.query sql parameters) (d.queryAsync sql parameters)) :=
    .call _ (h.queried sql parameters) (fun _ hnever => hnever.after (.query sql parameters))
  refine hquery.bind ?_
  rintro source _ rfl
  refine (sameRun_collect source.rows).bind ?_
  rintro rows _ rfl
  cases source.failure with
  | none => exact .pure rfl
  | some e => exact .throw e

theorem runCommand (sensitive : Bool) (command : Command) :
    SameRun d.NeverCancelled Eq (d.runCommand .plain sensitive command)
      (d.awaiting.runCommand .cancellable sensitive command) := by
  refine sameRun_checkCancelled.bind (fun _ _ _ => ?_)
  refine (h.run sensitive command.sql.1 command.sql.2).bind ?_
  rintro affected _ rfl
  exact .ofExcept _

theorem runCommands (sensitive : Bool) (commands : List Command) (total : UInt64) :
    SameRun d.NeverCancelled Eq (d.runCommands .plain sensitive total commands)
      (d.awaiting.runCommands .cancellable sensitive total commands) := by
  induction commands generalizing total with
  | nil => exact .pure rfl
  | cons command rest ih =>
    refine (h.runCommand sensitive command).bind ?_
    rintro affected _ rfl
    exact ih (total + affected)

theorem runBatches (sensitive : Bool) (batches : List Batch) (index : Nat) (total : UInt64) :
    SameRun d.NeverCancelled Eq (d.runBatches .plain sensitive index total batches)
      (d.awaiting.runBatches .cancellable sensitive index total batches) := by
  induction batches generalizing index total with
  | nil => exact .pure rfl
  | cons batch rest ih =>
    refine (SameRun.log _ _).bind (fun _ _ _ => ?_)
    refine (h.runCommands sensitive batch total).bind ?_
    rintro total' _ rfl
    exact ih (index + 1) total'

theorem transactionBody (sensitive : Bool) (batches : List Batch) :
    SameRun d.NeverCancelled Eq (d.transactionBody .plain sensitive batches)
      (d.awaiting.transactionBody .cancellable sensitive batches) := by
  refine (h.runBatches sensitive batches 0 0).bind ?_
  rintro total _ rfl
  refine sameRun_checkCancelled.bind (fun _ _ _ => ?_)
  refine (sameRun_call .commit d.commit (fun _ => rfl)).bind (fun _ _ _ => ?_)
  exact .pure rfl

theorem transact (sensitive : Bool) (batches : List Batch) (opened : Bool) :
    SameRun d.NeverCancelled Eq (d.transact .plain sensitive batches opened)
      (d.awaiting.transact .cancellable sensitive batches opened) := by
  have hclose := sameRun_closeIf (d := d) opened
  have hbegin := sameRun_call (d := d) .beginTransaction d.beginTransaction (fun _ => rfl)
  refine hbegin.attempt_eq.bind ?_
  rintro begun _ rfl
  cases begun with
  | error e => exact hclose.bind (fun _ _ _ => .throw e)
  | ok =>
    refine (h.transactionBody sensitive batches).attempt_eq.bind ?_
    rintro outcome _ rfl
    cases outcome with
    | ok total => exact hclose.bind (fun _ _ _ => .pure rfl)
    | error e => exact sameRun_abandon.bind (fun _ _ _ => hclose.bind (fun _ _ _ => .throw e))

theorem save (sensitive : Bool) (batches : List Batch) :
    SameRun d.NeverCancelled Eq (d.save .plain sensitive batches)
      (d.awaiting.save .cancellable sensitive batches) := by
  refine sameRun_checkCancelled.bind (fun _ _ _ => ?_)
  refine sameRun_openNow.bind ?_
  rintro wasOpen _ rfl
  cases wasOpen with
  | true => exact h.transact sensitive batches false
  | false => exact h.start.bind (fun _ _ _ => h.transact sensitive batches true)

theorem probe (created : Bool) :
    SameRun d.NeverCancelled Eq (d.probe created) (d.awaiting.probe created) := by
  have hopen (created : Bool) : SameRun d.NeverCancelled Eq
      (do let opened ← Run.attempt d.start; return (opened, created))
      (do let opened ← Run.attempt d.awaiting.start; return (opened, created)) :=
    h.start.attempt_eq.bind (fun _ _ hopened => .pure (congrArg (·, created) hopened))
  refine (sameRun_call .probeDatabase d.databaseExists (fun _ => rfl)).attempt_eq.bind ?_
  rintro present _ rfl
  cases present with
  | error e => exact .pure rfl
  | ok present =>
    cases present with
    | true => exact hopen created
    | false =>
      refine (sameRun_call .createDatabase d.createDatabase (fun _ => rfl)).attempt_eq.bind ?_
      rintro made _ rfl
      cases made with
      | error e => exact .pure rfl
      | ok => exact hopen true

theorem createWith (left : Nat) (retry : RetryState) (created : Bool) :
    SameRun d.NeverCancelled Eq (d.createWith left retry created)
      (d.awaiting.createWith left retry created) := by
  induction left generalizing retry created with
  | zero => exact .throw _
  | succ left ih =>
    rw [Connection.createWith, Connection.createWith]
    refine (h.probe created).bind ?_
    rintro ⟨outcome, created⟩ _ rfl
    simp only
    generalize retry.beginAttempt.next outcome = decided
    obtain ⟨step, retry, events⟩ := decided
    refine (SameRun.log _ _).bind (fun _ _ _ => ?_)
    cases step with
    | done => exact .pure rfl
    | fail e => exact sameRun_close.bind (fun _ _ _ => .throw e)
    | wait delay =>
      refine sameRun_close.bind (fun _ _ _ => ?_)
      exact (SameRun.record (.wait delay)).bind (fun _ _ _ => ih retry created)

theorem createTablesOf (s : Schema) (sensitive : Bool) (roots : List EntityType) :
    SameRun d.NeverCancelled Eq (d.createTablesOf s sensitive roots)
      (d.awaiting.createTablesOf s sensitive roots) := by
  have hrollback := sameRun_call (d := d) .rollback d.rollback (fun _ => rfl)
  induction roots with
  | nil => exact .pure rfl
  | cons root rest ih =>
    rw [Connection.createTablesOf, Connection.createTablesOf]
    cases s.createTable root.id with
    | error e => exact hrollback.bind (fun _ _ _ => .throw _)
    | ok sql =>
      refine (h.run sensitive sql []).attempt_eq.bind ?_
      rintro outcome _ rfl
      cases outcome with
      | error e => exact hrollback.bind (fun _ _ _ => .throw e)
      | ok => exact ih

theorem createTables (s : Schema) (sensitive created : Bool) :
    SameRun d.NeverCancelled Eq (d.createTables s sensitive created)
      (d.awaiting.createTables s sensitive created) := by
  -- a database without tables is treated like one that has just been created
  have hmissing : SameRun d.NeverCancelled Eq (d.createTables s sensitive true)
      (d.awaiting.createTables s sensitive true) := by
    refine (sameRun_call .beginTransaction d.beginTransaction (fun _ => rfl)).bind (fun _ _ _ => ?_)
    refine (h.createTablesOf s sensitive s.roots).bind (fun _ _ _ => ?_)
    refine (sameRun_call .commit d.commit (fun _ => rfl)).bind (fun _ _ _ => ?_)
    refine sameRun_databaseName.bind (fun _ _ _ => ?_)
    exact (SameRun.log _ _).bind (fun _ _ _ => .pure rfl)
  cases created with
  | true => exact hmissing
  | false =>
    refine (sameRun_call .probeTables d.hasTables (fun _ => rfl)).bind ?_
    rintro present _ rfl
    cases present with
    | true => exact .pure rfl
    | false => exact hmissing

theorem create (retry : RetryConfig) :
    SameRun d.NeverCancelled Eq (d.create retry) (d.awaiting.create retry) :=
  h.createWith _ _ _

end AnswersAlike

theorem AnswersAlike.ensureCreated (h : d.AnswersAlike) (s : Schema) (options : StoreOptions) :
    SameRun d.NeverCancelled Eq (d.ensureCreated .plain s options)
      (d.ensureCreated .cancellable s options) := by
  -- in both modes what follows the creation is done directly, as with an embedded engine
  have hdirect := answersAlike_embedded d.toConnection
  have htables (created : Bool) : SameRun d.NeverCancelled Eq
      (d.createTables s options.sensitiveLogging created)
      (d.createTables s options.sensitiveLogging created) :=
    hdirect.createTables s options.sensitiveLogging created
  have hclose : SameRun d.NeverCancelled Eq d.close d.close :=
    sameRun_close (d := embedded d.toConnection)
  refine (h.create options.retry).bind ?_
  rintro created _ rfl
  refine (htables created).attempt_eq.bind ?_
  rintro outcome _ rfl
  exact hclose.bind (fun _ _ _ => .ofExcept _)

end Driver

end EntityStore
