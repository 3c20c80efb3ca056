import EntityStore.Proofs.Connection.Release
import EntityStore.Proofs.Schema.Definition
import EntityStore.Relational.Driver

/-!
# Tables in one transaction

The tables of an accepted schema are created in one transaction, a statement for each root. It is
committed once all statements have passed, and rolled back at the first that fails. A transaction that
cannot be committed is left to the close of the connection, and a rollback that fails hides why it was
made.
-/

namespace EntityStore.Connection

open Run

variable {σ : Type} (c : Connection σ)

def creations (statements : List String) : List Call := statements.map (fun sql => .execute sql [])

def Passes (s : σ) : List String → Prop
  | [] => True
  | sql :: rest =>
    (∃ affected, (c.execute sql [] s).result = .ok affected) ∧ Passes (c.execute sql [] s).state rest

structure FailsAt (statements : List String) (s : σ) (before : List String) (sql : String)
    (e : StoreError) : Prop where
  split : ∃ after, statements = before ++ sql :: after
  passes : c.Passes s before
  fails : (c.execute sql [] (c.final s (creations before))).result = .error e

def reported (e : StoreError) : Except StoreError Unit → StoreError
  | .ok () => e
  | .error e' => e'

/-- A transaction from its begin on: its calls and its outcome. -/
inductive Transacts (statements : List String) (s : σ) : List Call → Except StoreError Bool → Prop
  | committed (h : c.Passes s statements)
      (hreply : (c.commit (c.final s (creations statements))).result = .ok ()) :
      Transacts statements s (creations statements ++ [.commit]) (.ok true)
  | refused {e : StoreError} (h : c.Passes s statements)
      (hreply : (c.commit (c.final s (creations statements))).result = .error e) :
      Transacts statements s (creations statements ++ [.commit]) (.error e)
  | failed {before : List String} {sql : String} {e : StoreError} (h : c.FailsAt statements s before sql e) :
      Transacts statements s (creations (before ++ [sql]) ++ [.rollback])
        (.error (reported e (c.rollback (c.final s (creations (before ++ [sql])))).result))

/-- A database that has just been created is not asked for tables. -/
inductive LacksTables (s : σ) : Bool → List Call → Prop
  | created : LacksTables s true []
  | probed (hreply : (c.hasTables s).result = .ok false) : LacksTables s false [.probeTables]

/-- The creation of tables on an open connection: its calls and its outcome. -/
inductive CreatesTables (statements : List String) (s : σ) :
    Bool → List Call → Except StoreError Bool → Prop
  | unprobed {e : StoreError} (hreply : (c.hasTables s).result = .error e) :
      CreatesTables statements s false [.probeTables] (.error e)
  | present (hreply : (c.hasTables s).result = .ok true) :
      CreatesTables statements s false [.probeTables] (.ok false)
  | unbegun {created : Bool} {probing : List Call} {e : StoreError} (h : c.LacksTables s created probing)
      (hreply : (c.beginTransaction (c.final s probing)).result = .error e) :
      CreatesTables statements s created (probing ++ [.beginTransaction]) (.error e)
  | begun {created : Bool} {probing calls : List Call} {outcome : Except StoreError Bool}
      (h : c.LacksTables s created probing)
      (hreply : (c.beginTransaction (c.final s probing)).result = .ok ())
      (htransacts : c.Transacts statements (c.final s (probing ++ [.beginTransaction])) calls outcome) :
      CreatesTables statements s created (probing ++ .beginTransaction :: calls) outcome

variable {c}

theorem FailsAt.cons {sql : String} {rest : List String} {s : σ} {before : List String} {sql' : String}
    {e : StoreError} {affected : UInt64} (hreply : (c.execute sql [] s).result = .ok affected)
    (h : c.FailsAt rest (c.execute sql [] s).state before sql' e) :
    c.FailsAt (sql :: rest) s (sql :: before) sql' e where
  split := by
    obtain ⟨after, heq⟩ := h.split
    exact ⟨after, congrArg (sql :: ·) heq⟩
  passes := ⟨⟨affected, hreply⟩, h.passes⟩
  fails := h.fails

theorem CreatesTables.commits {statements : List String} {s : σ} {created : Bool} {calls : List Call}
    (h : c.CreatesTables statements s created calls (.ok true)) : c.Commits (c.history s calls) := by
  cases h with
  | begun _ _ htransacts =>
    cases htransacts with
    | committed _ hreply =>
      refine ⟨_, ?_, hreply⟩
      simp [after]

theorem run_run (c : Connection σ) (sensitive : Bool) (sql : String) (session : Session σ) :
    ∃ session' : Session σ, c.run sensitive sql [] session = ((c.execute sql [] session.state).result, session') ∧
      session'.state = (c.execute sql [] session.state).state ∧
      session'.trace = session.trace ++ creations [sql] := by
  simp only [run, Run.run_bind, run_databaseName, Run.run_log, Run.run_call]
  exact ⟨_, rfl, rfl, rfl⟩

theorem run_createTablesOf (c : Connection σ) {s : Schema} (sensitive : Bool) {roots : List EntityType}
    {statements : List String}
    (h : List.Forall₂ (fun root sql => s.createTable root.id = .ok sql) roots statements)
    (session : Session σ) :
    (∃ session' : Session σ, c.createTablesOf s sensitive roots session = (.ok (), session') ∧
      c.Passes session.state statements ∧ session'.state = c.final session.state (creations statements) ∧
      session'.trace = session.trace ++ creations statements) ∨
    ∃ before sql e, c.FailsAt statements session.state before sql e ∧ ∃ session' : Session σ,
      c.createTablesOf s sensitive roots session = (.error (reported e
        (c.rollback (c.final session.state (creations (before ++ [sql])))).result), session') ∧
      session'.state = c.final session.state (creations (before ++ [sql]) ++ [.rollback]) ∧
      session'.trace = session.trace ++ (creations (before ++ [sql]) ++ [.rollback]) := by
  -- along the statements: each is executed in the state that the ones before it leave
  induction h generalizing session with
  | nil => exact .inl ⟨session, rfl, trivial, rfl, (List.append_nil _).symm⟩
  | @cons root sql roots statements hsql _ ih =>
    obtain ⟨session₁, hrun, hstate, htrace⟩ := c.run_run sensitive sql session
    rw [createTablesOf, hsql]
    simp only [Run.run_bind, Run.run_attempt, hrun]
    cases hreply : (c.execute sql [] session.state).result with
    | error e =>
      refine .inr ⟨[], sql, e, ⟨⟨statements, rfl⟩, trivial, hreply⟩, ?_⟩
      simp only [Run.run_bind, Run.run_call, hstate, htrace]
      change ∃ session', _ = (Except.error (reported e
        (c.rollback (c.execute sql [] session.state).state).result), session') ∧ _
      cases (c.rollback (c.execute sql [] session.state).state).result with
      | ok => exact ⟨_, rfl, rfl, List.append_assoc _ _ _⟩
      | error e' => exact ⟨_, rfl, rfl, List.append_assoc _ _ _⟩
    | ok affected =>
      simp only
      rcases ih session₁ with ⟨session', hrest, hpasses, hstate', htrace'⟩ |
        ⟨before, sql', e, hfails, session', hrest, hstate', htrace'⟩
      · rw [hrest]
        rw [hstate] at hpasses hstate'
        refine .inl ⟨session', rfl, ⟨⟨affected, hreply⟩, hpasses⟩, hstate', ?_⟩
        rw [htrace', htrace, List.append_assoc]
        rfl
      · rw [hrest]
        rw [hstate] at hfails hstate' ⊢
        refine .inr ⟨sql :: before, sql', e, hfails.cons hreply, session', rfl, hstate', ?_⟩
        rw [htrace', htrace, List.append_assoc]
        rfl

def inTransaction (c : Connection σ) (s : Schema) (sensitive : Bool) : Run σ Bool := do
  c.createTablesOf s sensitive s.roots
  Run.call .commit c.commit
  let database ← c.databaseName
  Run.log [.info "created tables" [("database", database)]]
  return true

theorem createTables_true (c : Connection σ) (s : Schema) (sensitive : Bool) :
    c.createTables s sensitive true = (do c.startTransaction; c.inTransaction s sensitive) := rfl

theorem run_inTransaction (c : Connection σ) {s : Schema} (sensitive : Bool) {statements : List String}
    (h : List.Forall₂ (fun root sql => s.createTable root.id = .ok sql) s.roots statements)
    (session : Session σ) :
    ∃ calls outcome session', c.inTransaction s sensitive session = (outcome, session') ∧
      c.Transacts statements session.state calls outcome ∧
      session'.state = c.final session.state calls ∧ session'.trace = session.trace ++ calls := by
  rw [inTransaction, Run.run_bind]
  rcases c.run_createTablesOf sensitive h session with
    ⟨created, hrun, hpasses, hstate, htrace⟩ | ⟨before, sql, e, hfails, rolledBack, hrun, hstate, htrace⟩
  · have hfinal : (c.commit created.state).state = c.final session.state (creations statements ++ [.commit]) := by
      rw [hstate, final_append]
      rfl
    have hcalls : created.trace ++ [.commit] = session.trace ++ (creations statements ++ [.commit]) := by
      rw [htrace, List.append_assoc]
    rw [hrun]
    simp only [Run.run_bind, Run.run_call]
    cases hcommit : (c.commit created.state).result with
    | ok =>
      simp only [run_databaseName, Run.run_log]
      exact ⟨_, _, _, rfl, .committed hpasses (hstate ▸ hcommit), hfinal, hcalls⟩
    | error e => exact ⟨_, _, _, rfl, .refused hpasses (hstate ▸ hcommit), hfinal, hcalls⟩
  · rw [hrun]
    exact ⟨_, _, rolledBack, rfl, .failed hfails, hstate, htrace⟩

theorem LacksTables.run_createTables {s : Schema} {sensitive created : Bool} {statements : List String}
    (h : List.Forall₂ (fun root sql => s.createTable root.id = .ok sql) s.roots statements)
    {session probed : Session σ} {probing : List Call}
    (hlacks : c.LacksTables session.state created probing)
    (hstate : probed.state = c.final session.state probing)
    (htrace : probed.trace = session.trace ++ probing) :
    ∃ calls outcome session', c.createTables s sensitive true probed = (outcome, session') ∧
      c.CreatesTables statements session.state created calls outcome ∧
      session'.state = c.final session.state calls ∧ session'.trace = session.trace ++ calls := by
  have hfinal : (c.beginTransaction (c.final session.state probing)).state =
      c.final session.state (probing ++ [.beginTransaction]) := by
    rw [final_append]
    rfl
  rw [createTables_true, Run.run_bind, startTransaction, Run.run_call, hstate, htrace, hfinal,
    List.append_assoc]
  cases hreply : (c.beginTransaction (c.final session.state probing)).result with
  | error e => exact ⟨probing ++ [.beginTransaction], .error e, _, rfl, .unbegun hlacks hreply, rfl, rfl⟩
  | ok =>
    obtain ⟨calls, outcome, session', hrun, htransacts, hstate', htrace'⟩ :=
      c.run_inTransaction sensitive h
        { state := c.final session.state (probing ++ [.beginTransaction])
          trace := session.trace ++ (probing ++ [.beginTransaction])
          events := probed.events ++ (c.beginTransaction (c.final session.state probing)).events }
    refine ⟨probing ++ .beginTransaction :: calls, outcome, session', hrun, .begun hlacks hreply htransacts,
      ?_, ?_⟩
    · rw [hstate', ← final_append, List.append_assoc]
      rfl
    · rw [htrace', List.append_assoc, List.append_assoc]
      rfl

theorem run_createTables (c : Connection σ) {s : Schema} (sensitive created : Bool)
    {statements : List String}
    (h : List.Forall₂ (fun root sql => s.createTable root.id = .ok sql) s.roots statements)
    (session : Session σ) :
    ∃ calls outcome session', c.createTables s sensitive created session = (outcome, session') ∧
      c.CreatesTables statements session.state created calls outcome ∧
      session'.state = c.final session.state calls ∧ session'.trace = session.trace ++ calls := by
  cases created with
  | true => exact LacksTables.created.run_createTables h rfl (List.append_nil _).symm
  | false =>
    have hprobe : c.createTables s sensitive false = (do
        if ← Run.call .probeTables c.hasTables then return false
        c.createTables s sensitive true) := by
      simp only [createTables, Bool.false_eq_true, if_false, if_true, pure_bind]
    rw [hprobe, Run.run_bind, Run.run_call]
    cases hreply : (c.hasTables session.state).result with
    | error e => exact ⟨[.probeTables], .error e, _, rfl, .unprobed hreply, rfl, rfl⟩
    | ok present =>
      cases present with
      | true => exact ⟨[.probeTables], .ok false, _, rfl, .present hreply, rfl, rfl⟩
      | false => exact (LacksTables.probed hreply).run_createTables h rfl rfl

end EntityStore.Connection

namespace EntityStore.Driver

open Connection Traversal

variable {σ : Type}

/-- Tables are created in one transaction. It has a statement for each root, in order, and ends with a
commit or with the rollback after the first statement that fails. -/
theorem createsTables_ensureCreated {d : SchemaDef} {s : Schema} (hd : Schema.ofDef d = .ok s)
    (driver : Driver σ) (mode : Mode) (options : StoreOptions) (session : Session σ) :
    ∃ statements created session₁ outcome session',
      List.Forall₂ (fun root sql => s.createTable root.id = .ok sql) s.roots statements ∧
      (driver.forMode mode).create options.retry session = (created, session₁) ∧
      (∃ calls, session₁.trace = session.trace ++ calls ∧ .beginTransaction ∉ calls) ∧
      driver.ensureCreated mode s options session = (outcome, session') ∧
      ((∃ e, created = .error e ∧ outcome = .error e ∧ session' = session₁) ∨
        ∃ new calls wasOpen, created = .ok new ∧
          driver.CreatesTables statements session₁.state new calls outcome ∧
          session'.trace = session₁.trace ++ (calls ++ [.closeLink wasOpen]) ∧
          session'.state = driver.final session₁.state (calls ++ [.closeLink wasOpen]) ∧
          (outcome = .ok true → driver.Commits (driver.history session₁.state calls))) := by
  obtain ⟨statements, hstatements⟩ := exists_mapM (f := fun r : EntityType => s.createTable r.id)
    (fun r hr => Schema.exists_createTable hd hr)
  rw [mapM_eq_ok_iff] at hstatements
  obtain ⟨calls, htrace, hcalls⟩ := (makes_createWith (c := driver.forMode mode)
    options.retry.attemptLimit (.start options.retry) false session).calls
  rw [← create] at htrace
  have hbegin : .beginTransaction ∉ calls := fun hmem => (hcalls _ hmem).2 rfl
  rw [Driver.ensureCreated, Run.run_bind]
  cases hcreate : (driver.forMode mode).create options.retry session with
  | mk created session₁ =>
  rw [hcreate] at htrace
  cases created with
  | error e =>
    exact ⟨statements, _, session₁, .error e, session₁, hstatements, rfl, ⟨calls, htrace, hbegin⟩, rfl,
      .inl ⟨e, rfl, rfl, rfl⟩⟩
  | ok new =>
    obtain ⟨calls', outcome, session₂, hrun, hcreates, hstate₂, htrace₂⟩ :=
      driver.run_createTables options.sensitiveLogging new hstatements session₁
    simp only [Run.run_bind, Run.run_attempt, hrun, run_close, Run.run_ofExcept]
    refine ⟨statements, _, session₁, outcome, _, hstatements, rfl, ⟨calls, htrace, hbegin⟩, rfl,
      .inr ⟨new, calls', driver.isOpen session₂.state, rfl, hcreates, ?_, ?_, ?_⟩⟩
    · rw [htrace₂, List.append_assoc]
    · rw [hstate₂, final_append]
      rfl
    · rintro rfl
      exact hcreates.commits

/-- The second table cannot be created. -/
theorem createsTables_ensureCreated_blogs :
    let driver := Driver.embedded Scripted.connection
    let e := StoreError.connection "blogs.db" .other "disk full"
    let session := Session.ofState
      (⟨"blogs.db", { Script.empty with execute := [.ok 0, .error e] }, false, false, none⟩ : Scripted)
    Schema.ofDef Schema.blogDef = .ok Schema.blogs ∧
      ∃ (statements : List String) (start : Scripted) (new : Bool) (calls : List Call)
        (session' : Session Scripted),
        driver.ensureCreated .plain Schema.blogs .standard session = (.error e, session') ∧
        driver.CreatesTables statements start new calls (.error e) ∧
        session'.trace.map Call.tag =
          ["exists", "open", "has_tables", "begin", "execute", "execute", "rollback", "close"] := by
  intro driver e session
  have houtcome : (driver.ensureCreated .plain Schema.blogs .standard session).1 = .error e := by
    decide +kernel
  have htags : (driver.ensureCreated .plain Schema.blogs .standard session).2.trace.map Call.tag =
      ["exists", "open", "has_tables", "begin", "execute", "execute", "rollback", "close"] := by
    decide +kernel
  have hcreate : ((driver.forMode .plain).create StoreOptions.standard.retry session).1 = .ok false := by
    decide +kernel
  obtain ⟨statements, created, session₁, outcome, session', -, hcreated, -, hrun, hends⟩ :=
    createsTables_ensureCreated Schema.ofDef_blogDef driver .plain .standard session
  rw [hrun] at houtcome htags
  rw [hcreated] at hcreate
  obtain rfl : outcome = .error e := houtcome
  obtain rfl : created = .ok false := hcreate
  obtain ⟨_, hfailed, -⟩ | ⟨new, calls, _, -, hcreates, -⟩ := hends
  · cases hfailed
  · exact ⟨Schema.ofDef_blogDef, statements, session₁.state, new, calls, session', hrun, hcreates, htags⟩

/-- A failing rollback hides the failure of the statement, and a failing commit is not rolled back. -/
theorem hidden_failure_blogs :
    let driver := Driver.embedded Scripted.connection
    let full := StoreError.connection "blogs.db" .other "disk full"
    let broken := StoreError.connection "blogs.db" .other "broken pipe"
    let ensured (script : Script) := driver.ensureCreated .plain Schema.blogs .standard
      (.ofState (⟨"blogs.db", script, false, false, none⟩ : Scripted))
    let unexecuted := ensured { Script.empty with execute := [.error full], rollback := [.error broken] }
    let uncommitted := ensured { Script.empty with commit := [.error full] }
    unexecuted.1 = .error broken ∧ broken ≠ full ∧
      unexecuted.2.trace.map Call.tag =
        ["exists", "open", "has_tables", "begin", "execute", "rollback", "close"] ∧
      uncommitted.1 = .error full ∧
      uncommitted.2.trace.map Call.tag =
        ["exists", "open", "has_tables", "begin", "execute", "execute", "commit", "close"] := by
  decide +kernel

end EntityStore.Driver
