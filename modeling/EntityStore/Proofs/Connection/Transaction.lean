import EntityStore.Connection.Transaction
import EntityStore.Proofs.Connection.Session
import EntityStore.Proofs.Traversal

/-!
# Saves as transactions

Which calls a save makes, whatever the connection answers: the answers decide how far it gets, and
every way through it is a case of `Saves`. The calls after a successful begin end in one commit or
one rollback, and a connection that the save has opened is closed last.
-/

namespace EntityStore.Connection

variable {σ : Type} (c : Connection σ)

def GivesUp (mode : Mode) (s : σ) : Prop := mode = .cancellable ∧ c.isCancelled s = true

def statement (command : Command) : Call := .execute command.sql.1 command.sql.2

def answer (command : Command) (s : σ) : Reply σ UInt64 := c.execute command.sql.1 command.sql.2 s

/-- Commands are executed in order up to the first that does not pass: the calls, the number of
affected rows or the failure, and the state of the connection before and after. -/
inductive Executes (mode : Mode) : List Command → σ → List Call → Except StoreError UInt64 → σ → Prop
  | done {s : σ} : Executes mode [] s [] (.ok 0) s
  | cancelled {command : Command} {rest : List Command} {s : σ} (h : c.GivesUp mode s) :
      Executes mode (command :: rest) s [] (.error .cancelled) s
  | failed {command : Command} {rest : List Command} {s : σ} {e : StoreError}
      (h : ¬c.GivesUp mode s) (hreply : (c.answer command s).result = .error e) :
      Executes mode (command :: rest) s [statement command] (.error e) (c.answer command s).state
  | conflict {command : Command} {rest : List Command} {s : σ} (h : ¬c.GivesUp mode s)
      (hneeds : command.needsRow = true) (hreply : (c.answer command s).result = .ok 0) :
      Executes mode (command :: rest) s [statement command]
        (.error (.concurrencyConflict command.state.name command.table 0)) (c.answer command s).state
  | passed {command : Command} {rest : List Command} {s s' : σ} {affected : UInt64} {calls : List Call}
      {outcome : Except StoreError UInt64} (h : ¬c.GivesUp mode s)
      (hreply : (c.answer command s).result = .ok affected)
      (hfound : command.needsRow = true → affected ≠ 0)
      (hrest : Executes mode rest (c.answer command s).state calls outcome s') :
      Executes mode (command :: rest) s (statement command :: calls) (outcome.map (affected + ·)) s'

/-- How a transaction ends once its commands have been executed with some outcome. -/
inductive Ends (mode : Mode) : Except StoreError UInt64 → σ → List Call → Except StoreError Nat → σ → Prop
  | committed {total : UInt64} {s : σ} (h : ¬c.GivesUp mode s) (hreply : (c.commit s).result = .ok ()) :
      Ends mode (.ok total) s [.commit] (.ok total.toNat) (c.commit s).state
  | refused {total : UInt64} {s : σ} {e : StoreError} (h : ¬c.GivesUp mode s)
      (hreply : (c.commit s).result = .error e) :
      Ends mode (.ok total) s [.commit, .rollback] (.error e) (c.rollback (c.commit s).state).state
  | cancelled {total : UInt64} {s : σ} (h : c.GivesUp mode s) :
      Ends mode (.ok total) s [.rollback] (.error .cancelled) (c.rollback s).state
  | failed {e : StoreError} {s : σ} : Ends mode (.error e) s [.rollback] (.error e) (c.rollback s).state

inductive Opens : σ → Bool → List Call → σ → Prop
  | already {s : σ} (h : c.isOpen s = true) : Opens s false [] s
  | opened {s : σ} (h : c.isOpen s = false) (hreply : (c.openLink s).result = .ok ()) :
      Opens s true [.openLink] (c.openLink s).state

/-- The last call, if the save has opened the connection. -/
def closing (opened : Bool) (s : σ) : List Call := if opened then [.closeLink (c.isOpen s)] else []

def closed (opened : Bool) (s : σ) : σ := if opened then (c.closeLink s).state else s

/-- A save of commands: its calls, its outcome, and the state of the connection before and after. -/
inductive Saves (mode : Mode) (commands : List Command) :
    σ → List Call → Except StoreError Nat → σ → Prop
  | cancelled {s : σ} (h : c.GivesUp mode s) : Saves mode commands s [] (.error .cancelled) s
  | unopened {s : σ} {e : StoreError} (h : ¬c.GivesUp mode s) (hclosed : c.isOpen s = false)
      (hreply : (c.openLink s).result = .error e) :
      Saves mode commands s [.openLink] (.error e) (c.openLink s).state
  | unbegun {s s₁ : σ} {opened : Bool} {opening : List Call} {e : StoreError}
      (h : ¬c.GivesUp mode s) (hopens : c.Opens s opened opening s₁)
      (hreply : (c.beginTransaction s₁).result = .error e) :
      Saves mode commands s
        (opening ++ .beginTransaction :: c.closing opened (c.beginTransaction s₁).state) (.error e)
        (c.closed opened (c.beginTransaction s₁).state)
  | begun {s s₁ s₂ s₃ : σ} {opened : Bool} {opening executed ending : List Call}
      {result : Except StoreError UInt64} {outcome : Except StoreError Nat} (h : ¬c.GivesUp mode s)
      (hopens : c.Opens s opened opening s₁) (hreply : (c.beginTransaction s₁).result = .ok ())
      (hexecutes : c.Executes mode commands (c.beginTransaction s₁).state executed result s₂)
      (hends : c.Ends mode result s₂ ending outcome s₃) :
      Saves mode commands s
        (opening ++ .beginTransaction :: (executed ++ ending ++ c.closing opened s₃)) outcome
        (c.closed opened s₃)

variable {c} {mode : Mode}

theorem Executes.append {first rest : List Command} {s s' s'' : σ} {calls calls' : List Call}
    {n : UInt64} {outcome : Except StoreError UInt64}
    (h : c.Executes mode first s calls (.ok n) s')
    (h' : c.Executes mode rest s' calls' outcome s'') :
    c.Executes mode (first ++ rest) s (calls ++ calls') (outcome.map (n + ·)) s'' := by
  generalize hresult : (.ok n : Except StoreError UInt64) = result at h
  induction h generalizing n with
  | done =>
    cases hresult
    cases outcome <;> simpa [Except.map] using h'
  | cancelled => cases hresult
  | failed => cases hresult
  | conflict => cases hresult
  | @passed command _ s _ affected calls result hgoes hreply hfound _ ih =>
    cases result with
    | error e => cases hresult
    | ok m =>
      cases hresult
      have hsum : outcome.map (affected + m + ·) = (outcome.map (m + ·)).map (affected + ·) := by
        cases outcome <;> simp [Except.map, UInt64.add_assoc]
      rw [hsum]
      exact .passed hgoes hreply hfound (ih h' rfl)

theorem Executes.append_error {first : List Command} {s s' : σ} {calls : List Call} {e : StoreError}
    (h : c.Executes mode first s calls (.error e) s') (rest : List Command) :
    c.Executes mode (first ++ rest) s calls (.error e) s' := by
  generalize hresult : (.error e : Except StoreError UInt64) = result at h
  induction h with
  | done => cases hresult
  | cancelled hgives =>
    cases hresult
    exact .cancelled hgives
  | failed hgoes hreply =>
    cases hresult
    exact .failed hgoes hreply
  | conflict hgoes hneeds hreply =>
    cases hresult
    exact .conflict hgoes hneeds hreply
  | @passed command _ s _ affected calls result hgoes hreply hfound _ ih =>
    cases result with
    | ok m => cases hresult
    | error e' =>
      cases hresult
      exact .passed hgoes hreply hfound (ih rfl)

theorem Executes.unique {commands : List Command} {s s' s'' : σ} {calls calls' : List Call}
    {outcome outcome' : Except StoreError UInt64} (h : c.Executes mode commands s calls outcome s')
    (h' : c.Executes mode commands s calls' outcome' s'') :
    calls = calls' ∧ outcome = outcome' ∧ s' = s'' := by
  induction h generalizing calls' outcome' s'' with
  | done =>
    cases h'
    exact ⟨rfl, rfl, rfl⟩
  | cancelled hgives =>
    cases h' with
    | cancelled => exact ⟨rfl, rfl, rfl⟩
    | failed hgoes => exact absurd hgives hgoes
    | conflict hgoes => exact absurd hgives hgoes
    | passed hgoes => exact absurd hgives hgoes
  | failed hgoes hreply =>
    cases h' with
    | cancelled hgives => exact absurd hgives hgoes
    | failed _ hreply' =>
      cases hreply.symm.trans hreply'
      exact ⟨rfl, rfl, rfl⟩
    | conflict _ _ hreply' => cases hreply.symm.trans hreply'
    | passed _ hreply' => cases hreply.symm.trans hreply'
  | conflict hgoes hneeds hreply =>
    cases h' with
    | cancelled hgives => exact absurd hgives hgoes
    | failed _ hreply' => cases hreply.symm.trans hreply'
    | conflict => exact ⟨rfl, rfl, rfl⟩
    | passed _ hreply' hfound =>
      cases hreply.symm.trans hreply'
      exact absurd rfl (hfound hneeds)
  | passed hgoes hreply hfound _ ih =>
    cases h' with
    | cancelled hgives => exact absurd hgives hgoes
    | failed _ hreply' => cases hreply.symm.trans hreply'
    | conflict _ hneeds hreply' =>
      cases hreply.symm.trans hreply'
      exact absurd rfl (hfound hneeds)
    | passed _ hreply' _ hrest =>
      cases hreply.symm.trans hreply'
      obtain ⟨rfl, rfl, rfl⟩ := ih hrest
      exact ⟨rfl, rfl, rfl⟩

theorem Ends.unique {result : Except StoreError UInt64} {outcome outcome' : Except StoreError Nat} {s s' s'' : σ}
    {calls calls' : List Call} (h : c.Ends mode result s calls outcome s')
    (h' : c.Ends mode result s calls' outcome' s'') :
    calls = calls' ∧ outcome = outcome' ∧ s' = s'' := by
  cases h with
  | committed hgoes hreply =>
    cases h' with
    | committed => exact ⟨rfl, rfl, rfl⟩
    | refused _ hreply' => cases hreply.symm.trans hreply'
    | cancelled hgives => exact absurd hgives hgoes
  | refused hgoes hreply =>
    cases h' with
    | committed _ hreply' => cases hreply.symm.trans hreply'
    | refused _ hreply' =>
      cases hreply.symm.trans hreply'
      exact ⟨rfl, rfl, rfl⟩
    | cancelled hgives => exact absurd hgives hgoes
  | cancelled hgives =>
    cases h' with
    | committed hgoes => exact absurd hgives hgoes
    | refused hgoes => exact absurd hgives hgoes
    | cancelled => exact ⟨rfl, rfl, rfl⟩
  | failed =>
    cases h'
    exact ⟨rfl, rfl, rfl⟩

theorem Opens.unique {s s' s'' : σ} {opened opened' : Bool} {calls calls' : List Call}
    (h : c.Opens s opened calls s') (h' : c.Opens s opened' calls' s'') :
    opened = opened' ∧ calls = calls' ∧ s' = s'' := by
  cases h with
  | already hopen =>
    cases h' with
    | already => exact ⟨rfl, rfl, rfl⟩
    | opened hclosed => cases hopen.symm.trans hclosed
  | opened hclosed =>
    cases h' with
    | already hopen => cases hopen.symm.trans hclosed
    | opened => exact ⟨rfl, rfl, rfl⟩

theorem Opens.not_error {s s' : σ} {opened : Bool} {calls : List Call} {e : StoreError}
    (h : c.Opens s opened calls s') (hclosed : c.isOpen s = false) :
    (c.openLink s).result ≠ .error e := by
  cases h with
  | already hopen => cases hopen.symm.trans hclosed
  | opened _ hreply =>
    intro herror
    cases hreply.symm.trans herror

theorem Saves.unique {commands : List Command} {s s' s'' : σ} {calls calls' : List Call}
    {outcome outcome' : Except StoreError Nat} (h : c.Saves mode commands s calls outcome s')
    (h' : c.Saves mode commands s calls' outcome' s'') :
    calls = calls' ∧ outcome = outcome' ∧ s' = s'' := by
  cases h with
  | cancelled hgives =>
    cases h' with
    | cancelled => exact ⟨rfl, rfl, rfl⟩
    | unopened hgoes => exact absurd hgives hgoes
    | unbegun hgoes => exact absurd hgives hgoes
    | begun hgoes => exact absurd hgives hgoes
  | unopened hgoes hclosed hreply =>
    cases h' with
    | cancelled hgives => exact absurd hgives hgoes
    | unopened _ _ hreply' =>
      cases hreply.symm.trans hreply'
      exact ⟨rfl, rfl, rfl⟩
    | unbegun _ hopens => exact absurd hreply (hopens.not_error hclosed)
    | begun _ hopens => exact absurd hreply (hopens.not_error hclosed)
  | unbegun hgoes hopens hreply =>
    cases h' with
    | cancelled hgives => exact absurd hgives hgoes
    | unopened _ hclosed hreply' => exact absurd hreply' (hopens.not_error hclosed)
    | unbegun _ hopens' hreply' =>
      obtain ⟨rfl, rfl, rfl⟩ := hopens.unique hopens'
      cases hreply.symm.trans hreply'
      exact ⟨rfl, rfl, rfl⟩
    | begun _ hopens' hreply' =>
      obtain ⟨rfl, rfl, rfl⟩ := hopens.unique hopens'
      cases hreply.symm.trans hreply'
  | begun hgoes hopens hreply hexecutes hends =>
    cases h' with
    | cancelled hgives => exact absurd hgives hgoes
    | unopened _ hclosed hreply' => exact absurd hreply' (hopens.not_error hclosed)
    | unbegun _ hopens' hreply' =>
      obtain ⟨rfl, rfl, rfl⟩ := hopens.unique hopens'
      cases hreply.symm.trans hreply'
    | begun _ hopens' _ hexecutes' hends' =>
      obtain ⟨rfl, rfl, rfl⟩ := hopens.unique hopens'
      obtain ⟨rfl, rfl, rfl⟩ := hexecutes.unique hexecutes'
      obtain ⟨rfl, rfl, rfl⟩ := hends.unique hends'
      exact ⟨rfl, rfl, rfl⟩

theorem run_checkCancelled (c : Connection σ) (mode : Mode) (session : Session σ) :
    (c.GivesUp mode session.state ∧ c.checkCancelled mode session = (.error .cancelled, session)) ∨
      (¬c.GivesUp mode session.state ∧ c.checkCancelled mode session = (.ok (), session)) := by
  by_cases h : c.GivesUp mode session.state
  · refine Or.inl ⟨h, ?_⟩
    rw [checkCancelled, Run.run_bind, Run.run_state]
    simp [show mode = .cancellable ∧ c.isCancelled session.state = true from h]
  · refine Or.inr ⟨h, ?_⟩
    rw [checkCancelled, Run.run_bind, Run.run_state]
    simp only [if_neg (show ¬(mode = .cancellable ∧ c.isCancelled session.state = true) from h)]
    rfl

theorem run_runCommand (c : Connection σ) (mode : Mode) (sensitive : Bool) (command : Command)
    (session : Session σ) :
    (c.GivesUp mode session.state ∧
        c.runCommand mode sensitive command session = (.error .cancelled, session)) ∨
      (¬c.GivesUp mode session.state ∧ ∃ session' : Session σ,
        session'.state = (c.answer command session.state).state ∧
        session'.trace = session.trace ++ [statement command] ∧
        c.runCommand mode sensitive command session =
          ((c.answer command session.state).result >>= checkAffected command, session')) := by
  rcases c.run_checkCancelled mode session with ⟨hgives, hcheck⟩ | ⟨hgoes, hcheck⟩
  · refine Or.inl ⟨hgives, ?_⟩
    rw [runCommand, Run.run_bind, hcheck]
  · refine Or.inr ⟨hgoes, (c.run sensitive command.sql.1 command.sql.2 session).2, ?_⟩
    rw [runCommand, Run.run_bind, hcheck]
    simp only [run, Run.run_bind, run_databaseName, Run.run_log, Run.run_call, Run.run_ofExcept]
    refine ⟨rfl, rfl, ?_⟩
    rw [answer]
    cases (c.execute command.sql.1 command.sql.2 session.state).result <;> rfl

theorem checkAffected_eq_ok {command : Command} {affected n : UInt64}
    (h : checkAffected command affected = .ok n) :
    n = affected ∧ (command.needsRow = true → affected ≠ 0) := by
  unfold checkAffected at h
  split at h
  · cases h
  · rename_i hfound
    cases h
    exact ⟨rfl, fun hneeds hzero => hfound (by simp [hneeds, hzero])⟩

theorem checkAffected_eq_error {command : Command} {affected : UInt64} {e : StoreError}
    (h : checkAffected command affected = .error e) :
    command.needsRow = true ∧ affected = 0 ∧
      e = .concurrencyConflict command.state.name command.table 0 := by
  unfold checkAffected at h
  split at h
  · rename_i hmissing
    cases h
    obtain ⟨hneeds, hzero⟩ := Bool.and_eq_true_iff.mp hmissing
    obtain rfl := beq_iff_eq.mp hzero
    exact ⟨hneeds, rfl, rfl⟩
  · cases h

theorem run_runCommands (c : Connection σ) (mode : Mode) (sensitive : Bool) (commands : List Command)
    (total : UInt64) (session : Session σ) :
    ∃ calls result session', c.Executes mode commands session.state calls result session'.state ∧
      session'.trace = session.trace ++ calls ∧
      c.runCommands mode sensitive total commands session = (result.map (total + ·), session') := by
  induction commands generalizing total session with
  | nil =>
    refine ⟨[], .ok 0, session, .done, (List.append_nil _).symm, ?_⟩
    rw [Except.map, UInt64.add_zero]
    rfl
  | cons command rest ih =>
    rw [runCommands, Run.run_bind]
    rcases c.run_runCommand mode sensitive command session with
      ⟨hgives, hrun⟩ | ⟨hgoes, session', hstate, htrace, hrun⟩
    · rw [hrun]
      exact ⟨[], .error .cancelled, session, .cancelled hgives, (List.append_nil _).symm, rfl⟩
    rw [hrun]
    cases hreply : (c.answer command session.state).result with
    | error e =>
      exact ⟨_, .error e, session', hstate ▸ .failed hgoes hreply, htrace, rfl⟩
    | ok affected =>
      rw [Traversal.ok_bind]
      cases hcheck : checkAffected command affected with
      | error e =>
        obtain ⟨hneeds, rfl, rfl⟩ := checkAffected_eq_error hcheck
        exact ⟨_, .error (.concurrencyConflict command.state.name command.table 0), session',
          hstate ▸ .conflict hgoes hneeds hreply, htrace, rfl⟩
      | ok n =>
        obtain ⟨rfl, hfound⟩ := checkAffected_eq_ok hcheck
        obtain ⟨calls, result, session'', hexecutes, htrace', hrest⟩ := ih (total + n) session'
        refine ⟨_, _, session'', .passed hgoes hreply hfound (hstate ▸ hexecutes), ?_, ?_⟩
        · rw [htrace', htrace, List.append_assoc]
          rfl
        · change c.runCommands mode sensitive (total + n) rest session' = _
          rw [hrest]
          cases result <;> simp [Except.map, UInt64.add_assoc]

theorem run_runBatches (c : Connection σ) (mode : Mode) (sensitive : Bool) (batches : List Batch)
    (index : Nat) (total : UInt64) (session : Session σ) :
    ∃ calls result session', c.Executes mode batches.flatten session.state calls result session'.state ∧
      session'.trace = session.trace ++ calls ∧
      c.runBatches mode sensitive index total batches session = (result.map (total + ·), session') := by
  induction batches generalizing index total session with
  | nil =>
    refine ⟨[], .ok 0, session, .done, (List.append_nil _).symm, ?_⟩
    rw [Except.map, UInt64.add_zero]
    rfl
  | cons batch rest ih =>
    rw [runBatches, Run.run_bind, Run.run_log]
    simp only
    rw [Run.run_bind]
    obtain ⟨calls, result, session', hexecutes, htrace, hrun⟩ := c.run_runCommands mode sensitive batch
      total { session with events := session.events ++ [batchEvent index batch] }
    rw [hrun, List.flatten_cons]
    cases result with
    | error e => exact ⟨calls, .error e, session', hexecutes.append_error _, htrace, rfl⟩
    | ok n =>
      obtain ⟨calls', result', session'', hexecutes', htrace', hrest⟩ := ih (index + 1) (total + n) session'
      refine ⟨_, _, session'', hexecutes.append hexecutes', ?_, ?_⟩
      · rw [htrace', htrace, List.append_assoc]
      · change c.runBatches mode sensitive (index + 1) (total + n) rest session' = _
        rw [hrest]
        cases result' <;> simp [Except.map, UInt64.add_assoc]

theorem run_abandon (c : Connection σ) (session : Session σ) :
    ∃ session', session'.state = (c.rollback session.state).state ∧
      session'.trace = session.trace ++ [.rollback] ∧ c.abandon session = (.ok (), session') := by
  rw [abandon, Run.run_bind, Run.run_attempt, Run.run_call]
  cases (c.rollback session.state).result with
  | ok => exact ⟨_, rfl, rfl, rfl⟩
  | error e =>
    simp only [Run.run_bind, run_databaseName, Run.run_log]
    exact ⟨_, rfl, rfl, rfl⟩

theorem run_closeIf (c : Connection σ) (opened : Bool) (session : Session σ) :
    ∃ session', session'.state = c.closed opened session.state ∧
      session'.trace = session.trace ++ c.closing opened session.state ∧
      c.closeIf opened session = (.ok (), session') := by
  cases opened with
  | false => exact ⟨session, rfl, (List.append_nil _).symm, rfl⟩
  | true => exact ⟨_, rfl, rfl, c.run_close session⟩

/-- Up to the end of the transaction: it is committed, or there is a failure and the rollback that
follows will end it. -/
theorem run_transactionBody (c : Connection σ) (mode : Mode) (sensitive : Bool) (batches : List Batch)
    (session : Session σ) :
    ∃ executed result s, c.Executes mode batches.flatten session.state executed result s ∧
      ((∃ total session', c.transactionBody mode sensitive batches session = (.ok total, session') ∧
          session'.trace = session.trace ++ (executed ++ [.commit]) ∧
          c.Ends mode result s [.commit] (.ok total) session'.state) ∨
        ∃ e tried session', c.transactionBody mode sensitive batches session = (.error e, session') ∧
          session'.trace = session.trace ++ (executed ++ tried) ∧
          c.Ends mode result s (tried ++ [.rollback]) (.error e) (c.rollback session'.state).state) := by
  obtain ⟨executed, result, session₁, hexecutes, htrace, hrun⟩ :=
    c.run_runBatches mode sensitive batches 0 0 session
  refine ⟨executed, result, session₁.state, hexecutes, ?_⟩
  rw [transactionBody, Run.run_bind, hrun]
  cases result with
  | error e =>
    exact Or.inr ⟨e, [], session₁, rfl, by rw [htrace, List.append_nil], .failed⟩
  | ok total =>
    have htotal : Except.map (0 + ·) (.ok total) = (.ok total : Except StoreError UInt64) := by
      simp [Except.map]
    rw [htotal]
    simp only [Run.run_bind]
    rcases c.run_checkCancelled mode session₁ with ⟨hgives, hcheck⟩ | ⟨hgoes, hcheck⟩
    · rw [hcheck]
      exact Or.inr ⟨.cancelled, [], session₁, rfl, by rw [htrace, List.append_nil], .cancelled hgives⟩
    · rw [hcheck]
      simp only [Run.run_call]
      cases hreply : (c.commit session₁.state).result with
      | ok =>
        refine Or.inl ⟨total.toNat, _, rfl, ?_, .committed hgoes hreply⟩
        rw [htrace, List.append_assoc]
      | error e =>
        refine Or.inr ⟨e, [.commit], _, rfl, ?_, .refused hgoes hreply⟩
        rw [htrace, List.append_assoc]

theorem run_transact (c : Connection σ) {mode : Mode} (sensitive : Bool) (batches : List Batch)
    {s : σ} (hgoes : ¬c.GivesUp mode s) {opened : Bool} {opening : List Call} {session : Session σ}
    (hopens : c.Opens s opened opening session.state) :
    ∃ calls outcome session', c.Saves mode batches.flatten s (opening ++ calls) outcome session'.state ∧
      session'.trace = session.trace ++ calls ∧
      c.transact mode sensitive batches opened session = (outcome, session') := by
  rw [transact, Run.run_bind, Run.run_attempt, startTransaction, Run.run_call]
  cases hreply : (c.beginTransaction session.state).result with
  | error e =>
    simp only [Run.run_bind]
    generalize hbegun : Session.mk _ _ _ = begun
    obtain ⟨session', hstate, htrace, hclose⟩ := c.run_closeIf opened begun
    rw [hclose]
    subst hbegun
    refine ⟨.beginTransaction :: c.closing opened (c.beginTransaction session.state).state, .error e,
      session', ?_, ?_, rfl⟩
    · rw [hstate]
      exact .unbegun hgoes hopens hreply
    · rw [htrace, List.append_assoc]
      rfl
  | ok =>
    simp only [Run.run_bind, Run.run_attempt]
    generalize hbegun : Session.mk _ _ _ = begun
    obtain ⟨executed, result, s₂, hexecutes, ⟨total, session₁, hbody, htrace, hends⟩ |
      ⟨e, tried, session₁, hbody, htrace, hends⟩⟩ := c.run_transactionBody mode sensitive batches begun
    · obtain ⟨session', hstate, htrace', hclose⟩ := c.run_closeIf opened session₁
      rw [hbody]
      simp only [Run.run_bind, hclose]
      subst hbegun
      refine ⟨.beginTransaction :: (executed ++ [.commit] ++ c.closing opened session₁.state), .ok total,
        session', ?_, ?_, rfl⟩
      · rw [hstate]
        exact .begun hgoes hopens hreply hexecutes hends
      · rw [htrace', htrace]
        simp only [List.append_assoc, List.cons_append, List.nil_append]
    · obtain ⟨session₂, hstate₂, htrace₂, habandon⟩ := c.run_abandon session₁
      obtain ⟨session', hstate, htrace', hclose⟩ := c.run_closeIf opened session₂
      rw [hbody]
      simp only [Run.run_bind, habandon, hclose]
      subst hbegun
      rw [← hstate₂] at hends
      refine ⟨.beginTransaction :: (executed ++ (tried ++ [.rollback]) ++ c.closing opened session₂.state),
        .error e, session', ?_, ?_, rfl⟩
      · rw [hstate]
        exact .begun hgoes hopens hreply hexecutes hends
      · rw [htrace', htrace₂, htrace]
        simp only [List.append_assoc, List.cons_append, List.nil_append]

theorem run_save (c : Connection σ) (mode : Mode) (sensitive : Bool) (batches : List Batch)
    (session : Session σ) :
    ∃ calls outcome session', c.Saves mode batches.flatten session.state calls outcome session'.state ∧
      session'.trace = session.trace ++ calls ∧
      c.save mode sensitive batches session = (outcome, session') := by
  rw [save, Run.run_bind]
  rcases c.run_checkCancelled mode session with ⟨hgives, hcheck⟩ | ⟨hgoes, hcheck⟩
  · rw [hcheck]
    exact ⟨[], _, session, .cancelled hgives, (List.append_nil _).symm, rfl⟩
  rw [hcheck]
  simp only [Run.run_bind, run_openNow]
  cases hopen : c.isOpen session.state with
  | true => exact c.run_transact sensitive batches hgoes (.already hopen)
  | false =>
    simp only [Bool.not_false, if_true, Run.run_bind, start, Run.run_call]
    cases hreply : (c.openLink session.state).result with
    | error e => exact ⟨_, .error e, _, .unopened hgoes hopen hreply, rfl, rfl⟩
    | ok =>
      simp only
      generalize hstarted : Session.mk _ _ _ = started
      have hopens : c.Opens session.state true [.openLink] started.state := by
        rw [← hstarted]
        exact .opened hopen hreply
      obtain ⟨calls, outcome, session', hsaves, htrace, hrun⟩ :=
        c.run_transact sensitive batches hgoes hopens
      refine ⟨.openLink :: calls, outcome, session', hsaves, ?_, hrun⟩
      rw [htrace, ← hstarted, List.append_assoc]
      rfl

/-- A save that does not look at cancellation makes the calls of a transaction, no others, and gives
its outcome, for every behaviour of the connection. -/
theorem save_plain_iff (c : Connection σ) (sensitive : Bool) (batches : List Batch)
    (session : Session σ) (calls : List Call) (outcome : Except StoreError Nat) (s : σ) :
    c.Saves .plain batches.flatten session.state calls outcome s ↔
      ∃ session' : Session σ, c.save .plain sensitive batches session = (outcome, session') ∧
        session'.trace = session.trace ++ calls ∧ session'.state = s := by
  obtain ⟨calls', outcome', session', hsaves, htrace, hrun⟩ := c.run_save .plain sensitive batches session
  constructor
  · intro h
    obtain ⟨rfl, rfl, rfl⟩ := hsaves.unique h
    exact ⟨session', hrun, htrace, rfl⟩
  · rintro ⟨session'', hrun', htrace', rfl⟩
    cases hrun.symm.trans hrun'
    rw [htrace, List.append_cancel_left_eq] at htrace'
    rw [← htrace']
    exact hsaves

end EntityStore.Connection
