import EntityStore.Connection.Creation
import EntityStore.Proofs.Connection.History

/-!
# Creation by repeated probes

A probe asks for the database, creates it if it is missing, and opens a connection. Probes that fail
for a passing reason are repeated up to the limit of the policy, each time after a close and a wait;
the first other outcome ends the creation.
-/

namespace EntityStore.RetryState

variable {α : Type}

theorem attempts_next (s : RetryState) (outcome : Except StoreError α) :
    (s.next outcome).2.1.attempts = s.attempts := by
  unfold next
  split
  · rfl
  · split
    · rfl
    · split <;> rfl

theorem config_next (s : RetryState) (outcome : Except StoreError α) :
    (s.next outcome).2.1.config = s.config := by
  unfold next
  split
  · rfl
  · split
    · rfl
    · split <;> rfl

theorem next_cases (s : RetryState) (outcome : Except StoreError α) :
    (∃ a, outcome = .ok a ∧ (s.next outcome).1 = .done a) ∨
      ∃ e, outcome = .error e ∧
        ((e.isTransient = false ∧ (s.next outcome).1 = .fail e) ∨
          (e.isTransient = true ∧ s.config.attemptLimit ≤ s.attempts ∧
            (s.next outcome).1 = .fail (.retryLimitExceeded s.attempts e)) ∨
          (e.isTransient = true ∧ s.attempts < s.config.attemptLimit ∧
            (s.next outcome).1 = .wait (s.config.backoff (s.attempts - 1)))) := by
  cases outcome with
  | ok a => exact .inl ⟨a, rfl, rfl⟩
  | error e =>
    refine .inr ⟨e, rfl, ?_⟩
    unfold next
    cases htransient : e.isTransient with
    | false => simp [htransient]
    | true =>
      rcases Nat.lt_or_ge s.attempts s.config.attemptLimit with hlt | hle
      · simp [htransient, hlt, Nat.not_le.mpr hlt]
      · simp [htransient, hle, Nat.not_lt.mpr hle]

end EntityStore.RetryState

namespace EntityStore.Connection

variable {σ : Type} (c : Connection σ)

structure Probe (σ : Type) where
  calls : List Call
  outcome : Except StoreError Unit
  created : Bool
  state : σ

def opens (calls : List Call) (created : Bool) (s : σ) : Probe σ :=
  ⟨calls ++ [.openLink], (c.openLink s).result, created, (c.openLink s).state⟩

def probeFrom (s : σ) : Probe σ :=
  match c.databaseExists s with
  | ⟨.error e, s', _⟩ => ⟨[.probeDatabase], .error e, false, s'⟩
  | ⟨.ok true, s', _⟩ => c.opens [.probeDatabase] false s'
  | ⟨.ok false, s', _⟩ =>
    match c.createDatabase s' with
    | ⟨.error e, s'', _⟩ => ⟨[.probeDatabase, .createDatabase], .error e, false, s''⟩
    | ⟨.ok (), s'', _⟩ => c.opens [.probeDatabase, .createDatabase] true s''

/-- The state before a probe, counted from zero: the connection is closed after every probe that is
followed by another one. -/
def stateBefore (s : σ) : Nat → σ
  | 0 => s
  | i + 1 => (c.closeLink (c.probeFrom (stateBefore s i)).state).state

def probeAt (s : σ) (i : Nat) : Probe σ := c.probeFrom (c.stateBefore s i)

def retried (retry : RetryConfig) (s : σ) (i : Nat) : List Call :=
  (c.probeAt s i).calls ++ [.closeLink (c.isOpen (c.probeAt s i).state), .wait (retry.backoff i)]

def createdBy (s : σ) (n : Nat) : Bool := (List.range n).any (fun i => (c.probeAt s i).created)

def retryAt (retry : RetryConfig) (s : σ) : Nat → RetryState
  | 0 => .start retry
  | n + 1 => ((retryAt retry s n).beginAttempt.next (c.probeAt s n).outcome).2.1

/-- How a creation ends after a probe: the outcome, the calls that follow the probe, and the state
of the connection. -/
inductive Concludes (retry : RetryConfig) (s : σ) (last : Nat) :
    Except StoreError Bool → List Call → σ → Prop
  | ready (h : (c.probeAt s last).outcome = .ok ()) :
      Concludes retry s last (.ok (c.createdBy s (last + 1))) [] (c.probeAt s last).state
  | fatal {e : StoreError} (h : (c.probeAt s last).outcome = .error e)
      (hfatal : e.isTransient = false) :
      Concludes retry s last (.error e) [.closeLink (c.isOpen (c.probeAt s last).state)]
        (c.closeLink (c.probeAt s last).state).state
  | exhausted {e : StoreError} (h : (c.probeAt s last).outcome = .error e)
      (htransient : e.isTransient = true) (hlast : last + 1 = retry.attemptLimit) :
      Concludes retry s last (.error (.retryLimitExceeded retry.attemptLimit e))
        [.closeLink (c.isOpen (c.probeAt s last).state)] (c.closeLink (c.probeAt s last).state).state

def FailsTransiently (outcome : Except StoreError Unit) : Prop :=
  ∃ e, outcome = .error e ∧ e.isTransient = true

/-- A creation that is about to make its probe `n`, as all earlier ones have failed transiently. -/
structure Pending (retry : RetryConfig) (start : Session σ) (n : Nat) (session : Session σ) :
    Prop where
  transient : ∀ i < n, FailsTransiently (c.probeAt start.state i).outcome
  state_eq : session.state = c.stateBefore start.state n
  trace_eq : session.trace = start.trace ++ (List.range n).flatMap (c.retried retry start.state)

structure Created (retry : RetryConfig) (start : Session σ) (last : Nat)
    (outcome : Except StoreError Bool) (session : Session σ) : Prop where
  transient : ∀ i < last, FailsTransiently (c.probeAt start.state i).outcome
  concludes : ∃ ending, c.Concludes retry start.state last outcome ending session.state ∧
    session.trace = start.trace ++ (List.range last).flatMap (c.retried retry start.state) ++
      (c.probeAt start.state last).calls ++ ending

variable {c}

theorem createdBy_succ (s : σ) (n : Nat) :
    c.createdBy s (n + 1) = (c.createdBy s n || (c.probeAt s n).created) := by
  simp [createdBy, List.range_succ, List.any_append]

theorem retryAt_eq (retry : RetryConfig) (s : σ) (n : Nat) :
    (c.retryAt retry s n).attempts = n ∧ (c.retryAt retry s n).config = retry := by
  induction n with
  | zero => exact ⟨rfl, rfl⟩
  | succ n ih =>
    rw [retryAt, RetryState.attempts_next, RetryState.config_next]
    exact ⟨congrArg (· + 1) ih.1, ih.2⟩

theorem run_probe (c : Connection σ) (created : Bool) (session : Session σ) :
    ∃ session' : Session σ,
      c.probe created session = (.ok ((c.probeFrom session.state).outcome,
        created || (c.probeFrom session.state).created), session') ∧
      session'.state = (c.probeFrom session.state).state ∧
      session'.trace = session.trace ++ (c.probeFrom session.state).calls := by
  rw [probe, Run.run_bind, Run.run_attempt, Run.run_call]
  unfold probeFrom
  obtain ⟨result, s, events⟩ := c.databaseExists session.state
  cases result with
  | error e =>
    simp only [Bool.or_false]
    exact ⟨_, rfl, rfl, rfl⟩
  | ok present =>
    cases present with
    | true =>
      simp only [Run.run_bind, start, Run.run_attempt, Run.run_call, opens, Bool.or_false]
      exact ⟨_, rfl, rfl, List.append_assoc _ _ _⟩
    | false =>
      simp only [Run.run_bind, Run.run_attempt, Run.run_call]
      obtain ⟨result, s', events'⟩ := c.createDatabase s
      cases result with
      | error e =>
        simp only [Bool.or_false]
        exact ⟨_, rfl, rfl, List.append_assoc _ _ _⟩
      | ok =>
        simp only [Run.run_bind, start, Run.run_attempt, Run.run_call, opens, Bool.or_true]
        refine ⟨_, rfl, rfl, ?_⟩
        simp only [List.append_assoc, List.cons_append, List.nil_append]

theorem run_createWith (retry : RetryConfig) (s : σ) (n left : Nat) {session : Session σ}
    (hstate : session.state = c.stateBefore s n) :
    ∃ session' : Session σ, session'.state = (c.probeAt s n).state ∧
      session'.trace = session.trace ++ (c.probeAt s n).calls ∧
      c.createWith (left + 1) (c.retryAt retry s n) (c.createdBy s n) session =
        match ((c.retryAt retry s n).beginAttempt.next (c.probeAt s n).outcome).1 with
        | .done () => (.ok (c.createdBy s (n + 1)), session')
        | .fail e => (.error e, (c.close session').2)
        | .wait delay => c.createWith left (c.retryAt retry s (n + 1)) (c.createdBy s (n + 1))
          (Run.wait delay (c.close session').2).2 := by
  obtain ⟨session₁, hprobe, hstate₁, htrace₁⟩ := c.run_probe (c.createdBy s n) session
  rw [hstate, show c.probeFrom (c.stateBefore s n) = c.probeAt s n from rfl] at hprobe hstate₁ htrace₁
  rw [createWith, Run.run_bind, hprobe, createdBy_succ, retryAt]
  simp only
  generalize (c.retryAt retry s n).beginAttempt.next (c.probeAt s n).outcome = decided
  obtain ⟨step, after, events⟩ := decided
  refine ⟨(Run.log events session₁).2, hstate₁, htrace₁, ?_⟩
  rw [Run.run_bind, Run.run_log]
  cases step with
  | done => rfl
  | fail e => simp only [Run.run_bind, run_close, Run.run_throw]
  | wait delay => simp only [Run.run_bind, run_close, Run.run_wait]

theorem Pending.step {retry : RetryConfig} {start session : Session σ} {n left : Nat}
    (h : c.Pending retry start n session) (hleft : n + (left + 1) = retry.attemptLimit) :
    (∃ outcome session', c.createWith (left + 1) (c.retryAt retry start.state n)
        (c.createdBy start.state n) session = (outcome, session') ∧
        c.Created retry start n outcome session') ∨
      0 < left ∧ ∃ session', c.createWith (left + 1) (c.retryAt retry start.state n)
        (c.createdBy start.state n) session =
          c.createWith left (c.retryAt retry start.state (n + 1))
            (c.createdBy start.state (n + 1)) session' ∧
        c.Pending retry start (n + 1) session' := by
  obtain ⟨session₁, hstate, htrace, hrun⟩ := run_createWith retry start.state n left h.state_eq
  have hattempts : (c.retryAt retry start.state n).beginAttempt.attempts = n + 1 :=
    congrArg (· + 1) (retryAt_eq retry start.state n).1
  have hconfig : (c.retryAt retry start.state n).beginAttempt.config = retry :=
    (retryAt_eq retry start.state n).2
  rw [h.trace_eq] at htrace
  rw [hrun]
  rcases RetryState.next_cases (c.retryAt retry start.state n).beginAttempt
    (c.probeAt start.state n).outcome with
    ⟨_, hok, hnext⟩ | ⟨e, herror, ⟨hfatal, hnext⟩ | ⟨htransient, hlimit, hnext⟩ | ⟨htransient, hlimit, hnext⟩⟩
  · -- the probe passes
    rw [hnext]
    refine .inl ⟨_, session₁, rfl, h.transient, [], ?_, ?_⟩
    · rw [hstate]
      exact .ready hok
    · rw [htrace, List.append_nil]
  · -- it fails for good
    rw [hnext]
    refine .inl ⟨_, _, rfl, h.transient, [.closeLink (c.isOpen (c.probeAt start.state n).state)], ?_, ?_⟩
    · rw [run_close, hstate]
      exact .fatal herror hfatal
    · rw [run_close, htrace, hstate]
  · -- it fails for now, but the limit is reached
    rw [hattempts, hconfig] at hlimit
    have hlast : n + 1 = retry.attemptLimit := by omega
    rw [hnext, hattempts, hlast]
    refine .inl ⟨_, _, rfl, h.transient, [.closeLink (c.isOpen (c.probeAt start.state n).state)], ?_, ?_⟩
    · rw [run_close, hstate]
      exact .exhausted herror htransient hlast
    · rw [run_close, htrace, hstate]
  · -- it fails for now, and another one follows
    rw [hattempts, hconfig] at hlimit
    rw [hnext, hattempts, hconfig]
    refine .inr ⟨by omega, _, rfl, ?_, ?_, ?_⟩
    · intro i hi
      rcases Nat.lt_succ_iff_lt_or_eq.mp hi with hlt | rfl
      · exact h.transient i hlt
      · exact ⟨e, herror, htransient⟩
    · rw [run_close, hstate]
      rfl
    · rw [run_close, htrace, hstate, List.range_succ, List.flatMap_append]
      simp [retried]

theorem Pending.run {retry : RetryConfig} {start session : Session σ} {n left : Nat}
    (h : c.Pending retry start n session) (hleft : n + (left + 1) = retry.attemptLimit) :
    ∃ last outcome session', last < retry.attemptLimit ∧
      c.createWith (left + 1) (c.retryAt retry start.state n) (c.createdBy start.state n) session =
        (outcome, session') ∧
      c.Created retry start last outcome session' := by
  -- the policy gives up with its last attempt, so those that are left suffice
  induction left generalizing n session with
  | zero =>
    rcases h.step hleft with ⟨outcome, session', hrun, hcreated⟩ | ⟨hpos, _⟩
    · exact ⟨n, outcome, session', by omega, hrun, hcreated⟩
    · exact absurd hpos (Nat.lt_irrefl 0)
  | succ left ih =>
    rcases h.step hleft with ⟨outcome, session', hrun, hcreated⟩ | ⟨_, session', hrun, hpending⟩
    · exact ⟨n, outcome, session', by omega, hrun, hcreated⟩
    · rw [hrun]
      exact ih hpending (by omega)

theorem Lawful.isOpen_probeFrom (h : c.Lawful) {s : σ} (hok : (c.probeFrom s).outcome = .ok ()) :
    c.isOpen (c.probeFrom s).state = true := by
  unfold probeFrom at hok ⊢
  split at hok
  · cases hok
  · exact h.opened _ hok
  · split at hok
    · cases hok
    · exact h.opened _ hok

theorem Created.isOpen_eq {retry : RetryConfig} {start session : Session σ} {last : Nat}
    {outcome : Except StoreError Bool} (h : c.Created retry start last outcome session)
    (hlawful : c.Lawful) : c.isOpen session.state = outcome.isOk := by
  obtain ⟨ending, hconcludes, _⟩ := h.concludes
  generalize session.state = s' at hconcludes
  cases hconcludes with
  | ready hok => exact hlawful.isOpen_probeFrom hok
  | fatal => exact hlawful.closed _
  | exhausted => exact hlawful.closed _

theorem attemptLimit_lt (retry : RetryConfig) : retry.attemptLimit < UInt32.size :=
  Nat.max_lt.mpr ⟨by decide, retry.maxAttempts.toNat_lt⟩

theorem exists_created (c : Connection σ) (retry : RetryConfig) (session : Session σ) :
    ∃ last outcome session', last < retry.attemptLimit ∧ c.create retry session = (outcome, session') ∧
      c.Created retry session last outcome session' := by
  have hpending : c.Pending retry session 0 session :=
    ⟨fun i hi => absurd hi (Nat.not_lt_zero i), rfl, (List.append_nil _).symm⟩
  obtain ⟨left, hleft⟩ : ∃ left, 0 + (left + 1) = retry.attemptLimit := by
    have hpos : 0 < retry.attemptLimit := Nat.lt_of_lt_of_le Nat.zero_lt_one (Nat.le_max_left 1 _)
    exact ⟨retry.attemptLimit - 1, by omega⟩
  obtain ⟨last, outcome, session', hlast, hrun, hcreated⟩ := hpending.run hleft
  refine ⟨last, outcome, session', hlast, ?_, hcreated⟩
  rw [create, ← hleft, Nat.zero_add]
  exact hrun

theorem Created.closes {retry : RetryConfig} {start session : Session σ} {last : Nat} {e : StoreError}
    (h : c.Created retry start last (.error e) session) :
    ∃ earlier wasOpen before, session.trace = start.trace ++ (earlier ++ [.closeLink wasOpen]) ∧
      session.state = (c.closeLink before).state := by
  obtain ⟨ending, hconcludes, htrace⟩ := h.concludes
  generalize session.state = s' at hconcludes
  rw [List.append_assoc, List.append_assoc, ← List.append_assoc _ _ ending] at htrace
  cases hconcludes with
  | fatal => exact ⟨_, _, _, htrace, rfl⟩
  | exhausted => exact ⟨_, _, _, htrace, rfl⟩

/-- A creation repeats its probe up to the first that passes or fails for good, and no more often
than the policy allows. The connection is left open exactly if the creation succeeds. The attempts
that the policy counts are the probes, so the count stays within a number of 32 bits. -/
theorem created_create (c : Connection σ) (retry : RetryConfig) (session : Session σ) :
    ∃ last outcome session', c.create retry session = (outcome, session') ∧
      c.Created retry session last outcome session' ∧
      (c.Lawful → c.isOpen session'.state = outcome.isOk) ∧
      last < retry.attemptLimit ∧ retry.attemptLimit < UInt32.size ∧
      ∀ i ≤ last + 1, (c.retryAt retry session.state i).attempts = i ∧ i ≤ retry.attemptLimit := by
  obtain ⟨last, outcome, session', hlast, hrun, hcreated⟩ := c.exists_created retry session
  refine ⟨last, outcome, session', hrun, hcreated, hcreated.isOpen_eq, hlast, attemptLimit_lt retry, ?_⟩
  intro i hi
  exact ⟨(retryAt_eq retry session.state i).1, by omega⟩

end EntityStore.Connection
