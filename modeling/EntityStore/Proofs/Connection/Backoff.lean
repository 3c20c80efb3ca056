import Mathlib.Algebra.GroupWithZero.Nat
import Mathlib.Order.MinMax
import EntityStore.Proofs.Connection.Creation

/-!
# Waits between attempts

The wait doubles with each retry until it reaches the greatest delay, or until it has doubled 31
times. So it is the base delay times a power of two, cut at the greatest delay, unless a small base
delay has to double more often to get there. Either way the waits of a creation never become shorter.
-/

namespace EntityStore

namespace RetryConfig

variable {c : RetryConfig} {retry : Nat}

/-- The wait that goes on doubling until it is cut. -/
def exponential (c : RetryConfig) (retry : Nat) : Nat :=
  min c.maxDelay.toNat (c.baseDelay.toNat * 2 ^ retry)

theorem backoff_eq (c : RetryConfig) (retry : Nat) :
    c.backoff retry = min c.maxDelay.toNat (c.baseDelay.toNat * 2 ^ min retry 31) := by
  have hmax : c.maxDelay.toNat ≤ UInt64.size - 1 := Nat.le_sub_one_of_lt c.maxDelay.toNat_lt
  change min _ (min _ (c.baseDelay.toNat * 2 ^ min retry 31)) = _
  rw [← min_assoc, min_eq_left hmax]

theorem backoff_le (c : RetryConfig) (retry : Nat) : c.backoff retry ≤ c.maxDelay.toNat := by
  rw [backoff_eq]
  exact min_le_left _ _

theorem backoff_mono (c : RetryConfig) : Monotone c.backoff := by
  intro i j hij
  have hpow : 2 ^ min i 31 ≤ 2 ^ min j 31 := Nat.pow_le_pow_right (by decide) (min_le_min_right 31 hij)
  rw [backoff_eq, backoff_eq]
  exact min_le_min_left _ (Nat.mul_le_mul_left _ hpow)

theorem exponential_eq_backoff_of_le (h : retry ≤ 31) : c.backoff retry = c.exponential retry := by
  rw [backoff_eq, min_eq_left h]
  rfl

theorem backoff_eq_exponential_iff_of_lt (h : 31 < retry) :
    c.backoff retry = c.exponential retry ↔
      c.baseDelay.toNat = 0 ∨ c.maxDelay.toNat ≤ c.baseDelay.toNat * 2 ^ 31 := by
  rw [backoff_eq, exponential, min_eq_right (Nat.le_of_lt h)]
  rcases Nat.eq_zero_or_pos c.baseDelay.toNat with hbase | hbase
  · rw [hbase, Nat.zero_mul, Nat.zero_mul]
    exact iff_of_true rfl (Or.inl rfl)
  · have hgrows : c.baseDelay.toNat * 2 ^ 31 < c.baseDelay.toNat * 2 ^ retry :=
      Nat.mul_lt_mul_of_pos_left (Nat.pow_lt_pow_right (by decide) h) hbase
    omega

/-- The wait is the documented one up to 31 doublings, and from then on if there is nothing to double
or the greatest delay has been reached. -/
theorem backoff_eq_exponential_iff :
    c.backoff retry = c.exponential retry ↔
      retry ≤ 31 ∨ c.baseDelay.toNat = 0 ∨ c.maxDelay.toNat ≤ c.baseDelay.toNat * 2 ^ 31 := by
  rcases Nat.lt_or_ge 31 retry with hlt | hle
  · rw [backoff_eq_exponential_iff_of_lt hlt]
    exact (or_iff_right (Nat.not_le.2 hlt)).symm
  · exact iff_of_true (exponential_eq_backoff_of_le hle) (Or.inl hle)

end RetryConfig

def Call.delay? : Call → Option Nat
  | .wait milliseconds => some milliseconds
  | _ => none

namespace Connection

def waits (calls : List Call) : List Nat := calls.filterMap Call.delay?

variable {σ : Type} {c : Connection σ} {retry : RetryConfig}

theorem waits_append (calls calls' : List Call) : waits (calls ++ calls') = waits calls ++ waits calls' :=
  List.filterMap_append

theorem waits_probeFrom (c : Connection σ) (s : σ) : waits (c.probeFrom s).calls = [] := by
  unfold probeFrom
  split
  · rfl
  · rfl
  · split
    · rfl
    · rfl

theorem waits_retried (s : σ) (i : Nat) : waits (c.retried retry s i) = [retry.backoff i] := by
  rw [retried, waits_append, probeAt, waits_probeFrom]
  rfl

theorem waits_retries (s : σ) (n : Nat) :
    waits ((List.range n).flatMap (c.retried retry s)) = (List.range n).map retry.backoff := by
  induction n with
  | zero => rfl
  | succ n ih =>
    rw [List.range_succ, List.flatMap_append, waits_append, ih, List.map_append, List.flatMap_singleton,
      waits_retried]
    rfl

theorem Concludes.waits_eq {s s' : σ} {last : Nat} {outcome : Except StoreError Bool} {ending : List Call}
    (h : c.Concludes retry s last outcome ending s') : waits ending = [] := by
  cases h with
  | ready => rfl
  | fatal => rfl
  | exhausted => rfl

/-- The waits of a creation: one after each attempt but the last, none shorter than the one before it
and none longer than the greatest delay. -/
structure BacksOff (retry : RetryConfig) (delays : List Nat) : Prop where
  fewer : delays.length < retry.attemptLimit
  eq_backoff : delays = (List.range delays.length).map retry.backoff
  ordered : delays.Pairwise (· ≤ ·)
  bounded : ∀ delay ∈ delays, delay ≤ retry.maxDelay.toNat

theorem backsOff_map {n : Nat} (h : n < retry.attemptLimit) :
    BacksOff retry ((List.range n).map retry.backoff) where
  fewer := by rwa [List.length_map, List.length_range]
  eq_backoff := by rw [List.length_map, List.length_range]
  ordered := List.pairwise_map.2 (List.pairwise_lt_range.imp (fun hlt => retry.backoff_mono (Nat.le_of_lt hlt)))
  bounded := by
    intro delay hdelay
    obtain ⟨i, -, rfl⟩ := List.mem_map.1 hdelay
    exact retry.backoff_le i

theorem Created.backsOff {start session : Session σ} {last : Nat} {outcome : Except StoreError Bool}
    (h : c.Created retry start last outcome session) (hlast : last < retry.attemptLimit) :
    ∃ calls, session.trace = start.trace ++ calls ∧ BacksOff retry (waits calls) := by
  obtain ⟨ending, hconcludes, htrace⟩ := h.concludes
  refine ⟨_, by rw [htrace, List.append_assoc, List.append_assoc], ?_⟩
  rw [waits_append, waits_append, waits_retries, probeAt, waits_probeFrom, hconcludes.waits_eq,
    List.append_nil, List.append_nil]
  exact backsOff_map hlast

/-- Every retry of a policy waits for the base delay, doubled with each retry but at most 31 times, and
cut at the greatest delay; 64 bits suffice for that. The wait is the one that goes on doubling exactly
up to 31 doublings, without a base delay, and where it is cut by then. In every creation the waits are
those of the retries in order, so they never become shorter and never exceed the greatest delay. -/
theorem backsOff_create (retry : RetryConfig) :
    (∀ r, retry.backoff r = min retry.maxDelay.toNat (retry.baseDelay.toNat * 2 ^ min r 31)) ∧
      (∀ r, retry.backoff r = retry.exponential r ↔
        r ≤ 31 ∨ retry.baseDelay.toNat = 0 ∨ retry.maxDelay.toNat ≤ retry.baseDelay.toNat * 2 ^ 31) ∧
      ∀ {σ : Type} (c : Connection σ) (session : Session σ), ∃ outcome session' calls,
        c.create retry session = (outcome, session') ∧ session'.trace = session.trace ++ calls ∧
          BacksOff retry (waits calls) := by
  refine ⟨retry.backoff_eq, fun r => RetryConfig.backoff_eq_exponential_iff, ?_⟩
  intro σ c session
  have hpending : c.Pending retry session 0 session :=
    ⟨fun i hi => absurd hi (Nat.not_lt_zero i), rfl, (List.append_nil _).symm⟩
  obtain ⟨left, hleft⟩ : ∃ left, retry.attemptLimit = left + 1 :=
    Nat.exists_eq_succ_of_ne_zero (Nat.ne_of_gt (Nat.le_max_left 1 _))
  have hattempts : 0 + (left + 1) = retry.attemptLimit := by rw [hleft, Nat.zero_add]
  obtain ⟨last, outcome, session', hlast, hrun, hcreated⟩ := hpending.run hattempts
  obtain ⟨calls, htrace, hbacksOff⟩ := hcreated.backsOff hlast
  refine ⟨outcome, session', calls, ?_, htrace, hbacksOff⟩
  rw [create, hleft]
  exact hrun

/-- A delay of one millisecond would have to double more often to reach the greatest delay. -/
def patientRetry : RetryConfig := { maxAttempts := 40, baseDelay := 1, maxDelay := 1099511627776 }

theorem stalls_patientRetry : patientRetry.backoff 32 = 2147483648 ∧
    patientRetry.exponential 32 = 4294967296 ∧
    ¬∀ (retry : RetryConfig) (r : Nat), r < UInt32.size → retry.backoff r = retry.exponential r := by
  have hstalls : patientRetry.backoff 32 ≠ patientRetry.exponential 32 := by decide
  exact ⟨by decide, by decide, fun h => hstalls (h patientRetry 32 (by decide))⟩

end Connection

end EntityStore
