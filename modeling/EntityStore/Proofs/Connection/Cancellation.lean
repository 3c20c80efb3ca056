import Mathlib.Data.UInt
import EntityStore.Proofs.Connection.History
import EntityStore.Proofs.Connection.Transaction
import EntityStore.Proofs.Schema.Validity
import EntityStore.Proofs.Store.Saves
import EntityStore.Relational.Store

/-!
# Cancelled saves

A save that looks at cancellation does so before every command and before the commit. What a save
leaves behind, whenever the caller gives up: nothing is committed by a save that ends as cancelled,
and a save that has committed has executed every command.
-/

namespace EntityStore.Connection

variable {σ : Type} (c : Connection σ)

/-- Commands that were executed, each in the state of its call, with the numbers of rows that the
connection reported. -/
inductive Executed : List (σ × Call) → List Command → List UInt64 → Prop
  | nil : Executed [] [] []
  | cons {s : σ} {command : Command} {affected : UInt64} {entries : List (σ × Call)}
      {commands : List Command} {counts : List UInt64}
      (hreply : (c.answer command s).result = .ok affected)
      (hrest : Executed entries commands counts) :
      Executed ((s, statement command) :: entries) (command :: commands) (affected :: counts)

def isExecution : Call → Bool
  | .execute _ _ => true
  | _ => false

/-- The calls around the commands of a transaction and its end. -/
def Frames : Call → Prop
  | .openLink | .beginTransaction | .closeLink _ => True
  | _ => False

def Begins (entries : List (σ × Call)) : Prop :=
  ∃ s, (s, .beginTransaction) ∈ entries ∧ (c.beginTransaction s).result = .ok ()

def Commits (entries : List (σ × Call)) : Prop :=
  ∃ s, (s, .commit) ∈ entries ∧ (c.commit s).result = .ok ()

variable {c} {mode : Mode}

theorem begins_connect {s : σ} {entries : List (σ × Call)} :
    c.Begins ((s, .connect) :: entries) ↔ c.Begins entries := by
  simp [Begins]

theorem commits_connect {s : σ} {entries : List (σ × Call)} :
    c.Commits ((s, .connect) :: entries) ↔ c.Commits entries := by
  simp [Commits]

theorem Frames.isExecution_eq {call : Call} (h : Frames call) : isExecution call = false := by
  cases call with
  | execute => exact h.elim
  | _ => rfl

theorem filter_isExecution {entries : List (σ × Call)}
    (h : ∀ entry ∈ entries, isExecution entry.2 = false) :
    entries.filter (isExecution ·.2) = [] := by
  refine List.filter_eq_nil_iff.mpr ?_
  intro entry hentry
  exact Bool.eq_false_iff.mp (h entry hentry)

theorem final_closing (opened : Bool) (s : σ) :
    c.final s (c.closing opened s) = c.closed opened s := by
  cases opened <;> rfl

theorem mem_closing {opened : Bool} {s : σ} {call : Call} (h : call ∈ c.closing opened s) :
    call = .closeLink (c.isOpen s) := by
  cases opened with
  | false => cases h
  | true => exact List.mem_singleton.mp h

theorem Opens.final_eq {s s' : σ} {opened : Bool} {calls : List Call}
    (h : c.Opens s opened calls s') : c.final s calls = s' := by
  cases h <;> rfl

theorem Opens.mem {s s' : σ} {opened : Bool} {calls : List Call} {call : Call}
    (h : c.Opens s opened calls s') (hcall : call ∈ calls) : call = .openLink := by
  cases h with
  | already => cases hcall
  | opened => exact List.mem_singleton.mp hcall

theorem Executes.final_eq {commands : List Command} {s s' : σ} {calls : List Call}
    {outcome : Except StoreError UInt64} (h : c.Executes mode commands s calls outcome s') :
    c.final s calls = s' := by
  induction h with
  | done => rfl
  | cancelled => rfl
  | failed => rfl
  | conflict => rfl
  | passed _ _ _ _ ih => exact ih

theorem Executes.mem {commands : List Command} {s s' : σ} {calls : List Call} {call : Call}
    {outcome : Except StoreError UInt64} (h : c.Executes mode commands s calls outcome s')
    (hcall : call ∈ calls) : ∃ command, call = statement command := by
  induction h with
  | done => cases hcall
  | cancelled => cases hcall
  | failed => exact ⟨_, List.mem_singleton.mp hcall⟩
  | conflict => exact ⟨_, List.mem_singleton.mp hcall⟩
  | passed _ _ _ _ ih =>
    rcases List.mem_cons.mp hcall with rfl | hrest
    · exact ⟨_, rfl⟩
    · exact ih hrest

theorem Executes.not_givesUp {commands : List Command} {s s' : σ} {calls : List Call}
    {outcome : Except StoreError UInt64} (h : c.Executes mode commands s calls outcome s')
    {entry : σ × Call} (hentry : entry ∈ c.history s calls) : ¬c.GivesUp mode entry.1 := by
  induction h with
  | done => cases hentry
  | cancelled => cases hentry
  | failed hgoes =>
    obtain rfl := List.mem_singleton.mp hentry
    exact hgoes
  | conflict hgoes =>
    obtain rfl := List.mem_singleton.mp hentry
    exact hgoes
  | passed hgoes _ _ _ ih =>
    rcases List.mem_cons.mp hentry with rfl | hrest
    · exact hgoes
    · exact ih hrest

theorem Executes.filter_history {commands : List Command} {s s' : σ} {calls : List Call}
    {outcome : Except StoreError UInt64} (h : c.Executes mode commands s calls outcome s') :
    (c.history s calls).filter (isExecution ·.2) = c.history s calls := by
  refine List.filter_eq_self.mpr ?_
  intro entry hentry
  obtain ⟨command, hcall⟩ := h.mem (mem_of_mem_history hentry)
  rw [hcall]
  rfl

theorem Executes.executed {commands : List Command} {s s' : σ} {calls : List Call} {n : UInt64}
    (h : c.Executes mode commands s calls (.ok n) s') :
    ∃ counts, c.Executed (c.history s calls) commands counts ∧ n = counts.sum := by
  generalize hresult : (.ok n : Except StoreError UInt64) = result at h
  induction h generalizing n with
  | done =>
    cases hresult
    exact ⟨[], .nil, rfl⟩
  | cancelled => cases hresult
  | failed => cases hresult
  | conflict => cases hresult
  | @passed command rest s _ affected calls result hgoes hreply _ _ ih =>
    cases result with
    | error e => cases hresult
    | ok m =>
      cases hresult
      obtain ⟨counts, hexecuted, rfl⟩ := ih rfl
      exact ⟨affected :: counts, .cons hreply hexecuted, rfl⟩

theorem toNat_sum (counts : List UInt64) :
    counts.sum.toNat = (counts.map UInt64.toNat).sum % UInt64.size := by
  induction counts with
  | nil => rfl
  | cons n counts ih =>
    rw [List.sum_cons, List.map_cons, List.sum_cons, UInt64.toNat_add, ih, Nat.add_mod_mod]

theorem Ends.final_eq {result : Except StoreError UInt64} {outcome : Except StoreError Nat} {s s' : σ} {calls : List Call}
    (h : c.Ends mode result s calls outcome s') : c.final s calls = s' := by
  cases h <;> rfl

theorem Ends.mem {result : Except StoreError UInt64} {outcome : Except StoreError Nat} {s s' : σ}
    {calls : List Call} {call : Call}
    (h : c.Ends mode result s calls outcome s') (hcall : call ∈ calls) :
    call = .commit ∨ call = .rollback := by
  cases h with
  | committed => exact .inl (List.mem_singleton.mp hcall)
  | refused => simpa using hcall
  | cancelled => exact .inr (List.mem_singleton.mp hcall)
  | failed => exact .inr (List.mem_singleton.mp hcall)

theorem Ends.filter_history {result : Except StoreError UInt64} {outcome : Except StoreError Nat} {s s' : σ}
    {calls : List Call}
    (h : c.Ends mode result s calls outcome s') :
    (c.history s calls).filter (isExecution ·.2) = [] := by
  refine filter_isExecution ?_
  intro entry hentry
  rcases h.mem (mem_of_mem_history hentry) with hcall | hcall
  · rw [hcall]
    rfl
  · rw [hcall]
    rfl

theorem Ends.outcome_eq {result : Except StoreError UInt64} {outcome : Except StoreError Nat} {s s' : σ}
    {calls : List Call}
    (h : c.Ends mode result s calls outcome s') (hcommits : c.Commits (c.history s calls)) :
    ∃ n, result = .ok n ∧ outcome = .ok n.toNat := by
  obtain ⟨s₁, hmem, hreply⟩ := hcommits
  cases h with
  | committed => exact ⟨_, rfl, rfl⟩
  | refused _ hrefused =>
    rcases List.mem_cons.mp hmem with heq | hmem
    · cases heq
      cases hrefused.symm.trans hreply
    · cases List.mem_singleton.mp hmem
  | cancelled => cases List.mem_singleton.mp hmem
  | failed => cases List.mem_singleton.mp hmem

theorem Ends.rollback_mem {result : Except StoreError UInt64} {s s' : σ} {calls : List Call}
    {e : StoreError} (h : c.Ends mode result s calls (.error e) s') : .rollback ∈ calls := by
  cases h with
  | refused => exact List.mem_cons_of_mem _ (List.mem_singleton_self _)
  | cancelled => exact List.mem_singleton_self _
  | failed => exact List.mem_singleton_self _

theorem Saves.final_eq {commands : List Command} {s s' : σ} {calls : List Call}
    {outcome : Except StoreError Nat} (h : c.Saves mode commands s calls outcome s') :
    c.final s calls = s' := by
  cases h with
  | cancelled => rfl
  | unopened => rfl
  | unbegun _ hopens => simp only [final_append, final_cons, hopens.final_eq, after, final_closing]
  | begun _ hopens _ hexecutes hends =>
    simp only [final_append, final_cons, hopens.final_eq, after, hexecutes.final_eq, hends.final_eq,
      final_closing]

theorem Saves.stages {commands : List Command} {s s' : σ} {calls : List Call}
    {outcome : Except StoreError Nat} (h : c.Saves mode commands s calls outcome s') :
    (¬c.Begins (c.history s calls) ∧ (∀ entry ∈ c.history s calls, Frames entry.2) ∧
        ∃ e, outcome = .error e) ∨
      ∃ (before after : List (σ × Call)) (executed ending : List Call) (s₁ s₂ s₃ : σ)
        (result : Except StoreError UInt64),
        c.history s calls = before ++ c.history s₁ executed ++ c.history s₂ ending ++ after ∧
        c.Begins before ∧ (∀ entry ∈ before ++ after, Frames entry.2) ∧
        c.Executes mode commands s₁ executed result s₂ ∧ c.Ends mode result s₂ ending outcome s₃ := by
  cases h with
  | cancelled =>
    refine .inl ⟨?_, ?_, _, rfl⟩
    · rintro ⟨s₀, hmem, _⟩
      cases hmem
    · intro entry hentry
      cases hentry
  | unopened _ _ hreply =>
    refine .inl ⟨?_, ?_, _, rfl⟩
    · rintro ⟨s₀, hmem, _⟩
      cases List.mem_singleton.mp hmem
    · intro entry hentry
      obtain rfl := List.mem_singleton.mp hentry
      trivial
  | unbegun _ hopens hreply =>
    refine .inl ⟨?_, ?_, _, rfl⟩
    · rintro ⟨s₀, hmem, hbegun⟩
      simp only [history_append, history_cons, hopens.final_eq, List.mem_append, List.mem_cons] at hmem
      rcases hmem with hmem | hhere | hmem
      · cases hopens.mem (mem_of_mem_history hmem)
      · cases hhere
        cases hreply.symm.trans hbegun
      · cases mem_closing (mem_of_mem_history hmem)
    · intro entry hentry
      rcases List.mem_append.mp (mem_of_mem_history hentry) with hmem | hmem
      · rw [hopens.mem hmem]
        trivial
      rcases List.mem_cons.mp hmem with hhere | hmem
      · rw [hhere]
        trivial
      · rw [mem_closing hmem]
        trivial
  | @begun s₁ s₂ s₃ opened opening executed ending result _ _ hopens hreply hexecutes hends =>
    refine .inr ⟨c.history s opening ++ [(s₁, .beginTransaction)], c.history s₃ (c.closing opened s₃),
      executed, ending, _, s₂, s₃, result, ?_, ?_, ?_, hexecutes, hends⟩
    · simp only [history_append, history_cons, hopens.final_eq, after, hexecutes.final_eq,
        hends.final_eq, List.append_assoc, List.cons_append, List.nil_append]
    · exact ⟨s₁, List.mem_append_right _ (List.mem_singleton_self _), hreply⟩
    · intro entry hentry
      rcases List.mem_append.mp hentry with hentry | hentry
      · rcases List.mem_append.mp hentry with hentry | hentry
        · rw [hopens.mem (mem_of_mem_history hentry)]
          trivial
        · obtain rfl := List.mem_singleton.mp hentry
          trivial
      · rw [mem_closing (mem_of_mem_history hentry)]
        trivial

theorem Saves.executed {commands : List Command} {s s' : σ} {calls : List Call}
    {outcome : Except StoreError Nat} (h : c.Saves mode commands s calls outcome s')
    (hcommits : c.Commits (c.history s calls)) :
    ∃ counts, c.Executed ((c.history s calls).filter (isExecution ·.2)) commands counts ∧
      outcome = .ok counts.sum.toNat := by
  obtain ⟨s₀, hmem, hreply⟩ := hcommits
  rcases h.stages with ⟨_, hframes, _⟩ |
    ⟨before, after, executed, ending, s₁, s₂, s₃, result, heq, _, hframes, hexecutes, hends⟩
  · exact (hframes _ hmem).elim
  -- the commit is neither in the frame nor a command, so it ends the transaction
  have hcommits : c.Commits (c.history s₂ ending) := by
    rw [heq] at hmem
    simp only [List.mem_append] at hmem
    rcases hmem with ((hmem | hmem) | hmem) | hmem
    · exact (hframes _ (List.mem_append_left _ hmem)).elim
    · obtain ⟨command, hcall⟩ := hexecutes.mem (mem_of_mem_history hmem)
      cases hcall
    · exact ⟨s₀, hmem, hreply⟩
    · exact (hframes _ (List.mem_append_right _ hmem)).elim
  obtain ⟨n, rfl, rfl⟩ := hends.outcome_eq hcommits
  obtain ⟨counts, hexecuted, rfl⟩ := hexecutes.executed
  refine ⟨counts, ?_, rfl⟩
  have hbefore : before.filter (isExecution ·.2) = [] := by
    refine filter_isExecution ?_
    intro entry hentry
    exact (hframes entry (List.mem_append_left _ hentry)).isExecution_eq
  have hafter : after.filter (isExecution ·.2) = [] := by
    refine filter_isExecution ?_
    intro entry hentry
    exact (hframes entry (List.mem_append_right _ hentry)).isExecution_eq
  rw [heq]
  simp only [List.filter_append, hbefore, hexecutes.filter_history, hends.filter_history, hafter,
    List.nil_append, List.append_nil]
  exact hexecuted

theorem Saves.rollback_mem_iff {commands : List Command} {s s' : σ} {calls : List Call}
    {e : StoreError} (h : c.Saves mode commands s calls (.error e) s') :
    .rollback ∈ calls ↔ c.Begins (c.history s calls) := by
  rw [mem_iff_exists_history]
  rcases h.stages with ⟨hbegins, hframes, _⟩ |
    ⟨before, after, executed, ending, s₁, s₂, s₃, result, heq, ⟨s₀, hmem, hreply⟩, _, _, hends⟩
  · refine iff_of_false ?_ hbegins
    rintro ⟨s', hmem⟩
    exact hframes _ hmem
  · obtain ⟨s', hrollback⟩ := mem_iff_exists_history.mp hends.rollback_mem
    rw [heq]
    refine iff_of_true ⟨s', ?_⟩ ⟨s₀, ?_, hreply⟩
    · exact List.mem_append_left _ (List.mem_append_right _ hrollback)
    · simp only [List.append_assoc]
      exact List.mem_append_left _ hmem

theorem Saves.closesLast {commands : List Command} {s s' : σ} {calls : List Call}
    {outcome : Except StoreError Nat} (h : c.Saves mode commands (c.connect s) calls outcome s') :
    c.ClosesLast (.connect :: calls) s' := by
  have hclosing {opened : Bool} {opening : List Call} {s₁ s₂ : σ}
      (hopens : c.Opens (c.connect s) opened opening s₁) (rest : List Call) (hrest : .openLink ∉ rest) :
      c.ClosesLast (.connect :: (opening ++ (rest ++ c.closing opened s₂))) (c.closed opened s₂) := by
    cases hopens with
    | already =>
      refine .of_not_mem ?_
      simpa [closing] using hrest
    | opened => exact .of_closeLink (.connect :: .openLink :: rest) _ _
  cases h with
  | cancelled => exact .of_not_mem (by decide)
  | unopened _ _ hreply =>
    have hconnect : Call.openLink ∉ [Call.connect] := by decide
    exact .of_refused hconnect hreply
  | unbegun _ hopens => exact hclosing hopens [.beginTransaction] (by decide)
  | @begun _ _ s₃ _ _ executed ending _ _ _ hopens _ hexecutes hends =>
    have hrest : .openLink ∉ Call.beginTransaction :: (executed ++ ending) := by
      intro hopen
      rcases List.mem_append.mp ((List.mem_cons.mp hopen).resolve_left nofun) with hopen | hopen
      · obtain ⟨command, hcommand⟩ := hexecutes.mem hopen
        cases hcommand
      · rcases hends.mem hopen with hcommit | hrollback
        · cases hcommit
        · cases hrollback
    exact hclosing hopens _ hrest

theorem Saves.isOpen_eq {commands : List Command} {s s' : σ} {calls : List Call}
    {outcome : Except StoreError Nat} (h : c.Saves mode commands s calls outcome s')
    (hrefused : ∀ s e, c.isOpen s = false → (c.openLink s).result = .error e →
      c.isOpen (c.openLink s).state = false)
    (hclosing : ∀ s, c.isOpen (c.closeLink s).state = false) (hclosed : c.isOpen s = false) :
    c.isOpen s' = false := by
  have hclosing {opened : Bool} {opening : List Call} {s₁ s₂ : σ} (hopens : c.Opens s opened opening s₁) :
      c.isOpen (c.closed opened s₂) = false := by
    cases hopens with
    | already hopen => cases hopen.symm.trans hclosed
    | opened => exact hclosing _
  cases h with
  | cancelled => exact hclosed
  | unopened _ _ hreply => exact hrefused _ _ hclosed hreply
  | unbegun _ hopens => exact hclosing hopens
  | begun _ hopens => exact hclosing hopens

theorem Saves.not_givesUp {commands : List Command} {s s' : σ} {calls : List Call}
    {outcome : Except StoreError Nat} (h : c.Saves mode commands s calls outcome s')
    {entry : σ × Call} (hentry : entry ∈ c.history s calls) (hexecution : isExecution entry.2 = true) :
    ¬c.GivesUp mode entry.1 := by
  have hframe : ¬Frames entry.2 := by
    intro h
    cases h.isExecution_eq.symm.trans hexecution
  rcases h.stages with ⟨_, hframes, _⟩ |
    ⟨before, after, executed, ending, s₁, s₂, s₃, result, heq, _, hframes, hexecutes, hends⟩
  · exact absurd (hframes _ hentry) hframe
  rw [heq] at hentry
  simp only [List.mem_append] at hentry
  rcases hentry with ((hentry | hentry) | hentry) | hentry
  · exact absurd (hframes _ (List.mem_append_left _ hentry)) hframe
  · exact hexecutes.not_givesUp hentry
  · rcases hends.mem (mem_of_mem_history hentry) with hcall | hcall
    · rw [hcall] at hexecution
      cases hexecution
    · rw [hcall] at hexecution
      cases hexecution
  · exact absurd (hframes _ (List.mem_append_right _ hentry)) hframe

/-- What a cancellable save leaves behind, by the calls that it has made from a state on. A save
without calls has made no connection that could be open. -/
structure CancelsCleanly (c : Connection σ) (planned : Except StoreError (List Batch)) (s : σ)
    (calls : List Call) (outcome : Except StoreError Nat) : Prop where
  uncommitted : outcome = .error .cancelled → ¬c.Commits (c.history s calls)
  rolledBack : outcome = .error .cancelled → (.rollback ∈ calls ↔ c.Begins (c.history s calls))
  closed : outcome = .error .cancelled → c.ClosesLast calls (c.final s calls)
  /-- So it is no longer open, if a close closes and an open that fails does not open. -/
  notOpen : c.Lawful → outcome = .error .cancelled → calls ≠ [] → c.isOpen (c.final s calls) = false
  /-- The total is that of the counts, as far as 64 bits hold it. -/
  complete : c.Commits (c.history s calls) → ∃ batches counts, planned = .ok batches ∧
    c.Executed ((c.history s calls).filter (isExecution ·.2)) batches.flatten counts ∧
    outcome = .ok ((counts.map UInt64.toNat).sum % UInt64.size)
  unseen : ∀ earlier sql parameters later, calls = earlier ++ .execute sql parameters :: later →
    ∀ entry ∈ c.history s (earlier ++ [.execute sql parameters]), c.isCancelled entry.1 = false

theorem CancelsCleanly.nil (c : Connection σ) (planned : Except StoreError (List Batch)) (s : σ)
    (outcome : Except StoreError Nat) : c.CancelsCleanly planned s [] outcome where
  uncommitted _ := by
    rintro ⟨s₀, hmem, _⟩
    cases hmem
  rolledBack _ := by
    refine iff_of_false List.not_mem_nil ?_
    rintro ⟨s₀, hmem, _⟩
    cases hmem
  closed _ hopen := absurd hopen List.not_mem_nil
  notOpen _ _ hcalls := absurd rfl hcalls
  complete := by
    rintro ⟨s₀, hmem, _⟩
    cases hmem
  unseen earlier _ _ _ heq := absurd heq.symm (List.append_ne_nil_of_right_ne_nil earlier (List.cons_ne_nil _ _))

theorem Irrevocable.unseen (h : c.Irrevocable) {s : σ} {earlier : List Call} {call : Call}
    (hcall : c.isCancelled (c.final s earlier) = false) {entry : σ × Call}
    (hentry : entry ∈ c.history s (earlier ++ [call])) : c.isCancelled entry.1 = false := by
  have hpairwise := h.pairwise s (earlier ++ [call])
  rw [history_append] at hpairwise hentry
  rcases List.mem_append.mp hentry with hearlier | hhere
  · have hlater := (List.pairwise_append.mp hpairwise).2.2 entry hearlier _ (List.mem_singleton_self _)
    exact Bool.eq_false_iff.mpr (fun hgiven => Bool.eq_false_iff.mp hcall (hlater hgiven))
  · obtain rfl := List.mem_singleton.mp hhere
    exact hcall

theorem Saves.cancelsCleanly {batches : List Batch} {s s' : σ} {calls : List Call}
    {outcome : Except StoreError Nat}
    (h : c.Saves .cancellable batches.flatten (c.connect s) calls outcome s')
    (hirrevocable : c.Irrevocable) :
    c.CancelsCleanly (.ok batches) s (.connect :: calls) outcome where
  uncommitted hcancelled hcommits := by
    obtain ⟨counts, _, hcomplete⟩ := h.executed (commits_connect.mp hcommits)
    cases hcancelled.symm.trans hcomplete
  rolledBack hcancelled := by
    subst hcancelled
    have hlater : .rollback ∈ Call.connect :: calls ↔ .rollback ∈ calls := by simp
    rw [hlater, h.rollback_mem_iff]
    exact begins_connect.symm
  closed _ := by
    rw [final_cons, show c.after s .connect = c.connect s from rfl, h.final_eq]
    exact h.closesLast
  notOpen hlawful _ _ := by
    rw [final_cons, show c.after s .connect = c.connect s from rfl, h.final_eq]
    exact h.isOpen_eq hlawful.refused hlawful.closed (hlawful.connected s)
  complete hcommits := by
    obtain ⟨counts, hexecuted, hcomplete⟩ := h.executed (commits_connect.mp hcommits)
    rw [toNat_sum] at hcomplete
    exact ⟨batches, counts, rfl, hexecuted, hcomplete⟩
  unseen earlier sql parameters later heq := by
    have hmem : (c.final s earlier, .execute sql parameters) ∈ c.history s (.connect :: calls) := by
      rw [heq, history_append]
      exact List.mem_append_right _ List.mem_cons_self
    rcases List.mem_cons.mp hmem with hconnect | hmem
    · cases congrArg Prod.snd hconnect
    have hgoes := h.not_givesUp hmem rfl
    intro entry hentry
    refine hirrevocable.unseen ?_ hentry
    exact Bool.eq_false_iff.mpr (fun hgiven => hgoes ⟨rfl, hgiven⟩)

end EntityStore.Connection

namespace EntityStore.Relational

open Connection

variable {σ : Type}

theorem run_save (c : Connection σ) (s : Schema) (options : StoreOptions) (mode : Mode)
    (entries : List PendingEntry) (session : Session σ) :
    (∃ e, Batches.ofEntries s options entries = .error e ∧
        save c s options mode entries session = (.error e, session)) ∨
      ∃ batches calls outcome session', Batches.ofEntries s options entries = .ok batches ∧
        c.Saves mode batches.flatten (c.connect session.state) calls outcome session'.state ∧
        session'.trace = session.trace ++ .connect :: calls ∧
        save c s options mode entries session = (outcome, session') := by
  rw [save, Run.run_bind, Run.run_ofExcept]
  cases hplanned : Batches.ofEntries s options entries with
  | error e => exact .inl ⟨e, rfl, rfl⟩
  | ok batches =>
    simp only [Run.run_bind, Connection.run_renew]
    obtain ⟨calls, outcome, session', hsaves, htrace, hrun⟩ := c.run_save mode
      options.sensitiveLogging batches
      { session with state := c.connect session.state, trace := session.trace ++ [.connect] }
    refine .inr ⟨batches, calls, outcome, session', rfl, hsaves, ?_, hrun⟩
    rw [htrace, List.append_assoc]
    rfl

/-- A cancelled save commits nothing, whenever the caller gives up. -/
theorem cancelsCleanly_saveChanges (c : Connection σ) (hirrevocable : c.Irrevocable) (name : String)
    (s : Schema) (options : StoreOptions) (entries : List PendingEntry) (session : Session σ) :
    ∃ calls outcome session',
      (backend c name s options).saveChanges .cancellable entries session = (outcome, session') ∧
      session'.trace = session.trace ++ calls ∧ session'.state = c.final session.state calls ∧
      c.CancelsCleanly (Batches.ofEntries s options entries) session.state calls outcome := by
  rw [Backend.run_saveChanges]
  split
  · exact ⟨[], _, _, rfl, (List.append_nil _).symm, rfl, .nil c _ _ _⟩
  split
  · exact ⟨[], _, _, rfl, (List.append_nil _).symm, rfl, .nil c _ _ _⟩
  rcases run_save c s options .cancellable entries session with
    ⟨e, _, hrun⟩ | ⟨batches, calls, outcome, session', hplanned, hsaves, htrace, hrun⟩
  · simp only [backend, hrun]
    exact ⟨[], _, _, rfl, (List.append_nil _).symm, rfl, .nil c _ _ _⟩
  have hstate : session'.state = c.final session.state (.connect :: calls) := hsaves.final_eq.symm
  have hcleanly := hsaves.cancelsCleanly hirrevocable
  rw [← hplanned] at hcleanly
  simp only [backend, hrun]
  cases outcome with
  | ok affected => exact ⟨_, _, _, rfl, htrace, hstate, hcleanly⟩
  | error e => exact ⟨_, _, _, rfl, htrace, hstate, hcleanly⟩

/-- The caller gives up during the second of three executions. -/
theorem cancelsCleanly_saveChanges_blogs :
    let c := Scripted.connection
    let entries : List PendingEntry := [1, 2, 3].map fun id =>
      ⟨⟨0⟩, .added, .ofList [("Id", .integer id)], .empty⟩
    let start : Scripted := ⟨"blogs.db", .empty, false, false, some (.execute, 2)⟩
    c.Irrevocable ∧ c.Lawful ∧ ∃ calls outcome session',
      (backend c "relational" .blogs .standard).saveChanges .cancellable entries (.ofState start) =
        (outcome, session') ∧
      session'.trace = calls ∧ session'.state = c.final start calls ∧
      c.CancelsCleanly (Batches.ofEntries .blogs .standard entries) start calls outcome ∧
      outcome = .error .cancelled ∧
      calls.map Call.tag =
        ["connect", "open", "begin", "execute", "execute", "rollback", "close"] := by
  intro c entries start
  have hirrevocable : c.Irrevocable := Scripted.irrevocable_connection
  obtain ⟨calls, outcome, session', hrun, htrace, hstate, hcleanly⟩ :=
    cancelsCleanly_saveChanges c hirrevocable "relational" .blogs .standard entries (.ofState start)
  refine ⟨hirrevocable, Scripted.lawful_connection, calls, outcome, session', hrun, htrace, hstate,
    hcleanly, ?_, ?_⟩
  · have houtcome : ((backend c "relational" .blogs .standard).saveChanges .cancellable entries
        (.ofState start)).1 = .error .cancelled := rfl
    exact (congrArg Prod.fst hrun).symm.trans houtcome
  · have htags : ((backend c "relational" .blogs .standard).saveChanges .cancellable entries
        (.ofState start)).2.trace.map Call.tag =
        ["connect", "open", "begin", "execute", "execute", "rollback", "close"] := by decide +kernel
    rw [hrun] at htags
    rw [← htags, htrace]
    rfl

end EntityStore.Relational
