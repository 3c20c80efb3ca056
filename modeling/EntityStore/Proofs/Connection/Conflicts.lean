import EntityStore.Proofs.Connection.Cancellation
import EntityStore.Connection.Scripted

/-!
# Conflicts

An update or a delete that finds no row ends its save: what was done is rolled back and the conflict
reported. A save that succeeds has found a row with each of them. Only a missing row is noticed, so a
statement that reports several rows passes like one that reports one.
-/

namespace EntityStore.Connection

variable {σ : Type} (c : Connection σ)

/-- How commands came by their rows: `executed` are those that were executed, each with the state of the
connection in which it was. -/
structure FindsRows {α : Type} (commands : List Command) (entries : List (σ × Call))
    (outcome : Except StoreError α) (executed : List (Command × σ)) : Prop where
  entries_eq : entries = executed.map (fun x => (x.2, statement x.1))
  order : executed.map Prod.fst <+: commands
  complete : ∀ n, outcome = .ok n → executed.map Prod.fst = commands
  found : ∀ n, outcome = .ok n → ∀ x ∈ executed, x.1.needsRow = true →
    ∃ affected, (c.answer x.1 x.2).result = .ok affected ∧ affected ≠ 0
  missing : ∀ x ∈ executed, x.1.needsRow = true → (c.answer x.1 x.2).result = .ok 0 →
    outcome = .error (.concurrencyConflict x.1.state.name x.1.table 0)

variable {c} {mode : Mode} {command : Command} {commands rest : List Command} {s s' : σ}
  {calls : List Call} {entries : List (σ × Call)} {result : Except StoreError UInt64}
  {outcome : Except StoreError Nat} {e : StoreError} {executed : List (Command × σ)}

theorem FindsRows.nil {α : Type} : c.FindsRows commands [] (.error e : Except StoreError α) [] where
  entries_eq := rfl
  order := List.nil_prefix
  complete _ h := by cases h
  found _ h := by cases h
  missing _ h := by cases h

theorem FindsRows.last {α : Type}
    (h : command.needsRow = true → (c.answer command s).result = .ok 0 →
      e = .concurrencyConflict command.state.name command.table 0) :
    c.FindsRows (command :: rest) [(s, statement command)] (.error e : Except StoreError α)
      [(command, s)] where
  entries_eq := rfl
  order := List.prefix_iff_eq_append.2 rfl
  complete _ h := by cases h
  found _ h := by cases h
  missing x hx hneeds hreply := by
    obtain rfl := List.mem_singleton.1 hx
    rw [h hneeds hreply]

theorem FindsRows.cons {affected : UInt64} (hreply : (c.answer command s).result = .ok affected)
    (hfound : command.needsRow = true → affected ≠ 0) (h : c.FindsRows rest entries result executed) :
    c.FindsRows (command :: rest) ((s, statement command) :: entries) (result.map (affected + ·))
      ((command, s) :: executed) where
  entries_eq := by rw [h.entries_eq, List.map_cons]
  order := List.cons_prefix_cons.2 ⟨rfl, h.order⟩
  complete n hn := by
    cases result with
    | error e => cases hn
    | ok m => rw [List.map_cons, h.complete m rfl]
  found n hn x hx hneeds := by
    cases result with
    | error e => cases hn
    | ok m =>
      rcases List.mem_cons.1 hx with rfl | hx
      · exact ⟨affected, hreply, hfound hneeds⟩
      · exact h.found m rfl x hx hneeds
  missing x hx hneeds hzero := by
    rcases List.mem_cons.1 hx with rfl | hx
    · cases hreply.symm.trans hzero
      exact absurd rfl (hfound hneeds)
    · rw [h.missing x hx hneeds hzero]
      rfl

theorem Executes.exists_findsRows (h : c.Executes mode commands s calls result s') :
    ∃ executed, c.FindsRows commands (c.history s calls) result executed := by
  induction h with
  | done =>
    refine ⟨[], ⟨rfl, List.nil_prefix, fun _ _ => rfl, ?_, ?_⟩⟩
    · intro _ _ x hx
      cases hx
    · intro x hx
      cases hx
  | cancelled => exact ⟨[], .nil⟩
  | failed _ hreply =>
    refine ⟨_, .last ?_⟩
    intro _ hzero
    cases hreply.symm.trans hzero
  | conflict => exact ⟨_, .last (fun _ _ => rfl)⟩
  | passed _ hreply hfound _ ih =>
    obtain ⟨executed, hrows⟩ := ih
    exact ⟨_, hrows.cons hreply hfound⟩

theorem FindsRows.ends (h : c.FindsRows commands entries result executed)
    (hends : c.Ends mode result s calls outcome s') : c.FindsRows commands entries outcome executed where
  entries_eq := h.entries_eq
  order := h.order
  complete n hn := by
    subst hn
    cases hends with
    | committed => exact h.complete _ rfl
  found n hn := by
    subst hn
    cases hends with
    | committed => exact h.found _ rfl
  missing x hx hneeds hzero := by
    have hresult := h.missing x hx hneeds hzero
    subst hresult
    cases hends with
    | failed => rfl

theorem Ends.eq_rollback (h : c.Ends mode (.error e) s calls outcome s') : calls = [.rollback] := by
  cases h with
  | failed => rfl

theorem Ends.commits {n : Nat} (h : c.Ends mode result s calls (.ok n) s') : c.Commits (c.history s calls) := by
  cases h with
  | committed _ hreply => exact ⟨s, List.mem_singleton_self _, hreply⟩

/-- What becomes of a save by the rows that its updates and deletes find. -/
structure GuardsRows (c : Connection σ) (commands : List Command) (s : σ) (calls : List Call)
    (outcome : Except StoreError Nat) (executed : List (Command × σ)) : Prop
    extends c.FindsRows commands ((c.history s calls).filter (isExecution ·.2)) outcome executed where
  commits : ∀ n, outcome = .ok n → c.Commits (c.history s calls)
  abandons : ∀ x ∈ executed, x.1.needsRow = true → (c.answer x.1 x.2).result = .ok 0 →
    .commit ∉ calls ∧ .rollback ∈ calls

theorem Saves.exists_guardsRows (h : c.Saves mode commands s calls outcome s') :
    ∃ executed, c.GuardsRows commands s calls outcome executed := by
  rcases h.stages with ⟨-, hframes, e, rfl⟩ |
    ⟨before, after, made, ending, s₁, s₂, s₃, result, heq, -, hframes, hexecutes, hends⟩
  · refine ⟨[], { toFindsRows := ?_, commits := fun _ hn => (by cases hn), abandons := fun _ hx => (by cases hx) }⟩
    rw [filter_isExecution (fun entry hentry => (hframes entry hentry).isExecution_eq)]
    exact .nil
  · have hbefore : before.filter (isExecution ·.2) = [] := filter_isExecution
      (fun entry hentry => (hframes entry (List.mem_append_left _ hentry)).isExecution_eq)
    have hafter : after.filter (isExecution ·.2) = [] := filter_isExecution
      (fun entry hentry => (hframes entry (List.mem_append_right _ hentry)).isExecution_eq)
    obtain ⟨executed, hrows⟩ := hexecutes.exists_findsRows
    refine ⟨executed, { toFindsRows := ?_, commits := ?_, abandons := ?_ }⟩
    · rw [heq]
      simp only [List.filter_append, hbefore, hexecutes.filter_history, hends.filter_history, hafter,
        List.nil_append, List.append_nil]
      exact hrows.ends hends
    · rintro n rfl
      obtain ⟨s₄, hmem, hreply⟩ := hends.commits
      refine ⟨s₄, ?_, hreply⟩
      rw [heq]
      exact List.mem_append_left _ (List.mem_append_right _ hmem)
    · intro x hx hneeds hzero
      have hresult := hrows.missing x hx hneeds hzero
      subst hresult
      have hrollback := hends.eq_rollback
      subst hrollback
      constructor
      · intro hcommit
        obtain ⟨s₄, hmem⟩ := mem_iff_exists_history (c := c) (s := s) |>.1 hcommit
        rw [heq] at hmem
        simp only [List.mem_append] at hmem
        rcases hmem with ((hmem | hmem) | hmem) | hmem
        · exact hframes _ (List.mem_append_left _ hmem)
        · obtain ⟨command, hcall⟩ := hexecutes.mem (mem_of_mem_history hmem)
          cases hcall
        · cases List.mem_singleton.1 hmem
        · exact hframes _ (List.mem_append_right _ hmem)
      · refine mem_iff_exists_history (c := c) (s := s) |>.2 ⟨s₂, ?_⟩
        rw [heq]
        exact List.mem_append_left _ (List.mem_append_right _ (List.mem_singleton_self _))

/-- A save that succeeds has executed every command and found a row with each update and delete, exactly one
unless more were reported. One that finds none reports the conflict and commits nothing. -/
theorem guardsRows_save (c : Connection σ) (mode : Mode) (sensitive : Bool) (batches : List Batch)
    (session : Session σ) :
    ∃ calls outcome session' executed, c.save mode sensitive batches session = (outcome, session') ∧
      session'.trace = session.trace ++ calls ∧
      c.GuardsRows batches.flatten session.state calls outcome executed := by
  obtain ⟨calls, outcome, session', hsaves, htrace, hrun⟩ := c.run_save mode sensitive batches session
  obtain ⟨executed, hguards⟩ := hsaves.exists_guardsRows
  exact ⟨calls, outcome, session', executed, hrun, htrace, hguards⟩

def blogDeletion : Command where
  entityType := ⟨0⟩
  table := "Blog"
  state := .deleted
  key := [.integer 1]
  columns := [⟨"Id", "Id", .integer 1, true, false⟩]

/-- A deletion of one blog that is reported to have deleted two is committed. -/
theorem several_rows_blogs :
    let c := Scripted.connection
    let session := Session.ofState
      (⟨"blogs.db", { Script.empty with execute := [.ok 2] }, false, false, none⟩ : Scripted)
    let saved := c.save .plain false [[blogDeletion]] session
    blogDeletion.needsRow = true ∧ saved.1 = .ok 2 ∧
      saved.2.trace =
        [.openLink, .beginTransaction, statement blogDeletion, .commit, .closeLink true] ∧
      (c.answer blogDeletion (c.final session.state [.openLink, .beginTransaction])).result = .ok 2 := by
  decide +kernel

end EntityStore.Connection
