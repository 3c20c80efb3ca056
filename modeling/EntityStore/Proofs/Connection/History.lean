import EntityStore.Connection.Scripted
import EntityStore.Engine.Link
import EntityStore.Proofs.Connection.Session

/-!
# Connections along their calls

The states that a connection goes through as calls are made on it, and what every connection
promises about being open and about the caller's cancellation.
-/

namespace EntityStore.Connection

variable {σ : Type} (c : Connection σ)

def after (s : σ) : Call → σ
  | .connect => c.connect s
  | .openLink => (c.openLink s).state
  | .closeLink _ => (c.closeLink s).state
  | .beginTransaction => (c.beginTransaction s).state
  | .commit => (c.commit s).state
  | .rollback => (c.rollback s).state
  | .probeDatabase => (c.databaseExists s).state
  | .probeTables => (c.hasTables s).state
  | .createDatabase => (c.createDatabase s).state
  | .deleteDatabase => (c.deleteDatabase s).state
  | .execute sql parameters => (c.execute sql parameters s).state
  | .query sql parameters => (c.query sql parameters s).state
  | .wait _ => s

def final (s : σ) (calls : List Call) : σ := calls.foldl c.after s

def history : σ → List Call → List (σ × Call)
  | _, [] => []
  | s, call :: rest => (s, call) :: history (c.after s call) rest

/-- A connection that was asked to open is closed by the last of some calls, or else the open is itself
the last one and has failed. -/
def ClosesLast (calls : List Call) (s : σ) : Prop :=
  .openLink ∈ calls →
    (∃ earlier wasOpen before, calls = earlier ++ [.closeLink wasOpen] ∧ s = (c.closeLink before).state) ∨
      ∃ earlier before e, calls = earlier ++ [.openLink] ∧ .openLink ∉ earlier ∧
        (c.openLink before).result = .error e ∧ s = (c.openLink before).state

/-- What a connection promises about being open. -/
structure Lawful : Prop where
  connected (s : σ) : c.isOpen (c.connect s) = false
  opened (s : σ) : (c.openLink s).result = .ok () → c.isOpen (c.openLink s).state = true
  refused (s : σ) (e : StoreError) : c.isOpen s = false → (c.openLink s).result = .error e →
    c.isOpen (c.openLink s).state = false
  closed (s : σ) : c.isOpen (c.closeLink s).state = false

/-- Who has given up does not come back, whatever is called. -/
def Irrevocable : Prop := ∀ s call, c.isCancelled s = true → c.isCancelled (c.after s call) = true

variable {c}

theorem ClosesLast.of_not_mem {calls : List Call} {s : σ} (h : .openLink ∉ calls) : c.ClosesLast calls s :=
  fun hopen => absurd hopen h

theorem ClosesLast.of_closeLink (earlier : List Call) (wasOpen : Bool) (before : σ) :
    c.ClosesLast (earlier ++ [.closeLink wasOpen]) (c.closeLink before).state :=
  fun _ => .inl ⟨earlier, wasOpen, before, rfl, rfl⟩

theorem ClosesLast.of_refused {earlier : List Call} {before : σ} {e : StoreError} (h : .openLink ∉ earlier)
    (hreply : (c.openLink before).result = .error e) :
    c.ClosesLast (earlier ++ [.openLink]) (c.openLink before).state :=
  fun _ => .inr ⟨earlier, before, e, rfl, h, hreply, rfl⟩

@[simp] theorem final_nil (s : σ) : c.final s [] = s := rfl

@[simp] theorem final_cons (s : σ) (call : Call) (rest : List Call) :
    c.final s (call :: rest) = c.final (c.after s call) rest := rfl

@[simp] theorem final_append (s : σ) (calls rest : List Call) :
    c.final s (calls ++ rest) = c.final (c.final s calls) rest := List.foldl_append

@[simp] theorem history_nil (s : σ) : c.history s [] = [] := rfl

@[simp] theorem history_cons (s : σ) (call : Call) (rest : List Call) :
    c.history s (call :: rest) = (s, call) :: c.history (c.after s call) rest := rfl

@[simp] theorem history_append (s : σ) (calls rest : List Call) :
    c.history s (calls ++ rest) = c.history s calls ++ c.history (c.final s calls) rest := by
  induction calls generalizing s with
  | nil => rfl
  | cons call calls ih => simp [ih]

theorem map_snd_history (s : σ) (calls : List Call) : (c.history s calls).map Prod.snd = calls := by
  induction calls generalizing s with
  | nil => rfl
  | cons call rest ih => simp [ih]

theorem mem_iff_exists_history {s : σ} {calls : List Call} {call : Call} :
    call ∈ calls ↔ ∃ s', (s', call) ∈ c.history s calls := by
  constructor
  · intro h
    rw [← map_snd_history (c := c) s calls] at h
    obtain ⟨⟨s', _⟩, hentry, rfl⟩ := List.mem_map.mp h
    exact ⟨s', hentry⟩
  · rintro ⟨s', hentry⟩
    rw [← map_snd_history (c := c) s calls]
    exact List.mem_map_of_mem (f := Prod.snd) hentry

theorem mem_of_mem_history {s : σ} {calls : List Call} {entry : σ × Call}
    (h : entry ∈ c.history s calls) : entry.2 ∈ calls :=
  mem_iff_exists_history.mpr ⟨entry.1, h⟩

theorem Irrevocable.of_mem (h : c.Irrevocable) {s : σ} {calls : List Call} {entry : σ × Call}
    (hentry : entry ∈ c.history s calls) (hs : c.isCancelled s = true) :
    c.isCancelled entry.1 = true := by
  induction calls generalizing s with
  | nil => cases hentry
  | cons call rest ih =>
    rcases List.mem_cons.mp hentry with rfl | hrest
    · exact hs
    · exact ih hrest (h s call hs)

theorem Irrevocable.pairwise (h : c.Irrevocable) (s : σ) (calls : List Call) :
    (c.history s calls).Pairwise
      (fun earlier later => c.isCancelled earlier.1 = true → c.isCancelled later.1 = true) := by
  induction calls generalizing s with
  | nil => exact .nil
  | cons call rest ih =>
    refine .cons ?_ (ih (c.after s call))
    intro entry hentry hs
    exact h.of_mem hentry (h s call hs)

end EntityStore.Connection

namespace EntityStore.Scripted

@[simp] theorem isOpen_count (s : Scripted) (r : Request) : (s.count r).isOpen = s.isOpen := by
  unfold count
  split
  · rfl
  · split
    · rfl
    · split <;> rfl

theorem isCancelled_count {s : Scripted} (h : s.isCancelled = true) (r : Request) :
    (s.count r).isCancelled = true := by
  unfold count
  split
  · exact h
  · split
    · exact h
    · split
      · rfl
      · exact h

theorem lawful_connection : connection.Lawful where
  connected _ := rfl
  opened s hreply := by
    change ((s.count .openLink).isOpen || (s.openLink).result.isOk) = true
    rw [show s.openLink.result = .ok () from hreply]
    exact Bool.or_true _
  refused s e hclosed hreply := by
    change ((s.count .openLink).isOpen || (s.openLink).result.isOk) = false
    rw [show s.openLink.result = .error e from hreply, isOpen_count]
    exact (Bool.or_false _).trans hclosed
  closed s := by
    change (closeLink s).state.isOpen = false
    unfold closeLink
    split
    · rfl
    · rename_i hclosed
      exact Bool.eq_false_iff.mpr hclosed

theorem irrevocable_connection : connection.Irrevocable := by
  intro s call h
  cases call with
  | closeLink =>
    change (closeLink s).state.isCancelled = true
    unfold closeLink
    split
    · exact isCancelled_count h _
    · exact h
  | wait => exact h
  | _ => exact isCancelled_count h _

end EntityStore.Scripted

namespace EntityStore.Engine.Link

theorem lawful_connection : connection.Lawful where
  connected _ := rfl
  opened l hreply := by
    change l.openLink.state.isOpen = true
    change l.openLink.result = .ok () at hreply
    unfold openLink at hreply ⊢
    split
    · rename_i hopen
      simp [ok, isOpen, hopen]
    · split
      · rfl
      · simp_all [refuse]
  refused l e hclosed hreply := by
    change l.openLink.state.isOpen = false
    change l.openLink.result = .error e at hreply
    unfold openLink at hreply ⊢
    split
    · simp_all [ok]
    · split
      · simp_all [ok]
      · exact hclosed
  closed l := by
    change l.closeLink.state.isOpen = false
    unfold closeLink
    split
    · rfl
    · rename_i hclosed
      simp [ok, isOpen, hclosed]

end EntityStore.Engine.Link
