import EntityStore.Proofs.Connection.Cancellation
import EntityStore.Proofs.Connection.Creation
import EntityStore.Proofs.Connection.Effects

/-!
# Releasing connections

An operation gets at most one connection. If it opens this connection, it closes it as its last call,
unless the open itself is the last call and has failed. So no transaction outlives the operation, and a
connection that says that it is open only from an open that succeeds to the next close says after the
operation that it is not.
-/

namespace EntityStore.Connection

open Run

variable {σ α β : Type}

/-- What it means for a connection to be open: an open that succeeds begins it and the next close ends it.
A failed open leaves the connection closed, and no other request opens one. -/
structure OpensOnDemand (c : Connection σ) : Prop where
  connected (s : σ) : c.isOpen (c.connect s) = false
  closed (s : σ) : c.isOpen (c.closeLink s).state = false
  refused (s : σ) (e : StoreError) : c.isOpen s = false → (c.openLink s).result = .error e →
    c.isOpen (c.openLink s).state = false
  kept (s : σ) (call : Call) : call ≠ .openLink → c.isOpen s = false → c.isOpen (c.after s call) = false

def EndsTransaction : Call → Prop
  | .commit | .rollback | .closeLink _ => True
  | _ => False

/-- What the calls of an operation leave behind in the state after them. -/
structure Released (c : Connection σ) (calls : List Call) (s : σ) : Prop where
  fresh : calls = [] ∨ ∃ rest, calls = .connect :: rest ∧ .connect ∉ rest
  /-- By its calls the connection is not open, whatever it answers. -/
  closes : c.ClosesLast calls s
  /-- What follows the begin of a transaction ends it, unless the begin is the last call and has failed. -/
  ended : ∀ earlier later, calls = earlier ++ .beginTransaction :: later →
    (∃ call ∈ later, EndsTransaction call) ∨
      later = [] ∧ ∃ before e, (c.beginTransaction before).result = .error e ∧
        s = (c.beginTransaction before).state
  /-- By its own account it is not open either, if that follows the calls. An operation without calls has
  got no connection. -/
  closed : c.OpensOnDemand → calls ≠ [] → c.isOpen s = false

/-- Whatever the session that it starts from, a program leaves nothing behind. -/
def Releases (c : Connection σ) (r : Run σ α) : Prop :=
  ∀ session, ∃ calls, (r session).2.trace = session.trace ++ calls ∧
    c.Released calls (r session).2.state

def Passing (call : Call) : Prop := call ≠ .connect ∧ call ≠ .beginTransaction

variable {c : Connection σ}

theorem subset_later {front back earlier later : List Call} {call : Call}
    (heq : front ++ back = earlier ++ call :: later) (hback : call ∉ back) : back ⊆ later := by
  rcases List.append_eq_append_iff.1 heq with ⟨between, -, rfl⟩ | ⟨between, -, hlater⟩
  · exact absurd (List.mem_append_right _ List.mem_cons_self) hback
  · cases between with
    | nil =>
      rw [List.nil_append] at hlater
      exact absurd (hlater ▸ List.mem_cons_self) hback
    | cons _ rest =>
      obtain ⟨-, rfl⟩ := List.cons.inj hlater
      exact List.subset_append_right rest back

theorem Released.nil (s : σ) : c.Released [] s where
  fresh := .inl rfl
  closes := .of_not_mem List.not_mem_nil
  ended earlier _ heq :=
    absurd heq.symm (List.append_ne_nil_of_right_ne_nil earlier (List.cons_ne_nil _ _))
  closed _ h := absurd rfl h

theorem Released.of_passing {calls : List Call} {s : σ} (hcalls : ∀ call ∈ calls, Passing call)
    (hcloses : c.ClosesLast (.connect :: calls) s) (hclosed : c.OpensOnDemand → c.isOpen s = false) :
    c.Released (.connect :: calls) s where
  fresh := .inr ⟨calls, rfl, fun hconnect => (hcalls _ hconnect).1 rfl⟩
  closes := hcloses
  ended earlier later heq := by
    have hbegin : .beginTransaction ∈ Call.connect :: calls := by
      rw [heq]
      exact List.mem_append_right _ List.mem_cons_self
    rcases List.mem_cons.1 hbegin with hhere | hrest
    · cases hhere
    · exact absurd rfl (hcalls _ hrest).2
  closed hopens _ := hclosed hopens

theorem Released.of_refused {before : σ} {e : StoreError} (hreply : (c.openLink before).result = .error e)
    (hclosed : c.OpensOnDemand → c.isOpen before = false) :
    c.Released [.connect, .openLink] (c.openLink before).state := by
  have hconnect : Call.openLink ∉ [Call.connect] := by decide
  refine .of_passing (List.forall_mem_singleton.2 ⟨nofun, nofun⟩) (.of_refused hconnect hreply) ?_
  exact fun hopens => hopens.refused before e (hclosed hopens) hreply

theorem Released.of_closeLink {calls : List Call} {wasOpen : Bool} (before : σ)
    (hcalls : ∀ call ∈ calls, call ≠ .connect) :
    c.Released (.connect :: (calls ++ [.closeLink wasOpen])) (c.closeLink before).state where
  fresh := by
    refine .inr ⟨_, rfl, fun hconnect => ?_⟩
    rcases List.mem_append.1 hconnect with hearlier | hlast
    · exact hcalls _ hearlier rfl
    · cases List.mem_singleton.1 hlast
  closes := .of_closeLink (.connect :: calls) wasOpen before
  ended earlier later heq := by
    rw [← List.cons_append] at heq
    have hlater : [Call.closeLink wasOpen] ⊆ later := subset_later heq (by simp)
    exact .inl ⟨_, hlater (List.mem_singleton_self _), trivial⟩
  closed hopens _ := hopens.closed before

def Unmoved (before after : Session σ) : Prop :=
  after.trace = before.trace ∧ after.state = before.state

instance : Std.Refl (Unmoved : Session σ → Session σ → Prop) where
  refl _ := ⟨rfl, rfl⟩

instance : IsTrans (Session σ) Unmoved where
  trans _ _ _ h h' := ⟨h'.1.trans h.1, h'.2.trans h.2⟩

abbrev Silent (r : Run σ α) : Prop := Relates Unmoved r

theorem silent_log (events : List LogEvent) : Silent (Run.log events : Run σ Unit) :=
  fun _ => ⟨rfl, rfl⟩

theorem Releases.after {x : Run σ α} (h : Silent x) {f : α → Run σ β} (hf : ∀ a, c.Releases (f a)) :
    c.Releases (x >>= f) := by
  intro session
  obtain ⟨htrace, hstate⟩ := h session
  rw [Run.run_bind]
  generalize x session = ended at htrace hstate
  obtain ⟨outcome, session'⟩ := ended
  cases outcome with
  | ok a => exact htrace ▸ hf a session'
  | error e => exact ⟨[], htrace.trans (List.append_nil _).symm, .nil _⟩

theorem Releases.bind {x : Run σ α} (h : c.Releases x) {f : α → Run σ β} (hf : ∀ a, Silent (f a)) :
    c.Releases (x >>= f) := by
  intro session
  obtain ⟨calls, htrace, hreleased⟩ := h session
  rw [Run.run_bind]
  generalize x session = ended at htrace hreleased
  obtain ⟨outcome, session'⟩ := ended
  cases outcome with
  | ok a =>
    obtain ⟨htrace', hstate'⟩ := hf a session'
    exact ⟨calls, htrace'.trans htrace, hstate'.symm ▸ hreleased⟩
  | error e => exact ⟨calls, htrace, hreleased⟩

theorem Releases.logged {r : Run σ α} (h : c.Releases r) (store operation : String) :
    c.Releases (Run.logged store operation r) := by
  have hattempt : c.Releases (Run.attempt r) := h
  refine hattempt.bind (fun outcome => ?_)
  cases outcome with
  | ok a => exact .pure a
  | error e => exact (silent_log _).bind (fun _ => .throw e)

abbrev Makes (P : Call → Prop) (r : Run σ α) : Prop := Confined P (fun _ => True) r

theorem makes_call {P : Call → Prop} {call : Call} {f : σ → Reply σ α} (h : P call) :
    Makes P (Run.call call f) := Confined.call h (fun _ _ _ => trivial)

theorem makes_close {P : Call → Prop} (h : ∀ wasOpen, P (.closeLink wasOpen)) : Makes P c.close :=
  confined_close h (fun _ _ _ => trivial)

theorem makes_probe (created : Bool) : Makes Passing (c.probe created) := by
  have hopen (created : Bool) :
      Makes Passing (do let opened ← Run.attempt c.start; return (opened, created)) :=
    (makes_call ⟨nofun, nofun⟩).attempt.bind (fun _ => .pure _)
  have hprobe : Makes Passing (Run.call .probeDatabase c.databaseExists) := makes_call ⟨nofun, nofun⟩
  have hcreate : Makes Passing (Run.call .createDatabase c.createDatabase) := makes_call ⟨nofun, nofun⟩
  refine hprobe.attempt.bind (fun present => ?_)
  cases present with
  | error e => exact .pure _
  | ok present =>
    cases present with
    | true => exact hopen created
    | false =>
      refine hcreate.attempt.bind (fun made => ?_)
      cases made with
      | error e => exact .pure _
      | ok => exact hopen true

theorem makes_createWith (left : Nat) (retry : RetryState) (created : Bool) :
    Makes Passing (c.createWith left retry created) := by
  have hclose : Makes Passing c.close := makes_close (fun _ => ⟨nofun, nofun⟩)
  induction left generalizing retry created with
  | zero => exact .throw _
  | succ left ih =>
    refine (makes_probe created).bind (fun probed => ?_)
    obtain ⟨outcome, created⟩ := probed
    simp only
    generalize retry.beginAttempt.next outcome = decided
    obtain ⟨step, retry, events⟩ := decided
    refine (Confined.log (fun _ _ => trivial)).bind (fun _ => ?_)
    cases step with
    | done => exact .pure created
    | fail e => exact hclose.bind (fun _ => .throw e)
    | wait delay =>
      refine hclose.bind (fun _ => ?_)
      exact (Confined.wait ⟨nofun, nofun⟩).bind (fun _ => ih retry created)

end EntityStore.Connection

namespace EntityStore.Scripted

end EntityStore.Scripted

namespace EntityStore.Engine.Link

end EntityStore.Engine.Link
