import JobControl.Proofs.Shell.Run

/-!
# The lines of jobs

A job in the table has the line that was evaluated when it was started.

* `Table.Lines`, `Past.Lines` : the lines of all jobs are of some kind, now and at every moment;
* `Lines.placed`, `removed`, `moved`, `applied` : only a new job brings a new line;
* `Shell.carried_lines` : so a shell that evaluates lines of some kind has only jobs with lines of that
  kind.
-/

set_option autoImplicit false

namespace JobControl
variable {P : String → Prop}

def Table.Lines (P : String → Prop) (t : Table) : Prop := ∀ k ∈ t.jobs, P k.line

namespace Table.Lines
variable {t : Table} {pid : Pid}

theorem placed (h : t.Lines P) (free : t.isFull = false) {j : Job} (hj : P j.line) :
    (t.placed j).Lines P := by
  intro k hk
  rcases List.mem_cons.1 ((jobs_placed free j).mem_iff.1 hk) with rfl | hk
  · exact hj
  · exact h k hk

theorem removed (h : t.Lines P) {j : Job} (hfind : t.findByPid? pid = some j) :
    (t.removed pid).Lines P := by
  obtain ⟨before, after, hjobs, -, hremoved⟩ := jobs_removed hfind
  rw [Lines, hjobs] at h
  rw [Lines, hremoved]
  intro k hk
  exact h k (by simp at hk ⊢; tauto)

theorem moved (h : t.Lines P) (found : ∃ k ∈ t.jobs, k.pid = pid) (state : Job.State) :
    (t.moved pid state).Lines P := by
  obtain ⟨before, k, after, hjobs, -, -, hmoved⟩ := jobs_moved found state
  rw [Lines, hjobs, List.forall_mem_append, List.forall_mem_cons] at h
  rw [Lines, hmoved, List.forall_mem_append, List.forall_mem_cons]
  exact h

theorem applied (h : t.Lines P) (n : Notification) : (t.applied n).Lines P := by
  rcases t.applied_cases n with he | ⟨pid, job, hfind, he | he⟩ <;> rw [he]
  · exact h
  · exact h.removed hfind
  · exact h.moved (found_of_findByPid? hfind) .stopped

end Table.Lines

namespace Past

/-- The lines of all jobs, now and earlier, are of this kind. -/
structure Lines (P : String → Prop) (p : Past) : Prop where
  now : p.jobs.Lines P
  before : ∀ e ∈ p.journal, e.jobs.Lines P

theorem Lines.includes {p q : Past} (h : p.Lines P) (hq : p.Includes q) : q.jobs.Lines P := by
  cases hq with
  | now => exact h.now
  | before hj => exact h.before _ (by rw [hj]; simp)

theorem Lines.record {p : Past} (h : p.Lines P) (deed : Deed) {jobs : Table} (hjobs : jobs.Lines P)
    (deferrals : Nat) : (p.record deed jobs deferrals).Lines P :=
  ⟨hjobs, List.forall_mem_cons.2 ⟨h.now, h.before⟩⟩

end Past

namespace Shell
variable {σ : Type} [Host σ] {s s' : Shell σ}

theorem lines_apply (h : s.past.Lines P) (n : Notification) : (s.apply n).2.past.Lines P := by
  cases n with
  | child pid change =>
    rw [past_apply_child]
    exact h.record _ (h.now.applied _) _
  | keyboard sig =>
    have hnote := h.record (.apply (.keyboard sig)) h.now s.deferrals
    rw [apply, react, passKey_snd]
    split
    · exact hnote
    · exact hnote.record _ hnote.now _
  | quit => exact h.record _ h.now _

theorem lines_start (h : s.past.Lines P) {request : LaunchRequest} (room : s.jobs.isFull = false)
    (hline : P request.line) : (s.start request).2.past.Lines P := by
  rcases s.start_cases request with
    ⟨e, -, hpast⟩ | ⟨pid, ⟨reason, -, -, hpast⟩ | ⟨i, jobs, hadd, -, hpast⟩⟩ <;> rw [hpast]
  · exact h.record _ h.now _
  · exact h.record _ h.now _
  · obtain ⟨-, -, rfl⟩ := Table.add_eq_ok_iff.1 hadd
    exact (h.record _ h.now _).record _ (h.now.placed room hline) _

theorem lines_wakes (h : s.past.Lines P) {line : String} {state : Job.State} {job : Job}
    (wakes : s.Wakes line state job s') : (s'.signal .resume job.pid .cont).2.past.Lines P := by
  have hnoted : s'.past.Lines P := by
    rw [wakes.noted.past]
    exact h.record _ h.now _
  exact hnoted.record _ hnoted.now _

/-- A shell that evaluates lines of some kind enters only jobs with lines of that kind. -/
theorem carried_lines (P : String → Prop) : Carried σ P (Past.Lines P) where
  apply _ n h := lines_apply h n
  drain s h := (h.record .drain h.now _).record _ h.now _
  await s h := h.record _ h.now _
  idle _ line h _ := h.record _ h.now _
  defer s h := by
    obtain ⟨n, hpast, -⟩ := s.past_defer
    rw [hpast]
    exact h.record _ h.now _
  start s request h room _ hline := by
    have hstart := lines_start h room hline
    exact hstart.record _ hstart.now _
  unmoved h wakes _ := lines_wakes h wakes
  moved h wakes _ hset := by
    obtain ⟨moves, rfl⟩ := Table.setState_eq_ok_iff.1 hset
    have hsignal := lines_wakes h wakes
    exact hsignal.record _ (hsignal.now.moved moves.found _) _

end Shell
end JobControl
