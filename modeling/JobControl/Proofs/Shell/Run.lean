import JobControl.Proofs.Shell.Conduct

/-!
# A shell makes only steps

Whatever the shell does takes its past to a later one by steps, and leaves nothing due at the end of
an operation (`carried_reach`, `reach_perform`); so do operations one after another (`recorded_after`).

* `reach_apply`, `reach_defer`, `reach_start`, `reach_unmoved`, `reach_moved` : what is done on the
  way;
* `GoesOn` : the answers after which the shell is to go on.
-/

set_option autoImplicit false

namespace JobControl.Shell
open Past
variable {σ : Type} [Host σ] {s s' : Shell σ}

/-! ## Applying -/

theorem reach_passKey {sig : Signal} {earlier : Journal}
    (h : s.past.Just (.apply (.keyboard sig)) earlier) : s.past.Reach σ (s.passKey sig).2.past := by
  rw [passKey_snd]
  cases hf : s.jobs.foreground? with
  | none => exact .refl _
  | some target => exact (Move.key s.host h hf).reach (settled_of_journal rfl rfl)

theorem reach_apply (s : Shell σ) (n : Notification) : s.past.Reach σ (s.apply n).2.past := by
  have hnote : s.past.Reach σ (s.past.record (.apply n) (s.jobs.applied n) s.deferrals) :=
    (Move.apply n).reach (settled_of_journal rfl rfl)
  cases n with
  | child pid change =>
    rw [past_apply_child]
    exact hnote
  | keyboard sig => exact hnote.trans (reach_passKey (s := s.note (.apply (.keyboard sig))) rfl)
  | quit => exact hnote

theorem reach_drain (s : Shell σ) : s.past.Reach σ (s.note .drain).pending.2.past :=
  (Move.drain.reach (settled_of_journal rfl rfl)).trans
    ((Move.pending s.host).reach (settled_of_journal rfl rfl))

/-! ## Starting a job -/

theorem reach_defer (s : Shell σ) : s.past.Reach σ s.defer.2.past := by
  rcases hd : Host.defer s.host with ⟨answer, host⟩
  have hanswer : (Host.defer s.host).1 = answer := by rw [hd]
  unfold defer
  rw [hd]
  cases answer with
  | ok u => exact (Move.defer s.host hanswer).reach (settled_of_journal rfl rfl)
  | error err => exact (Move.deferFailed s.host hanswer).reach (settled_of_journal rfl rfl)

/-- A process that was started is entered in the table if the table admits it. -/
theorem reach_register {request : LaunchRequest} {pid : Pid}
    (hspawn : s.past.Move σ s'.past) (just : s'.past.Just (.spawn request (.ok pid)) s.journal) :
    s.past.Reach σ (s'.register request pid).2.past := by
  unfold register
  cases hadd : s'.jobs.add pid request.state request.line with
  | error reason =>
    refine hspawn.reach ?_
    rintro d (⟨just', hadd'⟩ | ⟨just', -⟩)
    · cases just.symm.trans just'
      cases hadd.symm.trans hadd'
    · cases just.symm.trans just'
  | ok answer =>
    exact hspawn.reach_owed (.register just hadd) (.register just hadd) rfl
      (settled_of_journal rfl rfl)

theorem reach_start (room : s.jobs.isFull = false) (deferred : 0 < s.deferrals)
    (request : LaunchRequest) : s.past.Reach σ (s.start request).2.past := by
  have hspawn : s.past.Move σ (s.spawn request).2.past := .spawn s.host request room deferred
  have just : (s.spawn request).2.past.Just (.spawn request (s.spawn request).1) s.journal := rfl
  rw [start_eq]
  cases hanswer : (s.spawn request).1 with
  | error e =>
    rw [hanswer] at just
    exact hspawn.reach (settled_of_journal just rfl)
  | ok pid =>
    rw [hanswer] at just
    exact reach_register hspawn just

/-! ## Resuming a job -/

section Wakes
variable {line : String} {state : Job.State} {job : Job} (wakes : s.Wakes line state job s')
include wakes

theorem reach_noted : s.past.Reach σ s'.past := by
  rw [wakes.noted.past]
  exact (Move.evaluate line).reach (settled_of_journal rfl rfl)

/-- The job that the line names is told to go on. -/
theorem Wakes.move : s'.past.Move σ (s'.signal .resume job.pid .cont).2.past := by
  obtain ⟨reference, resumes, found⟩ := wakes.named
  rw [← wakes.jobs] at found
  exact .wake s'.host wakes.just resumes found wakes.stopped

theorem reach_unmoved (hset : (s'.signal .resume job.pid .cont).1 = .ok () →
      ∀ jobs, s'.jobs.setState job.pid state ≠ .ok jobs) :
    s'.past.Reach σ (s'.signal .resume job.pid .cont).2.past := by
  obtain ⟨reference, line_resumes, -⟩ := wakes.named
  have just' := wakes.told
  refine wakes.move.reach ?_
  cases hanswer : (s'.signal .resume job.pid .cont).1 with
  | error e =>
    rw [hanswer] at just'
    exact settled_of_journal just' rfl
  | ok u =>
    rw [hanswer] at just'
    rintro d (⟨just'', -⟩ | ⟨just'', resumes, -, -, hset'⟩)
    · cases just'.symm.trans just''
    · have he := just'.symm.trans just''
      simp only [List.cons.injEq, Journal.Entry.mk.injEq, Deed.signal.injEq, Deed.evaluate.injEq]
        at he
      obtain ⟨⟨⟨-, hpid, -⟩, -⟩, ⟨rfl, -⟩, -⟩ := he
      rw [← hpid, ← (line_resumes.unique resumes).2] at hset'
      exact hset hanswer _ hset'

theorem reach_moved {jobs : Table} (hsent : (s'.signal .resume job.pid .cont).1 = .ok ())
    (hset : s'.jobs.setState job.pid state = .ok jobs) :
    s'.past.Reach σ ({ (s'.signal .resume job.pid .cont).2.note (.resume job.pid state) with
      jobs } : Shell σ).past := by
  obtain ⟨reference, line_resumes, found⟩ := wakes.named
  have just' := wakes.told
  rw [hsent] at just'
  rw [← wakes.jobs] at found
  exact wakes.move.reach_owed (.resume just' line_resumes found wakes.stopped hset)
    (.resume just' line_resumes found wakes.stopped hset) rfl (settled_of_journal rfl rfl)

end Wakes

/-! ## Operations -/

theorem carried_reach (p : Past) : Carried σ (fun _ => True) (p.Reach σ) where
  apply s n h := h.trans (s.reach_apply n)
  drain s h := h.trans s.reach_drain
  await s h :=
    h.trans ((Move.await (Host.hear s.console s.host)).reach (settled_of_journal rfl rfl))
  idle _ line h _ := h.trans ((Move.evaluate line).reach (settled_of_journal rfl rfl))
  defer s h := h.trans s.reach_defer
  start _ request h room deferred _ :=
    (h.trans (reach_start room deferred request)).trans
      (Move.release.reach (settled_of_journal rfl rfl))
  unmoved h wakes hset := (h.trans (reach_noted wakes)).trans (reach_unmoved wakes hset)
  moved h wakes hsent hset := (h.trans (reach_noted wakes)).trans (reach_moved wakes hsent hset)

/-- The shell goes on after an operation with this answer: it is to, or the failure is not fatal. -/
def GoesOn (answer : Except Error Flow) : Prop :=
  answer = .ok .continue ∨ ∃ e, answer = .error e ∧ ¬ e.isFatal

theorem reach_perform (s : Shell σ) (op : Op) : s.past.Reach σ (s.perform op).2.past :=
  (carried_reach s.past).perform (fun _ _ => trivial) (.refl _)

/-- Whatever a new shell does is recorded, and after an operation nothing is due. -/
theorem recorded_after (host : σ) (console : Console) (ops : List Op) :
    (Shell.after { host, console } ops).past.Recorded σ ∧
      (Shell.after { host, console } ops).past.Settled :=
  (carried_reach (σ := σ) ⟨[], .standard, 0⟩).after (s := { host, console }) (fun _ _ => trivial)
    (.refl _) (settled_nil _ _)

end JobControl.Shell
