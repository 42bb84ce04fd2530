import JobControl.Proofs.Shell.Lifecycle

/-!
# Starting a job is all or nothing

* `Journal.started` : the processes that were started;
* `Shell.AllOrNothing` : a launch that fails starts no process and leaves the table alone, one that
  starts a process adds its job to the table;
* `Shell.launch_cases` : all the ways in which a launch can end;
* `Table.add_eq_busy` : a table with a job in the foreground refuses a second one;
* `Shell.launch_all_or_nothing_iff` : a launch is all or nothing unless a process is started for the
  foreground while another job is there.
-/

set_option autoImplicit false

namespace JobControl
open List

def Journal.started (j : Journal) : List Pid := j.filterMap fun e => e.deed.started?

/-! ## The table -/

namespace Table
variable {t : Table} {pid : Pid} {state : Job.State}

theorem add_eq_busy (valid : pid.Valid) {owner : Pid} (busy : t.foreground? = some owner)
    (line : String) : t.add pid .foreground line = .error (.foregroundBusy owner) := by
  simp [add, valid, busy]

end Table

/-! ## The launch -/

namespace Shell
variable {σ : Type} [Host σ]

/-- A launch on `s` that ended with `r` either started no process and left the table alone, or
started one and added its job. -/
structure AllOrNothing (s : Shell σ) (request : LaunchRequest) (r : Except Error Job × Shell σ) :
    Prop where
  failed : ∀ e, r.1 = .error e → r.2.journal.started = s.journal.started ∧ r.2.jobs = s.jobs
  started : ∀ pid, r.2.journal.started = pid :: s.journal.started →
    ∃ i, r.1 = .ok ⟨i, pid, request.state, request.line⟩ ∧
      r.2.jobs.jobs ~ ⟨i, pid, request.state, request.line⟩ :: s.jobs.jobs

/-- A launch starts no process, or the table is asked to add the one that it started. -/
theorem launch_cases (s : Shell σ) (request : LaunchRequest) :
    (∃ e, (s.launch request).1 = .error e ∧ (s.launch request).2.jobs = s.jobs ∧
      (s.launch request).2.journal.started = s.journal.started) ∨
    ∃ pid, (Host.spawn request (Host.defer s.host).2).1 = .ok pid ∧ s.jobs.isFull = false ∧
      (s.launch request).2.journal.started = pid :: s.journal.started ∧
      ((∃ reason, s.jobs.add pid request.state request.line = .error reason ∧
          (s.launch request).1 = .error (.table reason) ∧ (s.launch request).2.jobs = s.jobs) ∨
        ∃ i jobs, s.jobs.add pid request.state request.line = .ok (i, jobs) ∧
          (s.launch request).1 = .ok ⟨i, pid, request.state, request.line⟩ ∧
          (s.launch request).2.jobs = jobs) := by
  unfold launch
  split
  · exact .inl ⟨_, rfl, rfl, rfl⟩
  · next hfull =>
    have hfree : s.jobs.isFull = false := by simpa using hfull
    unfold defer
    rcases Host.defer s.host with ⟨answer, host⟩
    cases answer with
    | error e => exact .inl ⟨_, rfl, rfl, rfl⟩
    | ok u =>
      dsimp only [start, spawn]
      rcases hspawn : Host.spawn request host with ⟨answer, host'⟩
      cases answer with
      | error e => exact .inl ⟨_, rfl, rfl, rfl⟩
      | ok pid =>
        refine .inr ⟨pid, rfl, hfree, ?_⟩
        dsimp only [register, note]
        cases hadd : s.jobs.add pid request.state request.line with
        | error reason => exact ⟨rfl, .inl ⟨reason, rfl, rfl, rfl⟩⟩
        | ok answer => exact ⟨rfl, .inr ⟨answer.1, answer.2, rfl, rfl, rfl⟩⟩

/-- **Starting a job.** On a host that starts valid processes, a launch is all or nothing unless it
starts a process for the foreground while another job is there. -/
theorem launch_all_or_nothing_iff {c : Nat} (pos : 1 ≤ c) (s : Shell σ)
    (reachable : s.jobs.Reachable c) (request : LaunchRequest)
    (valid : ∀ pid, (Host.spawn request (Host.defer s.host).2).1 = .ok pid → pid.Valid) :
    AllOrNothing s request (s.launch request) ↔
      ¬ (request.state = .foreground ∧ s.jobs.foreground?.isSome ∧
        (s.launch request).2.journal.started ≠ s.journal.started) := by
  constructor
  · rintro whole ⟨hstate, hbusy, hstarted⟩
    rcases s.launch_cases request with ⟨e, -, -, hnone⟩ | ⟨pid, hspawn, -, -, hend⟩
    · exact hstarted hnone
    · obtain ⟨owner, howner⟩ := Option.isSome_iff_exists.1 hbusy
      have hadd := Table.add_eq_busy (valid pid hspawn) howner request.line
      rw [← hstate] at hadd
      rcases hend with ⟨reason, -, herr, -⟩ | ⟨i, jobs, hok, -, -⟩
      · exact hstarted (whole.failed _ herr).1
      · rw [hadd] at hok
        cases hok
  · intro hcalm
    rcases s.launch_cases request with ⟨e, herr, hjobs, hnone⟩ | ⟨pid, hspawn, hfree, hstarted, hend⟩
    · refine ⟨fun _ _ => ⟨hnone, hjobs⟩, fun pid hpid => ?_⟩
      rw [hnone] at hpid
      exact absurd hpid.symm (List.cons_ne_self _ _)
    · have admits : s.jobs.Admits pid request.state := by
        refine ⟨valid pid hspawn, fun hstate => ?_, hfree⟩
        by_contra hbusy
        refine hcalm ⟨hstate, Option.isSome_iff_ne_none.2 hbusy, ?_⟩
        rw [hstarted]
        exact List.cons_ne_self _ _
      obtain ⟨i, hadd⟩ := (reachable.sound pos).exists_add admits request.line
      rw [hadd] at hend
      rcases hend with ⟨reason, herr, -, -⟩ | ⟨i', jobs, hok, hjob, hjobs⟩
      · cases herr
      · obtain ⟨rfl, rfl⟩ := Prod.mk.inj (Except.ok.inj hok)
        refine ⟨fun e he => ?_, fun pid' hpid' => ?_⟩
        · rw [hjob] at he
          cases he
        · rw [hstarted] at hpid'
          obtain ⟨rfl, -⟩ := List.cons.inj hpid'
          refine ⟨i, hjob, ?_⟩
          rw [hjobs]
          exact Table.jobs_placed hfree _

/-- A job that starts in the background is added beside one in the foreground. -/
theorem launch_all_or_nothing_background :
    let s : Shell Scripted := (launch { host := {} } { argv := ["cat"], line := "cat" }).2
    let request : LaunchRequest := { argv := ["sleep"], background := true, line := "sleep &" }
    (1 ≤ 16 ∧ s.jobs.Reachable 16 ∧
      (∀ pid, (Host.spawn request (Host.defer s.host).2).1 = .ok pid → pid.Valid) ∧
      s.jobs.foreground? = some ⟨1000⟩ ∧ (s.launch request).2.journal.started = [⟨1001⟩, ⟨1000⟩]) ∧
    AllOrNothing s request (s.launch request) := by
  intro s request
  have reachable : s.jobs.Reachable 16 := ⟨[.add ⟨1000⟩ .foreground "cat"], rfl⟩
  have valid : ∀ pid, (Host.spawn request (Host.defer s.host).2).1 = .ok pid → pid.Valid := by
    intro pid hpid
    obtain rfl : ⟨1001⟩ = pid := Except.ok.inj hpid
    decide
  refine ⟨⟨by decide, reachable, valid, rfl, rfl⟩, ?_⟩
  exact (launch_all_or_nothing_iff (by decide) s reachable request valid).2 fun h => nomatch h.1

/-- A second job for the foreground is refused when its process is already there, and no job of the
table has that process. -/
theorem launch_second_foreground_strays :
    let s : Shell Scripted := (launch { host := {} } { argv := ["cat"], line := "cat" }).2
    let request : LaunchRequest := { argv := ["sleep", "5"], line := "sleep 5" }
    s.jobs.Reachable 16 ∧ (s.launch request).1 = .error (.table (.foregroundBusy ⟨1000⟩)) ∧
      s.journal.started = [⟨1000⟩] ∧ (s.launch request).2.journal.started = [⟨1001⟩, ⟨1000⟩] ∧
      (s.launch request).2.jobs.jobs = [⟨1, ⟨1000⟩, .foreground, "cat"⟩] ∧
      ¬ AllOrNothing s request (s.launch request) := by
  intro s request
  refine ⟨⟨[.add ⟨1000⟩ .foreground "cat"], rfl⟩, rfl, rfl, rfl, rfl, fun whole => ?_⟩
  have hsame : (s.launch request).2.journal.started = s.journal.started := (whole.failed _ rfl).1
  cases hsame

end Shell
end JobControl
