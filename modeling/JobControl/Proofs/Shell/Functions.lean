import JobControl.Proofs.Shell.Past

/-!
# The functions of the shell, one by one

* `Journal.Explains` : the journal says why there is a complaint;
* `Shell.past` : what the journal is about; `past_applyChange`, `past_apply_child`,
  `past_signal`, `past_defer`;
* `passKey_snd`, `drain_eq`, `start_eq`, `launch_eq`, `continueJob_eq` : functions by the requests that
  they make;
* `takeUp` : apply the news that was fetched; `takeUp_keeps`, `error_takeUp`;
* `waitForeground_eq` : one round of waiting;
* `start_cases`, `error_launch` : how the start of a job ends;
* `resume_cases` : a `bg` or an `fg` lets a job go on or is rejected.
-/

set_option autoImplicit false

namespace JobControl

/-- The journal says why there is a complaint: a child was no job, a job was refused, news could not be
fetched, a job could not be moved on. Other complaints only answer a line. -/
def Journal.Explains (j : Journal) : Complaint → Prop
  | .strayChild pid =>
    ∃ e ∈ j, (∃ change, e.deed = .apply (.child pid change)) ∧ e.jobs.findByPid? pid = none
  | .refused reason =>
    reason = .full ∨ ∃ e ∈ j, ∃ request pid, e.deed = .spawn request (.ok pid) ∧
      e.jobs.add pid request.state request.line = .error reason
  | .failed error =>
    (∃ e ∈ j, ∃ waiting, e.deed = .fetch waiting (.error error)) ∨
      ∃ e ∈ j, ∃ pid state reason, e.deed = .signal .resume pid .cont (.ok ()) ∧
        e.jobs.setState pid state = .error reason ∧ error = .table reason
  | _ => True

theorem Journal.Explains.mono {j j' : Journal} {m : Complaint} (h : j.Explains m) (hj : j <:+ j') :
    j'.Explains m := by
  have hmem {e : Entry} (he : e ∈ j) : e ∈ j' := hj.subset he
  cases m with
  | strayChild pid =>
    obtain ⟨e, he, h⟩ := h
    exact ⟨e, hmem he, h⟩
  | refused reason => exact h.imp_right fun ⟨e, he, h⟩ => ⟨e, hmem he, h⟩
  | failed error =>
    exact h.imp (fun ⟨e, he, h⟩ => ⟨e, hmem he, h⟩) fun ⟨e, he, h⟩ => ⟨e, hmem he, h⟩
  | _ => trivial

namespace Shell
open Past
variable {σ : Type}

def past (s : Shell σ) : Past := ⟨s.journal, s.jobs, s.deferrals⟩

@[simp] theorem past_note (s : Shell σ) (d : Deed) :
    (s.note d).past = s.past.record d s.jobs s.deferrals := rfl

@[simp] theorem past_say (s : Shell σ) (n : Notice) : (s.say n).past = s.past := rfl

@[simp] theorem past_report (s : Shell σ) (n : Notice) : (s.report n).past = s.past := rfl

@[simp] theorem past_complain (s : Shell σ) (m : Complaint) : (s.complain m).past = s.past := rfl

/-! ## Changes of children -/

theorem dropJob_eq {s : Shell σ} {pid : Pid} {job : Job} (h : s.jobs.findByPid? pid = some job) :
    s.dropJob pid = { s with jobs := s.jobs.removed pid } := by
  have hr : s.jobs.remove pid = some (job, s.jobs.removed pid) :=
    Table.remove_eq_some_iff.2 ⟨h, rfl⟩
  simp [dropJob, hr]

theorem markStopped_eq {s : Shell σ} {pid : Pid} {job : Job}
    (h : s.jobs.findByPid? pid = some job) :
    s.markStopped pid = { s with jobs := s.jobs.moved pid .stopped } := by
  have hm : s.jobs.setState pid .stopped = .ok (s.jobs.moved pid .stopped) :=
    Table.setState_eq_ok_iff.2 ⟨⟨nofun, Table.found_of_findByPid? h⟩, rfl⟩
  simp [markStopped, hm]

theorem past_applyChange (s : Shell σ) (pid : Pid) (change : ChildChange) :
    (s.applyChange pid change).past =
      { s.past with jobs := s.jobs.applied (.child pid change) } := by
  unfold applyChange
  cases h : s.jobs.findByPid? pid with
  | none =>
    rw [Table.applied_of_none h]
    rfl
  | some job =>
    rw [Table.applied_of_some h]
    cases change with
    | exited code => exact congrArg past (dropJob_eq (s := s.report (.deleted job)) h)
    | signaled sig => exact congrArg past (dropJob_eq (s := s.say (.terminated job.id pid sig)) h)
    | stopped sig => exact congrArg past (markStopped_eq (s := s.say (.stopped job.id pid sig)) h)

variable [Host σ]

theorem past_apply_child (s : Shell σ) (pid : Pid) (change : ChildChange) :
    (s.apply (.child pid change)).2.past =
      s.past.record (.apply (.child pid change)) (s.jobs.applied (.child pid change))
        s.deferrals := by
  simp only [apply, react, past_applyChange]
  rfl

/-! ## News -/

theorem past_signal {s : Shell σ} {origin : Origin} {target : Pid} {sig : Signal}
    {answer : Except SystemError Unit} (h : (s.signal origin target sig).1 = answer) :
    (s.signal origin target sig).2.past =
      s.past.record (.signal origin target sig answer) s.jobs s.deferrals := by
  rw [← h]
  rfl

/-- A key is passed on to the foreground job, or to nobody. -/
theorem passKey_snd (s : Shell σ) (sig : Signal) :
    (s.passKey sig).2 =
      match s.jobs.foreground? with
      | none => s
      | some pid => (s.signal .keyboard pid sig).2 := by
  unfold passKey
  cases s.jobs.foreground? with
  | none => rfl
  | some pid =>
    dsimp only
    obtain ⟨e | u, s'⟩ := s.signal .keyboard pid sig <;> rfl

theorem fatal_passKey {s : Shell σ} {sig : Signal} {e : Error} (h : (s.passKey sig).1 = .error e) :
    e.isFatal := by
  unfold passKey at h
  split at h
  · cases h
  · split at h
    · cases h
    · cases h
      rfl

theorem fatal_applyAll {s : Shell σ} {batch : List Notification} {e : Error}
    (h : (s.applyAll batch).1 = .error e) : e.isFatal := by
  induction batch generalizing s with
  | nil => cases h
  | cons n rest ih =>
    unfold applyAll at h
    split at h
    · exact ih h
    · cases n with
      | child pid change => cases h
      | quit => cases h
      | keyboard sig => exact fatal_passKey h

theorem applyAll_keeps {K : Shell σ → Prop} (apply : ∀ s n, K s → K (s.apply n).2) {s : Shell σ}
    (h : K s) (batch : List Notification) : K (s.applyAll batch).2 := by
  induction batch generalizing s with
  | nil => exact h
  | cons n rest ih =>
    have hn := apply s n h
    unfold applyAll
    split
    · next hout => rw [hout] at hn; exact ih hn
    · exact hn

/-- Apply the news that was fetched, unless that has failed. -/
def takeUp : Except Error (List Notification) × Shell σ → Except Error Flow × Shell σ
  | (.ok batch, s) => s.applyAll batch
  | (.error e, s) => (.error e, s)

theorem takeUp_keeps {K : Shell σ → Prop} (apply : ∀ s n, K s → K (s.apply n).2)
    {fetched : Except Error (List Notification) × Shell σ} (h : K fetched.2) :
    K (takeUp fetched).2 := by
  obtain ⟨e | batch, s⟩ := fetched
  · exact h
  · exact applyAll_keeps apply h batch

/-- An error is fatal, or it is that of fetching the news. -/
theorem error_takeUp {fetched : Except Error (List Notification) × Shell σ} {e : Error}
    (h : (takeUp fetched).1 = .error e) :
    e.isFatal ∨ fetched.1 = .error e ∧ (takeUp fetched).2 = fetched.2 := by
  obtain ⟨e' | batch, s⟩ := fetched
  · cases h
    exact .inr ⟨rfl, rfl⟩
  · exact .inl (fatal_applyAll h)

theorem drain_eq (s : Shell σ) : s.drain = takeUp (s.note .drain).pending := by
  unfold drain takeUp
  obtain ⟨e | batch, s'⟩ := (s.note .drain).pending <;> rfl

/-- One round of waiting. -/
theorem waitForeground_eq (s : Shell σ) :
    s.waitForeground =
      match s.jobs.foreground? with
      | none => (.ok .continue, s)
      | some _ =>
        match takeUp s.await with
        | (.ok .continue, s) => s.waitForeground
        | stopped => stopped := by
  rw [waitForeground]
  cases s.jobs.foreground? with
  | none => rfl
  | some pid =>
    dsimp only
    split
    · next hawait => rw [hawait, takeUp]
    · next batch s' hawait =>
      rw [hawait, takeUp]
      split
      · next happly => rw [happly]
      · next hstop =>
        split
        · next happly => exact (hstop _ happly).elim
        · rfl

/-! ## Starting a job -/

theorem start_eq (s : Shell σ) (request : LaunchRequest) :
    s.start request =
      match (s.spawn request).1 with
      | .error e => (.error (.fatal "fork error" e), (s.spawn request).2)
      | .ok pid => (s.spawn request).2.register request pid := by
  unfold start
  obtain ⟨e | pid, s'⟩ := s.spawn request <;> rfl

theorem launch_eq (s : Shell σ) (request : LaunchRequest) :
    s.launch request =
      if s.jobs.isFull then (.error (.table .full), s)
      else
        match s.defer.1 with
        | .error e => (.error (.fatal "sigprocmask error" e), s.defer.2)
        | .ok () => ((s.defer.2.start request).1, (s.defer.2.start request).2.release) := by
  unfold launch
  obtain ⟨e | u, s'⟩ := s.defer <;> rfl

/-- A deferral is in force afterwards if it did not fail. -/
theorem past_defer (s : Shell σ) :
    ∃ n, s.defer.2.past = s.past.record (.defer s.defer.1) s.jobs n ∧
      (s.defer.1 = .ok () → 0 < n) := by
  unfold defer
  obtain ⟨e | u, host⟩ := Host.defer s.host
  · exact ⟨s.deferrals, rfl, nofun⟩
  · exact ⟨s.deferrals + 1, rfl, fun _ => Nat.succ_pos _⟩

/-- No process is started, or the table refuses the one that was, or it is entered there. -/
theorem start_cases (s : Shell σ) (request : LaunchRequest) :
    (∃ e, (s.start request).1 = .error (.fatal "fork error" e) ∧
      (s.start request).2.past = s.past.record (.spawn request (.error e)) s.jobs s.deferrals) ∨
    ∃ pid,
      (∃ reason, s.jobs.add pid request.state request.line = .error reason ∧
        (s.start request).1 = .error (.table reason) ∧
        (s.start request).2.past = s.past.record (.spawn request (.ok pid)) s.jobs s.deferrals) ∨
      ∃ i jobs, s.jobs.add pid request.state request.line = .ok (i, jobs) ∧
        (s.start request).1 = .ok ⟨i, pid, request.state, request.line⟩ ∧
        (s.start request).2.past =
          (s.past.record (.spawn request (.ok pid)) s.jobs s.deferrals).record
            (.register ⟨i, pid, request.state, request.line⟩) jobs s.deferrals := by
  have hpast : (s.spawn request).2.past =
    s.past.record (.spawn request (s.spawn request).1) s.jobs s.deferrals := rfl
  have hjobs : (s.spawn request).2.jobs = s.jobs := rfl
  rw [start_eq]
  cases hanswer : (s.spawn request).1 with
  | error e =>
    rw [hanswer] at hpast
    exact .inl ⟨e, rfl, hpast⟩
  | ok pid =>
    rw [hanswer] at hpast
    refine .inr ⟨pid, ?_⟩
    dsimp only
    unfold register
    rw [hjobs]
    cases hadd : s.jobs.add pid request.state request.line with
    | error reason => exact .inl ⟨reason, rfl, rfl, hpast⟩
    | ok added =>
      refine .inr ⟨added.1, added.2, rfl, rfl, ?_⟩
      rw [← hpast]
      rfl

theorem err_start (s : Shell σ) (request : LaunchRequest) :
    (s.start request).2.console.err = s.console.err := by
  rw [start_eq]
  cases (s.spawn request).1 with
  | error e => rfl
  | ok pid =>
    dsimp only
    unfold register
    split
    · rfl
    · unfold report Console.report
      dsimp only
      split <;> rfl

/-- If a job cannot be started, that is fatal, or a refusal that the journal explains. -/
theorem error_start {s : Shell σ} {request : LaunchRequest} {e : Error}
    (h : (s.start request).1 = .error e) :
    e.isFatal ∨ ∃ reason, e = .table reason ∧
      (s.start request).2.journal.Explains (.refused reason) := by
  rcases s.start_cases request with
    ⟨cause, hout, -⟩ | ⟨pid, ⟨reason, hadd, hout, hpast⟩ | ⟨i, jobs, -, hout, -⟩⟩
  · cases h.symm.trans hout
    exact .inl rfl
  · cases h.symm.trans hout
    have hjournal : (s.start request).2.journal =
      ⟨.spawn request (.ok pid), s.jobs, s.deferrals⟩ :: s.journal := congrArg Past.journal hpast
    have hhead : ⟨.spawn request (.ok pid), s.jobs, s.deferrals⟩ ∈ (s.start request).2.journal := by
      rw [hjournal]
      exact List.mem_cons_self
    exact .inr ⟨reason, rfl, .inr ⟨_, hhead, request, pid, rfl, hadd⟩⟩
  · cases h.symm.trans hout

theorem error_launch {s : Shell σ} {request : LaunchRequest} {e : Error}
    (h : (s.launch request).1 = .error e) :
    e.isFatal ∨ ∃ reason, e = .table reason ∧
      (s.launch request).2.journal.Explains (.refused reason) := by
  rw [launch_eq] at h ⊢
  split at h
  · next hfull =>
    rw [if_pos hfull]
    cases h
    exact .inr ⟨.full, rfl, .inl rfl⟩
  · next hroom =>
    rw [if_neg hroom]
    cases hdefer : s.defer.1 with
    | error cause =>
      rw [hdefer] at h
      cases h
      exact .inl rfl
    | ok u =>
      rw [hdefer] at h
      refine (error_start h).imp_right fun ⟨reason, htable, hexplains⟩ => ?_
      exact ⟨reason, htable, hexplains.mono (List.suffix_cons _ _)⟩

/-! ## Resuming a job -/

theorem continueJob_eq (s : Shell σ) (builtin : Builtin) (job : Job) (state : Job.State) :
    s.continueJob builtin job state =
      match (s.signal .resume job.pid .cont).1 with
      | .error e => (s.signal .resume job.pid .cont).2.reject (.notResumed builtin e)
      | .ok () =>
        match s.jobs.setState job.pid state with
        | .error reason => (.error (.table reason), (s.signal .resume job.pid .cont).2)
        | .ok jobs =>
          let moved := { (s.signal .resume job.pid .cont).2.note (.resume job.pid state) with jobs }
          if state = .foreground then moved.waitForeground else (.ok .continue, moved) := by
  have hjobs : (s.signal .resume job.pid .cont).2.jobs = s.jobs := rfl
  rw [← hjobs]
  unfold continueJob
  generalize s.signal .resume job.pid .cont = sent
  obtain ⟨e | u, s'⟩ := sent <;> rfl

/-- The arguments of a `bg` or an `fg` name a job that is stopped. -/
def NamesStopped (s : Shell σ) (argv : List String) (job : Job) : Prop :=
  ∃ name arg reference, argv = [name, arg] ∧ Job.Reference.parse? arg = some reference ∧
    s.jobs.find? reference = some job ∧ job.state = .stopped

/-- A `bg` or an `fg` lets the stopped job that it names go on, or is rejected. -/
theorem resume_cases (s : Shell σ) (builtin : Builtin) (state : Job.State) (argv : List String) :
    (∃ job, s.NamesStopped argv job ∧ s.resume builtin state argv =
        (if state = .background then s.say (.announced job) else s).continueJob builtin job state) ∨
      (∀ job, ¬ s.NamesStopped argv job) ∧
        ∃ m, s.resume builtin state argv = s.reject m ∧ ∀ j : Journal, j.Explains m := by
  unfold resume
  split
  · next name arg =>
    cases hparse : Job.Reference.parse? arg with
    | none =>
      refine .inr ⟨?_, _, rfl, fun _ => trivial⟩
      rintro job ⟨_, _, reference, hargv, hparse', -⟩
      cases hargv
      cases hparse.symm.trans hparse'
    | some reference =>
      have hnames {job : Job} (h : s.NamesStopped [name, arg] job) :
          s.jobs.find? reference = some job ∧ job.state = .stopped := by
        obtain ⟨_, _, reference', hargv, hparse', found, stopped⟩ := h
        cases hargv
        cases hparse.symm.trans hparse'
        exact ⟨found, stopped⟩
      dsimp only
      cases hfind : s.jobs.find? reference with
      | none =>
        refine .inr ⟨fun job h => ?_, _, rfl, fun _ => trivial⟩
        cases hfind.symm.trans (hnames h).1
      | some job =>
        dsimp only
        by_cases hstopped : job.state = .stopped
        · refine .inl ⟨job, ⟨name, arg, reference, rfl, hparse, hfind, hstopped⟩, ?_⟩
          exact if_neg (not_not.2 hstopped)
        · refine .inr ⟨fun job' h => ?_, _, if_pos hstopped, fun _ => trivial⟩
          cases hfind.symm.trans (hnames h).1
          exact hstopped (hnames h).2
  · next hargv =>
    refine .inr ⟨?_, _, rfl, fun _ => trivial⟩
    rintro job ⟨name, arg, -, hargv', -⟩
    exact hargv name arg hargv'

end Shell
end JobControl
