import JobControl.Proofs.Shell.Waiting

/-!
# Resuming a job, signal and table together

* `Continues` : all the ways in which telling a job to go on can end; `continues_eval` : a `bg` or an
  `fg` of a stopped job ends in one of them;
* `waits_of_moved` : a job moved to the foreground is waited for;
* `Together` : a `bg` or an `fg` that sends the signal moves the job, one that is refused does neither;
* `Strays` : an `fg` sends the signal while another job is in the foreground;
* `resumes_together_iff` : there, and only there, the one happens without the other.
-/

set_option autoImplicit false

namespace JobControl.Shell
variable {σ : Type} [Host σ] {s : Shell σ}

/-! ## Telling a job to go on -/

/-- How telling a job to go on in `state` can end, after `before` on `s`. -/
inductive Continues (s : Shell σ) (before : List Deed) (job : Job) (state : Job.State)
    (r : Except Error Flow × Shell σ) : Prop where
  | unsent {e : SystemError} : (Host.signalGroup job.pid .cont s.host).1 = .error e →
      r.2.jobs = s.jobs → r.2.journal.deeds =
        s.journal.deeds ++ (before ++ [.signal .resume job.pid .cont (.error e)]) →
      Continues s before job state r
  | refused {reason : Table.Refusal} : (Host.signalGroup job.pid .cont s.host).1 = .ok () →
      s.jobs.setState job.pid state = .error reason → r.1 = .error (.table reason) →
      r.2.jobs = s.jobs → r.2.journal.deeds =
        s.journal.deeds ++ (before ++ [.signal .resume job.pid .cont (.ok ())]) →
      Continues s before job state r
  /-- The job moves, and is waited for if it is in the foreground now. -/
  | moved {moved : Shell σ} : s.jobs.setState job.pid state = .ok moved.jobs →
      moved.journal.deeds = s.journal.deeds ++
        (before ++ [.signal .resume job.pid .cont (.ok ()), .resume job.pid state]) →
      r = (if state = .foreground then moved.waitForeground else (.ok .continue, moved)) →
      Continues s before job state r

/-- To tell a job comes after all that has changed neither the host nor the table. -/
theorem Continues.after {start : Shell σ} {before : List Deed} {job : Job} {state : Job.State}
    {r : Except Error Flow × Shell σ} (h : start.Continues [] job state r)
    (host : start.host = s.host) (jobs : start.jobs = s.jobs)
    (deeds : start.journal.deeds = s.journal.deeds ++ before) : s.Continues before job state r := by
  cases h with
  | unsent hanswer hjobs hdeeds =>
    exact .unsent (host ▸ hanswer) (jobs ▸ hjobs) (by simp [hdeeds, deeds])
  | refused hanswer hset hr hjobs hdeeds =>
    exact .refused (host ▸ hanswer) (jobs ▸ hset) hr (jobs ▸ hjobs) (by simp [hdeeds, deeds])
  | moved hset hdeeds hr => exact .moved (jobs ▸ hset) (by simp [hdeeds, deeds]) hr

theorem continues_continueJob (s : Shell σ) (builtin : Builtin) (job : Job) (state : Job.State) :
    s.Continues [] job state (s.continueJob builtin job state) := by
  rcases hsignal : Host.signalGroup job.pid .cont s.host with ⟨answer, host⟩
  have hanswer : (Host.signalGroup job.pid .cont s.host).1 = answer := by rw [hsignal]
  unfold continueJob signal
  rw [hsignal]
  cases answer with
  | error e => exact .unsent hanswer rfl (Journal.deeds_cons _ _)
  | ok u =>
    dsimp only [note]
    cases hset : s.jobs.setState job.pid state with
    | error reason => exact .refused hanswer hset rfl rfl (Journal.deeds_cons _ _)
    | ok jobs => exact .moved hset (by simp) rfl

omit [Host σ] in
theorem NamesStopped.mem_jobs {argv : List String} {job : Job} (h : s.NamesStopped argv job) :
    job ∈ s.jobs.jobs ∧ job.state = .stopped := by
  obtain ⟨-, -, reference, -, -, found, stopped⟩ := h
  exact ⟨Table.mem_jobs_of_find? found, stopped⟩

omit [Host σ] in
theorem NamesStopped.unique {argv : List String} {job job' : Job} (h : s.NamesStopped argv job)
    (h' : s.NamesStopped argv job') : job = job' := by
  obtain ⟨name, arg, reference, rfl, hparse, hfind, -⟩ := h
  obtain ⟨name', arg', reference', hargv, hparse', hfind', -⟩ := h'
  cases hargv
  cases hparse.symm.trans hparse'
  exact Option.some.inj (hfind.symm.trans hfind')

omit [Host σ] in
/-- A job that is moved to the foreground while no other is there is waited for. -/
theorem waits_of_moved {t : Table} (sound : t.Sound) (distinct : t.Distinct) {job : Job}
    (hjob : job ∈ t.jobs) (calm : t.foreground? = none) (moves : t.Moves job.pid .foreground)
    (hjobs : s.jobs = t.moved job.pid .foreground) : s.Waits job.pid false := by
  have hmem {k : Job} : k ∈ s.jobs.jobs ↔ ∃ k' ∈ t.jobs,
      k = { k' with state := if k'.pid = job.pid then .foreground else k'.state } := by
    rw [hjobs]
    exact Table.mem_jobs_moved distinct moves.found
  have held : s.jobs.HeldBy job.pid := by
    intro k hk hstate
    obtain ⟨k', hk', rfl⟩ := hmem.1 hk
    by_contra hne
    have hne' : k'.pid ≠ job.pid := hne
    rw [if_neg hne'] at hstate
    exact Table.foreground?_eq_none.1 calm k' hk' hstate
  have hmoved : { job with state := .foreground } ∈ s.jobs.jobs :=
    hmem.2 ⟨job, hjob, by rw [if_pos rfl]⟩
  exact ⟨hjobs ▸ sound.moved moves, hjobs ▸ distinct.moved moves.found _, held,
    held.foreground?_eq hmoved rfl⟩

/-! ## Waiting for it -/

omit [Host σ] in
theorem resume_not_mem_deeds {pid target : Pid} {sig : Signal} {answer : Except SystemError Unit}
    (rounds : List Round) :
    .signal .resume target sig answer ∉ rounds.flatMap (Round.deeds pid) := by
  intro h
  obtain ⟨r, -, hr⟩ := List.mem_flatMap.1 h
  rcases List.mem_cons.1 hr with hfetch | hr
  · cases hfetch
  · obtain ⟨t, -, ht⟩ := List.mem_flatMap.1 hr
    cases t <;> simp [Taken.deeds] at ht

omit [Host σ] in
/-- No notification is answered with a refusal of the table. -/
theorem Round.Ends.answer_eq {pid : Pid} {r : Round} {reason : Table.Refusal}
    (h : r.Ends pid (some (.error (.table reason)))) : r.answer = .error (.table reason) := by
  cases h with
  | failed => rfl
  | stopped rest hgo hstop =>
    unfold Taken.stop? at hstop
    split at hstop <;> cases hstop

/-- A wait resumes no job, and is not refused by the table. -/
theorem Waits.exists_deeds {pid : Pid} (h : s.Waits pid false) :
    ∃ rest, s.waitForeground.2.journal.deeds = s.journal.deeds ++ rest ∧
      (∀ target sig answer, .signal .resume target sig answer ∉ rest) ∧
      ∀ reason, s.waitForeground.1 = .error (.table reason) →
        .fetch true (.error (.table reason)) ∈ rest := by
  obtain ⟨earlier, last, -, hlast, hpasses⟩ := h.rounds
  refine ⟨_, hpasses.deeds, fun _ _ _ => resume_not_mem_deeds _, fun reason hreason => ?_⟩
  rw [hreason] at hlast
  rw [← hlast.answer_eq]
  exact List.mem_flatMap.2 ⟨last, by simp, List.mem_cons_self⟩

/-! ## Signal and table -/

/-- A line with these arguments is refused: it names no stopped job, the signal cannot be sent, or the
table refuses the move. A wait may fail with any error, so one that a wait brought does not count. -/
inductive Refused (s : Shell σ) (argv : List String) (deeds : List Deed)
    (answer : Except Error Flow) : Prop where
  | unnamed : (∀ job, ¬ s.NamesStopped argv job) → Refused s argv deeds answer
  | unsent {pid : Pid} {e : SystemError} : .signal .resume pid .cont (.error e) ∈ deeds →
      Refused s argv deeds answer
  | table {reason : Table.Refusal} : answer = .error (.table reason) →
      .fetch true (.error (.table reason)) ∉ deeds → Refused s argv deeds answer

/-- A line that lets a job go on in `state` did both or neither: it came to these deeds and ended
with `r`. -/
structure Together (s : Shell σ) (line : String) (argv : List String) (state : Job.State)
    (deeds : List Deed) (r : Except Error Flow × Shell σ) : Prop where
  /-- The signal went to the job that is named, and the table has moved it before any wait. -/
  moved : ∀ pid, .signal .resume pid .cont (.ok ()) ∈ deeds →
    ∃ job, s.NamesStopped argv job ∧ job.pid = pid ∧ ∃ moved : Shell σ,
      s.jobs.setState pid state = .ok moved.jobs ∧ { job with state } ∈ moved.jobs.jobs ∧
      moved.journal.deeds = s.journal.deeds ++
        [.evaluate line, .signal .resume pid .cont (.ok ()), .resume pid state] ∧
      r = if state = .foreground then moved.waitForeground else (.ok .continue, moved)
  /-- A line that is refused sent no signal and left the table alone. -/
  unmoved : s.Refused argv deeds r.1 →
    (∀ pid, .signal .resume pid .cont (.ok ()) ∉ deeds) ∧ r.2.jobs = s.jobs

/-- The signal is sent to a job that is to go on in the foreground, where a job is already. -/
def Strays (s : Shell σ) (argv : List String) (state : Job.State) : Prop :=
  state = .foreground ∧ s.jobs.foreground?.isSome ∧
    ∃ job, s.NamesStopped argv job ∧ (Host.signalGroup job.pid .cont s.host).1 = .ok ()

variable {line : String} {argv : List String} {state : Job.State}

theorem together_of_unsent {deeds : List Deed} {r : Except Error Flow × Shell σ}
    (unsent : ∀ pid, .signal .resume pid .cont (.ok ()) ∉ deeds) (jobs : r.2.jobs = s.jobs) :
    s.Together line argv state deeds r :=
  ⟨fun pid hmem => absurd hmem (unsent pid), fun _ => ⟨unsent, jobs⟩⟩

omit [Host σ] in
/-- Where processes are distinct, the table moves a stopped job unless it is to go to the foreground
and a job is there. -/
theorem moves_iff {t : Table} (distinct : t.Distinct) {job : Job} (hjob : job ∈ t.jobs)
    (stopped : job.state = .stopped) (state : Job.State) :
    t.Moves job.pid state ↔ ¬ (state = .foreground ∧ t.foreground?.isSome) := by
  constructor
  · rintro moves ⟨hstate, hbusy⟩
    obtain ⟨owner, howner⟩ := Option.isSome_iff_exists.1 hbusy
    obtain ⟨k, hk, hpid, hfg⟩ := Table.foreground?_eq_some howner
    rw [moves.foreground hstate owner howner] at hpid
    rw [distinct.eq hk hjob hpid, stopped] at hfg
    cases hfg
  · intro calm
    refine ⟨fun hstate owner howner => ?_, job, hjob, rfl⟩
    exact absurd ⟨hstate, Option.isSome_iff_exists.2 ⟨owner, howner⟩⟩ calm

/-- A line that moves the job it names sends the signal and moves the job, and then may wait. -/
theorem exists_together_of_moved (sound : s.jobs.Sound) (distinct : s.jobs.Distinct) {job : Job}
    (hnames : s.NamesStopped argv job) {moved : Shell σ}
    (hset : s.jobs.setState job.pid state = .ok moved.jobs)
    (hdeeds : moved.journal.deeds = s.journal.deeds ++
      [.evaluate line, .signal .resume job.pid .cont (.ok ()), .resume job.pid state])
    (hr : s.eval line = if state = .foreground then moved.waitForeground else (.ok .continue, moved)) :
    ∃ deeds, (s.eval line).2.journal.deeds = s.journal.deeds ++ deeds ∧
      s.Together line argv state deeds (s.eval line) := by
  obtain ⟨hjob, hstopped⟩ := hnames.mem_jobs
  obtain ⟨moves, hmoved⟩ := Table.setState_eq_ok_iff.1 hset
  have hrest : ∃ rest, (s.eval line).2.journal.deeds = moved.journal.deeds ++ rest ∧
      (∀ target sig answer, .signal .resume target sig answer ∉ rest) ∧
      ∀ reason, (s.eval line).1 = .error (.table reason) →
        .fetch true (.error (.table reason)) ∈ rest := by
    rw [hr]
    split
    · next hfg =>
      subst hfg
      have calm : s.jobs.foreground? = none := by
        simpa using (moves_iff distinct hjob hstopped _).1 moves
      exact (waits_of_moved sound distinct hjob calm moves hmoved).exists_deeds
    · exact ⟨[], by simp, fun _ _ _ => List.not_mem_nil, fun reason h => by cases h⟩
  obtain ⟨rest, hdeeds', hsilent, hwaited⟩ := hrest
  rw [hdeeds, List.append_assoc] at hdeeds'
  refine ⟨_, hdeeds', fun pid hmem => ?_, fun hrefused => ?_⟩
  · obtain rfl : pid = job.pid := by simpa [hsilent] using hmem
    refine ⟨job, hnames, rfl, moved, hset, ?_, hdeeds, hr⟩
    rw [hmoved, Table.mem_jobs_moved distinct moves.found]
    exact ⟨job, hjob, by rw [if_pos rfl]⟩
  · exfalso
    cases hrefused with
    | unnamed hnone => exact hnone job hnames
    | unsent hmem => simp [hsilent] at hmem
    | table hreason hfetch => exact hfetch (List.mem_append_right _ (hwaited _ hreason))

section Line
variable {command : Command}
  (parsed : Command.parse line = .ok (some command))
  (hstate : command.builtin = some .bg ∧ state = .background ∨
    command.builtin = some .fg ∧ state = .foreground)
include parsed hstate

theorem exists_eval_eq (s : Shell σ) :
    ∃ builtin, s.eval line = (s.note (.evaluate line)).resume builtin state command.argv := by
  unfold eval
  rw [parsed]
  rcases hstate with ⟨hbuiltin, rfl⟩ | ⟨hbuiltin, rfl⟩
  · exact ⟨.bg, by simp only [hbuiltin]⟩
  · exact ⟨.fg, by simp only [hbuiltin]⟩

/-- A line that names a stopped job tells it to go on. -/
theorem continues_eval {job : Job} (hnames : s.NamesStopped command.argv job) :
    s.Continues [.evaluate line] job state (s.eval line) := by
  obtain ⟨builtin, heval⟩ := s.exists_eval_eq parsed hstate
  have hnoted : (s.note (.evaluate line)).journal.deeds = s.journal.deeds ++ [.evaluate line] :=
    Journal.deeds_cons _ _
  have hnames' : (s.note (.evaluate line)).NamesStopped command.argv job := hnames
  rw [heval]
  rcases (s.note (.evaluate line)).resume_cases builtin state command.argv with
    ⟨job', hjob', heq⟩ | ⟨hnone, -⟩
  · obtain rfl : job = job' := hnames'.unique hjob'
    rw [heq]
    split
    · exact (continues_continueJob ((s.note (.evaluate line)).say (.announced job)) builtin job
        state).after rfl rfl hnoted
    · exact (continues_continueJob (s.note (.evaluate line)) builtin job state).after rfl rfl hnoted
  · exact absurd hnames' (hnone job)

/-- Both or neither, unless the line strays. -/
theorem exists_together_iff (sound : s.jobs.Sound) (distinct : s.jobs.Distinct) :
    ∃ deeds, (s.eval line).2.journal.deeds = s.journal.deeds ++ deeds ∧
      (s.Together line command.argv state deeds (s.eval line) ↔
        ¬ s.Strays command.argv state) := by
  by_cases hnamed : ∃ job, s.NamesStopped command.argv job
  · obtain ⟨job, hnames⟩ := hnamed
    obtain ⟨hjob, hstopped⟩ := hnames.mem_jobs
    have hmoves := moves_iff distinct hjob hstopped state
    cases continues_eval parsed hstate hnames with
    | unsent hanswer hjobs hdeeds =>
      refine ⟨_, hdeeds, iff_of_true (together_of_unsent (fun pid => by simp) hjobs) ?_⟩
      rintro ⟨-, -, job', hnames', hsent⟩
      rw [← hnames.unique hnames', hanswer] at hsent
      cases hsent
    | refused hanswer hset hr hjobs hdeeds =>
      have hstrays : s.Strays command.argv state := by
        by_contra hcalm
        have moves : s.jobs.Moves job.pid state :=
          hmoves.2 fun ⟨hfg, hbusy⟩ => hcalm ⟨hfg, hbusy, job, hnames, hanswer⟩
        cases hset.symm.trans (Table.setState_eq_ok_iff.2 ⟨moves, rfl⟩)
      refine ⟨_, hdeeds, iff_of_false (fun together => ?_) (not_not.2 hstrays)⟩
      exact (together.unmoved (.table hr (by simp))).1 job.pid (by simp)
    | moved hset hdeeds hr =>
      obtain ⟨deeds, hdeeds', together⟩ :=
        exists_together_of_moved sound distinct hnames hset hdeeds hr
      refine ⟨deeds, hdeeds', iff_of_true together ?_⟩
      rintro ⟨hfg, hbusy, -⟩
      exact hmoves.1 (Table.setState_eq_ok_iff.1 hset).1 ⟨hfg, hbusy⟩
  · obtain ⟨builtin, heval⟩ := s.exists_eval_eq parsed hstate
    rcases (s.note (.evaluate line)).resume_cases builtin state command.argv with
      ⟨job, hnames, -⟩ | ⟨-, m, heq, -⟩
    · exact absurd ⟨job, hnames⟩ hnamed
    · rw [heval, heq]
      refine ⟨[.evaluate line], Journal.deeds_cons _ _,
        iff_of_true (together_of_unsent (fun pid => by simp) rfl) ?_⟩
      rintro ⟨-, -, job, hnames, -⟩
      exact hnamed ⟨job, hnames⟩

end Line

/-- **Signal and table together.** Whatever was done before, and however it ended, let processes be
distinct. A `bg` or an `fg` that sends the signal moves the job that it names, before it waits; one
that is refused sends no signal and leaves the table alone. The only exception is an `fg` that sends
the signal while a job is in the foreground. -/
theorem resumes_together_iff (host : σ) (console : Console) (ops : List Op)
    (distinct : (Shell.after { host, console } ops).jobs.Distinct) {line : String}
    {command : Command} {state : Job.State} (parsed : Command.parse line = .ok (some command))
    (hstate : command.builtin = some .bg ∧ state = .background ∨
      command.builtin = some .fg ∧ state = .foreground) :
    let s := Shell.after { host, console } ops
    ∃ deeds, (s.eval line).2.journal.deeds = s.journal.deeds ++ deeds ∧
      (s.Together line command.argv state deeds (s.eval line) ↔ ¬ s.Strays command.argv state) :=
  exists_together_iff parsed hstate (recorded_after host console ops).1.sound distinct

/-- A job that is resumed in the foreground and stops again, after one that ended. -/
theorem resumes_together_iff_stopped_twice :
    let host : Scripted :=
      { events :=
          [.ok [.child ⟨1000⟩ (.exited 0)], .ok [.child ⟨1001⟩ (.stopped .tstp)],
            .ok [.child ⟨1001⟩ (.stopped .tstp)]] }
    let s := Shell.after { host } [.eval "a", .eval "b"]
    let command : Command := { argv := ["fg", "1001"], builtin := some .fg }
    (s.jobs.Distinct ∧ Command.parse "fg 1001" = .ok (some command) ∧
      ¬ s.Strays command.argv .foreground) ∧
    (∃ deeds, (s.eval "fg 1001").2.journal.deeds = s.journal.deeds ++ deeds ∧
      s.Together "fg 1001" command.argv .foreground deeds (s.eval "fg 1001")) ∧
    (s.eval "fg 1001").1 = .ok .continue ∧
    (s.eval "fg 1001").2.journal.signalled = [(⟨1001⟩, .cont)] := by
  intro host s command
  have hjobs : s.jobs.jobs = [⟨1, ⟨1001⟩, .stopped, "b"⟩] := by decide +kernel
  have distinct : s.jobs.Distinct := by simp [Table.Distinct, hjobs]
  have parsed : Command.parse "fg 1001" = .ok (some command) := by decide +kernel
  have calm : ¬ s.Strays command.argv .foreground := by
    rintro ⟨-, hbusy, -⟩
    have hcalm : s.jobs.foreground? = none := by simp [Table.foreground?_eq_none, hjobs]
    rw [hcalm] at hbusy
    cases hbusy
  obtain ⟨deeds, hdeeds, together⟩ := resumes_together_iff host {} [.eval "a", .eval "b"] distinct
    parsed (.inr ⟨rfl, rfl⟩)
  exact ⟨⟨distinct, parsed, calm⟩, ⟨deeds, hdeeds, together.2 calm⟩, by decide +kernel,
    by decide +kernel⟩

/-- A wait that failed leaves a job in the foreground. An `fg` of another one then sends the signal,
and the table refuses the move. -/
theorem fg_beside_foreground_strays :
    let host : Scripted :=
      { events := [.ok [.child ⟨1000⟩ (.stopped .tstp)], .error (.io (.os 5))] }
    let s := Shell.after { host } [.eval "a", .eval "b"]
    s.jobs.jobs = [⟨1, ⟨1000⟩, .stopped, "a"⟩, ⟨2, ⟨1001⟩, .foreground, "b"⟩] ∧
      s.jobs.Distinct ∧ s.journal.signalled = [] ∧
      (s.eval "fg %1").1 = .error (.table (.foregroundBusy ⟨1001⟩)) ∧
      (s.eval "fg %1").2.journal.signalled = [(⟨1000⟩, .cont)] ∧
      (s.eval "fg %1").2.jobs = s.jobs := by
  intro host s
  have hjobs : s.jobs.jobs = [⟨1, ⟨1000⟩, .stopped, "a"⟩, ⟨2, ⟨1001⟩, .foreground, "b"⟩] := by
    decide +kernel
  exact ⟨hjobs, by simp [Table.Distinct, hjobs], by decide +kernel, by decide +kernel,
    by decide +kernel, by decide +kernel⟩

end JobControl.Shell
