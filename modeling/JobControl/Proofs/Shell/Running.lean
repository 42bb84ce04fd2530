import JobControl.Proofs.Shell.Complaints
import JobControl.Proofs.Shell.Launch

/-!
# Every process that runs is a job

* `Journal.running` : the processes that were started and have not been reported to have ended;
* `Journal.Faithful` : news of a child is only of one that runs;
* `Table.Tracks` : a table holds a job for exactly the given processes;
* `Journal.Accounted` : the table tracks the running processes whenever the shell looks for news or
  evaluates a line, it takes every process that is started, and it knows every child that changes;
* `Past.Recorded.registers`, `Past.Recorded.resumes` : what is accounted for is done next;
* `Past.Balanced` : accounted for up to now, with a table that tracks the running processes;
  `Past.InBalance` says so under the condition that news is fair;
* `conduct_books`, `books_perform` : the operations of the shell keep it so.
-/

set_option autoImplicit false

namespace JobControl

/-! ## The processes that run -/

def Notification.child? : Notification → Option Pid
  | .child pid _ => some pid
  | _ => none

/-- The processes that still run after the news, out of those that ran before. -/
def Notification.survivors (pids : List Pid) (n : Notification) : List Pid :=
  pids.filter fun pid => !(Deed.apply n).ends pid

/-- Each piece of news of a child is of a process that runs, by the news before it. -/
def Notification.Faithful : List Pid → List Notification → Prop
  | _, [] => True
  | pids, n :: rest => (∀ pid ∈ n.child?, pid ∈ pids) ∧ Faithful (n.survivors pids) rest

instance Notification.decidableFaithful (pids : List Pid) (batch : List Notification) :
    Decidable (Faithful pids batch) :=
  match batch with
  | [] => inferInstanceAs (Decidable True)
  | n :: rest =>
    have := decidableFaithful (n.survivors pids) rest
    inferInstanceAs (Decidable ((∀ pid ∈ n.child?, pid ∈ pids) ∧ Faithful (n.survivors pids) rest))

namespace Journal

def running : Journal → List Pid
  | [] => []
  | e :: earlier =>
    match e.deed with
    | .spawn _ (.ok pid) => pid :: running earlier
    | .fetch _ (.ok batch) => batch.foldl Notification.survivors (running earlier)
    | _ => running earlier

end Journal

def Deed.news? : Deed → Option (List Notification)
  | .fetch _ (.ok batch) => some batch
  | _ => none

namespace Journal

/-- News of a child is only of one that runs. -/
def Faithful : Journal → Prop
  | [] => True
  | e :: earlier =>
    (∀ batch ∈ e.deed.news?, Notification.Faithful (running earlier) batch) ∧ Faithful earlier

instance decidableFaithful : (j : Journal) → Decidable j.Faithful
  | [] => inferInstanceAs (Decidable True)
  | e :: earlier =>
    have := decidableFaithful earlier
    inferInstanceAs (Decidable ((∀ batch ∈ e.deed.news?,
      Notification.Faithful (running earlier) batch) ∧ Faithful earlier))

end Journal

/-! ## Tables that track processes -/

/-- The table is sound, and it holds a job for exactly these processes, each once. -/
structure Table.Tracks (t : Table) (pids : List Pid) : Prop where
  sound : t.Sound
  distinct : t.Distinct
  mem_iff : ∀ pid, pid ∈ pids ↔ ∃ k ∈ t.jobs, k.pid = pid

namespace Table.Tracks
variable {t : Table} {pids : List Pid}

theorem empty : Table.standard.Tracks [] :=
  ⟨.empty (by decide), .empty _, by simp [Table.standard]⟩

theorem known (h : t.Tracks pids) {pid : Pid} (hpid : pid ∈ pids) : t.findByPid? pid ≠ none := by
  obtain ⟨k, hk, rfl⟩ := (h.mem_iff pid).1 hpid
  rw [ne_eq, findByPid?_eq_none (h.sound.valid k hk)]
  exact fun hnone => hnone k hk rfl

theorem applied (h : t.Tracks pids) (n : Notification) :
    (t.applied n).Tracks (n.survivors pids) := by
  refine ⟨h.sound.update (t.update_applied n), h.distinct.applied n, fun pid => ?_⟩
  rw [Notification.survivors, List.mem_filter, h.mem_iff pid, Bool.not_eq_true']
  constructor
  · rintro ⟨⟨k, hk, rfl⟩, hend⟩
    exact ⟨_, (mem_jobs_applied h.distinct h.sound.valid n).2 ⟨k, hk, hend, rfl⟩, rfl⟩
  · rintro ⟨k, hk, rfl⟩
    obtain ⟨k', hk', hend, rfl⟩ := (mem_jobs_applied h.distinct h.sound.valid n).1 hk
    exact ⟨⟨k', hk', rfl⟩, hend⟩

theorem moved (h : t.Tracks pids) {pid : Pid} {state : Job.State} (moves : t.Moves pid state) :
    (t.moved pid state).Tracks pids := by
  refine ⟨h.sound.moved moves, h.distinct.moved moves.found state, fun p => ?_⟩
  rw [h.mem_iff p]
  constructor
  · rintro ⟨k, hk, rfl⟩
    exact ⟨_, (mem_jobs_moved h.distinct moves.found).2 ⟨k, hk, rfl⟩, rfl⟩
  · rintro ⟨k, hk, rfl⟩
    obtain ⟨k', hk', rfl⟩ := (mem_jobs_moved h.distinct moves.found).1 hk
    exact ⟨k', hk', rfl⟩

/-- A table with a free slot and no job in the foreground takes a fresh process. -/
theorem exists_add (h : t.Tracks pids) (free : t.isFull = false) (calm : t.foreground? = none)
    {pid : Pid} (valid : pid.Valid) (fresh : ∀ k ∈ t.jobs, k.pid ≠ pid) (state : Job.State)
    (line : String) : ∃ i jobs, t.add pid state line = .ok (i, jobs) ∧ jobs.Tracks (pid :: pids) := by
  obtain ⟨i, hadd⟩ := h.sound.exists_add ⟨valid, fun _ => calm, free⟩ line
  refine ⟨i, _, hadd, ?_⟩
  obtain ⟨admits, unused, -⟩ := add_eq_ok_iff.1 hadd
  refine ⟨h.sound.update (.add admits unused), h.distinct.placed free fresh, fun p => ?_⟩
  rw [List.mem_cons, h.mem_iff p]
  simp only [mem_jobs_placed free, exists_eq_or_imp]
  exact or_congr_left eq_comm

end Table.Tracks

/-! ## Accounts -/

namespace Journal

/-- A look for news, or a line, finds a table that tracks the running processes. A process that is
started is taken by the table, a job that is told to go on can, and a child that changes is a job. -/
def Entry.Accounted (e : Entry) (earlier : Journal) : Prop :=
  match e.deed with
  | .drain => e.jobs.Tracks earlier.running
  | .evaluate _ => e.jobs.Tracks earlier.running
  | .spawn request (.ok pid) =>
    ∃ i jobs, e.jobs.add pid request.state request.line = .ok (i, jobs)
  | .apply (.child pid _) => e.jobs.findByPid? pid ≠ none
  | .signal .resume pid _ (.ok ()) => ∀ state, ∃ jobs, e.jobs.setState pid state = .ok jobs
  | _ => True

def Accounted : Journal → Prop
  | [] => True
  | e :: earlier => e.Accounted earlier ∧ Accounted earlier

theorem Accounted.entry {j newer earlier : Journal} {e : Entry} (h : j.Accounted)
    (hj : j = newer ++ e :: earlier) : e.Accounted earlier := by
  subst hj
  induction newer with
  | nil => exact h.1
  | cons _ newer ih => exact ih h.2

theorem Accounted.mem {j : Journal} {e : Entry} (h : j.Accounted) (he : e ∈ j) :
    ∃ earlier, e.Accounted earlier := by
  obtain ⟨newer, earlier, hj⟩ := List.append_of_mem he
  exact ⟨earlier, h.entry hj⟩

/-- In a journal that is accounted for, every child that changes is a job. -/
theorem Accounted.not_explains_strayChild {j : Journal} (h : j.Accounted) (pid : Pid) :
    ¬ j.Explains (.strayChild pid) := by
  rintro ⟨e, he, ⟨change, hdeed⟩, hnone⟩
  obtain ⟨earlier, hknown⟩ := h.mem he
  rw [Entry.Accounted, hdeed] at hknown
  exact hknown hnone

/-- In a journal that is accounted for, a job is refused only for want of room. -/
theorem Accounted.full_of_explains {j : Journal} (h : j.Accounted) {reason : Table.Refusal}
    (hm : j.Explains (.refused reason)) : reason = .full := by
  rcases hm with hfull | ⟨e, he, request, pid, hdeed, hadd⟩
  · exact hfull
  · obtain ⟨earlier, htaken⟩ := h.mem he
    rw [Entry.Accounted, hdeed] at htaken
    obtain ⟨i, jobs, hok⟩ := htaken
    cases hadd.symm.trans hok

/-- In a journal that is accounted for, a failure that is not fatal is one of fetching news. -/
theorem Accounted.fetch_of_explains {j : Journal} (h : j.Accounted) {error : Error}
    (hm : j.Explains (.failed error)) :
    ∃ e ∈ j, ∃ waiting, e.deed = .fetch waiting (.error error) := by
  rcases hm with hfetch | ⟨e, he, pid, state, reason, hdeed, hset, -⟩
  · exact hfetch
  · obtain ⟨earlier, hmoves⟩ := h.mem he
    rw [Entry.Accounted, hdeed] at hmoves
    obtain ⟨jobs, hok⟩ := hmoves state
    cases hset.symm.trans hok

/-- Processes are started as is due, and news is only of processes that run. -/
structure Fair (j : Journal) : Prop where
  fresh : j.SpawnsFresh
  faithful : j.Faithful

theorem Fair.suffix {j earlier : Journal} (h : j.Fair) (hj : earlier <:+ j) : earlier.Fair := by
  obtain ⟨newer, rfl⟩ := hj
  induction newer with
  | nil => exact h
  | cons e newer ih => exact ih ⟨h.fresh.earlier rfl, h.faithful.2⟩

end Journal

/-- The journal is accounted for, and the table tracks the running processes. -/
structure Past.Balanced (p : Past) : Prop where
  accounted : p.journal.Accounted
  tracks : p.jobs.Tracks p.journal.running

/-- A deed that neither starts a process nor fetches news leaves the balance. -/
theorem Past.Balanced.record {p : Past} (h : p.Balanced) {d : Deed} (n : Nat)
    (accounted : Journal.Entry.Accounted ⟨d, p.jobs, p.deferrals⟩ p.journal)
    (idle : Journal.running (⟨d, p.jobs, p.deferrals⟩ :: p.journal) = p.journal.running) :
    (p.record d p.jobs n).Balanced := by
  refine ⟨⟨accounted, h.accounted⟩, ?_⟩
  change p.jobs.Tracks (Journal.running (⟨d, p.jobs, p.deferrals⟩ :: p.journal))
  rw [idle]
  exact h.tracks

/-- The past is in balance if processes were started as is due, and news was only of processes that
ran. -/
def Past.InBalance (p : Past) : Prop := p.journal.Fair → p.Balanced

theorem Past.InBalance.record {p : Past} (h : p.InBalance) {d : Deed} (n : Nat)
    (accounted : p.Balanced → Journal.Entry.Accounted ⟨d, p.jobs, p.deferrals⟩ p.journal)
    (idle : Journal.running (⟨d, p.jobs, p.deferrals⟩ :: p.journal) = p.journal.running) :
    (p.record d p.jobs n).InBalance := by
  intro fair
  have hbalanced := h (fair.suffix (List.suffix_cons _ _))
  exact hbalanced.record n (accounted hbalanced) idle

/-! ## What is done next -/

namespace Past
variable {σ : Type} [Host σ] {p : Past} {newer earlier : Journal} {e : Journal.Entry}

/-- A process that was started is entered in the table next. -/
theorem Recorded.registers (h : p.Recorded σ) (settled : p.Settled)
    (fresh : p.journal.SpawnsFresh) (accounted : p.journal.Accounted)
    (hj : p.journal = newer ++ e :: earlier) {request : LaunchRequest} {pid : Pid}
    (deed : e.deed = .spawn request (.ok pid)) :
    ∃ i r, p.Includes r ∧ ⟨i, pid, request.state, request.line⟩ ∈ r.jobs.jobs ∧
      r.journal =
        ⟨.register ⟨i, pid, request.state, request.line⟩, e.jobs, e.deferrals⟩ :: e :: earlier := by
  obtain ⟨d, jobs, deferrals⟩ := e
  obtain rfl : d = .spawn request (.ok pid) := deed
  obtain ⟨hq, -⟩ := h.bound hj rfl
  obtain ⟨i, jobs', hadd⟩ := accounted.entry hj
  obtain ⟨r, hr, hstep, hrj⟩ := h.owed settled hq (.register rfl hadd)
  have hrecorded := h.includes hq
  refine ⟨i, r, hr, ?_, hrj⟩
  exact (hstep.move.mem_jobs hrj (hrecorded.distinct (fresh.includes hq))
    hrecorded.sound.valid).2 (.inl rfl)

/-- A job is told to go on for a line that names it, while it is stopped. -/
theorem Move.woken {q : Past} (h : p.Move σ q) (hj : q.journal = e :: p.journal) {pid : Pid}
    {sig : Signal} {answer : Except SystemError Unit}
    (deed : e.deed = .signal .resume pid sig answer) :
    ∃ line earlier reference state job, p.Just (.evaluate line) earlier ∧
      Command.Resumes line reference state ∧ p.jobs.find? reference = some job ∧
      job.state = .stopped ∧ job.pid = pid ∧ sig = .cont := by
  cases h with
  | wake host just line_resumes found stopped =>
    obtain ⟨rfl, -⟩ := List.cons.inj hj
    cases deed
    exact ⟨_, _, _, _, _, just, line_resumes, found, stopped, rfl, rfl⟩
  | _ =>
    obtain ⟨rfl, -⟩ := List.cons.inj hj
    cases deed

/-- A job that was told to go on is moved on next. -/
theorem Recorded.resumes (h : p.Recorded σ) (settled : p.Settled) (accounted : p.journal.Accounted)
    (hj : p.journal = newer ++ e :: earlier) {pid : Pid} {sig : Signal}
    (deed : e.deed = .signal .resume pid sig (.ok ())) :
    ∃ state r, p.Includes r ∧
      r.journal = ⟨.resume pid state, e.jobs, e.deferrals⟩ :: e :: earlier := by
  obtain ⟨d, jobs, deferrals⟩ := e
  obtain rfl : d = .signal .resume pid sig (.ok ()) := deed
  obtain ⟨hq, hstep⟩ := h.bound hj rfl
  obtain ⟨line, before, reference, state, job, just, line_resumes, found, stopped, rfl, rfl⟩ :=
    hstep.move.woken rfl rfl
  obtain ⟨jobs', hset⟩ := accounted.entry hj state
  obtain ⟨r, hr, -, hrj⟩ :=
    h.owed settled hq (.resume (congrArg _ just) line_resumes found stopped hset)
  exact ⟨state, r, hr, hrj⟩

end Past

namespace Shell
variable {σ : Type} {s s' : Shell σ}

/-- An operation has ended with the journal accounted for, and in balance unless the shell ends. -/
structure Books (r : Except Error Flow × Shell σ) : Prop where
  accounted : r.2.journal.Accounted
  balanced : GoesOn r.1 → r.2.past.Balanced

theorem books_of_balanced {r : Except Error Flow × Shell σ} (h : r.2.past.Balanced) : Books r :=
  ⟨h.accounted, fun _ => h⟩

variable [Host σ]

/-! ## Taking up news -/

theorem accounted_passKey (sig : Signal) (h : s.journal.Accounted) :
    (s.passKey sig).2.journal.Accounted ∧ (s.passKey sig).2.journal.running = s.journal.running := by
  rw [passKey_snd]
  split
  · exact ⟨h, rfl⟩
  · exact ⟨⟨trivial, h⟩, rfl⟩

theorem accounted_apply {n : Notification} (known : ∀ pid ∈ n.child?, s.jobs.findByPid? pid ≠ none)
    (h : s.journal.Accounted) :
    (s.apply n).2.journal.Accounted ∧ (s.apply n).2.journal.running = s.journal.running := by
  cases n with
  | child pid change =>
    have hp : (s.apply (.child pid change)).2.journal =
        ⟨.apply (.child pid change), s.jobs, s.deferrals⟩ :: s.journal :=
      congrArg Past.journal (s.past_apply_child pid change)
    rw [hp]
    exact ⟨⟨known pid rfl, h⟩, rfl⟩
  | keyboard sig => exact accounted_passKey (s := s.note (.apply (.keyboard sig))) sig ⟨trivial, h⟩
  | quit => exact ⟨⟨trivial, h⟩, rfl⟩

/-- While a batch is applied, the table tracks what runs by the news that were applied so far. -/
theorem accounted_applyAll {pids : List Pid} {batch : List Notification} (h : s.journal.Accounted)
    (tracks : s.jobs.Tracks pids) (faithful : Notification.Faithful pids batch) :
    (s.applyAll batch).2.journal.Accounted ∧
      ((s.applyAll batch).1 = .ok .continue →
        (s.applyAll batch).2.journal.running = s.journal.running ∧
        (s.applyAll batch).2.jobs.Tracks (batch.foldl Notification.survivors pids)) := by
  induction batch generalizing s pids with
  | nil => exact ⟨h, fun _ => ⟨rfl, tracks⟩⟩
  | cons n rest ih =>
    obtain ⟨hchild, hrest⟩ := faithful
    have hn := accounted_apply (fun pid hpid => tracks.known (hchild pid hpid)) h
    have hjobs := (s.jobs_apply n).symm ▸ tracks.applied n
    unfold applyAll
    split
    · next s' hout =>
      rw [hout] at hn hjobs
      obtain ⟨hacc, hgo⟩ := ih hn.1 hjobs hrest
      refine ⟨hacc, fun hcontinue => ?_⟩
      obtain ⟨hrunning, htracks⟩ := hgo hcontinue
      exact ⟨hrunning.trans hn.2, htracks⟩
    · next hstop => exact ⟨hn.1, fun hcontinue => (hstop _ (Prod.ext hcontinue rfl)).elim⟩

/-- A batch that was fetched in balance leads back to it. -/
theorem books_applyAll {waiting : Bool} {batch : List Notification} (h : s.past.Balanced)
    (hfetch : s'.past = s.past.record (.fetch waiting (.ok batch)) s.jobs s.deferrals)
    (fair : (s'.applyAll batch).2.journal.Fair) : Books (s'.applyAll batch) := by
  have hjournal : s'.journal = ⟨.fetch waiting (.ok batch), s.jobs, s.deferrals⟩ :: s.journal :=
    congrArg Past.journal hfetch
  have hjobs : s'.jobs = s.jobs := congrArg Past.jobs hfetch
  have hfaithful : Notification.Faithful s.journal.running batch := by
    have hfair := fair.suffix (s'.grows_applyAll batch).journal
    rw [hjournal] at hfair
    exact hfair.faithful.1 batch rfl
  have hacc : s'.journal.Accounted := by
    rw [hjournal]
    exact ⟨trivial, h.accounted⟩
  obtain ⟨hacc', hgo⟩ := accounted_applyAll hacc (hjobs.symm ▸ h.tracks) hfaithful
  refine ⟨hacc', fun hend => ⟨hacc', ?_⟩⟩
  -- applying fails only with fatal errors, so a shell that goes on has applied the whole batch
  have hcontinue : (s'.applyAll batch).1 = .ok .continue := by
    rcases hend with hcontinue | ⟨e, he, hne⟩
    · exact hcontinue
    · exact absurd (fatal_applyAll he) hne
  obtain ⟨hrunning, htracks⟩ := hgo hcontinue
  change (s'.applyAll batch).2.jobs.Tracks (s'.applyAll batch).2.journal.running
  rw [hrunning, hjournal]
  exact htracks

/-- News that is fetched in balance and taken up leads back to it. -/
theorem books_takeUp (waiting : Bool) {fetched : Except Error (List Notification) × Shell σ}
    (h : s.past.InBalance)
    (hfetch : fetched.2.past = s.past.record (.fetch waiting fetched.1) s.jobs s.deferrals)
    (fair : (takeUp fetched).2.journal.Fair) : Books (takeUp fetched) := by
  have hjournal : fetched.2.journal = ⟨.fetch waiting fetched.1, s.jobs, s.deferrals⟩ :: s.journal :=
    congrArg Past.journal hfetch
  obtain ⟨e | batch, s'⟩ := fetched
  · have hbalanced : s'.past.InBalance := by
      rw [show s'.past = _ from hfetch]
      exact h.record s.deferrals (fun _ => trivial) rfl
    exact books_of_balanced (hbalanced fair)
  · have hfair := fair.suffix (s'.grows_applyAll batch).journal
    rw [hjournal] at hfair
    exact books_applyAll (h (hfair.suffix (List.suffix_cons _ _))) hfetch fair

/-! ## Evaluating lines -/

/-- A process that the host starts is fresh, so the table takes it. -/
theorem inBalance_start {request : LaunchRequest} (h : s.past.InBalance)
    (calm : s.jobs.foreground? = none) (free : s.jobs.isFull = false) :
    (s.start request).2.past.InBalance := by
  have hadds {pid : Pid}
      (fair : Journal.Fair (⟨.spawn request (.ok pid), s.jobs, s.deferrals⟩ :: s.journal)) :
      s.past.Balanced ∧ ∃ i jobs, s.jobs.add pid request.state request.line = .ok (i, jobs) ∧
        jobs.Tracks (pid :: s.journal.running) := by
    have hbalanced := h (fair.suffix (List.suffix_cons _ _))
    obtain ⟨valid, unused⟩ := fair.fresh _ List.mem_cons_self pid rfl
    exact ⟨hbalanced, hbalanced.tracks.exists_add free calm valid unused request.state request.line⟩
  rcases s.start_cases request with
    ⟨e, -, hpast⟩ | ⟨pid, ⟨reason, hadd, -, hpast⟩ | ⟨i, jobs, hadd, -, hpast⟩⟩ <;> rw [hpast]
  · exact h.record s.deferrals (fun _ => trivial) rfl
  · intro fair
    obtain ⟨-, i, jobs, hadd', -⟩ := hadds fair
    cases hadd.symm.trans hadd'
  · intro fair
    obtain ⟨hbalanced, i', jobs', hadd', htracks⟩ := hadds (fair.suffix (List.suffix_cons _ _))
    cases hadd.symm.trans hadd'
    exact ⟨⟨trivial, ⟨i, jobs, hadd⟩, hbalanced.accounted⟩, htracks⟩

omit [Host σ] in
theorem inBalance_noted {line : String} {state : Job.State} {job : Job} (h : s.past.InBalance)
    (wakes : s.Wakes line state job s') : s'.past.InBalance := by
  rw [wakes.noted.past]
  exact h.record s.deferrals Past.Balanced.tracks rfl

theorem conduct_books (s₀ : Shell σ) (line : String) :
    Conduct (σ := σ) line
      (fun waits s => Proceeds s₀.journal.Orderly waits s.past ∧ s.past.InBalance)
      fun r => r.2.journal.Fair → Books r where
  quiet h quiet := ⟨(conduct_ends s₀ line).quiet h.1 quiet, quiet.past ▸ h.2⟩
  idle h hnone := ⟨(conduct_ends s₀ line).idle h.1 hnone, h.2.record _ Past.Balanced.tracks rfl⟩
  defer s h := by
    obtain ⟨n, hpast, -⟩ := s.past_defer
    refine ⟨(conduct_ends s₀ line).defer s h.1, ?_⟩
    rw [hpast]
    exact h.2.record n (fun _ => trivial) rfl
  start s request h room deferred hline :=
    ⟨(conduct_ends s₀ line).start s request h.1 room deferred hline,
      (inBalance_start h.2 (h.1.calm rfl) room).record _ (fun _ => trivial) rfl⟩
  unsent h wakes hsent := by
    refine ⟨(conduct_ends s₀ line).unsent h.1 wakes hsent, ?_⟩
    rw [past_signal hsent]
    exact (inBalance_noted h.2 wakes).record _ (fun _ => trivial) rfl
  refused h wakes _ hset := absurd hset (wakes.setState_ne_error (h.1.calm rfl) _)
  moved {s state job s' jobs} h wakes hsent hset := by
    have moves (state : Job.State) := wakes.moves (h.1.calm rfl) state
    have hsignal : (s'.signal .resume job.pid .cont).2.past.InBalance := by
      rw [past_signal hsent]
      exact (inBalance_noted h.2 wakes).record _
        (fun _ state => ⟨_, Table.setState_eq_ok_iff.2 ⟨moves state, rfl⟩⟩) rfl
    refine ⟨(conduct_ends s₀ line).moved h.1 wakes hsent hset, fun fair => ?_⟩
    have hbalanced := hsignal (fair.suffix (List.suffix_cons _ _))
    obtain ⟨-, rfl⟩ := Table.setState_eq_ok_iff.1 hset
    exact ⟨⟨trivial, hbalanced.accounted⟩, hbalanced.tracks.moved (moves state)⟩
  round s h hcontinue :=
    ⟨(conduct_ends s₀ line).round s h.1 hcontinue,
      fun fair => (books_takeUp true h.2 rfl fair).balanced (.inl hcontinue)⟩
  stop s h _ := books_takeUp true h.2 rfl
  rest h _ fair := books_of_balanced (h.2 fair)
  goOn h fair := books_of_balanced (h.2 fair)
  exit h fair := books_of_balanced (h.2 fair)
  fatal h _ fair := books_of_balanced (h.2 fair)

theorem books_perform (h : s.past.Balanced) (calm : s.jobs.foreground? = none) {op : Op}
    (fair : (s.perform op).2.journal.Fair) : Books (s.perform op) := by
  cases op with
  | eval line => exact (conduct_books s line).eval ⟨⟨id, fun _ => calm⟩, fun _ => h⟩ fair
  | drain =>
    have hnote : (s.note .drain).past.Balanced := h.record _ h.tracks rfl
    rw [perform, drain_eq] at fair ⊢
    exact books_takeUp false (fun _ => hnote) rfl fair

end Shell
end JobControl
