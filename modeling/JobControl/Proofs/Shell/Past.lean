import JobControl.Proofs.Table.Slots
import JobControl.Shell.Eval
import Mathlib.Logic.Relation

/-!
# What a shell can do

* `Past` : the journal of a shell, with its table and the deferrals in force;
* `Past.Move` : one deed, when it can happen and what it makes of the table;
* `Past.Owes` : the deed that the latest one makes due; `Past.Settled` : there is none;
* `Past.Step` : one deed, the one that is due if there is one;
* `Past.Recorded` : steps one after another, from an empty journal on;
* `Past.Reach` : steps from a past where nothing is due to another;
* `Past.Includes` : the moments on the way to a past; each is recorded if the past is
  (`Recorded.includes`), and what is due at one is done next (`Recorded.owed`).

That a shell does nothing else is shown in `Proofs.Shell.Run`.
-/

set_option autoImplicit false

namespace JobControl

/-- The line is a `bg` or an `fg` that names a job, to go on in `state`. -/
def Command.Resumes (line : String) (reference : Job.Reference) (state : Job.State) : Prop :=
  ∃ command name arg, Command.parse line = .ok (some command) ∧ command.argv = [name, arg] ∧
    Job.Reference.parse? arg = some reference ∧
    (command.builtin = some .bg ∧ state = .background ∨
      command.builtin = some .fg ∧ state = .foreground)

theorem Command.resumes_iff {line : String} {command : Command}
    (parsed : Command.parse line = .ok (some command)) {reference : Job.Reference}
    {state : Job.State} :
    Command.Resumes line reference state ↔
      ∃ name arg, command.argv = [name, arg] ∧ Job.Reference.parse? arg = some reference ∧
        (command.builtin = some .bg ∧ state = .background ∨
          command.builtin = some .fg ∧ state = .foreground) := by
  constructor
  · rintro ⟨command', name, arg, parsed', h⟩
    obtain rfl : command = command' := by
      rw [parsed] at parsed'
      simpa using parsed'
    exact ⟨name, arg, h⟩
  · rintro ⟨name, arg, h⟩
    exact ⟨command, name, arg, parsed, h⟩

theorem Command.Resumes.unique {line : String} {r r' : Job.Reference} {state state' : Job.State}
    (h : Resumes line r state) (h' : Resumes line r' state') : r = r' ∧ state = state' := by
  obtain ⟨command, name, arg, parsed, hargv, href, hb⟩ := h
  obtain ⟨name', arg', hargv', href', hb'⟩ := (resumes_iff parsed).1 h'
  obtain ⟨rfl, rfl⟩ : name = name' ∧ arg = arg' := by
    rw [hargv] at hargv'
    simpa using hargv'
  refine ⟨Option.some.inj (href.symm.trans href'), ?_⟩
  rcases hb with ⟨hb, rfl⟩ | ⟨hb, rfl⟩ <;> rcases hb' with ⟨hb', rfl⟩ | ⟨hb', rfl⟩ <;>
    simp_all

namespace Table

def applied (t : Table) : Notification → Table
  | .child pid change =>
    if (t.findByPid? pid).isSome then
      match change with
      | .stopped _ => t.moved pid .stopped
      | _ => t.removed pid
    else t
  | _ => t

theorem applied_of_none {t : Table} {pid : Pid} (h : t.findByPid? pid = none)
    (change : ChildChange) : t.applied (.child pid change) = t := by
  simp [applied, h]

theorem applied_of_some {t : Table} {pid : Pid} {job : Job} (h : t.findByPid? pid = some job)
    (change : ChildChange) :
    t.applied (.child pid change) =
      match change with
      | .stopped _ => t.moved pid .stopped
      | _ => t.removed pid := by
  have hsome : (t.findByPid? pid).isSome := by rw [h]; rfl
  simp only [applied, if_pos hsome]

/-- A notification removes a job, stops it, or leaves the table as it is. -/
theorem applied_cases (t : Table) (n : Notification) :
    t.applied n = t ∨ ∃ pid job, t.findByPid? pid = some job ∧
      (t.applied n = t.removed pid ∨ t.applied n = t.moved pid .stopped) := by
  cases n with
  | keyboard sig => exact .inl rfl
  | quit => exact .inl rfl
  | child pid change =>
    cases h : t.findByPid? pid with
    | none => exact .inl (applied_of_none h change)
    | some job =>
      refine .inr ⟨pid, job, h, ?_⟩
      rw [applied_of_some h]
      cases change with
      | exited code => exact .inl rfl
      | signaled sig => exact .inl rfl
      | stopped sig => exact .inr rfl

theorem update_applied (t : Table) (n : Notification) : t.Update (t.applied n) := by
  rcases t.applied_cases n with he | ⟨pid, job, h, he | he⟩ <;> rw [he]
  · exact .none
  · exact .remove h
  · exact .move ⟨nofun, found_of_findByPid? h⟩

end Table

/-- Whether a deed can make another one due. -/
def Deed.binds : Deed → Bool
  | .spawn _ (.ok _) => true
  | .signal .resume _ _ (.ok ()) => true
  | _ => false

structure Past where
  journal : Journal
  jobs : Table
  deferrals : Nat

def Journal.Entry.past (e : Entry) (earlier : Journal) : Past := ⟨earlier, e.jobs, e.deferrals⟩

namespace Past

def record (p : Past) (deed : Deed) (jobs : Table) (deferrals : Nat) : Past :=
  ⟨⟨deed, p.jobs, p.deferrals⟩ :: p.journal, jobs, deferrals⟩

/-- The deed is the latest, and nothing has changed since it was noted. -/
def Just (p : Past) (deed : Deed) (earlier : Journal) : Prop :=
  p.journal = ⟨deed, p.jobs, p.deferrals⟩ :: earlier

/-- The deed that has to follow: a process that was just started is to be entered in the table, a
job that was just told to go on is to be moved, if the table admits it. -/
inductive Owes (p : Past) : Deed → Prop where
  | register {request : LaunchRequest} {pid : Pid} {earlier : Journal} {i : Nat} {jobs : Table} :
      p.Just (.spawn request (.ok pid)) earlier →
      p.jobs.add pid request.state request.line = .ok (i, jobs) →
      Owes p (.register ⟨i, pid, request.state, request.line⟩)
  | resume {line : String} {earlier : Journal} {reference : Job.Reference} {state : Job.State}
      {job : Job} {jobs : Table} :
      p.Just (.signal .resume job.pid .cont (.ok ()))
        (⟨.evaluate line, p.jobs, p.deferrals⟩ :: earlier) →
      Command.Resumes line reference state → p.jobs.find? reference = some job →
      job.state = .stopped → p.jobs.setState job.pid state = .ok jobs →
      Owes p (.resume job.pid state)

def Settled (p : Past) : Prop := ∀ d, ¬ p.Owes d

section Steps
variable (σ : Type) [Host σ]

/-- One deed of a shell on a host of type `σ`, which gives the answers. -/
inductive Move (p : Past) : Past → Prop where
  | drain : Move p (p.record .drain p.jobs p.deferrals)
  | evaluate (line : String) : Move p (p.record (.evaluate line) p.jobs p.deferrals)
  | defer (h : σ) : (Host.defer h).1 = .ok () →
      Move p (p.record (.defer (.ok ())) p.jobs (p.deferrals + 1))
  | deferFailed (h : σ) {e : SystemError} : (Host.defer h).1 = .error e →
      Move p (p.record (.defer (.error e)) p.jobs p.deferrals)
  | release : Move p (p.record .release p.jobs (p.deferrals - 1))
  | spawn (h : σ) (request : LaunchRequest) : p.jobs.isFull = false → 0 < p.deferrals →
      Move p (p.record (.spawn request (Host.spawn request h).1) p.jobs p.deferrals)
  /-- A process that was just started is entered in the table. -/
  | register {request : LaunchRequest} {pid : Pid} {earlier : Journal} {i : Nat} {jobs : Table} :
      p.Just (.spawn request (.ok pid)) earlier →
      p.jobs.add pid request.state request.line = .ok (i, jobs) →
      Move p (p.record (.register ⟨i, pid, request.state, request.line⟩) jobs p.deferrals)
  | await (h : σ) : Move p (p.record (.fetch true (Host.await h).1) p.jobs p.deferrals)
  | pending (h : σ) : Move p (p.record (.fetch false (Host.pending h).1) p.jobs p.deferrals)
  | apply (n : Notification) : Move p (p.record (.apply n) (p.jobs.applied n) p.deferrals)
  /-- A key that was just taken up is passed on to the foreground job. -/
  | key (h : σ) {signal : Signal} {earlier : Journal} {target : Pid} :
      p.Just (.apply (.keyboard signal)) earlier → p.jobs.foreground? = some target →
      Move p (p.record (.signal .keyboard target signal (Host.signalGroup target signal h).1)
        p.jobs p.deferrals)
  /-- The stopped job that a line names is told to go on. -/
  | wake (h : σ) {line : String} {earlier : Journal} {reference : Job.Reference}
      {state : Job.State} {job : Job} :
      p.Just (.evaluate line) earlier → Command.Resumes line reference state →
      p.jobs.find? reference = some job → job.state = .stopped →
      Move p (p.record (.signal .resume job.pid .cont (Host.signalGroup job.pid .cont h).1)
        p.jobs p.deferrals)
  /-- The job that was just told to go on does. -/
  | resume {line : String} {earlier : Journal} {reference : Job.Reference} {state : Job.State}
      {job : Job} {jobs : Table} :
      p.Just (.signal .resume job.pid .cont (.ok ()))
        (⟨.evaluate line, p.jobs, p.deferrals⟩ :: earlier) →
      Command.Resumes line reference state → p.jobs.find? reference = some job →
      job.state = .stopped → p.jobs.setState job.pid state = .ok jobs →
      Move p (p.record (.resume job.pid state) jobs p.deferrals)

/-- One deed, and the one that is due if there is one. -/
structure Step (p q : Past) : Prop where
  move : Move σ p q
  prompt : ∀ d, p.Owes d → q.journal = ⟨d, p.jobs, p.deferrals⟩ :: p.journal

def Recorded (p : Past) : Prop := Relation.ReflTransGen (Step σ) ⟨[], .standard, 0⟩ p

/-- Steps lead from the one past to the other, and leave nothing due if nothing was. -/
def Reach (p q : Past) : Prop := p.Settled → Relation.ReflTransGen (Step σ) p q ∧ q.Settled

end Steps

variable {σ : Type} [Host σ] {p q r : Past}

/-- A move adds an entry with the table before it. -/
theorem Move.journal (h : Move σ p q) :
    ∃ deed, q.journal = ⟨deed, p.jobs, p.deferrals⟩ :: p.journal := by
  cases h <;> exact ⟨_, rfl⟩

theorem Move.update (h : Move σ p q) : p.jobs.Update q.jobs := by
  cases h with
  | register _ hadd =>
    obtain ⟨admits, fresh, rfl⟩ := Table.add_eq_ok_iff.1 hadd
    exact .add admits fresh
  | apply n => exact p.jobs.update_applied n
  | resume _ _ _ _ hset =>
    obtain ⟨moves, rfl⟩ := Table.setState_eq_ok_iff.1 hset
    exact .move moves
  | _ => exact .none

/-- A deed that can make another one due changes nothing itself. -/
theorem Move.unchanged {e : Journal.Entry} (h : Move σ p q) (hj : q.journal = e :: p.journal)
    (hb : e.deed.binds) : q = ⟨e :: p.journal, p.jobs, p.deferrals⟩ := by
  cases h <;> obtain ⟨rfl, -⟩ := List.cons.inj hj <;> first | rfl | cases hb

theorem journal_suffix (h : Relation.ReflTransGen (Step σ) p q) : p.journal <:+ q.journal := by
  induction h with
  | refl => exact List.suffix_rfl
  | tail _ hstep ih =>
    obtain ⟨deed, hj⟩ := hstep.move.journal
    rw [hj]
    exact ih.trans (List.suffix_cons _ _)

/-- The deed before a moment led to it by a step. -/
theorem Recorded.step {e : Journal.Entry} {earlier : Journal} (h : Recorded σ q)
    (hj : q.journal = e :: earlier) :
    Recorded σ (e.past earlier) ∧ Step σ (e.past earlier) q := by
  rcases Relation.ReflTransGen.cases_tail h with rfl | ⟨p, hp, hstep⟩
  · cases hj
  · obtain ⟨deed, hj'⟩ := hstep.move.journal
    rw [hj'] at hj
    obtain ⟨rfl, rfl⟩ := List.cons.inj hj
    exact ⟨hp, hstep⟩

/-! ## What is due -/

theorem Owes.unique {p : Past} {d d' : Deed} (h : p.Owes d) (h' : p.Owes d') : d = d' := by
  cases h with
  | register just hadd =>
    cases h' with
    | register just' hadd' =>
      have he := just.symm.trans just'
      simp only [List.cons.injEq, Journal.Entry.mk.injEq, Deed.spawn.injEq, Except.ok.injEq] at he
      obtain ⟨⟨⟨rfl, rfl⟩, -⟩, -⟩ := he
      rw [hadd] at hadd'
      cases hadd'
      rfl
    | resume just' => cases just.symm.trans just'
  | resume just resumes =>
    cases h' with
    | register just' => cases just.symm.trans just'
    | resume just' resumes' =>
      have he := just.symm.trans just'
      simp only [List.cons.injEq, Journal.Entry.mk.injEq, Deed.signal.injEq, Deed.evaluate.injEq]
        at he
      obtain ⟨⟨⟨-, hpid, -⟩, -⟩, ⟨rfl, -⟩, -⟩ := he
      rw [hpid, (resumes.unique resumes').2]

theorem settled_of_journal {p : Past} {e : Journal.Entry} {earlier : Journal}
    (h : p.journal = e :: earlier) (hb : e.deed.binds = false) : p.Settled := by
  have hdeed {d : Deed} {earlier : Journal} (just : p.Just d earlier) : d.binds = false := by
    obtain ⟨rfl, -⟩ := List.cons.inj (h.symm.trans just)
    exact hb
  rintro d (⟨just, -⟩ | ⟨just, -⟩) <;> cases hdeed just

theorem settled_nil (jobs : Table) (n : Nat) : Settled ⟨[], jobs, n⟩ := by
  rintro d (⟨just, -⟩ | ⟨just, -⟩) <;> cases just

/-! ## Steps between settled pasts -/

theorem Reach.refl (p : Past) : p.Reach σ p := fun hp => ⟨.refl, hp⟩

theorem Reach.trans (h : p.Reach σ q) (h' : q.Reach σ r) : p.Reach σ r := by
  intro hp
  obtain ⟨hpq, hq⟩ := h hp
  obtain ⟨hqr, hr⟩ := h' hq
  exact ⟨hpq.trans hqr, hr⟩

theorem Move.step (h : Move σ p q) (hp : p.Settled) : Step σ p q :=
  ⟨h, fun d hd => absurd hd (hp d)⟩

theorem Move.reach (h : Move σ p q) (hq : q.Settled) : p.Reach σ q :=
  fun hp => ⟨.single (h.step hp), hq⟩

/-- A move, and then the one that it makes due. -/
theorem Move.reach_owed {d : Deed} (h : Move σ p q) (h' : Move σ q r) (hd : q.Owes d)
    (hr : r.journal = ⟨d, q.jobs, q.deferrals⟩ :: q.journal) (settled : r.Settled) :
    p.Reach σ r := by
  intro hp
  have hstep : Step σ q r := ⟨h', fun d' hd' => (hd.unique hd') ▸ hr⟩
  exact ⟨.tail (.single (h.step hp)) hstep, settled⟩

/-! ## Moments -/

inductive Includes (p : Past) : Past → Prop where
  | now : Includes p p
  | before {newer earlier : Journal} {e : Journal.Entry} : p.journal = newer ++ e :: earlier →
      Includes p (e.past earlier)

theorem Step.includes (h : Step σ p q) (hr : q.Includes r) : r = q ∨ p.Includes r := by
  obtain ⟨deed, hj⟩ := h.move.journal
  cases hr with
  | now => exact .inl rfl
  | @before newer earlier e he =>
    rw [hj] at he
    cases newer with
    | nil =>
      obtain ⟨rfl, rfl⟩ := List.cons.inj he
      exact .inr .now
    | cons _ newer => exact .inr (.before (List.cons.inj he).2)

/-- Every moment of a recorded past is recorded. -/
theorem Recorded.includes (h : Recorded σ p) (hq : p.Includes q) : Recorded σ q := by
  induction h with
  | refl =>
    cases hq with
    | now => exact Relation.ReflTransGen.refl
    | before he => simp at he
  | tail hpast hstep ih =>
    rcases hstep.includes hq with rfl | hq
    · exact hpast.tail hstep
    · exact ih hq

/-- A step with the deed of an entry leads to the moment just after it. -/
theorem Recorded.entry (h : Recorded σ p) {newer earlier : Journal} {e : Journal.Entry}
    (hj : p.journal = newer ++ e :: earlier) :
    ∃ q, p.Includes q ∧ q.journal = e :: earlier ∧ Step σ (e.past earlier) q := by
  obtain rfl | ⟨later, e', rfl⟩ := List.eq_nil_or_concat newer
  · exact ⟨p, .now, hj, (h.step hj).2⟩
  · have hq : p.Includes (e'.past (e :: earlier)) := .before (by simpa using hj)
    exact ⟨_, hq, rfl, ((h.includes hq).step rfl).2⟩

/-- The moment just after a deed that can make another one due. -/
theorem Recorded.bound (h : Recorded σ p) {newer earlier : Journal} {e : Journal.Entry}
    (hj : p.journal = newer ++ e :: earlier) (hb : e.deed.binds) :
    p.Includes ⟨e :: earlier, e.jobs, e.deferrals⟩ ∧
      Step σ (e.past earlier) ⟨e :: earlier, e.jobs, e.deferrals⟩ := by
  obtain ⟨q, hq, hqj, hstep⟩ := h.entry hj
  obtain rfl : q = ⟨e :: earlier, e.jobs, e.deferrals⟩ := hstep.move.unchanged hqj hb
  exact ⟨hq, hstep⟩

/-- What is due at a moment is done next, if nothing is due in the end. -/
theorem Recorded.owed (h : Recorded σ p) (settled : p.Settled) (hq : p.Includes q) {d : Deed}
    (hd : q.Owes d) :
    ∃ r, p.Includes r ∧ Step σ q r ∧ r.journal = ⟨d, q.jobs, q.deferrals⟩ :: q.journal := by
  cases hq with
  | now => exact absurd hd (settled d)
  | before hj =>
    obtain ⟨r, hr, -, hstep⟩ := h.entry hj
    exact ⟨r, hr, hstep, hstep.prompt d hd⟩

end Past
end JobControl
