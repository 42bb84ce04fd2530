import JobControl.Host.Scripted
import JobControl.Shell.Eval
import Mathlib.Data.List.Basic

/-!
# Lines that leave everything in place

* `Upshot` : what a line comes to: what the shell does next, what it complains about, what is on its
  standard output, and the host;
* `Declines` : what makes a `bg` or an `fg` come to nothing; `Lists` : the ways in which `jobs` ends;
* `Harmless` : the lines that come to nothing, what the user can be blamed for among them;
* `Leaves` : the table, the deferrals and the requests stay as they were; `leaves_resume`,
  `leaves_list` : they do where `bg`, `fg` and `jobs` come to nothing;
* `in_place_of_harmless` : and on every harmless line.
-/

set_option autoImplicit false

namespace JobControl

def Builtin.resumed? : Builtin → Option Job.State
  | .bg => some .background
  | .fg => some .foreground
  | _ => none

namespace Journal

theorem spawned_append {new j : Journal}
    (h : ∀ e ∈ new, ∀ request pid, e.deed ≠ .spawn request (.ok pid)) :
    spawned (new ++ j) = spawned j := by
  rw [spawned, List.reverse_append, List.filterMap_append]
  refine List.append_right_eq_self.2 (List.filterMap_eq_nil_iff.2 fun e he => ?_)
  split
  · next request pid hdeed => exact absurd hdeed (h e (List.mem_reverse.1 he) request pid)
  · rfl

theorem signalled_append {new j : Journal}
    (h : ∀ e ∈ new, ∀ origin pid sig, e.deed ≠ .signal origin pid sig (.ok ())) :
    signalled (new ++ j) = signalled j := by
  rw [signalled, List.reverse_append, List.filterMap_append]
  refine List.append_right_eq_self.2 (List.filterMap_eq_nil_iff.2 fun e he => ?_)
  split
  · next origin pid sig u hdeed => exact absurd hdeed (h e (List.mem_reverse.1 he) origin pid sig)
  · rfl

end Journal

namespace Shell
variable {σ : Type}

/-- What a line comes to. -/
structure Upshot (σ : Type) where
  flow : Flow
  complaint : Option Complaint
  out : Sink Notice
  host : σ

/-- A shell that was `s` ended with `r`, which is what `u` says. Its table and its deferrals are as they
were, and the journal knows of no request since but for a signal that could not be sent. -/
structure Leaves (s : Shell σ) (u : Upshot σ) (r : Except Error Flow × Shell σ) : Prop where
  answer : r.1 = .ok u.flow
  jobs : r.2.jobs = s.jobs
  console : r.2.console =
    { s.console with out := u.out, err := u.complaint.elim s.console.err s.console.err.say }
  host : r.2.host = u.host
  deferrals : r.2.deferrals = s.deferrals
  journal : ∃ new, r.2.journal = new ++ s.journal ∧
    ∀ e ∈ new, ∃ pid cause, e.deed = .signal .resume pid .cont (.error cause)

/-- The line has changed nothing but what `u` says: no news was fetched, no process started and no
signal sent. -/
structure InPlace (s : Shell σ) (line : String) (u : Upshot σ) (r : Except Error Flow × Shell σ) :
    Prop extends Leaves (s.note (.evaluate line)) u r where
  spawned : r.2.journal.spawned = s.journal.spawned
  signalled : r.2.journal.signalled = s.journal.signalled

variable [Host σ]

/-! ## What comes to nothing -/

/-- Why `bg` or `fg` with these words comes to nothing. -/
inductive Declines (s : Shell σ) (builtin : Builtin) (state : Job.State) :
    List String → Upshot σ → Prop where
  | count {argv : List String} : argv.length ≠ 2 →
      Declines s builtin state argv
        ⟨.continue, some (.needsReference builtin), s.console.out, s.host⟩
  | unreadable {name arg : String} : Job.Reference.parse? arg = none →
      Declines s builtin state [name, arg]
        ⟨.continue, some (.badReference builtin), s.console.out, s.host⟩
  | unresolved {name arg : String} {reference : Job.Reference} :
      Job.Reference.parse? arg = some reference → s.jobs.find? reference = none →
      Declines s builtin state [name, arg] ⟨.continue, some .noSuchJob, s.console.out, s.host⟩
  | running {name arg : String} {reference : Job.Reference} {job : Job} :
      Job.Reference.parse? arg = some reference → s.jobs.find? reference = some job →
      job.state ≠ .stopped →
      Declines s builtin state [name, arg]
        ⟨.continue, some (.isRunning job.id job.pid), s.console.out, s.host⟩
  /-- The signal cannot be sent; a job for the background has been announced by then. -/
  | unsent {name arg : String} {reference : Job.Reference} {job : Job} {cause : SystemError} :
      Job.Reference.parse? arg = some reference → s.jobs.find? reference = some job →
      job.state = .stopped → (Host.signalGroup job.pid .cont s.host).1 = .error cause →
      Declines s builtin state [name, arg]
        ⟨.continue, some (.notResumed builtin cause),
          if state = .background then s.console.out.say (.announced job) else s.console.out,
          (Host.signalGroup job.pid .cont s.host).2⟩

def listingSaved (s : Shell σ) (path : String) : Except SystemError Unit × σ :=
  Host.writeFile path s.jobs.listing (Host.hear s.console s.host)

/-- How `jobs` ends, on standard output or with a file. -/
inductive Lists (s : Shell σ) : Option String → Upshot σ → Prop where
  | shown : s.console.out.broken = false →
      Lists s none ⟨.continue, none, s.console.out.put (.listing s.jobs.jobs), s.host⟩
  | broken : s.console.out.broken = true →
      Lists s none ⟨.continue, some (.notListed none .brokenPipe), s.console.out, s.host⟩
  | saved {path : String} : (s.listingSaved path).1 = .ok () →
      Lists s (some path) ⟨.continue, none, s.console.out, (s.listingSaved path).2⟩
  | unsaved {path : String} {cause : SystemError} : (s.listingSaved path).1 = .error cause →
      Lists s (some path)
        ⟨.continue, some (.notListed (some path) cause), s.console.out, (s.listingSaved path).2⟩

/-- The line comes to nothing, be it that the user is to blame, that there is nothing to do, or that
the shell only shows something. -/
inductive Harmless (s : Shell σ) (line : String) : Upshot σ → Prop where
  | unreadable {fault : Command.Fault} : Command.parse line = .error fault →
      Harmless s line ⟨.continue, some (.unreadable fault), s.console.out, s.host⟩
  | nothing : Command.parse line = .ok none →
      Harmless s line ⟨.continue, none, s.console.out, s.host⟩
  | full {command : Command} : Command.parse line = .ok (some command) →
      command.builtin = none → s.jobs.isFull = true →
      Harmless s line ⟨.continue, some (.refused .full), s.console.out, s.host⟩
  | resume {command : Command} {builtin : Builtin} {state : Job.State} {u : Upshot σ} :
      Command.parse line = .ok (some command) → command.builtin = some builtin →
      builtin.resumed? = some state → s.Declines builtin state command.argv u →
      Harmless s line u
  | jobs {command : Command} {u : Upshot σ} : Command.parse line = .ok (some command) →
      command.builtin = some .jobs → s.Lists command.output u → Harmless s line u
  | quit {command : Command} : Command.parse line = .ok (some command) →
      command.builtin = some .quit →
      Harmless s line ⟨.exit 0, none, (s.console.report (.leaving s.jobs.size)).out, s.host⟩

variable {s : Shell σ} {u : Upshot σ} {r : Except Error Flow × Shell σ}

theorem Declines.note {builtin : Builtin} {state : Job.State} {argv : List String}
    (h : s.Declines builtin state argv u) (d : Deed) : (s.note d).Declines builtin state argv u := by
  cases h with
  | count h => exact .count h
  | unreadable h => exact .unreadable h
  | unresolved hparse hfind => exact .unresolved hparse hfind
  | running hparse hfind hrunning => exact .running hparse hfind hrunning
  | unsent hparse hfind hstopped hfail => exact .unsent hparse hfind hstopped hfail

theorem Lists.note {target : Option String} (h : s.Lists target u) (d : Deed) :
    (s.note d).Lists target u := by
  cases h with
  | shown h => exact .shown h
  | broken h => exact .broken h
  | saved h => exact .saved h
  | unsaved h => exact .unsaved h

/-! ## What is left in place -/

omit [Host σ] in
theorem leaves_reject (s : Shell σ) (m : Complaint) :
    Leaves s ⟨.continue, some m, s.console.out, s.host⟩ (s.reject m) :=
  ⟨rfl, rfl, rfl, rfl, rfl, [], rfl, by simp⟩

omit [Host σ] in
theorem leaves_report (s : Shell σ) (n : Notice) (flow : Flow) :
    Leaves s ⟨flow, none, (s.console.report n).out, s.host⟩ (.ok flow, s.report n) := by
  have hconsole : s.console.report n = { s.console with out := (s.console.report n).out } := by
    unfold Console.report
    split <;> rfl
  exact ⟨rfl, rfl, hconsole, rfl, rfl, [], rfl, by simp⟩

omit [Host σ] in
theorem Leaves.of_say {n : Notice} (h : Leaves (s.say n) u r) : Leaves s u r :=
  ⟨h.answer, h.jobs, h.console, h.host, h.deferrals, h.journal⟩

theorem leaves_continueJob {job : Job} {cause : SystemError}
    (hfail : (Host.signalGroup job.pid .cont s.host).1 = .error cause) (builtin : Builtin)
    (state : Job.State) :
    Leaves s ⟨.continue, some (.notResumed builtin cause), s.console.out,
      (Host.signalGroup job.pid .cont s.host).2⟩ (s.continueJob builtin job state) := by
  have hsignal : s.signal .resume job.pid .cont = (.error cause,
      { s.note (.signal .resume job.pid .cont (.error cause)) with
        host := (Host.signalGroup job.pid .cont s.host).2 }) := by
    simp [signal, hfail]
  rw [continueJob, hsignal]
  exact ⟨rfl, rfl, rfl, rfl, rfl, [_], rfl, by simp⟩

theorem leaves_resume {builtin : Builtin} {state : Job.State} {argv : List String}
    (h : s.Declines builtin state argv u) : Leaves s u (s.resume builtin state argv) := by
  cases h with
  | count hcount =>
    unfold resume
    split
    · exact absurd rfl hcount
    · exact s.leaves_reject _
  | unreadable hparse =>
    simp only [resume, hparse]
    exact s.leaves_reject _
  | unresolved hparse hfind =>
    simp only [resume, hparse, hfind]
    exact s.leaves_reject _
  | running hparse hfind hrunning =>
    simp only [resume, hparse, hfind, if_pos hrunning]
    exact s.leaves_reject _
  | @unsent name arg reference job cause hparse hfind hstopped hfail =>
    have hcontinue : s.resume builtin state [name, arg] =
        (if state = .background then s.say (.announced job) else s).continueJob builtin job state := by
      simp only [resume, hparse, hfind, ne_eq, hstopped, not_true_eq_false, if_false]
    rw [hcontinue]
    split
    · exact (leaves_continueJob (s := s.say (.announced job)) hfail builtin state).of_say
    · exact leaves_continueJob hfail builtin state

theorem leaves_list {target : Option String} (h : s.Lists target u) :
    Leaves s u (.ok .continue, s.list target) := by
  cases h with
  | shown h =>
    simp only [list, Sink.write, h]
    exact ⟨rfl, rfl, rfl, rfl, rfl, [], rfl, by simp⟩
  | broken h =>
    simp only [list, Sink.write, h]
    exact s.leaves_reject _
  | saved h =>
    rw [listingSaved] at h
    simp only [list, h]
    exact ⟨rfl, rfl, rfl, rfl, rfl, [], rfl, by simp⟩
  | unsaved h =>
    rw [listingSaved] at h
    simp only [list, h]
    exact ⟨rfl, rfl, rfl, rfl, rfl, [], rfl, by simp⟩

/-- A `bg` or an `fg` resumes the job that its words name. -/
theorem eval_resume {line : String} {command : Command} {builtin : Builtin} {state : Job.State}
    (parsed : Command.parse line = .ok (some command)) (hbuiltin : command.builtin = some builtin)
    (resumed : builtin.resumed? = some state) :
    s.eval line = (s.note (.evaluate line)).resume builtin state command.argv := by
  cases builtin with
  | bg =>
    cases resumed
    simp only [eval, parsed, hbuiltin]
  | fg =>
    cases resumed
    simp only [eval, parsed, hbuiltin]
  | quit => cases resumed
  | jobs => cases resumed

theorem leaves_eval {line : String} (h : s.Harmless line u) :
    Leaves (s.note (.evaluate line)) u (s.eval line) := by
  cases h with
  | unreadable hparse =>
    simp only [eval, hparse]
    exact leaves_reject _ _
  | nothing hparse =>
    simp only [eval, hparse]
    exact ⟨rfl, rfl, rfl, rfl, rfl, [], rfl, by simp⟩
  | full hparse hbuiltin hfull =>
    have hfull' : (s.note (.evaluate line)).jobs.isFull = true := hfull
    simp only [eval, hparse, hbuiltin, run, launch, if_pos hfull']
    exact leaves_reject _ _
  | resume hparse hbuiltin resumed hdeclines =>
    rw [eval_resume hparse hbuiltin resumed]
    exact leaves_resume (hdeclines.note (.evaluate line))
  | jobs hparse hbuiltin hlists =>
    simp only [eval, hparse, hbuiltin]
    exact leaves_list (hlists.note (.evaluate line))
  | quit hparse hbuiltin =>
    simp only [eval, hparse, hbuiltin]
    exact leaves_report _ _ _

omit [Host σ] in
theorem Leaves.inPlace {line : String} (h : Leaves (s.note (.evaluate line)) u r) :
    InPlace s line u r := by
  obtain ⟨new, hjournal, hnew⟩ := h.journal
  have hentries : r.2.journal = (new ++ [⟨.evaluate line, s.jobs, s.deferrals⟩]) ++ s.journal := by
    simp [hjournal, note]
  have hdeeds (e : Journal.Entry) (he : e ∈ new ++ [⟨.evaluate line, s.jobs, s.deferrals⟩]) :
      (∃ pid cause, e.deed = .signal .resume pid .cont (.error cause)) ∨ e.deed = .evaluate line := by
    rcases List.mem_append.1 he with he | he
    · exact .inl (hnew e he)
    · rw [List.mem_singleton.1 he]
      exact .inr rfl
  refine ⟨h, ?_, ?_⟩
  · rw [hentries]
    refine Journal.spawned_append fun e he request pid hspawn => ?_
    rcases hdeeds e he with ⟨pid, cause, hdeed⟩ | hdeed <;> cases hspawn.symm.trans hdeed
  · rw [hentries]
    refine Journal.signalled_append fun e he origin pid sig hsignal => ?_
    rcases hdeeds e he with ⟨pid, cause, hdeed⟩ | hdeed <;> cases hsignal.symm.trans hdeed

/-- **What the user can be blamed for leaves everything in place.** A line that cannot be read, a `bg`
or an `fg` that names no stopped job or cannot signal it, a command for a full table and a listing that
cannot be written each end in one complaint, and the shell goes on; a line with nothing to run and a
listing that can be written end in none, and `quit` ends the shell. The table is as it was, with its
counter; no news is fetched, no process started and no signal sent. -/
theorem in_place_of_harmless {line : String} (h : s.Harmless line u) :
    InPlace s line u (s.eval line) :=
  (leaves_eval h).inPlace

/-- The job is stopped, but the signal cannot be sent; it has been announced by then. -/
theorem in_place_unsent :
    let host : Scripted := { signalFailure := some .noProcess }
    let s : Shell Scripted := { host, jobs := .after 2 [.add ⟨7⟩ .stopped "vi"] }
    let u : Upshot Scripted :=
      ⟨.continue, some (.notResumed .bg .noProcess),
        { written := [.announced ⟨1, ⟨7⟩, .stopped, "vi"⟩] }, host⟩
    s.Harmless "bg %1" u ∧ InPlace s "bg %1" u (s.eval "bg %1") := by
  intro host s u
  have parsed : Command.parse "bg %1" = .ok (some { argv := ["bg", "%1"], builtin := some .bg }) := by
    decide +kernel
  have named : Job.Reference.parse? "%1" = some (.id 1) := by decide +kernel
  have declines : s.Declines .bg .background ["bg", "%1"] u :=
    .unsent named (by decide +kernel) rfl rfl
  have harmless : s.Harmless "bg %1" u := .resume parsed rfl rfl declines
  exact ⟨harmless, in_place_of_harmless harmless⟩

end Shell
end JobControl
