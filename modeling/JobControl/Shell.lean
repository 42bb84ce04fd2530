import JobControl.Host

/-!
# The state of a shell

* `Deed` : a request to the system with its answer, or a change that the shell makes;
* `Journal.Entry` : a deed, with the job table and the number of deferrals in force just before it;
* `Journal` : the entries, newest first; `spawned` and `signalled` read off what processes were
  started and what signals were sent, oldest first;
* `Shell` : the job table, the host it runs on, its console and its journal;
* `Shell.note` : a new entry of the journal;
* `Shell.defer`, `release`, `spawn`, `signal`, `await`, `pending` : the requests to the host, each
  with its entry in the journal.
-/

set_option autoImplicit false

namespace JobControl

/-! ## The journal -/

/-- Why the shell sends a signal. -/
inductive Origin where
  /-- The user pressed a key. -/
  | keyboard
  /-- The user resumes a job. -/
  | resume
  deriving DecidableEq, Repr

inductive Deed where
  /-- All the news is about to be taken up, without waiting. -/
  | drain
  /-- A line is about to be evaluated. -/
  | evaluate (line : String)
  | defer (answer : Except SystemError Unit)
  | release
  | spawn (request : LaunchRequest) (answer : Except SystemError Pid)
  /-- A started process is entered in the table. -/
  | register (job : Job)
  /-- News is fetched; `waiting` if the shell slept until there was some. -/
  | fetch (waiting : Bool) (answer : Except Error (List Notification))
  | apply (notification : Notification)
  | signal (origin : Origin) (target : Pid) (signal : Signal) (answer : Except SystemError Unit)
  /-- A stopped job goes on in this state. -/
  | resume (pid : Pid) (state : Job.State)

namespace Journal

structure Entry where
  deed : Deed
  jobs : Table
  deferrals : Nat

end Journal

/-- The entries, newest first. -/
abbrev Journal := List Journal.Entry

namespace Journal

/-- The requests that processes were started for, each with the deferrals in force. -/
def spawned (j : Journal) : List (LaunchRequest × Nat) :=
  j.reverse.filterMap fun e =>
    match e.deed with
    | .spawn request (.ok _) => some (request, e.deferrals)
    | _ => none

/-- The signals that were sent. -/
def signalled (j : Journal) : List (Pid × Signal) :=
  j.reverse.filterMap fun e =>
    match e.deed with
    | .signal _ target signal (.ok _) => some (target, signal)
    | _ => none

end Journal

/-! ## The shell -/

structure Shell (σ : Type) where
  host : σ
  jobs : Table := .standard
  console : Console := {}
  /-- How many deferrals are in force. -/
  deferrals : Nat := 0
  journal : Journal := []

namespace Shell
variable {σ : Type}

def note (s : Shell σ) (deed : Deed) : Shell σ :=
  { s with journal := ⟨deed, s.jobs, s.deferrals⟩ :: s.journal }

def say (s : Shell σ) (n : Notice) : Shell σ := { s with console := s.console.say n }

def report (s : Shell σ) (n : Notice) : Shell σ := { s with console := s.console.report n }

def complain (s : Shell σ) (m : Complaint) : Shell σ := { s with console := s.console.complain m }

/-- The shell with its journal and its console empty. -/
def fresh (s : Shell σ) : Shell σ := { s with console := s.console.fresh, journal := [] }

variable [Host σ]

def defer (s : Shell σ) : Except SystemError Unit × Shell σ :=
  let (answer, host) := Host.defer s.host
  let noted := { s.note (.defer answer) with host }
  match answer with
  | .ok () => (.ok (), { noted with deferrals := s.deferrals + 1 })
  | .error e => (.error e, noted)

def release (s : Shell σ) : Shell σ :=
  { s.note .release with host := Host.release s.host, deferrals := s.deferrals - 1 }

def spawn (s : Shell σ) (request : LaunchRequest) : Except SystemError Pid × Shell σ :=
  let (answer, host) := Host.spawn request s.host
  (answer, { s.note (.spawn request answer) with host })

def signal (s : Shell σ) (origin : Origin) (target : Pid) (sig : Signal) :
    Except SystemError Unit × Shell σ :=
  let (answer, host) := Host.signalGroup target sig s.host
  (answer, { s.note (.signal origin target sig answer) with host })

/-- Sleep until there is news. Until then jobs run, so the host hears first what was written. -/
def await (s : Shell σ) : Except Error (List Notification) × Shell σ :=
  let (news, host) := Host.await (Host.hear s.console s.host)
  (news, { s.note (.fetch true news) with host })

/-- All the news there is. -/
def pending (s : Shell σ) : Except Error (List Notification) × Shell σ :=
  let (news, host) := Host.pending s.host
  (news, { s.note (.fetch false news) with host })

end Shell

end JobControl
