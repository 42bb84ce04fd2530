import JobControl.Command.Parse
import JobControl.Shell.Apply

/-!
# Evaluating a line

* `Shell.launch` : start the process of a job and enter it in the table. Signals stay held back from
  before the process exists until it is entered, so a job cannot be reported as finished before the
  table knows it. A full table refuses the job before any process is started;
* `Shell.eval` : carry out one command line, and return once no job is in the foreground;
* `Shell.run` : start a job; `Shell.resume` : `bg` and `fg`; `Shell.list` : `jobs`;
* `Shell.Op`, `Shell.perform` : the operations of a shell as data.

What the user can be blamed for ends in a complaint, and the shell goes on.
-/

set_option autoImplicit false

namespace JobControl.Shell
variable {σ : Type} [Host σ]

/-! ## Starting a job -/

/-- Enter a started process in the table. -/
def register (s : Shell σ) (request : LaunchRequest) (pid : Pid) : Except Error Job × Shell σ :=
  match s.jobs.add pid request.state request.line with
  | .error reason => (.error (.table reason), s)
  | .ok (id, jobs) =>
    let job : Job := ⟨id, pid, request.state, request.line⟩
    (.ok job, ({ s.note (.register job) with jobs }).report (.added job))

/-- Start the process of a job and enter it in the table, with signals held back. -/
def start (s : Shell σ) (request : LaunchRequest) : Except Error Job × Shell σ :=
  match s.spawn request with
  | (.error e, s) => (.error (.fatal "fork error" e), s)
  | (.ok pid, s) => s.register request pid

def launch (s : Shell σ) (request : LaunchRequest) : Except Error Job × Shell σ :=
  if s.jobs.isFull then (.error (.table .full), s)
  else
    match s.defer with
    | (.error e, s) => (.error (.fatal "sigprocmask error" e), s)
    | (.ok (), s) =>
      let (answer, s) := s.start request
      (answer, s.release)

/-! ## Carrying out a line -/

def reject (s : Shell σ) (m : Complaint) : Except Error Flow × Shell σ :=
  (.ok .continue, s.complain m)

/-- Start a job; unless it runs in the background, wait for it. -/
def run (s : Shell σ) (command : Command) (line : String) : Except Error Flow × Shell σ :=
  let request : LaunchRequest :=
    { argv := command.argv, input := command.input, output := command.output
      background := command.background, line }
  match s.launch request with
  | (.error (.table reason), s) => s.reject (.refused reason)
  | (.error e, s) => (.error e, s)
  | (.ok job, s) =>
    if command.background then (.ok .continue, s.say (.announced job)) else s.waitForeground

/-- Let a stopped job, found in the table, go on in `state`. -/
def continueJob (s : Shell σ) (builtin : Builtin) (job : Job) (state : Job.State) :
    Except Error Flow × Shell σ :=
  match s.signal .resume job.pid .cont with
  | (.error e, s) => s.reject (.notResumed builtin e)
  | (.ok (), s) =>
    match s.jobs.setState job.pid state with
    | .error reason => (.error (.table reason), s)
    | .ok jobs =>
      let s := { s.note (.resume job.pid state) with jobs }
      if state = .foreground then s.waitForeground else (.ok .continue, s)

/-- `bg` and `fg`: let a stopped job go on in `state`. -/
def resume (s : Shell σ) (builtin : Builtin) (state : Job.State) (argv : List String) :
    Except Error Flow × Shell σ :=
  match argv with
  | [_, arg] =>
    match Job.Reference.parse? arg with
    | none => s.reject (.badReference builtin)
    | some reference =>
      match s.jobs.find? reference with
      | none => s.reject .noSuchJob
      | some job =>
        if job.state ≠ .stopped then s.reject (.isRunning job.id job.pid)
        else
          (if state = .background then s.say (.announced job) else s).continueJob builtin job state
  | _ => s.reject (.needsReference builtin)

/-- `jobs`: list the jobs on standard output or into a file, which may be where the shell itself
writes to. -/
def list (s : Shell σ) (target : Option String) : Shell σ :=
  match target with
  | some path =>
    let (answer, host) := Host.writeFile path s.jobs.listing (Host.hear s.console s.host)
    let s := { s with host }
    match answer with
    | .ok () => s
    | .error e => s.complain (.notListed (some path) e)
  | none =>
    match s.console.out.write (.listing s.jobs.jobs) with
    | .ok out => { s with console := { s.console with out } }
    | .error e => s.complain (.notListed none e)

/-- Carry out one command line. -/
def eval (s : Shell σ) (line : String) : Except Error Flow × Shell σ :=
  let s := s.note (.evaluate line)
  match Command.parse line with
  | .error fault => s.reject (.unreadable fault)
  | .ok none => (.ok .continue, s)
  | .ok (some command) =>
    match command.builtin with
    | none => s.run command line
    | some .quit => (.ok (.exit 0), s.report (.leaving s.jobs.size))
    | some .jobs => (.ok .continue, s.list command.output)
    | some .bg => s.resume .bg .background command.argv
    | some .fg => s.resume .fg .foreground command.argv

/-! ## Operations as data -/

inductive Op where
  | eval (line : String)
  | drain
  deriving DecidableEq, Repr

def perform (s : Shell σ) : Op → Except Error Flow × Shell σ
  | .eval line => s.eval line
  | .drain => s.drain

/-- The shell after operations carried out one after another, whatever comes of each. -/
def after (s : Shell σ) (ops : List Op) : Shell σ := ops.foldl (fun s op => (s.perform op).2) s

end JobControl.Shell
