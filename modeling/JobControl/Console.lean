import JobControl.Command
import JobControl.Notification

/-!
# What the shell says

* `Notice`, `Complaint` : the messages of the shell to standard output and to standard error, and
  their texts;
* `Sink` : a stream that messages are written to, and that may be broken;
* `Console` : the two sinks, and whether diagnostics are shown.

Failing to write a message is nothing the shell can act on, so a message to a broken sink is
dropped. Diagnostics have a handle of their own on standard output.

A broken sink fails every write and every flush. So an empty listing, of which nothing is written,
fails on it too, as the listing is flushed. A sink that fails part of the way, in the middle of a
message or after some of them, is left out.
-/

set_option autoImplicit false

namespace JobControl

inductive Notice where
  | prompt
  /-- An empty line, after the last line of input. -/
  | blank
  /-- A job goes on in the background. -/
  | announced (job : Job)
  | listing (jobs : List Job)
  | terminated (id : Nat) (pid : Pid) (signal : Signal)
  | stopped (id : Nat) (pid : Pid) (signal : Signal)
  | quitting
  /-- Diagnostics: a job was started. -/
  | added (job : Job)
  /-- Diagnostics: a job has exited. -/
  | deleted (job : Job)
  /-- Diagnostics: the shell exits with so many jobs left. -/
  | leaving (jobs : Nat)
  deriving DecidableEq, Repr

namespace Notice

def promptText : String := "tsh> "

def text : Notice → String
  | .prompt => promptText
  | .blank => "\n"
  | .announced job => job.announcement ++ "\n"
  | .listing jobs => Job.listing jobs
  | .terminated id pid signal => s!"Job [{id}] ({pid}) terminated by signal {signal}\n"
  | .stopped id pid signal => s!"Job [{id}] ({pid}) stopped by signal {signal}\n"
  | .quitting => "Terminating after receipt of SIGQUIT signal\n"
  | .added job => s!"Added job [{job.id}] {job.pid} {job.pid} {job.line}\n"
  | .deleted job => s!"{job.announcement} deleted\n"
  | .leaving jobs => s!"quit with {jobs} jobs left\n"

/-- Shown only when diagnostics are turned on. -/
def isDiagnostic : Notice → Bool
  | .added _ | .deleted _ | .leaving _ => true
  | _ => false

end Notice

inductive Complaint where
  | unreadable (fault : Command.Fault)
  | refused (reason : Table.Refusal)
  | needsReference (builtin : Builtin)
  | badReference (builtin : Builtin)
  | noSuchJob
  | isRunning (id : Nat) (pid : Pid)
  | notResumed (builtin : Builtin) (cause : SystemError)
  /-- A listing could not be written to the file, or to standard output. -/
  | notListed (target : Option String) (cause : SystemError)
  /-- A child changed that is no job. -/
  | strayChild (pid : Pid)
  | failed (error : Error)
  deriving DecidableEq, Repr

namespace Complaint

def text : Complaint → String
  | .unreadable fault => fault.message ++ "\n"
  | .refused reason => reason.message ++ "\n"
  | .needsReference builtin => s!"{builtin.name} command requires PID or %jobid argument\n"
  | .badReference builtin => s!"{builtin.name}: argument must be a PID or %jobid\n"
  | .noSuchJob => "No such job\n"
  | .isRunning id pid => s!"[{id}] {pid} is running now\n"
  | .notResumed builtin cause => s!"{builtin.name}: {cause.message}\n"
  | .notListed target cause => target.getD Builtin.jobs.name ++ s!": {cause.message}\n"
  | .strayChild pid => s!"tsh: no job for reaped process {pid}\n"
  | .failed error => s!"tsh: {error.message}\n"

end Complaint

structure Sink (α : Type) where
  /-- The messages that were written, newest first. -/
  written : List α := []
  /-- Every write fails, and every flush. -/
  broken : Bool := false
  deriving DecidableEq, Repr

namespace Sink
variable {α : Type}

/-- Write a message, whether or not the sink is broken. -/
def put (s : Sink α) (message : α) : Sink α := { s with written := message :: s.written }

/-- Write a message and flush it, or fail. -/
def write (s : Sink α) (message : α) : Except SystemError (Sink α) :=
  if s.broken then .error .brokenPipe else .ok (s.put message)

/-- Write a message if possible. -/
def say (s : Sink α) (message : α) : Sink α := if s.broken then s else s.put message

def messages (s : Sink α) : List α := s.written.reverse

/-- The bytes of the messages after the first `n`, given the texts of messages. -/
def bytesAfter (s : Sink α) (n : Nat) (text : α → String) : List UInt8 :=
  (s.messages.drop n).flatMap fun message => Utf8.encode (text message)

end Sink

structure Console where
  out : Sink Notice := {}
  err : Sink Complaint := {}
  /-- Diagnostics are shown. -/
  verbose : Bool := false
  deriving DecidableEq, Repr

namespace Console

def say (c : Console) (n : Notice) : Console := { c with out := c.out.say n }

def complain (c : Console) (m : Complaint) : Console := { c with err := c.err.say m }

def report (c : Console) (n : Notice) : Console :=
  if c.verbose then { c with out := c.out.put n } else c

/-- What was written to standard output. -/
def outText (c : Console) : String := String.join (c.out.messages.map Notice.text)

/-- What was written to standard error. -/
def errText (c : Console) : String := String.join (c.err.messages.map Complaint.text)

/-- The console with everything written so far forgotten. -/
def fresh (c : Console) : Console :=
  { c with out := { c.out with written := [] }, err := { c.err with written := [] } }

end Console
end JobControl
