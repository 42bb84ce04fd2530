import JobControl.Job.Table
import JobControl.SystemError
import JobControl.WaitStatus

/-!
# Errors and notifications

* `Error` : what the shell can fail with: it is fatal (the shell cannot go on), a refusal of the job
  table, or another failed request. `Error.message` is the text shown, `Error.source?` the text of the
  failure below it;
* `Notification` : what the shell has to react to: a child changed, the user pressed a key, the shell
  shall quit;
* `Wait` : the answer to asking once, without blocking, for a child that changed;
* `Notification.reap` : ask until nothing is left, since one signal may stand for many children;
* `Notification.ofSignal` : the notifications that one received signal stands for;
* `Notification.ofSignals` : the same for a queue of signals.
-/

set_option autoImplicit false

namespace JobControl

/-! ## Errors -/

inductive Error where
  /-- The surroundings are broken; `context` says what the shell was doing. -/
  | fatal (context : String) (cause : SystemError)
  /-- The job table refused an operation. -/
  | table (reason : Table.Refusal)
  | io (cause : SystemError)
  deriving DecidableEq, Repr

namespace Error

def message : Error → String
  | .fatal context cause => s!"{context}: {cause.message}"
  | .table reason => reason.message
  | .io cause => s!"IO error: {cause.message}"

def source? : Error → Option String
  | .fatal _ cause | .io cause => some cause.message
  | .table _ => none

/-- The error brings the whole shell down. -/
def isFatal : Error → Bool
  | .fatal _ _ => true
  | _ => false

end Error

/-! ## Notifications -/

inductive Notification where
  /-- A child exited, was killed or was stopped. -/
  | child (pid : Pid) (change : ChildChange)
  /-- The user pressed the key that sends this signal to the foreground job. -/
  | keyboard (signal : Signal)
  /-- The shell was asked to quit. -/
  | quit
  deriving DecidableEq, Repr

/-- The answer to asking for a child that changed. -/
inductive Wait where
  | changed (pid : Pid) (status : WaitStatus)
  /-- Every child is as it was. -/
  | notReady
  | failed (cause : SystemError)
  deriving DecidableEq, Repr

namespace Notification

/-- Collect the changes of children, given the answers to asking for one time after time (nothing
is left when they run out), and the answers not used up. -/
def reap : List Wait → Except Error (List Notification) × List Wait
  | [] => (.ok [], [])
  | .notReady :: rest => (.ok [], rest)
  | .failed cause :: rest =>
    if cause = .noChild then (.ok [], rest)
    else if cause.isInterrupted then reap rest
    else (.error (.fatal "waitpid error" cause), rest)
  | .changed pid status :: rest =>
    match reap rest with
    | (.ok later, left) =>
      match status.change? with
      | some change => (.ok (.child pid change :: later), left)
      | none => (.ok later, left)
    | (.error e, left) => (.error e, left)

/-- The notifications that a received signal stands for, given the answers to asking for
children. -/
def ofSignal (signal : Signal) (waits : List Wait) :
    Except Error (List Notification) × List Wait :=
  if signal = .chld then reap waits
  else if signal = .int ∨ signal = .tstp then (.ok [.keyboard signal], waits)
  else if signal = .quit then (.ok [.quit], waits)
  else (.ok [], waits)

/-- The notifications that received signals stand for, oldest signal first, and what was not
used up when one of them failed. -/
def ofSignals : List Signal → List Wait →
    Except Error (List Notification) × List Signal × List Wait
  | [], waits => (.ok [], [], waits)
  | signal :: rest, waits =>
    match ofSignal signal waits with
    | (.error e, left) => (.error e, rest, left)
    | (.ok now, left) =>
      match ofSignals rest left with
      | (.ok later, after) => (.ok (now ++ later), after)
      | (.error e, after) => (.error e, after)

end Notification

end JobControl
