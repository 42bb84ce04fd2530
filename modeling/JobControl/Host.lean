import JobControl.Console

/-!
# The system as the shell sees it

* `LaunchRequest` : what it takes to start a job;
* `Host` : what the shell asks of the system. A type `σ` of states is a host when it says how each
  request is answered and what state the system is in afterwards;
* `Host.patience` : a bound on the waits that will still bring news, so waiting comes to an end.
-/

set_option autoImplicit false

namespace JobControl

structure LaunchRequest where
  /-- The program, a path or a name to look up, and its arguments. -/
  argv : List String
  input : Option String := none
  output : Option String := none
  background : Bool := false
  /-- The line that the job was typed as. -/
  line : String
  deriving DecidableEq, Repr

def LaunchRequest.program (r : LaunchRequest) : String := r.argv.headD ""

def LaunchRequest.state (r : LaunchRequest) : Job.State :=
  if r.background then .background else .foreground

/-- What the shell does next. -/
inductive Flow where
  | continue
  | exit (code : Int)
  deriving DecidableEq, Repr

class Host (σ : Type) where
  /-- Hold back the signals of children and of the keyboard, until the matching `release`. -/
  defer : σ → Except SystemError Unit × σ
  /-- Undo the latest `defer` that is still in force. -/
  release : σ → σ
  /-- Start a process that leads a process group of its own. -/
  spawn : LaunchRequest → σ → Except SystemError Pid × σ
  /-- Send a signal to every process of a group. -/
  signalGroup : Pid → Signal → σ → Except SystemError Unit × σ
  /-- Sleep until there is news. -/
  await : σ → Except Error (List Notification) × σ
  /-- All the news there is, without waiting. -/
  pending : σ → Except Error (List Notification) × σ
  /-- Make this the content of a file, which is created if there is none. -/
  writeFile : String → String → σ → Except SystemError Unit × σ
  /-- Learn what the shell has written so far, which jobs may look at. -/
  hear : Console → σ → σ
  /-- How many waits will bring news at most. -/
  patience : σ → Nat
  patience_await : ∀ s news, (await s).1 = .ok news → patience (await s).2 < patience s
  patience_hear : ∀ c s, patience (hear c s) ≤ patience s
  patience_signalGroup : ∀ p g s, patience (signalGroup p g s).2 ≤ patience s

end JobControl
