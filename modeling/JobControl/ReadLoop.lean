import JobControl.EventLoop
import JobControl.Shell.Eval

/-!
# Reading and evaluating lines

* `Input` : where bytes are read from;
* `splitLines` : the lines of some bytes, and what is left without a newline;
* `Reader` : a shell with the bytes it has read but not yet evaluated;
* `Reader.evaluate` : apply what has happened since the last line, then evaluate a line;
* `Reader.onInput`, `Reader.onSignal` : the callbacks of the event loop;
* `Reader.run` : the loop over signals and input, up to the exit code or a fatal error.

Signals are registered first, so a poll that reports both lets signals be seen before any line.
-/

set_option autoImplicit false

namespace JobControl

class Input (σ : Type) where
  /-- Read up to a number of bytes; none at the end of the input. -/
  read : Nat → σ → Except SystemError (List UInt8) × σ

/-- The byte that ends a line. -/
def newline : UInt8 := 10

/-- The lines of `bytes`, without their newlines, and the bytes after the last newline. -/
def splitLines : List UInt8 → List (List UInt8) × List UInt8
  | [] => ([], [])
  | b :: bs =>
    if b = newline then ([] :: (splitLines bs).1, (splitLines bs).2)
    else
      match splitLines bs with
      | ([], rest) => ([], b :: rest)
      | (line :: lines, rest) => ((b :: line) :: lines, rest)

/-- What the loop waits for. -/
inductive Channel where
  | signals
  | input
  deriving DecidableEq, Repr

structure Reader (σ : Type) where
  shell : Shell σ
  /-- Read, but without a newline so far. -/
  pending : List UInt8 := []
  /-- A prompt is shown before each line. -/
  prompt : Bool := true

namespace Reader
variable {σ : Type}

abbrev Loop := EventLoop.Registry Channel Channel Error Int

/-- Show the prompt. -/
def showPrompt (l : Reader σ) : Reader σ :=
  if l.prompt then { l with shell := l.shell.say .prompt } else l

/-- Act on how an operation of the shell ended. -/
def settle (l : Reader σ) (r : Loop) : Except Error Flow → Reader σ × Loop
  | .ok .continue => (l, r)
  | .ok (.exit code) => (l, r.exit code)
  | .error e =>
    if e.isFatal then (l, r.abort e) else ({ l with shell := l.shell.complain (.failed e) }, r)

variable [Host σ]

/-- Carry out an operation of the shell and act on how it ended. -/
def perform (l : Reader σ) (r : Loop) (op : Shell.Op) : Reader σ × Loop :=
  let (result, shell) := l.shell.perform op
  { l with shell }.settle r result

/-- Apply what has happened since the last line, then evaluate a line. -/
def evaluate (l : Reader σ) (r : Loop) (line : List UInt8) : Reader σ × Loop :=
  match l.perform r .drain with
  | (l, r) => if r.isStopping then (l, r) else l.perform r (.eval (Utf8.decode line))

/-- Evaluate lines, each with a prompt after it, until the loop is to stop. -/
def evaluateAll (l : Reader σ) (r : Loop) : List (List UInt8) → Reader σ × Loop
  | [] => (l, r)
  | line :: lines =>
    match l.evaluate r line with
    | (l, r) => if r.isStopping then (l, r) else l.showPrompt.evaluateAll r lines

/-- The input has ended: evaluate a last line without a newline, and exit. -/
def finish (l : Reader σ) (r : Loop) : Reader σ × Loop :=
  match if l.pending.isEmpty then (l, r) else { l with pending := [] }.evaluate r l.pending with
  | (l, r) => if r.isStopping then (l, r) else ({ l with shell := l.shell.say .blank }, r.exit 0)

/-- Take up bytes that were read. -/
def receive (l : Reader σ) (r : Loop) (bytes : List UInt8) : Reader σ × Loop :=
  match splitLines (l.pending ++ bytes) with
  | (lines, rest) => { l with pending := rest }.evaluateAll r lines

/-- News has arrived; a wait for the foreground may have taken it up already. -/
def onSignal (l : Reader σ) (r : Loop) : Reader σ × Loop := l.perform r .drain

variable [Input σ]

/-- Input can be read. -/
def onInput (l : Reader σ) (r : Loop) : Reader σ × Loop :=
  let (answer, host) := Input.read Command.maxLine l.shell.host
  let l := { l with shell := { l.shell with host } }
  match answer with
  | .error e => if e.isInterrupted then (l, r) else (l, r.abort (.fatal "read error" e))
  | .ok [] => l.finish r
  | .ok bytes => l.receive r bytes

def handle : EventLoop.Callback (Reader σ) Channel Channel Error Int
  | .signals, l, r => l.onSignal r
  | .input, l, r => l.onInput r

/-- The channels, signals first. -/
def registry : Loop :=
  (({} : Loop).register .signals .signals).register .input .input

/-- Read and evaluate lines; `polls` says what each poll answers. The result is the exit code or the
error that ended the loop, and none if the polls run out before. -/
def run (l : Reader σ) (polls : List (EventLoop.Poll (Reader σ) Channel)) :
    Option (Except Error Int) × Shell σ :=
  match EventLoop.run handle .io polls l.showPrompt registry with
  | (stop, l, _) =>
    (stop.map fun
      | .exit code => .ok code
      | .abort e => .error e, l.shell)

end Reader
end JobControl
