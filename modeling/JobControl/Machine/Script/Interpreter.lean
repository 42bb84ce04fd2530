import JobControl.Machine.Script.Parser
import JobControl.Machine.Script.Scope
import JobControl.WaitStatus

/-!
# The state of an interpreter

An interpreter of scripts holds a stack of frames, each of which says what remains to be done once
those above it are gone.

* `Frame` : a thing that remains to be done;
* `Task` : words that have to be expanded, and what is done with the result;
* `Interpreter` : the variables, functions and traps, and the frames.
-/

set_option autoImplicit false

namespace JobControl.Machine.Script

/-- How a command is carried out. -/
structure Mode where
  /-- Nothing follows, so a program may take the place of the interpreter. -/
  isLast : Bool := false
  /-- Its failure is looked at, so the interpreter does not leave because of it. -/
  isTested : Bool := false
  deriving DecidableEq, Repr

namespace Mode

/-- The mode of a command that others follow. -/
def inner (m : Mode) : Mode := { m with isLast := false }

/-- The mode of a command whose failure is looked at. -/
def tested : Mode := { isTested := true }

end Mode

/-- A stream that was put aside: its number, and the number at which it is kept if it was open. -/
structure Kept where
  stream : Nat
  keeper : Option Nat
  deriving DecidableEq, Repr

inductive Loop where
  /-- While the test succeeds, or until it does. -/
  | test (isUntil : Bool) (test body : Command)
  /-- For each of some values. -/
  | each (name : String) (values : List String) (body : Command)
  deriving Repr

inductive Task where
  /-- Carry out a simple command: its words and redirections come first. -/
  | simple (line : Nat) (assigns : List (String × Word)) (words : List Word)
      (redirects : List Redirect) (mode : Mode)
  /-- Carry out a simple command whose words and redirections are done. With `isRedirected`, the
  frame below puts streams back. -/
  | assign (fields : List String) (assigns : List (String × Word)) (isRedirected : Bool)
      (mode : Mode)
  /-- Redirect a command that is made of others. With `isFinal`, the process ends with it. -/
  | redirect (redirects : List Redirect) (body : Command) (isFinal : Bool) (mode : Mode)
  | each (name : String) (words : List Word) (body : Command) (mode : Mode)
  | choose (subject : Word) (cases : List (List Word × Option Command)) (mode : Mode)
  deriving Repr

inductive Awaited where
  | one (pid : Pid)
  /-- All children. -/
  | all
  deriving DecidableEq, Repr

inductive Frame where
  | run (c : Command) (mode : Mode)
  /-- Carry out the rest of a text; `isFile` if `return` ends it. -/
  | source (rest : Cursor) (mode : Mode) (isFile : Bool)
  /-- Carry out the commands that are read from a stream: those in the text that has been read, and,
  unless the stream has come to its end, those that follow. -/
  | listen (stream : Nat) (rest : Cursor) (isEnded : Bool)
  /-- Carry out a command if the one before has succeeded, or failed. -/
  | next (c : Command) (mode : Mode) (ifSuccess : Bool)
  | negate
  | decide (yes : Command) (no : Option Command) (mode : Mode)
  /-- Begin another round of a loop; `status` is that of the last one. -/
  | loop (l : Loop) (mode : Mode) (status : Nat)
  /-- The test of a loop has been carried out; `status` is that of the last round. -/
  | check (isUntil : Bool) (test body : Command) (mode : Mode) (status : Nat)
  /-- The body of a loop has been carried out. -/
  | round (l : Loop) (mode : Mode)
  /-- The failure of a command counts unless it was tested. -/
  | judge (mode : Mode)
  /-- Put streams back. -/
  | restore (kept : List Kept)
  /-- The end of a function. -/
  | leave (args : List String) (locals : List (String × Option Variable))
  /-- Put back the word before complaints. -/
  | relabel (label : Option String)
  /-- Put variables back that were set for one command. -/
  | unassign (vars : List (String × Option Variable))
  /-- A trap is over. -/
  | settle (status : Nat)
  /-- Expand words; `answers` is the output of commands so far, `status` that of the last. -/
  | expand (task : Task) (answers : List String) (status : Option Nat)
  /-- Take up the output of a process. -/
  | collect (stream : Nat) (pid : Pid) (read : List UInt8)
  /-- Hand the output of a process to the expansion below, and put the status back. -/
  | deliver (text : String) (former : Nat)
  /-- Wait for processes of a command. -/
  | await (pids : List Pid)
  /-- The command `wait`. -/
  | wait (what : List Awaited)
  /-- The command `read`: its variables, and what it has read. -/
  | read (raw : Bool) (names : List String) (done : List (UInt8 × Bool)) (escaped : Bool)
  deriving Repr

structure Interpreter where
  scope : Scope := {}
  functions : List (String × Command) := []
  /-- What is carried out when a signal arrives; signal 0 is the end of the script. -/
  traps : List (Signal × String) := []
  /-- Signals that were ignored from the start, and always are. -/
  fixed : List Signal := []
  /-- Children in the background. -/
  children : List Pid := []
  /-- How those of them have ended that are known to have. -/
  ended : List (Pid × WaitStatus) := []
  /-- A word before complaints. -/
  label : Option String := none
  frames : List Frame := []
  deriving Repr

namespace Interpreter

def push (i : Interpreter) (f : Frame) : Interpreter := { i with frames := f :: i.frames }

def pushAll (i : Interpreter) (fs : List Frame) : Interpreter :=
  { i with frames := fs ++ i.frames }

def status (i : Interpreter) : Nat := i.scope.status

def withStatus (i : Interpreter) (n : Nat) : Interpreter :=
  { i with scope := { i.scope with status := n } }

def atLine (i : Interpreter) (n : Nat) : Interpreter :=
  { i with scope := { i.scope with line := n } }

def withFrames (i : Interpreter) (frames : List Frame) : Interpreter := { i with frames }

/-- Put a word before complaints. -/
def labelled (i : Interpreter) (label : String) : Interpreter := { i with label := some label }

def hasTraps (i : Interpreter) : Bool := i.traps.any (·.2 != "")

def readLine (i : Interpreter) : Nat :=
  (i.frames.findSome? fun
    | .source rest _ _ | .listen _ rest _ => some rest.line
    | _ => none).getD i.scope.line

/-- An interpreter of its own for a part of the script, which goes on with nothing after it. Traps
that do something are not taken over. -/
def forPart (i : Interpreter) (frames : List Frame) : Interpreter :=
  { i with
    traps := i.traps.filter (·.2 == "")
    children := []
    ended := []
    frames := frames ++ [.source { rest := [], line := i.readLine } {} false] }

end Interpreter
end JobControl.Machine.Script
