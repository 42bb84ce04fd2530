import JobControl.Host
import JobControl.Files
import JobControl.Machine.Script.Interpreter

/-!
# Processes

* `Process` : a process with its group, its streams and the signals it has arranged for;
* `Image` : what it is doing;
* `Need` : what it waits for;
* `DefaultAction` : what a signal does that a process has made no arrangements for;
* `Copy.Options`, `Copy.Place` : what the program `cat` shows in another way, and where it has come to
  in its lines;
* `Copy.shown` : the bytes that it writes for bytes that it has read.
-/

set_option autoImplicit false

namespace JobControl.Machine

/-! ## What `cat` makes of bytes -/

namespace Copy

structure Options where
  /-- Lines have numbers. -/
  number : Bool := false
  /-- Lines that are not empty have numbers. -/
  numberNonblank : Bool := false
  /-- The ends of lines are shown. -/
  ends : Bool := false
  /-- Tabs are shown. -/
  tabs : Bool := false
  /-- Other characters that have no shape are shown. -/
  nonprinting : Bool := false
  /-- Of several empty lines one is left. -/
  squeeze : Bool := false
  deriving DecidableEq, Repr

def Options.add (o : Options) (c : Char) : Option Options :=
  match c with
  | 'n' => some { o with number := true }
  | 'b' => some { o with numberNonblank := true }
  | 'E' => some { o with ends := true }
  | 'T' => some { o with tabs := true }
  | 'v' => some { o with nonprinting := true }
  | 's' => some { o with squeeze := true }
  | 'u' => some o
  | 'e' => some { o with ends := true, nonprinting := true }
  | 't' => some { o with tabs := true, nonprinting := true }
  | 'A' => some { o with ends := true, tabs := true, nonprinting := true }
  | _ => none

structure Place where
  /-- The number of the latest line that has one. -/
  line : Nat := 0
  atStart : Bool := true
  /-- How many empty lines came right before. -/
  empty : Nat := 0
  deriving DecidableEq, Repr

def ascii (text : String) : List UInt8 := text.toList.map fun c => UInt8.ofNat c.toNat

/-- A byte that is not a newline. -/
def shownByte (o : Options) (b : UInt8) : List UInt8 :=
  if b = 9 then if o.tabs then ascii "^I" else [b]
  else if !o.nonprinting then [b]
  else
    let low (n : Nat) : List UInt8 :=
      if n < 32 then [94, UInt8.ofNat (n + 64)] else if n = 127 then ascii "^?" else [UInt8.ofNat n]
    if b.toNat < 128 then low b.toNat else ascii "M-" ++ low (b.toNat - 128)

def numbered (n : Nat) : List UInt8 :=
  let text := toString n
  ascii (String.ofList (List.replicate (6 - text.length) ' ') ++ text ++ "\t")

/-- What is written for bytes that were read, and where the copy has come to. -/
def shown (o : Options) (p : Place) : List UInt8 → List UInt8 × Place
  | [] => ([], p)
  | b :: bs =>
    let isEmpty := p.atStart && b = 10
    if isEmpty && o.squeeze && 0 < p.empty then shown o p bs
    else
      let hasNumber := p.atStart && (if o.numberNonblank then b ≠ 10 else o.number)
      let p' : Place :=
        { line := if hasNumber then p.line + 1 else p.line
          atStart := b = 10
          empty := if isEmpty then p.empty + 1 else if b = 10 then 0 else p.empty }
      let text := if b = 10 then (if o.ends then [36, 10] else [10]) else shownByte o b
      let (rest, last) := shown o p' bs
      ((if hasNumber then numbered p'.line else []) ++ text ++ rest, last)

/-- Nothing is shown in another way. -/
def Options.isPlain (o : Options) : Bool := o == {}

end Copy

/-! ## Processes -/

inductive DefaultAction where
  | terminate
  | stop
  | ignore
  deriving DecidableEq, Repr

def terminalStops : List Signal := [.tstp, .ttin, .ttou]

def defaultAction (s : Signal) : DefaultAction :=
  if s = .stop ∨ s ∈ terminalStops then .stop
  else if s ∈ [Signal.chld, .cont, ⟨23⟩, ⟨28⟩] then .ignore
  else .terminate

inductive Need where
  | nothing
  /-- The clock. -/
  | time (t : Nat)
  /-- Something to read, or the end of it. -/
  | data (description : Nat)
  /-- The end of a child; of the command `wait` also a signal that a trap is set for. -/
  | child (pid : Pid) (orTrap : Bool)
  deriving DecidableEq, Repr

/-- The program `cat` at work. -/
structure Copying where
  name : String
  options : Copy.Options := {}
  place : Copy.Place := {}
  /-- The operand that is being copied, and its description. -/
  current : Option (String × Nat) := none
  operands : List String
  /-- Some operand could not be copied. -/
  failed : Bool := false
  deriving Repr

/-- What a process is doing. -/
inductive Image where
  /-- Created by the shell, but its program does not run yet. -/
  | starting (request : LaunchRequest)
  /-- About to run a program of the system. -/
  | program (name : String) (argv : List String) (exported : List (String × String))
  | copying (c : Copying)
  /-- Asleep, and then it ends. -/
  | asleep
  | script (i : Script.Interpreter)
  /-- About to end, in a way that nothing changes any more. -/
  | leaving (status : WaitStatus)
  deriving Repr

structure Process where
  pid : Pid
  parent : Pid
  group : Pid
  image : Image
  /-- The numbers of the open streams, and what they are descriptions of. -/
  streams : List (Nat × Nat)
  /-- Where relative paths start. -/
  dir : Path
  /-- The permissions that created files do not get. -/
  mask : Nat := 0o022
  ignored : List Signal := []
  /-- The signals that the process looks after by itself. -/
  caught : List Signal := []
  /-- Those of them that have arrived. -/
  arrived : List Signal := []
  /-- When it can do the next thing, or when it has ended. -/
  ready : Nat := 0
  need : Need := .nothing
  stopped : Bool := false
  /-- Signals that arrived while it was stopped. -/
  held : List Signal := []
  /-- How it ended, until it is asked for. -/
  ended : Option WaitStatus := none
  deriving Repr

namespace Process

def isLive (p : Process) : Bool := p.ended.isNone

/-- It has not begun to end. -/
def isActive (p : Process) : Bool := p.isLive && !(p.image matches .leaving _)

/-- The description that a stream is open for. -/
def stream? (p : Process) (n : Nat) : Option Nat := p.streams.lookup n

def putStream (p : Process) (n : Nat) (description : Option Nat) : Process :=
  let others := p.streams.filter (·.1 != n)
  { p with streams := match description with
      | some d => (n, d) :: others
      | none => others }

/-- The first number from which streams are closed when a program is run. -/
def firstPrivate : Nat := 10

/-- A number for a new stream, `least` or above. -/
def freeStream (p : Process) (least : Nat) : Nat :=
  p.streams.foldl (fun n (k, _) => max n (k + 1)) least

/-- A number for a stream that only the interpreter of a script uses. -/
def privateStream (p : Process) : Nat := p.freeStream firstPrivate

def closePrivate (p : Process) : Process :=
  { p with streams := p.streams.filter (·.1 < firstPrivate) }

/-- A signal that does nothing to the process. -/
def ignores (p : Process) (s : Signal) : Bool :=
  p.ignored.contains s || (!p.caught.contains s && defaultAction s == .ignore)

end Process

end JobControl.Machine
