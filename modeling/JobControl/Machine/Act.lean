import JobControl.Machine.System

/-!
# What a process does

`Act` is something that a process does to the system, itself included.

* `self`, `change` : look at the process, change it as long as it lives;
* `fork`, `become`, `leave` : start a child, run a program, end;
* `write`, `read`, `openFile` : use streams;
* `Search` : the program that a name means.

What takes time is said in nanoseconds.
-/

set_option autoImplicit false

namespace JobControl.Machine

abbrev Act (α : Type) := ReaderT Pid (StateM System) α

namespace Act

/-! ## Time -/

/-- What a process does at once. -/
def stepTime : Nat := 2000

/-- What it takes a process to start another. -/
def forkTime : Nat := 60000

/-- How long it takes until a new process does something. -/
def startTime : Nat := 130000

/-- What it takes to run a program. -/
def programTime : Nat := 450000

/-- How long it takes until a parent sees by itself that a child has ended. -/
def endTime : Nat := 100000

/-! ## The process -/

/-- A process in the place of one that is not there. -/
def nobody : Process :=
  { pid := ⟨0⟩, parent := ⟨0⟩, group := ⟨0⟩, image := .asleep, streams := [], dir := [] }

def self : Act Process := do return ((← getThe System).find? (← read)).getD nobody

def change (f : Process → Process) : Act Unit := fun pid =>
  modify fun s =>
    match s.active? pid with
    | some p => s.update (f p)
    | none => s

def spend (time : Nat) : Act Unit := change fun p => { p with ready := p.ready + time }

/-- Wait before the next thing. -/
def await (need : Need) : Act Unit := change fun p => { p with need }

def leave (code : Nat) : Act Unit := fun pid => modify fun s => s.leave pid (.ofExit code)

/-- Start a child that is like the process but for what `f` makes of it. -/
def fork (f : Process → Process) : Act Pid := do
  let p ← self
  let s ← getThe System
  let pid : Pid := ⟨s.nextPid⟩
  let child : Process := f { p with
    pid
    parent := p.pid
    caught := []
    arrived := []
    held := []
    need := .nothing
    ready := s.clock + startTime }
  set { s with nextPid := s.nextPid + 1, processes := s.processes ++ [child] }
  spend forkTime
  return pid

/-- What a process is that runs a program. -/
def running (name : String) (argv : List String) (exported : List (String × String))
    (p : Process) : Process :=
  { p.closePrivate with
    image := .program name argv exported
    caught := []
    arrived := []
    need := .nothing
    ready := p.ready + programTime }

/-- Run a program in the place of what the process is doing. -/
def become (name : String) (argv : List String) (exported : List (String × String)) : Act Unit :=
  change (running name argv exported)

/-! ## Streams -/

/-- Write to a stream. A pipe that nobody reads ends the process, unless it ignores that. -/
def write (stream : Nat) (bytes : List UInt8) : Act (Except SystemError Unit) := do
  let p ← self
  match if p.isActive then p.stream? stream else none with
  | none => return .error System.badStream
  | some d => do
    let (answer, s) := (← getThe System).write d bytes
    set s
    if answer matches .error (.os 32) then
      fun pid => modify fun s => s.signal pid .pipe
    return answer

def writeText (stream : Nat) (text : String) : Act Unit := do
  let _ ← write stream (Utf8.encode text)

def readFrom (d limit : Nat) : Act (Except SystemError (List UInt8)) := do
  let (answer, s) := (← getThe System).read d limit
  set s
  return answer

/-- Open a file; the answer is its description. -/
def openFile (how : System.Purpose) (path : String) : Act (Except SystemError Nat) := do
  let p ← self
  match (← getThe System).openFile p.streams p.dir how path with
  | .error e => return .error e
  | .ok (d, s) => do
    set s
    return .ok d

/-- The permissions of files that the process creates. -/
def newMode : Act Nat := do return 0o666 - (0o666 &&& (← self).mask)

/-- The description of an error without its number. -/
def describe (e : SystemError) : String :=
  match e with
  | .os n => SystemError.describe n
  | .other text => text

end Act

/-! ## Programs -/

namespace Search

/-- The directories where a name without a slash is looked up. -/
def directories : List String :=
  ["/usr/local/sbin", "/usr/local/bin", "/usr/sbin", "/usr/bin", "/sbin", "/bin"]

/-- What a path means that is to be run. -/
inductive Found where
  | program (name path : String)
  /-- It is there, but it cannot be run. -/
  | denied
  | nothing
  deriving DecidableEq, Repr

def atPath (f : Files) (base : Path) (path : String) : Found :=
  match f.find base path with
  | .ok (_, .program name) => .program name path
  | .ok _ => .denied
  | .error _ => .nothing

/-- The first program of those that were found. -/
def best (found : List Found) : Found :=
  match found.find? (· matches .program _ _) with
  | some p => p
  | none => if found.contains .denied then .denied else .nothing

def find (f : Files) (base : Path) (directories : List String) (command : String) : Found :=
  if command == "" then .nothing
  else if command.contains '/' then atPath f base command
  else
    best (directories.map fun dir => atPath f base (dir ++ "/" ++ command))

end Search
end JobControl.Machine
