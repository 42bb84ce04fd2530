import JobControl.Machine.Program
import JobControl.Machine.Script.Run

/-!
# Turns

* `openRequest` : the streams that a request of the shell redirects to;
* `turn` : the next thing that a process does;
* `System.advance` : let the process that is ready first do it.
-/

set_option autoImplicit false

namespace JobControl.Machine

/-! ## Starting -/

/-- The first stream that a job does not get from the shell. -/
def firstUnused : Nat := 3

/-- Open a file that a request names. Until the job begins it is a further stream. -/
def openRequest (how : System.Purpose) : Option String → Act (Except String (Option Nat))
  | none => return .ok none
  | some path => do
    match ← Act.openFile how path with
    | .error e => return .error s!"{path}: {e.message}"
    | .ok d => do
      Act.change fun p => p.putStream (p.freeStream firstUnused) (some d)
      return .ok (some d)

/-- Let a process begin a program: it keeps the streams that it shares with the shell, unless they
are redirected. -/
def handOver (input output : Option Nat) (p : Process) : Process :=
  let put (p : Process) (stream : Nat) (d : Option Nat) : Process :=
    if d.isSome then p.putStream stream d else p
  let p := put (put p 0 input) 1 output
  { p with streams := p.streams.filter (·.1 < firstUnused) }

def environment : List (String × String) :=
  [("PATH", ":".intercalate Search.directories), ("HOME", "/root")]

/-- Open the files that a request redirects to, input first, and run its program. -/
def start (request : LaunchRequest) : Act Unit := do
  let refuse (text : String) : Act Unit := do
    Act.writeText 2 (text ++ "\n")
    Act.leave 1
  match ← openRequest .toRead request.input with
  | .error text => refuse text
  | .ok input =>
    match ← openRequest (.toWrite Files.newMode false) request.output with
    | .error text => refuse text
    | .ok output => do
      let files := (← getThe System).files
      let dir := (← Act.self).dir
      let found := if request.argv.any (·.contains '\x00') then Search.Found.nothing
        else Search.find files dir Search.directories request.program
      match found with
      | .program name _ => do
        Act.change (handOver input output)
        Act.become name request.argv environment
      | _ => refuse s!"{request.program}: Command not found."

/-! ## Turns -/

/-- What comes of a step of an interpreter. -/
def takeStep (step : Script.Step) : Act Unit :=
  match step with
  | .goOn i => Act.change fun p => { p with image := .script i, need := .nothing }
  | .wait need i => Act.change fun p => { p with image := .script i, need }
  | .become name argv exported => Act.become name argv exported
  | .finish code => Act.leave code

def turn : Act Unit := do
  match (← Act.self).image with
  | .starting request => start request
  | .program name argv exported =>
    if name == "sh" then do takeStep (← Script.Interpreter.ofArgs argv exported)
    else Program.start name argv
  | .copying c => Program.copy c
  | .asleep => Act.leave 0
  | .script i => do takeStep (← i.step)
  | .leaving status => fun pid => modify fun s => s.finish pid status

namespace System

/-- A process does the next thing at a time. -/
def letRun (s : System) (time : Nat) (p : Process) : System :=
  let s := { s with clock := max s.clock time }
  let s := s.update { p with ready := s.clock + Act.stepTime }
  ((turn.run p.pid).run s).2

/-- Let the process that is ready first do the next thing. None if nothing will ever happen. -/
def advance (s : System) : Option System :=
  s.next?.map fun (time, p) => s.letRun time p

/-- How long the shell is busy with a process that it starts. -/
def launchTime : Nat := 50000

def launch (s : System) (request : LaunchRequest) : Pid × System :=
  let pid : Pid := ⟨s.nextPid⟩
  let begin := max s.clock s.busy
  let p : Process := {
    pid
    parent := s.shell
    group := pid
    image := .starting request
    streams := shellStreams
    dir := s.files.working
    ready := begin + Act.startTime }
  (pid, { s with
    busy := begin + launchTime
    nextPid := s.nextPid + 1
    processes := s.processes ++ [p] })

end System
end JobControl.Machine
