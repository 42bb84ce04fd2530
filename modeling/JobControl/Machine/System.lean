import JobControl.Machine.Process
import JobControl.Signal.Inbox

/-!
# The system

* `Description` : an open file, which the processes that have it open share;
* `System` : the clock, the processes, the files, and what has arrived for the shell;
* `System.signal`, `System.send` : a signal arrives; a process sends one;
* `System.leave`, `System.finish` : a process begins to end; it has ended;
* `System.read`, `System.write`, `System.openFile` : use of open files;
* `System.next?` : the process that can do something first, and when.
-/

set_option autoImplicit false

namespace JobControl.Machine

inductive Target where
  | file (path : Path)
  | directory (path : Path)
  | null
  | full
  /-- An end of the connection that signals come to the shell by. -/
  | socket
  /-- An end of a pipe. -/
  | pipe (number : Nat) (toWrite : Bool)
  deriving DecidableEq, Repr

structure Description where
  target : Target
  canRead : Bool := true
  canWrite : Bool := true
  /-- Every write goes to the end. -/
  append : Bool := false
  offset : Nat := 0
  deriving DecidableEq, Repr

/-- The file that a standard stream of the shell leads to. No written path means it. -/
def streamFile (stream : Nat) : Path := ["/", toString stream]

structure System where
  /-- Nanoseconds since the start. -/
  clock : Nat := 0
  /-- When the shell has done what it was last asked for. -/
  busy : Nat := 0
  shell : Pid := ⟨100⟩
  nextPid : Int := 101
  /-- All processes but the shell, oldest first. -/
  processes : List Process := []
  /-- Changes of the shell's children that it has not asked for yet. -/
  changed : List (Pid × WaitStatus) := []
  inbox : Inbox := {}
  files : Files := .system
  descriptions : Array Description :=
    #[{ target := .file (streamFile 0), canWrite := false },
      { target := .file (streamFile 1), canRead := false, append := true },
      { target := .file (streamFile 2), canRead := false, append := true },
      { target := .socket }]
  /-- What has been written to pipes and not been read. -/
  pipes : Array (List UInt8) := #[]
  /-- The signal that has killed the shell. -/
  killed : Option Signal := none
  /-- Signals whose first arrival only takes away the guard against them. -/
  guarded : List Signal := [⟨7⟩, ⟨11⟩]

namespace System

/-! ## The shell -/

def boot (files : Files) (input : List UInt8) : System :=
  let give (files : Files) (stream : Nat) (content : List UInt8) : Files :=
    files.insert (streamFile stream) (.file Files.givenMode content)
  { files := give (give (give files 0 input) 1 []) 2 [] }

/-- The streams of the shell, and what they are descriptions of. -/
def shellStreams : List (Nat × Nat) := [(0, 0), (1, 1), (2, 2), (3, 3), (4, 3)]

/-- The signals that the shell ignores. -/
def ignored : List Signal := [⟨0⟩, .ttin, .ttou, .pipe, .cont, .stop, ⟨23⟩, ⟨28⟩]

/-- A signal is sent to the shell. -/
def signalShell (s : System) (sig : Signal) : System :=
  if Signal.reported.contains sig then { s with inbox := s.inbox.raise sig }
  else if ignored.contains sig then s
  else if s.guarded.contains sig then { s with guarded := s.guarded.filter (· != sig) }
  else { s with killed := s.killed.or (some sig) }

/-- A change of a child of the shell no longer holds. -/
def forget (s : System) (pid : Pid) : System :=
  { s with changed := s.changed.filter (·.1 != pid) }

/-- A child of the shell has changed. The shell only learns of the latest change. -/
def record (s : System) (pid : Pid) (status : WaitStatus) : System :=
  let s := s.forget pid
  { s with changed := s.changed ++ [(pid, status)] }.signalShell .chld

/-! ## Processes -/

def find? (s : System) (pid : Pid) : Option Process := s.processes.find? (·.pid == pid)

def live? (s : System) (pid : Pid) : Option Process := (s.find? pid).filter (·.isLive)

def active? (s : System) (pid : Pid) : Option Process := (s.find? pid).filter (·.isActive)

def update (s : System) (p : Process) : System :=
  { s with processes := s.processes.map fun q => if q.pid = p.pid then p else q }

def drop (s : System) (pid : Pid) : System :=
  { s with processes := s.processes.filter (·.pid != pid) }

/-- The process that takes over children whose parent has ended. -/
def reaper : Pid := ⟨1⟩

/-- The group has no member with a parent in another group of the session. -/
def isOrphaned (s : System) (group : Pid) : Bool :=
  !s.processes.any fun p => p.isLive && p.group == group && p.parent == s.shell

/-- A signal arrives that a process looks after. -/
def notice (p : Process) (sig : Signal) : Process :=
  if p.caught.contains sig && !p.arrived.contains sig then { p with arrived := p.arrived ++ [sig] }
  else p

def tellParent (s : System) (parent : Pid) : System :=
  match s.live? parent with
  | some p => s.update (notice p .chld)
  | none => s

/-- A process has ended. Its children that have ended are forgotten, the others are taken over. -/
def finish (s : System) (pid : Pid) (status : WaitStatus) : System :=
  match s.live? pid with
  | none => s
  | some p =>
    let others := s.processes.filterMap fun q =>
      if q.parent = pid then if q.isLive then some { q with parent := reaper } else none
      else some q
    let s := { s with processes := others }
    if p.parent = s.shell then (s.drop pid).record pid status
    else if (s.live? p.parent).isSome then
      let p := { p with ended := some status, streams := [], ready := s.clock }
      (s.update p).tellParent p.parent
    else s.drop pid

/-- How long it takes a process to end. -/
def exitTime : Nat := 80000

/-- A process begins to end. -/
def leave (s : System) (pid : Pid) (status : WaitStatus) : System :=
  match s.active? pid with
  | none => s
  | some p => s.update { p with
      image := .leaving status
      need := .nothing
      stopped := false
      held := []
      ready := s.clock + exitTime }

def halt (s : System) (p : Process) (sig : Signal) : System :=
  let s := s.update { p with stopped := true }
  if p.parent = s.shell then s.record p.pid (.ofStop sig) else s.tellParent p.parent

/-- A signal does to a process that is not stopped what it does. -/
def obey (s : System) (p : Process) (sig : Signal) : System :=
  if p.ignored.contains sig then s
  else if p.caught.contains sig then s.update (notice p sig)
  else
    match defaultAction sig with
    | .ignore => s
    | .stop =>
      if sig ∈ terminalStops ∧ s.isOrphaned p.group then s else s.halt p sig
    | .terminate => s.leave p.pid (.ofKill sig)

/-- Held signals do what they do, by increasing number, as long as the process goes on. -/
def obeyHeld (s : System) (pid : Pid) : List Signal → System
  | [] => s
  | sig :: rest =>
    match s.active? pid with
    | none => s
    | some p =>
      if p.stopped then s.update { p with held := sig :: rest }
      else (s.obey p sig).obeyHeld pid rest

/-- A signal arrives at a process. A stopped process is only continued or killed by it. -/
def signal (s : System) (pid : Pid) (sig : Signal) : System :=
  match s.active? pid with
  | none => s
  | some p =>
    if sig.number = 0 then s
    else if sig = .kill then s.leave pid (.ofKill sig)
    else if sig = .cont then
      let held := (p.held.filter fun h => !(terminalStops.contains h)).mergeSort
        fun a b => a.number ≤ b.number
      let p := { p with stopped := false, held := [] }
      ((s.forget pid).update (notice p .cont)).obeyHeld pid held
    else if p.stopped then
      if sig = .stop || p.held.contains sig || p.ignores sig then s
      else s.update { p with held := p.held ++ [sig] }
    else if sig = .stop then s.halt p sig
    else s.obey p sig

def signalMembers (s : System) (group : Pid) (sig : Signal) : System :=
  (s.processes.filter (·.group == group)).foldl (fun s p => s.signal p.pid sig) s

/-- A process of `group` sends a signal: to a process, to its own group for zero, or to a group for
a negative number. -/
def send (s : System) (group : Pid) (target : Int) (sig : Signal) :
    Except SystemError System :=
  if target = s.shell.val ∨ target = -s.shell.val then .ok (s.signalShell sig)
  else if 0 < target then
    if (s.find? ⟨target⟩).isSome || s.changed.any (·.1 == ⟨target⟩) then .ok (s.signal ⟨target⟩ sig)
    else .error .noProcess
  else
    let group : Pid := if target = 0 then group else ⟨-target⟩
    if s.processes.any (·.group == group) || s.changed.any (·.1 == group) then
      .ok (s.signalMembers group sig)
    else .error .noProcess

/-! ## Open files -/

def description (s : System) (d : Nat) : Description :=
  s.descriptions.getD d { target := .null }

/-- A new description. -/
def describe (s : System) (d : Description) : Nat × System :=
  (s.descriptions.size, { s with descriptions := s.descriptions.push d })

/-- A new pipe: the descriptions of the end to read and the end to write. -/
def makePipe (s : System) (content : List UInt8) : Nat × Nat × System :=
  let n := s.pipes.size
  let (r, s) := { s with pipes := s.pipes.push content }.describe
    { target := .pipe n false, canWrite := false }
  let (w, s) := s.describe { target := .pipe n true, canRead := false }
  (r, w, s)

/-- Some process has this end of a pipe open. -/
def isOpen (s : System) (target : Target) : Bool :=
  let reaches := fun (d : Nat) => (s.description d).target == target
  s.processes.any fun p => p.isLive && p.streams.any fun (_, d) => reaches d

/-- A read would be answered at once. -/
def canReadNow (s : System) (d : Nat) : Bool :=
  match (s.description d).target with
  | .pipe n false => !(s.pipes.getD n []).isEmpty || !s.isOpen (.pipe n true)
  | _ => true

/-- Bytes from the place that a description has come to, at most so many. -/
def take (s : System) (d : Nat) (limit : Nat) (content : List UInt8) : List UInt8 × System :=
  let bytes := (content.drop (s.description d).offset).take limit
  (bytes, { s with descriptions := s.descriptions.modify d fun x =>
    { x with offset := x.offset + bytes.length } })

/-- The failure to use a stream that is not open for it. -/
def badStream : SystemError := .os 9

def read (s : System) (d : Nat) (limit : Nat) : Except SystemError (List UInt8) × System :=
  let x := s.description d
  if !x.canRead then (.error badStream, s)
  else
    let answer (r : List UInt8 × System) : Except SystemError (List UInt8) × System :=
      (.ok r.1, r.2)
    match x.target with
    | .file p => answer (s.take d limit (s.files.content p))
    | .directory _ => (.error .isDirectory, s)
    | .pipe n _ =>
      let content := s.pipes.getD n []
      (.ok (content.take limit), { s with pipes := s.pipes.modify n (·.drop limit) })
    | .null | .full | .socket => (.ok [], s)

def write (s : System) (d : Nat) (bytes : List UInt8) : Except SystemError Unit × System :=
  let x := s.description d
  if !x.canWrite then (.error badStream, s)
  else if bytes.isEmpty then (.ok (), s)
  else
    match x.target with
    | .file p =>
      let offset := if x.append then (s.files.content p).length else x.offset
      (.ok (), { s with
        files := s.files.writeAt p offset bytes
        descriptions := s.descriptions.modify d fun x =>
          { x with offset := offset + bytes.length } })
    | .pipe n _ =>
      if s.isOpen (.pipe n false) then
        (.ok (), { s with pipes := s.pipes.modify n (· ++ bytes) })
      else (.error .brokenPipe, s)
    | .full => (.error .noSpace, s)
    | .directory _ => (.error .isDirectory, s)
    | .null | .socket => (.ok (), s)

/-- How a process wants to use a file. -/
structure Purpose where
  opening : Opening
  canRead : Bool
  append : Bool := false

namespace Purpose

def toRead : Purpose := { opening := {}, canRead := true }

/-- Write to a file that is emptied or created. -/
def toWrite (mode : Nat) (fresh : Bool) : Purpose :=
  { opening := { write := true, create := some mode, truncate := true, fresh }, canRead := false }

def toAppend (mode : Nat) : Purpose :=
  { opening := { write := true, create := some mode }, canRead := false, append := true }

def toBoth (mode : Nat) : Purpose :=
  { opening := { write := true, create := some mode }, canRead := true }

end Purpose

/-- The entry that a stream leads to, and its path; none if it leads to no file. -/
def entryOf (s : System) (target : Target) : Option (Path × FileEntry) :=
  match target with
  | .file p => (s.files.lookup p).map (p, ·)
  | .directory p => some (p, .directory)
  | .null => some ([], .null)
  | .full => some ([], .full)
  | .socket | .pipe _ _ => none

def reopen (s : System) (how : Opening) (target : Target) : Except SystemError (Target × Files) :=
  match target, s.entryOf target with
  | .socket, _ => .error .noDevice
  | .pipe n _, _ => .ok (.pipe n how.write, s.files)
  | _, none => .error .noEntry
  | _, some (p, entry) =>
    match s.files.openEntry how p entry with
    | .error e => .error e
    | .ok (_, files) => .ok (target, files)

def openFile (s : System) (streams : List (Nat × Nat)) (dir : Path) (how : Purpose)
    (path : String) : Except SystemError (Nat × System) :=
  let answer (target : Target) (files : Files) : Except SystemError (Nat × System) :=
    .ok ({ s with files }.describe
      { target, canRead := how.canRead, canWrite := how.opening.write, append := how.append })
  match s.files.openAs dir how.opening path with
  | .error e => .error e
  | .ok (.file path, files) => answer (.file path) files
  | .ok (.directory path, files) => answer (.directory path) files
  | .ok (.null, files) => answer .null files
  | .ok (.full, files) => answer .full files
  | .ok (.stream n, _) =>
    match streams.lookup n with
    | none => .error .noEntry
    | some d =>
      match s.reopen how.opening (s.description d).target with
      | .error e => .error e
      | .ok (target, files) => answer target files

/-- The entry that a path means for a process. -/
def findEntry (s : System) (p : Process) (path : String) : Except SystemError (Path × FileEntry) :=
  match s.files.find p.dir path with
  | .ok (found, .stream n) =>
    match p.stream? n with
    | none => .error .noEntry
    | some d => .ok ((s.entryOf (s.description d).target).getD (found, .stream n))
  | found => found

/-! ## Turns -/

def isMet (s : System) (p : Process) : Bool :=
  match p.need with
  | .nothing | .time _ => true
  | .data d => s.canReadNow d
  | .child pid orTrap => (s.live? pid).isNone || (orTrap && !p.arrived.isEmpty)

/-- When a process can do the next thing, if nothing else happens. -/
def turnTime? (s : System) (p : Process) : Option Nat :=
  if p.isLive && !p.stopped && s.isMet p then
    match p.need with
    | .time t => some (max t (max p.ready s.clock))
    | _ => some (max p.ready s.clock)
  else none

/-- The process that can do something first, and when. Of several it is the oldest. -/
def next? (s : System) : Option (Nat × Process) :=
  s.processes.foldl (fun best p =>
    match s.turnTime? p, best with
    | none, _ => best
    | some t, none => some (t, p)
    | some t, some (u, q) => if t < u then some (t, p) else some (u, q)) none

end System
end JobControl.Machine
