import JobControl.Machine.Turn
import JobControl.ReadLoop

/-!
# A machine to run the shell on

`Machine` is a system on which the shell is run, with a bound on what its processes do. It is a
`Host` and an `Input`. Processes run while the shell waits, the one that is ready first before the
others; the shell itself takes no time.

* `Machine.sleep` : let processes run until the shell acts on news;
* `Machine.await`, `Machine.takePending` : take up the news;
* `Machine.signalGroup`, `Machine.spawn`, `Machine.writeFile` : what the shell asks for;
* `Machine.hear`, `Machine.content` : what the shell writes, and what its streams hold.
-/

set_option autoImplicit false

namespace JobControl

open Machine (System)

structure Machine where
  system : System := {}
  /-- How many things the processes will do at most. -/
  ticks : Nat := 1000000
  /-- How many messages of the shell have been written to its standard output and its standard
  error. -/
  heard : Nat × Nat := (0, 0)

namespace Machine

def hasNews (s : System) : Bool := !s.inbox.records.isEmpty || s.killed.isSome

/-- How long it takes until the shell, which was asleep, acts on news. -/
def reaction : Nat := 60000

/-- Let processes do things up to a time, at most so many; the answer says how many more they could
do. -/
def runUntil (time : Nat) : Nat → System → Nat × System
  | 0, s => (0, s)
  | n + 1, s =>
    let idle : Nat × System := (n + 1, { s with clock := max s.clock time })
    match s.next? with
    | some (t, p) => if t < time then runUntil time n (s.letRun t p) else idle
    | none => idle

/-- Let processes do things until the shell acts on news, at most so many. -/
def advance : Nat → System → Nat × System
  | 0, s => (0, s)
  | n + 1, s =>
    if hasNews s then runUntil (max (s.clock + reaction) s.busy) (n + 1) s
    else
      match s.advance with
      | some s => advance n s
      | none => (n + 1, s)

theorem runUntil_le (time n : Nat) (s : System) : (runUntil time n s).1 ≤ n := by
  induction n generalizing s with
  | zero => exact Nat.le_refl _
  | succ n ih =>
    unfold runUntil
    split
    · split
      · exact Nat.le_succ_of_le (ih _)
      · exact Nat.le_refl _
    · exact Nat.le_refl _

theorem advance_le (n : Nat) (s : System) : (advance n s).1 ≤ n := by
  induction n generalizing s with
  | zero => exact Nat.le_refl _
  | succ n ih =>
    unfold advance
    split
    · exact runUntil_le _ _ _
    · split
      · exact Nat.le_succ_of_le (ih _)
      · exact Nat.le_refl _

/-- Sleep until there is news, at most while so many things are done. News that is there already is
acted on as soon as the shell is not busy. -/
def sleep (n : Nat) (s : System) : Nat × System :=
  if hasNews s then runUntil s.busy n s else advance n s

theorem sleep_le (n : Nat) (s : System) : (sleep n s).1 ≤ n := by
  unfold sleep
  split
  · exact runUntil_le _ _ _
  · exact advance_le n s

def onSystem (m : Machine) (f : System → System) : Machine := { m with system := f m.system }

def waits (s : System) : List Wait :=
  (s.changed.mergeSort fun a b => a.1.val ≤ b.1.val).map fun (pid, status) => .changed pid status

/-- The changes that were not asked for. -/
def unasked (waits : List Wait) : List (Pid × WaitStatus) :=
  waits.filterMap fun
    | .changed pid status => some (pid, status)
    | _ => none

/-- What a wait brings when nothing will ever happen, or the shell is no more. -/
def stuck : Error := .fatal "signal stream error" .interrupted

def await (m : Machine) : Except Error (List Notification) × Machine :=
  match m.ticks with
  | 0 => (.error stuck, m)
  | n + 1 =>
    let (ticks, s) := sleep n m.system
    match if s.killed.isSome then none else s.inbox.next (waits s) with
    | none => (.error stuck, { m with ticks, system := s })
    | some (news, inbox, left) =>
      (news, { m with ticks, system := { s with inbox, changed := unasked left } })

def takePending (m : Machine) : Except Error (List Notification) × Machine :=
  match m.system.inbox.news (waits m.system) with
  | (news, inbox, left) =>
    (news, m.onSystem fun s => { s with inbox, changed := unasked left })

/-- A process for a request, in a process group of its own. -/
def spawn (m : Machine) (request : LaunchRequest) : Pid × Machine :=
  ((m.system.launch request).1, { m with system := (m.system.launch request).2 })

def signalGroup (m : Machine) (group : Pid) (s : Signal) : Except SystemError Unit × Machine :=
  match m.system.send group (-group.val) s with
  | .ok system => (.ok (), { m with system })
  | .error e => (.error e, m)

def writeFile (m : Machine) (path text : String) : Except SystemError Unit × Machine :=
  let s := m.system
  match s.openFile System.shellStreams s.files.working ⟨Files.outlet, false, false⟩ path with
  | .ok (d, s) =>
    let (result, s) := s.write d (Utf8.encode text)
    (result, { m with system := s })
  | .error e => (.error e, m)

def hear (c : Console) (m : Machine) : Machine :=
  let out := c.out.bytesAfter m.heard.1 Notice.text
  let err := c.err.bytesAfter m.heard.2 Complaint.text
  { m with
    system := (((m.system.write 1 out).2).write 2 err).2
    heard := (c.out.written.length, c.err.written.length) }

def content (m : Machine) (stream : Nat) : List UInt8 :=
  m.system.files.content (Machine.streamFile stream)

def readInput (m : Machine) (limit : Nat) : Except SystemError (List UInt8) × Machine :=
  ((m.system.read 0 limit).1, { m with system := (m.system.read 0 limit).2 })

/-! ## The machine as a host -/

theorem ticks_await_lt {m : Machine} {news : List Notification}
    (h : m.await.1 = .ok news) : m.await.2.ticks < m.ticks := by
  unfold await at h ⊢
  split at h
  · cases h
  · next n e =>
    rw [e]
    have := sleep_le n m.system
    simp only
    split <;> exact Nat.lt_succ_of_le this

end Machine

instance : Host Machine where
  defer m := (.ok (), m.onSystem fun s => { s with inbox := s.inbox.defer })
  release m := m.onSystem fun s => { s with inbox := s.inbox.release }
  spawn request m := (.ok (m.spawn request).1, (m.spawn request).2)
  signalGroup pid s m := m.signalGroup pid s
  await := Machine.await
  pending := Machine.takePending
  writeFile path text m := m.writeFile path text
  hear := Machine.hear
  patience m := m.ticks
  patience_await _ _ h := Machine.ticks_await_lt h
  patience_hear _ _ := Nat.le_refl _
  patience_signalGroup pid s m := by
    unfold Machine.signalGroup
    split <;> exact Nat.le_refl _

instance : Input Machine where
  read limit m := m.readInput limit

end JobControl
