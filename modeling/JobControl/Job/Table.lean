import JobControl.Job

/-!
# The job table

A fixed number of slots and the id to try next. A job takes the lowest free slot and the first
free id from the counter on, counting around from the capacity to 1.

* `Table.ofCapacity?`, `Table.standard` : empty tables;
* `Table.jobs` : the live jobs in slot order; `ids`, `maxId`; `find?`, `findByPid?`, `findById?`,
  `foreground?`;
* `Table.add`, `remove`, `setState`, `clear` : the updates; `Refusal` says why one is refused;
* `Table.Op`, `Table.perform` : the operations as data, with their replies; `Table.after`.
-/

set_option autoImplicit false

namespace JobControl

structure Table where
  slots : List (Option Job)
  nextId : Nat
  deriving DecidableEq, Repr

namespace Table

/-- Why the table refuses an operation. -/
inductive Refusal where
  | invalidPid (pid : Pid)
  | full
  | notFound (pid : Pid)
  /-- Another job, with process `owner`, is in the foreground. -/
  | foregroundBusy (owner : Pid)
  deriving DecidableEq, Repr

def Refusal.message : Refusal → String
  | .invalidPid pid => s!"invalid process id {pid}"
  | .full => "Tried to create too many jobs"
  | .notFound pid => s!"no job for process {pid}"
  | .foregroundBusy owner => s!"process {owner} already runs in the foreground"

/-! ## Empty tables -/

/-- The number of slots of the shell's own table. -/
def maxJobs : Nat := 16

def empty (capacity : Nat) : Table := ⟨List.replicate capacity none, 1⟩

def standard : Table := empty maxJobs

/-- What is said of a table without slots. -/
def noSlotsMessage : String := "a job table needs at least one slot"

/-- The table of `capacity` free slots; a table has at least one. -/
def ofCapacity? (capacity : Nat) : Option Table :=
  if 0 < capacity then some (empty capacity) else none

/-! ## Looking at the table -/

section Views
variable (t : Table)

def capacity : Nat := t.slots.length

def jobs : List Job := t.slots.filterMap id

def ids : List Nat := t.jobs.map Job.id

/-- The greatest id in use, or 0. -/
def maxId : Nat := t.ids.max?.getD 0

def size : Nat := t.jobs.length

def isEmpty : Bool := t.jobs.isEmpty

def isFull : Bool := t.slots.all Option.isSome

def findByPid? (pid : Pid) : Option Job :=
  if pid.Valid then t.jobs.find? (·.pid == pid) else none

def findById? (id : Nat) : Option Job :=
  if 1 ≤ id then t.jobs.find? (·.id == id) else none

def find? : Job.Reference → Option Job
  | .id id => t.findById? id
  | .pid pid => t.findByPid? pid

def foreground? : Option Pid := (t.jobs.find? Job.isForeground).map Job.pid

def listing : String := Job.listing t.jobs

end Views

/-! ## Job ids -/

/-- The id after `id`, counting around from the capacity to 1. -/
def idAfter (t : Table) (id : Nat) : Nat := if t.capacity < id + 1 then 1 else id + 1

/-- The first of the `n` ids from `id` on that no live job has. -/
def firstFree (t : Table) : Nat → Nat → Option Nat
  | 0, _ => none
  | n + 1, id => if (t.findById? id).isNone then some id else t.firstFree n (t.idAfter id)

/-- The first id from the counter on that no live job has. -/
def freshId? (t : Table) : Option Nat := t.firstFree t.capacity t.nextId

/-! ## Slots -/

/-- Put a job into the lowest free slot. -/
def place (j : Job) : List (Option Job) → List (Option Job)
  | [] => []
  | none :: rest => some j :: rest
  | some k :: rest => some k :: place j rest

/-- Let `f` decide what becomes of the first job with process `pid`. -/
def revise (pid : Pid) (f : Job → Option Job) : List (Option Job) → List (Option Job)
  | [] => []
  | none :: rest => none :: revise pid f rest
  | some k :: rest => if k.pid = pid then f k :: rest else some k :: revise pid f rest

/-! ## Updates -/

/-- Register a freshly started process and answer the id it was given. -/
def add (t : Table) (pid : Pid) (state : Job.State) (line : String) :
    Except Refusal (Nat × Table) :=
  if ¬ pid.Valid then .error (.invalidPid pid)
  else
    match if state = .foreground then t.foreground? else none with
    | some owner => .error (.foregroundBusy owner)
    | none =>
      if t.isFull then .error .full
      else
        match t.freshId? with
        | none => .error .full
        | some id => .ok (id, ⟨place ⟨id, pid, state, line⟩ t.slots, t.idAfter id⟩)

/-- Clear the slot of the first job with process `pid` and hand the job back. The next id is the
one after the greatest still in use. -/
def remove (t : Table) (pid : Pid) : Option (Job × Table) :=
  match t.findByPid? pid with
  | none => none
  | some j =>
    let rest : Table := { t with slots := revise pid (fun _ => none) t.slots }
    some (j, { rest with nextId := rest.idAfter rest.maxId })

/-- Move the first job with process `pid` to `state`, refusing a second foreground job. -/
def setState (t : Table) (pid : Pid) (state : Job.State) : Except Refusal Table :=
  match if state = .foreground then t.foreground?.filter (· ≠ pid) else none with
  | some owner => .error (.foregroundBusy owner)
  | none =>
    if t.jobs.any (·.pid == pid) then
      .ok { t with slots := revise pid (fun k => some { k with state }) t.slots }
    else .error (.notFound pid)

/-- Drop every job and number from 1 again. -/
def clear (t : Table) : Table := empty t.capacity

/-! ## Operations as data -/

inductive Op where
  | add (pid : Pid) (state : Job.State) (line : String)
  | remove (pid : Pid)
  | setState (pid : Pid) (state : Job.State)
  | clear
  | findByPid (pid : Pid)
  | findById (id : Nat)
  | list
  deriving DecidableEq, Repr

inductive Reply where
  | added (id : Nat)
  | removed (job : Option Job)
  | found (job : Option Job)
  | listing (text : String)
  | done
  | refused (reason : Refusal)
  deriving DecidableEq, Repr

/-- Carry out an operation. -/
def perform (t : Table) : Op → Reply × Table
  | .add pid state line =>
    match t.add pid state line with
    | .ok (id, t') => (.added id, t')
    | .error reason => (.refused reason, t)
  | .remove pid =>
    match t.remove pid with
    | some (j, t') => (.removed (some j), t')
    | none => (.removed none, t)
  | .setState pid state =>
    match t.setState pid state with
    | .ok t' => (.done, t')
    | .error reason => (.refused reason, t)
  | .clear => (.done, t.clear)
  | .findByPid pid => (.found (t.findByPid? pid), t)
  | .findById id => (.found (t.findById? id), t)
  | .list => (.listing t.listing, t)

/-- Carry out operations one after another. -/
def performAll (t : Table) : List Op → List Reply × Table
  | [] => ([], t)
  | op :: ops =>
    let (reply, t') := t.perform op
    let (replies, t'') := t'.performAll ops
    (reply :: replies, t'')

/-- The table after operations on an empty one. -/
def after (capacity : Nat) (ops : List Op) : Table := ((empty capacity).performAll ops).2

end Table
end JobControl
