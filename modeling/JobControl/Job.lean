import JobControl.Text.Decimal

/-!
# Jobs

* `Pid` : the number of a process or a process group. Only positive numbers name one (`Pid.Valid`):
  zero and below address the caller's own group or every process;
* `Job` : a process group started by the shell, under the small number the user knows it by;
* `Job.State` : in the foreground, in the background or stopped;
* `Job.announcement` : how a job is announced when it goes to the background;
* `Job.listed` : its line in a listing;
* `Job.Reference` : what `bg` and `fg` name a job by, its id, as in `%2`, or its process id
  (`Job.Reference.parse?`).
-/

set_option autoImplicit false

namespace JobControl

structure Pid where
  val : Int
  deriving DecidableEq, Repr

namespace Pid

/-- The number can name an actual process. -/
def Valid (p : Pid) : Prop := 0 < p.val

instance (p : Pid) : Decidable p.Valid := inferInstanceAs (Decidable (0 < p.val))

instance : ToString Pid := ⟨fun p => toString p.val⟩

end Pid

namespace Job

inductive State where
  | foreground
  | background
  | stopped
  deriving DecidableEq, Repr

def State.label : State → String
  | .foreground => "Foreground"
  | .background => "Running"
  | .stopped => "Stopped"

def labelWidth : Nat := 11

/-- The label, filled with blanks to the width of its column. -/
def State.column (s : State) : String := s.label.pushn ' ' (labelWidth - s.label.length)

end Job

structure Job where
  /-- The small number a user refers to the job by, as in `fg %2`. -/
  id : Nat
  pid : Pid
  state : Job.State
  /-- The line the job was typed as. -/
  line : String
  deriving DecidableEq, Repr

namespace Job

def isForeground (j : Job) : Bool := j.state == .foreground

/-- `[id] (pid) line`. -/
def announcement (j : Job) : String := s!"[{j.id}] ({j.pid}) {j.line}"

/-- `[id] (pid) state line`, with its newline. -/
def listed (j : Job) : String := s!"[{j.id}] ({j.pid}) {j.state.column}{j.line}\n"

def listing (jobs : List Job) : String := String.join (jobs.map listed)

/-! ## Naming a job -/

inductive Reference where
  | id (id : Nat)
  | pid (pid : Pid)
  deriving DecidableEq, Repr

namespace Reference

/-- The greatest job id that can be written. -/
def maxId : Nat := 0xffffffff

/-- The least and the greatest process id that can be written. -/
def minPid : Int := -0x80000000

@[inherit_doc minPid]
def maxPid : Int := 0x7fffffff

/-- A percent sign and an unsigned number is a job id, a signed number a process id. -/
def parse? (arg : String) : Option Reference :=
  match arg.toList with
  | '%' :: rest => (Decimal.unsigned? maxId rest).map .id
  | cs => (Decimal.signed? minPid maxPid cs).map fun n => .pid ⟨n⟩

end Reference

end Job
end JobControl
