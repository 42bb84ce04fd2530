import JobControl.Machine.Script.Switch
import JobControl.Job
import JobControl.Text.Decimal

/-!
# Variables and parameters of scripts

* `Variable`, `Scope` : the variables, the arguments and what else has a value;
* `Scope.get?` : the value of a parameter; `Scope.set` : give a variable a value;
* `Scope.exported` : the variables that are handed to programs.
-/

set_option autoImplicit false

namespace JobControl.Machine.Script

structure Variable where
  name : String
  /-- None if it has only been declared. -/
  value : Option String := none
  isExported : Bool := false
  isReadOnly : Bool := false
  deriving DecidableEq, Repr

structure Scope where
  /-- The name that the script knows itself by. -/
  name : String := "sh"
  args : List String := []
  vars : List Variable := []
  /-- How the last command ended. -/
  status : Nat := 0
  self : Pid := ⟨0⟩
  /-- The latest process in the background. -/
  background : Option Pid := none
  /-- The line of the command that is carried out. -/
  line : Nat := 1
  switches : Switches := {}
  deriving DecidableEq, Repr

namespace Scope

def find? (s : Scope) (name : String) : Option Variable := s.vars.find? (·.name == name)

def get? (s : Scope) (name : String) : Option String :=
  match name with
  | "?" => some (toString s.status)
  | "#" => some (toString s.args.length)
  | "$" => some (toString s.self)
  | "!" => s.background.map toString
  | "-" => some (String.ofList s.switches.letters)
  | "0" => some s.name
  | _ =>
    if name.toList.all Char.isDigit then s.args[(Decimal.value name.toList) - 1]?
    else (s.find? name).bind Variable.value

def put (s : Scope) (v : Variable) : Scope :=
  { s with vars := v :: s.vars.filter (·.name != v.name) }

/-- Give a variable a value; none if it is not to be changed. -/
def set (s : Scope) (name value : String) : Option Scope :=
  let v := (s.find? name).getD { name }
  if v.isReadOnly then none
  else some (s.put
    { v with value := some value, isExported := v.isExported || s.switches.has .allexport })

/-- Hand a variable to programs from now on. -/
def exportVar (s : Scope) (name : String) : Scope :=
  s.put { (s.find? name).getD { name } with isExported := true }

/-- Take a variable away; none if it is not to be changed. -/
def unset (s : Scope) (name : String) : Option Scope :=
  match s.find? name with
  | some v =>
    if v.isReadOnly then none else some { s with vars := s.vars.filter (·.name != name) }
  | none => some s

def exported (s : Scope) : List (String × String) :=
  (s.vars.filter (·.isExported)).filterMap fun v => v.value.map (v.name, ·)

def separators (s : Scope) : List Char := ((s.get? "IFS").getD " \t\n").toList

/-- What stands between the arguments when they are put together. -/
def separator (s : Scope) : String := String.ofList (s.separators.take 1)

end Scope
end JobControl.Machine.Script
