/-!
# Switches of scripts

* `Switch` : a thing that a script turns on and off by a letter or a name;
* `Switches` : those that are on;
* `Switches.take` : the switches that the first arguments of a command turn.
-/

set_option autoImplicit false

namespace JobControl.Machine.Script

inductive Switch where
  /-- Leave after a command that fails. -/
  | errexit
  /-- Patterns stand for themselves. -/
  | noglob
  | ignoreeof
  | interactive
  | monitor
  /-- Carry out no commands. -/
  | noexec
  /-- Commands are read from standard input. -/
  | stdin
  /-- Show commands. -/
  | xtrace
  /-- Show lines as they are read. -/
  | verbose
  | vi
  | emacs
  /-- Do not empty files that exist. -/
  | noclobber
  /-- All variables that are set are exported. -/
  | allexport
  | notify
  /-- Complain about parameters without a value. -/
  | nounset
  | privileged
  | nolog
  | debug
  deriving DecidableEq, Repr

namespace Switch

/-- All switches in the order of their list, with their names and letters. -/
def table : List (Switch × String × Option Char) :=
  [(.errexit, "errexit", some 'e'), (.noglob, "noglob", some 'f'),
   (.ignoreeof, "ignoreeof", some 'I'), (.interactive, "interactive", some 'i'),
   (.monitor, "monitor", some 'm'), (.noexec, "noexec", some 'n'), (.stdin, "stdin", some 's'),
   (.xtrace, "xtrace", some 'x'), (.verbose, "verbose", some 'v'), (.vi, "vi", some 'V'),
   (.emacs, "emacs", some 'E'), (.noclobber, "noclobber", some 'C'),
   (.allexport, "allexport", some 'a'), (.notify, "notify", some 'b'),
   (.nounset, "nounset", some 'u'), (.privileged, "privileged", some 'p'),
   (.nolog, "nolog", none), (.debug, "debug", none)]

def ofLetter? (c : Char) : Option Switch :=
  (table.find? fun (_, _, letter) => letter == some c).map (·.1)

def ofName? (name : String) : Option Switch :=
  (table.find? fun (_, n, _) => n == name).map (·.1)

end Switch

structure Switches where
  on : List Switch := []
  deriving DecidableEq, Repr

namespace Switches

def has (s : Switches) (x : Switch) : Bool := s.on.contains x

def put (s : Switches) (x : Switch) (isOn : Bool) : Switches :=
  let others := s.on.filter (· != x)
  ⟨if isOn then x :: others else others⟩

def letters (s : Switches) : List Char :=
  Switch.table.reverse.filterMap fun (x, _, letter) => if s.has x then letter else none

def listing (s : Switches) : String :=
  "Current option settings\n" ++ String.join (Switch.table.map fun (x, name, _) =>
    name ++ String.ofList (List.replicate (16 - name.length) ' ') ++
      (if s.has x then "on" else "off") ++ "\n")

/-- The commands that would turn all switches the way they are. -/
def commands (s : Switches) : String :=
  String.join (Switch.table.map fun (x, name, _) =>
    (if s.has x then "set -o " else "set +o ") ++ name ++ "\n")

/-- What the first arguments of a command have said. -/
structure Taken where
  switches : Switches
  /-- Other letters, which mean something to the command. -/
  letters : List Char := []
  /-- A list of the switches that was asked for on the way. -/
  shown : String := ""
  /-- What is left of the arguments. -/
  rest : List String := []
  /-- The switches were ended by a mark that says so. -/
  isEnded : Bool := false
  deriving DecidableEq, Repr

/-- Turn what a group of letters says. The letter `o` takes its name from the arguments that
follow. -/
def takeLetters (extra : List Char) (isOn : Bool) (t : Taken) : List Char → Except String Taken
  | [] => .ok t
  | c :: cs =>
    if extra.contains c then takeLetters extra isOn { t with letters := c :: t.letters } cs
    else if c == 'o' then
      match t.rest with
      | [] =>
        let text := if isOn then t.switches.listing else t.switches.commands
        takeLetters extra isOn { t with shown := t.shown ++ text } cs
      | name :: rest =>
        match Switch.ofName? name with
        | some x =>
          takeLetters extra isOn { t with switches := t.switches.put x isOn, rest } cs
        | none => .error s!"Illegal option -o {name}"
    else
      match Switch.ofLetter? c with
      | some x => takeLetters extra isOn { t with switches := t.switches.put x isOn } cs
      | none => .error s!"Illegal option -{c}"

theorem length_rest_takeLetters {extra : List Char} {isOn : Bool} {cs : List Char} {t u : Taken}
    (h : takeLetters extra isOn t cs = .ok u) : u.rest.length ≤ t.rest.length := by
  fun_induction takeLetters extra isOn t cs with
  | case1 => cases h; exact Nat.le_refl _
  | case2 _ _ _ _ ih => exact ih h
  | case3 _ _ _ _ _ _ _ ih => exact ih h
  | case4 t _ _ _ _ _ rest e _ _ ih => rw [e]; exact Nat.le_succ_of_le (ih h)
  | case5 => cases h
  | case6 _ _ _ _ _ _ _ ih => exact ih h
  | case7 => cases h

/-- Take up arguments as long as they turn switches. -/
def takeAll (extra : List Char) (t : Taken) : Except String Taken :=
  match _h : t.rest with
  | [] => .ok t
  | arg :: rest =>
    match arg.toList with
    | ['-'] | ['-', '-'] => .ok { t with rest, isEnded := true, letters :=
        if arg == "-" then '-' :: t.letters else t.letters }
    | sign :: cs =>
      if sign == '-' || sign == '+' then
        match _h' : takeLetters extra (sign == '-') { t with rest } cs with
        | .ok u => takeAll extra u
        | .error text => .error text
      else .ok t
    | [] => .ok t
  termination_by t.rest.length
  decreasing_by
    have := length_rest_takeLetters _h'
    simp only at this
    rw [_h]
    exact Nat.lt_succ_of_le this

/-- The switches that the first of some arguments turn. Letters of `extra` are left to the
command. -/
def take (extra : List Char) (s : Switches) (args : List String) : Except String Taken :=
  takeAll extra { switches := s, rest := args }

end Switches
end JobControl.Machine.Script
