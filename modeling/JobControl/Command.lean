import JobControl.Text.Utf8

/-!
# Commands

* `Command` : what a line asks for: words, redirections, and whether to run in the background;
* `Builtin` : the commands the shell carries out itself;
* `Command.Fault` : why a line is no command.
-/

set_option autoImplicit false

namespace JobControl

inductive Builtin where
  | quit
  | jobs
  | bg
  | fg
  deriving DecidableEq, Repr

namespace Builtin

def name : Builtin → String
  | .quit => "quit"
  | .jobs => "jobs"
  | .bg => "bg"
  | .fg => "fg"

def ofName? : String → Option Builtin
  | "quit" => some .quit
  | "jobs" => some .jobs
  | "bg" => some .bg
  | "fg" => some .fg
  | _ => none

end Builtin

structure Command where
  /-- The program or built-in and its arguments; never empty. -/
  argv : List String
  /-- The file that becomes standard input. -/
  input : Option String := none
  /-- The file that becomes standard output. -/
  output : Option String := none
  builtin : Option Builtin := none
  background : Bool := false
  deriving DecidableEq, Repr

namespace Command

/-- The longest line that is looked at, in bytes. -/
def maxLine : Nat := 1024

/-- One more than the words that an argument vector may hold. -/
def maxArgs : Nat := 128

inductive Fault where
  | unmatchedQuote (quote : Char)
  | ambiguousRedirection
  | missingTarget
  deriving DecidableEq, Repr

def Fault.message : Fault → String
  | .unmatchedQuote quote => s!"Error: unmatched {quote}."
  | .ambiguousRedirection => "Error: Ambiguous I/O redirection"
  | .missingTarget => "Error: must provide file name for redirection"

end Command
end JobControl
