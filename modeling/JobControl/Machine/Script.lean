/-!
# Scripts

The command language that `sh` interprets, as data.

* `Part`, `Word` : a word is made of text, of parameters, of the output of commands and of sums;
* `Redirect` : where a stream of a command leads;
* `Command` : simple commands, and those made of other commands.
-/

set_option autoImplicit false

namespace JobControl.Machine.Script

/-! ## Parameters and streams -/

/-- What is made of the value of a parameter. -/
inductive Use where
  | value
  /-- Its length. -/
  | length
  /-- Another text if there is no value. -/
  | default
  /-- The same, and the text becomes the value. -/
  | assign
  /-- A complaint if there is no value. -/
  | require
  /-- Another text if there is a value. -/
  | alternative
  /-- The value without a pattern at its end or its start, as short or as long as possible. -/
  | trim (atEnd longest : Bool)
  deriving DecidableEq, Repr

inductive Direction where
  | read
  | write
  /-- Write, also to a file that is protected. -/
  | overwrite
  | append
  | readWrite
  /-- To where another stream leads; a dash closes the stream. -/
  | duplicate
  /-- From the text that is the target itself. -/
  | document
  deriving DecidableEq, Repr

/-! ## Words and commands -/

mutual

inductive Part where
  /-- A character that may have a meaning of its own unless it stands between double quotes. -/
  | plain (c : Char)
  /-- Characters that stand for themselves. -/
  | quoted (cs : List Char)
  /-- What stands between double quotes. -/
  | group (parts : List Part)
  /-- A parameter; with `colon`, an empty value counts as none. -/
  | param (name : String) (use : Use) (colon : Bool) (arg : List Part)
  /-- Braces that hold no parameter. -/
  | malformed
  /-- The output of commands; nothing at all if there are none. -/
  | output (commands : Option Command)
  /-- The value of a sum. -/
  | sum (body : List Part)

structure Redirect where
  stream : Nat
  direction : Direction
  target : List Part

inductive Command where
  | simple (line : Nat) (assigns : List (String × List Part)) (words : List (List Part))
      (redirects : List Redirect)
  /-- Commands each of which reads what the one before it writes. -/
  | pipeline (commands : List Command)
  | negated (c : Command)
  | both (a b : Command)
  | either (a b : Command)
  | sequence (a b : Command)
  | background (line : Nat) (c : Command)
  | subshell (line : Nat) (c : Command) (redirects : List Redirect)
  | redirected (line : Nat) (c : Command) (redirects : List Redirect)
  | branch (test yes : Command) (no : Option Command)
  /-- Repeat while the test succeeds, or until it does. -/
  | loop (isUntil : Bool) (test body : Command)
  /-- Repeat for each word, or for each argument of the script. -/
  | each (line : Nat) (name : String) (words : Option (List (List Part))) (body : Command)
  | choice (line : Nat) (subject : List Part) (cases : List (List (List Part) × Option Command))
  | define (name : String) (body : Command)

end

deriving instance Repr for Part, Redirect, Command

abbrev Word := List Part

end JobControl.Machine.Script
