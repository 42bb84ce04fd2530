import JobControl.Command

/-!
# Reading a command from a line

* `Token` : a redirection operator, a word with the byte at which its text starts, or a quote
  that is never closed;
* `Token.scan` : the tokens of a line. Between tokens, blanks are skipped. An operator is a single
  character. A quoted word is the text up to the next quote of its kind and ends there. Any other
  word goes on to the next blank, whatever quotes and operators it holds;
* `Draft` : the words and targets collected so far;
* `Draft.collect` : take up tokens until they end, one is a fault, or the argument vector is full;
* `Command.parse` : the command of a line, if there is something to run.

Only the first `maxLine` bytes of a line count. A last word that starts with `&` is the mark of a
background command and no argument.
-/

set_option autoImplicit false

namespace JobControl.Command

/-! ## Tokens -/

inductive Stream where
  | input
  | output
  deriving DecidableEq, Repr

inductive Token where
  | redirect (stream : Stream)
  /-- A word; its text starts at byte `start` of the line. -/
  | word (start : Nat) (text : List Char) (quoted : Bool)
  /-- A quote without its partner; nothing after it is a token. -/
  | unclosed (quote : Char)
  deriving DecidableEq, Repr

/-- What separates tokens: space, tab, carriage return and newline. -/
def isBlank (c : Char) : Bool := c == ' ' || c == '\t' || c == '\r' || c == '\n'

def isQuote (c : Char) : Bool := c == '\'' || c == '"'

def operator? : Char → Option Stream
  | '<' => some .input
  | '>' => some .output
  | _ => none

namespace Token

def text? : Token → Option String
  | .word _ text _ => some (String.ofList text)
  | _ => none

/-- How many bytes of the line a token takes. -/
def width : Token → Nat
  | .redirect _ => 1
  | .word _ text quoted => Utf8.size text + if quoted then 2 else 0
  | .unclosed _ => 1

/-- The token that starts with `c` at byte `pos`, and the characters after it. -/
def first (pos : Nat) (c : Char) (rest : List Char) : Token × List Char :=
  match operator? c with
  | some stream => (.redirect stream, rest)
  | none =>
    if isQuote c then
      match rest.dropWhile (· != c) with
      | [] => (.unclosed c, [])
      | _ :: after => (.word (pos + 1) (rest.takeWhile (· != c)) true, after)
    else (.word pos (c :: rest.takeWhile (!isBlank ·)) false, rest.dropWhile (!isBlank ·))

theorem length_first_le (pos : Nat) (c : Char) (rest : List Char) :
    (first pos c rest).2.length ≤ rest.length := by
  unfold first
  split
  · exact Nat.le_refl _
  · split
    · have h := (rest.dropWhile_sublist (· != c)).length_le
      split
      · exact Nat.zero_le _
      · next after e => rw [e] at h; simp at h ⊢; omega
    · exact (rest.dropWhile_sublist _).length_le

/-- The tokens of the characters from byte `pos` of a line on. -/
def scanFrom (pos : Nat) : List Char → List Token
  | [] => []
  | c :: rest =>
    if isBlank c then scanFrom (pos + 1) rest
    else (first pos c rest).1 :: scanFrom (pos + (first pos c rest).1.width) (first pos c rest).2
  termination_by cs => cs.length
  decreasing_by
    · simp
    · have := length_first_le pos c rest; simp; omega

/-- The tokens of a line. -/
def scan (line : List Char) : List Token := scanFrom 0 line

end Token

/-! ## Commands -/

/-- What has been collected from the tokens of a line. -/
structure Draft where
  argv : List String := []
  input : Option String := none
  output : Option String := none
  /-- The operator whose target comes next. -/
  awaiting : Option Stream := none
  deriving DecidableEq, Repr

namespace Draft

def target (d : Draft) : Stream → Option String
  | .input => d.input
  | .output => d.output

def take (d : Draft) : Token → Except Fault Draft
  | .redirect stream =>
    if (d.target stream).isSome ∨ d.awaiting.isSome then .error .ambiguousRedirection
    else .ok { d with awaiting := some stream }
  | .word _ text _ =>
    let word := String.ofList text
    match d.awaiting with
    | none => .ok { d with argv := d.argv ++ [word] }
    | some .input => .ok { d with input := some word, awaiting := none }
    | some .output => .ok { d with output := some word, awaiting := none }
  | .unclosed quote => .error (.unmatchedQuote quote)

/-- No further token is taken up. -/
def isComplete (d : Draft) : Bool := maxArgs - 1 ≤ d.argv.length

/-- Take up tokens until the draft is complete. -/
def collect (d : Draft) : List Token → Except Fault Draft
  | [] => .ok d
  | token :: rest =>
    match d.take token with
    | .error fault => .error fault
    | .ok d' => if d'.isComplete then .ok d' else d'.collect rest

/-- The last word marks a background command. -/
def isMarked (d : Draft) : Bool :=
  d.argv.getLast?.any fun word => word.toList.head? == some '&'

def finish (d : Draft) : Except Fault (Option Command) :=
  if d.awaiting.isSome then .error .missingTarget
  else
    let argv := if d.isMarked then d.argv.dropLast else d.argv
    if argv.isEmpty then .ok none
    else .ok (some
      { argv
        input := d.input
        output := d.output
        builtin := d.argv.head?.bind Builtin.ofName?
        background := d.isMarked })

end Draft

/-- The part of a line that counts. -/
def significant (line : String) : List Char := Utf8.cut maxLine line.toList

/-- The command of a line; `none` when there is nothing to run. -/
def parse (line : String) : Except Fault (Option Command) :=
  match ({} : Draft).collect (Token.scan (significant line)) with
  | .error fault => .error fault
  | .ok draft => draft.finish

end JobControl.Command
