import JobControl.Command.Parse
import JobControl.Text.Utf8

/-!
# Reading a line by its bytes

A line is scanned without being copied: what is a word is noted by the bytes at which it starts and
stops, and taken out of the line when it is taken up.

* `Span` : a part of a line; `Lexeme` : a token whose text is still in the line;
* `Cursor` : the characters that are left, each with its byte; `indexed`;
* `lexemes` : the lexemes of a line, `spans` : the parts of it that are words;
* `Lexeme.token?`, `Draft.collect?` : taking words out of the line;
* `parseBytes?` : the command of a line, read in this way. There is no result if a slice of the line splits
  a character or reaches beyond the line.
-/

set_option autoImplicit false

namespace JobControl.Command

/-- The bytes of a line from `start` up to `stop`. -/
structure Span where
  start : Nat
  stop : Nat
  deriving DecidableEq, Repr

inductive Lexeme where
  | redirect (stream : Stream)
  | word (span : Span) (quoted : Bool)
  | unclosed (quote : Char)
  deriving DecidableEq, Repr

abbrev Cursor := List (Nat × Char)

/-- The characters from byte `pos` of a line on. -/
def indexed (pos : Nat) : List Char → Cursor
  | [] => []
  | c :: cs => (pos, c) :: indexed (pos + c.utf8Size) cs

namespace Cursor

/-- The byte of the next quote, and what follows the quote. -/
def closing? (quote : Char) : Cursor → Option (Nat × Cursor)
  | [] => none
  | (index, c) :: rest => if c = quote then some (index, rest) else closing? quote rest

/-- The word after an opening quote, and what follows its closing quote. -/
def quoted? (quote : Char) : Cursor → Option (Span × Cursor)
  | [] => none
  | (start, c) :: rest => (closing? quote ((start, c) :: rest)).map fun found => (⟨start, found.1⟩, found.2)

/-- The byte of the next blank, and what follows from there on; without a blank, the end of the line, which
takes `length` bytes. -/
def bareEnd (length : Nat) : Cursor → Nat × Cursor
  | [] => (length, [])
  | (index, c) :: rest => if isBlank c then (index, (index, c) :: rest) else bareEnd length rest

/-- The lexeme that starts with `c` at byte `start`, and what follows it. -/
def first (length start : Nat) (c : Char) (rest : Cursor) : Lexeme × Cursor :=
  match operator? c with
  | some stream => (.redirect stream, rest)
  | none =>
    if isQuote c then
      match quoted? c rest with
      | none => (.unclosed c, [])
      | some (span, after) => (.word span true, after)
    else
      let found := bareEnd length ((start, c) :: rest)
      (.word ⟨start, found.1⟩ false, found.2)

theorem length_closing?_lt {quote : Char} {chars : Cursor} {found : Nat × Cursor}
    (h : closing? quote chars = some found) : found.2.length < chars.length := by
  induction chars with
  | nil => cases h
  | cons entry rest ih =>
    rw [closing?] at h
    split at h
    · cases h
      exact Nat.lt_succ_self _
    · exact Nat.lt_succ_of_lt (ih h)

theorem length_bareEnd_le (length : Nat) (chars : Cursor) :
    (bareEnd length chars).2.length ≤ chars.length := by
  induction chars with
  | nil => exact Nat.le_refl 0
  | cons entry rest ih =>
    rw [bareEnd]
    split
    · exact Nat.le_refl _
    · exact Nat.le_succ_of_le ih

theorem length_first_le {c : Char} (h : ¬ isBlank c) (length start : Nat) (rest : Cursor) :
    (first length start c rest).2.length ≤ rest.length := by
  unfold first
  split
  · exact Nat.le_refl _
  · split
    · split
      · exact Nat.zero_le _
      · next span after heq =>
        cases rest with
        | nil => cases heq
        | cons entry rest =>
          rw [quoted?, Option.map_eq_some_iff] at heq
          obtain ⟨found, hfound, hafter⟩ := heq
          cases hafter
          exact Nat.le_of_lt (length_closing?_lt hfound)
    · rw [bareEnd, if_neg h]
      exact length_bareEnd_le length rest

/-- The lexemes of what is left of a line that takes `length` bytes. -/
def lexemes (length : Nat) : Cursor → List Lexeme
  | [] => []
  | (start, c) :: rest =>
    if isBlank c then lexemes length rest
    else (first length start c rest).1 :: lexemes length (first length start c rest).2
  termination_by chars => chars.length
  decreasing_by
    · simp
    · next h => exact Nat.lt_succ_of_le (length_first_le h length start rest)

end Cursor

def lexemes (line : String) : List Lexeme :=
  Cursor.lexemes line.utf8ByteSize (indexed 0 line.toList)

namespace Lexeme

def span? : Lexeme → Option Span
  | .word span _ => some span
  | _ => none

def token? (line : String) : Lexeme → Option Token
  | .redirect stream => some (.redirect stream)
  | .word span quoted =>
    (Utf8.slice? line span.start span.stop).map fun text => .word span.start text.toList quoted
  | .unclosed quote => some (.unclosed quote)

end Lexeme

/-- The parts of a line that are words. -/
def spans (line : String) : List Span := (lexemes line).filterMap Lexeme.span?

/-- Take up lexemes of a line until the draft is complete, each as the token that is taken out of the
line. -/
def Draft.collect? (line : String) (d : Draft) : List Lexeme → Option (Except Fault Draft)
  | [] => some (.ok d)
  | lexeme :: rest =>
    match lexeme.token? line with
    | none => none
    | some token =>
      match d.take token with
      | .error fault => some (.error fault)
      | .ok d' => if d'.isComplete then some (.ok d') else d'.collect? line rest

def parseBytes? (line : String) : Option (Except Fault (Option Command)) := do
  let counted ← Utf8.cutBytes? maxLine line
  let outcome ← ({} : Draft).collect? counted (lexemes counted)
  return outcome.bind Draft.finish

end JobControl.Command
