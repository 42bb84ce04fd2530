import JobControl.Machine.Script

/-!
# Tokens of scripts

* `Cursor` : where the reading of a script has come to; `Fault` : why it cannot go on;
* `Inner` : how the commands inside words are read; `Extent` : what ends a text;
* `parts` : the parts of a word, and where it ends;
* `Token`, `token` : the next token;
* `document` : take the lines of a here-document out of the text that follows.
-/

set_option autoImplicit false

namespace JobControl.Machine.Script

structure Fault where
  line : Nat
  text : String
  deriving DecidableEq, Repr

structure Cursor where
  rest : List Char
  /-- The number of the line that the rest starts in. -/
  line : Nat := 1
  /-- Lines that were taken out of the text after this line. -/
  ahead : Nat := 0
  deriving DecidableEq, Repr

namespace Cursor

def past (c : Cursor) (skipped rest : List Char) : Cursor :=
  { c with rest, line := c.line + skipped.count '\n' }

def nextLine (c : Cursor) (rest : List Char) : Cursor :=
  { rest, line := c.line + 1 + c.ahead }

/-- Something is missing at the end of the script. -/
def fault {α : Type} (c : Cursor) (text : String) : Except Fault α :=
  .error ⟨(c.past c.rest []).line, text⟩

end Cursor

/-! ## Characters -/

def isNameStart (c : Char) : Bool := c.isAlpha || c == '_'

def isNameChar (c : Char) : Bool := c.isAlphanum || c == '_'

def isName : List Char → Bool
  | [] => false
  | c :: cs => isNameStart c && cs.all isNameChar

/-- Parameters whose names are single characters. -/
def isSpecial (c : Char) : Bool := "@*#?-$!".contains c

def endsWord (c : Char) : Bool := " \t\n;&|()<>".contains c

/-! ## Quoted text -/

def singleQuoted (text : List Char) : Option (List Char × List Char) :=
  match text.dropWhile (· != '\'') with
  | _ :: rest => some (text.takeWhile (· != '\''), rest)
  | [] => none

/-- The text up to the closing backquote, without the backslashes that protect characters there,
and what follows. -/
def backquoted (inDouble : Bool) : List Char → Option (List Char × List Char)
  | [] => none
  | '\x60' :: rest => some ([], rest)
  | '\\' :: c :: rest =>
    (backquoted inDouble rest).map fun (text, after) =>
      if c == '\n' then (text, after)
      else if c == '\\' || c == '$' || c == '\x60' || (inDouble && c == '"') then (c :: text, after)
      else ('\\' :: c :: text, after)
  | c :: rest => (backquoted inDouble rest).map fun (text, after) => (c :: text, after)

/-! ## Parts of words -/

/-- How the commands inside words are read. -/
structure Inner where
  /-- Read commands up to the parenthesis that closes them. -/
  enclosed : Cursor → Except Fault (Option Command × Cursor)
  /-- Read the commands of a text. After a token that cannot follow them, it has no meaning. -/
  whole : List Char → Except Fault (Option Command)

/-- What ends a text that is read in parts. -/
inductive Extent where
  /-- A character that ends a word. -/
  | bare
  /-- The double quote. -/
  | double
  /-- The end; quotes stand for themselves. -/
  | document
  /-- Two closing parentheses, after those for the parentheses that are open; quotes stand for
  themselves. -/
  | sum (opened : Nat)
  /-- The closing brace; quotes mean what they mean around the braces. -/
  | brace (around : Extent)
  deriving DecidableEq, Repr

namespace Extent

/-- The text is treated as if it stood between double quotes. -/
def isQuoting : Extent → Bool
  | .bare => false
  | .double | .document | .sum _ => true
  | .brace around => around.isQuoting

/-- Double quotes stand for themselves. -/
def keepsQuotes : Extent → Bool
  | .document | .sum _ => true
  | .brace (.sum _) => true
  | _ => false

def isBrace : Extent → Bool
  | .brace _ => true
  | _ => false

/-- The extent of an argument of a parameter that stands in the text. -/
def argument : Extent → Use → Extent
  | _, .trim _ _ => .brace .bare
  | .brace around, _ => .brace around
  | e, _ => .brace e

/-- The text has come to an end before its own. -/
def unended : Extent → Cursor → Fault
  | .bare, c => ⟨c.line, "Missing '\x7d'"⟩
  | .document, c => ⟨c.line + 1, "Missing '\x7d'"⟩
  | .double, c => ⟨c.line, "Unterminated quoted string"⟩
  | .sum _, c => ⟨c.line, "Missing '))'"⟩
  | .brace around, c => around.unended c

end Extent

/-- The use of a parameter that follows its name in braces, and whether an empty value counts as
none; what follows is the argument. None if it is no use. -/
def use? : List Char → Option (Use × Bool × List Char)
  | ':' :: '-' :: rest => some (.default, true, rest)
  | ':' :: '=' :: rest => some (.assign, true, rest)
  | ':' :: '?' :: rest => some (.require, true, rest)
  | ':' :: '+' :: rest => some (.alternative, true, rest)
  | '-' :: rest => some (.default, false, rest)
  | '=' :: rest => some (.assign, false, rest)
  | '?' :: rest => some (.require, false, rest)
  | '+' :: rest => some (.alternative, false, rest)
  | '%' :: '%' :: rest => some (.trim true true, false, rest)
  | '%' :: rest => some (.trim true false, false, rest)
  | '#' :: '#' :: rest => some (.trim false true, false, rest)
  | '#' :: rest => some (.trim false false, false, rest)
  | _ => none

def bracedName : List Char → List Char × List Char
  | [] => ([], [])
  | c :: rest =>
    if isNameStart c then ((c :: rest).takeWhile isNameChar, (c :: rest).dropWhile isNameChar)
    else if c.isDigit then ((c :: rest).takeWhile Char.isDigit, (c :: rest).dropWhile Char.isDigit)
    else if isSpecial c then ([c], rest)
    else ([], c :: rest)

/-- Whether braces ask for the length of a parameter, its name, and what follows. -/
def braced : List Char → Bool × List Char × List Char
  | '#' :: d :: rest =>
    if isNameChar d then (true, bracedName (d :: rest))
    else if d != '\x7d' && rest.head? == some '\x7d' then
      (true, if isSpecial d then [d] else [], rest)
    else (false, ['#'], d :: rest)
  | text => (false, bracedName text)

/-- What follows the character that can stand for no use of a parameter. -/
def afterUse (name : List Char) : List Char → List Char
  | ':' :: rest => if name.isEmpty then rest else rest.drop 1
  | '\x7d' :: rest => '\x7d' :: rest
  | text => text.drop 1

/-- The parts of a text up to its end, and the rest. There are at most as many parts as the number
says. -/
def parts (inner : Inner) : Nat → Extent → Cursor → Except Fault (List Part × Cursor)
  | 0, _, c => .ok ([], c)
  | n + 1, extent, c =>
    let within (extent : Extent) (p : Part) (c : Cursor) : Except Fault (List Part × Cursor) := do
      let (ps, c) ← parts inner n extent c
      return (p :: ps, c)
    let add := within extent
    let quoting := extent.isQuoting
    match c.rest with
    | [] =>
      match extent with
      | .bare | .document => .ok ([], c)
      | _ => .error (extent.unended c)
    | '\\' :: [] => add (.quoted ['\\']) { c with rest := [] }
    | '\\' :: '\n' :: rest => parts inner n extent (c.past ['\n'] rest)
    | '\\' :: d :: rest =>
      if !quoting || d == '$' || d == '\x60' || d == '\\' ||
          (d == '"' && extent != .document) || (d == '\x7d' && extent.isBrace) then
        add (.quoted [d]) { c with rest }
      else add (.quoted ['\\']) { c with rest := d :: rest }
    | '\'' :: rest =>
      if quoting then add (.plain '\'') { c with rest }
      else
        match singleQuoted rest with
        | none => c.fault "Unterminated quoted string"
        | some (text, rest) => add (.quoted text) (c.past text rest)
    | '"' :: rest =>
      if extent.keepsQuotes then add (.plain '"') { c with rest }
      else if extent == .double then .ok ([], { c with rest })
      else do
        let (ps, c) ← parts inner n .double { c with rest }
        add (.group ps) c
    | '\x60' :: rest =>
      match backquoted quoting rest with
      | none => c.fault "EOF in backquote substitution"
      | some (text, after) => do
        let commands ← inner.whole text
        add (.output commands) (c.past (rest.take (rest.length - after.length)) after)
    | '$' :: '(' :: '(' :: rest => do
      let (ps, c) ← parts inner n (.sum 0) { c with rest }
      add (.sum ps) c
    | '$' :: '(' :: rest => do
      let (commands, c) ← inner.enclosed { c with rest }
      add (.output commands) c
    | '$' :: '\x7b' :: text =>
      let (isLength, name, rest) := braced text
      let named := String.ofList name
      match isLength, name, rest, use? rest with
      | false, _ :: _, '\x7d' :: rest, _ => add (.param named .value false []) { c with rest }
      | true, _ :: _, '\x7d' :: rest, _ => add (.param named .length false []) { c with rest }
      | false, _ :: _, _, some (use, colon, rest) => do
        let (arg, c) ← parts inner n (extent.argument use) { c with rest }
        add (.param named use colon arg) c
      | _, _, _, _ => do
        let rest := if isLength then rest else afterUse name rest
        let (_, c) ← parts inner n (extent.argument .value) { c with rest }
        add .malformed c
    | '$' :: d :: rest =>
      if isNameStart d then
        let name := (d :: rest).takeWhile isNameChar
        add (.param (String.ofList name) .value false [])
          { c with rest := (d :: rest).dropWhile isNameChar }
      else if d.isDigit || isSpecial d then
        add (.param (String.singleton d) .value false []) { c with rest }
      else add (.plain '$') { c with rest := d :: rest }
    | d :: rest =>
      let next := c.past [d] rest
      match extent with
      | .bare => if endsWord d then .ok ([], c) else add (.plain d) next
      | .brace _ => if d == '\x7d' then .ok ([], next) else add (.plain d) next
      | .sum opened =>
        if d == '(' then within (.sum (opened + 1)) (.plain d) next
        else if d == ')' then
          match opened, rest with
          | _ + 1, _ => within (.sum (opened - 1)) (.plain d) next
          | 0, ')' :: rest => .ok ([], { c with rest })
          | 0, _ => add (.plain d) next
        else add (.plain d) next
      | _ => add (.plain d) next

/-- The parts of a here-document, which starts at a line. -/
def partsOf (inner : Inner) (line : Nat) (text : List Char) : Except Fault (List Part) :=
  (parts inner (text.length + 1) .document { rest := text, line }).map (·.1)

/-! ## Tokens -/

inductive Token where
  | ending
  | newline
  | operator (text : String)
  /-- An arrow, with the stream that is named before it. -/
  | redirect (stream : Option Nat) (arrow : String)
  | word (w : Word)
  | keyword (text : String)
  deriving Repr

namespace Token

def name : Token → String
  | .ending => "end of file"
  | .newline => "newline"
  | .operator text | .keyword text => s!"\"{text}\""
  | .redirect _ _ => "redirection"
  | .word _ => "word"

def isOperator (t : Token) (text : String) : Bool :=
  match t with
  | .operator s => s == text
  | _ => false

def isKeyword (t : Token) (text : String) : Bool :=
  match t with
  | .keyword s => s == text
  | _ => false

def isNewline : Token → Bool
  | .newline => true
  | _ => false

def endsList : Token → Bool
  | .ending => true
  | .operator text => [")", ";;"].contains text
  | .keyword text => ["do", "done", "elif", "else", "esac", "fi", "then", "\x7d"].contains text
  | _ => false

end Token

def keywords : List String :=
  ["!", "case", "do", "done", "elif", "else", "esac", "fi", "for", "if", "in", "then", "until",
   "while", "\x7b", "\x7d"]

/-- The text of a word in which nothing is quoted and nothing is replaced. -/
def bareText? (w : Word) : Option (List Char) :=
  w.mapM fun
    | .plain c => some c
    | _ => none

def assignment? (w : Word) : Option (String × Word) :=
  let isPlain (p : Part) : Bool :=
    match p with
    | .plain c => isNameChar c
    | _ => false
  match bareText? (w.takeWhile isPlain), w.dropWhile isPlain with
  | some name, .plain '=' :: value => if isName name then some (String.ofList name, value) else none
  | _, _ => none

/-- Go on after blanks and a comment. -/
def skipBlanks (line : Nat) : List Char → Nat × List Char
  | ' ' :: rest | '\t' :: rest => skipBlanks line rest
  | '\\' :: '\n' :: rest => skipBlanks (line + 1) rest
  | '#' :: rest => (line, rest.dropWhile (· != '\n'))
  | rest => (line, rest)

/-- The arrow that a text starts with, and what follows. -/
def arrow? : List Char → Option (String × List Char)
  | '<' :: '<' :: '-' :: rest => some ("<<-", rest)
  | '<' :: '<' :: rest => some ("<<", rest)
  | '<' :: '&' :: rest => some ("<&", rest)
  | '<' :: '>' :: rest => some ("<>", rest)
  | '<' :: rest => some ("<", rest)
  | '>' :: '>' :: rest => some (">>", rest)
  | '>' :: '&' :: rest => some (">&", rest)
  | '>' :: '|' :: rest => some (">|", rest)
  | '>' :: rest => some (">", rest)
  | _ => none

def token (inner : Inner) (c : Cursor) : Except Fault (Token × Cursor) :=
  let (line, rest) := skipBlanks c.line c.rest
  let c := { c with line, rest }
  let operator (text : String) (rest : List Char) : Except Fault (Token × Cursor) :=
    .ok (.operator text, { c with rest })
  match rest with
  | [] => .ok (.ending, c)
  | '\n' :: rest => .ok (.newline, c.nextLine rest)
  | '&' :: '&' :: rest => operator "&&" rest
  | '&' :: rest => operator "&" rest
  | '|' :: '|' :: rest => operator "||" rest
  | '|' :: rest => operator "|" rest
  | ';' :: ';' :: rest => operator ";;" rest
  | ';' :: rest => operator ";" rest
  | '(' :: rest => operator "(" rest
  | ')' :: rest => operator ")" rest
  | d :: more =>
    match arrow? rest, d.isDigit, arrow? more with
    | some (arrow, rest), _, _ => .ok (.redirect none arrow, { c with rest })
    | none, true, some (arrow, rest) =>
      .ok (.redirect (some (d.toNat - '0'.toNat)) arrow, { c with rest })
    | _, _, _ =>
      (parts inner (rest.length + 1) .bare c).map fun (w, c) => (.word w, c)

/-! ## Here-documents -/

/-- Split a text after the end of its first line. A newline between quotes does not end it. -/
def splitLine (done : List Char) (quote : Option Char) : List Char → List Char × List Char
  | [] => (done.reverse, [])
  | '\\' :: c :: rest => splitLine (c :: '\\' :: done) quote rest
  | c :: rest =>
    match quote with
    | none =>
      if c == '\n' then ((c :: done).reverse, rest)
      else splitLine (c :: done) (if c == '\'' || c == '"' then some c else none) rest
    | some q => splitLine (c :: done) (if c == q then none else some q) rest

/-- The lines before the one that is the marker, and those after it. -/
def splitAtMarker (marker : List Char) (strip : Bool) :
    List (List Char) → List (List Char) × List (List Char)
  | [] => ([], [])
  | line :: rest =>
    let line := if strip then line.dropWhile (· == '\t') else line
    if line = marker then ([], rest)
    else (line :: (splitAtMarker marker strip rest).1, (splitAtMarker marker strip rest).2)

/-- The lines of a text; one that ends in a newline has an empty last line. -/
def linesOf : List Char → List (List Char)
  | [] => [[]]
  | c :: rest =>
    if c == '\n' then [] :: linesOf rest
    else
      match linesOf rest with
      | [] => [[c]]
      | line :: lines => (c :: line) :: lines

/-- Take the lines of a here-document up to its marker out of the text after this line. -/
def document (c : Cursor) (marker : List Char) (strip : Bool) : List Char × Cursor :=
  let (line, after) := splitLine [] none c.rest
  let lines := linesOf after
  let (body, rest) := splitAtMarker marker strip lines
  let ended := body.length < lines.length
  -- without a marker the empty line after the last newline is no line of the document
  let body := if ended then body else if body.getLast? = some [] then body.dropLast else body
  (body.flatMap (· ++ ['\n']),
    { c with
      rest := line ++ ['\n'].intercalate rest
      ahead := c.ahead + (lines.length - rest.length) })

end JobControl.Machine.Script
