import JobControl.Machine.Script.Lexer

/-!
# Commands of scripts

* `innerOf` : how the commands inside words are read;
* `parseLine` : the commands of the next line, with the lines that they go on in;
* `Line` : what was read, and where reading goes on.

A list of commands ends where a line does, unless it stands inside another command. Fuel bounds
the depth of the recursion; every token takes a fixed amount of it at most.
-/

set_option autoImplicit false

namespace JobControl.Machine.Script

/-- Where parsing has come to. -/
structure Reading where
  cursor : Cursor
  inner : Inner
  /-- The commands stand in a word, and a parenthesis closes them. -/
  isEnclosed : Bool := false
  /-- A token that was read and put back. -/
  back : Option Token := none
  /-- The last word that was read. -/
  last : Word := []

abbrev Parser (α : Type) := StateT Reading (Except Fault) α

namespace Parser

def fail {α : Type} (text : String) : Parser α := fun r =>
  .error ⟨r.cursor.line, text⟩

/-- Complain about a token, and say which was expected. -/
def unexpected {α : Type} (t : Token) (expected : String := "") : Parser α :=
  fail (s!"{t.name} unexpected" ++ if expected == "" then "" else s!" (expecting {expected})")

def line : Parser Nat := do return (← get).cursor.line

def raw : Parser Token := fun r =>
  match r.back with
  | some t => .ok (t, { r with back := none })
  | none =>
    (token r.inner r.cursor).map fun (t, cursor) =>
      match t with
      | .word last => (t, { r with cursor, last })
      | _ => (t, { r with cursor })

def unread (t : Token) : Parser Unit := modify fun r => { r with back := some t }

/-- The next token that is no newline; there are at most so many. -/
def rawAfterNewlines : Nat → Parser Token
  | 0 => raw
  | n + 1 => do
    let t ← raw
    if t.isNewline then rawAfterNewlines n else return t

/-- A word that is a keyword. -/
def classify (t : Token) : Token :=
  match t with
  | .word w =>
    match bareText? w with
    | some text =>
      let text := String.ofList text
      if keywords.contains text then .keyword text else t
    | none => t
  | _ => t

/-- The next token of a command that may start here. -/
def start (newlines : Bool) : Parser Token := do
  let t ← if newlines then rawAfterNewlines ((← get).cursor.rest.length + 1) else raw
  return classify t

/-- The next token, which must be this one. -/
def expect (newlines : Bool) (isIt : Token → Bool) (name : String) : Parser Unit := do
  let t ← start newlines
  if isIt t then return () else unexpected t name

def expectKeyword (text : String) : Parser Unit :=
  expect false (·.isKeyword text) s!"\"{text}\""

/-! ## Words -/

def word : Parser Word := do
  match ← raw with
  | .word w => return w
  | t => unexpected t

/-- The text of the marker of a here-document, and whether any of it is quoted. -/
def markerText : Part → List Char
  | .plain c => [c]
  | .quoted cs => cs
  | .group parts => parts.flatMap fun
    | .plain c => [c]
    | .quoted cs => cs
    | _ => []
  | .param name _ _ _ => '$' :: name.toList
  | _ => []

/-- A parenthesis closes more than the line opens, so that no lines of a here-document follow. -/
def isClosed (opened : Nat) : List Char → Bool
  | [] | '\n' :: _ => false
  | '(' :: rest => isClosed (opened + 1) rest
  | ')' :: rest => opened == 0 || isClosed (opened - 1) rest
  | _ :: rest => isClosed opened rest

/-- A redirection, after its arrow. -/
def redirect (stream : Option Nat) (arrow : String) : Parser Redirect := do
  let w ← word
  let reading := arrow.startsWith "<"
  let stream := stream.getD (if reading then 0 else 1)
  let plain (d : Direction) : Parser Redirect := return ⟨stream, d, w⟩
  match arrow with
  | "<" => plain .read
  | ">" => plain .write
  | ">>" => plain .append
  | ">|" => plain .overwrite
  | "<>" => plain .readWrite
  | "<&" | ">&" => plain .duplicate
  | _ => do
    let r ← get
    let (body, cursor) := if r.isEnclosed && isClosed 0 r.cursor.rest then ([], r.cursor)
      else document r.cursor (w.flatMap markerText) (arrow == "<<-")
    set { r with cursor }
    match bareText? w with
    | none => return ⟨stream, .document, [.quoted body]⟩
    | some _ => do
      let ps ← partsOf r.inner (r.cursor.line + 1 + r.cursor.ahead) body
      return ⟨stream, .document, [.group ps]⟩

def redirects : Nat → Parser (List Redirect)
  | 0 => return []
  | n + 1 => do
    match ← start false with
    | .redirect stream arrow =>
      let r ← redirect stream arrow
      return r :: (← redirects n)
    | t => do unread t; return []

def words : Nat → Parser (List Word × Token)
  | 0 => return ([], .ending)
  | n + 1 => do
    match ← raw with
    | .word w =>
      let (ws, t) ← words n
      return (w :: ws, t)
    | t => return ([], t)

/-! ## Commands -/

/-- The text is the name of a command that a function cannot have. -/
def isReserved (name : String) : Bool :=
  [".", ":", "break", "continue", "eval", "exec", "exit", "export", "readonly", "return", "set",
   "shift", "times", "trap", "unset"].contains name

/-- The alternatives of a pattern, of which the first token has been read. A token that is no word
stands for the word before it. -/
def patterns : Nat → Parser (List Word)
  | 0 => return []
  | n + 1 => do
    let pattern := (← get).last
    let t ← raw
    if t.isOperator "|" then
      let _ ← raw
      return pattern :: (← patterns n)
    else if t.isOperator ")" then return [pattern]
    else unexpected t "\")\""

mutual

/-- A list of commands. The outermost list ends with its line; one that is inside another command
ends before a token that the other command takes up. -/
def list : Nat → Bool → Bool → Option Command → Parser (Option Command)
  | 0, _, _, done => return done
  | n + 1, outermost, canEnd, done => do
    let t ← start (!outermost)
    match t with
    | .newline => return done
    | .ending => do unread t; return done
    | _ =>
      unread t
      if !outermost && canEnd && t.endsList then return done
      let here ← line
      let c ← andOr n
      let t ← raw
      let c := if t.isOperator "&" then .background here c else c
      let done := some (match done with
        | none => c
        | some before => .sequence before c)
      match t with
      | .ending => do unread t; return done
      | .newline => do
        unread t
        list n outermost true done
      | _ =>
        if t.isOperator "&" || t.isOperator ";" then list n outermost true done
        else if outermost then unexpected t
        else do unread t; return done

def andOr : Nat → Parser Command
  | 0 => fail "too deep"
  | n + 1 => do
    let first ← pipeline n false
    andOrAfter n first

def andOrAfter : Nat → Command → Parser Command
  | 0, done => return done
  | n + 1, done => do
    let t ← raw
    if t.isOperator "&&" then do
      let c ← pipeline n true
      andOrAfter n (.both done c)
    else if t.isOperator "||" then do
      let c ← pipeline n true
      andOrAfter n (.either done c)
    else do unread t; return done

def pipeline : Nat → Bool → Parser Command
  | 0, _ => fail "too deep"
  | n + 1, newlines => do
    let t ← start newlines
    if t.isKeyword "!" then do
      let c ← pipes n
      return .negated c
    else do
      unread t
      pipes n

def pipes : Nat → Parser Command
  | 0 => fail "too deep"
  | n + 1 => do
    let first ← command n false
    match ← pipedInto n with
    | [] => return first
    | rest => return .pipeline (first :: rest)

/-- The commands that read what one before them writes. -/
def pipedInto : Nat → Parser (List Command)
  | 0 => return []
  | n + 1 => do
    let t ← raw
    if t.isOperator "|" then do
      let c ← command n true
      return c :: (← pipedInto n)
    else do unread t; return []

/-- A list inside another command. Only at the end of the script is it empty. -/
def block : Nat → Parser Command
  | 0 => fail "too deep"
  | n + 1 => do return (← list n false false none).getD (.simple 0 [] [] [])

def branches : Nat → Parser Command
  | 0 => fail "too deep"
  | n + 1 => do
    let test ← block n
    expectKeyword "then"
    let yes ← block n
    let t ← start false
    if t.isKeyword "elif" then return .branch test yes (some (← branches n))
    else if t.isKeyword "else" then do
      let no ← block n
      return .branch test yes (some no)
    else do
      unread t
      return .branch test yes none

def cases : Nat → Parser (List (List Word × Option Command))
  | 0 => return []
  | n + 1 => do
    let t ← start true
    if t.isKeyword "esac" then return []
    if t.isOperator "(" then
      let _ ← raw
    let ps ← patterns n
    let body ← list n false true none
    let t ← start true
    if t.isKeyword "esac" then return [(ps, body)]
    else if t.isOperator ";;" then return (ps, body) :: (← cases n)
    else unexpected t "\";;\""

/-- A command with the redirections after it. Those after braces that hold nothing but a subshell
take the place of the subshell's own. -/
def command : Nat → Bool → Parser Command
  | 0, _ => fail "too deep"
  | n + 1, newlines => do
    let t ← start newlines
    let here ← line
    let finish (c : Command) : Parser Command := do
      match ← redirects n with
      | [] => return c
      | rs =>
        match c with
        | .subshell line c _ => return .subshell line c rs
        | _ => return .redirected here c rs
    match t with
    | .keyword "if" => do
      let c ← branches n
      expectKeyword "fi"
      finish c
    | .keyword "while" | .keyword "until" => do
      let test ← block n
      expectKeyword "do"
      let body ← block n
      expectKeyword "done"
      finish (.loop (t.isKeyword "until") test body)
    | .keyword "for" => do
      let name ← raw
      let name := match name with
        | .word w => (bareText? w).filter isName
        | _ => none
      match name with
      | none => fail "Bad for loop variable"
      | some name =>
        let t ← start true
        let ws ←
          if t.isKeyword "in" then do
            let (ws, t) ← words ((← get).cursor.rest.length + 1)
            if t.isNewline || t.isOperator ";" then pure (some ws) else unexpected t
          else do
            if !t.isOperator ";" then unread t
            pure none
        expect true (·.isKeyword "do") "\"do\""
        let body ← block n
        expectKeyword "done"
        finish (.each here (String.ofList name) ws body)
    | .keyword "case" => do
      let t ← raw
      match t with
      | .word w => do
        expect true (·.isKeyword "in") "\"in\""
        let cs ← cases n
        finish (.choice here w cs)
      | _ => unexpected t "word"
    | .operator "(" => do
      let c ← block n
      expect false (·.isOperator ")") "\")\""
      finish (.subshell here c [])
    | .keyword "\x7b" => do
      let c ← block n
      expectKeyword "\x7d"
      finish c
    | .word _ | .redirect _ _ => do
      unread t
      simple n here [] [] []
    | _ => unexpected t

/-- A simple command, or the definition of a function. What was read comes in reverse. -/
def simple : Nat → Nat → List (String × Word) → List Word → List Redirect → Parser Command
  | 0, _, _, _, _ => fail "too deep"
  | n + 1, here, assigns, ws, rs => do
    let t ← raw
    match t with
    | .word w =>
      match ws, assignment? w with
      | [], some a => simple n here (a :: assigns) ws rs
      | _, _ => simple n here assigns (w :: ws) rs
    | .redirect stream arrow => do
      let r ← redirect stream arrow
      simple n here assigns ws (r :: rs)
    | _ =>
      match t.isOperator "(", assigns, ws, rs with
      | true, [], [w], [] => do
        expect false (·.isOperator ")") "\")\""
        match bareText? w with
        | some name =>
          if isName name && !isReserved (String.ofList name) then do
            let body ← command n true
            return .define (String.ofList name) body
          else fail "Bad function name"
        | none => fail "Bad function name"
      | _, _, _, _ => do
        unread t
        return .simple here assigns.reverse ws.reverse rs.reverse

end

end Parser

/-! ## Lines -/

/-- What was read. -/
structure Line where
  /-- The commands, if there are any. -/
  command : Option Command
  rest : Cursor
  /-- Nothing follows. -/
  isLast : Bool

/-- Fuel for reading a text. -/
def enough (text : List Char) : Nat := 16 * text.length + 64

/-- How commands inside words are read, so many levels deep. -/
def innerOf : Nat → Inner
  | 0 => { enclosed := fun c => c.fault "too deep", whole := fun _ => .ok none }
  | depth + 1 => {
      enclosed := fun c =>
        let commands : Parser (Option Command) := do
          let commands ← Parser.list (enough c.rest) false true none
          Parser.expect false (·.isOperator ")") "\")\""
          return commands
        (commands.run { cursor := c, inner := innerOf depth, isEnclosed := true }).map
          fun (commands, r) => (commands, r.cursor)
      whole := fun text =>
        (Parser.list (enough text) false true none).run'
          { cursor := { rest := text }, inner := innerOf depth } }

/-- The commands of the next line; none at the end. -/
def parseLine (c : Cursor) : Except Fault (Option Line) :=
  match (Parser.list (enough c.rest) true false none).run
      { cursor := c, inner := innerOf (c.rest.length + 1) } with
  | .error fault => .error { fault with text := s!"Syntax error: {fault.text}" }
  | .ok (command, r) =>
    let isLast : Bool := match r.back with
      | some .ending => true
      | _ => false
    if command.isNone ∧ isLast then .ok none else .ok (some ⟨command, r.cursor, isLast⟩)

end JobControl.Machine.Script
