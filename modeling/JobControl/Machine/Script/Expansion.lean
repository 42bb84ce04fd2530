import JobControl.Machine.Script.Pattern
import JobControl.Machine.Script.Sum

/-!
# Values of words

What takes the place of parameters, sums and commands in words, and the fields that come of it.

* `Expand` : a computation that may change variables and consumes the output of commands;
* `Stop` : it cannot go on, because some output is not there yet or because something is wrong;
* `fields` : the fields of words; `valueOf` : the text of one that is not split;
* `patternOf` : the pattern that a word stands for.

When some output is missing, its commands are run, and the computation is done again from the
start with one output more. It has the same result up to that point.
-/

set_option autoImplicit false

namespace JobControl.Machine.Script

/-- Why an expansion does not go on. -/
inductive Stop where
  /-- The output of commands is needed, which know the variables. -/
  | needs (c : Command) (scope : Scope)
  | fault (text : String)
  /-- The script itself is wrong, where reading it has come to. -/
  | unreadable (text : String)
  deriving Repr

structure Stage where
  scope : Scope
  /-- The output of commands that has not been used yet. -/
  answers : List String

abbrev Expand (α : Type) := StateT Stage (Except Stop) α

/-- What a word becomes before it is split. -/
inductive Piece where
  /-- A character; it may have been quoted, and a separator may split the word. -/
  | char (c : Char) (quoted splits : Bool)
  /-- There was something, even if it was empty. -/
  | mark
  /-- The word is split here. -/
  | cut
  deriving DecidableEq, Repr

namespace Expand

def fail {α : Type} (text : String) : Expand α := throw (.fault text)

def textOf (ps : List Piece) : List Char :=
  ps.filterMap fun
    | .char c _ _ => some c
    | .mark => none
    | .cut => some ' '

def patternOfPieces (ps : List Piece) : Pattern :=
  ps.filterMap fun
    | .char c quoted _ => some (c, quoted)
    | .mark => none
    | .cut => some (' ', true)

/-- A value that takes the place of something. -/
def substituted (inQuotes : Bool) (cs : List Char) : List Piece :=
  cs.map fun c => .char c inQuotes (!inQuotes)

/-- The arguments of the script, each of which stays one between quotes. -/
def arguments (inQuotes : Bool) : List String → List Piece
  | [] => []
  | [arg] => (if inQuotes then [.mark] else []) ++ substituted inQuotes arg.toList
  | arg :: args =>
    (if inQuotes then [.mark] else []) ++ substituted inQuotes arg.toList ++
      .cut :: arguments inQuotes args

def pieces (inQuotes : Bool) (s : Scope) (name : String) : List Piece :=
  if name == "@" || (name == "*" && !inQuotes) then arguments inQuotes s.args
  else if name == "*" then substituted true (s.separator.intercalate s.args).toList
  else substituted inQuotes ((s.get? name).getD "").toList

/-- The value of a parameter, if it has one. The arguments always have. -/
def value? (s : Scope) (name : String) : Option String :=
  if name == "@" || name == "*" then some (s.separator.intercalate s.args) else s.get? name

/-- The next output of commands. -/
def answer (c : Command) : Expand String := do
  let stage ← get
  match stage.answers with
  | [] => throw (.needs c stage.scope)
  | text :: rest =>
    set { stage with answers := rest }
    return text

def assign (name value : String) : Expand Unit := do
  let stage ← get
  match stage.scope.set name value with
  | some scope => set { stage with scope }
  | none => fail s!"{name}: is read only"

/-- How a text is expanded. -/
structure Setting where
  /-- It stands between double quotes. -/
  inQuotes : Bool := false
  /-- It is an argument of a parameter: plain text is split as values are. -/
  inArg : Bool := false
  /-- It is the value that a variable gets: a tilde may follow a colon. -/
  inValue : Bool := false

/-- The part is the plain character. -/
def isPlain (c : Char) : Part → Bool
  | .plain d => d == c
  | _ => false

/-- The home directory, which a tilde stands for if a slash or nothing follows it; in the value of a
variable also a colon. -/
def home? (s : Scope) (inValue : Bool) (rest : List Part) : Option (List Piece) :=
  if rest.isEmpty || rest.head?.any (fun p => isPlain '/' p || inValue && isPlain ':' p) then
    (s.get? "HOME").map fun dir => dir.toList.map fun c => .char c true false
  else none

/-- Nothing but the arguments, of which there are none. -/
def isNoArguments (s : Scope) : List Part → Bool
  | [.param "@" .value _ _] => s.args.isEmpty
  | _ => false

/-- The use has nothing to put in the place of a value that is missing. -/
def needsValue : Use → Bool
  | .value | .length | .trim _ _ => true
  | .default | .alternative | .require | .assign => false

mutual

def part (how : Setting) : Part → Expand (List Piece)
  | .plain c => return [.char c how.inQuotes (how.inArg && !how.inQuotes)]
  | .quoted cs => return .mark :: cs.map fun c => .char c true false
  | .group ps => do
    if isNoArguments (← get).scope ps then return []
    return .mark :: (← parts { how with inQuotes := true } false ps)
  | .malformed => fail "Bad substitution"
  | .output none => return []
  | .output (some c) => do return substituted how.inQuotes (← answer c).toList
  | .sum body => do
    let text := textOf (← parts { inQuotes := true } false body)
    let stage ← get
    match Sum.value stage.scope text with
    | .ok (n, scope) =>
      set { stage with scope }
      return substituted how.inQuotes (toString n).toList
    | .error text => fail text
  | .param name use colon arg => do
    let s := (← get).scope
    let value := (value? s name).filter fun v => !colon || v != ""
    let here := pieces how.inQuotes s name
    let another : Setting := { how with inArg := true }
    let isMissing := value.isNone && s.switches.has .nounset && name != "@" && name != "*"
    if isMissing && needsValue use then fail s!"{name}: parameter not set"
    match use with
    | .value => return here
    | .length =>
      return substituted how.inQuotes (toString (value.getD "").utf8ByteSize).toList
    | .default => if value.isSome then return here else parts another (!how.inQuotes) arg
    | .alternative => if value.isSome then parts another (!how.inQuotes) arg else return []
    | .require =>
      if value.isSome then return here
      let text := textOf (← parts { inQuotes := true } (!how.inQuotes) arg)
      let why := if arg.isEmpty then
          if colon then "parameter not set or null" else "parameter not set"
        else String.ofList text
      fail s!"{name}: {why}"
    | .assign =>
      if value.isSome then return here
      if !isName name.toList then fail s!"{name}: bad variable name"
      let text := textOf (← parts { inQuotes := how.inQuotes } (!how.inQuotes) arg)
      assign name (String.ofList text)
      return substituted how.inQuotes text
    | .trim atEnd longest =>
      let pattern := patternOfPieces (← parts {} true arg)
      return substituted how.inQuotes (pattern.trim atEnd longest (textOf here))

/-- What parts become, one after another. With `atStart`, a tilde may stand for the home
directory. -/
def parts (how : Setting) (atStart : Bool) : List Part → Expand (List Piece)
  | [] => return []
  | p :: ps => do
    let s := (← get).scope
    let a ← match if atStart && isPlain '~' p then home? s how.inValue ps else none with
      | some pieces => pure pieces
      | none => part how p
    let b ← parts how (how.inValue && !how.inQuotes && isPlain ':' p) ps
    return a ++ b

end

/-! ## Fields -/

/-- What separators were met since the last field. -/
inductive Gap where
  | none
  | blank
  | hard
  deriving DecidableEq, Repr

/-- Split pieces into fields. Blank separators count as one, together with another one that they
surround. -/
def split (separators : List Char) (current : Option Pattern) (gap : Gap) :
    List Piece → List Pattern
  | [] => current.toList
  | .cut :: ps => current.toList ++ split separators none .none ps
  | .mark :: ps => split separators (some (current.getD [])) .none ps
  | .char c quoted splits :: ps =>
    if splits && separators.contains c then
      if " \t\n".contains c then
        current.toList ++
          split separators none (if current.isSome then .blank else gap) ps
      else
        match current, gap with
        | some f, _ => f :: split separators none .hard ps
        | none, .blank => split separators none .hard ps
        | none, _ => [] :: split separators none .hard ps
    else split separators (some (current.getD [] ++ [(c, quoted)])) .none ps

/-- The fields of a word; a pattern stands for the paths that match it, if there are any. -/
def wordFields (glob : Pattern → List String) (w : Word) : Expand (List String) := do
  let ps ← parts {} true w
  let s := (← get).scope
  return (split s.separators none .none ps).flatMap fun p =>
    if p.isActive && !s.switches.has .noglob then
      match glob p with
      | [] => [p.text]
      | found => found
    else [p.text]

def fields (glob : Pattern → List String) : List Word → Expand (List String)
  | [] => return []
  | w :: ws => do
    let a ← wordFields glob w
    let b ← fields glob ws
    return a ++ b

def valueOf (w : Word) : Expand String := do
  return String.ofList (textOf (← parts {} true w))

def patternOf (w : Word) : Expand Pattern := do
  return patternOfPieces (← parts {} true w)

def assigned (w : Word) : Expand String := do
  return String.ofList (textOf (← parts { inValue := true } true w))

/-- Give variables the values of words, one after another. -/
def assignments : List (String × Word) → Expand (List (String × String))
  | [] => return []
  | (name, w) :: rest => do
    let value ← assigned w
    assign name value
    return (name, value) :: (← assignments rest)

def assigning : List String := ["alias", "export", "local", "readonly"]

/-- The fields of arguments that may be assignments. -/
def assigningFields (glob : Pattern → List String) : List Word → Expand (List String)
  | [] => return []
  | w :: ws => do
    let a ← match assignment? w with
      | some (name, value) => do pure [name ++ "=" ++ (← assigned value)]
      | none => wordFields glob w
    let b ← assigningFields glob ws
    return a ++ b

/-- The fields of a simple command. With `isCalled`, the word `command` comes before them. -/
def commandFields (glob : Pattern → List String) (isCalled : Bool) :
    List Word → Expand (List String)
  | [] => return []
  | w :: ws => do
    let a ← wordFields glob w
    let b ← match a.head? with
      | none => commandFields glob isCalled ws
      | some name =>
        if name == "command" || (isCalled && name.startsWith "-") then commandFields glob true ws
        else if assigning.contains name then assigningFields glob ws
        else fields glob ws
    return a ++ b

end Expand
end JobControl.Machine.Script
