import JobControl.Machine.Script.Sum

/-!
# Conditions

The commands `test` and `[`: whether a condition holds that some arguments spell.

* `Condition.holds` : the condition holds, or a complaint about it.

Three arguments whose second is an operator are an operation, and four that start with an
exclamation mark or a parenthesis are taken apart first. All others are read from left to right.
-/

set_option autoImplicit false

namespace JobControl.Machine.Script.Condition

/-- Operators with one operand, other than those that ask about files. -/
def texts : List String := ["-n", "-z", "-t"]

def fileOperators : List String :=
  ["-r", "-w", "-x", "-e", "-f", "-d", "-c", "-b", "-p", "-u", "-g", "-k", "-s", "-h", "-L", "-S",
   "-O", "-G"]

def binary : List String :=
  ["=", "!=", "<", ">", "-eq", "-ne", "-ge", "-gt", "-le", "-lt", "-nt", "-ot", "-ef"]

def isUnary (w : String) : Bool := texts.contains w || fileOperators.contains w

/-- What is known about files and streams: the answer to an operator that asks about one. -/
abbrev Query := String → String → Bool

/-- What an argument is where a condition is expected. -/
inductive Role where
  | ending
  | unary
  | binary
  | not
  | both
  | either
  | opening
  | closing
  | operand
  deriving DecidableEq, Repr

/-- The role of the first argument. An operator without an operand after it is an operand. -/
def role : List String → Role
  | [] => .ending
  | w :: rest =>
    if isUnary w then
      match rest with
      | [] => .operand
      | [_] => .unary
      | x :: _ => if binary.contains x then .operand else .unary
    else if binary.contains w then .binary
    else
      match w with
      | "!" => .not
      | "-a" => .both
      | "-o" => .either
      | "(" => if rest.isEmpty then .operand else .opening
      | ")" => .closing
      | _ => .operand

/-- What is left of the arguments; the first of them has been dealt with. -/
abbrev Eval (α : Type) := StateT (List String) (Except String) α

def number (w : String) : Except String Int :=
  match Sum.number? w.toList with
  | some n => .ok n
  | none => .error s!"Illegal number: {w}"

def operation (query : Query) (a o b : String) : Except String Bool :=
  let compare (f : Int → Int → Bool) : Except String Bool := do
    return f (← number a) (← number b)
  match o with
  | "=" => .ok (a == b)
  | "!=" => .ok (a != b)
  | "<" => .ok (a < b)
  | ">" => .ok (b < a)
  | "-eq" => compare fun x y => x == y
  | "-ne" => compare fun x y => x != y
  | "-ge" => compare fun x y => y ≤ x
  | "-gt" => compare fun x y => y < x
  | "-le" => compare fun x y => x ≤ y
  | "-lt" => compare fun x y => x < y
  | "-ef" => .ok (query "-e" a && a == b)
  | _ => .ok false

section
variable (query : Query)

def advance : Eval Unit := modify List.tail

def operate : Eval Bool := do
  match ← get with
  | a :: o :: b :: rest => do
    set (b :: rest)
    operation query a o b
  | [_, o] => throw s!"{o}: argument expected"
  | _ => return false

mutual

def either : Nat → Role → Bool → Eval Bool
  | 0, _, _ => return false
  | n + 1, r, done => do
    let v ← both n r true
    if role (← get).tail == .either then do
      modify (·.drop 2)
      let r := role (← get)
      either n r (done || v)
    else return done || v

def both : Nat → Role → Bool → Eval Bool
  | 0, _, _ => return false
  | n + 1, r, done => do
    let v ← negated n r
    if role (← get).tail == .both then do
      modify (·.drop 2)
      let r := role (← get)
      both n r (done && v)
    else return done && v

def negated : Nat → Role → Eval Bool
  | 0, _ => return false
  | n + 1, r => do
    if r == .not then do
      let r := role (← get).tail
      if r != .ending then advance
      return !(← negated n r)
    else primary n r

def primary : Nat → Role → Eval Bool
  | 0, _ => return false
  | n + 1, r => do
    match r with
    | .ending => return false
    | .opening => do
      advance
      let r := role (← get)
      if r == .closing then return false
      let v ← either n r false
      advance
      if role (← get) == .closing then return v else throw "closing paren expected"
    | .unary => do
      match ← get with
      | o :: w :: rest => do
        set (w :: rest)
        match o with
        | "-n" => return w != ""
        | "-z" => return w == ""
        | _ => return query o w
      | _ => return false
    | _ => do
      let args ← get
      if role args.tail == .binary then operate query
      else return (args.headD "") != ""

end

end

/-- Read all arguments, of which none may be left. -/
def read (query : Query) (isOperation : Bool) (args : List String) : Except String Bool := do
  let r := if isOperation then Role.operand else role args
  let (v, left) ← (either query (4 * args.length + 8) r false).run args
  match left with
  | w :: _ :: _ => .error (if w == "" then "unexpected operator" else s!"{w}: unexpected operator")
  | _ => .ok v

def holds (query : Query) (args : List String) : Except String Bool :=
  match args with
  | [] => .ok false
  | [_, o, _] =>
    if binary.contains o then read query true args else short args
  | _ => short args
where
  /-- Three or four arguments that are taken apart first. -/
  short (args : List String) : Except String Bool :=
    if args.length == 3 || args.length == 4 then
      match args, args.getLast? with
      | "(" :: rest, some ")" => read query false rest.dropLast
      | "!" :: rest, _ =>
        let again := match rest with
          | [_, o, _] => read query (binary.contains o) rest
          | _ => read query false rest
        again.map (!·)
      | _, _ => read query false args
    else read query false args

end JobControl.Machine.Script.Condition
