import JobControl.Machine.Script.Lexer
import JobControl.Machine.Script.Scope

/-!
# Sums

Whole numbers of 64 bits, which wrap around, with the operators of sums in scripts.

* `Lexeme`, `lexemes` : the numbers, names and operators of a text;
* `Sum.value` : the value of a text. Variables count as numbers and can be assigned to.
-/

set_option autoImplicit false

namespace JobControl.Machine.Script.Sum

/-- The value that a number has in 64 bits. -/
def wrap (n : Int) : Int := n.bmod 0x10000000000000000

inductive Lexeme where
  | number (n : Int)
  | name (text : String)
  | operator (text : String)
  /-- What cannot stand in a sum. -/
  | bad
  deriving DecidableEq, Repr

/-- The operators, longer ones before those that they start with. -/
def operators : List String :=
  ["<<=", ">>=", "&&", "||", "<<", ">>", "<=", ">=", "==", "!=", "+=", "-=", "*=", "/=", "%=",
   "&=", "|=", "^=", "+", "-", "*", "/", "%", "<", ">", "&", "|", "^", "!", "~", "?", ":", "(",
   ")", "="]

def hexDigit (c : Char) : Nat :=
  if c.isDigit then c.toNat - '0'.toNat else c.toLower.toNat - 'a'.toNat + 10

def isHexDigit (c : Char) : Bool :=
  c.isDigit || ('a' ≤ c.toLower && c.toLower ≤ 'f')

/-- The number that a text starts with, and what follows: decimal, octal after a zero, hexadecimal
after `0x`. -/
def number (text : List Char) : Nat × List Char :=
  match text with
  | '0' :: x :: rest =>
    if (x == 'x' || x == 'X') && (rest.head?.map isHexDigit) == some true then
      ((rest.takeWhile isHexDigit).foldl (fun n c => 16 * n + hexDigit c) 0,
        rest.dropWhile isHexDigit)
    else
      let isOctal (c : Char) : Bool := '0' ≤ c && c ≤ '7'
      ((text.takeWhile isOctal).foldl (fun n c => 8 * n + Decimal.digit c) 0,
        text.dropWhile isOctal)
  | _ => (Decimal.value (text.takeWhile Char.isDigit), text.dropWhile Char.isDigit)

def number? (text : List Char) : Option Int :=
  let text := text.dropWhile fun c => " \t\n".contains c
  let (negative, digits) := match text with
    | '-' :: rest => (true, rest)
    | '+' :: rest => (false, rest)
    | _ => (false, text)
  if (digits.head?.map Char.isDigit) != some true then none
  else
    match number digits with
    | (n, []) => some (if negative then -Int.ofNat n else Int.ofNat n)
    | _ => none

def lexemes : Nat → List Char → List Lexeme
  | 0, _ => []
  | _ + 1, [] => []
  | n + 1, c :: rest =>
    if " \t\n".contains c then lexemes n rest
    else if c.isDigit then
      let (value, rest) := number (c :: rest)
      .number (Int.ofNat value) :: lexemes n rest
    else if isNameStart c then
      .name (String.ofList ((c :: rest).takeWhile isNameChar)) ::
        lexemes n ((c :: rest).dropWhile isNameChar)
    else
      match operators.find? fun o => o.toList.isPrefixOf (c :: rest) with
      | some o => .operator o :: lexemes n ((c :: rest).drop o.length)
      | none => [.bad]

structure State where
  left : List Lexeme
  scope : Scope

abbrev Eval (α : Type) := StateT State (Except String) α

/-- The text of a complaint about the sum `whole`. -/
def complaint (whole text : String) : String := s!"arithmetic expression: {text}: \"{whole}\""

def lookup (name : String) : Eval Int := do
  match (← get).scope.get? name with
  | none => return 0
  | some text =>
    let isBlank (c : Char) : Bool := " \t\n".contains c
    let digits := (text.toList.reverse.dropWhile isBlank).reverse
    if digits.isEmpty then return 0
    else
      match number? digits with
      | some n => return n
      | none => throw s!"Illegal number: {text}"

def assign (name : String) (n : Int) : Eval Unit := do
  let s ← get
  match s.scope.set name (toString n) with
  | some scope => set { s with scope }
  | none => throw s!"{name}: is read only"

/-- The operators with two operands, by how tightly they bind. -/
def levels : List (List String) :=
  [["|"], ["^"], ["&"], ["==", "!="], ["<", "<=", ">", ">="], ["<<", ">>"], ["+", "-"],
   ["*", "/", "%"]]

/-- A bit operation on numbers in 64 bits. -/
def bitwise (f : BitVec 64 → BitVec 64 → BitVec 64) (a b : Int) : Int :=
  (f (BitVec.ofInt 64 a) (BitVec.ofInt 64 b)).toInt

def ofBool (b : Bool) : Int := if b then 1 else 0

def result? (o : String) (a b : Int) : Option Int :=
  match o with
  | "+" => some (wrap (a + b))
  | "-" => some (wrap (a - b))
  | "*" => some (wrap (a * b))
  | "/" => if b = 0 then none else some (wrap (a.tdiv b))
  | "%" => if b = 0 then none else some (wrap (a.tmod b))
  | "|" => some (bitwise (· ||| ·) a b)
  | "^" => some (bitwise (· ^^^ ·) a b)
  | "&" => some (bitwise (· &&& ·) a b)
  | "<<" => some ((BitVec.ofInt 64 a <<< (b % 64).toNat).toInt)
  | ">>" => some (((BitVec.ofInt 64 a).sshiftRight (b % 64).toNat).toInt)
  | "==" => some (ofBool (a == b))
  | "!=" => some (ofBool (a != b))
  | "<" => some (ofBool (a < b))
  | "<=" => some (ofBool (a ≤ b))
  | ">" => some (ofBool (a > b))
  | _ => some (ofBool (a ≥ b))

section
variable (whole : String)

def apply (o : String) (skip : Bool) (a b : Int) : Eval Int :=
  match result? o a b with
  | some n => return n
  | none => if skip then return 0 else throw (complaint whole "division by zero")

def operator? (os : List String) : Eval (Option String) := do
  let s ← get
  match s.left with
  | .operator o :: rest =>
    if os.contains o then
      set { s with left := rest }
      return some o
    else return none
  | _ => return none

def expect (o text : String) : Eval Unit := do
  match ← operator? [o] with
  | some _ => return ()
  | none => throw (complaint whole text)

/-- The operators that assign. -/
def assigning : List String := ["=", "+=", "-=", "*=", "/=", "%=", "<<=", ">>=", "&=", "|=", "^="]

mutual

/-- An assignment or a choice. Nothing is assigned where the value does not count. -/
def assignment : Nat → Bool → Eval Int
  | 0, _ => return 0
  | n + 1, skip => do
    let s ← get
    match s.left with
    | .name v :: .operator o :: rest =>
      if assigning.contains o then do
        set { s with left := rest }
        let b ← assignment n skip
        if skip then return b
        else do
          let value ← if o == "=" then pure b
            else apply whole (String.ofList o.toList.dropLast) false (← lookup v) b
          assign v value
          return value
      else choice n skip
    | _ => choice n skip

/-- A value, or one of two by a test. -/
def choice : Nat → Bool → Eval Int
  | 0, _ => return 0
  | n + 1, skip => do
    let test ← either n skip
    match ← operator? ["?"] with
    | none => return test
    | some _ => do
      let yes ← assignment n (skip || test == 0)
      expect whole ":" "expecting ':'"
      let no ← choice n (skip || test != 0)
      return if test != 0 then yes else no

def either : Nat → Bool → Eval Int
  | 0, _ => return 0
  | n + 1, skip => do
    let a ← both n skip
    match ← operator? ["||"] with
    | none => return a
    | some _ => do
      let b ← either n (skip || a != 0)
      return ofBool (a != 0 || b != 0)

def both : Nat → Bool → Eval Int
  | 0, _ => return 0
  | n + 1, skip => do
    let a ← level n levels skip
    match ← operator? ["&&"] with
    | none => return a
    | some _ => do
      let b ← both n (skip || a == 0)
      return ofBool (a != 0 && b != 0)

/-- Operations with two operands, of these levels. -/
def level : Nat → List (List String) → Bool → Eval Int
  | 0, _, _ => return 0
  | n + 1, [], skip => operand n skip
  | n + 1, os :: tighter, skip => do
    let a ← level n tighter skip
    levelAfter n os tighter skip a

def levelAfter : Nat → List String → List (List String) → Bool → Int → Eval Int
  | 0, _, _, _, a => return a
  | n + 1, os, tighter, skip, a => do
    match ← operator? os with
    | none => return a
    | some o => do
      let b ← level n tighter skip
      let c ← apply whole o skip a b
      levelAfter n os tighter skip c

def operand : Nat → Bool → Eval Int
  | 0, _ => return 0
  | n + 1, skip => do
    let s ← get
    match s.left with
    | .number k :: rest => do
      set { s with left := rest }
      return wrap k
    | .name v :: rest => do
      set { s with left := rest }
      if skip then return 0 else lookup v
    | .operator "(" :: rest => do
      set { s with left := rest }
      let k ← assignment n skip
      expect whole ")" "expecting ')'"
      return k
    | .operator "!" :: rest => do
      set { s with left := rest }
      return ofBool ((← operand n skip) == 0)
    | .operator "~" :: rest => do
      set { s with left := rest }
      return -(← operand n skip) - 1
    | .operator "+" :: rest => do
      set { s with left := rest }
      operand n skip
    | .operator "-" :: rest => do
      set { s with left := rest }
      return wrap (-(← operand n skip))
    | _ => throw (complaint whole "expecting primary")

end

end

def value (scope : Scope) (text : List Char) : Except String (Int × Scope) :=
  let whole := String.ofList text
  let left := lexemes (text.length + 1) text
  match (assignment whole (16 * text.length + 64) false).run { left, scope } with
  | .error text => .error text
  | .ok (n, s) =>
    match s.left with
    | [] => .ok (n, s.scope)
    | _ => .error (complaint whole "expecting EOF")

end JobControl.Machine.Script.Sum
