import JobControl.Machine.Script.Sum
import JobControl.Text.Utf8

/-!
# Text that programs print

* `Escapes.script` : the escapes that `echo` and `printf` know in scripts;
* `Escapes.program` : those of the program `echo` with the option `-e`;
* `format` : the text that `printf` makes of its arguments.
-/

set_option autoImplicit false

namespace JobControl.Machine

/-! ## Escapes -/

namespace Escapes

/-- The bytes that a character after a backslash stands for. -/
def control? (c : Char) : Option UInt8 :=
  match c with
  | 'a' => some 7
  | 'b' => some 8
  | 'e' => some 27
  | 'f' => some 12
  | 'n' => some 10
  | 'r' => some 13
  | 't' => some 9
  | 'v' => some 11
  | '\\' => some 92
  | _ => none

def isOctal (c : Char) : Bool := '0' ≤ c && c ≤ '7'

def octal (most : Nat) (text : List Char) : UInt8 × List Char :=
  let digits := (text.take most).takeWhile isOctal
  (UInt8.ofNat (digits.foldl (fun n c => 8 * n + Decimal.digit c) 0), text.drop digits.length)

def hex (text : List Char) : UInt8 × List Char :=
  let digits := (text.take 2).takeWhile Script.Sum.isHexDigit
  (UInt8.ofNat (digits.foldl (fun n c => 16 * n + Script.Sum.hexDigit c) 0),
    text.drop digits.length)

inductive Meaning where
  | byte (b : UInt8) (rest : List Char)
  /-- Nothing more is printed. -/
  | ending
  /-- The backslash stands for itself. -/
  | none

/-- The meaning of an escape in the format of `printf`, by the text after the backslash. -/
def plain (text : List Char) : Meaning :=
  match text with
  | [] => .none
  | c :: rest =>
    match control? c with
    | some b => .byte b rest
    | none => if isOctal c then let (b, rest) := octal 3 text; .byte b rest else .none

/-- The meaning of an escape, by the text after the backslash. Octal digits may follow a zero;
only programs know hexadecimal digits. -/
def meaning (isProgram : Bool) : List Char → Meaning
  | [] => .none
  | '0' :: rest => let (b, rest) := octal 3 rest; .byte b rest
  | 'c' :: _ => .ending
  | c :: rest =>
    match plain (c :: rest) with
    | .byte b rest => .byte b rest
    | _ =>
      if isProgram && c == 'x' && (rest.head?.map Script.Sum.isHexDigit) == some true then
        let (b, rest) := hex rest
        .byte b rest
      else .none

/-- The bytes of a text with escapes, at most so many, and whether it was ended by one. -/
def bytes (isProgram : Bool) : Nat → List Char → List UInt8 × Bool
  | 0, _ => ([], false)
  | _ + 1, [] => ([], false)
  | n + 1, '\\' :: rest =>
    match meaning isProgram rest with
    | .byte b rest => let (bs, ended) := bytes isProgram n rest; (b :: bs, ended)
    | .ending => ([], true)
    | .none => let (bs, ended) := bytes isProgram n rest; (92 :: bs, ended)
  | n + 1, c :: rest =>
    let (bs, ended) := bytes isProgram n rest
    (Utf8.encode (String.singleton c) ++ bs, ended)

def script (text : String) : List UInt8 × Bool := bytes false (text.length + 1) text.toList

def program (text : String) : List UInt8 × Bool := bytes true (text.length + 1) text.toList

end Escapes

/-! ## `printf` -/

namespace Printf

structure Layout where
  left : Bool := false
  zero : Bool := false
  plus : Bool := false
  blank : Bool := false
  alternative : Bool := false
  width : Nat := 0
  precision : Option Nat := none

structure State where
  args : List String
  out : List UInt8 := []
  complaints : List String := []
  /-- Nothing more is printed. -/
  isOver : Bool := false

def State.put (s : State) (bytes : List UInt8) : State := { s with out := s.out ++ bytes }

/-- Complain, and print nothing more. -/
def State.fault (s : State) (complaint : String) : State :=
  { s with isOver := true, complaints := s.complaints ++ [complaint] }

/-- The next argument. -/
def State.next (s : State) : Option String × State := (s.args.head?, { s with args := s.args.tail })

def pad {α : Type} (blank : α) (l : Layout) (xs : List α) : List α :=
  let fill := List.replicate (l.width - xs.length) blank
  if l.left then xs ++ fill else fill ++ xs

/-- Write a sign and digits. -/
def padNumber (l : Layout) (sign digits : List Char) : List Char :=
  let digits := List.replicate (l.precision.getD 1 - digits.length) '0' ++ digits
  if l.zero && !l.left && l.precision.isNone then
    sign ++ List.replicate (l.width - sign.length - digits.length) '0' ++ digits
  else pad ' ' l (sign ++ digits)

def digits (base n : Nat) : List Char := Nat.toDigits base n

/-- The first byte of a text; zero if there is none. -/
def firstByte (cs : List Char) : Nat :=
  ((Utf8.encode (String.ofList (cs.take 1))).headD 0).toNat

/-- The number that an argument stands for, and a complaint if it is none. -/
def number (arg : Option String) : Int × List String :=
  match arg with
  | none | some "" => (0, [])
  | some text =>
    match text.toList with
    | '\'' :: rest | '"' :: rest => (firstByte rest, [])
    | cs =>
      match Script.Sum.number? cs with
      | some n => (n, [])
      | none =>
        let (negative, rest) := match cs with
          | '-' :: rest => (true, rest)
          | rest => (false, rest)
        if (rest.head?.map Char.isDigit) == some true then
          let n := Int.ofNat (Script.Sum.number rest).1
          (if negative then -n else n, [s!"{text}: not completely converted"])
        else (0, [s!"{text}: expected numeric value"])

def flags (l : Layout) : List Char → Layout × List Char
  | '-' :: rest => flags { l with left := true } rest
  | '0' :: rest => flags { l with zero := true } rest
  | '+' :: rest => flags { l with plus := true } rest
  | ' ' :: rest => flags { l with blank := true } rest
  | '#' :: rest => flags { l with alternative := true } rest
  | rest => (l, rest)

/-- A number in a layout: digits, or an argument for a star. -/
def size (s : State) : List Char → Option Int × State × List Char
  | '*' :: rest =>
    let (arg, s) := s.next
    (some (number arg).1, s, rest)
  | rest =>
    let ds := rest.takeWhile Char.isDigit
    (if ds.isEmpty then none else some (Decimal.value ds), s, rest.drop ds.length)

def layout (s : State) (text : List Char) : Layout × State × List Char :=
  let (l, text) := flags {} text
  let (width, s, text) := size s text
  let l := match width with
    | some n => { l with width := n.natAbs, left := l.left || n < 0 }
    | none => l
  match text with
  | '.' :: rest =>
    let (precision, s, text) := size s rest
    ({ l with precision := some (precision.getD 0).toNat }, s, text)
  | _ => (l, s, text)

def sign (l : Layout) (n : Int) : List Char :=
  if n < 0 then ['-'] else if l.plus then ['+'] else if l.blank then [' '] else []

/-- A number without a sign, in 64 bits. -/
def unsigned (n : Int) : Nat := (BitVec.ofInt 64 n).toNat

/-- Print a value; none if there is no such way to. -/
def directive (l : Layout) (c : Char) (s : State) : Option State :=
  let (arg, rest) := s.next
  let text := arg.getD ""
  let putText (bytes : List UInt8) : State :=
    rest.put (pad 32 l (bytes.take (l.precision.getD bytes.length)))
  let numeric (f : Int → List Char) : Option State :=
    let (n, complaints) := number arg
    some ({ rest with complaints := rest.complaints ++ complaints }.put
      (Utf8.encode (String.ofList (f n))))
  let based (base : Nat) (start : List Char) (n : Int) : List Char :=
    padNumber l (if l.alternative && n != 0 then start else []) (digits base (unsigned n))
  match c with
  | 's' => some (putText (Utf8.encode text))
  | 'c' => some (rest.put (pad 32 l [(Utf8.encode text).headD 0]))
  | 'b' =>
    let (bs, ended) := Escapes.script text
    some { putText bs with isOver := ended }
  | 'd' | 'i' => numeric fun n => padNumber l (sign l n) (digits 10 n.natAbs)
  | 'u' => numeric (based 10 [])
  | 'o' => numeric (based 8 ['0'])
  | 'x' => numeric (based 16 ['0', 'x'])
  | 'X' => numeric fun n => (based 16 ['0', 'x'] n).map Char.toUpper
  | _ => none

/-- Print a format once. The first number bounds its length. -/
def once : Nat → List Char → State → State
  | 0, _, s => s
  | _ + 1, [], s => s
  | n + 1, c :: rest, s =>
    if s.isOver then s
    else
      match c, rest with
      | '\\', _ =>
        match Escapes.plain rest with
        | .byte b rest => once n rest (s.put [b])
        | _ => once n rest (s.put [92])
      | '%', '%' :: rest => once n rest (s.put [37])
      | '%', _ =>
        let (l, s, after) := layout s rest
        match after with
        | [] => s.fault "missing format character"
        | d :: more =>
          match directive l d s with
          | some s => once n more s
          | none =>
            let shown := String.ofList (c :: rest.take (rest.length - more.length))
            s.fault s!"{shown}: invalid directive"
      | _, _ => once n rest (s.put (Utf8.encode (String.singleton c)))

/-- Print a format until the arguments are used up. -/
def repeatedly : Nat → List Char → State → State
  | 0, _, s => s
  | n + 1, text, s =>
    let before := s.args.length
    let s := once (text.length + 1) text s
    if s.isOver || s.args.isEmpty || s.args.length = before then s else repeatedly n text s

def format (text : String) (args : List String) : List UInt8 × List String :=
  let s := repeatedly (args.length + 1) text.toList { args }
  (s.out, s.complaints)

end Printf
end JobControl.Machine
