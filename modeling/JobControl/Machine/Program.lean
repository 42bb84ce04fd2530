import JobControl.Machine.Act
import JobControl.Machine.Script.Print
import JobControl.Text.Utf8

/-!
# Programs

What the programs `echo`, `cat`, `true`, `false` and `sleep` do.

* `Program.start` : the beginning of a program;
* `Program.copy` : the next thing that `cat` does;
* `Quoted.name`, `Quoted.text` : a file name or another text in a complaint, between quotes if it could
  be misread. Bytes that are not ASCII have no shape and are shown by their numbers.
-/

set_option autoImplicit false

namespace JobControl.Machine

/-! ## Quoted names in complaints -/

namespace Quoted

def letter? (b : UInt8) : Option Char :=
  [(7, 'a'), (8, 'b'), (9, 't'), (10, 'n'), (11, 'v'), (12, 'f'), (13, 'r')].lookup b.toNat

/-- What stands for a byte that has no shape; none if it has one. -/
def escape? (b : UInt8) : Option (List Char) :=
  match letter? b with
  | some c => some ['\\', c]
  | none =>
    if 32 ≤ b.toNat ∧ b.toNat < 127 then none
    else
      let digit (n : Nat) : Char := Char.ofNat (48 + n % 8)
      some ['\\', digit (b.toNat / 64), digit (b.toNat / 8), digit b.toNat]

/-! ## Names -/

/-- A byte that makes it necessary to quote a name. -/
def isRisky (b : UInt8) : Bool :=
  (escape? b).isSome || " !\"$&'()*:;<=>?[\\^|\x60".toList.contains (Char.ofNat b.toNat)

/-- A name that makes it necessary to quote it. -/
def needsQuotes (bytes : List UInt8) : Bool :=
  match bytes with
  | [] | [123] | [125] => true
  | b :: _ => b == 35 || b == 126 || bytes.any isRisky

def isPlain (b : UInt8) : Bool :=
  let c := Char.ofNat b.toNat
  (escape? b).isNone && (c.isAlphanum || " %+,-./:]_@'".toList.contains c)

/-- A name all of whose bytes mean themselves between double quotes. -/
def allPlain (bytes : List UInt8) : Bool :=
  match bytes with
  | [123] | [125] => true
  | b :: rest => (isPlain b || b == 35 || b == 126) && rest.all isPlain
  | [] => true

/-- The rest of a name between single quotes; with `inEscape`, bytes without a shape came before,
whose quotes are still open. -/
def single (inEscape : Bool) : List UInt8 → List Char
  | [] => ['\'']
  | b :: rest =>
    match escape? b with
    | some cs => (if inEscape then cs else ['\'', '$', '\''] ++ cs) ++ single true rest
    | none =>
      if b == 39 then ['\'', '\\', '\'', '\''] ++ single false rest
      else (if inEscape then ['\'', '\''] else []) ++ Char.ofNat b.toNat :: single false rest

/-- A file name as complaints show it. -/
def name (text : String) : String :=
  let bytes := Utf8.encode text
  if !needsQuotes bytes then text
  else if bytes.contains 39 && allPlain bytes then s!"\"{text}\""
  else String.ofList ('\'' :: single false bytes)

/-! ## Other text -/

/-- A text as complaints show it. -/
def text (t : String) : String :=
  let shown (b : UInt8) : List Char :=
    match escape? b with
    | some cs => cs
    | none =>
      let c := Char.ofNat b.toNat
      if c == '\'' || c == '\\' then ['\\', c] else [c]
  "'" ++ String.ofList ((Utf8.encode t).flatMap shown) ++ "'"

end Quoted

namespace Program

def fail (text : String) : Act Unit := do
  Act.writeText 2 text
  Act.leave 1

/-- Where to find out more. -/
def hint (name : String) : String := s!"Try '{name} --help' for more information.\n"

/-! ## `echo` -/

/-- The options before the words of `echo`: no newline at the end, and escapes replaced. -/
def echoOptions (newline escapes : Bool) : List String → Bool × Bool × List String
  | [] => (newline, escapes, [])
  | arg :: rest =>
    match arg.toList with
    | '-' :: c :: cs =>
      if (c :: cs).all (fun c => c == 'n' || c == 'e' || c == 'E') then
        let switch (b : Bool) (c : Char) := if c == 'e' then true else if c == 'E' then false else b
        let escapes := (c :: cs).foldl switch escapes
        echoOptions (newline && !(c :: cs).contains 'n') escapes rest
      else (newline, escapes, arg :: rest)
    | _ => (newline, escapes, arg :: rest)

def echoBytes (args : List String) : List UInt8 :=
  let (newline, escapes, words) := echoOptions true false args
  let text := " ".intercalate words
  let (bytes, ended) := if escapes then Escapes.program text else (Utf8.encode text, false)
  if newline && !ended then bytes ++ [10] else bytes

def echo (name : String) (args : List String) : Act Unit := do
  match ← Act.write 1 (echoBytes args) with
  | .ok _ => Act.leave 0
  | .error e => fail s!"{name}: write error: {Act.describe e}\n"

/-! ## Options -/

/-- The option that a long name means, which may be cut short. -/
def longOption (names : List String) (arg : String) : Except String String :=
  let given := arg.toList.drop 2
  let name := String.ofList (given.takeWhile (· != '='))
  match if names.contains name then [name] else names.filter (·.startsWith name) with
  | [] => .error s!"unrecognized option '{arg}'"
  | [name] =>
    if given.contains '=' then .error s!"option '--{name}' doesn't allow an argument" else .ok name
  | several =>
    .error (s!"option '{arg}' is ambiguous; possibilities:" ++
      String.join (several.map fun name => s!" '--{name}'"))

/-- The complaint about a letter that means nothing. Of a character of several bytes the first one
is shown, which is no text. -/
def noSuchLetter (c : Char) : String :=
  let shown := if c.toNat < 128 then c else '\uFFFD'
  s!"invalid option -- '{shown}'"

/-! ## `cat` -/

def catNames : List (String × Char) :=
  [("number-nonblank", 'b'), ("number", 'n'), ("squeeze-blank", 's'), ("show-nonprinting", 'v'),
    ("show-ends", 'E'), ("show-tabs", 'T'), ("show-all", 'A')]

/-- Options and operands, and a complaint about the first option that there is not. -/
def catOptions (o : Copy.Options) (operands : List String) :
    List String → Except String (Copy.Options × List String)
  | [] => .ok (o, operands.reverse)
  | "--" :: rest => .ok (o, operands.reverse ++ rest)
  | arg :: rest =>
    match arg.toList with
    | '-' :: '-' :: _ =>
      match longOption (catNames.map (·.1)) arg with
      | .ok name => catOptions (((catNames.lookup name).bind o.add).getD o) operands rest
      | .error text => .error text
    | '-' :: c :: cs =>
      let add (o : Except Char Copy.Options) (c : Char) : Except Char Copy.Options :=
        match o with
        | .ok o => (o.add c).elim (.error c) .ok
        | .error c => .error c
      match (c :: cs).foldl add (.ok o) with
      | .ok o => catOptions o operands rest
      | .error c => .error (noSuchLetter c)
    | _ => catOptions o (arg :: operands) rest

def cat (name : String) (args : List String) : Act Unit :=
  match catOptions {} [] args with
  | .error text => fail (s!"{name}: {text}\n" ++ hint name)
  | .ok (options, operands) => do
    if ((← Act.self).stream? 1).isNone then
      fail s!"{name}: standard output: {Act.describe System.badStream}\n"
    else
      Act.change fun p => { p with
        image := .copying
          { name, options, operands := if operands.isEmpty then ["-"] else operands } }

/-- How many bytes `cat` reads at once. -/
def blockSize : Nat := 131072

/-- The file that is read is also the one that is written, and there is something to read. -/
def copiesItself (s : System) (source : Nat) (sink : Option Nat) : Bool :=
  match sink with
  | none => false
  | some sink =>
    let a := s.description source
    let b := s.description sink
    match a.target, b.target with
    | .file p, .file q => p == q && a.offset < (s.files.content p).length
    | _, _ => false

/-- Go on to the next operand. -/
def nextOperand (c : Copying) : Act Unit := do
  match c.operands with
  | [] => Act.leave (if c.failed then 1 else 0)
  | name :: rest => do
    let c := { c with operands := rest }
    let go (c : Copying) : Act Unit := Act.change fun p => { p with image := .copying c }
    let refuse (text : String) : Act Unit := do
      Act.writeText 2 s!"{c.name}: {Quoted.name name}: {text}\n"
      go { c with failed := true }
    let opened ← if name == "-" then do
        pure (((← Act.self).stream? 0).elim (.error System.badStream) .ok)
      else Act.openFile .toRead name
    match opened with
    | .error e => refuse (Act.describe e)
    | .ok d =>
      if copiesItself (← getThe System) d ((← Act.self).stream? 1) then
        refuse "input file is output file"
      else do
        go { c with current := some (name, d) }
        Act.await (.data d)

/-- The next thing that `cat` does. -/
def copy (c : Copying) : Act Unit := do
  match c.current with
  | none => nextOperand c
  | some (name, d) => do
    let go (c : Copying) : Act Unit := Act.change fun p => { p with image := .copying c }
    match ← Act.readFrom d blockSize with
    | .error e => do
      Act.writeText 2 s!"{c.name}: {Quoted.name name}: {Act.describe e}\n"
      go { c with current := none, failed := true }
      Act.await .nothing
    | .ok [] => do
      go { c with current := none }
      Act.await .nothing
    | .ok bytes => do
      let (out, place) := if c.options.isPlain then (bytes, c.place)
        else Copy.shown c.options c.place bytes
      match ← Act.write 1 out with
      | .ok _ => go { c with place }
      | .error e => fail s!"{c.name}: write error: {Act.describe e}\n"

/-! ## `sleep` -/

def second : Nat := 1000000000

/-- How many seconds a unit has. -/
def unit? : List Char → Option Nat
  | [] | ['s'] => some 1
  | ['m'] => some 60
  | ['h'] => some 3600
  | ['d'] => some 86400
  | _ => none

/-- The digits that a text starts with, with a point among them or not: their values, how many of
them come after the point, and what follows. -/
def mantissa (digit? : Char → Option Nat) (text : List Char) : List Nat × Nat × List Char :=
  let isDigit (c : Char) : Bool := (digit? c).isSome
  let whole := text.takeWhile isDigit
  let rest := text.dropWhile isDigit
  let (fraction, rest) := match rest with
    | '.' :: more =>
      if whole.isEmpty && !(more.head?.map isDigit).getD false then ([], rest)
      else (more.takeWhile isDigit, more.dropWhile isDigit)
    | _ => ([], rest)
  ((whole ++ fraction).filterMap digit?, fraction.length, rest)

/-- The exponent after a mark that a text starts with, and what follows. -/
def exponent (marks : List Char) (text : List Char) : Int × List Char :=
  match text with
  | e :: rest =>
    if marks.contains e then
      let (negative, ds) := match rest with
        | '-' :: ds => (true, ds)
        | '+' :: ds => (false, ds)
        | ds => (false, ds)
      let digits := ds.takeWhile Char.isDigit
      if digits.isEmpty then (0, text)
      else
        let n := Int.ofNat (min (Decimal.value digits) 2000)
        (if negative then -n else n, ds.dropWhile Char.isDigit)
    else (0, text)
  | [] => (0, [])

def forever : Nat := 1000000000000000000000

/-- The nanoseconds of a number of units. The number is made of digits to a base, times a power of
another base. -/
def nanoseconds (base : Nat) (digits : List Nat) (power : Nat) (e : Int) (unit : Nat) : Nat :=
  let n := digits.foldl (fun n d => base * n + d) 0 * unit * second
  min forever (if 0 ≤ e then n * Nat.pow power e.toNat else n / Nat.pow power (-e).toNat)

def hexDigit? (c : Char) : Option Nat :=
  if c.isDigit then some (c.toNat - 48)
  else
    let lower := c.toLower
    if 'a' ≤ lower ∧ lower ≤ 'f' then some (lower.toNat - 87) else none

def decimalDigit? (c : Char) : Option Nat := if c.isDigit then some (c.toNat - 48) else none

/-- The nanoseconds that a number without a sign stands for, with an optional unit. -/
def magnitude? (cs : List Char) : Option Nat :=
  let lower := cs.map Char.toLower
  if lower == "inf".toList || lower == "infinity".toList then some forever
  else
    let hex := match lower with
      | '0' :: 'x' :: _ => mantissa hexDigit? (cs.drop 2)
      | _ => ([], 0, cs)
    if hex.1.isEmpty then
      let (digits, places, rest) := mantissa decimalDigit? cs
      if digits.isEmpty then none
      else
        let (e, suffix) := exponent ['e', 'E'] rest
        (unit? suffix).map (nanoseconds 10 digits 10 (e - places))
    else
      let (digits, places, rest) := hex
      let (e, suffix) := exponent ['p', 'P'] rest
      (unit? suffix).map (nanoseconds 16 digits 2 (e - 4 * places))

/-- The nanoseconds that an operand stands for; less than none is no time. -/
def duration? (arg : String) : Option Nat :=
  match arg.toList.dropWhile fun c => c.isWhitespace || c == '\x0b' || c == '\x0c' with
  | '+' :: cs => magnitude? cs
  | '-' :: cs => (magnitude? cs).filter (· == 0)
  | cs => magnitude? cs

def sleep (name : String) (args : List String) : Act Unit := do
  let option := args.takeWhile (· != "--") |>.find? fun arg => arg.startsWith "-" && arg != "-"
  let refuse (text : String) : Act Unit := fail (s!"{name}: {text}\n" ++ hint name)
  match option.map String.toList, args.erase "--" with
  | some ('-' :: '-' :: cs), _ =>
    match longOption [] ("--" ++ String.ofList cs) with
    | .ok _ => Act.leave 0
    | .error text => refuse text
  | some cs, _ => refuse (noSuchLetter ((cs.drop 1).headD '-'))
  | none, [] => refuse "missing operand"
  | none, args =>
    match args.filter fun arg => (duration? arg).isNone with
    | [] => do
      let total := (args.filterMap duration?).foldl (· + ·) 0
      let p ← Act.self
      Act.change fun p => { p with image := .asleep }
      Act.await (.time (p.ready + total))
    | bad =>
      let lines := bad.map fun arg => s!"{name}: invalid time interval {Quoted.text arg}\n"
      fail (String.join lines ++ hint name)

def start (program : String) (argv : List String) : Act Unit :=
  let name := argv.headD program
  let args := argv.tail
  match program with
  | "echo" => echo name args
  | "cat" => cat name args
  | "sleep" => sleep name args
  | "true" => Act.leave 0
  | _ => Act.leave 1

end Program
end JobControl.Machine
