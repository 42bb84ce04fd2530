import JobControl.Files

/-!
# Patterns

A pattern is a list of characters, some of which have no meaning of their own because they were
quoted. A star matches any text, a question mark any byte, brackets one of some bytes.

* `Pattern.isMatch` : the pattern matches a whole text;
* `Pattern.trim` : a text without what the pattern matches at its start or its end;
* `Pattern.paths` : the files whose paths match a pattern, segment by segment. Names that start with
  a dot are matched only by a pattern that does.
-/

set_option autoImplicit false

namespace JobControl.Machine.Script

/-- Characters, each with whether it was quoted. -/
abbrev Pattern := List (Char × Bool)

namespace Pattern

def named (name : String) : Char → Bool :=
  match name with
  | "alpha" => Char.isAlpha
  | "digit" => Char.isDigit
  | "alnum" => Char.isAlphanum
  | "upper" => Char.isUpper
  | "lower" => Char.isLower
  | "space" => fun c => " \t\n\r\x0b\x0c".contains c
  | "blank" => fun c => c == ' ' || c == '\t'
  | "punct" => fun c => '!' ≤ c && c ≤ '~' && !c.isAlphanum
  | "print" => fun c => ' ' ≤ c && c ≤ '~'
  | "graph" => fun c => '!' ≤ c && c ≤ '~'
  | "cntrl" => fun c => c < ' ' || c == '\x7f'
  | "xdigit" => fun c => c.isDigit || ('a' ≤ c && c ≤ 'f') || ('A' ≤ c && c ≤ 'F')
  | _ => fun _ => false

/-- What may stand in brackets, up to the closing one: the characters that are meant, and the rest.
The first number bounds how much there is. -/
def members : Nat → Bool → Pattern → Option ((Char → Bool) × Pattern)
  | 0, _, _ => none
  | _ + 1, _, [] => none
  | n + 1, isFirst, p@((c, quoted) :: rest) =>
    let add (f : Char → Bool) (rest : Pattern) : Option ((Char → Bool) × Pattern) :=
      (members n false rest).map fun (g, rest) => (fun x => f x || g x, rest)
    if c == ']' && !quoted && !isFirst then some (fun _ => false, rest)
    else
      let name := ((p.drop 2).takeWhile fun (d, _) => d.isAlpha).map (·.1)
      if c == '[' && !quoted && (rest.head?.map (·.1)) == some ':' &&
          (((p.drop (2 + name.length)).take 2).map (·.1)) == [':', ']'] then
        add (named (String.ofList name)) (p.drop (4 + name.length))
      else
        match rest with
        | ('-', false) :: (d, dquoted) :: more =>
          if d == ']' && !dquoted then add (· == c) rest
          else add (fun x => c ≤ x && x ≤ d) more
        | _ => add (· == c) rest

/-- The characters that brackets mean, after the opening one, and the rest; none if they are not
closed. -/
def bracket (p : Pattern) : Option ((Char → Bool) × Pattern) :=
  match p with
  | ('!', false) :: rest =>
    (members (rest.length + 1) true rest).map fun (f, rest) => (fun x => !f x, rest)
  | _ => members (p.length + 1) true p

/-- Match within so many steps. -/
def matchWithin : Nat → Pattern → List Char → Bool
  | 0, _, _ => false
  | _ + 1, [], text => text.isEmpty
  | n + 1, (c, quoted) :: rest, text =>
    let literal : Bool := match text with
      | d :: more => c == d && matchWithin n rest more
      | [] => false
    if quoted then literal
    else
      match c, text with
      | '*', [] => matchWithin n rest []
      | '*', _ :: more => matchWithin n rest text || matchWithin n ((c, quoted) :: rest) more
      | '?', _ :: more => matchWithin n rest more
      | '[', d :: more =>
        match bracket rest with
        | some (f, rest) => f d && matchWithin n rest more
        | none => literal
      | _, _ => literal

def bytes (c : Char) : List Char :=
  (Utf8.encode (String.singleton c)).map fun b => Char.ofNat b.toNat

/-- The pattern matches all of these bytes. -/
def isMatchOfBytes (p : Pattern) (text : List Char) : Bool :=
  matchWithin (p.length + text.length + 1) p text

def toBytes (p : Pattern) : Pattern := p.flatMap fun (c, quoted) => (bytes c).map (·, quoted)

def isMatch (p : Pattern) (text : List Char) : Bool :=
  p.toBytes.isMatchOfBytes (text.flatMap bytes)

/-- A text without its shortest or longest part at the start or the end that matches. -/
def trim (p : Pattern) (atEnd longest : Bool) (text : List Char) : List Char :=
  let pattern := p.toBytes
  let whole := text.flatMap bytes
  let cuts := List.range (whole.length + 1)
  let shortFirst := if atEnd then cuts.reverse else cuts
  let order := if longest then shortFirst.reverse else shortFirst
  let part (n : Nat) : List Char := if atEnd then whole.drop n else whole.take n
  match order.find? fun n => pattern.isMatchOfBytes (part n) with
  | some n =>
    let rest := if atEnd then whole.take n else whole.drop n
    (Utf8.decode (rest.map fun c => UInt8.ofNat c.toNat)).toList
  | none => text

def isActive (p : Pattern) : Bool := p.any fun (c, quoted) => !quoted && "*?[".contains c

/-! ## Paths that match a pattern -/

/-- The segments of a pattern, between its slashes. -/
def segments : Pattern → List Pattern
  | [] => [[]]
  | (c, quoted) :: rest =>
    if c == '/' then [] :: segments rest
    else
      match segments rest with
      | [] => [[(c, quoted)]]
      | s :: more => ((c, quoted) :: s) :: more

def text (p : Pattern) : String := String.ofList (p.map (·.1))

/-- Whether a pattern that has to say so itself matches names that start with a dot. -/
def allows (p : Pattern) (name : String) : Bool :=
  !name.startsWith "." || (p.head?.map (·.1)) == some '.'

/-- The paths that match segments, after a path that has been matched. -/
def pathsAfter (f : Files) (base : Path) (before : String) : List Pattern → List String
  | [] => if before == "" || (f.find base before).toOption.isSome then [before] else []
  | s :: rest =>
    let last := rest.isEmpty
    let go (name : String) : List String :=
      pathsAfter f base (before ++ name ++ if last then "" else "/") rest
    if s.isActive then
      let dir := if before == "" then "." else before
      match f.find base dir with
      | .ok (p, .directory) =>
        let found := ("." :: ".." :: f.names p).filter fun name =>
          s.allows name && s.isMatch name.toList
        (found.mergeSort fun a b => a ≤ b).flatMap go
      | _ => []
    else go s.text

def paths (f : Files) (base : Path) (p : Pattern) : List String := pathsAfter f base "" p.segments

end Pattern
end JobControl.Machine.Script
