/-!
# Bytes and characters

* `Utf8.decode` : bytes to characters; what is no UTF-8 becomes `U+FFFD`, one for each longest
  start of a sequence that cannot be completed. The decoder is an automaton over the bytes: between
  two characters (`none`), or inside a sequence (`Sequence`: how many bytes are missing, the range
  of the next one, the bits so far);
* `Utf8.encode` : characters to bytes;
* `Utf8.size` : how many bytes characters take;
* `Utf8.cut` : the longest start of a text that fits a number of bytes and splits no character;
* `Utf8.IsBoundary` : the bytes of a text at which it may be taken apart;
* `Utf8.slice?` : the part of a text between two of them;
* `Utf8.retreat?` : the last of them up to a byte, found by going back byte by byte;
* `Utf8.cutBytes?` : a text cut to a number of bytes.

Where bytes are given that split a character, lie outside the text or are out of order, there is no
result.
-/

set_option autoImplicit false

namespace JobControl.Utf8

/-- A sequence of bytes that is not complete. -/
structure Sequence where
  /-- Bytes missing after the next one. -/
  missing : Nat
  /-- The least value of the next byte. -/
  low : UInt8
  /-- The greatest value of the next byte. -/
  high : UInt8
  /-- The bits of the character read so far. -/
  bits : Nat
  deriving DecidableEq, Repr

/-- What stands for bytes that are no character. -/
def replacement : Char := '\uFFFD'

/-- A byte that starts a character: the characters it completes and the sequence it opens. -/
def start (b : UInt8) : List Char × Option Sequence :=
  if b < 0x80 then ([Char.ofNat b.toNat], none)
  else if b < 0xC2 then ([replacement], none)
  else if b < 0xE0 then ([], some ⟨0, 0x80, 0xBF, b.toNat % 32⟩)
  else if b < 0xF0 then
    ([], some ⟨1, if b = 0xE0 then 0xA0 else 0x80, if b = 0xED then 0x9F else 0xBF, b.toNat % 16⟩)
  else if b < 0xF5 then
    ([], some ⟨2, if b = 0xF0 then 0x90 else 0x80, if b = 0xF4 then 0x8F else 0xBF, b.toNat % 8⟩)
  else ([replacement], none)

/-- One step of the decoder. -/
def step (state : Option Sequence) (b : UInt8) : List Char × Option Sequence :=
  match state with
  | none => start b
  | some s =>
    if s.low ≤ b ∧ b ≤ s.high then
      let bits := s.bits * 64 + b.toNat % 64
      match s.missing with
      | 0 => ([Char.ofNat bits], none)
      | n + 1 => ([], some ⟨n, 0x80, 0xBF, bits⟩)
    else (replacement :: (start b).1, (start b).2)

/-- The characters of the bytes that follow in a given state. -/
def decodeFrom (state : Option Sequence) : List UInt8 → List Char
  | [] => if state.isSome then [replacement] else []
  | b :: bs => (step state b).1 ++ decodeFrom (step state b).2 bs

def decode (bytes : List UInt8) : String := String.ofList (decodeFrom none bytes)

def encode (text : String) : List UInt8 := text.toUTF8.toList

/-- How many bytes the characters take. -/
def size : List Char → Nat
  | [] => 0
  | c :: cs => c.utf8Size + size cs

/-- The longest start of `cs` that takes at most `limit` bytes. -/
def cut (limit : Nat) : List Char → List Char
  | [] => []
  | c :: cs => if c.utf8Size ≤ limit then c :: cut (limit - c.utf8Size) cs else []

/-! ## Parts of a text by their bytes -/

/-- A character of the text starts at byte `i`, or the text ends there. -/
def IsBoundary (text : String) (i : Nat) : Prop := (⟨i⟩ : String.Pos.Raw).IsValid text

instance (text : String) (i : Nat) : Decidable (IsBoundary text i) :=
  inferInstanceAs (Decidable (String.Pos.Raw.IsValid text ⟨i⟩))

def slice? (text : String) (start stop : Nat) : Option String :=
  if h : start ≤ stop ∧ IsBoundary text start ∧ IsBoundary text stop then
    some (text.extract ⟨⟨start⟩, h.2.1⟩ ⟨⟨stop⟩, h.2.2⟩)
  else none

/-- The last boundary up to byte `i`; none if going back leads past the first byte. -/
def retreat? (text : String) : Nat → Option Nat
  | 0 => if IsBoundary text 0 then some 0 else none
  | i + 1 => if IsBoundary text (i + 1) then some (i + 1) else retreat? text i

/-- The text cut to at most `limit` bytes. -/
def cutBytes? (limit : Nat) (text : String) : Option String :=
  if text.utf8ByteSize ≤ limit then some text
  else (retreat? text limit).bind (slice? text 0)

end JobControl.Utf8
