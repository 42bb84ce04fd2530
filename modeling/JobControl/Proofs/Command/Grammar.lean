import JobControl.Command.Parse

/-!
# The grammar of a command line

* `Blank`, `Quotes`, `Word` : the lexical rules: what stands between tokens, the quotes, a word with its
  text;
* `Item` : an argument, or a redirection with its target; `arguments`, `streams`, `target?`;
* `Spelled` : the characters spell items, one after the other;
* `Faulty` : what follows the items breaks the rules, and how;
* `Means` : what the items ask for;
* `Parses` : what a line is read as.
-/

set_option autoImplicit false

namespace JobControl.Command

/-! ## Words -/

def Blank (cs : List Char) : Prop := ∀ c ∈ cs, c = ' ' ∨ c = '\t' ∨ c = '\r' ∨ c = '\n'

/-- The character that closes a quotation also opens it. -/
def Quotes (q : Char) : Prop := q = '\'' ∨ q = '"'

def Stream.operator : Stream → Char
  | .input => '<'
  | .output => '>'

/-- The characters begin with a word of this text, and `rest` follows. A quoted word ends at the next
quote of its kind. A bare word begins with no operator and no quote, and ends before the next blank. -/
inductive Word : String → List Char → List Char → Prop where
  | quoted {q : Char} {text rest : List Char} : Quotes q → q ∉ text →
      Word (String.ofList text) (q :: text ++ q :: rest) rest
  | bare {c : Char} {text rest : List Char} : (∀ stream : Stream, c ≠ stream.operator) → ¬ Quotes c →
      (∀ d ∈ c :: text, ¬ Blank [d]) → (∀ d ∈ rest.head?, Blank [d]) →
      Word (String.ofList (c :: text)) (c :: text ++ rest) rest

/-! ## Items -/

/-- A part of a command. -/
inductive Item where
  | argument (word : String)
  | redirection (stream : Stream) (target : String)
  deriving DecidableEq, Repr

namespace Item

def argument? : Item → Option String
  | argument word => some word
  | redirection _ _ => none

def stream? : Item → Option Stream
  | argument _ => none
  | redirection stream _ => some stream

/-- The target that the item gives a stream. -/
def target? (stream : Stream) : Item → Option String
  | argument _ => none
  | redirection s target => if s = stream then some target else none

end Item

section Items
variable (items : List Item)

def arguments : List String := items.filterMap Item.argument?

def streams : List Stream := items.filterMap Item.stream?

def target? (stream : Stream) : Option String := items.findSome? (Item.target? stream)

end Items

/-- The characters spell the items, with blanks between tokens, and `rest` follows. A word right
after an operator is its target, every other word is an argument. -/
inductive Spelled : List Item → List Char → List Char → Prop where
  | nil (rest : List Char) : Spelled [] rest rest
  | argument {blanks cs mid rest : List Char} {word : String} {items : List Item} :
      Blank blanks → Word word cs mid → Spelled items mid rest →
      Spelled (.argument word :: items) (blanks ++ cs) rest
  | redirection {blanks blanks' cs mid rest : List Char} {stream : Stream} {target : String}
      {items : List Item} : Blank blanks → Blank blanks' → Word target cs mid →
      Spelled items mid rest →
      Spelled (.redirection stream target :: items)
        (blanks ++ stream.operator :: (blanks' ++ cs)) rest

/-! ## Faults -/

/-- The first fault of the characters after items that redirect the streams `taken`. -/
inductive Faulty (taken : List Stream) : List Char → Fault → Prop where
  /-- An operator for a stream that is redirected already. -/
  | again {blanks rest : List Char} {stream : Stream} : Blank blanks → stream ∈ taken →
      Faulty taken (blanks ++ stream.operator :: rest) .ambiguousRedirection
  /-- An operator in the place of a target. -/
  | doubled {blanks blanks' rest : List Char} {stream stream' : Stream} : Blank blanks →
      stream ∉ taken → Blank blanks' →
      Faulty taken (blanks ++ stream.operator :: (blanks' ++ stream'.operator :: rest))
        .ambiguousRedirection
  /-- An argument that is quoted and never closed. -/
  | unmatched {blanks text : List Char} {q : Char} : Blank blanks → Quotes q → q ∉ text →
      Faulty taken (blanks ++ q :: text) (.unmatchedQuote q)
  /-- A target that is quoted and never closed. -/
  | unmatchedTarget {blanks blanks' text : List Char} {stream : Stream} {q : Char} : Blank blanks →
      stream ∉ taken → Blank blanks' → Quotes q → q ∉ text →
      Faulty taken (blanks ++ stream.operator :: (blanks' ++ q :: text)) (.unmatchedQuote q)
  /-- An operator with nothing after it. -/
  | missing {blanks blanks' : List Char} {stream : Stream} : Blank blanks → stream ∉ taken →
      Blank blanks' → Faulty taken (blanks ++ stream.operator :: blanks') .missingTarget

/-! ## Lines -/

def Marks (word : String) : Prop := ∃ rest, word.toList = '&' :: rest

/-- What items ask for. The built-in is that of the first argument; a last argument that is a mark
is left out; when no other is left, there is nothing to run. -/
inductive Means (items : List Item) : Option Command → Prop where
  | nothing : arguments items = [] → Means items none
  | onlyMark {mark : String} : arguments items = [mark] → Marks mark → Means items none
  | foreground {word last : String} {words : List String} : arguments items = word :: words →
      (word :: words).getLast? = some last → ¬ Marks last →
      Means items (some
        { argv := word :: words, input := target? items .input, output := target? items .output
          builtin := Builtin.ofName? word, background := false })
  | background {word mark : String} {words : List String} :
      arguments items = word :: words ++ [mark] → Marks mark →
      Means items (some
        { argv := word :: words, input := target? items .input, output := target? items .output
          builtin := Builtin.ofName? word, background := true })

/-- What the characters of a line are read as: the command of its items; that of the items up to the
last argument that a command may have, whatever follows; or the first fault. No stream is redirected
twice. -/
inductive Parses (line : List Char) : Except Fault (Option Command) → Prop where
  | ended {items : List Item} {rest : List Char} {command : Option Command} :
      Spelled items line rest → (streams items).Nodup → (arguments items).length < maxArgs - 1 →
      Blank rest → Means items command → Parses line (.ok command)
  | full {items : List Item} {word : String} {rest : List Char} {command : Option Command} :
      Spelled (items ++ [.argument word]) line rest → (streams items).Nodup →
      (arguments items).length + 1 = maxArgs - 1 → Means (items ++ [.argument word]) command →
      Parses line (.ok command)
  | fault {items : List Item} {rest : List Char} {fault : Fault} :
      Spelled items line rest → (streams items).Nodup → (arguments items).length < maxArgs - 1 →
      Faulty (streams items) rest fault → Parses line (.error fault)

end JobControl.Command
