import JobControl.Proofs.Command.Parse
import Mathlib.Data.List.Count

/-!
# Writing a command down

A command can be written as a line in many ways, and each of them is read as the command.

* `Style`, `Written` : how a word is written, bare or in quotes, and that it can be written so;
* `Piece` : an argument or a redirection as it is written;
* `Layout` : pieces with the blanks between them; its `text` is the line;
* `Layout.Shows` : the words, the targets and the marker that the pieces are;
* `Layout.spelled` : the characters of a layout spell its pieces, whatever the blanks;
* `parse_layout` : so the line is read as the command that it shows.
-/

set_option autoImplicit false

namespace JobControl.Command

instance (cs : List Char) : Decidable (Blank cs) :=
  decidable_of_iff (cs.all isBlank = true) (List.all_eq_true.trans blank_iff.symm)

/-! ## Words as they are written -/

/-- How a word is written: as it is, or between two quotes. -/
inductive Style where
  | bare
  | quoted (quote : Char)
  deriving DecidableEq, Repr

namespace Style

def Suits (word : String) : Style → Prop
  | bare => word ≠ "" ∧ (∀ c ∈ word.toList, ¬ Blank [c]) ∧
      ∀ c ∈ word.toList.head?, (∀ stream : Stream, c ≠ stream.operator) ∧ ¬ Quotes c
  | quoted quote => Quotes quote ∧ quote ∉ word.toList

theorem suits_bare_iff {word : String} :
    bare.Suits word ↔ word ≠ "" ∧ word.toList.all (!isBlank ·) = true ∧
      word.toList.head?.all (fun c => (operator? c).isNone && !isQuote c) = true := by
  refine and_congr_right fun _ => and_congr ?_ ?_
  · simp [← isBlank_iff]
  · cases word.toList.head? <;> simp [← operator?_eq_none, ← isQuote_iff]

instance (word : String) : (style : Style) → Decidable (style.Suits word)
  | bare => decidable_of_iff _ suits_bare_iff.symm
  | quoted quote => decidable_of_iff (isQuote quote = true ∧ quote ∉ word.toList)
      (and_congr_left' isQuote_iff)

def write (word : String) : Style → List Char
  | bare => word.toList
  | quoted quote => quote :: word.toList ++ [quote]

end Style

/-- A word as it is written. -/
structure Written where
  word : String
  style : Style
  suits : style.Suits word := by decide

namespace Written

def chars (w : Written) : List Char := w.style.write w.word

def marker : Written := { word := "&", style := .bare }

theorem marks_marker : Marks marker.word := ⟨[], rfl⟩

/-- A word is read as it was written, if blanks or nothing follow. -/
theorem spelled (w : Written) {rest : List Char} (hrest : ∀ d ∈ rest.head?, Blank [d]) :
    Word w.word (w.chars ++ rest) rest := by
  obtain ⟨word, style, suits⟩ := w
  cases style with
  | bare =>
    obtain ⟨hne, hblank, hfirst⟩ := suits
    obtain ⟨c, text, hword⟩ := List.exists_cons_of_ne_nil (mt String.toList_eq_nil_iff.1 hne)
    rw [hword] at hblank hfirst
    obtain ⟨hop, hquote⟩ := hfirst c rfl
    have h : Word (String.ofList (c :: text)) (c :: text ++ rest) rest :=
      .bare hop hquote hblank hrest
    rw [← hword, String.ofList_toList] at h
    exact h
  | quoted quote =>
    obtain ⟨hquote, hword⟩ := suits
    have h : Word (String.ofList word.toList) (quote :: word.toList ++ quote :: rest) rest :=
      .quoted hquote hword
    rw [String.ofList_toList, List.append_cons] at h
    exact h

end Written

/-! ## Pieces -/

abbrev Blanks := { cs : List Char // Blank cs }

abbrev Separator := { cs : List Char // Blank cs ∧ cs ≠ [] }

/-- A part of a command as it is written, with the blanks between an operator and its target. -/
inductive Piece where
  | argument (word : Written)
  | redirection (stream : Stream) (blanks : Blanks) (target : Written)

namespace Piece

def chars : Piece → List Char
  | argument word => word.chars
  | redirection stream blanks target => stream.operator :: (blanks.1 ++ target.chars)

def argument? : Piece → Option Written
  | argument word => some word
  | redirection _ _ _ => none

def target? (stream : Stream) : Piece → Option Written
  | argument _ => none
  | redirection s _ target => if s = stream then some target else none

def item : Piece → Item
  | argument word => .argument word.word
  | redirection stream _ target => .redirection stream target.word

theorem argument?_item (p : Piece) : p.item.argument? = p.argument?.map Written.word := by
  cases p <;> rfl

theorem target?_item (stream : Stream) (p : Piece) :
    p.item.target? stream = (p.target? stream).map Written.word := by
  cases p with
  | argument word => rfl
  | redirection s blanks target =>
    simp only [item, Item.target?, target?]
    split <;> rfl

theorem stream?_item (stream : Stream) (p : Piece) :
    p.item.stream? = some stream ↔ (p.target? stream).isSome = true := by
  cases p with
  | argument word => simp [item, Item.stream?, target?]
  | redirection s blanks target => simp [item, Item.stream?, target?]

/-- A piece adds its item to those that are spelled after it. -/
theorem spelled (p : Piece) {blanks mid rest : List Char} {items : List Item}
    (hblanks : Blank blanks) (hmid : ∀ d ∈ mid.head?, Blank [d]) (h : Spelled items mid rest) :
    Spelled (p.item :: items) (blanks ++ (p.chars ++ mid)) rest := by
  cases p with
  | argument word => exact .argument hblanks (word.spelled hmid) h
  | redirection stream blanks' target =>
    have hspelled : Spelled (.redirection stream target.word :: items)
        (blanks ++ stream.operator :: (blanks'.1 ++ (target.chars ++ mid))) rest :=
      .redirection hblanks blanks'.2 (target.spelled hmid) h
    simpa [chars, item] using hspelled

end Piece

/-! ## Lines -/

/-- Pieces, with blanks before, after and between them. -/
structure Layout where
  before : Blanks
  first : Piece
  /-- Each further piece with the blanks that separate it from the one before. -/
  others : List (Separator × Piece)
  after : Blanks

namespace Layout

def tail (after : List Char) : List (Separator × Piece) → List Char
  | [] => after
  | (blanks, p) :: others => blanks.1 ++ (p.chars ++ tail after others)

variable (l : Layout)

def chars : List Char := l.before.1 ++ (l.first.chars ++ tail l.after.1 l.others)

def text : String := String.ofList l.chars

def pieces : List Piece := l.first :: l.others.map Prod.snd

def words : List Written := l.pieces.filterMap Piece.argument?

def targets (stream : Stream) : List Written := l.pieces.filterMap (Piece.target? stream)

/-- The pieces are these words and targets and, for a background command, the mark after the
words. -/
structure Shows (words : List Written) (input output : Option Written) (background : Bool) :
    Prop where
  words : l.words = words ++ if background then [.marker] else []
  input : l.targets .input = input.toList
  output : l.targets .output = output.toList

def items : List Item := l.pieces.map Piece.item

theorem arguments_items : arguments l.items = l.words.map Written.word := by
  simp only [arguments, items, words, List.filterMap_map, List.map_filterMap]
  exact List.filterMap_congr fun p _ => p.argument?_item

theorem target?_items (stream : Stream) :
    target? l.items stream = (l.targets stream).head?.map Written.word := by
  rw [target?, ← List.head?_filterMap, ← List.head?_map, items, targets, List.filterMap_map,
    List.map_filterMap]
  exact congrArg List.head? (List.filterMap_congr fun p _ => p.target?_item stream)

theorem count_streams_items (stream : Stream) :
    (streams l.items).count stream = (l.targets stream).length := by
  rw [streams, targets, items, List.length_filterMap_eq_countP, List.filterMap_map, List.count,
    List.countP_filterMap]
  refine List.countP_congr fun p _ => ?_
  rw [← Piece.stream?_item]
  cases hp : p.item.stream? <;> simp [hp]

/-- What follows a piece begins with a blank, if anything does. -/
theorem blank_head?_tail (after : Blanks) (others : List (Separator × Piece)) :
    ∀ d ∈ (tail after.1 others).head?, Blank [d] := by
  intro d hd
  cases others with
  | nil =>
    have hmem : d ∈ after.1 := List.mem_of_mem_head? hd
    simpa [Blank] using after.2 d hmem
  | cons other others =>
    obtain ⟨⟨blanks, hblank, hne⟩, p⟩ := other
    obtain ⟨c, blanks, rfl⟩ := List.exists_cons_of_ne_nil hne
    obtain rfl : c = d := by simpa [tail] using hd
    simpa [Blank] using hblank c List.mem_cons_self

theorem spelled_tail (after : Blanks) (others : List (Separator × Piece)) :
    Spelled ((others.map Prod.snd).map Piece.item) (tail after.1 others) after.1 := by
  induction others with
  | nil => exact .nil _
  | cons other others ih =>
    obtain ⟨⟨blanks, hblank, -⟩, p⟩ := other
    exact p.spelled hblank (blank_head?_tail after others) ih

/-- The characters of a layout spell its pieces. -/
theorem spelled : Spelled l.items l.chars l.after.1 :=
  l.first.spelled l.before.2 (blank_head?_tail l.after l.others) (spelled_tail l.after l.others)

variable {l} {words : List Written} {input output : Option Written} {background : Bool}

theorem Shows.nodup (h : l.Shows words input output background) : (streams l.items).Nodup := by
  rw [List.nodup_iff_count_le_one]
  intro stream
  rw [count_streams_items]
  cases stream with
  | input => rw [h.input]; exact input.length_toList_le
  | output => rw [h.output]; exact output.length_toList_le

/-- What the pieces ask for is the command that they show. -/
theorem Shows.means (h : l.Shows words input output background) (nonempty : words ≠ [])
    (unmarked : background = false → ∀ w ∈ words.getLast?, ¬ Marks w.word) :
    Means l.items (some
      { argv := words.map Written.word
        input := input.map Written.word
        output := output.map Written.word
        builtin := words.head?.bind fun w => Builtin.ofName? w.word
        background }) := by
  obtain ⟨w, ws, rfl⟩ := List.exists_cons_of_ne_nil nonempty
  have hinput : target? l.items .input = input.map Written.word := by
    rw [target?_items, h.input, Option.head?_toList]
  have houtput : target? l.items .output = output.map Written.word := by
    rw [target?_items, h.output, Option.head?_toList]
  rw [← hinput, ← houtput]
  cases background with
  | true =>
    have hwords : arguments l.items =
        w.word :: ws.map Written.word ++ [Written.marker.word] := by
      rw [arguments_items, h.words]
      simp
    exact .background hwords Written.marks_marker
  | false =>
    have hwords : arguments l.items = w.word :: ws.map Written.word := by
      rw [arguments_items, h.words]
      simp
    obtain ⟨last, hlast⟩ : ∃ last, (w :: ws).getLast? = some last := ⟨_, List.getLast?_cons⟩
    have hlast' : (w.word :: ws.map Written.word).getLast? = some last.word := by
      rw [← List.map_cons, List.getLast?_map, hlast]
      rfl
    exact .foreground hwords hlast' (unmarked rfl last hlast)

/-- The mark takes one more place. -/
theorem Shows.length_arguments_le (h : l.Shows words input output background) :
    (arguments l.items).length ≤ words.length + 1 := by
  rw [arguments_items, h.words]
  cases background <;> simp

end Layout

/-- **Reading undoes writing.** However a command of 1 to 125 words is written down, with each word
bare or in quotes, any blanks between pieces and its redirections anywhere among them, a line that fits
is read as the command. -/
theorem parse_layout {l : Layout} {words : List Written} {input output : Option Written}
    {background : Bool} (shows : l.Shows words input output background)
    (count : 1 ≤ words.length ∧ words.length ≤ 125)
    (unmarked : background = false → ∀ w ∈ words.getLast?, ¬ Marks w.word)
    (fits : l.text.utf8ByteSize ≤ maxLine) :
    parse l.text = .ok (some
      { argv := words.map Written.word
        input := input.map Written.word
        output := output.map Written.word
        builtin := words.head?.bind fun w => Builtin.ofName? w.word
        background }) := by
  have hcut := Utf8.isCut_cut maxLine l.text.toList
  have hsignificant : significant l.text = l.chars := by
    have htext : l.text.toList = l.chars := String.toList_ofList
    rw [← htext]
    exact hcut.eq_of_fits (by rwa [String.ofList_toList])
  have nonempty : words ≠ [] := List.ne_nil_of_length_pos count.1
  have room : (arguments l.items).length < maxArgs - 1 :=
    Nat.lt_of_le_of_lt shows.length_arguments_le (by unfold maxArgs; omega)
  have parses := Parses.ended l.spelled shows.nodup room l.after.2 (shows.means nonempty unmarked)
  rw [← hsignificant] at parses
  exact parses.outcome

/-- Quotes of both kinds, an operator inside a word, and a redirection after the mark. -/
theorem parse_layout_quoted :
    let words : List Written := [{ word := "/bin/echo", style := .bare },
      { word := "é>x", style := .bare }, { word := "'&' <a", style := .quoted '"' }]
    let source : Written := { word := "a \"b\"", style := .quoted '\'' }
    let target : Written := { word := "out", style := .bare }
    let l : Layout :=
      { before := ⟨['\t'], by decide⟩
        first := .redirection .input ⟨[], by decide⟩ source
        others := (words ++ [Written.marker]).map (⟨⟨[' '], by decide⟩, .argument ·⟩) ++
          [⟨⟨[' ', '\r'], by decide⟩, .redirection .output ⟨[' '], by decide⟩ target⟩]
        after := ⟨[], by decide⟩ }
    l.text = "\t<'a \"b\"' /bin/echo é>x \"'&' <a\" & \r> out" ∧
      (l.Shows words (some source) (some target) true ∧ 1 ≤ words.length ∧ words.length ≤ 125 ∧
        l.text.utf8ByteSize ≤ maxLine) ∧
      parse l.text = .ok (some
        { argv := ["/bin/echo", "é>x", "'&' <a"], input := some "a \"b\"", output := some "out"
          builtin := none, background := true }) := by
  intro words source target l
  have shows : l.Shows words (some source) (some target) true := ⟨rfl, rfl, rfl⟩
  have count : 1 ≤ words.length ∧ words.length ≤ 125 := by decide
  have fits : l.text.utf8ByteSize ≤ maxLine := by decide
  exact ⟨by decide, ⟨shows, count.1, count.2, fits⟩,
    parse_layout shows count (fun h => by cases h) fits⟩

end JobControl.Command
