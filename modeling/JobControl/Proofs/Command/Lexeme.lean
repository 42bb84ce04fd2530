import JobControl.Command.Lexeme
import JobControl.Proofs.Command.Parse
import JobControl.Proofs.Text.Slice

/-!
# The words of a line are parts of it

* `Token.Starts` : what a line can start with, and how many bytes of it the token takes;
* `Token.InPlace` : the text of a token stands in the line, at the byte that the token names; this is so for
  all tokens of a line (`inPlace_scanFrom`);
* `Lexeme.ofToken`, `lexemes_eq` : the bytes that are noted for a word are those of its token;
* `boundaries_of_mem_spans` : so every word lies between two boundaries;
* `parseBytes?_eq` : and is taken out of the line whole;
* `words_between_boundaries` : neither cutting a text nor reading a line splits a character.
-/

set_option autoImplicit false

namespace JobControl.Command

open Utf8 (size size_append IsBoundary)

/-! ## One byte -/

theorem utf8Size_of_isBlank {c : Char} (h : isBlank c) : c.utf8Size = 1 := by
  rcases isBlank_iff.1 h c List.mem_cons_self with rfl | rfl | rfl | rfl <;> rfl

theorem Quotes.utf8Size_eq {q : Char} (h : Quotes q) : q.utf8Size = 1 := by
  rcases h with rfl | rfl <;> rfl

theorem Stream.utf8Size_operator (stream : Stream) : stream.operator.utf8Size = 1 := by
  cases stream <;> rfl

/-! ## Tokens in their places -/

/-- The characters from byte `pos` of a line on start with the token, and `rest` follows. -/
inductive Token.Starts (pos : Nat) : List Char → Token → List Char → Prop where
  | redirect (stream : Stream) (rest : List Char) :
      Starts pos (stream.operator :: rest) (.redirect stream) rest
  | quoted {q : Char} {text : List Char} (rest : List Char) : Quotes q → q ∉ text →
      Starts pos (q :: (text ++ q :: rest)) (.word (pos + 1) text true) rest
  | unclosed {q : Char} {text : List Char} : Quotes q → q ∉ text →
      Starts pos (q :: text) (.unclosed q) []
  | bare {c : Char} {text rest : List Char} : (∀ stream : Stream, c ≠ stream.operator) →
      ¬ Quotes c → (∀ d ∈ c :: text, ¬ Blank [d]) → (∀ d ∈ rest.head?, Blank [d]) →
      Starts pos (c :: (text ++ rest)) (.word pos (c :: text) false) rest

theorem starts_first {c : Char} (h : ¬ Blank [c]) (pos : Nat) (cs : List Char) :
    Token.Starts pos (c :: cs) (Token.first pos c cs).1 (Token.first pos c cs).2 := by
  by_cases hop : ∀ stream : Stream, c ≠ stream.operator
  · rcases exists_word h hop cs with ⟨word, rest, hword, -⟩ | ⟨hq, hc⟩
    · generalize heq : c :: cs = line at hword
      cases hword with
      | quoted hq htext =>
        rw [List.cons_append] at heq
        obtain ⟨rfl, rfl⟩ := List.cons.inj heq
        rw [first_quoted hq htext]
        exact .quoted rest hq htext
      | bare hop hq htext hrest =>
        rw [List.cons_append] at heq
        obtain ⟨rfl, rfl⟩ := List.cons.inj heq
        rw [first_bare hop hq (List.forall_mem_cons.1 htext).2 hrest]
        exact .bare hop hq htext hrest
    · rw [first_unclosed hq hc]
      exact .unclosed hq hc
  · obtain ⟨stream, rfl⟩ : ∃ stream : Stream, c = stream.operator := by simpa using hop
    rw [first_operator]
    exact .redirect stream cs

/-- The text of a word stands in the line at the byte that the token names. -/
def Token.InPlace (line : List Char) : Token → Prop
  | .word start text _ => ∃ front rest, line = front ++ text ++ rest ∧ size front = start
  | _ => True

section Starts
variable {pos : Nat} {cs rest : List Char} {token : Token}

theorem Token.Starts.inPlace (h : token.Starts pos cs rest) {front : List Char}
    (hfront : size front = pos) : token.InPlace (front ++ cs) := by
  cases h with
  | redirect => trivial
  | unclosed => trivial
  | @quoted q text _ hq htext =>
    refine ⟨front ++ [q], q :: rest, by simp, ?_⟩
    rw [size_append, hfront, size, hq.utf8Size_eq, size]
  | @bare c text => exact ⟨front, rest, by simp, hfront⟩

/-- A token takes as many bytes as its width says, unless nothing follows it. -/
theorem Token.Starts.exists_taken (h : token.Starts pos cs rest) :
    ∃ taken, cs = taken ++ rest ∧ (rest ≠ [] → size taken = token.width) := by
  cases h with
  | redirect stream => exact ⟨[stream.operator], rfl, fun _ => stream.utf8Size_operator⟩
  | @unclosed q text => exact ⟨q :: text, by simp, fun hne => absurd rfl hne⟩
  | @quoted q text _ hq htext =>
    refine ⟨q :: (text ++ [q]), by simp, fun _ => ?_⟩
    simp only [size, size_append, hq.utf8Size_eq, Token.width, if_true]
    omega
  | @bare c text => exact ⟨c :: text, rfl, fun _ => rfl⟩

end Starts

/-- Every word of the rest of a line stands in its place. -/
theorem inPlace_scanFrom (front cs : List Char) :
    ∀ token ∈ Token.scanFrom (size front) cs, token.InPlace (front ++ cs) := by
  generalize hpos : size front = pos
  fun_induction Token.scanFrom pos cs generalizing front with
  | case1 => simp
  | case2 pos c rest hblank ih =>
    have hfront : size (front ++ [c]) = pos + 1 := by
      rw [size_append, hpos, size, utf8Size_of_isBlank hblank, size]
    simpa using ih (front ++ [c]) hfront
  | case3 pos c rest hblank ih =>
    have hstarts := starts_first (mt isBlank_iff.2 hblank) pos rest
    obtain ⟨taken, hsplit, hwidth⟩ := hstarts.exists_taken
    intro token htoken
    rcases List.mem_cons.1 htoken with rfl | htoken
    · exact hstarts.inPlace hpos
    · by_cases hrest : (Token.first pos c rest).2 = []
      · rw [hrest, Token.scanFrom] at htoken
        cases htoken
      · have hfront : size (front ++ taken) = pos + (Token.first pos c rest).1.width := by
          rw [size_append, hpos, hwidth hrest]
        have h := ih (front ++ taken) hfront token htoken
        rwa [List.append_assoc, ← hsplit] at h

/-! ## Lexemes -/

def Lexeme.ofToken : Token → Lexeme
  | .redirect stream => .redirect stream
  | .word start text quoted => .word ⟨start, start + size text⟩ quoted
  | .unclosed quote => .unclosed quote

theorem indexed_cons (pos : Nat) (c : Char) (cs : List Char) :
    indexed pos (c :: cs) = (pos, c) :: indexed (pos + c.utf8Size) cs := rfl

namespace Cursor

theorem closing?_indexed {q : Char} {text : List Char} (h : q ∉ text) (pos : Nat) (rest : List Char) :
    closing? q (indexed pos (text ++ q :: rest)) =
      some (pos + size text, indexed (pos + size text + q.utf8Size) rest) := by
  induction text generalizing pos with
  | nil =>
    rw [List.nil_append, indexed_cons, closing?, if_pos rfl]
    rfl
  | cons c text ih =>
    rw [List.mem_cons, not_or] at h
    rw [List.cons_append, indexed_cons, closing?, if_neg (Ne.symm h.1), ih h.2, size, Nat.add_assoc]

theorem closing?_eq_none {q : Char} {text : List Char} (h : q ∉ text) (pos : Nat) :
    closing? q (indexed pos text) = none := by
  induction text generalizing pos with
  | nil => rfl
  | cons c text ih =>
    rw [List.mem_cons, not_or] at h
    rw [indexed_cons, closing?, if_neg (Ne.symm h.1), ih h.2]

theorem quoted?_indexed (q : Char) (pos : Nat) (cs : List Char) : quoted? q (indexed pos cs) =
    (closing? q (indexed pos cs)).map fun found => (⟨pos, found.1⟩, found.2) := by
  cases cs <;> rfl

theorem bareEnd_indexed {text rest : List Char} (htext : ∀ d ∈ text, ¬ Blank [d])
    (hrest : ∀ d ∈ rest.head?, Blank [d]) (pos : Nat) :
    bareEnd (pos + size (text ++ rest)) (indexed pos (text ++ rest)) =
      (pos + size text, indexed (pos + size text) rest) := by
  induction text generalizing pos with
  | nil =>
    cases rest with
    | nil => rfl
    | cons d rest =>
      rw [List.nil_append, indexed_cons, bareEnd, if_pos (isBlank_iff.2 (hrest d rfl))]
      rfl
  | cons c text ih =>
    obtain ⟨hc, htext⟩ := List.forall_mem_cons.1 htext
    rw [List.cons_append, indexed_cons, bareEnd, if_neg (mt isBlank_iff.1 hc), size, ← Nat.add_assoc,
      ih htext, size, Nat.add_assoc]

/-- The first lexeme is that of the first token, and the same characters follow. -/
theorem first_indexed {pos : Nat} {c : Char} {cs rest : List Char} {token : Token}
    (h : token.Starts pos (c :: cs) rest) :
    first (pos + size (c :: cs)) pos c (indexed (pos + c.utf8Size) cs) =
      (.ofToken token, indexed (pos + token.width) rest) := by
  cases h with
  | redirect stream =>
    rw [first, operator?_operator, stream.utf8Size_operator]
    rfl
  | @quoted _ text _ hq htext =>
    have hwidth : pos + (size text + 2) = pos + 1 + size text + 1 := by omega
    rw [first, hq.operator?_eq]
    simp only [isQuote_iff.2 hq, if_true, hq.utf8Size_eq, quoted?_indexed, closing?_indexed htext,
      Option.map_some, Lexeme.ofToken, Token.width, hwidth]
  | unclosed hq htext =>
    rw [first, hq.operator?_eq]
    simp only [isQuote_iff.2 hq, if_true, quoted?_indexed, closing?_eq_none htext, Option.map_none]
    rfl
  | @bare _ text _ hop hq htext hrest =>
    have hend := bareEnd_indexed htext hrest pos
    rw [List.cons_append, indexed_cons] at hend
    rw [first, operator?_eq_none.2 hop]
    simp only [mt isQuote_iff.1 hq, hend, Lexeme.ofToken]
    rfl

/-- The lexemes of the rest of a line are those of its tokens. -/
theorem lexemes_indexed (length pos : Nat) (cs : List Char) (h : cs ≠ [] → length = pos + size cs) :
    lexemes length (indexed pos cs) = (Token.scanFrom pos cs).map .ofToken := by
  -- once nothing is left, `pos` need not be where the line ends: an unclosed quote is counted as one byte
  fun_induction Token.scanFrom pos cs with
  | case1 pos =>
    rw [indexed, lexemes]
    rfl
  | case2 pos c rest hblank ih =>
    have hlength := h (List.cons_ne_nil c rest)
    rw [size, utf8Size_of_isBlank hblank, ← Nat.add_assoc] at hlength
    rw [indexed_cons, lexemes, if_pos hblank, utf8Size_of_isBlank hblank, ih fun _ => hlength]
  | case3 pos c rest hblank ih =>
    have hlength := h (List.cons_ne_nil c rest)
    have hstarts := starts_first (mt isBlank_iff.2 hblank) pos rest
    rw [indexed_cons, lexemes, if_neg hblank, hlength, first_indexed hstarts, ← hlength,
      List.map_cons, ih fun hrest => ?_]
    obtain ⟨taken, hsplit, hwidth⟩ := hstarts.exists_taken
    rw [hlength, hsplit, size_append, hwidth hrest, Nat.add_assoc]

end Cursor

/-- The lexemes of a line are those of its tokens. -/
theorem lexemes_eq (line : String) : lexemes line = (Token.scan line.toList).map .ofToken := by
  rw [lexemes, Cursor.lexemes_indexed, Token.scan]
  intro _
  rw [Utf8.size_toList, Nat.zero_add]

/-! ## Slices -/

/-- A token that stands in its place is taken out of the line. -/
theorem Token.InPlace.token?_eq {line : String} {token : Token} (h : token.InPlace line.toList) :
    (Lexeme.ofToken token).token? line = some token := by
  cases token with
  | redirect stream => rfl
  | unclosed quote => rfl
  | word start text quoted =>
    obtain ⟨front, rest, hline, rfl⟩ := h
    rw [Lexeme.ofToken, Lexeme.token?, Utf8.slice?_eq hline, Option.map_some, String.toList_ofList]

theorem inPlace_scan {line : String} {token : Token} (h : token ∈ Token.scan line.toList) :
    token.InPlace line.toList :=
  inPlace_scanFrom [] line.toList token h

/-- The words of a line lie between boundaries of it. -/
theorem boundaries_of_mem_spans {line : String} {span : Span} (h : span ∈ spans line) :
    span.start ≤ span.stop ∧ span.stop ≤ line.utf8ByteSize ∧
      IsBoundary line span.start ∧ IsBoundary line span.stop := by
  rw [spans, lexemes_eq, List.filterMap_map, List.mem_filterMap] at h
  obtain ⟨token, htoken, hspan⟩ := h
  cases token with
  | redirect stream => cases hspan
  | unclosed quote => cases hspan
  | word start text quoted =>
    cases hspan
    obtain ⟨front, rest, hline, rfl⟩ := inPlace_scan htoken
    obtain ⟨hstart, hstop⟩ := Utf8.boundaries_of_eq_append hline
    exact ⟨Nat.le_add_right _ _, hstop.le, hstart, hstop⟩

theorem collect?_eq {line : String} {tokens : List Token}
    (h : ∀ token ∈ tokens, (Lexeme.ofToken token).token? line = some token) (d : Draft) :
    d.collect? line (tokens.map .ofToken) = some (d.collect tokens) := by
  induction tokens generalizing d with
  | nil => rfl
  | cons token rest ih =>
    obtain ⟨htoken, hrest⟩ := List.forall_mem_cons.1 h
    rw [List.map_cons, Draft.collect?, htoken, Draft.collect]
    cases htake : d.take token with
    | error fault => simp only [htake]
    | ok d' =>
      simp only [htake]
      split
      · rfl
      · exact ih hrest d'

theorem collect?_lexemes (line : String) (d : Draft) :
    d.collect? line (lexemes line) = some (d.collect (Token.scan line.toList)) := by
  rw [lexemes_eq]
  exact collect?_eq (fun token htoken => (inPlace_scan htoken).token?_eq) d

theorem cutBytes?_maxLine (line : String) :
    Utf8.cutBytes? maxLine line = some (String.ofList (significant line)) :=
  Utf8.cutBytes?_eq maxLine line

/-- Reading a line by its bytes takes no part of it that is none, and gives its command. -/
theorem parseBytes?_eq (line : String) : parseBytes? line = some (parse line) := by
  rw [parseBytes?, cutBytes?_maxLine]
  simp only [Option.bind_eq_bind, Option.bind_some, collect?_lexemes, String.toList_ofList, parse]
  cases ({} : Draft).collect (Token.scan (significant line)) <;> rfl

/-- **No character is split.** A text is cut to a number of bytes by going back to the last boundary,
which is found before the first byte is passed: what is left is the longest start of the text that fits, the
whole text if that fits, and else at most three bytes short of the limit. In a line that is cut so, the
words are those of its tokens, and every word lies between two boundaries, in order and within the line; so
no part of it is taken that is none, and reading the line by its bytes gives its command. -/
theorem words_between_boundaries (text : String) (limit : Nat) (line : String) :
    (∃ kept, Utf8.cutBytes? limit text = some kept ∧ kept.toList = Utf8.cut limit text.toList ∧
      Utf8.IsCut limit text.toList kept.toList ∧ IsBoundary text kept.utf8ByteSize ∧
      (∀ i, IsBoundary text i → i ≤ limit → i ≤ kept.utf8ByteSize) ∧
      (text.utf8ByteSize ≤ limit → kept = text) ∧
      (limit < text.utf8ByteSize → Utf8.retreat? text limit = some kept.utf8ByteSize ∧
        limit < kept.utf8ByteSize + 4)) ∧
    (∃ counted, Utf8.cutBytes? maxLine line = some counted ∧ counted.toList = significant line ∧
      lexemes counted = (Token.scan (significant line)).map .ofToken ∧
      ∀ span ∈ spans counted, span.start ≤ span.stop ∧ span.stop ≤ counted.utf8ByteSize ∧
        IsBoundary counted span.start ∧ IsBoundary counted span.stop) ∧
    parseBytes? line = some (parse line) := by
  refine ⟨?_, ⟨_, cutBytes?_maxLine line, String.toList_ofList, ?_,
    fun span => boundaries_of_mem_spans⟩, parseBytes?_eq line⟩
  have hcut := Utf8.isCut_cut limit text.toList
  have hsize := Utf8.size_eq (Utf8.cut limit text.toList)
  refine ⟨_, Utf8.cutBytes?_eq limit text, String.toList_ofList, ?_, ?_, ?_, ?_, ?_⟩
  · rwa [String.toList_ofList]
  · rw [← hsize]
    exact Utf8.isBoundary_cut text limit
  · intro i hi hle
    rw [← hsize]
    exact hi.le_size_cut hle
  · intro hfits
    rw [hcut.eq_of_fits (by rwa [String.ofList_toList]), String.ofList_toList]
  · intro hlimit
    rw [← hsize]
    exact ⟨Utf8.retreat?_eq text limit, Utf8.lt_size_cut hlimit⟩
  · rw [lexemes_eq, String.toList_ofList]

/-- A cut that falls inside a character; and a line with a quoted word, which holds a character of two
bytes. -/
theorem words_between_boundaries_quoted :
    let line := "é 'ü b'>x"
    (2 < "aé".utf8ByteSize ∧ IsBoundary "aé" 1 ∧ ¬ IsBoundary "aé" 2 ∧
      line.utf8ByteSize ≤ maxLine ∧ ⟨4, 8⟩ ∈ spans line) ∧
    (∃ kept, Utf8.cutBytes? 2 "aé" = some kept ∧ 1 ≤ kept.utf8ByteSize ∧
      Utf8.retreat? "aé" 2 = some kept.utf8ByteSize ∧ 2 < kept.utf8ByteSize + 4) ∧
    Utf8.cutBytes? maxLine line = some line ∧
    (4 ≤ 8 ∧ 8 ≤ line.utf8ByteSize ∧ IsBoundary line 4 ∧ IsBoundary line 8) ∧
    parseBytes? line = some (parse line) := by
  intro line
  have hlimit : 2 < "aé".utf8ByteSize := by decide
  have hboundary : IsBoundary "aé" 1 := by decide
  have hfits : line.utf8ByteSize ≤ maxLine := by decide
  have hspan : ⟨4, 8⟩ ∈ spans line := by decide +kernel
  obtain ⟨⟨kept, hkept, -, -, -, hlast, -, hback⟩, -, -⟩ := words_between_boundaries "aé" 2 line
  obtain ⟨⟨whole, hwhole, -, -, -, -, hall, -⟩, ⟨counted, hcounted, -, -, hspans⟩, hparse⟩ :=
    words_between_boundaries line maxLine line
  obtain rfl : whole = line := hall hfits
  obtain rfl : counted = line := Option.some.inj (hcounted.symm.trans hwhole)
  exact ⟨⟨hlimit, hboundary, by decide, hfits, hspan⟩,
    ⟨kept, hkept, hlast 1 hboundary (by decide), hback hlimit⟩, hwhole, hspans ⟨4, 8⟩ hspan, hparse⟩

end JobControl.Command
