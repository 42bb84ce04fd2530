import JobControl.Command.Parse
import JobControl.Proofs.Command.Grammar
import JobControl.Proofs.Text.Slice
import Mathlib.Data.List.Nodup
import Mathlib.Data.List.TakeWhile

/-!
# Reading a command follows the grammar

* `Reads` : taking up the tokens of some characters leads from one draft to another;
* `Draft.ofItems` : the draft after items; `reads_spelled` : reading what spells items leads to it;
* `Means.finish`, `Faulty.outcome`, `Parses.outcome` : what the grammar says of a line is what is read;
* `exists_parses_of_spelled` : the grammar says something of every line;
* `parse_eq_iff` : so a line is read as the grammar says, and as nothing else.
-/

set_option autoImplicit false

namespace JobControl.Command

/-! ## Characters -/

theorem isBlank_iff {c : Char} : isBlank c = true ↔ Blank [c] := by
  simp [isBlank, Blank, or_assoc]

theorem isQuote_iff {c : Char} : isQuote c = true ↔ Quotes c := by
  simp [isQuote, Quotes]

theorem operator?_operator (stream : Stream) : operator? stream.operator = some stream := by
  cases stream <;> rfl

theorem operator?_eq_some {c : Char} {stream : Stream} (h : operator? c = some stream) :
    c = stream.operator := by
  unfold operator? at h
  split at h <;> cases h <;> rfl

theorem operator?_eq_none {c : Char} : operator? c = none ↔ ∀ stream : Stream, c ≠ stream.operator := by
  constructor
  · rintro h stream rfl
    rw [operator?_operator] at h
    cases h
  · intro h
    cases hc : operator? c with
    | none => rfl
    | some stream => exact absurd (operator?_eq_some hc) (h stream)

theorem blank_iff {cs : List Char} : Blank cs ↔ ∀ c ∈ cs, isBlank c = true := by
  simp [isBlank, Blank, or_assoc]

theorem not_isBlank_operator (stream : Stream) : isBlank stream.operator = false := by
  cases stream <;> rfl

theorem Quotes.not_isBlank {q : Char} (h : Quotes q) : isBlank q = false := by
  rcases h with rfl | rfl <;> rfl

theorem Quotes.operator?_eq {q : Char} (h : Quotes q) : operator? q = none := by
  rcases h with rfl | rfl <;> rfl

/-! ## Tokens -/

theorem scanFrom_blank {blanks : List Char} (h : Blank blanks) (pos : Nat) (cs : List Char) :
    ∃ pos', Token.scanFrom pos (blanks ++ cs) = Token.scanFrom pos' cs := by
  induction blanks generalizing pos with
  | nil => exact ⟨pos, rfl⟩
  | cons c blanks ih =>
    rw [blank_iff] at h
    obtain ⟨pos', hpos⟩ :=
      ih (blank_iff.2 fun d hd => h d (List.mem_cons_of_mem c hd)) (pos + 1)
    refine ⟨pos', ?_⟩
    rw [List.cons_append, Token.scanFrom, if_pos (h c List.mem_cons_self), hpos]

theorem first_operator (pos : Nat) (stream : Stream) (rest : List Char) :
    Token.first pos stream.operator rest = (.redirect stream, rest) := by
  simp [Token.first, operator?_operator]

theorem scanFrom_operator (pos : Nat) (stream : Stream) (rest : List Char) :
    Token.scanFrom pos (stream.operator :: rest) =
      .redirect stream :: Token.scanFrom (pos + 1) rest := by
  rw [Token.scanFrom, not_isBlank_operator, if_neg Bool.false_ne_true, first_operator]
  rfl

theorem first_unclosed {q : Char} {text : List Char} (hq : Quotes q) (h : q ∉ text) (pos : Nat) :
    Token.first pos q text = (.unclosed q, []) := by
  have hdrop : text.dropWhile (· != q) = [] := by
    rw [List.dropWhile_eq_nil_iff]
    rintro c hc
    simpa using fun he : c = q => h (he ▸ hc)
  simp [Token.first, hq.operator?_eq, isQuote_iff.2 hq, hdrop]

/-- An unclosed quote is the last token. -/
theorem scanFrom_unclosed {q : Char} {text : List Char} (hq : Quotes q) (h : q ∉ text) (pos : Nat) :
    Token.scanFrom pos (q :: text) = [.unclosed q] := by
  rw [Token.scanFrom, hq.not_isBlank, if_neg Bool.false_ne_true, first_unclosed hq h, Token.scanFrom]

theorem first_quoted {q : Char} {text : List Char} (hq : Quotes q) (h : q ∉ text) (pos : Nat)
    (rest : List Char) : Token.first pos q (text ++ q :: rest) = (.word (pos + 1) text true, rest) := by
  have hne : ∀ c ∈ text, (c != q) = true := by
    intro c hc
    simpa using fun he : c = q => h (he ▸ hc)
  simp [Token.first, hq.operator?_eq, isQuote_iff.2 hq, List.takeWhile_append_of_pos hne,
    List.dropWhile_append_of_pos hne]

theorem first_bare {c : Char} {text rest : List Char}
    (hop : ∀ stream : Stream, c ≠ stream.operator) (hq : ¬ Quotes c)
    (htext : ∀ d ∈ text, ¬ Blank [d]) (hrest : ∀ d ∈ rest.head?, Blank [d]) (pos : Nat) :
    Token.first pos c (text ++ rest) = (.word pos (c :: text) false, rest) := by
  have hne : ∀ d ∈ text, (!isBlank d) = true := by
    intro d hd
    simpa using fun hb => htext d hd (isBlank_iff.1 hb)
  have hstop : rest.takeWhile (!isBlank ·) = [] ∧ rest.dropWhile (!isBlank ·) = rest := by
    cases rest with
    | nil => exact ⟨rfl, rfl⟩
    | cons d rest => simp [isBlank_iff.2 (hrest d rfl)]
  simp [Token.first, operator?_eq_none.2 hop, mt isQuote_iff.1 hq,
    List.takeWhile_append_of_pos hne, List.dropWhile_append_of_pos hne, hstop]

/-- The characters of a word are scanned as one. -/
theorem Word.scanFrom {word : String} {cs rest : List Char} (h : Word word cs rest) (pos : Nat) :
    ∃ start text quoted pos', String.ofList text = word ∧
      Token.scanFrom pos cs = .word start text quoted :: Token.scanFrom pos' rest := by
  cases h with
  | @quoted q text rest hq htext =>
    refine ⟨pos + 1, text, true, pos + (Token.word (pos + 1) text true).width, rfl, ?_⟩
    rw [List.cons_append, Token.scanFrom, hq.not_isBlank, if_neg Bool.false_ne_true,
      first_quoted hq htext]
  | @bare c text rest hop hq htext hrest =>
    have hc : isBlank c = false := by
      simpa using fun hb => htext c List.mem_cons_self (isBlank_iff.1 hb)
    refine ⟨pos, c :: text, false, pos + (Token.word pos (c :: text) false).width, rfl, ?_⟩
    rw [List.cons_append, Token.scanFrom, hc, if_neg Bool.false_ne_true,
      first_bare hop hq (fun d hd => htext d (List.mem_cons_of_mem c hd)) hrest]

/-! ## Drafts -/

namespace Draft

def put (d : Draft) (word : String) : Draft :=
  match d.awaiting with
  | none => { d with argv := d.argv ++ [word] }
  | some .input => { d with input := some word, awaiting := none }
  | some .output => { d with output := some word, awaiting := none }

theorem take_word (d : Draft) (start : Nat) (text : List Char) (quoted : Bool) :
    d.take (.word start text quoted) = .ok (d.put (String.ofList text)) := by
  unfold take put
  cases d.awaiting with
  | none => rfl
  | some stream => cases stream <;> rfl

theorem isComplete_eq_false_iff {d : Draft} :
    d.isComplete = false ↔ d.argv.length < maxArgs - 1 := by
  rw [isComplete, decide_eq_false_iff_not, Nat.not_le]

def ofItems (items : List Item) : Draft :=
  { argv := arguments items, input := target? items .input, output := target? items .output }

end Draft

/-- Taking up the tokens of `cs` with the draft `d` goes on with `d'` and the tokens of `rest`. -/
def Reads (d : Draft) (cs : List Char) (d' : Draft) (rest : List Char) : Prop :=
  ∀ pos, ∃ pos', d.collect (Token.scanFrom pos cs) = d'.collect (Token.scanFrom pos' rest)

theorem Reads.refl (d : Draft) (cs : List Char) : Reads d cs d cs := fun pos => ⟨pos, rfl⟩

theorem Reads.trans {d d' d'' : Draft} {cs mid rest : List Char} (h : Reads d cs d' mid)
    (h' : Reads d' mid d'' rest) : Reads d cs d'' rest := by
  intro pos
  obtain ⟨pos', hpos⟩ := h pos
  obtain ⟨pos'', hpos'⟩ := h' pos'
  exact ⟨pos'', hpos.trans hpos'⟩

theorem reads_blank {blanks : List Char} (h : Blank blanks) (d : Draft) (cs : List Char) :
    Reads d (blanks ++ cs) d cs := by
  intro pos
  obtain ⟨pos', hpos⟩ := scanFrom_blank h pos cs
  exact ⟨pos', by rw [hpos]⟩

theorem reads_word {word : String} {cs rest : List Char} (h : Word word cs rest) {d : Draft}
    (hd : (d.put word).isComplete = false) : Reads d cs (d.put word) rest := by
  intro pos
  obtain ⟨start, text, quoted, pos', rfl, hscan⟩ := h.scanFrom pos
  refine ⟨pos', ?_⟩
  rw [hscan, Draft.collect, Draft.take_word]
  simp [hd]

theorem collect_word_complete {word : String} {cs rest : List Char} (h : Word word cs rest)
    {d : Draft} (hd : (d.put word).isComplete = true) (pos : Nat) :
    d.collect (Token.scanFrom pos cs) = .ok (d.put word) := by
  obtain ⟨start, text, quoted, pos', rfl, hscan⟩ := h.scanFrom pos
  rw [hscan, Draft.collect, Draft.take_word]
  simp [hd]

theorem collect_unclosed {q : Char} {text : List Char} (hq : Quotes q) (h : q ∉ text) (d : Draft)
    (pos : Nat) : d.collect (Token.scanFrom pos (q :: text)) = .error (.unmatchedQuote q) := by
  rw [scanFrom_unclosed hq h]
  rfl

/-! ## Items -/

theorem target?_eq_none {items : List Item} {stream : Stream} :
    target? items stream = none ↔ stream ∉ streams items := by
  simp only [target?, streams, List.findSome?_eq_none_iff, List.mem_filterMap, not_exists, not_and]
  refine forall₂_congr fun item _ => ?_
  cases item with
  | argument word => simp [Item.target?, Item.stream?]
  | redirection s target => simp [Item.target?, Item.stream?]

theorem target?_redirection {items : List Item} {stream : Stream} (fresh : stream ∉ streams items)
    (word : String) (stream' : Stream) :
    target? (items ++ [.redirection stream word]) stream' =
      if stream = stream' then some word else target? items stream' := by
  have happend : target? (items ++ [.redirection stream word]) stream' =
      (target? items stream').or (if stream = stream' then some word else none) := by
    simp [target?, Item.target?]
  rw [happend]
  split
  · next he =>
    subst he
    rw [target?_eq_none.2 fresh]
    rfl
  · exact Option.or_none

theorem ofItems_put (items : List Item) (word : String) :
    (Draft.ofItems items).put word = .ofItems (items ++ [.argument word]) := by
  simp [Draft.ofItems, Draft.put, arguments, target?, Item.argument?, Item.target?]

def Draft.expecting (items : List Item) (stream : Stream) : Draft :=
  { Draft.ofItems items with awaiting := some stream }

theorem expecting_put {items : List Item} {stream : Stream} (fresh : stream ∉ streams items)
    (word : String) :
    (Draft.expecting items stream).put word = .ofItems (items ++ [.redirection stream word]) := by
  have htargets := target?_redirection fresh word
  cases stream <;>
    simp [Draft.expecting, Draft.ofItems, Draft.put, arguments, Item.argument?, htargets]

theorem isComplete_ofItems {items : List Item} :
    (Draft.ofItems items).isComplete = false ↔ (arguments items).length < maxArgs - 1 :=
  Draft.isComplete_eq_false_iff

theorem length_arguments_le (items items' : List Item) :
    (arguments items).length ≤ (arguments (items ++ items')).length := by
  simp [arguments]

theorem streams_append (items items' : List Item) :
    streams (items ++ items') = streams items ++ streams items' := by
  simp [streams]

theorem take_operator {items : List Item} {stream : Stream} (fresh : stream ∉ streams items) :
    (Draft.ofItems items).take (.redirect stream) = .ok (.expecting items stream) := by
  have hnone : (Draft.ofItems items).target stream = none := by
    rw [← target?_eq_none] at fresh
    cases stream <;> exact fresh
  rw [Draft.take, hnone]
  rfl

theorem reads_operator {items : List Item} {stream : Stream} (fresh : stream ∉ streams items)
    (room : (arguments items).length < maxArgs - 1) (rest : List Char) :
    Reads (.ofItems items) (stream.operator :: rest) (.expecting items stream) rest := by
  intro pos
  have hcomplete : (Draft.expecting items stream).isComplete = false := isComplete_ofItems.2 room
  refine ⟨pos + 1, ?_⟩
  rw [scanFrom_operator, Draft.collect, take_operator fresh]
  simp [hcomplete]

theorem Spelled.of_append {items items' : List Item} {cs rest : List Char}
    (h : Spelled (items ++ items') cs rest) :
    ∃ mid, Spelled items cs mid ∧ Spelled items' mid rest := by
  induction items generalizing cs with
  | nil => exact ⟨cs, .nil cs, h⟩
  | cons item items ih =>
    cases h with
    | argument hblanks hword h =>
      obtain ⟨mid, hitems, hrest⟩ := ih h
      exact ⟨mid, .argument hblanks hword hitems, hrest⟩
    | redirection hblanks hblanks' hword h =>
      obtain ⟨mid, hitems, hrest⟩ := ih h
      exact ⟨mid, .redirection hblanks hblanks' hword hitems, hrest⟩

theorem Spelled.append {items items' : List Item} {cs mid rest : List Char}
    (h : Spelled items cs mid) (h' : Spelled items' mid rest) :
    Spelled (items ++ items') cs rest := by
  induction h with
  | nil => exact h'
  | argument hblanks hword _ ih => exact .argument hblanks hword (ih h')
  | redirection hblanks hblanks' hword _ ih => exact .redirection hblanks hblanks' hword (ih h')

/-- Reading what spells items takes them up. -/
theorem reads_spelled {items done : List Item} {cs rest : List Char} (h : Spelled items cs rest)
    (nodup : (streams (done ++ items)).Nodup)
    (room : (arguments (done ++ items)).length < maxArgs - 1) :
    Reads (.ofItems done) cs (.ofItems (done ++ items)) rest := by
  induction h generalizing done with
  | nil rest =>
    rw [List.append_nil]
    exact .refl _ _
  | @argument blanks cs mid rest word items hblanks hword _ ih =>
    rw [List.append_cons done] at nodup room ⊢
    have hroom := Nat.lt_of_le_of_lt (length_arguments_le _ items) room
    have hput := reads_word hword (d := .ofItems done)
      (by rw [ofItems_put]; exact isComplete_ofItems.2 hroom)
    rw [ofItems_put] at hput
    exact (reads_blank hblanks _ _).trans (hput.trans (ih nodup room))
  | @redirection blanks blanks' cs mid rest stream word items hblanks hblanks' hword _ ih =>
    rw [List.append_cons done] at nodup room ⊢
    have fresh : stream ∉ streams done := by
      rw [streams_append, streams_append] at nodup
      intro hmem
      exact (List.nodup_append.1 (List.nodup_append.1 nodup).1).2.2 stream hmem stream
        List.mem_cons_self rfl
    have hroom := Nat.lt_of_le_of_lt (length_arguments_le _ items) room
    have hbefore := Nat.lt_of_le_of_lt (length_arguments_le done _) hroom
    have hput := reads_word hword (d := .expecting done stream)
      (by rw [expecting_put fresh]; exact isComplete_ofItems.2 hroom)
    rw [expecting_put fresh] at hput
    exact (reads_blank hblanks _ _).trans <| (reads_operator fresh hbefore _).trans <|
      (reads_blank hblanks' _ _).trans <| hput.trans (ih nodup room)

theorem Spelled.reads {items : List Item} {cs rest : List Char} (h : Spelled items cs rest)
    (nodup : (streams items).Nodup) (room : (arguments items).length < maxArgs - 1) :
    Reads (.ofItems []) cs (.ofItems items) rest :=
  reads_spelled h nodup room

/-! ## Lines -/

theorem marks_iff {word : String} : word.toList.head? = some '&' ↔ Marks word := by
  simp [Marks, List.head?_eq_some_iff]

theorem isMarked_ofItems {items : List Item} {words : List String} {last : String}
    (h : arguments items = words ++ [last]) :
    (Draft.ofItems items).isMarked = true ↔ Marks last := by
  rw [← marks_iff]
  simp [Draft.isMarked, Draft.ofItems, h]

/-- What is left to do with items is what they mean. -/
theorem Means.finish {items : List Item} {command : Option Command} (h : Means items command) :
    (Draft.ofItems items).finish = .ok command := by
  have hawaiting : (Draft.ofItems items).awaiting = none := rfl
  have hargv : (Draft.ofItems items).argv = arguments items := rfl
  have hinput : (Draft.ofItems items).input = target? items .input := rfl
  have houtput : (Draft.ofItems items).output = target? items .output := rfl
  cases h with
  | nothing hwords => simp [Draft.finish, Draft.isMarked, hawaiting, hargv, hwords]
  | onlyMark hwords hmark =>
    have hmarked := (isMarked_ofItems (hwords.trans (List.nil_append _).symm)).2 hmark
    simp [Draft.finish, hawaiting, hargv, hmarked, hwords]
  | foreground hwords hlast hmark =>
    obtain ⟨front, hfront⟩ := List.getLast?_eq_some_iff.1 hlast
    have hmarked : (Draft.ofItems items).isMarked = false := by
      rw [Bool.eq_false_iff, ne_eq, isMarked_ofItems (hwords.trans hfront)]
      exact hmark
    simp [Draft.finish, hawaiting, hargv, hinput, houtput, hmarked, hwords]
  | @background word mark words hwords hmark =>
    have hmarked := (isMarked_ofItems hwords).2 hmark
    have hrest : (word :: (words ++ [mark])).dropLast = word :: words := by
      rw [← List.cons_append, List.dropLast_concat]
    simp [Draft.finish, hawaiting, hargv, hinput, houtput, hmarked, hwords, hrest]

theorem exists_means (items : List Item) : ∃ command, Means items command := by
  cases hwords : arguments items with
  | nil => exact ⟨_, .nothing hwords⟩
  | cons word words =>
    obtain ⟨front, last, hlast⟩ := (List.eq_nil_or_concat' (word :: words)).resolve_left nofun
    by_cases hmark : Marks last
    · cases front with
      | nil => exact ⟨_, .onlyMark (hwords.trans hlast) hmark⟩
      | cons w front => exact ⟨_, .background (hwords.trans hlast) hmark⟩
    · exact ⟨_, .foreground hwords (List.getLast?_eq_some_iff.2 ⟨front, hlast⟩) hmark⟩

/-- What becomes of a draft with tokens to come. -/
def Draft.outcome (d : Draft) (tokens : List Token) : Except Fault (Option Command) :=
  match d.collect tokens with
  | .error fault => .error fault
  | .ok draft => draft.finish

theorem outcome_of_collect {d : Draft} {tokens : List Token} {fault : Fault}
    (h : d.collect tokens = .error fault) : d.outcome tokens = .error fault := by
  rw [Draft.outcome, h]

theorem Reads.outcome {d d' : Draft} {cs rest : List Char} (h : Reads d cs d' rest) (pos : Nat) :
    ∃ pos', d.outcome (Token.scanFrom pos cs) = d'.outcome (Token.scanFrom pos' rest) := by
  obtain ⟨pos', hpos⟩ := h pos
  exact ⟨pos', by rw [Draft.outcome, Draft.outcome, hpos]⟩

/-- An operator is no place for one of a stream that is redirected already. -/
theorem collect_again {items : List Item} {stream : Stream} (taken : stream ∈ streams items)
    (rest : List Char) (pos : Nat) :
    (Draft.ofItems items).collect (Token.scanFrom pos (stream.operator :: rest)) =
      .error .ambiguousRedirection := by
  have hsome : ((Draft.ofItems items).target stream).isSome := by
    rw [Option.isSome_iff_ne_none]
    have hne := mt target?_eq_none.1 (not_not.2 taken)
    cases stream <;> exact hne
  rw [scanFrom_operator, Draft.collect, Draft.take, if_pos (.inl hsome)]

/-- Nor is the place of a target. -/
theorem collect_doubled (items : List Item) (stream stream' : Stream) (rest : List Char)
    (pos : Nat) :
    (Draft.expecting items stream).collect (Token.scanFrom pos (stream'.operator :: rest)) =
      .error .ambiguousRedirection := by
  rw [scanFrom_operator, Draft.collect, Draft.take, if_pos (.inr rfl)]

/-- After items, a fault is what the line ends in. -/
theorem Faulty.outcome {items : List Item} {cs : List Char} {fault : Fault}
    (h : Faulty (streams items) cs fault) (room : (arguments items).length < maxArgs - 1)
    (pos : Nat) : (Draft.ofItems items).outcome (Token.scanFrom pos cs) = .error fault := by
  have expects {blanks blanks' mid : List Char} {stream : Stream} (hblanks : Blank blanks)
      (fresh : stream ∉ streams items) (hblanks' : Blank blanks') :
      Reads (.ofItems items) (blanks ++ stream.operator :: (blanks' ++ mid))
        (.expecting items stream) mid :=
    (reads_blank hblanks _ _).trans <| (reads_operator fresh room _).trans (reads_blank hblanks' _ _)
  cases h with
  | again hblanks taken =>
    obtain ⟨pos', hpos⟩ := (reads_blank hblanks _ _).outcome pos
    rw [hpos, outcome_of_collect (collect_again taken _ pos')]
  | doubled hblanks fresh hblanks' =>
    obtain ⟨pos', hpos⟩ := (expects hblanks fresh hblanks').outcome pos
    rw [hpos, outcome_of_collect (collect_doubled items _ _ _ pos')]
  | unmatched hblanks hq htext =>
    obtain ⟨pos', hpos⟩ := (reads_blank hblanks _ _).outcome pos
    rw [hpos, outcome_of_collect (collect_unclosed hq htext _ pos')]
  | unmatchedTarget hblanks fresh hblanks' hq htext =>
    obtain ⟨pos', hpos⟩ := (expects hblanks fresh hblanks').outcome pos
    rw [hpos, outcome_of_collect (collect_unclosed hq htext _ pos')]
  | @missing blanks blanks' stream hblanks fresh hblanks' =>
    have hreads : Reads (.ofItems items) (blanks ++ stream.operator :: (blanks' ++ []))
        (.expecting items stream) [] := expects hblanks fresh hblanks'
    rw [List.append_nil] at hreads
    obtain ⟨pos', hpos⟩ := hreads.outcome pos
    rw [hpos, Token.scanFrom]
    rfl

/-- What the grammar says of a line is what is read. -/
theorem Parses.outcome {cs : List Char} {r : Except Fault (Option Command)} (h : Parses cs r) :
    (Draft.ofItems []).outcome (Token.scanFrom 0 cs) = r := by
  cases h with
  | @ended items rest command hspelled nodup room hblank hmeans =>
    have hend : Reads (.ofItems items) rest (.ofItems items) [] := by
      simpa using reads_blank hblank (.ofItems items) []
    obtain ⟨pos, hpos⟩ := ((hspelled.reads nodup room).trans hend).outcome 0
    rw [hpos, Token.scanFrom]
    exact hmeans.finish
  | @full items word rest command hspelled nodup hcount hmeans =>
    obtain ⟨mid, hitems, hlast⟩ := hspelled.of_append
    cases hlast with
    | @argument blanks ws after _ _ _ hblanks hword _ =>
      have hreads := (hitems.reads nodup (by omega)).trans (reads_blank hblanks _ ws)
      obtain ⟨pos, hpos⟩ := hreads.outcome 0
      have hcomplete : ((Draft.ofItems items).put word).isComplete = true := by
        rw [ofItems_put, Draft.isComplete, decide_eq_true_iff, ← hcount]
        simp [Draft.ofItems, arguments, Item.argument?]
      rw [hpos, Draft.outcome, collect_word_complete hword hcomplete, ofItems_put]
      exact hmeans.finish
  | @fault items rest fault hspelled nodup room hfault =>
    obtain ⟨pos, hpos⟩ := (hspelled.reads nodup room).outcome 0
    rw [hpos]
    exact hfault.outcome room pos

/-- A line that fits is read as the grammar says of the whole of it. -/
theorem Parses.parse_eq {line : String} {r : Except Fault (Option Command)}
    (h : Parses line.toList r) (fits : line.utf8ByteSize ≤ maxLine) : parse line = r := by
  have hsignificant : significant line = line.toList :=
    (Utf8.isCut_cut maxLine line.toList).eq_of_fits (by rwa [String.ofList_toList])
  rw [← hsignificant] at h
  exact h.outcome

/-! ## Every line -/

/-- Where no blank and no operator is, a word begins, or a quotation that is never closed. -/
theorem exists_word {c : Char} (hblank : ¬ Blank [c]) (hop : ∀ stream : Stream, c ≠ stream.operator)
    (cs : List Char) :
    (∃ word rest, Word word (c :: cs) rest ∧ rest.length ≤ cs.length) ∨ Quotes c ∧ c ∉ cs := by
  by_cases hq : Quotes c
  · by_cases hc : c ∈ cs
    · obtain ⟨text, rest, hcs, htext⟩ := List.eq_append_cons_of_mem hc
      have hword : Word (String.ofList text) (c :: text ++ c :: rest) rest := .quoted hq htext
      rw [List.cons_append, ← hcs] at hword
      refine .inl ⟨_, rest, hword, ?_⟩
      simp [hcs]
      omega
    · exact .inr ⟨hq, hc⟩
  · have hsplit : cs = cs.takeWhile (!isBlank ·) ++ cs.dropWhile (!isBlank ·) :=
      List.takeWhile_append_dropWhile.symm
    have hword : Word (String.ofList (c :: cs.takeWhile (!isBlank ·)))
        (c :: cs.takeWhile (!isBlank ·) ++ cs.dropWhile (!isBlank ·))
        (cs.dropWhile (!isBlank ·)) := by
      refine .bare hop hq ?_ ?_
      · intro d hd
        rcases List.mem_cons.1 hd with rfl | hd
        · exact hblank
        · simpa [← isBlank_iff] using List.mem_takeWhile_imp hd
      · intro d hd
        have hstop := List.head?_dropWhile_not (!isBlank ·) cs
        rw [Option.mem_def.1 hd] at hstop
        simpa [← isBlank_iff] using hstop
    rw [List.cons_append, ← hsplit] at hword
    exact .inl ⟨_, _, hword, (cs.dropWhile_sublist _).length_le⟩

/-- What the characters begin with after their blanks: nothing, an operator, a word or a quotation
that is never closed. -/
theorem exists_next (cs : List Char) : ∃ blanks rest, cs = blanks ++ rest ∧ Blank blanks ∧
    (rest = [] ∨
      (∃ (stream : Stream) (after : List Char), rest = stream.operator :: after) ∨
      (∃ word after, Word word rest after ∧ after.length < rest.length) ∨
      ∃ q text, rest = q :: text ∧ Quotes q ∧ q ∉ text) := by
  refine ⟨cs.takeWhile isBlank, cs.dropWhile isBlank, List.takeWhile_append_dropWhile.symm,
    blank_iff.2 fun c hc => List.mem_takeWhile_imp hc, ?_⟩
  have hstop := List.head?_dropWhile_not isBlank cs
  cases hrest : cs.dropWhile isBlank with
  | nil => exact .inl rfl
  | cons c rest =>
    have hblank : ¬ Blank [c] := by simpa [hrest, ← isBlank_iff] using hstop
    by_cases hop : ∀ stream : Stream, c ≠ stream.operator
    · rcases exists_word hblank hop rest with ⟨word, after, hword, hle⟩ | ⟨hq, hc⟩
      · exact .inr (.inr (.inl ⟨word, after, hword, Nat.lt_succ_of_le hle⟩))
      · exact .inr (.inr (.inr ⟨c, rest, rfl, hq, hc⟩))
    · obtain ⟨stream, rfl⟩ : ∃ stream : Stream, c = stream.operator := by simpa using hop
      exact .inr (.inl ⟨stream, rest, rfl⟩)

theorem arguments_concat (items : List Item) (word : String) :
    arguments (items ++ [.argument word]) = arguments items ++ [word] := by
  simp [arguments, Item.argument?]

theorem streams_concat (items : List Item) (stream : Stream) (target : String) :
    streams (items ++ [.redirection stream target]) = streams items ++ [stream] := by
  simp [streams, Item.stream?]

/-- Whatever follows items, the grammar says what the line is read as. -/
theorem exists_parses_of_spelled {items : List Item} {line cs : List Char}
    (h : Spelled items line cs) (nodup : (streams items).Nodup)
    (room : (arguments items).length < maxArgs - 1) : ∃ r, Parses line r := by
  obtain ⟨blanks, rest, rfl, hblanks, hnext⟩ := exists_next cs
  rcases hnext with rfl | ⟨stream, after, rfl⟩ | ⟨word, after, hword, hlt⟩ | ⟨q, text, rfl, hq, htext⟩
  · obtain ⟨command, hmeans⟩ := exists_means items
    exact ⟨_, .ended h nodup room (by simpa using hblanks) hmeans⟩
  · by_cases taken : stream ∈ streams items
    · exact ⟨_, .fault h nodup room (.again hblanks taken)⟩
    · obtain ⟨blanks', rest', rfl, hblanks', hnext'⟩ := exists_next after
      rcases hnext' with
        rfl | ⟨stream', after', rfl⟩ | ⟨word, after', hword, hlt⟩ | ⟨q, text, rfl, hq, htext⟩
      · exact ⟨_, .fault h nodup room (by simpa using .missing hblanks taken hblanks')⟩
      · exact ⟨_, .fault h nodup room (.doubled hblanks taken hblanks')⟩
      · have nodup' : (streams (items ++ [.redirection stream word])).Nodup := by
          rw [streams_concat, List.nodup_append_comm]
          exact List.nodup_cons.2 ⟨taken, nodup⟩
        have room' : (arguments (items ++ [.redirection stream word])).length < maxArgs - 1 := by
          simpa [arguments, List.filterMap_cons, Item.argument?] using room
        exact exists_parses_of_spelled
          (h.append (.redirection hblanks hblanks' hword (.nil after'))) nodup' room'
      · exact ⟨_, .fault h nodup room (.unmatchedTarget hblanks taken hblanks' hq htext)⟩
  · have hspelled := h.append (.argument hblanks hword (.nil after))
    rcases Nat.lt_or_ge ((arguments items).length + 1) (maxArgs - 1) with hroom | hfull
    · have nodup' : (streams (items ++ [.argument word])).Nodup := by
        simpa [streams, List.filterMap_cons, Item.stream?] using nodup
      have room' : (arguments (items ++ [.argument word])).length < maxArgs - 1 := by
        rwa [arguments_concat, List.length_append]
      exact exists_parses_of_spelled hspelled nodup' room'
    · obtain ⟨command, hmeans⟩ := exists_means (items ++ [.argument word])
      exact ⟨_, .full hspelled nodup (Nat.le_antisymm room hfull) hmeans⟩
  · exact ⟨_, .fault h nodup room (.unmatched hblanks hq htext)⟩
  termination_by cs.length
  decreasing_by all_goals simp_all; omega

/-- A line is read as the grammar says of its longest part that fits, and as nothing else. -/
theorem parse_eq_iff (line : String) :
    ∃ cs, Utf8.IsCut maxLine line.toList cs ∧ ∀ r, parse line = r ↔ Parses cs r := by
  refine ⟨significant line, Utf8.isCut_cut maxLine line.toList, fun r => ⟨?_, ?_⟩⟩
  · rintro rfl
    obtain ⟨r, hr⟩ := exists_parses_of_spelled (.nil (significant line)) (by simp [streams])
      (by decide)
    have hparse : parse line = r := hr.outcome
    exact hparse ▸ hr
  · intro hr
    exact hr.outcome

end JobControl.Command
