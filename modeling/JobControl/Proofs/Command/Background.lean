import JobControl.Proofs.Command.Parse

/-!
# Which lines are background commands

* `Argument`, `Token.arguments?` : the arguments of a whole line, with the way they are written, if no
  token of the line is at fault;
* `Draft.collect_arguments` : collecting keeps as many of them as an argument vector holds;
* `exists_parse_eq` : a line without faults is read up to the last argument that is kept;
* `background_iff` : that argument decides whether the command runs in the background.
-/

set_option autoImplicit false

namespace JobControl.Command

/-! ## The arguments of a line -/

/-- An argument of a line, and whether it is written in quotes. -/
structure Argument where
  word : String
  quoted : Bool
  deriving DecidableEq, Repr

/-- The arguments among tokens that follow redirections of the streams `taken`; none if a stream is
redirected again, an operator has no target or a quote no partner. -/
def Token.arguments? (taken : List Stream) : List Token → Option (List Argument)
  | [] => some []
  | .word _ text quoted :: rest => (arguments? taken rest).map (⟨String.ofList text, quoted⟩ :: ·)
  | .redirect stream :: .word _ _ _ :: rest =>
    if stream ∈ taken then none else arguments? (stream :: taken) rest
  | _ => none

namespace Draft

structure Redirects (d : Draft) (taken : List Stream) : Prop where
  awaiting : d.awaiting = none
  target (stream : Stream) : (d.target stream).isSome ↔ stream ∈ taken

variable {d : Draft} {taken : List Stream}

theorem Redirects.take_word (h : d.Redirects taken) (start : Nat) (text : List Char)
    (quoted : Bool) :
    d.take (.word start text quoted) = .ok { d with argv := d.argv ++ [String.ofList text] } := by
  rw [Draft.take_word, put, h.awaiting]

/-- An operator and its target leave the arguments as they are. -/
theorem Redirects.collect_redirect (h : d.Redirects taken) {stream : Stream} (fresh : stream ∉ taken)
    (room : d.argv.length < maxArgs - 1) (start : Nat) (text : List Char) (quoted : Bool)
    (rest : List Token) :
    ∃ d' : Draft, d.collect (.redirect stream :: .word start text quoted :: rest) = d'.collect rest ∧
      d'.Redirects (stream :: taken) ∧ d'.argv = d.argv := by
  have htake : d.take (.redirect stream) = .ok { d with awaiting := some stream } := by
    rw [take, if_neg]
    rintro (hsome | hsome)
    · exact fresh ((h.target stream).1 hsome)
    · simp [h.awaiting] at hsome
  have hopen : d.isComplete = false := isComplete_eq_false_iff.2 room
  have hwaiting : ({ d with awaiting := some stream } : Draft).isComplete = false := hopen
  have hargv : (({ d with awaiting := some stream } : Draft).put (String.ofList text)).argv =
      d.argv := by
    cases stream <;> rfl
  have hput : (({ d with awaiting := some stream } : Draft).put
      (String.ofList text)).isComplete = false := by
    rwa [isComplete_eq_false_iff, hargv]
  refine ⟨({ d with awaiting := some stream } : Draft).put (String.ofList text), ?_, ⟨?_, ?_⟩,
    hargv⟩
  · simp [collect, htake, Draft.take_word, hwaiting, hput]
  · cases stream <;> rfl
  · intro other
    have hother := h.target other
    cases stream <;> cases other <;> simp_all [put, Draft.target]

/-- Where no token is at fault, the draft ends up with as many arguments as there is room for. -/
theorem collect_arguments {tokens : List Token} {args : List Argument}
    (faultless : Token.arguments? taken tokens = some args) (redirects : d.Redirects taken)
    (room : d.argv.length < maxArgs - 1) :
    ∃ d' : Draft, d.collect tokens = .ok d' ∧ d'.awaiting = none ∧
      d'.argv = d.argv ++ (args.take (maxArgs - 1 - d.argv.length)).map Argument.word := by
  fun_induction Token.arguments? taken tokens generalizing d args with
  | case1 taken =>
    cases faultless
    exact ⟨d, rfl, redirects.awaiting, by simp⟩
  | case2 taken start text quoted rest ih =>
    obtain ⟨args, hrest, rfl⟩ := Option.map_eq_some_iff.1 faultless
    rcases Nat.lt_or_ge (d.argv.length + 1) (maxArgs - 1) with more | full
    · have hnext : ({ d with argv := d.argv ++ [String.ofList text] } : Draft).isComplete = false := by
        simpa [isComplete_eq_false_iff] using more
      obtain ⟨d', hcollect, hawaiting, hargv⟩ := ih
        (d := { d with argv := d.argv ++ [String.ofList text] }) hrest
        ⟨redirects.awaiting, redirects.target⟩ (by simpa using more)
      have htake : maxArgs - 1 - d.argv.length = maxArgs - 1 - (d.argv.length + 1) + 1 := by omega
      refine ⟨d', ?_, hawaiting, ?_⟩
      · simp [collect, redirects.take_word, hnext, hcollect]
      · simp [hargv, htake]
    · have hlast : ({ d with argv := d.argv ++ [String.ofList text] } : Draft).isComplete = true := by
        simpa [isComplete] using full
      have htake : maxArgs - 1 - d.argv.length = 1 := by omega
      refine ⟨{ d with argv := d.argv ++ [String.ofList text] }, ?_, redirects.awaiting, ?_⟩
      · simp [collect, redirects.take_word, hlast]
      · simp [htake]
  | case3 taken stream start text quoted rest again => cases faultless
  | case4 taken stream start text quoted rest fresh ih =>
    obtain ⟨next, hcollect, hnext, hargv⟩ :=
      redirects.collect_redirect fresh room start text quoted rest
    rw [hcollect, ← hargv]
    exact ih faultless hnext (by rwa [hargv])
  | case5 => cases faultless

/-- The command of a draft whose last word is no marker, or not its only one. -/
theorem finish_eq {words : List String} {last : String} (hawaiting : d.awaiting = none)
    (hargv : d.argv = words ++ [last]) (runs : Marks last → words ≠ []) :
    ∃ command, d.finish = .ok (some command) ∧ (command.background = true ↔ Marks last) ∧
      command.argv = if command.background then words else words ++ [last] := by
  have hmarked : d.isMarked = true ↔ Marks last := by
    rw [← marks_iff]
    simp [isMarked, hargv]
  cases hm : d.isMarked with
  | true =>
    have hwords : words.isEmpty = false := by simpa using runs (hmarked.1 hm)
    refine ⟨_, by simp [finish, hawaiting, hm, hargv, hwords]; rfl, ?_, ?_⟩
    · simpa [hm] using hmarked
    · simp
  | false =>
    refine ⟨_, by simp [finish, hawaiting, hm, hargv]; rfl, ?_, ?_⟩
    · simpa [hm] using hmarked
    · simp

end Draft

/-! ## The marker -/

variable {line : String} {args before : List Argument} {last : Argument}

/-- A line without faults is read up to the last argument that is kept. -/
theorem exists_parse_eq (fits : line.utf8ByteSize ≤ maxLine)
    (faultless : Token.arguments? [] (Token.scan line.toList) = some args)
    (counted : args.take (maxArgs - 1) = before ++ [last]) (runs : Marks last.word → before ≠ []) :
    ∃ command, parse line = .ok (some command) ∧ (command.background = true ↔ Marks last.word) ∧
      command.argv = (if command.background then before else before ++ [last]).map Argument.word := by
  have hsignificant : significant line = line.toList :=
    (Utf8.isCut_cut maxLine line.toList).eq_of_fits (by rwa [String.ofList_toList])
  obtain ⟨d, hcollect, hawaiting, hargv⟩ := Draft.collect_arguments (d := {}) faultless
    ⟨rfl, fun stream => by cases stream <;> simp [Draft.target]⟩ (by decide)
  have hwords : d.argv = before.map Argument.word ++ [last.word] := by
    simpa [counted] using hargv
  obtain ⟨command, hfinish, hbackground, hkept⟩ :=
    Draft.finish_eq hawaiting hwords fun h => by simpa using runs h
  refine ⟨command, ?_, hbackground, ?_⟩
  · rw [parse, hsignificant, hcollect]
    exact hfinish
  · rw [hkept]
    split <;> simp

def Argument.IsMarker (a : Argument) : Prop := a.quoted = false ∧ Marks a.word

/-- **The last argument that is kept decides.** Let a line fit, with no token at fault. Let `last` be
the last of its first 127 arguments, and no quoted word that starts with `&`; if it is a marker, let
there be an argument before it. Then the line asks for something to run, in the background exactly if
`last` is a marker. Its arguments are those before `last`, and `last` too unless it is a marker. -/
theorem background_iff (fits : line.utf8ByteSize ≤ maxLine)
    (faultless : Token.arguments? [] (Token.scan line.toList) = some args)
    (counted : args.take (maxArgs - 1) = before ++ [last])
    (unquoted : Marks last.word → last.quoted = false) (runs : last.IsMarker → before ≠ []) :
    ∃ command, parse line = .ok (some command) ∧
      (command.background = true ↔ last.IsMarker) ∧
      command.argv = (if command.background then before else before ++ [last]).map Argument.word := by
  have hmarker : Marks last.word ↔ last.IsMarker := ⟨fun h => ⟨unquoted h, h⟩, And.right⟩
  obtain ⟨command, hparse, hbackground, hkept⟩ :=
    exists_parse_eq fits faultless counted (runs ∘ hmarker.1)
  exact ⟨command, hparse, hbackground.trans hmarker, hkept⟩

/-- A marker after quoted words, one of them `&`, and before a redirection. -/
theorem background_iff_redirected :
    let line := "/bin/echo 'a' \"&\" & > out"
    let before : List Argument := [⟨"/bin/echo", false⟩, ⟨"a", true⟩, ⟨"&", true⟩]
    let last : Argument := ⟨"&", false⟩
    (line.utf8ByteSize ≤ maxLine ∧
      Token.arguments? [] (Token.scan line.toList) = some (before ++ [last]) ∧
      (before ++ [last]).take (maxArgs - 1) = before ++ [last] ∧
      (Marks last.word → last.quoted = false) ∧ (last.IsMarker → before ≠ [])) ∧
    ∃ command, parse line = .ok (some command) ∧
      (command.background = true ↔ last.IsMarker) ∧
      command.argv = (if command.background then before else before ++ [last]).map
        Argument.word := by
  intro line before last
  have fits : line.utf8ByteSize ≤ maxLine := by decide
  have faultless : Token.arguments? [] (Token.scan line.toList) = some (before ++ [last]) := by
    decide +kernel
  have counted : (before ++ [last]).take (maxArgs - 1) = before ++ [last] := rfl
  have runs : last.IsMarker → before ≠ [] := fun _ => List.cons_ne_nil _ _
  exact ⟨⟨fits, faultless, counted, fun _ => rfl, runs⟩,
    background_iff fits faultless counted (fun _ => rfl) runs⟩

/-- The last argument of the line decides nothing if it is not kept: after 127 arguments, a marker is
left out. And a quoted `&` is taken for a marker. -/
theorem late_marker_left_out :
    let long := String.ofList ((List.replicate 127 ['x', ' ']).flatten ++ ['&'])
    let quoted := "/bin/echo '&'"
    (long.utf8ByteSize ≤ maxLine ∧
      Token.arguments? [] (Token.scan long.toList) =
        some (List.replicate 127 ⟨"x", false⟩ ++ [⟨"&", false⟩]) ∧
      ∃ command, parse long = .ok (some command) ∧ command.background = false ∧
        command.argv = List.replicate 127 "x") ∧
    (quoted.utf8ByteSize ≤ maxLine ∧
      Token.arguments? [] (Token.scan quoted.toList) =
        some [⟨"/bin/echo", false⟩, ⟨"&", true⟩] ∧
      ∃ command, parse quoted = .ok (some command) ∧ command.background = true ∧
        command.argv = ["/bin/echo"]) := by
  intro long quoted
  constructor
  · have fits : long.utf8ByteSize ≤ maxLine := by decide +kernel
    have faultless : Token.arguments? [] (Token.scan long.toList) =
        some (List.replicate 127 ⟨"x", false⟩ ++ [⟨"&", false⟩]) := by decide +kernel
    have counted : (List.replicate 127 ⟨"x", false⟩ ++ [⟨"&", false⟩] : List Argument).take
        (maxArgs - 1) = List.replicate 126 ⟨"x", false⟩ ++ [⟨"x", false⟩] := rfl
    obtain ⟨command, hparse, hbackground, hkept⟩ :=
      exists_parse_eq fits faultless counted fun _ => List.cons_ne_nil _ _
    have hforeground : command.background = false := by
      rw [← Bool.not_eq_true, hbackground, ← marks_iff]
      decide
    refine ⟨fits, faultless, command, hparse, hforeground, ?_⟩
    rw [hkept, hforeground]
    rfl
  · have fits : quoted.utf8ByteSize ≤ maxLine := by decide
    have faultless : Token.arguments? [] (Token.scan quoted.toList) =
        some [⟨"/bin/echo", false⟩, ⟨"&", true⟩] := by decide +kernel
    have counted : ([⟨"/bin/echo", false⟩, ⟨"&", true⟩] : List Argument).take (maxArgs - 1) =
        [⟨"/bin/echo", false⟩] ++ [⟨"&", true⟩] := rfl
    obtain ⟨command, hparse, hbackground, hkept⟩ :=
      exists_parse_eq fits faultless counted fun _ => List.cons_ne_nil _ _
    have hmarked : command.background = true := hbackground.2 ⟨[], rfl⟩
    refine ⟨fits, faultless, command, hparse, hmarked, ?_⟩
    rw [hkept, hmarked]
    rfl

end JobControl.Command
