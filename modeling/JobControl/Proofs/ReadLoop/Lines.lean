import JobControl.Host.Scripted
import JobControl.Proofs.EventLoop.Run
import JobControl.Proofs.Host.Fed

/-!
# The read loop goes line by line

* `Event.ofInput` : the events of an input: its lines, and its end;
* `splitLines_append`, `Event.taken_append` : they do not depend on how the input is cut into reads;
* `Event.script` : the events of polls and reads;
* `Reader.came_run` : a shell in the read loop follows them;
* `Reader.run_line_by_line` : so it follows the events of the input, with news between them.
-/

set_option autoImplicit false

namespace JobControl

/-! ## Lines -/

theorem splitOn_newline (bytes : List UInt8) :
    bytes.splitOn newline = (splitLines bytes).1 ++ [(splitLines bytes).2] := by
  induction bytes with
  | nil => rfl
  | cons b bytes ih =>
    rw [List.splitOn_cons_eq_if_modifyHead, ih, splitLines]
    by_cases hb : b = newline
    · simp [hb]
    · obtain ⟨_ | ⟨line, lines⟩, rest⟩ := splitLines bytes <;> simp [hb]

/-- Bytes that are split in two pieces have the lines of the first, and those of the second after what
the first has left. -/
theorem splitLines_append (bytes later : List UInt8) :
    splitLines (bytes ++ later) =
      ((splitLines bytes).1 ++ (splitLines ((splitLines bytes).2 ++ later)).1,
        (splitLines ((splitLines bytes).2 ++ later)).2) := by
  induction bytes with
  | nil => rfl
  | cons b bytes ih =>
    rw [List.cons_append, splitLines, ih, splitLines]
    by_cases hb : b = newline
    · simp [hb]
    · obtain ⟨_ | ⟨line, lines⟩, rest⟩ := splitLines bytes
      · simp [hb, splitLines]
      · simp [hb]

/-- What has no newline is left as it is. -/
theorem splitLines_rest (bytes : List UInt8) :
    splitLines (splitLines bytes).2 = ([], (splitLines bytes).2) := by
  have h := splitLines_append bytes []
  rw [List.append_nil, List.append_nil] at h
  refine Prod.ext ?_ (congrArg Prod.snd h).symm
  exact List.self_eq_append_right.1 (congrArg Prod.fst h)

namespace Event

/-- The lines of an input, and its end with what follows the last newline. -/
def ofInput (input : List UInt8) : List Event :=
  (input.splitOn newline).dropLast.map .line ++ [.ended ((input.splitOn newline).getLast?.getD [])]

theorem ofInput_eq (input : List UInt8) :
    ofInput input = (splitLines input).1.map .line ++ [.ended (splitLines input).2] := by
  rw [ofInput, splitOn_newline, List.dropLast_concat, List.getLast?_concat]
  rfl

/-- The events of bytes that are read, and those of what comes later, are the events of both. -/
theorem taken_append (pending : List UInt8) {bytes : List UInt8} (hbytes : bytes ≠ [])
    (later : List UInt8) :
    (taken pending bytes).1 ++ ofInput ((taken pending bytes).2 ++ later) =
      ofInput (pending ++ (bytes ++ later)) := by
  obtain ⟨b, bytes, rfl⟩ := List.exists_cons_of_ne_nil hbytes
  have hsplit := splitLines_append (pending ++ b :: bytes) later
  rw [List.append_assoc] at hsplit
  rw [ofInput_eq, ofInput_eq, hsplit, taken]
  simp

def inputs (events : List Event) : List Event := events.filter (· ≠ .news)

theorem inputs_append (events later : List Event) :
    inputs (events ++ later) = inputs events ++ inputs later :=
  List.filter_append ..

theorem inputs_taken (pending bytes : List UInt8) :
    inputs (taken pending bytes).1 = (taken pending bytes).1 := by
  refine List.filter_eq_self.2 fun e he => ?_
  cases bytes with
  | nil =>
    obtain rfl := List.mem_singleton.1 he
    rfl
  | cons b bytes =>
    obtain ⟨line, -, rfl⟩ := List.mem_map.1 he
    rfl

def newsOf (now : Channel → Bool) : List Event := if now .signals then [.news] else []

/-- The events of polls, when `reads` are the bytes of the reads up to the end of the input. -/
def script (pending : List UInt8) : List (List UInt8) → List (Channel → Bool) → List Event
  | _, [] => []
  | [], now :: later =>
    newsOf now ++ if now .input then [.ended pending] else script pending [] later
  | bytes :: reads, now :: later =>
    newsOf now ++
      if now .input then (taken pending bytes).1 ++ script (taken pending bytes).2 reads later
      else script pending (bytes :: reads) later

theorem inputs_newsOf (now : Channel → Bool) : inputs (newsOf now) = [] := by
  unfold newsOf
  split <;> rfl

/-- As long as the polls go on, the events are those of the input, in order. -/
theorem inputs_script (ready : List (Channel → Bool)) {pending : List UInt8}
    (hpending : splitLines pending = ([], pending)) {reads : List (List UInt8)}
    (nonempty : ∀ bytes ∈ reads, bytes ≠ []) :
    inputs (script pending reads ready) <+: ofInput (pending ++ reads.flatten) ∧
      (reads.length < ready.countP (· .input) →
        inputs (script pending reads ready) = ofInput (pending ++ reads.flatten)) := by
  induction ready generalizing pending reads with
  | nil => exact ⟨by simp [script, inputs], nofun⟩
  | cons now later ih =>
    cases reads with
    | nil =>
      have hall : [.ended pending] = ofInput (pending ++ ([] : List (List UInt8)).flatten) := by
        rw [List.flatten_nil, List.append_nil, ofInput_eq, hpending]
        rfl
      rw [script, inputs_append, inputs_newsOf, List.nil_append]
      split
      · exact ⟨hall ▸ List.prefix_rfl, fun _ => hall⟩
      · next hnow => simpa [hnow] using ih hpending nonempty
    | cons bytes reads =>
      rw [script, inputs_append, inputs_newsOf, List.nil_append]
      split
      · next hnow =>
        obtain ⟨hbytes, hreads⟩ := List.forall_mem_cons.1 nonempty
        have hrest : splitLines (taken pending bytes).2 = ([], (taken pending bytes).2) := by
          obtain ⟨b, bytes, rfl⟩ := List.exists_cons_of_ne_nil hbytes
          exact splitLines_rest (pending ++ b :: bytes)
        obtain ⟨hstart, hall⟩ := ih hrest hreads
        rw [List.flatten_cons, ← taken_append pending hbytes, inputs_append, inputs_taken]
        refine ⟨(List.prefix_append_right_inj _).2 hstart, fun henough => ?_⟩
        rw [hall (by simpa [hnow] using henough)]
      · next hnow => simpa [hnow] using ih hpending nonempty

/-- Without signals there is no news. -/
theorem inputs_script_of_quiet {ready : List (Channel → Bool)}
    (quiet : ∀ now ∈ ready, now .signals = false) (pending : List UInt8)
    (reads : List (List UInt8)) :
    inputs (script pending reads ready) = script pending reads ready := by
  induction ready generalizing pending reads with
  | nil => cases reads <;> rfl
  | cons now later ih =>
    obtain ⟨hnow, hlater⟩ := List.forall_mem_cons.1 quiet
    have hnews : newsOf now = [] := by
      rw [newsOf, hnow]
      rfl
    cases reads with
    | nil =>
      rw [script, hnews, List.nil_append]
      split
      · rfl
      · exact ih hlater pending []
    | cons bytes reads =>
      rw [script, hnews, List.nil_append]
      split
      · rw [inputs_append, inputs_taken, ih hlater]
      · exact ih hlater pending (bytes :: reads)

end Event

/-! ## The read loop -/

namespace Shell
variable {σ : Type}

theorem goOn_of_isSome {out : Option (Except Error Int) × Shell σ} (h : out.1.isSome)
    (next : Shell σ → Option (Except Error Int) × Shell σ) : goOn out next = out := by
  obtain ⟨_ | outcome, s⟩ := out
  · cases h
  · rfl

variable [Host σ]

theorem isSome_heed_ended (s : Shell σ) (prompt : Bool) (rest : List UInt8) :
    (s.heed prompt (.ended rest)).1.isSome := by
  rw [heed]
  obtain ⟨_ | outcome, s⟩ := if rest.isEmpty then (none, s) else s.attend rest <;> rfl

/-- At the end of the input, the shell ends. -/
theorem isSome_follow {events : List Event} {rest : List UInt8} (h : .ended rest ∈ events)
    (s : Shell σ) (prompt : Bool) : (s.follow prompt events).1.isSome := by
  induction events generalizing s with
  | nil => cases h
  | cons e events ih =>
    rw [follow]
    rcases List.mem_cons.1 h with rfl | h
    · have hend := s.isSome_heed_ended prompt rest
      rcases hheed : s.heed prompt (.ended rest) with ⟨_ | outcome, s'⟩
      · rw [hheed] at hend
        cases hend
      · rfl
    · obtain ⟨_ | outcome, s'⟩ := s.heed prompt e
      · exact ih h s'
      · rfl

end Shell

namespace Reader
open EventLoop (Registry Stop)
variable {σ : Type}

def came (out : Option (Stop Error Int) × Reader (Fed σ) × Loop) :
    Option (Except Error Int) × Shell σ :=
  (out.1.map Stop.outcome, out.2.1.shell.unfed)

/-- The signals are looked at before the input. -/
theorem readyEvents_registry (now : Channel → Bool) :
    Registry.readyEvents registry now =
      (if now .signals then [.signals] else []) ++ if now .input then [.input] else [] := by
  have hwatched : registry.watched.entries = [(0, .signals), (1, .input)] := rfl
  have hsignals : registry.events.find? 0 = some .signals := rfl
  have hinput : registry.events.find? 1 = some .input := rfl
  rw [Registry.readyEvents, PollSet.ready, hwatched]
  cases hs : now .signals <;> cases hi : now .input <;> simp [hs, hi, hsignals, hinput]

variable [Host σ]

/-- The rest of a turn, and the turns after it. -/
def goThrough (events : List Channel) (polls : List (EventLoop.Poll (Reader (Fed σ)) Channel))
    (l : Reader (Fed σ)) (r : Loop) : Option (Stop Error Int) × Reader (Fed σ) × Loop :=
  match EventLoop.dispatch handle events l r with
  | (some reason, l, r) => (some reason, l, r)
  | (none, l, r) => EventLoop.run handle .io polls l r

theorem run_cons (now : Channel → Bool)
    (polls : List (EventLoop.Poll (Reader (Fed σ)) Channel)) (l : Reader (Fed σ)) (r : Loop) :
    EventLoop.run handle .io ((fun _ => .ok now) :: polls) l r =
      goThrough (r.readyEvents now) polls l r := by
  rw [EventLoop.run, goThrough]
  dsimp only
  rcases EventLoop.dispatch handle (r.readyEvents now) l r with ⟨_ | reason, l', r'⟩ <;> rfl

theorem came_goThrough {e : Channel} {l l' : Reader (Fed σ)} {r : Loop} (hr : r.stop = none)
    {reads : List (Except SystemError (List UInt8))} {out : Option (Except Error Int) × Shell σ}
    (h : handle e l r = l'.proceed r (Shell.fedOut reads out)) (events : List Channel)
    (polls : List (EventLoop.Poll (Reader (Fed σ)) Channel)) :
    came (goThrough (e :: events) polls l r) =
      Shell.goOn out fun s =>
        came (goThrough events polls { l' with shell := s.fed reads } r) := by
  rw [goThrough, EventLoop.dispatch, h]
  obtain ⟨_ | reason | code, s⟩ := out
  · dsimp only [proceed, Shell.fedOut, Registry.halt]
    rw [hr]
    rfl
  · rfl
  · dsimp only [proceed, Shell.fedOut, Registry.halt]
    rw [Registry.exit_eq hr]
    rfl

theorem handle_signals (s : Shell σ) (prompt : Bool) (pending : List UInt8)
    (reads : List (Except SystemError (List UInt8))) (r : Loop) :
    handle .signals { shell := s.fed reads, pending, prompt } r =
      ({ shell := s.fed reads, pending, prompt } : Reader (Fed σ)).proceed r
        (Shell.fedOut reads (s.heed prompt .news)) := by
  rw [handle, onSignal_eq, Shell.fed_heed]

/-- A read takes an answer, or finds the end of the input when there is none. -/
theorem handle_input {r : Loop} (hr : r.stop = none) (s : Shell σ) (prompt : Bool)
    (pending : List UInt8) {reads left : List (Except SystemError (List UInt8))}
    {bytes : List UInt8} (hread : reads = .ok bytes :: left ∨ reads = [] ∧ left = [] ∧ bytes = []) :
    handle .input { shell := s.fed reads, pending, prompt } r =
      ({ shell := s.fed reads, pending := (Event.taken pending bytes).2, prompt } :
        Reader (Fed σ)).proceed r
          (Shell.fedOut left (s.follow prompt (Event.taken pending bytes).1)) := by
  have hanswer : Input.read Command.maxLine (s.fed reads).host = (.ok bytes, (s.fed left).host) := by
    rcases hread with rfl | ⟨rfl, rfl, rfl⟩ <;> rfl
  rw [handle, onInput_eq _ hr hanswer, ← Shell.fed_follow]
  rfl

/-- A shell in the read loop follows the events of the polls and reads. -/
theorem came_run (ready : List (Channel → Bool)) (s : Shell σ) (prompt : Bool)
    (pending : List UInt8) (reads : List (List UInt8)) :
    came (EventLoop.run handle .io (ready.map fun now _ => .ok now)
        { shell := s.fed (reads.map .ok), pending, prompt } registry) =
      s.follow prompt (Event.script pending reads ready) := by
  induction ready generalizing s pending reads with
  | nil =>
    rw [Event.script]
    rfl
  | cons now later ih =>
    have hr : Registry.stop registry = none := rfl
    obtain ⟨rest, hscript, hinput⟩ : ∃ rest,
        Event.script pending reads (now :: later) = Event.newsOf now ++ rest ∧
        ∀ s : Shell σ, came (goThrough (if now .input then [.input] else [])
            (later.map fun now _ => .ok now)
            { shell := s.fed (reads.map .ok), pending, prompt } registry) =
          s.follow prompt rest := by
      cases reads with
      | nil =>
        refine ⟨_, rfl, fun s => ?_⟩
        split
        · rw [List.map_nil,
            came_goThrough hr (handle_input hr s prompt pending (.inr ⟨rfl, rfl, rfl⟩))]
          exact Shell.goOn_of_isSome (Shell.isSome_follow List.mem_cons_self s prompt) _
        · exact ih s pending []
      | cons bytes reads =>
        refine ⟨_, rfl, fun s => ?_⟩
        split
        · rw [List.map_cons, came_goThrough hr (handle_input hr s prompt pending (.inl rfl)),
            Shell.follow_append]
          exact congrArg _ (funext fun s => ih s _ reads)
        · exact ih s pending (bytes :: reads)
    rw [List.map_cons, run_cons, readyEvents_registry, hscript, Event.newsOf]
    split
    · rw [List.cons_append, List.nil_append, came_goThrough hr (handle_signals s prompt pending _ _)]
      exact congrArg _ (funext hinput)
    · exact hinput s

theorem run_eq_came (l : Reader (Fed σ)) (polls : List (EventLoop.Poll (Reader (Fed σ)) Channel)) :
    ((l.run polls).1, (l.run polls).2.unfed) =
      came (EventLoop.run handle .io polls l.showPrompt registry) := by
  rw [run_eq]
  rfl

/-- **Line by line.** However the input is cut into reads, whenever signals arrive, and whichever polls
they interrupt, the shell of the read loop follows the lines of the input and its end, in order and up
to where it ends, with news between them; without signals it follows nothing else. -/
theorem run_line_by_line (host : σ) (console : Console) (prompt : Bool) (reads : List (List UInt8))
    (nonempty : ∀ bytes ∈ reads, bytes ≠ []) (answers : List (Except SystemError (Channel → Bool)))
    (heard : ∀ e, .error e ∈ answers → e.isInterrupted) :
    let l : Reader (Fed σ) :=
      { shell := { host := { host, reads := reads.map .ok }, console }, prompt }
    let out := l.run (answers.map fun answer _ => answer)
    let ready := answers.filterMap Except.toOption
    let s : Shell σ := Shell.greet { host, console } prompt
    (∃ events, (out.1, out.2.unfed) = s.follow prompt events ∧
      Event.inputs events <+: Event.ofInput reads.flatten ∧
      (reads.length < ready.countP (· .input) →
        Event.inputs events = Event.ofInput reads.flatten ∧ out.1.isSome)) ∧
    ((∀ now ∈ ready, now .signals = false) → reads.length < ready.countP (· .input) →
      (out.1, out.2.unfed) = s.follow prompt (Event.ofInput reads.flatten)) := by
  intro l out ready s
  have hout : (out.1, out.2.unfed) = s.follow prompt (Event.script [] reads ready) := by
    have hgreet : l.showPrompt = { shell := s.fed (reads.map .ok), pending := [], prompt } := by
      rw [showPrompt_eq]
      cases prompt <;> rfl
    rw [run_eq_came, EventLoop.run_heard heard, hgreet, came_run]
  have hopen : splitLines [] = ([], []) := rfl
  obtain ⟨hstart, hall⟩ := Event.inputs_script ready hopen nonempty
  refine ⟨⟨_, hout, hstart, fun henough => ⟨hall henough, ?_⟩⟩, fun quiet henough => ?_⟩
  · have hend : .ended (splitLines reads.flatten).2 ∈ Event.script [] reads ready := by
      have hmem : .ended (splitLines reads.flatten).2 ∈
          Event.inputs (Event.script [] reads ready) := by
        rw [hall henough, List.nil_append, Event.ofInput_eq]
        exact List.mem_append_right _ List.mem_cons_self
      exact (List.mem_filter.1 hmem).1
    have hsome := Shell.isSome_follow hend s prompt
    rwa [← hout] at hsome
  · rw [hout, ← Event.inputs_script_of_quiet quiet, hall henough]
    rfl

/-- A read ends inside a character, the next one inside a word, and the last line has no newline; a
poll is interrupted. -/
theorem run_line_by_line_cut_character :
    let host : Scripted := { events := [.ok [.child ⟨1000⟩ (.exited 0)]] }
    let reads : List (List UInt8) := [[97, 32, 195], [169, 10, 106], [111, 98, 115]]
    let answers : List (Except SystemError (Channel → Bool)) :=
      .error .interrupted :: List.replicate 4 (.ok (· == .input))
    let ready := answers.filterMap Except.toOption
    let l : Reader (Fed Scripted) := { shell := { host := { host, reads := reads.map .ok } } }
    let out := l.run (answers.map fun answer _ => answer)
    ((∀ bytes ∈ reads, bytes ≠ []) ∧ (∀ e, .error e ∈ answers → e.isInterrupted) ∧
      (∀ now ∈ ready, now .signals = false) ∧ reads.length < ready.countP (· .input)) ∧
    (out.1 = some (.ok 0) ∧ out.2.journal.spawned.map (·.1.line) = ["a é"]) ∧
    Event.ofInput reads.flatten = [.line [97, 32, 195, 169], .ended [106, 111, 98, 115]] ∧
    (out.1, out.2.unfed) =
      (Shell.greet { host } true).follow true (Event.ofInput reads.flatten) := by
  intro host reads answers ready l out
  have nonempty : ∀ bytes ∈ reads, bytes ≠ [] := by decide
  have heard (e : SystemError) (he : .error e ∈ answers) : e.isInterrupted := by
    obtain rfl : e = .interrupted := by simpa [answers] using he
    rfl
  have quiet : ∀ now ∈ ready, now .signals = false := by
    intro now hnow
    obtain rfl : now = (· == .input) := List.eq_of_mem_replicate (n := 4) hnow
    rfl
  have enough : reads.length < ready.countP (· .input) := by decide
  refine ⟨⟨nonempty, heard, quiet, enough⟩, by decide +kernel, by decide +kernel, ?_⟩
  exact (run_line_by_line host {} true reads nonempty answers heard).2 quiet enough

end Reader
end JobControl
