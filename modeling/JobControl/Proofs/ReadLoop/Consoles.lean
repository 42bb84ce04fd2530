import JobControl.Host.Scripted
import JobControl.Host.Fed
import JobControl.Proofs.EventLoop.Run
import JobControl.Proofs.ReadLoop.Interpreter
import JobControl.Proofs.Shell.Consoles

/-!
# Read loops that differ in their consoles

* `Twin`, `runOn` : readers whose shells differ in their consoles, and runs in which the host alone
  decides what a poll answers; such readers run alike (`agree_runOn`);
* `console_unnoticed` : so it makes no difference to anything but what is said whether the
  console works and whether it shows diagnostics.
-/

set_option autoImplicit false

namespace JobControl.Reader
variable {σ : Type} {R : Console → Console → Prop} {l l' : Reader σ} {r : Loop}

/-- The shells of the readers differ in their consoles alone, which are related. -/
structure Twin (R : Console → Console → Prop) (l l' : Reader σ) : Prop where
  shell : Shell.Twin R l.shell l'.shell
  pending : l'.pending = l.pending
  prompt : l'.prompt = l.prompt

/-- The readers go on alike after their shells have. -/
theorem Twin.proceed {out out' : Option (Except Error Int) × Shell σ} (h : Twin R l l')
    (hout : Shell.Echo (Shell.Twin R) out out') (r : Loop) :
    (l'.proceed r out').2 = (l.proceed r out).2 ∧
      Twin R (l.proceed r out).1 (l'.proceed r out').1 :=
  ⟨congrArg r.halt hout.answer, hout.related, h.pending, h.prompt⟩

variable [Host σ] [Input σ]

/-- A run in which the host alone decides what each poll answers. -/
def runOn (l : Reader σ) (polls : List (σ → Except SystemError (Channel → Bool))) :
    Option (Except Error Int) × Shell σ :=
  l.run (polls.map fun poll l => poll l.shell.host)

section Alike
variable (keeps : Console.Keeps R) (deaf : Host.Deaf σ)
include keeps deaf

theorem agree_handle (h : Twin R l l') (hr : r.stop = none) (e : Channel) :
    (handle e l' r).2 = (handle e l r).2 ∧ Twin R (handle e l r).1 (handle e l' r).1 := by
  cases e with
  | signals =>
    rw [handle, handle, onSignal_eq, onSignal_eq, h.prompt]
    exact h.proceed ((Shell.mirrors_twin keeps deaf).heed h.shell l.prompt .news) r
  | input =>
    rw [handle, handle]
    rcases hread : Input.read Command.maxLine l.shell.host with ⟨e | bytes, host⟩
    · have hread' : Twin R { l with shell := { l.shell with host } }
          { l' with shell := { l'.shell with host } } :=
        ⟨h.shell.setHost host, h.pending, h.prompt⟩
      rw [onInput, onInput, h.shell.host, hread]
      dsimp only
      split
      · exact ⟨rfl, hread'⟩
      · exact ⟨rfl, hread'⟩
    · have hread' : Input.read Command.maxLine l'.shell.host = (.ok bytes, host) := by
        rw [h.shell.host, hread]
      rw [l.onInput_eq hr hread, l'.onInput_eq hr hread', h.pending, h.prompt]
      have hfollow := (Shell.mirrors_twin keeps deaf).follow (h.shell.setHost host) l.prompt
        (Event.taken l.pending bytes).1
      have htaken (rest : List UInt8) :
          Twin R { l with pending := rest } { l' with pending := rest, prompt := l.prompt } :=
        ⟨h.shell, rfl, rfl⟩
      exact (htaken _).proceed hfollow r

theorem agree_runOn (h : Twin R l l') (polls : List (σ → Except SystemError (Channel → Bool))) :
    Shell.Echo (Shell.Twin R) (l.runOn polls) (l'.runOn polls) := by
  have hprompt : Twin R l.showPrompt l'.showPrompt := by
    rw [showPrompt_eq, showPrompt_eq, h.prompt]
    exact ⟨(Shell.mirrors_twin keeps deaf).greet h.shell l.prompt, h.pending, rfl⟩
  have same (poll : EventLoop.Poll (Reader σ) Channel)
      (hpoll : poll ∈ polls.map fun poll l => poll l.shell.host) (l l' : Reader σ)
      (h : Twin R l l') : poll l' = poll l := by
    obtain ⟨poll, -, rfl⟩ := List.mem_map.1 hpoll
    exact congrArg poll h.shell.host
  obtain ⟨hstop, htwin⟩ := EventLoop.run_agree
    (fun e l l' r h hr => agree_handle keeps deaf h hr e) same hprompt (r := registry) rfl
  rw [runOn, runOn, run_eq, run_eq]
  exact ⟨congrArg (Option.map EventLoop.Stop.outcome) hstop, htwin.shell⟩

end Alike

/-- **The console goes unnoticed.** On a host that does not listen, it makes no difference whether the
console can be written to and whether it shows diagnostics: the answers to operations are the same, and
so is all of the shell but its console after each, its table, its host and its journal; so are the
outcome of a read loop and the shell after it. Where standard output can be written to, all that
diagnostics add to it are diagnostics. -/
theorem console_unnoticed (deaf : Host.Deaf σ) :
    (∀ (s : Shell σ) (console : Console),
      (∀ ops, { s with console }.trace ops = s.trace ops) ∧
      ∀ pending prompt (polls : List (σ → Except SystemError (Channel → Bool))),
        let out := ({ shell := s, pending, prompt } : Reader σ).runOn polls
        let out' := ({ shell := { s with console }, pending, prompt } : Reader σ).runOn polls
        out'.1 = out.1 ∧ out'.2.unheard = out.2.unheard) ∧
    (∀ s : Shell σ, s.console.out.broken = false →
      let loud : Shell σ := { s with console := { s.console with verbose := true } }
      let quiet : Shell σ := { s with console := { s.console with verbose := false } }
      (∀ ops, (loud.after ops).console.Muffles s.console.out.written (quiet.after ops).console) ∧
      ∀ pending prompt (polls : List (σ → Except SystemError (Channel → Bool))),
        (({ shell := loud, pending, prompt } : Reader σ).runOn polls).2.console.Muffles
          s.console.out.written
          (({ shell := quiet, pending, prompt } : Reader σ).runOn polls).2.console) := by
  constructor
  · intro s console
    have htwin : Shell.Twin (fun _ _ => True) s { s with console } := ⟨trivial⟩
    refine ⟨fun ops => Shell.trace_eq Console.keeps_any deaf htwin ops, ?_⟩
    intro pending prompt polls out out'
    have hreader : Twin (fun _ _ => True) ({ shell := s, pending, prompt } : Reader σ)
        { shell := { s with console }, pending, prompt } :=
      ⟨htwin, rfl, rfl⟩
    have hecho := agree_runOn Console.keeps_any deaf hreader polls
    exact ⟨hecho.answer, hecho.related.unheard⟩
  · intro s healthy loud quiet
    have hmuffles : loud.console.Muffles s.console.out.written quiet.console := by
      have hout : s.console.out = ⟨s.console.out.written, false⟩ := by rw [← healthy]
      exact ⟨rfl, rfl, rfl, [], hout, hout⟩
    have htwin : Shell.Twin (Console.Muffles s.console.out.written) loud quiet := ⟨hmuffles⟩
    have keeps := Console.keeps_muffles s.console.out.written
    refine ⟨fun ops => ((Shell.mirrors_twin keeps deaf).after htwin ops).console, ?_⟩
    intro pending prompt polls
    have hreader : Twin (Console.Muffles s.console.out.written)
        ({ shell := loud, pending, prompt } : Reader σ) { shell := quiet, pending, prompt } :=
      ⟨htwin, rfl, rfl⟩
    exact (agree_runOn keeps deaf hreader polls).related.console

/-- A job is started and listed, and the shell quits, once with a console that works and once with both
of its streams broken; then with diagnostics and without. -/
theorem console_unnoticed_broken_pipe :
    let reads : List (Except SystemError (List UInt8)) :=
      [.ok [97, 32, 38, 10, 106, 111, 98, 115, 10, 113, 117, 105, 116, 10]]
    let s : Shell (Fed Scripted) := { host := { host := {}, reads } }
    let broken : Console := { out := { broken := true }, err := { broken := true }, verbose := true }
    let verbose : Console := { verbose := true }
    let polls : List (Fed Scripted → Except SystemError (Channel → Bool)) :=
      [fun _ => .ok fun channel => channel == .input]
    let out := ({ shell := s } : Reader (Fed Scripted)).runOn polls
    let out' := ({ shell := { s with console := broken } } : Reader (Fed Scripted)).runOn polls
    let loud := ({ shell := { s with console := verbose } } : Reader (Fed Scripted)).runOn polls
    let job : Job := ⟨1, ⟨1000⟩, .background, "a &"⟩
    Host.Deaf (Fed Scripted) ∧
      (out.1 = some (.ok 0) ∧ out.2.journal.spawned.map (·.1.line) = ["a &"] ∧
        out.2.console.out.messages = [.prompt, .announced job, .prompt, .listing [job], .prompt] ∧
        out'.2.console.out.messages = [.added job, .leaving 1] ∧
        loud.2.console.out.messages = [.prompt, .added job, .announced job, .prompt, .listing [job],
          .prompt, .leaving 1]) ∧
      (out'.1 = out.1 ∧ out'.2.unheard = out.2.unheard) ∧
      loud.2.console.Muffles [] out.2.console := by
  intro reads s broken verbose polls out out' loud job
  have deaf : Host.Deaf (Fed Scripted) := fun _ _ _ => rfl
  exact ⟨deaf, by decide +kernel, ((console_unnoticed deaf).1 s broken).2 [] true polls,
    ((console_unnoticed deaf).2 s rfl).2 [] true polls⟩

end JobControl.Reader
