import JobControl.Proofs.Shell.Mirror

/-!
# Shells that differ in their consoles

What a shell does is not up to its console. Shells that differ in it alone, on a host that does not
listen, do the same and go on to differ in it alone.

* `Host.Deaf` : the host does not listen to what the shell says;
* `Console.Keeps` : relations between two consoles that hold on when the same is said to both;
* `Console.Muffles` : the one console shows diagnostics, the other does not; `keeps_muffles`;
* `Shell.Twin` : shells that differ in their consoles alone, which are related; they mirror each other
  (`mirrors_twin`);
* `trace` : the answers to operations, and all of the shell but its console after each; `trace_eq`.
-/

set_option autoImplicit false

namespace JobControl

/-- What the shell says makes no difference to the host. -/
def Host.Deaf (σ : Type) [Host σ] : Prop := ∀ (c c' : Console) (s : σ), Host.hear c s = Host.hear c' s

/-! ## Two consoles -/

namespace Console

def list (c : Console) (jobs : List Job) : Console :=
  match c.out.write (.listing jobs) with
  | .ok out => { c with out }
  | .error e => c.complain (.notListed none e)

/-- Whatever is said to two consoles, they stay related. -/
structure Keeps (R : Console → Console → Prop) : Prop where
  say : ∀ {c c' n}, R c c' → n.isDiagnostic = false → R (c.say n) (c'.say n)
  report : ∀ {c c' n}, R c c' → n.isDiagnostic = true → R (c.report n) (c'.report n)
  complain : ∀ {c c'} m, R c c' → R (c.complain m) (c'.complain m)
  list : ∀ {c c'} jobs, R c c' → R (c.list jobs) (c'.list jobs)

theorem keeps_any : Keeps fun _ _ => True :=
  ⟨fun _ _ => trivial, fun _ _ => trivial, fun _ _ => trivial, fun _ _ => trivial⟩

/-- Since the messages `old`, the same was said to two consoles that can be written to, of which the
first shows diagnostics and the second does not. -/
structure Muffles (old : List Notice) (c c' : Console) : Prop where
  loud : c.verbose = true
  quiet : c'.verbose = false
  err : c'.err = c.err
  out : ∃ said, c.out = ⟨said ++ old, false⟩ ∧ c'.out = ⟨said.filter (!·.isDiagnostic) ++ old, false⟩

theorem Muffles.put {old : List Notice} {c c' : Console} {n : Notice} (h : Muffles old c c')
    (hn : n.isDiagnostic = false) :
    Muffles old { c with out := c.out.put n } { c' with out := c'.out.put n } := by
  obtain ⟨loud, quiet, err, said, hout, hout'⟩ := h
  refine ⟨loud, quiet, err, n :: said, ?_, ?_⟩
  · rw [hout]
    rfl
  · rw [hout', List.filter_cons, hn]
    rfl

theorem keeps_muffles (old : List Notice) : Keeps (Muffles old) where
  say {c c' n} h hn := by
    obtain ⟨said, hout, hout'⟩ := h.out
    have hsay : c.say n = { c with out := c.out.put n } := by simp [say, Sink.say, hout]
    have hsay' : c'.say n = { c' with out := c'.out.put n } := by simp [say, Sink.say, hout']
    rw [hsay, hsay']
    exact h.put hn
  report {c c' n} h hn := by
    obtain ⟨loud, quiet, err, said, hout, hout'⟩ := h
    rw [report, report, if_pos loud, if_neg (by simp [quiet])]
    refine ⟨loud, quiet, err, n :: said, ?_, ?_⟩
    · rw [hout]
      rfl
    · rw [hout', List.filter_cons, hn]
      rfl
  complain m h := ⟨h.loud, h.quiet, congrArg (Sink.say · m) h.err, h.out⟩
  list {c c'} jobs h := by
    obtain ⟨said, hout, hout'⟩ := h.out
    have hlist : c.list jobs = { c with out := c.out.put (.listing jobs) } := by
      simp [list, Sink.write, hout]
    have hlist' : c'.list jobs = { c' with out := c'.out.put (.listing jobs) } := by
      simp [list, Sink.write, hout']
    rw [hlist, hlist']
    exact h.put rfl

end Console

/-! ## Two shells -/

namespace Shell
variable {σ : Type} {R : Console → Console → Prop} {s s' : Shell σ}

/-- All of the shell but its console. -/
def unheard (s : Shell σ) : Shell σ := { s with console := {} }

/-- The answers to operations carried out one after another, and all of the shell but its console
after each. -/
def trace [Host σ] (s : Shell σ) : List Op → List (Except Error Flow × Shell σ)
  | [] => []
  | op :: ops =>
    let (answer, s) := s.perform op
    (answer, s.unheard) :: s.trace ops

/-- The shells differ in their consoles alone, which are related. -/
inductive Twin (R : Console → Console → Prop) (s : Shell σ) : Shell σ → Prop where
  | intro {c : Console} : R s.console c → Twin R s { s with console := c }

namespace Twin

theorem host (h : Twin R s s') : s'.host = s.host := by
  obtain ⟨-⟩ := h
  rfl

theorem unheard (h : Twin R s s') : s'.unheard = s.unheard := by
  obtain ⟨-⟩ := h
  rfl

theorem console (h : Twin R s s') : R s.console s'.console := by
  obtain ⟨hc⟩ := h
  exact hc

theorem setHost (h : Twin R s s') (host : σ) : Twin R { s with host } { s' with host } := by
  obtain ⟨hc⟩ := h
  exact ⟨hc⟩

end Twin

variable [Host σ]

theorem echo_defer (h : Twin R s s') : Echo (Twin R) s.defer s'.defer := by
  obtain ⟨hc⟩ := h
  rw [defer, defer]
  obtain ⟨e | u, host⟩ := Host.defer s.host
  · exact ⟨rfl, ⟨hc⟩⟩
  · exact ⟨rfl, ⟨hc⟩⟩

variable (keeps : Console.Keeps R) (deaf : Host.Deaf σ)
include keeps deaf

/-- A listing goes to a file, to standard output, or is complained about. -/
theorem twin_list (h : Twin R s s') (target : Option String) :
    Twin R (s.list target) (s'.list target) := by
  have hnone (s : Shell σ) : s.list none = { s with console := s.console.list s.jobs.jobs } := by
    unfold list Console.list
    cases s.console.out.write (.listing s.jobs.jobs) <;> rfl
  obtain @⟨c, hc⟩ := h
  cases target with
  | none =>
    rw [hnone, hnone]
    exact ⟨keeps.list _ hc⟩
  | some path =>
    have hhear : Host.hear c s.host = Host.hear s.console s.host := deaf c s.console s.host
    dsimp only [list]
    rw [hhear]
    obtain ⟨e | u, host⟩ := Host.writeFile path s.jobs.listing (Host.hear s.console s.host)
    · exact ⟨keeps.complain _ hc⟩
    · exact ⟨hc⟩

/-- Shells that differ in their consoles alone mirror each other. -/
theorem mirrors_twin : Mirrors (Twin (σ := σ) R) where
  jobs := by
    rintro s _ ⟨-⟩
    rfl
  setJobs := by
    rintro s _ ⟨hc⟩ jobs
    exact ⟨hc⟩
  note := by
    rintro s _ ⟨hc⟩ d
    exact ⟨hc⟩
  say := by
    rintro s _ ⟨hc⟩ n hn
    exact ⟨keeps.say hc hn⟩
  report := by
    rintro s _ ⟨hc⟩ n hn
    exact ⟨keeps.report hc hn⟩
  complain := by
    rintro s _ ⟨hc⟩ m
    exact ⟨keeps.complain m hc⟩
  list h target := twin_list keeps deaf h target
  defer h := echo_defer h
  release := by
    rintro s _ ⟨hc⟩
    exact ⟨hc⟩
  spawn := by
    rintro s _ ⟨hc⟩ request
    exact ⟨rfl, ⟨hc⟩⟩
  signal := by
    rintro s _ ⟨hc⟩ origin target sig
    exact ⟨rfl, ⟨hc⟩⟩
  await := by
    rintro s _ ⟨hc⟩
    rw [await, await, deaf s.console]
    exact ⟨rfl, ⟨hc⟩⟩
  pending := by
    rintro s _ ⟨hc⟩
    exact ⟨rfl, ⟨hc⟩⟩

theorem trace_eq (h : Twin R s s') (ops : List Op) : s'.trace ops = s.trace ops := by
  induction ops generalizing s s' with
  | nil => rfl
  | cons op ops ih =>
    obtain ⟨answer, t, t', ht, ht', htwin⟩ := ((mirrors_twin keeps deaf).perform h op).exists
    rw [trace, trace, ht, ht']
    dsimp only
    rw [htwin.unheard, ih htwin]

end Shell
end JobControl
