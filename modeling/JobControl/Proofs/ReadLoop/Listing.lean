import JobControl.Host.Fed
import JobControl.Host.Scripted
import JobControl.Proofs.Job.Listing
import JobControl.Proofs.ReadLoop.Run
import JobControl.Proofs.Shell.Lines
import JobControl.Proofs.Text.Decoding

/-!
# What the read loop lists

* `Typed` : the text is what some bytes without a newline decode to; `Typed.newline_not_mem` : it has
  none either;
* `Event.Whole` : an event brings bytes without a newline; `whole_taken` : so do all events of reads;
* `Reader.lines_run` : every job of a shell in the read loop has a typed line;
* `Reader.listing_decodable` : so its listings can be read back, whatever was typed.
-/

set_option autoImplicit false

namespace JobControl

/-- The text is what bytes without a newline are decoded to. -/
def Typed (text : String) : Prop := ∃ bytes, newline ∉ bytes ∧ text = Utf8.decode bytes

theorem Typed.newline_not_mem {text : String} (h : Typed text) : '\n' ∉ text.toList := by
  obtain ⟨bytes, hbytes, rfl⟩ := h
  intro hmem
  obtain ⟨b, hb, heq⟩ := Utf8.mem_decode hmem (by decide) (by decide)
  have hnewline : newline = b := UInt8.toNat_inj.1 heq
  exact hbytes (hnewline ▸ hb)

/-! ## Events -/

/-- Neither the lines of some bytes nor what is left has a newline. -/
theorem newline_not_mem_splitLines (bytes : List UInt8) :
    (∀ line ∈ (splitLines bytes).1, newline ∉ line) ∧ newline ∉ (splitLines bytes).2 := by
  induction bytes with
  | nil => simp [splitLines]
  | cons b bytes ih =>
    rw [splitLines]
    by_cases hb : b = newline
    · simpa [hb] using ih
    · rw [if_neg hb]
      generalize splitLines bytes = split at ih
      obtain ⟨_ | ⟨line, lines⟩, rest⟩ := split
      · simpa [Ne.symm hb] using ih
      · simpa [Ne.symm hb] using ih

def Event.Whole : Event → Prop
  | .news => True
  | .line bytes => newline ∉ bytes
  | .ended rest => newline ∉ rest

theorem Event.whole_taken {pending : List UInt8} (h : newline ∉ pending) (bytes : List UInt8) :
    (∀ e ∈ (taken pending bytes).1, e.Whole) ∧ newline ∉ (taken pending bytes).2 := by
  cases bytes with
  | nil =>
    refine ⟨fun e he => ?_, List.not_mem_nil⟩
    obtain rfl := List.mem_singleton.1 he
    exact h
  | cons b bytes =>
    obtain ⟨hlines, hrest⟩ := newline_not_mem_splitLines (pending ++ b :: bytes)
    refine ⟨fun e he => ?_, hrest⟩
    obtain ⟨line, hline, rfl⟩ := List.mem_map.1 he
    exact hlines line hline

/-! ## The shell -/

namespace Shell
variable {σ : Type} {s : Shell σ}

/-- The lines are typed whether or not the shell goes on. -/
theorem typed_goOn {out : Option (Except Error Int) × Shell σ}
    {next : Shell σ → Option (Except Error Int) × Shell σ} (h : out.2.past.Lines Typed)
    (hnext : ∀ s : Shell σ, s.past.Lines Typed → (next s).2.past.Lines Typed) :
    (goOn out next).2.past.Lines Typed := by
  obtain ⟨_ | outcome, s⟩ := out
  · exact hnext s h
  · exact h

variable [Host σ]

theorem typed_step {op : Op} (h : s.past.Lines Typed) (hop : ∀ line, op = .eval line → Typed line) :
    (s.step op).2.past.Lines Typed := by
  rw [past_step]
  exact (carried_lines Typed).perform hop h

theorem typed_drain (h : s.past.Lines Typed) : (s.step .drain).2.past.Lines Typed :=
  typed_step h fun _ hop => by cases hop

theorem typed_attend (h : s.past.Lines Typed) {line : List UInt8} (hline : newline ∉ line) :
    (s.attend line).2.past.Lines Typed := by
  refine typed_goOn (typed_drain h) fun s hs => typed_step hs fun text htext => ?_
  obtain rfl := Op.eval.inj htext
  exact ⟨line, hline, rfl⟩

theorem typed_heed (h : s.past.Lines Typed) (prompt : Bool) {e : Event} (he : e.Whole) :
    (s.heed prompt e).2.past.Lines Typed := by
  cases e with
  | news => exact typed_drain h
  | line bytes =>
    refine typed_goOn (typed_attend h he) fun s hs => ?_
    unfold greet
    split <;> exact hs
  | ended rest =>
    refine typed_goOn ?_ fun s hs => hs
    split
    · exact h
    · exact typed_attend h he

theorem typed_follow (h : s.past.Lines Typed) (prompt : Bool) {events : List Event}
    (hevents : ∀ e ∈ events, e.Whole) : (s.follow prompt events).2.past.Lines Typed := by
  induction events generalizing s with
  | nil => exact h
  | cons e events ih =>
    obtain ⟨he, hrest⟩ := List.forall_mem_cons.1 hevents
    exact typed_goOn (typed_heed h prompt he) fun s hs => ih hs hrest

end Shell

/-! ## The loop -/

namespace Reader
variable {σ : Type} {l : Reader σ} {r : Loop}

structure Clean (l : Reader σ) : Prop where
  lines : l.shell.past.Lines Typed
  pending : newline ∉ l.pending

variable [Host σ] [Input σ]

theorem clean_handle (h : l.Clean) (hr : r.stop = none) (channel : Channel) :
    (handle channel l r).1.Clean := by
  cases channel with
  | signals =>
    rw [handle, onSignal_eq]
    exact ⟨Shell.typed_heed h.lines l.prompt trivial, h.pending⟩
  | input =>
    rw [handle]
    rcases hread : Input.read Command.maxLine l.shell.host with ⟨e | bytes, host⟩
    · rw [onInput, hread]
      dsimp only
      split <;> exact ⟨h.lines, h.pending⟩
    · obtain ⟨hevents, hrest⟩ := Event.whole_taken h.pending bytes
      rw [l.onInput_eq hr hread]
      exact ⟨Shell.typed_follow (s := { l.shell with host }) h.lines l.prompt hevents, hrest⟩

/-- Whatever the shell of a read loop does, its jobs have typed lines. -/
theorem lines_run (host : σ) (console : Console) (prompt : Bool)
    (polls : List (EventLoop.Poll (Reader σ) Channel)) :
    (run { shell := { host, console }, prompt } polls).2.past.Lines Typed := by
  have hstart : Clean (showPrompt { shell := { host, console }, prompt } : Reader σ) := by
    have hlines : Past.Lines Typed ⟨[], .standard, 0⟩ :=
      ⟨fun k hk => by simp [Table.standard] at hk, by simp⟩
    rw [showPrompt_eq]
    refine ⟨?_, List.not_mem_nil⟩
    unfold Shell.greet
    split <;> exact hlines
  obtain ⟨r', hend⟩ := EventLoop.run_keeps (K := fun (l : Reader σ) _ => l.Clean)
    (fun channel l r h hr => clean_handle h hr channel) polls hstart (r := registry) rfl
  rw [run_eq]
  exact hend.lines

/-- **A listing is one decodable line for each job.** When no job's line has a newline in it, a listing
has as many lines as there are live jobs, each that of a job, in the order of their slots; and the jobs
with their ids, process ids, states and lines can be read back from the text. So tables with different
jobs have different listings, whatever the lines of the jobs look like. In a read loop every job has a
typed line, which has no newline; so whatever was typed, at every moment, its listing shows the jobs of
the table and no others. -/
theorem listing_decodable (host : σ) (console : Console) (prompt : Bool)
    (polls : List (EventLoop.Poll (Reader σ) Channel)) :
    (∀ t : Table, (∀ k ∈ t.jobs, k.OneLine) →
      Job.rows t.listing = t.jobs.map Job.row ∧ (Job.rows t.listing).length = t.size ∧
      t.listing.toList = (Job.rows t.listing).flatMap (· ++ ['\n']) ∧
      Job.ofListing? t.listing = some t.jobs) ∧
    (∀ t t' : Table, (∀ k ∈ t.jobs, k.OneLine) → (∀ k ∈ t'.jobs, k.OneLine) →
      (t.listing = t'.listing ↔ t.jobs = t'.jobs)) ∧
    ∀ q, (run { shell := { host, console }, prompt } polls).2.past.Includes q →
      (∀ k ∈ q.jobs.jobs, Typed k.line ∧ k.OneLine) ∧
      Job.ofListing? q.jobs.listing = some q.jobs.jobs := by
  refine ⟨fun t h => ?_, fun t t' h h' => Job.listing_inj h h', fun q hq => ?_⟩
  · have hrows : Job.rows t.listing = t.jobs.map Job.row := Job.rows_listing h
    refine ⟨hrows, by rw [hrows, List.length_map]; rfl, ?_, Job.ofListing?_listing h⟩
    rw [hrows, List.flatMap_map]
    exact Job.toList_listing t.jobs
  · have htyped := (lines_run host console prompt polls).includes hq
    have hline : ∀ k ∈ q.jobs.jobs, k.OneLine := fun k hk => (htyped k hk).newline_not_mem
    exact ⟨fun k hk => ⟨htyped k hk, hline k hk⟩, Job.ofListing?_listing hline⟩

/-- Two tables with jobs that were typed like entries and differ by a blank, and a shell that is given
such a line. -/
theorem listing_decodable_imitated :
    let first : Job := ⟨1, ⟨7⟩, .stopped, "Running    a"⟩
    let t : Table := ⟨[some first, none, some ⟨2, ⟨9⟩, .background, "[3] (8) Stopped    b"⟩], 3⟩
    let t' : Table := ⟨[some first, some ⟨2, ⟨9⟩, .background, "[3] (8) Stopped     b"⟩], 3⟩
    let typed := "a) [2] (9) Stopped    b &"
    let host : Fed Scripted :=
      { host := {}, reads := [.ok ((typed.toList ++ ['\n']).map fun c => UInt8.ofNat c.toNat)] }
    let s := (run { shell := { host } } (host.polls false)).2
    (∀ k ∈ t.jobs, k.OneLine) ∧ (∀ k ∈ t'.jobs, k.OneLine) ∧
    (Job.rows t.listing).length = 2 ∧ Job.ofListing? t.listing = some t.jobs ∧
    t.listing ≠ t'.listing ∧
    s.jobs.jobs = [⟨1, ⟨1000⟩, .background, typed⟩] ∧
    s.past.Includes s.past ∧ Job.ofListing? s.jobs.listing = some s.jobs.jobs := by
  intro first t t' typed host s
  have ht : ∀ k ∈ t.jobs, k.OneLine := by decide
  have ht' : ∀ k ∈ t'.jobs, k.OneLine := by decide
  obtain ⟨htable, hinj, hrun⟩ := listing_decodable host {} true (host.polls false)
  obtain ⟨-, hlength, -, hread⟩ := htable t ht
  refine ⟨ht, ht', hlength, hread, fun heq => ?_, by decide +kernel, .now, (hrun s.past .now).2⟩
  exact absurd ((hinj t t' ht ht').1 heq) (by decide)

end Reader
end JobControl
