import JobControl.Proofs.Command.Rendering
import JobControl.Proofs.Job.Reference
import JobControl.Proofs.Shell.InPlace
import JobControl.Proofs.Shell.Lifecycle
import JobControl.Proofs.Shell.Mirror
import JobControl.Proofs.Table.History

/-!
# A job is named by its id or by its process

* `Command.parse_pair` : a line of two bare words is read as a command with these words;
* `Builtin.naming` : the line with which `bg` or `fg` names a job; `parse_naming` : how it is read;
* `Table.find?_eq_some_iff` : both kinds of reference find the live job that they are for;
* `Shell.Reworded` : two shells that differ only in a line that they have noted; `mirrors_reworded` :
  they go on alike;
* `naming_by_id_or_pid` : so both lines that name a job do the same.
-/

set_option autoImplicit false

namespace JobControl

/-! ## Lines of two words -/

namespace Command

def Layout.pair (w w' : Written) : Layout where
  before := ⟨[], by decide⟩
  first := .argument w
  others := [(⟨[' '], by decide⟩, .argument w')]
  after := ⟨[], by decide⟩

theorem parse_pair {word word' : String} (suits : Style.bare.Suits word)
    (suits' : Style.bare.Suits word') (unmarked : ¬ Marks word')
    (fits : (word ++ " " ++ word').utf8ByteSize ≤ maxLine) :
    parse (word ++ " " ++ word') =
      .ok (some { argv := [word, word'], builtin := Builtin.ofName? word }) := by
  let w : Written := ⟨word, .bare, suits⟩
  let w' : Written := ⟨word', .bare, suits'⟩
  have shows : (Layout.pair w w').Shows [w, w'] none none false := ⟨rfl, rfl, rfl⟩
  have hchars : (word ++ " " ++ word').toList = (Layout.pair w w').chars := by
    simp [Layout.pair, Layout.chars, Layout.tail, Piece.chars, Written.chars, Style.write, w, w']
  have means := shows.means (List.cons_ne_nil w [w']) fun _ last hlast => by
    obtain rfl : w' = last := by simpa using hlast
    exact unmarked
  refine Parses.parse_eq ?_ fits
  rw [hchars]
  exact .ended (Layout.pair w w').spelled shows.nodup
    (Nat.lt_of_le_of_lt shows.length_arguments_le (by simp [maxArgs])) (Layout.pair w w').after.2
    means

end Command

def Builtin.naming (builtin : Builtin) (r : Job.Reference) : String :=
  builtin.name ++ " " ++ r.text

namespace Job.Reference
variable {r : Reference}

/-- No other characters are in a reference than digits, the percent sign and the minus sign. -/
theorem ne_of_mem_text {c d : Char} (hc : c ∈ r.text.toList) (hdigit : d.isDigit = false)
    (hpercent : d ≠ '%') (hminus : d ≠ '-') : c ≠ d := by
  obtain ⟨first, cs, htext, hfirst, hcs⟩ := r.exists_toList_text
  rw [htext] at hc
  rcases List.mem_cons.1 hc with rfl | hc
  · rcases hfirst with hfirst | rfl | rfl
    · exact Decimal.ne_of_isDigit hfirst hdigit
    · exact hpercent.symm
    · exact hminus.symm
  · exact Decimal.ne_of_isDigit (hcs c hc) hdigit

theorem suits_text (r : Reference) : Command.Style.bare.Suits r.text := by
  have hne {c d : Char} (hc : c ∈ r.text.toList) (hdigit : d.isDigit = false) (hpercent : d ≠ '%')
      (hminus : d ≠ '-') : c ≠ d := ne_of_mem_text hc hdigit hpercent hminus
  refine ⟨?_, fun c hc hblank => ?_, fun c hc => ?_⟩
  · rintro hempty
    obtain ⟨c, cs, htext, -⟩ := r.exists_toList_text
    rw [hempty] at htext
    cases htext
  · rcases hblank c List.mem_cons_self with h | h | h | h
    all_goals exact hne hc (by decide) (by decide) (by decide) h
  · have hmem : c ∈ r.text.toList := List.mem_of_mem_head? hc
    refine ⟨fun stream => ?_, fun hquote => ?_⟩
    · cases stream <;> exact hne hmem (by decide) (by decide) (by decide)
    · rcases hquote with h | h
      all_goals exact hne hmem (by decide) (by decide) (by decide) h

theorem unmarked_text (r : Reference) : ¬ Command.Marks r.text := by
  rintro ⟨rest, hmark⟩
  have hmem : '&' ∈ r.text.toList := by simp [hmark]
  exact ne_of_mem_text hmem (by decide) (by decide) (by decide) rfl

theorem utf8ByteSize_text_le (fits : r.Fits) : r.text.utf8ByteSize ≤ 44 := by
  have hlength := length_text_le fits
  have hsize := Utf8.size_le r.text.toList
  rw [Utf8.size_eq, String.ofList_toList] at hsize
  omega

end Job.Reference

theorem Command.parse_naming {builtin : Builtin} {r : Job.Reference} (fits : r.Fits) :
    Command.parse (builtin.naming r) =
      .ok (some { argv := [builtin.name, r.text], builtin := some builtin }) := by
  have hname : Builtin.ofName? builtin.name = some builtin := by cases builtin <;> rfl
  have suits : Style.bare.Suits builtin.name := by cases builtin <;> decide
  have short : (builtin.name ++ " ").utf8ByteSize ≤ 5 := by cases builtin <;> decide
  have hsize := r.utf8ByteSize_text_le fits
  rw [Builtin.naming, parse_pair suits r.suits_text r.unmarked_text, hname]
  rw [String.utf8ByteSize_append]
  unfold maxLine
  omega

/-! ## Complaints -/

theorem Console.errText_complain {c : Console} (works : c.err.broken = false) (m : Complaint) :
    (c.complain m).errText = c.errText ++ m.text := by
  have hsaid : (c.complain m).err.messages = c.err.messages ++ [m] := by
    simp [complain, Sink.say, works, Sink.messages, Sink.put]
  rw [errText, hsaid, List.map_append, List.map_singleton, String.join_append]
  simp [errText]

/-! ## The jobs that references are for -/

/-- A reference finds the live job that it is for, whichever kind it is of. -/
theorem Table.find?_eq_some_iff {t : Table} (sound : t.Sound) (distinct : t.Distinct)
    {r : Job.Reference} {k : Job} : t.find? r = some k ↔ r.Names k ∧ k ∈ t.jobs := by
  cases r with
  | id i => exact findById?_eq_some_iff sound
  | pid p => exact findByPid?_eq_some_iff distinct sound.valid

namespace Shell
variable {σ : Type} [Host σ] {s : Shell σ} {builtin : Builtin} {state : Job.State}
  {r r' : Job.Reference}

/-- `bg` and `fg` look at no more of their argument than the job that it names. -/
theorem resume_congr (fits : r.Fits) (fits' : r'.Fits) (same : s.jobs.find? r = s.jobs.find? r')
    (name : String) :
    s.resume builtin state [name, r.text] = s.resume builtin state [name, r'.text] := by
  simp only [resume, Job.Reference.parse?_text fits, Job.Reference.parse?_text fits', same]

theorem eval_naming (resumed : builtin.resumed? = some state) (fits : r.Fits) :
    s.eval (builtin.naming r) = (s.note (.evaluate (builtin.naming r))).resume builtin state
      [builtin.name, r.text] :=
  eval_resume (Command.parse_naming fits) rfl resumed

/-! ## Shells that noted different lines -/

/-- The shells differ only in one entry of their journals, after which they have done the same. -/
inductive Reworded (e e' : Journal.Entry) (earlier : Journal) : Shell σ → Shell σ → Prop where
  | intro (s : Shell σ) (since : Journal) :
      Reworded e e' earlier { s with journal := since ++ e :: earlier }
        { s with journal := since ++ e' :: earlier }

/-- Shells that noted different lines do the same from then on. -/
theorem mirrors_reworded (e e' : Journal.Entry) (earlier : Journal) :
    Mirrors (Reworded (σ := σ) e e' earlier) where
  jobs := by
    rintro _ _ ⟨s, since⟩
    rfl
  setJobs := by
    rintro _ _ ⟨s, since⟩ jobs
    exact .intro { s with jobs } since
  note := by
    rintro _ _ ⟨s, since⟩ d
    exact .intro s (⟨d, s.jobs, s.deferrals⟩ :: since)
  say := by
    rintro _ _ ⟨s, since⟩ n -
    exact .intro (s.say n) since
  report := by
    rintro _ _ ⟨s, since⟩ n -
    exact .intro (s.report n) since
  complain := by
    rintro _ _ ⟨s, since⟩ m
    exact .intro (s.complain m) since
  list := by
    rintro _ _ ⟨s, since⟩ target
    cases target with
    | none =>
      simp only [list]
      rcases s.console.out.write (.listing s.jobs.jobs) with e | out
      · exact .intro (s.complain (.notListed none e)) since
      · exact .intro { s with console := { s.console with out } } since
    | some path =>
      simp only [list]
      rcases Host.writeFile path s.jobs.listing (Host.hear s.console s.host) with ⟨e | u, host⟩
      · exact .intro ({ s with host }.complain (.notListed (some path) e)) since
      · exact .intro { s with host } since
  defer := by
    rintro _ _ ⟨s, since⟩
    simp only [defer]
    rcases Host.defer s.host with ⟨cause | u, host⟩
    · exact ⟨rfl, .intro { s with host } (⟨.defer (.error cause), s.jobs, s.deferrals⟩ :: since)⟩
    · exact ⟨rfl, .intro { s with host, deferrals := s.deferrals + 1 }
        (⟨.defer (.ok ()), s.jobs, s.deferrals⟩ :: since)⟩
  release := by
    rintro _ _ ⟨s, since⟩
    exact .intro s.release (⟨.release, s.jobs, s.deferrals⟩ :: since)
  spawn := by
    rintro _ _ ⟨s, since⟩ request
    exact ⟨rfl, .intro (s.spawn request).2
      (⟨.spawn request (s.spawn request).1, s.jobs, s.deferrals⟩ :: since)⟩
  signal := by
    rintro _ _ ⟨s, since⟩ origin target sig
    exact ⟨rfl, .intro (s.signal origin target sig).2
      (⟨.signal origin target sig (s.signal origin target sig).1, s.jobs, s.deferrals⟩ :: since)⟩
  await := by
    rintro _ _ ⟨s, since⟩
    exact ⟨rfl, .intro s.await.2 (⟨.fetch true s.await.1, s.jobs, s.deferrals⟩ :: since)⟩
  pending := by
    rintro _ _ ⟨s, since⟩
    exact ⟨rfl, .intro s.pending.2 (⟨.fetch false s.pending.1, s.jobs, s.deferrals⟩ :: since)⟩

/-! ## Both names -/

/-- Two lines that name the same job do the same. -/
theorem echo_naming (resumed : builtin.resumed? = some state) (fits : r.Fits) (fits' : r'.Fits)
    (same : s.jobs.find? r = s.jobs.find? r') :
    Echo (Reworded ⟨.evaluate (builtin.naming r), s.jobs, s.deferrals⟩
        ⟨.evaluate (builtin.naming r'), s.jobs, s.deferrals⟩ s.journal)
      (s.eval (builtin.naming r)) (s.eval (builtin.naming r')) := by
  have hsame : (s.note (.evaluate (builtin.naming r'))).jobs.find? r' =
      (s.note (.evaluate (builtin.naming r'))).jobs.find? r := same.symm
  rw [eval_naming resumed fits, eval_naming resumed fits', resume_congr fits' fits hsame]
  exact (mirrors_reworded _ _ _).resume (.intro s []) builtin state _

/-- A line that names no live job is rejected. -/
theorem eval_naming_of_none (resumed : builtin.resumed? = some state) (fits : r.Fits)
    (none : s.jobs.find? r = none) : s.eval (builtin.naming r) =
      (.ok .continue, (s.note (.evaluate (builtin.naming r))).complain .noSuchJob) := by
  have hnone : (s.note (.evaluate (builtin.naming r))).jobs.find? r = Option.none := none
  rw [eval_naming resumed fits]
  simp only [resume, Job.Reference.parse?_text fits, hnone, reject]

/-- **A job is named by its id or by its process.** Whatever was done before, let processes be
distinct. A `bg` or an `fg` of a live job does the same whether it names the job by its id or by its
process: it ends in the same way, and the shells differ only in the line that they have noted. One that
names no live job changes nothing but that `No such job` is written to standard error. -/
theorem naming_by_id_or_pid (host : σ) (console : Console) (ops : List Op)
    (distinct : (Shell.after { host, console } ops).jobs.Distinct)
    (resumed : builtin.resumed? = some state) :
    let s := Shell.after { host, console } ops
    (∀ k ∈ s.jobs.jobs, k.pid.val ≤ Job.Reference.maxPid →
      Echo (Reworded ⟨.evaluate (builtin.naming (.id k.id)), s.jobs, s.deferrals⟩
          ⟨.evaluate (builtin.naming (.pid k.pid)), s.jobs, s.deferrals⟩ s.journal)
        (s.eval (builtin.naming (.id k.id))) (s.eval (builtin.naming (.pid k.pid)))) ∧
    ∀ r : Job.Reference, r.Fits → (∀ k ∈ s.jobs.jobs, ¬ r.Names k) →
      s.eval (builtin.naming r) =
        (.ok .continue, (s.note (.evaluate (builtin.naming r))).complain .noSuchJob) ∧
      (s.console.err.broken = false →
        (s.eval (builtin.naming r)).2.console.errText = s.console.errText ++ "No such job\n") := by
  intro s
  have recorded := (recorded_after host console ops).1
  have sound : s.jobs.Sound := recorded.sound
  have hcapacity : s.jobs.capacity = Table.maxJobs := recorded.capacity
  refine ⟨fun k hk hmost => ?_, fun r fits hnone => ?_⟩
  · have hid : (Job.Reference.id k.id).Fits := by
      have hrange := (sound.range k.id (List.mem_map_of_mem hk)).2
      rw [hcapacity] at hrange
      exact Nat.le_trans hrange (by decide)
    have hpid : (Job.Reference.pid k.pid).Fits := by
      have hvalid : 0 < k.pid.val := sound.valid k hk
      exact ⟨by unfold Job.Reference.minPid; omega, hmost⟩
    have hfind (r : Job.Reference) (hnames : r.Names k) : s.jobs.find? r = some k :=
      (Table.find?_eq_some_iff sound distinct).2 ⟨hnames, hk⟩
    refine echo_naming resumed hid hpid ?_
    rw [hfind (.id k.id) rfl, hfind (.pid k.pid) rfl]
  · have hfind : s.jobs.find? r = none := by
      refine Option.eq_none_iff_forall_ne_some.2 fun k hfind => ?_
      obtain ⟨hnames, hk⟩ := (Table.find?_eq_some_iff sound distinct).1 hfind
      exact hnone k hk hnames
    have heval := eval_naming_of_none resumed fits hfind
    refine ⟨heval, fun works => ?_⟩
    rw [heval]
    exact Console.errText_complain works .noSuchJob

/-- A stopped job is taken to the foreground, where it ends; no job has id 2. -/
theorem naming_by_id_or_pid_fg :
    let host : Scripted :=
      { events := [.ok [.child ⟨1000⟩ (.stopped .tstp)], .ok [.child ⟨1000⟩ (.exited 0)]] }
    let s := Shell.after { host } [.eval "vi"]
    let job : Job := ⟨1, ⟨1000⟩, .stopped, "vi"⟩
    (s.jobs.Distinct ∧ Builtin.fg.resumed? = some .foreground ∧ job ∈ s.jobs.jobs ∧
      job.pid.val ≤ Job.Reference.maxPid ∧ ∀ k ∈ s.jobs.jobs, ¬ (Job.Reference.id 2).Names k) ∧
    Builtin.fg.naming (.id 1) = "fg %1" ∧ Builtin.fg.naming (.pid ⟨1000⟩) = "fg 1000" ∧
    Echo (Reworded ⟨.evaluate "fg %1", s.jobs, s.deferrals⟩ ⟨.evaluate "fg 1000", s.jobs, s.deferrals⟩
      s.journal) (s.eval "fg %1") (s.eval "fg 1000") ∧
    (s.eval "fg %1").2.journal.signalled = [(⟨1000⟩, .cont)] ∧ (s.eval "fg %1").2.jobs.jobs = [] ∧
    s.eval "fg %2" = (.ok .continue, (s.note (.evaluate "fg %2")).complain .noSuchJob) ∧
    s.console.err.broken = false ∧
    (s.eval "fg %2").2.console.errText = s.console.errText ++ "No such job\n" := by
  intro host s job
  have hjobs : s.jobs.jobs = [job] := by decide +kernel
  have distinct : s.jobs.Distinct := by simp [Table.Distinct, hjobs]
  have hid : Builtin.fg.naming (.id 1) = "fg %1" := by decide +kernel
  have hpid : Builtin.fg.naming (.pid ⟨1000⟩) = "fg 1000" := by decide +kernel
  have hother : Builtin.fg.naming (.id 2) = "fg %2" := by decide +kernel
  have hmem : job ∈ s.jobs.jobs := by simp [hjobs]
  have hnone : ∀ k ∈ s.jobs.jobs, ¬ (Job.Reference.id 2).Names k := by
    simp [hjobs, job, Job.Reference.Names]
  have hmost : job.pid.val ≤ Job.Reference.maxPid := by decide
  obtain ⟨both, missing⟩ := naming_by_id_or_pid host {} [.eval "vi"] distinct
    (show Builtin.fg.resumed? = some .foreground from rfl)
  have echo := both job hmem hmost
  have works : s.console.err.broken = false := by decide +kernel
  obtain ⟨rejected, told⟩ := missing (.id 2) (show 2 ≤ Job.Reference.maxId by decide) hnone
  rw [hid, hpid] at echo
  rw [hother] at rejected told
  exact ⟨⟨distinct, rfl, hmem, hmost, hnone⟩, hid, hpid, echo, by decide +kernel, by decide +kernel,
    rejected, works, told works⟩

end Shell
end JobControl
