import JobControl.Proofs.Shell.Functions

/-!
# What a shell keeps

The walk through the functions of the shell is made here, once for all that they keep.

* `Shell.Quiet` : the shell only says something;
* `Shell.Wakes` : a line was taken up that lets a stopped job go on;
* `Shell.Conduct` : what each thing that the shell does on the way keeps; so an evaluation ends as it
  should (`Conduct.eval`);
* `Shell.Carried` : the same for a property of the past alone (`Carried.perform`, `Carried.after`).
-/

set_option autoImplicit false

namespace JobControl.Shell
variable {σ : Type} {s s' : Shell σ} {line : String} {state : Job.State} {job : Job}

/-! ## On the way -/

/-- Nothing has happened but that something was said; a complaint is one that the journal explains. -/
structure Quiet (s s' : Shell σ) : Prop where
  past : s'.past = s.past
  said : s'.console.err = s.console.err ∨
    ∃ m, s'.console.err = s.console.err.say m ∧ s.journal.Explains m

theorem Quiet.refl (s : Shell σ) : s.Quiet s := ⟨rfl, .inl rfl⟩

theorem quiet_say (s : Shell σ) (n : Notice) : s.Quiet (s.say n) := ⟨rfl, .inl rfl⟩

theorem quiet_report (s : Shell σ) (n : Notice) : s.Quiet (s.report n) := by
  refine ⟨rfl, .inl ?_⟩
  unfold report Console.report
  dsimp only
  split <;> rfl

theorem quiet_complain {m : Complaint} (h : s.journal.Explains m) : s.Quiet (s.complain m) :=
  ⟨rfl, .inr ⟨m, rfl, h⟩⟩

/-- The shell `s'` has taken up the line, which lets the stopped job go on in `state`. -/
structure Wakes (s : Shell σ) (line : String) (state : Job.State) (job : Job) (s' : Shell σ) :
    Prop where
  noted : (s.note (.evaluate line)).Quiet s'
  named : ∃ reference, Command.Resumes line reference state ∧ s.jobs.find? reference = some job
  stopped : job.state = .stopped

theorem Wakes.jobs (h : s.Wakes line state job s') : s'.jobs = s.jobs :=
  congrArg Past.jobs h.noted.past

theorem Wakes.just (h : s.Wakes line state job s') : s'.past.Just (.evaluate line) s.journal := by
  rw [h.noted.past]
  rfl

variable [Host σ]

theorem quiet_list (s : Shell σ) (target : Option String) : s.Quiet (s.list target) := by
  cases target with
  | some path =>
    dsimp only [list]
    obtain ⟨e | u, host⟩ := Host.writeFile path s.jobs.listing (Host.hear s.console s.host)
    · exact ⟨rfl, .inr ⟨_, rfl, trivial⟩⟩
    · exact ⟨rfl, .inl rfl⟩
  | none =>
    dsimp only [list]
    obtain e | out := s.console.out.write (.listing s.jobs.jobs)
    · exact ⟨rfl, .inr ⟨_, rfl, trivial⟩⟩
    · exact ⟨rfl, .inl rfl⟩

/-- The signal is sent just after the line was taken up. -/
theorem Wakes.told (h : s.Wakes line state job s') :
    (s'.signal .resume job.pid .cont).2.past.Just
      (.signal .resume job.pid .cont (s'.signal .resume job.pid .cont).1)
      (⟨.evaluate line, s'.jobs, s'.deferrals⟩ :: s.journal) :=
  congrArg (List.cons _) h.just

/-- What the things keep that a shell does while it evaluates `line`. `K` holds on the way, and says
whether the shell waits; `Q` is to hold at the end. -/
structure Conduct (line : String) (K : Bool → Shell σ → Prop)
    (Q : Except Error Flow × Shell σ → Prop) : Prop where
  quiet : ∀ {s s'}, K false s → s.Quiet s' → K false s'
  /-- The line is taken up. It lets no job go on. -/
  idle : ∀ {s}, K false s → (∀ state job, ¬ s.Wakes line state job (s.note (.evaluate line))) →
    K false (s.note (.evaluate line))
  defer : ∀ s, K false s → K false s.defer.2
  /-- A job is started, with signals held back. A job in the foreground is waited for. -/
  start : ∀ s request, K false s → s.jobs.isFull = false → 0 < s.deferrals →
    request.line = line →
    K ((s.start request).1.isOk && !request.background) (s.start request).2.release
  /-- A job cannot be told to go on. -/
  unsent : ∀ {s state job s' e}, K false s → s.Wakes line state job s' →
    (s'.signal .resume job.pid .cont).1 = .error e → K false (s'.signal .resume job.pid .cont).2
  /-- A job was told to go on, and the table refuses to move it. -/
  refused : ∀ {s state job s' reason}, K false s → s.Wakes line state job s' →
    (s'.signal .resume job.pid .cont).1 = .ok () →
    s'.jobs.setState job.pid state = .error reason →
    Q (.error (.table reason), (s'.signal .resume job.pid .cont).2)
  /-- A job was told to go on, and it is moved. -/
  moved : ∀ {s state job s' jobs}, K false s → s.Wakes line state job s' →
    (s'.signal .resume job.pid .cont).1 = .ok () → s'.jobs.setState job.pid state = .ok jobs →
    K (state = .foreground)
      { (s'.signal .resume job.pid .cont).2.note (.resume job.pid state) with jobs }
  /-- A round of waiting, after which the shell waits on. -/
  round : ∀ s, K true s → (takeUp s.await).1 = .ok .continue → K true (takeUp s.await).2
  /-- A round of waiting in which the shell stops. -/
  stop : ∀ s, K true s → (takeUp s.await).1 ≠ .ok .continue → Q (takeUp s.await)
  /-- The wait is over. -/
  rest : ∀ {s}, K true s → s.jobs.foreground? = none → Q (.ok .continue, s)
  goOn : ∀ {s}, K false s → Q (.ok .continue, s)
  exit : ∀ {s}, K false s → Q (.ok (.exit 0), s)
  fatal : ∀ {s e}, K false s → e.isFatal → Q (.error e, s)

namespace Conduct
variable {K : Bool → Shell σ → Prop} {Q : Except Error Flow × Shell σ → Prop}
  (c : Conduct line K Q)
include c

theorem reject (h : K false s) {m : Complaint} (hm : s.journal.Explains m) : Q (s.reject m) :=
  c.goOn (c.quiet h (quiet_complain hm))

theorem waitForeground (h : K true s) : Q s.waitForeground := by
  fun_induction Shell.waitForeground s with
  | case1 s hnone => exact c.rest h hnone
  | case2 s pid hbusy e s' hawait =>
    have hstop := c.stop s h
    rw [hawait] at hstop
    exact hstop nofun
  | case3 s pid hbusy batch s' hawait s'' happly ih =>
    have hround := c.round s h
    rw [hawait, takeUp, happly] at hround
    exact ih (hround rfl)
  | case4 s pid hbusy batch s' hawait hstopped =>
    have hstop := c.stop s h
    rw [hawait] at hstop
    exact hstop fun hcontinue => hstopped _ (Prod.ext hcontinue rfl)

theorem launch (h : K false s) (request : LaunchRequest) (hline : request.line = line) :
    K ((s.launch request).1.isOk && !request.background) (s.launch request).2 := by
  rw [launch_eq]
  split
  · exact h
  · next hroom =>
    obtain ⟨n, hpast, hdeferred⟩ := s.past_defer
    have hjobs : s.defer.2.jobs = s.jobs := congrArg Past.jobs hpast
    have hdeferrals : s.defer.2.deferrals = n := congrArg Past.deferrals hpast
    cases hdefer : s.defer.1 with
    | error e => exact c.defer s h
    | ok u =>
      refine c.start _ request (c.defer s h) ?_ (hdeferrals ▸ hdeferred hdefer) hline
      rw [hjobs]
      simpa using hroom

theorem run (h : K false s) (command : Command) : Q (s.run command line) := by
  have hlaunch := c.launch h
    { argv := command.argv, input := command.input, output := command.output
      background := command.background, line } rfl
  unfold Shell.run
  dsimp only at hlaunch ⊢
  split
  · next reason s' hout =>
    obtain hfatal | ⟨_, htable, hexplains⟩ := error_launch (congrArg Prod.fst hout)
    · cases hfatal
    · cases htable
      rw [hout] at hlaunch hexplains
      exact c.reject hlaunch hexplains
  · next e s' hother hout =>
    rw [hout] at hlaunch
    obtain hfatal | ⟨reason, htable, -⟩ := error_launch (congrArg Prod.fst hout)
    · exact c.fatal hlaunch hfatal
    · exact (hother reason htable).elim
  · next job s' hout =>
    rw [hout] at hlaunch
    split
    · next background =>
      rw [background] at hlaunch
      exact c.goOn (c.quiet hlaunch (quiet_say s' _))
    · next background =>
      rw [eq_false_of_ne_true background] at hlaunch
      exact c.waitForeground hlaunch

theorem continueJob (h : K false s) (wakes : s.Wakes line state job s') (builtin : Builtin) :
    Q (s'.continueJob builtin job state) := by
  rw [continueJob_eq]
  cases hsent : (s'.signal .resume job.pid .cont).1 with
  | error e => exact c.reject (c.unsent h wakes hsent) trivial
  | ok u =>
    dsimp only
    cases hset : s'.jobs.setState job.pid state with
    | error reason => exact c.refused h wakes hsent hset
    | ok jobs =>
      have hmoved := c.moved h wakes hsent hset
      dsimp only
      split
      · next hstate =>
        rw [decide_eq_true hstate] at hmoved
        exact c.waitForeground hmoved
      · next hstate =>
        rw [decide_eq_false hstate] at hmoved
        exact c.goOn hmoved

theorem resume {command : Command} {builtin : Builtin} (h : K false s)
    (parsed : Command.parse line = .ok (some command)) (hbuiltin : command.builtin = some builtin)
    (hstate : builtin = .bg ∧ state = .background ∨ builtin = .fg ∧ state = .foreground) :
    Q ((s.note (.evaluate line)).resume builtin state command.argv) := by
  rcases (s.note (.evaluate line)).resume_cases builtin state command.argv with
    ⟨job, ⟨name, arg, reference, hargv, hparse, found, stopped⟩, heq⟩ | ⟨hnone, m, heq, explains⟩ <;>
    rw [heq]
  · have named : ∃ reference, Command.Resumes line reference state ∧
        s.jobs.find? reference = some job := by
      refine ⟨reference, (Command.resumes_iff parsed).2 ⟨name, arg, hargv, hparse, ?_⟩, found⟩
      simpa [hbuiltin] using hstate
    split
    · exact c.continueJob h ⟨quiet_say _ _, named, stopped⟩ builtin
    · exact c.continueJob h ⟨.refl _, named, stopped⟩ builtin
  · have hidle := c.idle h fun state' job wakes => by
      obtain ⟨reference, resumes, found⟩ := wakes.named
      obtain ⟨name, arg, hargv, hparse, -⟩ := (Command.resumes_iff parsed).1 resumes
      exact hnone job ⟨name, arg, reference, hargv, hparse, found, wakes.stopped⟩
    exact c.reject hidle (explains _)

/-- What everything on the way keeps, the evaluation of a line ends with. -/
theorem eval (h : K false s) : Q (s.eval line) := by
  have hother (hnone : ∀ reference state, ¬ Command.Resumes line reference state) :
      K false (s.note (.evaluate line)) :=
    c.idle h fun state job wakes => wakes.named.elim fun reference hr => hnone reference state hr.1
  unfold Shell.eval
  dsimp only
  split
  · next fault hparse =>
    refine c.reject (hother fun reference state ⟨command, _, _, parsed, _⟩ => ?_) trivial
    cases hparse.symm.trans parsed
  · next hparse =>
    refine c.goOn (hother fun reference state ⟨command, _, _, parsed, _⟩ => ?_)
    cases hparse.symm.trans parsed
  · next command parsed =>
    have hbuiltin (hbg : command.builtin ≠ some .bg) (hfg : command.builtin ≠ some .fg) :
        K false (s.note (.evaluate line)) := by
      refine hother fun reference state resumes => ?_
      obtain ⟨-, -, -, -, ⟨hb, -⟩ | ⟨hb, -⟩⟩ := (Command.resumes_iff parsed).1 resumes
      · exact hbg hb
      · exact hfg hb
    split
    · next hb => exact c.run (hbuiltin (by simp [hb]) (by simp [hb])) command
    · next hb => exact c.exit (c.quiet (hbuiltin (by simp [hb]) (by simp [hb])) (quiet_report _ _))
    · next hb => exact c.goOn (c.quiet (hbuiltin (by simp [hb]) (by simp [hb])) (quiet_list _ _))
    · next hb => exact c.resume h parsed hb (.inl ⟨rfl, rfl⟩)
    · next hb => exact c.resume h parsed hb (.inr ⟨rfl, rfl⟩)

end Conduct

/-! ## Properties of the past -/

/-- What a shell does keeps `P`, if it evaluates only lines of this kind. -/
structure Carried (σ : Type) [Host σ] (kind : String → Prop) (P : Past → Prop) : Prop where
  apply : ∀ (s : Shell σ) (n : Notification), P s.past → P (s.apply n).2.past
  drain : ∀ s : Shell σ, P s.past → P (s.note .drain).pending.2.past
  await : ∀ s : Shell σ, P s.past → P s.await.2.past
  idle : ∀ (s : Shell σ) (line : String), P s.past →
    (∀ state job, ¬ s.Wakes line state job (s.note (.evaluate line))) →
    P (s.note (.evaluate line)).past
  defer : ∀ s : Shell σ, P s.past → P s.defer.2.past
  start : ∀ (s : Shell σ) (request : LaunchRequest), P s.past → s.jobs.isFull = false →
    0 < s.deferrals → kind request.line → P (s.start request).2.release.past
  /-- A job cannot be told to go on, or was told and cannot be moved. -/
  unmoved : ∀ {s : Shell σ} {line state job s'}, P s.past → s.Wakes line state job s' →
    ((s'.signal .resume job.pid .cont).1 = .ok () →
      ∀ jobs, s'.jobs.setState job.pid state ≠ .ok jobs) →
    P (s'.signal .resume job.pid .cont).2.past
  moved : ∀ {s : Shell σ} {line state job s' jobs}, P s.past → s.Wakes line state job s' →
    (s'.signal .resume job.pid .cont).1 = .ok () → s'.jobs.setState job.pid state = .ok jobs →
    P ({ (s'.signal .resume job.pid .cont).2.note (.resume job.pid state) with jobs } : Shell σ).past

namespace Carried
variable {kind : String → Prop} {P : Past → Prop} (c : Carried σ kind P)
include c

theorem takeUp {fetched : Except Error (List Notification) × Shell σ} (h : P fetched.2.past) :
    P (takeUp fetched).2.past :=
  takeUp_keeps (K := fun s => P s.past) c.apply h

theorem conduct (hline : kind line) :
    Conduct (σ := σ) line (fun _ s => P s.past) fun r => P r.2.past where
  quiet h quiet := quiet.past ▸ h
  idle h hnone := c.idle _ line h hnone
  defer := c.defer
  start s request h hroom hdeferred hrequest :=
    c.start s request h hroom hdeferred (hrequest ▸ hline)
  unsent h wakes he := c.unmoved h wakes fun hok => by cases he.symm.trans hok
  refused h wakes _ hset := c.unmoved h wakes fun _ jobs hok => by cases hset.symm.trans hok
  moved := c.moved
  round s h _ := c.takeUp (c.await s h)
  stop s h _ := c.takeUp (c.await s h)
  rest h _ := h
  goOn := id
  exit := id
  fatal h _ := h

/-- Every operation keeps it. -/
theorem perform {op : Op} (hop : ∀ line, op = .eval line → kind line) (h : P s.past) :
    P (s.perform op).2.past := by
  cases op with
  | eval line => exact (c.conduct (hop line rfl)).eval h
  | drain =>
    rw [Shell.perform, drain_eq]
    exact c.takeUp (c.drain s h)

theorem after {ops : List Op} (hops : ∀ line, .eval line ∈ ops → kind line) (h : P s.past) :
    P (s.after ops).past := by
  induction ops generalizing s with
  | nil => exact h
  | cons op ops ih =>
    refine ih (fun line hline => hops line (List.mem_cons_of_mem _ hline)) (c.perform ?_ h)
    rintro line rfl
    exact hops line List.mem_cons_self

end Carried
end JobControl.Shell
