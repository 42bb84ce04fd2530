import JobControl.Proofs.ReadLoop.Interpreter
import JobControl.Proofs.Shell.Run

/-!
# Shells that mirror each other

Two shells with a relation between them, possibly on hosts of different kinds. If the requests of the
shell are answered alike and keep the relation, every function of the shell does.

* `Shell.Echo` : the answers are the same, and the shells are related;
* `Shell.Mirrors` : a relation that is kept by all that functions of the shell are made of;
* `Mirrors.drain`, `launch`, `waitForeground`, `eval`, `perform` : so it is by each of them, with the
  same answers;
* `Mirrors.follow` : shells that are so related follow events alike.
-/

set_option autoImplicit false

namespace JobControl.Shell
variable {σ τ α : Type} {T : Shell σ → Shell τ → Prop} {s : Shell σ} {s' : Shell τ}

structure Echo (T : Shell σ → Shell τ → Prop) (out : α × Shell σ) (out' : α × Shell τ) : Prop where
  answer : out'.1 = out.1
  related : T out.2 out'.2

theorem Echo.exists {out : α × Shell σ} {out' : α × Shell τ} (h : Echo T out out') :
    ∃ answer s s', out = (answer, s) ∧ out' = (answer, s') ∧ T s s' :=
  ⟨out.1, out.2, out'.2, rfl, Prod.ext h.answer rfl, h.related⟩

theorem Echo.goOn {out : Option (Except Error Int) × Shell σ}
    {out' : Option (Except Error Int) × Shell τ} (h : Echo T out out')
    {next : Shell σ → Option (Except Error Int) × Shell σ}
    {next' : Shell τ → Option (Except Error Int) × Shell τ}
    (hnext : ∀ {s s'}, T s s' → Echo T (next s) (next' s')) :
    Echo T (goOn out next) (goOn out' next') := by
  obtain ⟨outcome, t, t', rfl, rfl, hlater⟩ := h.exists
  cases outcome with
  | none => exact hnext hlater
  | some outcome => exact ⟨rfl, hlater⟩

/-- Related shells have the same table. Whatever is noted, said or asked of the host, they are answered
alike and stay related. -/
structure Mirrors [Host σ] [Host τ] (T : Shell σ → Shell τ → Prop) : Prop where
  jobs : ∀ {s s'}, T s s' → s'.jobs = s.jobs
  setJobs : ∀ {s s'}, T s s' → ∀ jobs, T { s with jobs } { s' with jobs }
  note : ∀ {s s'}, T s s' → ∀ d, T (s.note d) (s'.note d)
  say : ∀ {s s'}, T s s' → ∀ {n : Notice}, n.isDiagnostic = false → T (s.say n) (s'.say n)
  report : ∀ {s s'}, T s s' → ∀ {n : Notice}, n.isDiagnostic = true → T (s.report n) (s'.report n)
  complain : ∀ {s s'}, T s s' → ∀ m, T (s.complain m) (s'.complain m)
  list : ∀ {s s'}, T s s' → ∀ target, T (s.list target) (s'.list target)
  defer : ∀ {s s'}, T s s' → Echo T s.defer s'.defer
  release : ∀ {s s'}, T s s' → T s.release s'.release
  spawn : ∀ {s s'}, T s s' → ∀ request, Echo T (s.spawn request) (s'.spawn request)
  signal : ∀ {s s'}, T s s' → ∀ origin target sig,
    Echo T (s.signal origin target sig) (s'.signal origin target sig)
  await : ∀ {s s'}, T s s' → Echo T s.await s'.await
  pending : ∀ {s s'}, T s s' → Echo T s.pending s'.pending

namespace Mirrors
variable [Host σ] [Host τ] (m : Mirrors T)
include m

/-! ## Taking up news -/

theorem dropJob (h : T s s') (pid : Pid) : T (s.dropJob pid) (s'.dropJob pid) := by
  rw [Shell.dropJob, Shell.dropJob, m.jobs h]
  obtain _ | ⟨job, jobs⟩ := s.jobs.remove pid
  · exact h
  · exact m.setJobs h jobs

theorem markStopped (h : T s s') (pid : Pid) : T (s.markStopped pid) (s'.markStopped pid) := by
  rw [Shell.markStopped, Shell.markStopped, m.jobs h]
  obtain reason | jobs := s.jobs.setState pid .stopped
  · exact h
  · exact m.setJobs h jobs

theorem applyChange (h : T s s') (pid : Pid) (change : ChildChange) :
    T (s.applyChange pid change) (s'.applyChange pid change) := by
  rw [Shell.applyChange, Shell.applyChange, m.jobs h]
  cases s.jobs.findByPid? pid with
  | none => exact m.complain h _
  | some job =>
    cases change with
    | exited code => exact m.dropJob (m.report h rfl) pid
    | signaled sig => exact m.dropJob (m.say h rfl) pid
    | stopped sig => exact m.markStopped (m.say h rfl) pid

theorem passKey (h : T s s') (sig : Signal) : Echo T (s.passKey sig) (s'.passKey sig) := by
  rw [Shell.passKey, Shell.passKey, m.jobs h]
  cases s.jobs.foreground? with
  | none => exact ⟨rfl, h⟩
  | some target =>
    obtain ⟨answer, t, t', ht, ht', hlater⟩ := (m.signal h .keyboard target sig).exists
    dsimp only
    rw [ht, ht']
    cases answer <;> exact ⟨rfl, hlater⟩

theorem apply (h : T s s') (n : Notification) : Echo T (s.apply n) (s'.apply n) := by
  have hnote := m.note h (.apply n)
  cases n with
  | child pid change => exact ⟨rfl, m.applyChange hnote pid change⟩
  | keyboard sig => exact m.passKey hnote sig
  | quit => exact ⟨rfl, m.say hnote rfl⟩

theorem applyAll (h : T s s') (batch : List Notification) :
    Echo T (s.applyAll batch) (s'.applyAll batch) := by
  induction batch generalizing s s' with
  | nil => exact ⟨rfl, h⟩
  | cons n rest ih =>
    obtain ⟨answer, t, t', ht, ht', hlater⟩ := (m.apply h n).exists
    rw [Shell.applyAll, Shell.applyAll, ht, ht']
    obtain e | flow := answer
    · exact ⟨rfl, hlater⟩
    · cases flow with
      | «continue» => exact ih hlater
      | exit code => exact ⟨rfl, hlater⟩

theorem takeUp {fetched : Except Error (List Notification) × Shell σ}
    {fetched' : Except Error (List Notification) × Shell τ} (h : Echo T fetched fetched') :
    Echo T (takeUp fetched) (takeUp fetched') := by
  obtain ⟨answer, t, t', rfl, rfl, hlater⟩ := h.exists
  cases answer with
  | error e => exact ⟨rfl, hlater⟩
  | ok batch => exact m.applyAll hlater batch

theorem drain (h : T s s') : Echo T s.drain s'.drain := by
  rw [drain_eq, drain_eq]
  exact m.takeUp (m.pending (m.note h .drain))

theorem waitForeground (h : T s s') : Echo T s.waitForeground s'.waitForeground := by
  fun_induction Shell.waitForeground s generalizing s' with
  | case1 s hfg =>
    rw [waitForeground_eq, m.jobs h, hfg]
    exact ⟨rfl, h⟩
  | case2 s pid hfg e t ht =>
    obtain ⟨answer, _, t', hout, ht', hlater⟩ := (m.await h).exists
    obtain ⟨rfl, rfl⟩ := Prod.mk.inj (ht.symm.trans hout)
    rw [waitForeground_eq, m.jobs h, hfg, ht']
    exact ⟨rfl, hlater⟩
  | case3 s pid hfg batch t ht u hu ih =>
    obtain ⟨answer, _, t', hout, ht', hafter⟩ := (m.await h).exists
    obtain ⟨rfl, rfl⟩ := Prod.mk.inj (ht.symm.trans hout)
    obtain ⟨answer, _, u', hout, hu', hlater⟩ := (m.applyAll hafter batch).exists
    obtain ⟨rfl, rfl⟩ := Prod.mk.inj (hu.symm.trans hout)
    rw [waitForeground_eq s', m.jobs h, hfg, ht']
    dsimp only [Shell.takeUp]
    rw [hu']
    exact ih hlater
  | case4 s pid hfg batch t ht hstop =>
    obtain ⟨answer, _, t', hout, ht', hafter⟩ := (m.await h).exists
    obtain ⟨rfl, rfl⟩ := Prod.mk.inj (ht.symm.trans hout)
    obtain ⟨answer, u, u', hu, hu', hlater⟩ := (m.applyAll hafter batch).exists
    rw [waitForeground_eq, m.jobs h, hfg, ht']
    dsimp only [Shell.takeUp]
    rw [hu, hu']
    obtain e | flow := answer
    · exact ⟨rfl, hlater⟩
    · cases flow with
      | «continue» => exact (hstop u hu).elim
      | exit code => exact ⟨rfl, hlater⟩

/-! ## Starting jobs -/

theorem register (h : T s s') (request : LaunchRequest) (pid : Pid) :
    Echo T (s.register request pid) (s'.register request pid) := by
  rw [Shell.register, Shell.register, m.jobs h]
  obtain reason | ⟨i, jobs⟩ := s.jobs.add pid request.state request.line
  · exact ⟨rfl, h⟩
  · exact ⟨rfl, m.report (m.setJobs (m.note h _) jobs) rfl⟩

theorem start (h : T s s') (request : LaunchRequest) :
    Echo T (s.start request) (s'.start request) := by
  obtain ⟨answer, t, t', ht, ht', hlater⟩ := (m.spawn h request).exists
  rw [Shell.start, Shell.start, ht, ht']
  cases answer with
  | error e => exact ⟨rfl, hlater⟩
  | ok pid => exact m.register hlater request pid

theorem launch (h : T s s') (request : LaunchRequest) :
    Echo T (s.launch request) (s'.launch request) := by
  rw [Shell.launch, Shell.launch, m.jobs h]
  split
  · exact ⟨rfl, h⟩
  · obtain ⟨answer, t, t', ht, ht', hlater⟩ := (m.defer h).exists
    rw [ht, ht']
    cases answer with
    | error e => exact ⟨rfl, hlater⟩
    | ok u =>
      have hstart := m.start hlater request
      exact ⟨hstart.answer, m.release hstart.related⟩

/-! ## Evaluating lines -/

theorem reject (h : T s s') (complaint : Complaint) :
    Echo T (s.reject complaint) (s'.reject complaint) :=
  ⟨rfl, m.complain h complaint⟩

theorem run (h : T s s') (command : Command) (line : String) :
    Echo T (s.run command line) (s'.run command line) := by
  obtain ⟨answer, t, t', ht, ht', hlater⟩ := (m.launch h
    { argv := command.argv, input := command.input, output := command.output
      background := command.background, line }).exists
  dsimp only [Shell.run]
  rw [ht, ht']
  obtain e | job := answer
  · cases e with
    | table reason => exact m.reject hlater _
    | fatal _ _ => exact ⟨rfl, hlater⟩
    | io _ => exact ⟨rfl, hlater⟩
  · dsimp only
    split
    · exact ⟨rfl, m.say hlater rfl⟩
    · exact m.waitForeground hlater

theorem continueJob (h : T s s') (builtin : Builtin) (job : Job) (state : Job.State) :
    Echo T (s.continueJob builtin job state) (s'.continueJob builtin job state) := by
  obtain ⟨answer, t, t', ht, ht', hlater⟩ := (m.signal h .resume job.pid .cont).exists
  rw [Shell.continueJob, Shell.continueJob, ht, ht']
  obtain e | u := answer
  · exact m.reject hlater _
  · dsimp only
    rw [m.jobs hlater]
    obtain reason | jobs := t.jobs.setState job.pid state
    · exact ⟨rfl, hlater⟩
    · have hresumed := m.setJobs (m.note hlater (.resume job.pid state)) jobs
      dsimp only
      split
      · exact m.waitForeground hresumed
      · exact ⟨rfl, hresumed⟩

theorem resume (h : T s s') (builtin : Builtin) (state : Job.State) (argv : List String) :
    Echo T (s.resume builtin state argv) (s'.resume builtin state argv) := by
  unfold Shell.resume
  split
  · next arg =>
    obtain _ | reference := Job.Reference.parse? arg
    · exact m.reject h _
    · dsimp only
      rw [m.jobs h]
      obtain _ | job := s.jobs.find? reference
      · exact m.reject h _
      · dsimp only
        split
        · exact m.reject h _
        · split
          · exact m.continueJob (m.say h rfl) builtin job state
          · exact m.continueJob h builtin job state
  · exact m.reject h _

theorem eval (h : T s s') (line : String) : Echo T (s.eval line) (s'.eval line) := by
  have hnote := m.note h (.evaluate line)
  unfold Shell.eval
  obtain fault | _ | command := Command.parse line
  · exact m.reject hnote _
  · exact ⟨rfl, hnote⟩
  · dsimp only
    obtain _ | builtin := command.builtin
    · exact m.run hnote command line
    · cases builtin with
      | quit =>
        dsimp only
        rw [m.jobs hnote]
        exact ⟨rfl, m.report hnote rfl⟩
      | jobs => exact ⟨rfl, m.list hnote command.output⟩
      | bg => exact m.resume hnote .bg .background command.argv
      | fg => exact m.resume hnote .fg .foreground command.argv

theorem perform (h : T s s') (op : Op) : Echo T (s.perform op) (s'.perform op) := by
  cases op with
  | eval line => exact m.eval h line
  | drain => exact m.drain h

theorem after (h : T s s') (ops : List Op) : T (s.after ops) (s'.after ops) := by
  induction ops generalizing s s' with
  | nil => exact h
  | cons op ops ih => exact ih (m.perform h op).related

/-! ## Following events -/

theorem greet (h : T s s') (prompt : Bool) : T (s.greet prompt) (s'.greet prompt) := by
  unfold Shell.greet
  split
  · exact m.say h rfl
  · exact h

theorem step (h : T s s') (op : Op) : Echo T (s.step op) (s'.step op) := by
  obtain ⟨answer, t, t', ht, ht', hlater⟩ := (m.perform h op).exists
  rw [Shell.step, Shell.step, ht, ht']
  obtain e | flow := answer
  · dsimp only
    split
    · exact ⟨rfl, hlater⟩
    · exact ⟨rfl, m.complain hlater _⟩
  · cases flow <;> exact ⟨rfl, hlater⟩

theorem attend (h : T s s') (line : List UInt8) : Echo T (s.attend line) (s'.attend line) :=
  (m.step h .drain).goOn fun h => m.step h _

theorem heed (h : T s s') (prompt : Bool) (e : Event) :
    Echo T (s.heed prompt e) (s'.heed prompt e) := by
  cases e with
  | news => exact m.step h .drain
  | line bytes => exact (m.attend h bytes).goOn fun h => ⟨rfl, m.greet h prompt⟩
  | ended rest =>
    have hlast : Echo T (if rest.isEmpty then (none, s) else s.attend rest)
        (if rest.isEmpty then (none, s') else s'.attend rest) := by
      split
      · exact ⟨rfl, h⟩
      · exact m.attend h rest
    exact hlast.goOn fun h => ⟨rfl, m.say h rfl⟩

/-- Shells that mirror each other follow events alike. -/
theorem follow (h : T s s') (prompt : Bool) (events : List Event) :
    Echo T (s.follow prompt events) (s'.follow prompt events) := by
  induction events generalizing s s' with
  | nil => exact ⟨rfl, h⟩
  | cons e events ih => exact (m.heed h prompt e).goOn ih

end Mirrors
end JobControl.Shell
