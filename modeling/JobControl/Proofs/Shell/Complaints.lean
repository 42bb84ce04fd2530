import JobControl.Proofs.Shell.Foreground

/-!
# What the shell complains of

* `Shell.Grows` : the journal has grown, and it explains the complaints since;
* `Shell.Told` : how an operation ends: it has grown, and the journal explains an error that is not
  fatal;
* `told_perform` : every operation of the shell does.
-/

set_option autoImplicit false

namespace JobControl

namespace Shell
variable {σ : Type} {s s' s'' : Shell σ}

/-! ## Growing -/

/-- The journal has grown, and it explains what the shell has complained of since. -/
structure Grows (s s' : Shell σ) : Prop where
  journal : s.journal <:+ s'.journal
  complaints : ∃ new, s'.console.err.written = new ++ s.console.err.written ∧
    ∀ m ∈ new, s'.journal.Explains m

theorem Grows.trans (h : s.Grows s') (h' : s'.Grows s'') : s.Grows s'' := by
  obtain ⟨new, hnew, hexplains⟩ := h.complaints
  obtain ⟨new', hnew', hexplains'⟩ := h'.complaints
  refine ⟨h.journal.trans h'.journal, new' ++ new, ?_, fun m hm => ?_⟩
  · rw [hnew', hnew, List.append_assoc]
  · rcases List.mem_append.1 hm with hm | hm
    · exact hexplains' m hm
    · exact (hexplains m hm).mono h'.journal

theorem grows_of_silent (journal : s.journal <:+ s'.journal)
    (silent : s'.console.err = s.console.err) : s.Grows s' :=
  ⟨journal, [], by rw [silent]; rfl, nofun⟩

theorem Grows.refl (s : Shell σ) : s.Grows s := grows_of_silent List.suffix_rfl rfl

theorem grows_note (s : Shell σ) (d : Deed) : s.Grows (s.note d) :=
  grows_of_silent (List.suffix_cons _ _) rfl

theorem grows_say (s : Shell σ) (n : Notice) : s.Grows (s.say n) :=
  grows_of_silent List.suffix_rfl rfl

theorem grows_report (s : Shell σ) (n : Notice) : s.Grows (s.report n) := by
  refine grows_of_silent List.suffix_rfl ?_
  unfold report Console.report
  dsimp only
  split <;> rfl

theorem grows_complain {m : Complaint} (h : s.journal.Explains m) : s.Grows (s.complain m) := by
  refine ⟨List.suffix_rfl, ?_⟩
  have hsaid : (s.complain m).console.err = s.console.err.say m := rfl
  rw [hsaid, Sink.say]
  split
  · exact ⟨[], rfl, nofun⟩
  · exact ⟨[m], rfl, fun m' hm' => List.mem_singleton.1 hm' ▸ h⟩

theorem grows_of_quiet (quiet : s.Quiet s') : s.Grows s' := by
  have hjournal : s'.journal = s.journal := congrArg Past.journal quiet.past
  rcases quiet.said with hsilent | ⟨m, hsaid, hexplains⟩
  · exact grows_of_silent (hjournal ▸ List.suffix_rfl) hsilent
  · have hgrows := grows_complain hexplains
    refine ⟨hjournal ▸ List.suffix_rfl, ?_⟩
    rw [hsaid, hjournal]
    exact hgrows.complaints

/-- How an operation on `s` ends with `r`. -/
structure Told (s : Shell σ) (r : Except Error Flow × Shell σ) : Prop where
  grows : s.Grows r.2
  error : ∀ e, r.1 = .error e → e.isFatal ∨ r.2.journal.Explains (.failed e)

/-! ## Taking up news -/

theorem grows_dropJob (s : Shell σ) (pid : Pid) : s.Grows (s.dropJob pid) := by
  unfold dropJob
  split <;> exact grows_of_silent List.suffix_rfl rfl

theorem grows_markStopped (s : Shell σ) (pid : Pid) : s.Grows (s.markStopped pid) := by
  unfold markStopped
  split <;> exact grows_of_silent List.suffix_rfl rfl

theorem grows_applyChange {pid : Pid} {change : ChildChange} {e : Journal.Entry} (he : e ∈ s.journal)
    (deed : e.deed = .apply (.child pid change)) (jobs : e.jobs = s.jobs) :
    s.Grows (s.applyChange pid change) := by
  unfold applyChange
  split
  · next hfind => exact grows_complain ⟨e, he, ⟨change, deed⟩, jobs ▸ hfind⟩
  · next job _ =>
    cases change with
    | exited code => exact (s.grows_report _).trans (grows_dropJob _ pid)
    | signaled sig => exact (s.grows_say (.terminated job.id pid sig)).trans (grows_dropJob _ pid)
    | stopped sig => exact (s.grows_say (.stopped job.id pid sig)).trans (grows_markStopped _ pid)

variable [Host σ]

theorem grows_signal (s : Shell σ) (origin : Origin) (target : Pid) (sig : Signal) :
    s.Grows (s.signal origin target sig).2 :=
  grows_of_silent (List.suffix_cons _ _) rfl

theorem grows_passKey (s : Shell σ) (sig : Signal) : s.Grows (s.passKey sig).2 := by
  rw [passKey_snd]
  split
  · exact .refl s
  · exact s.grows_signal _ _ _

theorem grows_apply (s : Shell σ) (n : Notification) : s.Grows (s.apply n).2 := by
  refine (s.grows_note (.apply n)).trans ?_
  cases n with
  | child pid change => exact grows_applyChange List.mem_cons_self rfl rfl
  | keyboard sig => exact grows_passKey _ sig
  | quit => exact grows_say _ .quitting

theorem grows_applyAll (s : Shell σ) (batch : List Notification) : s.Grows (s.applyAll batch).2 :=
  applyAll_keeps (fun s' n h => h.trans (s'.grows_apply n)) (.refl s) batch

/-- News is fetched and taken up. -/
theorem told_takeUp {fetched : Except Error (List Notification) × Shell σ} (h : s.Grows fetched.2)
    (hfetch : ∃ e ∈ fetched.2.journal, ∃ waiting, e.deed = .fetch waiting fetched.1) :
    s.Told (takeUp fetched) := by
  refine ⟨takeUp_keeps (fun s n h => h.trans (s.grows_apply n)) h, fun e he => ?_⟩
  refine (error_takeUp he).imp_right fun ⟨hanswer, hsame⟩ => .inl ?_
  rw [hsame, ← hanswer]
  exact hfetch

theorem told_await (h : s'.Grows s) : s'.Told (takeUp s.await) := by
  have hawait : s.Grows s.await.2 := grows_of_silent (List.suffix_cons _ _) rfl
  exact told_takeUp (h.trans hawait) ⟨_, List.mem_cons_self, true, rfl⟩

theorem told_drain (s : Shell σ) : s.Told s.drain := by
  have hpending : (s.note .drain).Grows (s.note .drain).pending.2 :=
    grows_of_silent (List.suffix_cons _ _) rfl
  rw [drain_eq]
  exact told_takeUp ((s.grows_note .drain).trans hpending) ⟨_, List.mem_cons_self, false, rfl⟩

/-! ## Evaluating lines -/

theorem grows_defer (s : Shell σ) : s.Grows s.defer.2 := by
  unfold defer
  obtain ⟨e | u, host⟩ := Host.defer s.host
  · exact grows_of_silent (List.suffix_cons _ _) rfl
  · exact grows_of_silent (List.suffix_cons _ _) rfl

theorem grows_start (s : Shell σ) (request : LaunchRequest) : s.Grows (s.start request).2 := by
  refine grows_of_silent ?_ (s.err_start request)
  change _ <:+ (s.start request).2.past.journal
  rcases s.start_cases request with
    ⟨e, -, hpast⟩ | ⟨pid, ⟨reason, -, -, hpast⟩ | ⟨i, jobs, -, -, hpast⟩⟩ <;> rw [hpast]
  · exact List.suffix_cons _ _
  · exact List.suffix_cons _ _
  · exact (List.suffix_cons _ _).trans (List.suffix_cons _ _)

theorem grows_release (s : Shell σ) : s.Grows s.release :=
  grows_of_silent (List.suffix_cons _ _) rfl

/-- The line is taken up, and a job that it names is told to go on. -/
theorem grows_wakes {line : String} {state : Job.State} {job : Job} (h : s.Grows s')
    (wakes : s'.Wakes line state job s'') : s.Grows (s''.signal .resume job.pid .cont).2 :=
  ((h.trans (s'.grows_note _)).trans (grows_of_quiet wakes.noted)).trans (s''.grows_signal _ _ _)

theorem conduct_told (s₀ : Shell σ) (line : String) :
    Conduct line (fun _ s => s₀.Grows s) s₀.Told where
  quiet h quiet := h.trans (grows_of_quiet quiet)
  idle h _ := h.trans (grows_note _ _)
  defer s h := h.trans s.grows_defer
  start s request h _ _ _ := (h.trans (s.grows_start request)).trans (grows_release _)
  unsent h wakes _ := grows_wakes h wakes
  refused {s state job s' reason} h wakes hsent hset := by
    refine ⟨grows_wakes h wakes, fun e he => .inr (.inr ⟨_, List.mem_cons_self, job.pid, ?_⟩)⟩
    have hdeed := congrArg (Deed.signal .resume job.pid .cont) hsent
    exact ⟨state, reason, hdeed, hset, (Except.error.inj he).symm⟩
  moved h wakes _ _ := (grows_wakes h wakes).trans (grows_of_silent (List.suffix_cons _ _) rfl)
  round s h _ := (told_await h).grows
  stop s h _ := told_await h
  rest h _ := ⟨h, nofun⟩
  goOn h := ⟨h, nofun⟩
  exit h := ⟨h, nofun⟩
  fatal h he := ⟨h, fun e' he' => .inl (Except.error.inj he' ▸ he)⟩

theorem told_perform (s : Shell σ) (op : Op) : s.Told (s.perform op) := by
  cases op with
  | eval line => exact (conduct_told s line).eval (.refl s)
  | drain => exact s.told_drain

end Shell
end JobControl
