import JobControl.EventLoop

/-!
# Runs of an event loop

* `run_heard` : polls that were interrupted change nothing;
* `run_keeps` : what every callback keeps, a loop keeps;
* `run_agree` : two processes that stay related through every callback, and ask for the same of the
  registry, run alike.
-/

set_option autoImplicit false

namespace JobControl.EventLoop
variable {π φ ε β ξ : Type} {handle : Callback π φ ε β ξ} {failed : SystemError → β}

/-- A loop whose polls fail only when they are interrupted is one in which those polls are not made. -/
theorem run_heard {answers : List (Except SystemError (φ → Bool))}
    (heard : ∀ e, .error e ∈ answers → e.isInterrupted) (p : π) (r : Registry φ ε β ξ) :
    run handle failed (answers.map fun answer _ => answer) p r =
      run handle failed ((answers.filterMap Except.toOption).map fun isReady _ => .ok isReady)
        p r := by
  induction answers generalizing p r with
  | nil => rfl
  | cons answer answers ih =>
    have hlater := ih fun e he => heard e (List.mem_cons_of_mem _ he)
    cases answer with
    | error e =>
      rw [List.map_cons, run]
      dsimp only
      rw [if_pos (heard e List.mem_cons_self)]
      exact hlater p r
    | ok isReady =>
      have hsome : (Except.ok isReady : Except SystemError (φ → Bool)).toOption = some isReady := rfl
      rw [List.filterMap_cons_some hsome, List.map_cons, List.map_cons, run, run]
      dsimp only
      rcases dispatch handle (r.readyEvents isReady) p r with ⟨_ | reason, p', r'⟩
      · exact hlater p' r'
      · rfl

section Keeps
variable {K : π → Registry φ ε β ξ → Prop}

theorem dispatch_keeps
    (step : ∀ e p r, K p r → r.stop = none → K (handle e p r).1 (handle e p r).2)
    (events : List ε) {p : π} {r : Registry φ ε β ξ} (h : K p r) (hr : r.stop = none) :
    ∃ r', K (dispatch handle events p r).2.1 r' ∧
      ((dispatch handle events p r).1 = none →
        (dispatch handle events p r).2.2 = r' ∧ r'.stop = none) := by
  induction events generalizing p r with
  | nil => exact ⟨r, h, fun _ => ⟨rfl, hr⟩⟩
  | cons e es ih =>
    have hk := step e p r h hr
    unfold dispatch
    split
    next p' r' hout =>
    rw [hout] at hk
    split
    · exact ⟨r', hk, nofun⟩
    · next hstop => exact ih hk hstop

/-- What every callback keeps holds, with some registry, when the loop ends. -/
theorem run_keeps
    (step : ∀ e p r, K p r → r.stop = none → K (handle e p r).1 (handle e p r).2)
    (polls : List (Poll π φ)) {p : π} {r : Registry φ ε β ξ} (h : K p r) (hr : r.stop = none) :
    ∃ r', K (run handle failed polls p r).2.1 r' := by
  induction polls generalizing p r with
  | nil => exact ⟨r, h⟩
  | cons poll polls ih =>
    rw [run]
    cases poll p with
    | error e =>
      dsimp only
      split
      · exact ih h hr
      · exact ⟨r, h⟩
    | ok isReady =>
      obtain ⟨r', hk, hnone⟩ := dispatch_keeps step (r.readyEvents isReady) h hr
      dsimp only
      split
      · next hout =>
        rw [hout] at hk
        exact ⟨r', hk⟩
      · next hout =>
        rw [hout] at hk hnone
        obtain ⟨rfl, hr'⟩ := hnone rfl
        exact ih hk hr'

end Keeps

section Agree
variable {T : π → π → Prop}

theorem dispatch_agree
    (step : ∀ e p p' r, T p p' → r.stop = none →
      (handle e p' r).2 = (handle e p r).2 ∧ T (handle e p r).1 (handle e p' r).1)
    (events : List ε) {p p' : π} {r : Registry φ ε β ξ} (h : T p p') (hr : r.stop = none) :
    ∃ stop q q' r', dispatch handle events p r = (stop, q, r') ∧
      dispatch handle events p' r = (stop, q', r') ∧ T q q' ∧ r'.stop = none := by
  induction events generalizing p p' r with
  | nil => exact ⟨none, p, p', r, rfl, rfl, h, hr⟩
  | cons e events ih =>
    obtain ⟨hregistry, htwin⟩ := step e p p' r h hr
    rw [dispatch, dispatch]
    dsimp only
    rw [hregistry]
    cases hstop : (handle e p r).2.stop with
    | some reason => exact ⟨some reason, _, _, _, rfl, rfl, htwin, rfl⟩
    | none => exact ih htwin hstop

/-- Processes that every callback keeps related run alike, if polls answer the same. -/
theorem run_agree
    (step : ∀ e p p' r, T p p' → r.stop = none →
      (handle e p' r).2 = (handle e p r).2 ∧ T (handle e p r).1 (handle e p' r).1)
    {polls : List (Poll π φ)} (same : ∀ poll ∈ polls, ∀ p p', T p p' → poll p' = poll p)
    {p p' : π} {r : Registry φ ε β ξ} (h : T p p') (hr : r.stop = none) :
    (run handle failed polls p' r).1 = (run handle failed polls p r).1 ∧
      T (run handle failed polls p r).2.1 (run handle failed polls p' r).2.1 := by
  induction polls generalizing p p' r with
  | nil => exact ⟨rfl, h⟩
  | cons poll polls ih =>
    obtain ⟨hpoll, hpolls⟩ := List.forall_mem_cons.1 same
    rw [run, run, hpoll p p' h]
    cases poll p with
    | error e =>
      dsimp only
      split
      · exact ih hpolls h hr
      · exact ⟨rfl, h⟩
    | ok isReady =>
      obtain ⟨stop, q, q', r', hout, hout', htwin, hr'⟩ :=
        dispatch_agree step (r.readyEvents isReady) h hr
      dsimp only
      rw [hout, hout']
      cases stop with
      | some reason => exact ⟨rfl, htwin⟩
      | none => exact ih hpolls htwin hr'

end Agree
end JobControl.EventLoop
