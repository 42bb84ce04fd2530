import JobControl.Proofs.EventLoop.Dispatch
import Mathlib.Data.List.Induction

/-!
# Why an event loop stops

* `Request`, `Registry.grant` : what a callback may ask of the registry;
* `verdict` : the reason to stop that requests amount to, the last abort or else the last exit;
  `Registry.stop_grantAll` : it is what they leave in a registry without one;
* `Makes` : a callback does to the registry only what it asks for; `made` : the requests of calls;
* `Decided` : a loop stops for the verdict on its last call; `Calls.decided`;
* `Registry.ofList` : a new registry with sources registered in order; `Lists.eq_ofList`;
* `Session`, `runAll` : the loop is run time after time on one registry;
* `runAll_decided` : each run is decided by its own last call, and starts as if on a new registry.
-/

set_option autoImplicit false

namespace JobControl.EventLoop
variable {π φ ε β ξ : Type}

/-! ## Requests -/

inductive Request (φ ε β ξ : Type) where
  | register (source : φ) (event : ε)
  | abort (reason : β)
  | exit (reason : ξ)

namespace Request

def abort? : Request φ ε β ξ → Option β
  | abort reason => some reason
  | _ => none

def exit? : Request φ ε β ξ → Option ξ
  | exit reason => some reason
  | _ => none

end Request

/-- The reason to stop that requests amount to: the last abort, or if there is none the last exit. -/
def verdict (requests : List (Request φ ε β ξ)) : Option (Stop β ξ) :=
  ((requests.filterMap Request.abort?).getLast?.map .abort).or
    ((requests.filterMap Request.exit?).getLast?.map .exit)

namespace Registry

def grant (r : Registry φ ε β ξ) : Request φ ε β ξ → Registry φ ε β ξ
  | .register source event => r.register source event
  | .abort reason => r.abort reason
  | .exit reason => r.exit reason

def grantAll (r : Registry φ ε β ξ) (requests : List (Request φ ε β ξ)) : Registry φ ε β ξ :=
  requests.foldl grant r

variable {r : Registry φ ε β ξ}

theorem grantAll_concat (r : Registry φ ε β ξ) (requests : List (Request φ ε β ξ))
    (q : Request φ ε β ξ) : r.grantAll (requests ++ [q]) = (r.grantAll requests).grant q :=
  List.foldl_append

/-- What requests leave in a registry without a reason to stop is the verdict on them. -/
theorem stop_grantAll (quiet : r.stop = none) (requests : List (Request φ ε β ξ)) :
    (r.grantAll requests).stop = verdict requests := by
  induction requests using List.reverseRecOn with
  | nil => exact quiet
  | append_singleton requests q ih =>
    rw [grantAll_concat]
    cases q with
    | register source event =>
      have hsame : verdict (requests ++ [.register source event]) = verdict requests := by
        simp [verdict, Request.abort?, Request.exit?]
      rw [hsame, ← ih]
      rfl
    | abort reason => simp [grant, abort, verdict, Request.abort?]
    | exit reason =>
      rw [grant, exit, ih]
      cases haborts : (requests.filterMap Request.abort?).getLast? with
      | some aborted => simp [verdict, Request.abort?, haborts, ih]
      | none =>
        have hexits : verdict requests =
            (requests.filterMap Request.exit?).getLast?.map .exit := by
          rw [verdict, haborts]
          rfl
        rw [hexits]
        cases (requests.filterMap Request.exit?).getLast? <;>
          simp [verdict, Request.abort?, Request.exit?, haborts]

theorem grown_grantAll (r : Registry φ ε β ξ) (requests : List (Request φ ε β ξ)) :
    r.Grown (r.grantAll requests) := by
  induction requests using List.reverseRecOn with
  | nil => exact .refl
  | append_singleton requests q ih =>
    rw [grantAll_concat]
    cases q with
    | register source event => exact .register source event ih
    | abort reason => exact .abort reason ih
    | exit reason => exact .exit reason ih

/-! ## New registries -/

def registerAll (r : Registry φ ε β ξ) (sources : List (φ × ε)) : Registry φ ε β ξ :=
  sources.foldl (fun r source => r.register source.1 source.2) r

def ofList (sources : List (φ × ε)) : Registry φ ε β ξ := registerAll {} sources

theorem registerAll_concat (r : Registry φ ε β ξ) (sources : List (φ × ε)) (source : φ × ε) :
    r.registerAll (sources ++ [source]) = (r.registerAll sources).register source.1 source.2 :=
  List.foldl_append

theorem grown_registerAll (r : Registry φ ε β ξ) (sources : List (φ × ε)) :
    r.Grown (r.registerAll sources) := by
  induction sources using List.reverseRecOn with
  | nil => exact .refl
  | append_singleton sources source ih =>
    rw [registerAll_concat]
    exact .register source.1 source.2 ih

theorem stop_registerAll (r : Registry φ ε β ξ) (sources : List (φ × ε)) :
    (r.registerAll sources).stop = r.stop := by
  induction sources using List.reverseRecOn with
  | nil => rfl
  | append_singleton sources source ih =>
    rw [registerAll_concat, ← ih]
    rfl

theorem lists_ofList (sources : List (φ × ε)) :
    (ofList sources : Registry φ ε β ξ).Lists sources := by
  induction sources using List.reverseRecOn with
  | nil => exact .empty
  | append_singleton sources source ih =>
    rw [ofList, registerAll_concat]
    exact ih.register source.1 source.2

/-- A registry is its registrations and the reason to stop. -/
theorem Lists.eq_ofList {regs : List (φ × ε)} (h : r.Lists regs) (quiet : r.stop = none) :
    r = ofList regs := by
  obtain ⟨seed, ⟨watched⟩, ⟨events⟩, stop⟩ := r
  obtain ⟨hseed, hwatched, hevents⟩ := h
  have hnew := lists_ofList (β := β) (ξ := ξ) regs
  have hquiet : (ofList regs : Registry φ ε β ξ).stop = none := stop_registerAll {} regs
  generalize ofList regs = new at hnew hquiet ⊢
  obtain ⟨seed', ⟨watched'⟩, ⟨events'⟩, stop'⟩ := new
  obtain ⟨hseed', hwatched', hevents'⟩ := hnew
  simp only at quiet hseed hwatched hevents hquiet hseed' hwatched' hevents'
  rw [quiet, hseed, hwatched, hevents, hquiet, hseed', hwatched', hevents']

theorem Grown.eq_ofList (grown : ({} : Registry φ ε β ξ).Grown r) (quiet : r.stop = none) :
    r = ofList r.registrations := by
  obtain ⟨regs, hregs⟩ := grown.lists .empty
  rw [hregs.registrations]
  exact Lists.eq_ofList hregs quiet

end Registry

/-! ## Calls -/

/-- The callback does to the registry only what it asks for. -/
def Makes (handle : Callback π φ ε β ξ)
    (requests : ε → π → Registry φ ε β ξ → List (Request φ ε β ξ)) : Prop :=
  ∀ e p r, (handle e p r).2 = r.grantAll (requests e p r)

def made (handle : Callback π φ ε β ξ)
    (requests : ε → π → Registry φ ε β ξ → List (Request φ ε β ξ)) :
    π × Registry φ ε β ξ → List ε → List (List (Request φ ε β ξ))
  | _, [] => []
  | s, e :: calls => requests e s.1 s.2 :: made handle requests (handle e s.1 s.2) calls

/-- The reason to stop is the verdict on the last call, and no call before asks for a stop. -/
structure Decided (made : List (List (Request φ ε β ξ))) (stop : Option (Stop β ξ)) : Prop where
  last : stop = made.getLast?.bind verdict
  before : ∀ requests ∈ made.dropLast, verdict requests = none

section Runs
variable {handle : Callback π φ ε β ξ}
  {requests : ε → π → Registry φ ε β ξ → List (Request φ ε β ξ)}
  {s : π × Registry φ ε β ξ} {stop : Option (Stop β ξ)}

theorem Makes.lawful (makes : Makes handle requests) : Lawful handle := by
  intro e p r
  rw [makes]
  exact r.grown_grantAll _

/-- After a call that is not the last one there is no reason to stop. -/
theorem Calls.tail {e e' : ε} {calls : List ε} (h : Calls handle s (e :: e' :: calls) stop) :
    (handle e s.1 s.2).2.stop = none ∧ Calls handle (handle e s.1 s.2) (e' :: calls) stop where
  left := h.leaves [] e (e' :: calls) rfl
  right :=
    { leaves := fun front d rest hsplit => h.leaves (e :: front) d rest (by rw [hsplit]; rfl)
      idle := fun hnil => by cases hnil }

theorem Calls.decided (makes : Makes handle requests) {calls : List ε}
    (h : Calls handle s calls stop) (quiet : s.2.stop = none) :
    Decided (made handle requests s calls) stop := by
  have hcall (e : ε) {s : π × Registry φ ε β ξ} (quiet : s.2.stop = none) :
      (handle e s.1 s.2).2.stop = verdict (requests e s.1 s.2) := by
    rw [makes]
    exact Registry.stop_grantAll quiet _
  induction calls generalizing s with
  | nil => exact ⟨h.idle rfl, fun requests hmem => by cases hmem⟩
  | cons e calls ih =>
    cases calls with
    | nil =>
      have hlast : (handle e s.1 s.2).2.stop = stop := h.leaves [] e [] rfl
      refine ⟨?_, fun requests hmem => by cases hmem⟩
      rw [← hlast]
      exact hcall e quiet
    | cons e' calls =>
      obtain ⟨hnone, htail⟩ := h.tail
      obtain ⟨hlast, hbefore⟩ := ih htail hnone
      refine ⟨hlast, fun asked hmem => ?_⟩
      rcases List.mem_cons.1 hmem with rfl | hmem
      · rw [← hcall e quiet, hnone]
      · exact hbefore asked hmem

/-- However a run ends, the registry has no reason to stop afterwards. -/
theorem Calls.stop_leave {calls : List ε} (h : Calls handle s calls stop)
    (quiet : s.2.stop = none) : (leave stop (called handle s calls)).2.stop = none := by
  cases stop with
  | some reason => rfl
  | none =>
    show (called handle s calls).2.stop = none
    obtain rfl | ⟨front, e, rfl⟩ := List.eq_nil_or_concat' calls
    · exact quiet
    · exact h.leaves front e [] rfl

/-! ## Runs one after another -/

/-- The loop is run: what is done to the process before, the sources that are registered before, and
what the polls find. -/
structure Session (π φ ε : Type) where
  prepare : π → π := id
  sources : List (φ × ε) := []
  polls : List (Poll π φ)

def Session.start (x : Session π φ ε) (s : π × Registry φ ε β ξ) : π × Registry φ ε β ξ :=
  (x.prepare s.1, s.2.registerAll x.sources)

/-- Run the loop time after time on the same registry. -/
def runAll (handle : Callback π φ ε β ξ) (failed : SystemError → β) :
    List (Session π φ ε) → π × Registry φ ε β ξ → List (Option (Stop β ξ)) × π × Registry φ ε β ξ
  | [], s => ([], s)
  | x :: sessions, s =>
    let out := run handle failed x.polls (x.start s).1 (x.start s).2
    let rest := runAll handle failed sessions out.2
    (out.1 :: rest.1, rest.2)

/-- What a run from `s` to `s'` that stops for `stop` is like. -/
structure Ran (handle : Callback π φ ε β ξ)
    (requests : ε → π → Registry φ ε β ξ → List (Request φ ε β ξ)) (failed : SystemError → β)
    (polls : List (Poll π φ)) (s s' : π × Registry φ ε β ξ) (stop : Option (Stop β ξ)) : Prop where
  /-- It starts on what might be a new registry. -/
  fresh : s.2 = .ofList s.2.registrations
  /-- It makes calls, and is decided by what they ask for, or by the poll that fails after them. -/
  decided : ∃ rounds ending, Schedule handle polls s rounds ending ∧ stop = ending.stop? failed ∧
    s' = leave ending.left? (called handle s rounds.flatten) ∧
    Decided (made handle requests s rounds.flatten) ending.left?
  /-- It leaves no reason to stop. -/
  quiet : s'.2.isStopping = false

theorem run_ran (makes : Makes handle requests) (failed : SystemError → β)
    (polls : List (Poll π φ)) (grown : ({} : Registry φ ε β ξ).Grown s.2)
    (quiet : s.2.stop = none) :
    let out := run handle failed polls s.1 s.2
    Ran handle requests failed polls s out.2 out.1 ∧ ({} : Registry φ ε β ξ).Grown out.2.2 := by
  intro out
  obtain ⟨rounds, ending, hout, hrounds⟩ := exists_schedule handle failed polls s
  have hdecided := hrounds.calls.decided makes quiet
  have hleave := hrounds.calls.stop_leave quiet
  rw [show out = _ from hout]
  refine ⟨⟨grown.eq_ofList quiet, ⟨rounds, ending, hrounds, rfl, rfl, hdecided⟩, ?_⟩, ?_⟩
  · rw [Registry.isStopping, hleave]
    rfl
  · have hcalled := grown.trans (makes.lawful.grown s rounds.flatten)
    unfold leave
    split
    · exact .taken hcalled
    · exact hcalled

/-- **A run is decided by its own last call.** However often a loop is run on one registry, with more
sources registered in between and whatever the processes are, a run stops for the last abort that the
callback asks for in its last call, or if there is none for the last exit, and its earlier calls ask
for neither. If no call asks for a stop, only a poll that fails can end the run. Each run leaves no
reason to stop, so the next one starts as if on a new registry with the same sources. -/
theorem runAll_decided (makes : Makes handle requests) (failed : SystemError → β)
    (sessions : List (Session π φ ε)) (p : π) {r : Registry φ ε β ξ}
    (grown : ({} : Registry φ ε β ξ).Grown r) (quiet : r.isStopping = false) :
    (runAll handle failed sessions (p, r)).1.length = sessions.length ∧
      ∀ n x, sessions[n]? = some x →
        ∃ stop, (runAll handle failed sessions (p, r)).1[n]? = some stop ∧
          Ran handle requests failed x.polls
            (x.start (runAll handle failed (sessions.take n) (p, r)).2)
            (runAll handle failed (sessions.take (n + 1)) (p, r)).2 stop := by
  induction sessions generalizing p r with
  | nil => exact ⟨rfl, fun n x h => by cases h⟩
  | cons first sessions ih =>
    have hgrown : ({} : Registry φ ε β ξ).Grown (first.start (p, r)).2 :=
      grown.trans (r.grown_registerAll first.sources)
    have hquiet : (first.start (p, r)).2.stop = none :=
      (r.stop_registerAll first.sources).trans (by simpa [Registry.isStopping] using quiet)
    obtain ⟨hran, hafter⟩ := run_ran makes failed first.polls hgrown hquiet
    obtain ⟨hlength, hlater⟩ := ih _ hafter hran.quiet
    refine ⟨congrArg (· + 1) hlength, fun n x hx => ?_⟩
    cases n with
    | zero =>
      obtain rfl : first = x := Option.some.inj hx
      exact ⟨_, rfl, hran⟩
    | succ n => exact hlater n x hx

end Runs

/-! ## Commands -/

namespace Commands

/-- What a byte read from stream `n` asks for, with `count` events before it. -/
def wishes (byte : Option Char) (n count : Nat) : List (Request Nat Nat SystemError Nat) :=
  match byte with
  | none | some 'q' => [.exit count]
  | some 'b' => [.abort .perm]
  | some 'x' => [.exit count, .abort .perm]
  | some 'y' => [.abort .perm, .exit count]
  | some 'z' => [.exit count, .exit (count + 100)]
  | some '+' => [.register n n]
  | some _ => []

theorem obey_eq (byte : Option Char) (n count : Nat) (r : Loop) :
    obey byte n count r = r.grantAll (wishes byte n count) := by
  unfold obey wishes
  split <;> simp [Registry.grantAll, Registry.grant, *]

def requests (n : Nat) (p : Commands) (_ : Loop) : List (Request Nat Nat SystemError Nat) :=
  wishes ((p.streams.getD n []).head?.map fun b => Char.ofNat b.toNat) n p.trace.length

theorem makes_handle : Makes handle requests := fun _ _ r => obey_eq _ _ _ r

end Commands

/-- An abort is not undone by the exit asked for after it, and nothing of it is left in the next run,
where a poll fails. The run after that ends with the second of two exits. -/
theorem runAll_decided_of_commands :
    let p : Commands := { streams := [[97, 121, 122]] }
    let ready : Poll Commands Nat := fun _ => .ok fun _ => true
    let sessions : List (Session Commands Nat Nat) :=
      [{ polls := [ready, ready] }, { polls := [fun _ => .error .invalid] }, { polls := [ready] }]
    let out := runAll Commands.handle id sessions (p, p.registry)
    (Makes Commands.handle Commands.requests ∧ ({} : Commands.Loop).Grown p.registry ∧
        p.registry.isStopping = false) ∧
      out.1 = [some (.abort .perm), some (.abort .invalid), some (.exit 102)] ∧
      ∃ stop, out.1[2]? = some stop ∧ Ran Commands.handle Commands.requests id [ready]
        (runAll Commands.handle id (sessions.take 2) (p, p.registry)).2 out.2 stop := by
  intro p ready sessions out
  exact ⟨⟨Commands.makes_handle, p.grown_registry, rfl⟩, by decide,
    (runAll_decided Commands.makes_handle id sessions p p.grown_registry rfl).2 2
      { polls := [ready] } rfl⟩

end JobControl.EventLoop
