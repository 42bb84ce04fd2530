import JobControl.Host.Fed
import JobControl.Proofs.Shell.Mirror

/-!
# A shell whose host has input to come

* `Shell.fed` : a shell on a host that is joined with answers to reads;
* `mirrors_fed` : what it does is what the shell without them does, and it leaves the answers alone;
* `fed_heed`, `fed_follow` : so it follows events as the other does.
-/

set_option autoImplicit false

namespace JobControl.Shell
variable {σ α : Type} {reads : List (Except SystemError (List UInt8))}

/-- The shell on its host joined with the answers that reads will give. -/
def fed (reads : List (Except SystemError (List UInt8))) (s : Shell σ) : Shell (Fed σ) :=
  { host := ⟨s.host, reads⟩, jobs := s.jobs, console := s.console, deferrals := s.deferrals
    journal := s.journal }

def unfed (s : Shell (Fed σ)) : Shell σ :=
  { host := s.host.host, jobs := s.jobs, console := s.console, deferrals := s.deferrals
    journal := s.journal }

def fedOut (reads : List (Except SystemError (List UInt8))) (out : α × Shell σ) :
    α × Shell (Fed σ) :=
  (out.1, out.2.fed reads)

variable [Host σ]

theorem fed_defer (s : Shell σ) : (s.fed reads).defer = fedOut reads s.defer := by
  have hhost : Host.defer (s.fed reads).host =
    ((Host.defer s.host).1, ⟨(Host.defer s.host).2, reads⟩) := rfl
  rw [defer, defer, hhost]
  obtain ⟨e | u, host⟩ := Host.defer s.host <;> rfl

theorem fed_list (s : Shell σ) (target : Option String) :
    (s.fed reads).list target = (s.list target).fed reads := by
  cases target with
  | some path =>
    have hhost : Host.writeFile path (s.fed reads).jobs.listing
        (Host.hear (s.fed reads).console (s.fed reads).host) =
      ((Host.writeFile path s.jobs.listing (Host.hear s.console s.host)).1,
        ⟨(Host.writeFile path s.jobs.listing (Host.hear s.console s.host)).2, reads⟩) := rfl
    dsimp only [list]
    rw [hhost]
    obtain ⟨e | u, host⟩ := Host.writeFile path s.jobs.listing (Host.hear s.console s.host) <;> rfl
  | none =>
    have hconsole : (s.fed reads).console = s.console := rfl
    have hjobs : (s.fed reads).jobs = s.jobs := rfl
    dsimp only [list]
    rw [hconsole, hjobs]
    obtain e | out := s.console.out.write (.listing s.jobs.jobs) <;> rfl

/-- With answers to reads, the shell mirrors itself without them. -/
theorem mirrors_fed (reads : List (Except SystemError (List UInt8))) :
    Mirrors fun (s : Shell σ) s' => s' = s.fed reads where
  jobs := by
    rintro s _ rfl
    rfl
  setJobs := by
    rintro s _ rfl jobs
    rfl
  note := by
    rintro s _ rfl d
    rfl
  say := by
    rintro s _ rfl n -
    rfl
  report := by
    rintro s _ rfl n -
    rfl
  complain := by
    rintro s _ rfl m
    rfl
  list := by
    rintro s _ rfl target
    exact fed_list s target
  defer := by
    rintro s _ rfl
    rw [fed_defer]
    exact ⟨rfl, rfl⟩
  release := by
    rintro s _ rfl
    rfl
  spawn := by
    rintro s _ rfl request
    exact ⟨rfl, rfl⟩
  signal := by
    rintro s _ rfl origin target sig
    exact ⟨rfl, rfl⟩
  await := by
    rintro s _ rfl
    exact ⟨rfl, rfl⟩
  pending := by
    rintro s _ rfl
    exact ⟨rfl, rfl⟩

omit [Host σ] in
theorem eq_fedOut {out : α × Shell σ} {out' : α × Shell (Fed σ)}
    (h : Echo (fun s s' => s' = s.fed reads) out out') : out' = fedOut reads out :=
  Prod.ext h.answer h.related

theorem fed_heed (s : Shell σ) (prompt : Bool) (e : Event) :
    (s.fed reads).heed prompt e = fedOut reads (s.heed prompt e) :=
  eq_fedOut ((mirrors_fed reads).heed rfl prompt e)

/-- A shell follows events as it does without the answers to reads. -/
theorem fed_follow (s : Shell σ) (prompt : Bool) (events : List Event) :
    (s.fed reads).follow prompt events = fedOut reads (s.follow prompt events) :=
  eq_fedOut ((mirrors_fed reads).follow rfl prompt events)

end JobControl.Shell
