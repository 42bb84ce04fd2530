import JobControl.EventLoop
import Mathlib.Data.List.Basic

/-!
# Registries and their histories

A registry keeps the sources and the events in two maps. Whatever was done to it, both have the numbers
up to the next key as their keys.

* `Registry.registrations` : the sources that are watched, each with its event, in the order of keys;
* `Registry.Grown` : what may be made of a registry, by its own operations;
* `Registry.Lists` : the registry has these registrations, numbered from 0 on; `Grown.lists` : further
  ones come after them;
* `Registry.InStep` : the keys of both maps are the same, no lookup fails and no registration is lost;
  `Grown.inStep`;
* `Registry.readyEvents_eq` : the events that a poll finds are those of the registrations that are
  ready.
-/

set_option autoImplicit false

namespace JobControl.EventLoop.Registry
variable {φ ε β ξ : Type} {r r' r'' : Registry φ ε β ξ}

/-- The sources that are watched, each with its event, in the order of their keys. -/
def registrations (r : Registry φ ε β ξ) : List (φ × ε) :=
  r.watched.entries.filterMap fun (key, source) => (r.events.find? key).map (source, ·)

/-- What may be made of a registry: sources are registered, reasons to stop are set, and a loop takes
the reason out. -/
inductive Grown (r : Registry φ ε β ξ) : Registry φ ε β ξ → Prop where
  | refl : Grown r r
  | register {r' : Registry φ ε β ξ} (source : φ) (event : ε) : Grown r r' →
      Grown r (r'.register source event)
  | abort {r' : Registry φ ε β ξ} (reason : β) : Grown r r' → Grown r (r'.abort reason)
  | exit {r' : Registry φ ε β ξ} (reason : ξ) : Grown r r' → Grown r (r'.exit reason)
  | taken {r' : Registry φ ε β ξ} : Grown r r' → Grown r { r' with stop := none }

theorem Grown.trans (h : Grown r r') (h' : Grown r' r'') : Grown r r'' := by
  induction h' with
  | refl => exact h
  | register source event _ ih => exact .register source event ih
  | abort reason _ ih => exact .abort reason ih
  | exit reason _ ih => exact .exit reason ih
  | taken _ ih => exact .taken ih

/-- The keys of both maps are those below the next one, so that each source has its event, and one that
is registered next comes after all others. -/
structure InStep (r : Registry φ ε β ξ) : Prop where
  watched : r.watched.keys = List.range r.seed
  events : r.events.keys = List.range r.seed
  found : ∀ isReady, ∀ key ∈ r.watched.ready isReady, ∃ event, r.events.find? key = some event
  register : ∀ source event,
    (r.register source event).registrations = r.registrations ++ [(source, event)]

/-! ## Numbered values -/

def numbered {α : Type} (n : Nat) : List α → List (Nat × α)
  | [] => []
  | a :: as => (n, a) :: numbered (n + 1) as

section Numbered
variable {α : Type}

theorem numbered_concat (n : Nat) (as : List α) (a : α) :
    numbered n (as ++ [a]) = numbered n as ++ [(n + as.length, a)] := by
  induction as generalizing n with
  | nil => rfl
  | cons b as ih =>
    rw [List.cons_append, numbered, ih, numbered, List.length_cons, List.cons_append,
      Nat.add_right_comm, Nat.add_assoc]

theorem map_fst_numbered (n : Nat) (as : List α) :
    (numbered n as).map Prod.fst = List.range' n as.length := by
  induction as generalizing n with
  | nil => rfl
  | cons a as ih => exact congrArg (n :: ·) (ih (n + 1))

theorem lookup_numbered (n i : Nat) (as : List α) : (numbered n as).lookup (n + i) = as[i]? := by
  induction as generalizing n i with
  | nil => rfl
  | cons a as ih =>
    cases i with
    | zero => simp [numbered]
    | succ i =>
      have hne : (n + (i + 1) == n) = false := by simp
      rw [numbered, List.lookup_cons, hne, List.getElem?_cons_succ, ← ih (n + 1) i,
        Nat.add_right_comm, Nat.add_assoc]

/-- A key above all others goes to the end. -/
theorem place_numbered (as : List α) (a : α) :
    OrderedMap.place as.length a (numbered 0 as) = numbered 0 (as ++ [a]) := by
  have hlast (entries : List (Nat × α)) {key : Nat} (h : ∀ entry ∈ entries, entry.1 < key) :
      OrderedMap.place key a entries = entries ++ [(key, a)] := by
    induction entries with
    | nil => rfl
    | cons entry entries ih =>
      obtain ⟨hentry, hentries⟩ := List.forall_mem_cons.1 h
      rw [OrderedMap.place, if_neg (Nat.lt_asymm hentry), if_neg (Nat.ne_of_gt hentry),
        ih hentries, List.cons_append]
  rw [numbered_concat, Nat.zero_add, hlast]
  intro entry hentry
  have hkey : entry.1 ∈ (numbered 0 as).map Prod.fst := List.mem_map_of_mem hentry
  rw [map_fst_numbered, List.mem_range'_1] at hkey
  omega

end Numbered

/-! ## Numbered registrations -/

/-- Both maps hold the registrations, under the numbers from 0 on. -/
structure Lists (r : Registry φ ε β ξ) (regs : List (φ × ε)) : Prop where
  seed : r.seed = regs.length
  watched : r.watched.entries = numbered 0 (regs.map Prod.fst)
  events : r.events.entries = numbered 0 (regs.map Prod.snd)

namespace Lists
variable {regs : List (φ × ε)}

theorem empty : ({} : Registry φ ε β ξ).Lists [] := ⟨rfl, rfl, rfl⟩

theorem register (h : r.Lists regs) (source : φ) (event : ε) :
    (r.register source event).Lists (regs ++ [(source, event)]) where
  seed := by
    rw [List.length_append, ← h.seed]
    rfl
  watched := by
    have hplace := place_numbered (regs.map Prod.fst) source
    rw [List.length_map, ← h.seed, ← h.watched] at hplace
    rw [List.map_append]
    exact hplace
  events := by
    have hplace := place_numbered (regs.map Prod.snd) event
    rw [List.length_map, ← h.seed, ← h.events] at hplace
    rw [List.map_append]
    exact hplace

theorem find? (h : r.Lists regs) (i : Nat) : r.events.find? i = regs[i]?.map Prod.snd := by
  have hlookup := lookup_numbered 0 i (regs.map Prod.snd)
  rw [Nat.zero_add, List.getElem?_map, ← h.events] at hlookup
  exact hlookup

/-- The registrations are those that are listed. -/
theorem registrations (h : r.Lists regs) : r.registrations = regs := by
  have hfind (later : List (φ × ε)) (n : Nat)
      (hlater : ∀ i, r.events.find? (n + i) = later[i]?.map Prod.snd) :
      (numbered n (later.map Prod.fst)).filterMap
        (fun (key, source) => (r.events.find? key).map (source, ·)) = later := by
    induction later generalizing n with
    | nil => rfl
    | cons reg later ih =>
      have hfirst : r.events.find? n = some reg.2 := hlater 0
      have hrest := ih (n + 1) fun i => by
        rw [Nat.add_assoc, Nat.add_comm 1 i]
        exact hlater (i + 1)
      rw [List.map_cons, numbered, List.filterMap_cons, hrest]
      dsimp only
      rw [hfirst]
      rfl
  rw [Registry.registrations, h.watched]
  exact hfind regs 0 fun i => by rw [Nat.zero_add, h.find? i]

theorem inStep (h : r.Lists regs) : r.InStep where
  watched := by
    rw [OrderedMap.keys, h.watched, map_fst_numbered, List.length_map, h.seed, List.range_eq_range']
  events := by
    rw [OrderedMap.keys, h.events, map_fst_numbered, List.length_map, h.seed, List.range_eq_range']
  found := by
    intro isReady key hkey
    obtain ⟨entry, hentry, rfl⟩ := List.mem_map.1 hkey
    have hmem : entry.1 ∈ r.watched.entries.map Prod.fst :=
      List.mem_map_of_mem (List.mem_of_mem_filter hentry)
    rw [h.watched, map_fst_numbered, List.length_map, List.mem_range'_1] at hmem
    rw [h.find?, List.getElem?_eq_getElem (by omega)]
    exact ⟨_, rfl⟩
  register source event := by rw [(h.register source event).registrations, h.registrations]

end Lists

/-! ## Histories -/

/-- What is registered later comes after what was there. -/
theorem Grown.lists {regs : List (φ × ε)} (h : r.Lists regs) (grown : r.Grown r') :
    ∃ added, r'.Lists (regs ++ added) := by
  induction grown with
  | refl => exact ⟨[], by rwa [List.append_nil]⟩
  | register source event _ ih =>
    obtain ⟨added, hadded⟩ := ih
    refine ⟨added ++ [(source, event)], ?_⟩
    rw [← List.append_assoc]
    exact hadded.register source event
  | abort reason _ ih =>
    obtain ⟨added, hadded⟩ := ih
    exact ⟨added, hadded.seed, hadded.watched, hadded.events⟩
  | exit reason _ ih =>
    obtain ⟨added, hadded⟩ := ih
    refine ⟨added, ?_⟩
    unfold Registry.exit
    split
    · exact hadded
    · exact ⟨hadded.seed, hadded.watched, hadded.events⟩
  | taken _ ih =>
    obtain ⟨added, hadded⟩ := ih
    exact ⟨added, hadded.seed, hadded.watched, hadded.events⟩

/-- Whatever is done to an empty registry, its maps stay in step. -/
theorem Grown.inStep (grown : ({} : Registry φ ε β ξ).Grown r) : r.InStep := by
  obtain ⟨regs, hregs⟩ := grown.lists .empty
  exact hregs.inStep

theorem Grown.registrations (start : ({} : Registry φ ε β ξ).Grown r) (grown : r.Grown r') :
    r.registrations <+: r'.registrations := by
  obtain ⟨regs, hregs⟩ := start.lists .empty
  obtain ⟨added, hadded⟩ := grown.lists hregs
  rw [hregs.registrations, hadded.registrations]
  exact List.prefix_append _ _

/-- The events of what is ready are those of the registrations that are. -/
theorem readyEvents_eq (r : Registry φ ε β ξ) (isReady : φ → Bool) :
    r.readyEvents isReady = (r.registrations.filter fun reg => isReady reg.1).map Prod.snd := by
  rw [readyEvents, PollSet.ready, registrations]
  induction r.watched.entries with
  | nil => rfl
  | cons entry entries ih =>
    cases hready : isReady entry.2 <;> cases hevent : r.events.find? entry.1 <;>
      simp [hready, hevent, ih]

end JobControl.EventLoop.Registry
