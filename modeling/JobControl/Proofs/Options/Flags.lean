import JobControl.Options
import Mathlib.Data.List.Forall2

/-!
# What the arguments of the command line ask for

* `Options.Spells` : the flags that an argument spells, by name or by letters;
* `Options.Blames` : what is said of an argument that spells none; each argument is of one kind
  (`spells_or_blames`), and is read so (`argFlags_of_spells`, `argFlags_of_blames`);
* `Options.Stops` : the first argument of a vector that spells no flags, and what is said of it; a vector
  is read up to there (`flags_of_spells`, `flags_of_stops`);
* `parse_flags` : so the options depend only on which flags are spelled.
-/

set_option autoImplicit false

namespace JobControl.Options

/-! ## Flags -/

def Flag.letter : Flag → Char
  | .help => 'h'
  | .verbose => 'v'
  | .noPrompt => 'p'

def Flag.name : Flag → String
  | .help => "help"
  | .verbose => "verbose"
  | .noPrompt => "no-prompt"

theorem Flag.ofLetter?_eq_some_iff {c : Char} {f : Flag} : ofLetter? c = some f ↔ c = f.letter := by
  constructor
  · unfold ofLetter?
    intro h
    split at h <;> cases h <;> rfl
  · rintro rfl
    cases f <;> rfl

theorem Flag.ofLetter?_eq_none_iff {c : Char} : ofLetter? c = none ↔ ∀ f : Flag, c ≠ f.letter := by
  simp only [Option.eq_none_iff_forall_ne_some, ne_eq, ofLetter?_eq_some_iff]

theorem Flag.ofName?_eq_some_iff {s : String} {f : Flag} : ofName? s = some f ↔ s = f.name := by
  constructor
  · unfold ofName?
    intro h
    split at h <;> cases h <;> rfl
  · rintro rfl
    cases f <;> rfl

theorem Flag.ofName?_eq_none_iff {s : String} : ofName? s = none ↔ ∀ f : Flag, s ≠ f.name := by
  simp only [Option.eq_none_iff_forall_ne_some, ne_eq, ofName?_eq_some_iff]

theorem Flag.letter_ne_dash (f : Flag) : f.letter ≠ '-' := by cases f <;> decide

/-! ## One argument -/

/-- The argument spells these flags: one by its name, or any number of them by their letters. -/
inductive Spells : String → List Flag → Prop where
  | name (f : Flag) : Spells ("--" ++ f.name) [f]
  | letters (fs : List Flag) : Spells (String.ofList ('-' :: fs.map Flag.letter)) fs

/-- What is said of an argument that spells no flags. Two dashes begin a name. Of a group, the first
letter is named that stands for no flag. -/
inductive Blames : String → String → Prop where
  | name (name : String) : (∀ f : Flag, name ≠ f.name) →
      Blames ("--" ++ name) ("unrecognized option '" ++ ("--" ++ name) ++ "'")
  | letter (fs : List Flag) (c : Char) (rest : List Char) : (∀ f : Flag, c ≠ f.letter) →
      (fs = [] → c ≠ '-') →
      Blames (String.ofList ('-' :: (fs.map Flag.letter ++ c :: rest)))
        ("invalid option -- '" ++ String.singleton c ++ "'")
  | other (arg : String) : arg.toList.head? ≠ some '-' →
      Blames arg ("unexpected argument '" ++ arg ++ "'")

theorem letterFlags_map (fs : List Flag) : letterFlags (fs.map Flag.letter) = .ok fs := by
  induction fs with
  | nil => rfl
  | cons f fs ih =>
    rw [List.map_cons, letterFlags, Flag.ofLetter?_eq_some_iff.2 rfl, ih]
    rfl

/-- A group is read up to the first letter that stands for no flag. -/
theorem letterFlags_append {c : Char} (h : ∀ f : Flag, c ≠ f.letter) (fs : List Flag)
    (rest : List Char) :
    letterFlags (fs.map Flag.letter ++ c :: rest) = .error (.invalidLetter c) := by
  induction fs with
  | nil => rw [List.map_nil, List.nil_append, letterFlags, Flag.ofLetter?_eq_none_iff.2 h]
  | cons f fs ih =>
    rw [List.map_cons, List.cons_append, letterFlags, Flag.ofLetter?_eq_some_iff.2 rfl, ih]
    rfl

theorem exists_letters (cs : List Char) : ∃ fs : List Flag, cs = fs.map Flag.letter ∨
    ∃ c rest, cs = fs.map Flag.letter ++ c :: rest ∧ ∀ f : Flag, c ≠ f.letter := by
  induction cs with
  | nil => exact ⟨[], .inl rfl⟩
  | cons c cs ih =>
    cases hc : Flag.ofLetter? c with
    | none => exact ⟨[], .inr ⟨c, cs, rfl, Flag.ofLetter?_eq_none_iff.1 hc⟩⟩
    | some f =>
      obtain rfl := Flag.ofLetter?_eq_some_iff.1 hc
      obtain ⟨fs, rfl | ⟨c, rest, rfl, hne⟩⟩ := ih
      · exact ⟨f :: fs, .inl rfl⟩
      · exact ⟨f :: fs, .inr ⟨c, rest, rfl, hne⟩⟩

theorem toList_dashes (name : String) : ("--" ++ name).toList = '-' :: '-' :: name.toList := by
  rw [String.toList_append]
  rfl

theorem argFlags_name (name : String) :
    argFlags ("--" ++ name) =
      match Flag.ofName? name with
      | none => .error (.unrecognized ("--" ++ name))
      | some flag => .ok [flag] := by
  cases hname : Flag.ofName? name <;>
    simp only [argFlags, toList_dashes, String.ofList_toList, hname]

theorem argFlags_letters {cs : List Char} (h : cs.head? ≠ some '-') :
    argFlags (String.ofList ('-' :: cs)) = letterFlags cs := by
  rw [argFlags, String.toList_ofList]
  split
  · next heq =>
    obtain ⟨-, rfl⟩ := List.cons.inj heq
    exact absurd rfl h
  · next heq =>
    obtain ⟨-, rfl⟩ := List.cons.inj heq
    rfl
  · next hne => exact absurd rfl (hne cs)

theorem argFlags_of_spells {arg : String} {fs : List Flag} (h : Spells arg fs) :
    argFlags arg = .ok fs := by
  cases h with
  | name f => rw [argFlags_name, Flag.ofName?_eq_some_iff.2 rfl]
  | letters =>
    rw [argFlags_letters, letterFlags_map]
    cases fs with
    | nil => nofun
    | cons f fs => exact fun h => f.letter_ne_dash (Option.some.inj h)

theorem argFlags_of_blames {arg text : String} (h : Blames arg text) :
    ∃ fault, argFlags arg = .error fault ∧ fault.message = text := by
  cases h with
  | name name hne =>
    refine ⟨.unrecognized ("--" ++ name), ?_, rfl⟩
    rw [argFlags_name, Flag.ofName?_eq_none_iff.2 hne]
  | letter fs c rest hne hdash =>
    refine ⟨.invalidLetter c, ?_, rfl⟩
    rw [argFlags_letters, letterFlags_append hne]
    cases fs with
    | nil => exact fun h => hdash rfl (Option.some.inj h)
    | cons f fs => exact fun h => f.letter_ne_dash (Option.some.inj h)
  | other arg hother =>
    refine ⟨.unexpected arg, ?_, rfl⟩
    unfold argFlags
    split
    · next heq => simp [heq] at hother
    · next heq => simp [heq] at hother
    · rfl

/-- An argument spells flags, or there is something wrong with it. -/
theorem spells_or_blames (arg : String) : (∃ fs, Spells arg fs) ∨ ∃ text, Blames arg text := by
  obtain ⟨cs, rfl⟩ : ∃ cs, arg = String.ofList cs := ⟨arg.toList, arg.ofList_toList.symm⟩
  cases cs with
  | nil => exact .inr ⟨_, .other _ (by simp)⟩
  | cons d cs =>
    by_cases hd : d = '-'
    · subst hd
      by_cases hname : cs.head? = some '-'
      · obtain ⟨name, rfl⟩ : ∃ name, cs = '-' :: name := by
          cases cs with
          | nil => cases hname
          | cons d cs =>
            obtain rfl := Option.some.inj hname
            exact ⟨cs, rfl⟩
        have hdashes : String.ofList ('-' :: '-' :: name) = "--" ++ String.ofList name := by
          apply String.toList_injective
          simp
        rw [hdashes]
        cases hflag : Flag.ofName? (String.ofList name) with
        | none => exact .inr ⟨_, .name _ (Flag.ofName?_eq_none_iff.1 hflag)⟩
        | some f => exact .inl ⟨[f], Flag.ofName?_eq_some_iff.1 hflag ▸ .name f⟩
      · obtain ⟨fs, rfl | ⟨c, rest, rfl, hne⟩⟩ := exists_letters cs
        · exact .inl ⟨fs, .letters fs⟩
        · refine .inr ⟨_, .letter fs c rest hne ?_⟩
          rintro rfl rfl
          exact hname rfl
    · exact .inr ⟨_, .other _ (by simpa using hd)⟩

/-! ## Argument vectors -/

variable {args : List String} {groups : List (List Flag)} {text : String}

def Stops (args : List String) (text : String) : Prop :=
  ∃ before bad later, args = before ++ bad :: later ∧ (∀ arg ∈ before, ∃ fs, Spells arg fs) ∧
    Blames bad text

theorem flags_of_spells (h : List.Forall₂ Spells args groups) : flags args = .ok groups.flatten := by
  induction h with
  | nil => rfl
  | cons harg _ ih =>
    rw [flags, argFlags_of_spells harg, ih]
    rfl

/-- What follows the argument at fault is not looked at. -/
theorem flags_of_stops (h : Stops args text) : ∃ fault, flags args = .error fault ∧ fault.message = text := by
  obtain ⟨before, bad, later, rfl, hbefore, hbad⟩ := h
  obtain ⟨fault, hfault, hmessage⟩ := argFlags_of_blames hbad
  refine ⟨fault, ?_, hmessage⟩
  induction before with
  | nil => rw [List.nil_append, flags, hfault]
  | cons arg before ih =>
    obtain ⟨⟨fs, hfs⟩, hbefore⟩ := List.forall_mem_cons.1 hbefore
    rw [List.cons_append, flags, argFlags_of_spells hfs, ih hbefore]
    rfl

theorem exists_groups_iff :
    (∃ groups, List.Forall₂ Spells args groups) ↔ ∀ arg ∈ args, ∃ fs, Spells arg fs := by
  induction args with
  | nil => simp
  | cons arg args ih =>
    rw [List.forall_mem_cons, ← ih]
    constructor
    · rintro ⟨_, _ | ⟨harg, hargs⟩⟩
      exact ⟨⟨_, harg⟩, _, hargs⟩
    · rintro ⟨⟨fs, harg⟩, groups, hargs⟩
      exact ⟨fs :: groups, .cons harg hargs⟩

theorem spells_or_stops (args : List String) :
    (∃ groups, List.Forall₂ Spells args groups) ∨ ∃ text, Stops args text := by
  induction args with
  | nil => exact .inl ⟨[], .nil⟩
  | cons arg args ih =>
    rcases spells_or_blames arg with ⟨fs, hfs⟩ | ⟨text, hblames⟩
    · rcases ih with ⟨groups, hgroups⟩ | ⟨text, before, bad, later, rfl, hbefore, hbad⟩
      · exact .inl ⟨fs :: groups, .cons hfs hgroups⟩
      · refine .inr ⟨text, arg :: before, bad, later, rfl, ?_, hbad⟩
        exact List.forall_mem_cons.2 ⟨⟨fs, hfs⟩, hbefore⟩
    · exact .inr ⟨text, [], arg, args, rfl, by simp, hblames⟩

/-! ## Options -/

/-- The options that some flags ask for, in whatever order and however often. -/
def asked (fs : List Flag) : Options where
  verbose := .verbose ∈ fs
  prompt := .noPrompt ∉ fs
  help := .help ∈ fs

theorem foldl_set (fs : List Flag) (o : Options) :
    fs.foldl set o =
      { verbose := o.verbose || (asked fs).verbose
        prompt := o.prompt && (asked fs).prompt
        help := o.help || (asked fs).help } := by
  induction fs generalizing o with
  | nil => simp [asked]
  | cons f fs ih =>
    rw [List.foldl_cons, ih]
    cases f <;> simp [set, asked]

theorem parse_of_spells {argv : List String} (h : List.Forall₂ Spells argv.tail groups) :
    parse argv = .ok (asked groups.flatten) := by
  rw [parse, ofArgs, flags_of_spells h, Except.map, foldl_set]
  simp

theorem parse_of_stops {argv : List String} (h : Stops argv.tail text) :
    ∃ fault, parse argv = .error fault ∧ fault.message = text := by
  obtain ⟨fault, hfault, hmessage⟩ := flags_of_stops h
  exact ⟨fault, by rw [parse, ofArgs, hfault, Except.map], hmessage⟩

/-- **Only which flags are spelled counts.** An argument vector is read if every argument spells flags,
and the options are those that these flags ask for; so vectors that spell the same flags, in whatever
order and grouping, by names or by letters and however often, ask for the same. If some argument spells
none, the message is about the first such argument, whatever follows it. -/
theorem parse_flags (argv : List String) :
    ((∃ o, parse argv = .ok o) ↔ ∀ arg ∈ argv.tail, ∃ fs, Spells arg fs) ∧
    (∀ groups, List.Forall₂ Spells argv.tail groups →
      ∃ o, parse argv = .ok o ∧
        (o.help = true ↔ .help ∈ groups.flatten) ∧ (o.verbose = true ↔ .verbose ∈ groups.flatten) ∧
        (o.prompt = true ↔ .noPrompt ∉ groups.flatten)) ∧
    (∀ argv' groups groups', List.Forall₂ Spells argv.tail groups →
      List.Forall₂ Spells argv'.tail groups' →
      (∀ f, f ∈ groups'.flatten ↔ f ∈ groups.flatten) → parse argv' = parse argv) ∧
    ∀ text, (∃ fault, parse argv = .error fault ∧ fault.message = text) ↔ Stops argv.tail text := by
  refine ⟨⟨?_, fun h => ?_⟩, fun groups h => ?_, fun argv' groups groups' h h' hsame => ?_,
    fun text => ⟨?_, parse_of_stops⟩⟩
  · rintro ⟨o, ho⟩
    rcases spells_or_stops argv.tail with hgroups | ⟨text, h⟩
    · exact exists_groups_iff.1 hgroups
    · obtain ⟨fault, hfault, -⟩ := parse_of_stops h
      cases ho.symm.trans hfault
  · obtain ⟨groups, hgroups⟩ := exists_groups_iff.2 h
    exact ⟨_, parse_of_spells hgroups⟩
  · exact ⟨_, parse_of_spells h, by simp [asked], by simp [asked], by simp [asked]⟩
  · rw [parse_of_spells h, parse_of_spells h']
    simp only [asked, hsame]
  · rintro ⟨fault, hfault, rfl⟩
    rcases spells_or_stops argv.tail with ⟨groups, h⟩ | ⟨text, h⟩
    · rw [parse_of_spells h] at hfault
      cases hfault
    · obtain ⟨fault', hfault', rfl⟩ := parse_of_stops h
      cases hfault.symm.trans hfault'
      exact h

/-- Two ways to ask for diagnostics and for no prompt; and a letter in a group that is no flag. -/
theorem parse_flags_regrouped :
    let argv := ["tsh", "-vp", "-v"]
    let argv' := ["tsh", "--no-prompt", "-", "--verbose"]
    let faulty := ["tsh", "-v", "-hé-v", "--nope"]
    let groups : List (List Flag) := [[.verbose, .noPrompt], [.verbose]]
    let groups' : List (List Flag) := [[.noPrompt], [], [.verbose]]
    (List.Forall₂ Spells argv.tail groups ∧ List.Forall₂ Spells argv'.tail groups' ∧
      (∀ f, f ∈ groups'.flatten ↔ f ∈ groups.flatten) ∧
      Stops faulty.tail "invalid option -- 'é'") ∧
    parse argv' = parse argv ∧
    (∃ o, parse argv = .ok o ∧ o.help = false ∧ o.verbose = true ∧ o.prompt = false) ∧
    ∃ fault, parse faulty = .error fault ∧ fault.message = "invalid option -- 'é'" := by
  intro argv argv' faulty groups groups'
  have h : List.Forall₂ Spells argv.tail groups :=
    .cons (.letters [.verbose, .noPrompt]) (.cons (.letters [.verbose]) .nil)
  have h' : List.Forall₂ Spells argv'.tail groups' :=
    .cons (.name .noPrompt) (.cons (.letters []) (.cons (.name .verbose) .nil))
  have hsame : ∀ f, f ∈ groups'.flatten ↔ f ∈ groups.flatten := by
    intro f
    cases f <;> decide
  have hstops : Stops faulty.tail "invalid option -- 'é'" := by
    refine ⟨["-v"], "-hé-v", ["--nope"], rfl, ?_, ?_⟩
    · simpa using ⟨_, Spells.letters [.verbose]⟩
    · exact .letter [.help] 'é' ['-', 'v'] (fun f => by cases f <;> decide) nofun
  obtain ⟨-, asks, same, -⟩ := parse_flags argv
  obtain ⟨o, ho, hhelp, hverbose, hprompt⟩ := asks groups h
  refine ⟨⟨h, h', hsame, hstops⟩, same argv' groups groups' h h' hsame, ⟨o, ho, ?_, ?_, ?_⟩, ?_⟩
  · simpa [groups] using hhelp
  · simpa [groups] using hverbose
  · simpa [groups] using hprompt
  · exact ((parse_flags faulty).2.2.2 _).2 hstops

end JobControl.Options
