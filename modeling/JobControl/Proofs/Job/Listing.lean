import JobControl.Job.Table
import JobControl.Proofs.Text.Decimal

/-!
# Reading a listing back

* `Job.row` : the line of a job in a listing; `Job.rows` : the lines of a text;
* `Job.ofRow?`, `Job.ofListing?` : a reader of listings. It knows the columns, and nothing of how they
  are printed: an id in brackets, a process id in parentheses, a blank, a state in its column, and the
  line as it was typed;
* `rows_listing` : a listing has a line for each job, if the jobs were typed on a line each;
* `ofRow?_row`, `ofListing?_listing` : it is read back as the jobs, whatever their lines look like;
* `listing_inj` : so different jobs have different listings.
-/

set_option autoImplicit false

namespace JobControl

namespace Decimal

/-- The number that one or more ASCII digits spell, after a minus sign if there is one. -/
def integer? : List Char → Option Int
  | '-' :: digits => (natural? digits).map fun n : Nat => -(n : Int)
  | digits => (natural? digits).map fun n : Nat => (n : Int)

theorem integer?_toString (z : Int) : integer? (toString z).toList = some z := by
  rw [toList_toString]
  split
  · next hz =>
    obtain ⟨c, cs, hdigits, hall⟩ := exists_toDigits z.toNat
    have hc : c ≠ '-' := ne_of_isDigit (hall c List.mem_cons_self) (by decide)
    have hread : integer? (c :: cs) = (natural? (c :: cs)).map fun n : Nat => (n : Int) := by
      simp [integer?, hc]
    rw [hdigits, hread, ← hdigits, natural?_toDigits, Option.map_some, Int.toNat_of_nonneg hz]
  · rw [integer?, natural?_toDigits, Option.map_some, Int.toNat_of_nonneg (by omega), Int.neg_neg]

end Decimal

namespace Job

def OneLine (j : Job) : Prop := '\n' ∉ j.line.toList

instance : DecidablePred OneLine := fun _ => inferInstanceAs (Decidable (¬ _))

/-! ## Lines -/

/-- The lines of a text, without what follows the last newline. -/
def rows (text : String) : List (List Char) := (text.toList.splitOn '\n').dropLast

def row (j : Job) : List Char :=
  '[' :: (Nat.toDigits 10 j.id ++ ']' :: ' ' :: '(' :: ((toString j.pid.val).toList ++
    ')' :: ' ' :: (j.state.column.toList ++ j.line.toList)))

theorem toList_listed (j : Job) : j.listed.toList = j.row ++ ['\n'] := by
  have hid : (toString j.id).toList = Nat.toDigits 10 j.id := by
    rw [Nat.toString_eq_repr, Nat.toList_repr]
  have hpid : toString j.pid = toString j.pid.val := rfl
  simp only [listed, row, String.toList_append, List.cons_append, List.append_assoc, hid, hpid]
  rfl

theorem toList_listing (jobs : List Job) :
    (listing jobs).toList = jobs.flatMap fun j => j.row ++ ['\n'] := by
  induction jobs with
  | nil => rfl
  | cons j jobs ih =>
    rw [listing, List.map_cons, String.join_cons, String.toList_append, toList_listed, ← listing, ih]
    rfl

theorem newline_not_mem_column (s : State) : '\n' ∉ s.column.toList := by
  cases s <;> decide

theorem newline_not_mem_row {j : Job} (h : j.OneLine) : '\n' ∉ j.row := by
  have hid : '\n' ∉ Nat.toDigits 10 j.id := Decimal.not_mem_toDigits (by decide) _
  have hpid : '\n' ∉ (toString j.pid.val).toList := Decimal.not_mem_toString (by decide) (by decide) _
  have hcolumn : '\n' ∉ j.state.column.toList := newline_not_mem_column j.state
  have hline : '\n' ∉ j.line.toList := h
  simp only [row, List.mem_append, List.mem_cons, hid, hpid, hcolumn, hline]
  decide

/-- A listing has a line for each job. -/
theorem rows_listing {jobs : List Job} (h : ∀ j ∈ jobs, j.OneLine) :
    rows (listing jobs) = jobs.map row := by
  have hsplit : ∀ jobs : List Job, (∀ j ∈ jobs, j.OneLine) →
      (jobs.flatMap fun j => j.row ++ ['\n']).splitOn '\n' = jobs.map row ++ [[]] := by
    intro jobs h
    induction jobs with
    | nil => rfl
    | cons j jobs ih =>
      obtain ⟨hj, hjobs⟩ := List.forall_mem_cons.1 h
      rw [List.flatMap_cons, List.append_assoc, List.singleton_append,
        List.splitOn_append_cons_self_of_not_mem (newline_not_mem_row hj), ih hjobs]
      rfl
  rw [rows, toList_listing, hsplit jobs h, List.dropLast_concat]

/-! ## Columns -/

def upTo? (c : Char) (cs : List Char) : Option (List Char × List Char) :=
  match cs.dropWhile (· ≠ c) with
  | [] => none
  | _ :: rest => some (cs.takeWhile (· ≠ c), rest)

/-- What stands between the next `opening` and the `closing` after it, and what comes after that. -/
def field? (opening closing : Char) (cs : List Char) : Option (List Char × List Char) :=
  (upTo? opening cs).bind fun (_, inner) => upTo? closing inner

def State.ofColumn? (column : List Char) : Option State :=
  if column = "Foreground ".toList then some .foreground
  else if column = "Running    ".toList then some .background
  else if column = "Stopped    ".toList then some .stopped
  else none

def ofRow? (cs : List Char) : Option Job := do
  let (id, cs) ← field? '[' ']' cs
  let (pid, cs) ← field? '(' ')' cs
  let id ← Decimal.natural? id
  let pid ← Decimal.integer? pid
  let state ← State.ofColumn? ((cs.drop 1).take labelWidth)
  return ⟨id, ⟨pid⟩, state, String.ofList (cs.drop (1 + labelWidth))⟩

/-- The jobs that a listing is about. -/
def ofListing? (text : String) : Option (List Job) := (rows text).mapM ofRow?

theorem upTo?_append {c : Char} {cs : List Char} (h : c ∉ cs) (rest : List Char) :
    upTo? c (cs ++ c :: rest) = some (cs, rest) := by
  have hall : ∀ d ∈ cs, decide (d ≠ c) = true := by
    intro d hd
    rw [decide_eq_true_iff]
    rintro rfl
    exact h hd
  have hdrop : (cs ++ c :: rest).dropWhile (· ≠ c) = c :: rest := by
    rw [List.dropWhile_append_of_pos hall, List.dropWhile_cons_of_neg (by simp)]
  have htake : (cs ++ c :: rest).takeWhile (· ≠ c) = cs := by
    rw [List.takeWhile_append_of_pos hall, List.takeWhile_cons_of_neg (by simp), List.append_nil]
  rw [upTo?, hdrop, htake]

theorem field?_append {opening closing : Char} {before inner : List Char} (hopening : opening ∉ before)
    (hclosing : closing ∉ inner) (rest : List Char) :
    field? opening closing (before ++ opening :: (inner ++ closing :: rest)) = some (inner, rest) := by
  rw [field?, upTo?_append hopening, Option.bind_some]
  exact upTo?_append hclosing rest

theorem length_column (s : State) : s.column.toList.length = labelWidth := by
  cases s <;> decide

theorem ofColumn?_column (s : State) : State.ofColumn? s.column.toList = some s := by
  cases s <;> decide

/-- The line of a job is read back as the job, whatever was typed. -/
theorem ofRow?_row (j : Job) : ofRow? j.row = some j := by
  have hid := Decimal.not_mem_toDigits (c := ']') (by decide) j.id
  have hpid := Decimal.not_mem_toString (c := ')') (by decide) (by decide) j.pid.val
  have hfields : field? '[' ']' j.row = some (Nat.toDigits 10 j.id, [' '] ++ '(' ::
      ((toString j.pid.val).toList ++ ')' :: ' ' :: (j.state.column.toList ++ j.line.toList))) :=
    field?_append (List.not_mem_nil (a := '[')) hid _
  have hstate : (j.state.column.toList ++ j.line.toList).take labelWidth = j.state.column.toList :=
    List.take_left' (length_column j.state)
  have hline : (j.state.column.toList ++ j.line.toList).drop labelWidth = j.line.toList :=
    List.drop_left' (length_column j.state)
  rw [ofRow?, hfields]
  simp only [Option.bind_eq_bind, Option.bind_some]
  rw [field?_append (by decide) hpid]
  simp only [Option.bind_some, Decimal.natural?_toDigits, Decimal.integer?_toString, List.drop_succ_cons,
    List.drop_zero, hstate, ofColumn?_column, Nat.add_comm 1, hline, String.ofList_toList]
  rfl

theorem ofListing?_listing {jobs : List Job} (h : ∀ j ∈ jobs, j.OneLine) :
    ofListing? (listing jobs) = some jobs := by
  rw [ofListing?, rows_listing h]
  clear h
  induction jobs with
  | nil => rfl
  | cons j jobs ih => rw [List.map_cons, List.mapM_cons, ofRow?_row, ih]; rfl

theorem listing_inj {jobs jobs' : List Job} (h : ∀ j ∈ jobs, j.OneLine) (h' : ∀ j ∈ jobs', j.OneLine) :
    listing jobs = listing jobs' ↔ jobs = jobs' := by
  refine ⟨fun heq => ?_, congrArg listing⟩
  have hread := ofListing?_listing h
  rw [heq, ofListing?_listing h'] at hread
  exact (Option.some.inj hread).symm

end Job
end JobControl
