import JobControl.Text.Utf8
import Mathlib.Data.List.Infix

/-!
# A text is taken apart between characters

* `Utf8.size_eq` : the size of characters is that of their string;
* `Utf8.IsCut` : the longest start of a text that takes at most so many bytes; `isCut_cut`;
  `IsCut.eq_of_fits`;
* `Utf8.isBoundary_iff` : the boundaries of a text are the sizes of its starts;
* `Utf8.slice?_eq` : characters that stand in a text are taken out whole, as there are boundaries at both
  ends of them (`boundaries_of_eq_append`);
* `Utf8.exists_retreat?` : going back ends at the last boundary, before the first byte is passed;
* `Utf8.retreat?_eq`, `cutBytes?_eq` : that is where `cut` cuts the characters;
* `Utf8.lt_size_cut` : no more than three bytes are lost.
-/

set_option autoImplicit false

namespace JobControl.Utf8

/-! ## Sizes -/

theorem size_eq (cs : List Char) : size cs = (String.ofList cs).utf8ByteSize := by
  induction cs with
  | nil => rfl
  | cons c cs ih =>
    rw [size, ih, String.ofList_cons, String.utf8ByteSize_append, String.utf8ByteSize_singleton]

theorem size_le (cs : List Char) : size cs ≤ 4 * cs.length := by
  induction cs with
  | nil => exact Nat.le_refl 0
  | cons c cs ih =>
    have hc := c.utf8Size_le_four
    rw [size, List.length_cons]
    omega

theorem size_append (cs ds : List Char) : size (cs ++ ds) = size cs + size ds := by
  induction cs with
  | nil => simp [size]
  | cons c cs ih =>
    simp only [List.cons_append, size, ih]
    omega

theorem size_toList (text : String) : size text.toList = text.utf8ByteSize := by
  rw [size_eq, String.ofList_toList]

theorem size_le_of_prefix {cs ds : List Char} (h : cs <+: ds) : size cs ≤ size ds := by
  obtain ⟨rest, rfl⟩ := h
  rw [size_append]
  omega

/-! ## Cutting -/

/-- `text` is the longest start of `cs` that takes at most `limit` bytes. -/
structure IsCut (limit : Nat) (cs text : List Char) : Prop where
  start : text <+: cs
  fits : (String.ofList text).utf8ByteSize ≤ limit
  longest : ∀ other, other <+: cs → (String.ofList other).utf8ByteSize ≤ limit → other <+: text

theorem isCut_cut (limit : Nat) (cs : List Char) : IsCut limit cs (cut limit cs) := by
  induction cs generalizing limit with
  | nil => exact ⟨List.prefix_rfl, Nat.zero_le _, fun other h _ => h⟩
  | cons c cs ih =>
    unfold cut
    split
    · obtain ⟨hstart, hfits, hlongest⟩ := ih (limit - c.utf8Size)
      rw [← size_eq] at hfits
      refine ⟨List.cons_prefix_cons.2 ⟨rfl, hstart⟩, ?_, fun other hother hsize => ?_⟩
      · rw [← size_eq, size]
        omega
      · cases other with
        | nil => exact List.nil_prefix
        | cons d other =>
          obtain ⟨rfl, htail⟩ := List.cons_prefix_cons.1 hother
          rw [← size_eq, size] at hsize
          refine List.cons_prefix_cons.2 ⟨rfl, hlongest other htail ?_⟩
          rw [← size_eq]
          omega
    · refine ⟨List.nil_prefix, Nat.zero_le _, fun other hother hsize => ?_⟩
      cases other with
      | nil => exact List.prefix_rfl
      | cons d other =>
        obtain ⟨rfl, -⟩ := List.cons_prefix_cons.1 hother
        rw [← size_eq, size] at hsize
        omega

/-- A text that fits is not cut. -/
theorem IsCut.eq_of_fits {limit : Nat} {cs text : List Char} (h : IsCut limit cs text)
    (fits : (String.ofList cs).utf8ByteSize ≤ limit) : text = cs :=
  h.start.eq_of_length_le (h.longest cs List.prefix_rfl fits).length_le

/-! ## Boundaries -/

section Boundaries
variable {text : String} {i : Nat}

theorem isBoundary_iff : IsBoundary text i ↔ ∃ front, front <+: text.toList ∧ size front = i := by
  rw [IsBoundary, String.Pos.Raw.isValid_iff_exists_append]
  constructor
  · rintro ⟨front, rest, rfl, hi⟩
    refine ⟨front.toList, by simp, ?_⟩
    rw [size_toList]
    exact (congrArg String.Pos.Raw.byteIdx hi).symm
  · rintro ⟨front, ⟨rest, htext⟩, rfl⟩
    refine ⟨String.ofList front, String.ofList rest, ?_, ?_⟩
    · rw [← String.ofList_append, htext, String.ofList_toList]
    · rw [size_eq]
      rfl

theorem isBoundary_zero (text : String) : IsBoundary text 0 :=
  isBoundary_iff.2 ⟨[], List.nil_prefix, rfl⟩

theorem IsBoundary.le (h : IsBoundary text i) : i ≤ text.utf8ByteSize :=
  String.Pos.Raw.IsValid.le_utf8ByteSize h

end Boundaries

/-! ## Slices -/

section Slices
variable {text : String} {front mid rest : List Char}

/-- Where characters of a text start and stop there are boundaries. -/
theorem boundaries_of_eq_append (h : text.toList = front ++ mid ++ rest) :
    IsBoundary text (size front) ∧ IsBoundary text (size front + size mid) := by
  constructor
  · refine isBoundary_iff.2 ⟨front, ?_, rfl⟩
    rw [h, List.append_assoc]
    exact List.prefix_append _ _
  · refine isBoundary_iff.2 ⟨front ++ mid, ?_, size_append front mid⟩
    rw [h]
    exact List.prefix_append _ _

theorem slice?_eq (h : text.toList = front ++ mid ++ rest) :
    slice? text (size front) (size front + size mid) = some (String.ofList mid) := by
  obtain ⟨hstart, hstop⟩ := boundaries_of_eq_append h
  have hbytes (cs : List Char) : size cs = (String.ofList cs).toByteArray.size := by
    rw [size_eq, String.size_toByteArray]
  rw [slice?, dif_pos ⟨Nat.le_add_right _ _, hstart, hstop⟩]
  congr 1
  apply String.toByteArray_inj.1
  change text.toByteArray.extract (size front + 0) (size front + size mid) = _
  rw [← String.ofList_toList (s := text), h, List.append_assoc, String.ofList_append,
    String.ofList_append, String.toByteArray_append, String.toByteArray_append,
    ByteArray.extract_append_size_add' (hbytes front), ByteArray.extract_append_eq_left (hbytes mid)]

end Slices

/-! ## Cutting -/

/-- Going back ends at the last boundary. -/
theorem exists_retreat? (text : String) (limit : Nat) :
    ∃ i, retreat? text limit = some i ∧ IsBoundary text i ∧ i ≤ limit ∧
      ∀ j, IsBoundary text j → j ≤ limit → j ≤ i := by
  induction limit with
  | zero =>
    exact ⟨0, if_pos (isBoundary_zero text), isBoundary_zero text, Nat.le_refl 0, fun j _ h => h⟩
  | succ n ih =>
    rw [retreat?]
    by_cases h : IsBoundary text (n + 1)
    · exact ⟨n + 1, if_pos h, h, Nat.le_refl _, fun j _ hj => hj⟩
    · obtain ⟨i, heq, hi, hle, hlast⟩ := ih
      refine ⟨i, by rw [if_neg h, heq], hi, by omega, fun j hj hjle => hlast j hj ?_⟩
      have hne : j ≠ n + 1 := fun he => h (he ▸ hj)
      omega

theorem isBoundary_cut (text : String) (limit : Nat) :
    IsBoundary text (size (cut limit text.toList)) :=
  isBoundary_iff.2 ⟨_, (isCut_cut limit text.toList).start, rfl⟩

/-- No boundary that fits lies after the cut. -/
theorem IsBoundary.le_size_cut {text : String} {i limit : Nat} (h : IsBoundary text i)
    (fits : i ≤ limit) : i ≤ size (cut limit text.toList) := by
  obtain ⟨front, hfront, rfl⟩ := isBoundary_iff.1 h
  apply size_le_of_prefix
  exact (isCut_cut limit text.toList).longest front hfront (size_eq front ▸ fits)

/-- Going back ends where the characters are cut. -/
theorem retreat?_eq (text : String) (limit : Nat) :
    retreat? text limit = some (size (cut limit text.toList)) := by
  have hfits := (isCut_cut limit text.toList).fits
  rw [← size_eq] at hfits
  obtain ⟨i, heq, hi, hle, hlast⟩ := exists_retreat? text limit
  have hback : size (cut limit text.toList) ≤ i := hlast _ (isBoundary_cut text limit) hfits
  rw [heq, Nat.le_antisymm (hi.le_size_cut hle) hback]

theorem cutBytes?_eq (limit : Nat) (text : String) :
    cutBytes? limit text = some (String.ofList (cut limit text.toList)) := by
  have hcut := isCut_cut limit text.toList
  rw [cutBytes?]
  by_cases h : text.utf8ByteSize ≤ limit
  · rw [if_pos h, hcut.eq_of_fits (by rwa [String.ofList_toList]), String.ofList_toList]
  · obtain ⟨rest, hrest⟩ := hcut.start
    have hslice : slice? text (size []) (size [] + size (cut limit text.toList)) = _ :=
      slice?_eq hrest.symm
    rw [size, Nat.zero_add] at hslice
    rw [if_neg h, retreat?_eq, Option.bind_some, hslice]

/-- The first character that is cut off would not have fitted, and takes at most four bytes. -/
theorem lt_size_cut {limit : Nat} {text : String} (h : limit < text.utf8ByteSize) :
    limit < size (cut limit text.toList) + 4 := by
  have hcut := isCut_cut limit text.toList
  obtain ⟨rest, hrest⟩ := hcut.start
  cases rest with
  | nil =>
    have hfits := hcut.fits
    rw [List.append_nil] at hrest
    rw [hrest, String.ofList_toList] at hfits
    omega
  | cons c rest =>
    have hc := c.utf8Size_le_four
    apply Nat.lt_of_not_le
    intro hroom
    have hlonger : cut limit text.toList ++ [c] <+: cut limit text.toList := by
      refine hcut.longest _ ⟨rest, by simpa using hrest⟩ ?_
      rw [← size_eq, size_append, size, size]
      omega
    have hlength := hlonger.length_le
    rw [List.length_append, List.length_singleton] at hlength
    omega

end JobControl.Utf8
