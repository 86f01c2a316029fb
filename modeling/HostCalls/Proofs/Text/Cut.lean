import HostCalls.Text.Cut
import Mathlib.Data.List.Infix

/-!
# The longest beginning that fits

Text that is too large is cut inside its bytes, at the last place where a character ends. What is
kept are therefore whole characters, and as many as fit.

* `isBoundary_iff_exists_append` says what a boundary means for the characters, and
  `isBoundary_iff_startsCharacter` what it means for the bytes.
* `Retreats` is the backward search as a loop over the bytes, which has no way to go on at zero;
  `retreats_iff` says that it ends, and where.
* `isLongestWithin_cut`: cutting keeps the longest beginning that fits, be it measured in
  characters or in bytes.
-/

namespace HostCalls
namespace Text

theorem byteSize_eq (cs : List Char) : byteSize cs = (String.ofList cs).utf8ByteSize := by
  induction cs with
  | nil => rfl
  | cons c cs ih =>
      rw [String.ofList_cons, String.utf8ByteSize_append, String.utf8ByteSize_singleton, byteSize,
        ih]

theorem byteSize_toList (text : String) : byteSize text.toList = text.utf8ByteSize := by
  rw [byteSize_eq, String.ofList_toList]

theorem byteSize_append (front rest : List Char) :
    byteSize (front ++ rest) = byteSize front + byteSize rest := by
  rw [byteSize_eq, byteSize_eq, byteSize_eq, String.ofList_append, String.utf8ByteSize_append]

theorem eq_nil_of_byteSize_eq_zero {cs : List Char} (h : byteSize cs = 0) : cs = [] := by
  cases cs with
  | nil => rfl
  | cons c cs =>
      have hPos : 0 < c.utf8Size := c.utf8Size_pos
      rw [byteSize] at h
      omega

theorem isBoundary_cons {c : Char} {cs : List Char} {offset : Nat} (h : 0 < offset) :
    isBoundary (c :: cs) offset =
      (decide (c.utf8Size ≤ offset) && isBoundary cs (offset - c.utf8Size)) := by
  cases offset with
  | zero => exact absurd h (Nat.lt_irrefl 0)
  | succ offset => rfl

/-- At a boundary the characters fall into those in front of it and those behind it. -/
theorem isBoundary_iff_exists_append {cs : List Char} {offset : Nat} :
    isBoundary cs offset = true ↔ ∃ front rest, cs = front ++ rest ∧ byteSize front = offset := by
  constructor
  · intro h
    obtain ⟨rest, hRest⟩ := before_isPrefix cs offset
    exact ⟨before cs offset, rest, hRest.symm, byteSize_before h⟩
  · rintro ⟨front, rest, rfl, rfl⟩
    induction front with
    | nil => exact isBoundary_zero rest
    | cons c front ih =>
        have hPos : 0 < c.utf8Size := c.utf8Size_pos
        rw [byteSize, List.cons_append, isBoundary_cons (Nat.add_pos_left hPos _),
          Nat.add_sub_cancel_left, ih, Bool.and_true, decide_eq_true_eq]
        exact Nat.le_add_right _ _

/-- A boundary is where the bytes in front are text again. -/
theorem isBoundary_iff_isValid {text : String} {offset : Nat} :
    isBoundary text.toList offset = true ↔ (⟨offset⟩ : String.Pos.Raw).IsValid text := by
  rw [isBoundary_iff_exists_append, String.Pos.Raw.isValid_iff_exists_append]
  constructor
  · rintro ⟨front, rest, hText, rfl⟩
    refine ⟨.ofList front, .ofList rest, ?_, ?_⟩
    · rw [← String.ofList_append, ← hText, String.ofList_toList]
    · rw [byteSize_eq]
      rfl
  · rintro ⟨front, rest, rfl, hOffset⟩
    refine ⟨front.toList, rest.toList, String.toList_append, ?_⟩
    rw [byteSize_toList]
    exact (congrArg String.Pos.Raw.byteIdx hOffset).symm

/-- A character starts at a byte offset, or the text ends there, as the byte there tells. -/
def StartsCharacter (text : String) (offset : Nat) : Prop :=
  offset = text.utf8ByteSize ∨
    ∃ h : (⟨offset⟩ : String.Pos.Raw) < text.rawEndPos,
      (text.getUTF8Byte ⟨offset⟩ h).IsUTF8FirstByte

theorem isBoundary_iff_startsCharacter {text : String} {offset : Nat} :
    isBoundary text.toList offset = true ↔ StartsCharacter text offset := by
  rw [isBoundary_iff_isValid, String.Pos.Raw.isValid_iff_isUTF8FirstByte]
  unfold StartsCharacter
  rw [String.Pos.Raw.ext_iff]
  rfl

/-- The search for a boundary, one byte back at a time. It stops where a character starts, and there
is no step back from zero. -/
inductive Retreats (text : String) : Nat → Nat → Prop
  | stop {offset : Nat} (hStarts : StartsCharacter text offset) : Retreats text offset offset
  | back {offset found : Nat} (hInside : ¬StartsCharacter text (offset + 1))
      (hNext : Retreats text offset found) : Retreats text (offset + 1) found

/-- The search always ends, at the greatest boundary: were there none above zero, zero is one. -/
theorem retreats_boundaryAtMost (text : String) (offset : Nat) :
    Retreats text offset (boundaryAtMost text.toList offset) := by
  induction offset with
  | zero => exact .stop (isBoundary_iff_startsCharacter.mp (isBoundary_zero _))
  | succ offset ih =>
      simp only [boundaryAtMost]
      split
      · rename_i hBoundary
        exact .stop (isBoundary_iff_startsCharacter.mp hBoundary)
      · rename_i hInside
        exact .back (fun hStarts => hInside (isBoundary_iff_startsCharacter.mpr hStarts)) ih

theorem Retreats.unique {text : String} {offset found found' : Nat}
    (h : Retreats text offset found) (h' : Retreats text offset found') : found = found' := by
  induction h with
  | stop hStarts =>
      cases h' with
      | stop => rfl
      | back hInside => exact absurd hStarts hInside
  | back hInside hNext ih =>
      cases h' with
      | stop hStarts => exact absurd hStarts hInside
      | back _ hNext' => exact ih hNext'

theorem retreats_iff {text : String} {offset found : Nat} :
    Retreats text offset found ↔ found = boundaryAtMost text.toList offset := by
  constructor
  · intro h
    exact h.unique (retreats_boundaryAtMost text offset)
  · rintro rfl
    exact retreats_boundaryAtMost text offset

/-- The longest beginning of a text that fits into `limit` bytes. -/
structure IsLongestWithin (limit : Nat) (text kept : String) : Prop where
  isPrefix : kept.toList <+: text.toList
  size_le : kept.utf8ByteSize ≤ limit
  longest : ∀ other : String, other.toList <+: text.toList → other.utf8ByteSize ≤ limit →
    other.toList <+: kept.toList
  bytes_eq : kept.toByteArray = text.toByteArray.extract 0 kept.utf8ByteSize
  /-- No more of the bytes within the limit are text. -/
  le_size : ∀ size, size ≤ limit → size ≤ text.utf8ByteSize →
    (text.toByteArray.extract 0 size).IsValidUTF8 → size ≤ kept.utf8ByteSize

theorem utf8ByteSize_cut (text : String) (limit : Nat) :
    (cut text limit).utf8ByteSize = boundaryAtMost text.toList limit := by
  unfold cut
  rw [← byteSize_eq, byteSize_before (isBoundary_boundaryAtMost _ _)]

theorem exists_cut_append (text : String) (limit : Nat) : ∃ rest, text = cut text limit ++ rest := by
  obtain ⟨rest, hRest⟩ := before_isPrefix text.toList (boundaryAtMost text.toList limit)
  refine ⟨.ofList rest, ?_⟩
  unfold cut
  rw [← String.ofList_append, hRest, String.ofList_toList]

theorem extract_append (front rest : String) :
    (front ++ rest).toByteArray.extract 0 front.utf8ByteSize = front.toByteArray := by
  rw [String.toByteArray_append]
  exact ByteArray.extract_append_eq_left String.size_toByteArray.symm

theorem isLongestWithin_cut (text : String) (limit : Nat) :
    IsLongestWithin limit text (cut text limit) := by
  obtain ⟨rest, hText⟩ := exists_cut_append text limit
  have hPrefix : (cut text limit).toList <+: text.toList :=
    ⟨rest.toList, by rw [← String.toList_append, ← hText]⟩
  constructor
  · exact hPrefix
  · rw [utf8ByteSize_cut]
    exact boundaryAtMost_le _ _
  · intro other hOther hFits
    obtain ⟨behind, hBehind⟩ := hOther
    have hLe : other.utf8ByteSize ≤ (cut text limit).utf8ByteSize := by
      rw [utf8ByteSize_cut]
      refine le_boundaryAtMost hFits (isBoundary_iff_exists_append.mpr ?_)
      exact ⟨other.toList, behind, hBehind.symm, byteSize_toList other⟩
    rcases List.prefix_or_prefix_of_prefix ⟨behind, hBehind⟩ hPrefix with h | ⟨more, hMore⟩
    · exact h
    · -- nothing fits in between: a character more would be larger than what fits
      rw [← byteSize_toList, ← byteSize_toList, ← hMore, byteSize_append] at hLe
      have hNone : more = [] := eq_nil_of_byteSize_eq_zero (by omega)
      rw [← hMore, hNone, List.append_nil]
  · have hBytes := extract_append (cut text limit) rest
    rw [← hText] at hBytes
    exact hBytes.symm
  · intro size hFits hSize hText
    rw [utf8ByteSize_cut]
    refine le_boundaryAtMost hFits (isBoundary_iff_isValid.mpr ?_)
    exact String.Pos.Raw.isValid_iff_isValidUTF8_extract_zero.mpr ⟨hSize, hText⟩

/-- Text that fits is not cut. -/
theorem cut_of_le {text : String} {limit : Nat} (h : text.utf8ByteSize ≤ limit) :
    cut text limit = text := by
  have hAll := (isLongestWithin_cut text limit).longest text (List.prefix_refl _) h
  have hEq := (isLongestWithin_cut text limit).isPrefix.eq_of_length_le hAll.length_le
  exact String.toList_inj.mp hEq

end Text
end HostCalls
