/-!
# Cutting text at a byte limit

Text of limited size is cut at the last character boundary at or below the limit, so what is kept
is text again. Sizes are those of the UTF-8 encoding.

* `boundaryAtMost` searches backwards from the limit; `boundaryAtMost_le`,
  `isBoundary_boundaryAtMost` and `le_boundaryAtMost` say that it finds the greatest boundary.
* `before` keeps the characters in front of an offset; at a boundary they fill it exactly
  (`byteSize_before`).
-/

namespace HostCalls
namespace Text

/-- The size of characters in bytes. -/
def byteSize : List Char → Nat
  | [] => 0
  | c :: cs => c.utf8Size + byteSize cs

/-- Whether a character starts, or the characters end, at a byte offset. -/
def isBoundary : List Char → Nat → Bool
  | _, 0 => true
  | [], _ + 1 => false
  | c :: cs, offset => c.utf8Size ≤ offset && isBoundary cs (offset - c.utf8Size)

/-- The greatest boundary at or below an offset. -/
def boundaryAtMost (cs : List Char) : Nat → Nat
  | 0 => 0
  | offset + 1 => if isBoundary cs (offset + 1) then offset + 1 else boundaryAtMost cs offset

/-- The characters that end at or before a byte offset. -/
def before : List Char → Nat → List Char
  | [], _ => []
  | c :: cs, offset => if c.utf8Size ≤ offset then c :: before cs (offset - c.utf8Size) else []

/-- The text as far as it fits into `limit` bytes. -/
def cut (text : String) (limit : Nat) : String :=
  String.ofList (before text.toList (boundaryAtMost text.toList limit))

theorem isBoundary_zero (cs : List Char) : isBoundary cs 0 = true := by
  cases cs <;> rfl

theorem boundaryAtMost_le (cs : List Char) (offset : Nat) : boundaryAtMost cs offset ≤ offset := by
  induction offset with
  | zero => exact Nat.le_refl 0
  | succ offset ih =>
      simp only [boundaryAtMost]
      split
      · exact Nat.le_refl _
      · exact Nat.le_succ_of_le ih

theorem isBoundary_boundaryAtMost (cs : List Char) (offset : Nat) :
    isBoundary cs (boundaryAtMost cs offset) = true := by
  induction offset with
  | zero => exact isBoundary_zero cs
  | succ offset ih =>
      simp only [boundaryAtMost]
      split
      · assumption
      · exact ih

theorem le_boundaryAtMost {cs : List Char} {offset boundary : Nat} (hLe : boundary ≤ offset)
    (hBoundary : isBoundary cs boundary = true) : boundary ≤ boundaryAtMost cs offset := by
  induction offset with
  | zero => exact hLe
  | succ offset ih =>
      simp only [boundaryAtMost]
      split
      · exact hLe
      · rename_i hNot
        refine ih (Nat.lt_succ_iff.mp (Nat.lt_of_le_of_ne hLe ?_))
        rintro rfl
        exact hNot hBoundary

theorem byteSize_before {cs : List Char} {offset : Nat} (h : isBoundary cs offset = true) :
    byteSize (before cs offset) = offset := by
  induction cs generalizing offset with
  | nil =>
      cases offset with
      | zero => rfl
      | succ offset => simp [isBoundary] at h
  | cons c cs ih =>
      have hPos : 0 < c.utf8Size := c.utf8Size_pos
      cases offset with
      | zero => simp [before, byteSize, Nat.not_le.mpr hPos]
      | succ offset =>
          simp only [isBoundary, Bool.and_eq_true, decide_eq_true_eq] at h
          simp only [before, if_pos h.1, byteSize, ih h.2]
          omega

theorem before_isPrefix (cs : List Char) (offset : Nat) : before cs offset <+: cs := by
  induction cs generalizing offset with
  | nil => exact List.nil_prefix
  | cons c cs ih =>
      simp only [before]
      split
      · exact (List.cons_prefix_cons).mpr ⟨rfl, ih _⟩
      · exact List.nil_prefix

end Text
end HostCalls
