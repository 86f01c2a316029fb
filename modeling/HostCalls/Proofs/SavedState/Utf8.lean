import HostCalls.SavedState.Utf8
import Mathlib.Algebra.Group.Nat.Defs

/-!
# Text is read as it is written

A reader of UTF-8 must refuse overlong characters, surrogates and numbers behind the last
character, and must stop exactly where a character ends. The reader does so by a range for the
second byte of each character. Here its ranges are compared with the numbers of the characters:

* `leadCase_lead` lists what the first byte of a character can tell,
* `Fragment.Completes` are the bytes that a partly read character may still take, which are the
  continuation bytes of its number (`Completes.eq_continuations`, `completes_continuations`),
* `encodeChar_of_completes` and `exists_lead` therefore match the bytes of one character,
* `decode_eq_ok_iff`: bytes are read as a text exactly if they are its encoding.
-/

namespace HostCalls
namespace SavedState
namespace Utf8

theorem toNat_ofNat {n : Nat} (h : n < 256) : (UInt8.ofNat n).toNat = n := by
  rw [UInt8.toNat_ofNat']
  omega

/-- What is known after the first byte of a two-byte character with high bits `v`. -/
def Fragment.two (v : Nat) : Fragment :=
  ⟨v, 1, 0, 0x80, 0xBF⟩

/-- What is known after the first byte of a three-byte character with high bits `v`. The next byte
excludes shorter characters and surrogates. -/
def Fragment.three (v : Nat) : Fragment :=
  ⟨v, 1, 1, if v = 0 then 0xA0 else 0x80, if v = 0xD then 0x9F else 0xBF⟩

/-- What is known after the first byte of a four-byte character with high bits `v`. The next byte
excludes shorter characters and numbers behind the last character. -/
def Fragment.four (v : Nat) : Fragment :=
  ⟨v, 1, 2, if v = 0 then 0x90 else 0x80, if v = 4 then 0x8F else 0xBF⟩

theorem lead_of_lt {n : Nat} (h : n < 0x80) : lead (UInt8.ofNat n) = .whole (Char.ofNat n) := by
  have hn : (UInt8.ofNat n).toNat = n := toNat_ofNat (by omega)
  have hLt : UInt8.ofNat n < 0x80 := by
    rw [UInt8.lt_iff_toNat_lt, hn]
    exact h
  rw [lead, if_pos hLt, hn]

theorem lead_two {v : Nat} (hLow : 2 ≤ v) (hHigh : v < 0x20) :
    lead (UInt8.ofNat (v + 0xC0)) = .start (.two v) := by
  have hn : (UInt8.ofNat (v + 0xC0)).toNat = v + 0xC0 := toNat_ofNat (by omega)
  unfold lead Fragment.two
  simp only [UInt8.lt_iff_toNat_lt, ← UInt8.toNat_inj, hn, UInt8.reduceToNat]
  rw [if_neg (by omega), if_neg (by omega), if_pos (by omega), Nat.add_sub_cancel]

theorem lead_three {v : Nat} (hHigh : v < 0x10) :
    lead (UInt8.ofNat (v + 0xE0)) = .start (.three v) := by
  have hn : (UInt8.ofNat (v + 0xE0)).toNat = v + 0xE0 := toNat_ofNat (by omega)
  unfold lead Fragment.three
  simp only [UInt8.lt_iff_toNat_lt, ← UInt8.toNat_inj, hn, UInt8.reduceToNat]
  rw [if_neg (by omega), if_neg (by omega), if_neg (by omega)]
  by_cases hFirst : v = 0
  · subst hFirst
    rfl
  · by_cases hSurrogates : v = 0xD
    · subst hSurrogates
      rfl
    · rw [if_neg (by omega), if_neg (by omega), if_pos (by omega), if_neg hFirst,
        if_neg hSurrogates, Nat.add_sub_cancel]

theorem lead_four {v : Nat} (hHigh : v ≤ 4) :
    lead (UInt8.ofNat (v + 0xF0)) = .start (.four v) := by
  have hn : (UInt8.ofNat (v + 0xF0)).toNat = v + 0xF0 := toNat_ofNat (by omega)
  unfold lead Fragment.four
  simp only [UInt8.lt_iff_toNat_lt, ← UInt8.toNat_inj, hn, UInt8.reduceToNat]
  rw [if_neg (by omega), if_neg (by omega), if_neg (by omega), if_neg (by omega),
    if_neg (by omega), if_neg (by omega)]
  by_cases hFirst : v = 0
  · subst hFirst
    rfl
  · by_cases hLast : v = 4
    · subst hLast
      rfl
    · rw [if_neg (by omega), if_pos (by omega), if_neg hFirst, if_neg hLast, Nat.add_sub_cancel]

theorem lead_bad {n : Nat} (hByte : n < 256) (hBad : 0x80 ≤ n ∧ n < 0xC2 ∨ 0xF4 < n) :
    lead (UInt8.ofNat n) = .bad := by
  have hn : (UInt8.ofNat n).toNat = n := toNat_ofNat hByte
  unfold lead
  simp only [UInt8.lt_iff_toNat_lt, ← UInt8.toNat_inj, hn, UInt8.reduceToNat]
  rw [if_neg (by omega)]
  rcases hBad with hBad | hBad
  · rw [if_pos (by omega)]
  · rw [if_neg (by omega), if_neg (by omega), if_neg (by omega), if_neg (by omega),
      if_neg (by omega), if_neg (by omega), if_neg (by omega), if_neg (by omega)]

/-- Everything that a first byte can tell. -/
inductive LeadCase : UInt8 → Lead → Prop
  | whole {n : Nat} (h : n < 0x80) : LeadCase (UInt8.ofNat n) (.whole (Char.ofNat n))
  | two {v : Nat} (hLow : 2 ≤ v) (hHigh : v < 0x20) :
      LeadCase (UInt8.ofNat (v + 0xC0)) (.start (.two v))
  | three {v : Nat} (hHigh : v < 0x10) : LeadCase (UInt8.ofNat (v + 0xE0)) (.start (.three v))
  | four {v : Nat} (hHigh : v ≤ 4) : LeadCase (UInt8.ofNat (v + 0xF0)) (.start (.four v))
  | bad {b : UInt8} : LeadCase b .bad

theorem leadCase_lead (b : UInt8) : LeadCase b (lead b) := by
  have hByte : b.toNat < 256 := b.toNat_lt
  obtain ⟨n, hn⟩ : ∃ n, b.toNat = n := ⟨_, rfl⟩
  have hb : b = UInt8.ofNat n := by rw [← hn, UInt8.ofNat_toNat]
  rw [hn] at hByte
  subst hb
  by_cases hBad : 0x80 ≤ n ∧ n < 0xC2 ∨ 0xF4 < n
  · rw [lead_bad hByte hBad]
    exact .bad
  by_cases hWhole : n < 0x80
  · rw [lead_of_lt hWhole]
    exact .whole hWhole
  by_cases hTwo : n < 0xE0
  · obtain ⟨v, rfl⟩ := Nat.exists_eq_add_of_le' (show 0xC0 ≤ n by omega)
    rw [lead_two (by omega) (by omega)]
    exact .two (by omega) (by omega)
  by_cases hThree : n < 0xF0
  · obtain ⟨v, rfl⟩ := Nat.exists_eq_add_of_le' (show 0xE0 ≤ n by omega)
    rw [lead_three (by omega)]
    exact .three (by omega)
  · obtain ⟨v, rfl⟩ := Nat.exists_eq_add_of_le' (show 0xF0 ≤ n by omega)
    rw [lead_four (by omega)]
    exact .four (by omega)

/-- The continuation byte for the lowest six bits of a number. -/
def continuation (n : Nat) : UInt8 :=
  UInt8.ofNat (n % 64 + 0x80)

/-- The `count` continuation bytes for the lowest bits of a number, highest first. -/
def continuations : Nat → Nat → Bytes
  | 0, _ => []
  | count + 1, n => continuation (n / 64 ^ count) :: continuations count n

theorem toNat_continuation (n : Nat) : (continuation n).toNat = n % 64 + 0x80 :=
  toNat_ofNat (by omega)

theorem continuation_eq_of_toNat {n : Nat} {b : UInt8} (hLow : 0x80 ≤ b.toNat)
    (hBits : n % 64 = b.toNat - 0x80) : continuation n = b := by
  rw [← UInt8.toNat_inj, toNat_continuation]
  omega

namespace Fragment

/-- `f.Completes tail n` says that the bytes `tail` make the character `n` of the fragment `f`. -/
inductive Completes : Fragment → Bytes → Nat → Prop
  | last {f : Fragment} {b : UInt8} (hLater : f.later = 0) (hLow : f.low ≤ b) (hHigh : b ≤ f.high) :
      Completes f [b] (f.extend b)
  | next {f : Fragment} {b : UInt8} {later n : Nat} {tail : Bytes} (hLater : f.later = later + 1)
      (hLow : f.low ≤ b) (hHigh : b ≤ f.high)
      (hTail : Completes ⟨f.extend b, f.seen + 1, later, 0x80, 0xBF⟩ tail n) :
      Completes f (b :: tail) n

/-- The next byte of a fragment is a continuation byte. -/
def InRange (f : Fragment) : Prop :=
  0x80 ≤ f.low.toNat ∧ f.high.toNat ≤ 0xBF

/-- The bits of `n` that a fragment has not read yet begin in the range of its next byte. -/
def Admits (f : Fragment) (n : Nat) : Prop :=
  f.low.toNat ≤ n / 64 ^ f.later % 64 + 0x80 ∧ n / 64 ^ f.later % 64 + 0x80 ≤ f.high.toNat

theorem Completes.eq_continuations {f : Fragment} {tail : Bytes} {n : Nat}
    (h : f.Completes tail n) (hRange : f.InRange) :
    tail = continuations (f.later + 1) n ∧ n / 64 ^ (f.later + 1) = f.value ∧ f.Admits n := by
  unfold Admits
  induction h with
  | @last f b hLater hLow hHigh =>
      rw [UInt8.le_iff_toNat_le] at hLow hHigh
      obtain ⟨hRangeLow, hRangeHigh⟩ := hRange
      have hBits : f.extend b % 64 = b.toNat - 0x80 := by
        unfold extend
        omega
      have hValue : f.extend b / 64 = f.value := by
        unfold extend
        omega
      simp only [hLater, continuations, Nat.zero_add, Nat.pow_one, Nat.pow_zero, Nat.div_one]
      refine ⟨?_, hValue, by omega, by omega⟩
      rw [continuation_eq_of_toNat (by omega) hBits]
  | @next f b later n tail hLater hLow hHigh hTail ih =>
      rw [UInt8.le_iff_toNat_le] at hLow hHigh
      obtain ⟨hRangeLow, hRangeHigh⟩ := hRange
      -- only the byte behind the lead has a narrower range: the later ones are in any
      obtain ⟨hTailEq, hValue, -, -⟩ := ih ⟨Nat.le_refl 0x80, Nat.le_refl 0xBF⟩
      simp only at hTailEq hValue
      have hBits : n / 64 ^ (later + 1) % 64 = b.toNat - 0x80 := by
        rw [hValue]
        unfold extend
        omega
      have hHighBits : n / 64 ^ (later + 1) / 64 = f.value := by
        rw [hValue]
        unfold extend
        omega
      rw [hLater]
      refine ⟨?_, ?_, by omega, by omega⟩
      · rw [continuations, continuation_eq_of_toNat (by omega) hBits, hTailEq]
      · rw [Nat.pow_succ, ← Nat.div_div_eq_div_mul, hHighBits]

theorem completes_continuations (f : Fragment) {n : Nat}
    (hValue : n / 64 ^ (f.later + 1) = f.value) (hAdmits : f.Admits n) :
    f.Completes (continuations (f.later + 1) n) n := by
  -- the fragment after one more byte has one byte less to come
  obtain ⟨later, hLater⟩ : ∃ later, f.later = later := ⟨_, rfl⟩
  obtain ⟨hLow, hHigh⟩ := hAdmits
  induction later generalizing f with
  | zero =>
      rw [hLater] at hValue hLow hHigh ⊢
      simp only [Nat.zero_add, Nat.pow_one, Nat.pow_zero, Nat.div_one] at hValue hLow hHigh
      have hExtend : f.extend (continuation n) = n := by
        unfold extend
        rw [toNat_continuation]
        omega
      have hLast := Completes.last (f := f) (b := continuation n) hLater
        (by rw [UInt8.le_iff_toNat_le, toNat_continuation]; exact hLow)
        (by rw [UInt8.le_iff_toNat_le, toNat_continuation]; exact hHigh)
      rw [hExtend] at hLast
      simpa [continuations] using hLast
  | succ later ih =>
      rw [hLater] at hValue hLow hHigh ⊢
      rw [Nat.pow_succ, ← Nat.div_div_eq_div_mul] at hValue
      have hExtend : f.extend (continuation (n / 64 ^ (later + 1))) = n / 64 ^ (later + 1) := by
        unfold extend
        rw [toNat_continuation]
        omega
      refine Completes.next hLater ?_ ?_ ?_
      · rw [UInt8.le_iff_toNat_le, toNat_continuation]
        exact hLow
      · rw [UInt8.le_iff_toNat_le, toNat_continuation]
        exact hHigh
      · rw [hExtend]
        refine ih _ rfl rfl ?_ ?_
        · show 0x80 ≤ n / 64 ^ later % 64 + 0x80
          omega
        · show n / 64 ^ later % 64 + 0x80 ≤ 0xBF
          omega

theorem inRange_two (n : Nat) : (two n).InRange :=
  ⟨Nat.le_refl 0x80, Nat.le_refl 0xBF⟩

theorem inRange_three (n : Nat) : (three n).InRange := by
  unfold three InRange
  constructor <;> simp only <;> split <;> decide

theorem inRange_four (n : Nat) : (four n).InRange := by
  unfold four InRange
  constructor <;> simp only <;> split <;> decide

end Fragment

theorem toNat_char {n : Nat} (h : n.isValidChar) : (Char.ofNat n).val.toNat = n := by
  unfold Char.ofNat
  rw [dif_pos h]
  rfl

theorem encodeChar_one {n : Nat} (h : n < 0x80) :
    String.utf8EncodeChar (Char.ofNat n) = [UInt8.ofNat n] := by
  have hn := toNat_char (n := n) (Or.inl (by omega))
  rw [String.utf8EncodeChar.eq_1, hn, if_pos (by omega)]

theorem encodeChar_two {n : Nat} (hLow : 0x80 ≤ n) (hHigh : n < 0x800) :
    String.utf8EncodeChar (Char.ofNat n) = UInt8.ofNat (n / 64 + 0xC0) :: continuations 1 n := by
  have hn := toNat_char (n := n) (Or.inl (by omega))
  rw [String.utf8EncodeChar.eq_1, hn, if_neg (by omega), if_pos (by omega),
    show n / 64 % 32 = n / 64 by omega]
  simp only [continuations, continuation, Nat.pow_zero, Nat.div_one]

theorem encodeChar_three {n : Nat} (hValid : n.isValidChar) (hLow : 0x800 ≤ n)
    (hHigh : n < 0x10000) :
    String.utf8EncodeChar (Char.ofNat n) =
      UInt8.ofNat (n / 4096 + 0xE0) :: continuations 2 n := by
  rw [String.utf8EncodeChar.eq_1, toNat_char hValid, if_neg (by omega), if_neg (by omega),
    if_pos (by omega), show n / 4096 % 16 = n / 4096 by omega]
  simp only [continuations, continuation, Nat.pow_zero, Nat.pow_one, Nat.div_one]

theorem encodeChar_four {n : Nat} (hValid : n.isValidChar) (hLow : 0x10000 ≤ n)
    (hHigh : n < 0x110000) :
    String.utf8EncodeChar (Char.ofNat n) =
      UInt8.ofNat (n / 262144 + 0xF0) :: continuations 3 n := by
  rw [String.utf8EncodeChar.eq_1, toNat_char hValid, if_neg (by omega), if_neg (by omega),
    if_neg (by omega), show n / 262144 % 8 = n / 262144 by omega]
  simp only [continuations, continuation, Nat.pow_zero, Nat.pow_one, Nat.div_one, Nat.reducePow]

/-- A fragment is only completed to the character whose bytes it was read from. -/
theorem encodeChar_of_completes {b : UInt8} {f : Fragment} {tail : Bytes} {n : Nat}
    (hLead : lead b = .start f) (hTail : f.Completes tail n) :
    String.utf8EncodeChar (Char.ofNat n) = b :: tail := by
  have hCase := leadCase_lead b
  rw [hLead] at hCase
  cases hCase with
  | @two v hLow hHigh =>
      obtain ⟨hEq, hValue, -⟩ := hTail.eq_continuations (Fragment.inRange_two _)
      simp only [Fragment.two, Nat.zero_add, Nat.pow_one] at hEq hValue
      rw [encodeChar_two (by omega) (by omega), hEq, hValue]
  | @three v hHigh =>
      obtain ⟨hEq, hValue, hFrom, hTo⟩ := hTail.eq_continuations (Fragment.inRange_three _)
      simp only [Fragment.three, Nat.reduceAdd, Nat.reducePow] at hEq hValue hFrom hTo
      -- the range of the second byte excludes what two bytes can hold, and the surrogates
      have hTooShort : 0x800 ≤ n := by
        split at hFrom <;> simp only [UInt8.reduceToNat] at hFrom <;> omega
      have hNoSurrogate : n < 0xD800 ∨ 0xDFFF < n := by
        split at hTo <;> simp only [UInt8.reduceToNat] at hTo <;> omega
      have hValid : n.isValidChar := by
        rcases hNoSurrogate with h | h
        · exact Or.inl h
        · exact Or.inr ⟨h, by omega⟩
      rw [encodeChar_three hValid hTooShort (by omega), hEq, hValue]
  | @four v hHigh =>
      obtain ⟨hEq, hValue, hFrom, hTo⟩ := hTail.eq_continuations (Fragment.inRange_four _)
      simp only [Fragment.four, Nat.reduceAdd, Nat.reducePow] at hEq hValue hFrom hTo
      -- here it excludes what three bytes can hold, and what is past the last character
      have hTooShort : 0x10000 ≤ n := by
        split at hFrom <;> simp only [UInt8.reduceToNat] at hFrom <;> omega
      have hLast : n < 0x110000 := by
        split at hTo <;> simp only [UInt8.reduceToNat] at hTo <;> omega
      rw [encodeChar_four (Or.inr ⟨by omega, hLast⟩) hTooShort hLast, hEq, hValue]

/-- The first byte of a character tells how to read the others. -/
theorem exists_lead (n : Nat) (hValid : n.isValidChar) :
    (n < 0x80 ∧ String.utf8EncodeChar (Char.ofNat n) = [UInt8.ofNat n]) ∨
      ∃ b f tail, String.utf8EncodeChar (Char.ofNat n) = b :: tail ∧ lead b = .start f ∧
        f.seen = 1 ∧ f.Completes tail n := by
  by_cases hOne : n < 0x80
  · exact Or.inl ⟨hOne, encodeChar_one hOne⟩
  right
  by_cases hTwo : n < 0x800
  · have hAdmits : (Fragment.two (n / 64)).Admits n := by
      unfold Fragment.Admits Fragment.two
      simp only [Nat.pow_zero, Nat.div_one, UInt8.reduceToNat]
      omega
    exact ⟨_, .two (n / 64), _, encodeChar_two (by omega) hTwo, lead_two (by omega) (by omega), rfl,
      Fragment.completes_continuations _ rfl hAdmits⟩
  by_cases hThree : n < 0x10000
  · have hAdmits : (Fragment.three (n / 4096)).Admits n := by
      unfold Fragment.Admits Fragment.three
      simp only [Nat.pow_one]
      constructor
      · split <;> simp only [UInt8.reduceToNat] <;> omega
      · rcases hValid with hBelow | ⟨hAbove, -⟩ <;> split <;> simp only [UInt8.reduceToNat] <;>
          omega
    exact ⟨_, .three (n / 4096), _, encodeChar_three hValid (by omega) hThree,
      lead_three (by omega), rfl, Fragment.completes_continuations _ rfl hAdmits⟩
  · have hHigh : n < 0x110000 := by
      rcases hValid with h | h
      · omega
      · exact h.2
    have hAdmits : (Fragment.four (n / 262144)).Admits n := by
      unfold Fragment.Admits Fragment.four
      simp only [Nat.reducePow]
      constructor <;> split <;> simp only [UInt8.reduceToNat] <;> omega
    exact ⟨_, .four (n / 262144), _, encodeChar_four hValid (by omega) hHigh,
      lead_four (by omega), rfl, Fragment.completes_continuations _ rfl hAdmits⟩

/-- Reading goes on behind the bytes that complete a fragment. -/
theorem decodeFrom_of_completes {f : Fragment} {tail : Bytes} {n : Nat} (h : f.Completes tail n)
    (valid : Nat) (rest : Bytes) :
    decodeFrom valid (some f) (tail ++ rest) =
      (decodeFrom (valid + f.seen + tail.length) none rest).map (Char.ofNat n :: ·) := by
  induction h with
  | @last f b hLater hLow hHigh =>
      rw [List.singleton_append, decodeFrom, if_pos (by simp [hLow, hHigh]), hLater]
      cases decodeFrom (valid + f.seen + 1) none rest <;> rfl
  | @next f b later n tail hLater hLow hHigh hTail ih =>
      rw [List.cons_append, decodeFrom, if_pos (by simp [hLow, hHigh]), hLater]
      simp only
      rw [ih, List.length_cons, show valid + (f.seen + 1) + tail.length =
        valid + f.seen + (tail.length + 1) by omega]

/-- Reading that succeeds in the middle of a character completes it first. -/
theorem completes_of_decodeFrom {valid : Nat} {f : Fragment} {bytes : Bytes} {cs : List Char}
    (h : decodeFrom valid (some f) bytes = .ok cs) :
    ∃ tail n rest cs', f.Completes tail n ∧ bytes = tail ++ rest ∧ cs = Char.ofNat n :: cs' ∧
      decodeFrom (valid + f.seen + tail.length) none rest = .ok cs' := by
  -- a byte that is taken leaves a fragment that asks for one byte less, of the input that is left
  induction bytes generalizing f with
  | nil => simp [decodeFrom] at h
  | cons b bytes ih =>
      rw [decodeFrom] at h
      split at h
      · rename_i hIn
        obtain ⟨hLow, hHigh⟩ : f.low ≤ b ∧ b ≤ f.high := by simpa using hIn
        cases hLater : f.later with
        | zero =>
            simp only [hLater] at h
            cases hRest : decodeFrom (valid + f.seen + 1) none bytes with
            | error e => simp [hRest] at h
            | ok cs' =>
                simp only [hRest, Except.ok.injEq] at h
                exact ⟨[b], f.extend b, bytes, cs', .last hLater hLow hHigh, rfl, h.symm, hRest⟩
        | succ later =>
            simp only [hLater] at h
            obtain ⟨tail, n, rest, cs', hTail, rfl, rfl, hRest⟩ := ih h
            refine ⟨b :: tail, n, rest, cs', .next hLater hLow hHigh hTail, rfl, rfl, ?_⟩
            rw [List.length_cons]
            rw [show valid + f.seen + (tail.length + 1) = valid + (f.seen + 1) + tail.length by
              omega]
            exact hRest
      · cases h

theorem decodeFrom_encodeChar (c : Char) (valid : Nat) (rest : Bytes) :
    decodeFrom valid none (String.utf8EncodeChar c ++ rest) =
      (decodeFrom (valid + (String.utf8EncodeChar c).length) none rest).map (c :: ·) := by
  have hc : Char.ofNat c.toNat = c := Char.ofNat_toNat c
  rcases exists_lead c.toNat c.valid with
    ⟨hWhole, hEncode⟩ | ⟨b, f, tail, hEncode, hLead, hSeen, hTail⟩
  · rw [hc] at hEncode
    rw [hEncode, List.singleton_append, decodeFrom, lead_of_lt hWhole, hc]
    cases decodeFrom (valid + 1) none rest <;> rfl
  · rw [hc] at hEncode
    rw [hEncode, List.cons_append, decodeFrom, hLead]
    simp only
    rw [decodeFrom_of_completes hTail, hc, hSeen, List.length_cons]
    rw [show valid + 1 + tail.length = valid + (tail.length + 1) by omega]

theorem decodeFrom_encode (cs : List Char) (valid : Nat) :
    decodeFrom valid none (cs.flatMap String.utf8EncodeChar) = .ok cs := by
  induction cs generalizing valid with
  | nil => rfl
  | cons c cs ih =>
      rw [List.flatMap_cons, decodeFrom_encodeChar, ih]
      rfl

theorem eq_encode_of_decodeFrom {valid : Nat} {bytes : Bytes} {cs : List Char}
    (h : decodeFrom valid none bytes = .ok cs) : bytes = cs.flatMap String.utf8EncodeChar := by
  -- a character takes up at least one byte, so the rest is shorter
  induction hLength : bytes.length using Nat.strongRecOn generalizing valid bytes cs with
  | ind length ih =>
      cases bytes with
      | nil =>
          simp only [decodeFrom, Except.ok.injEq] at h
          rw [← h]
          rfl
      | cons b bytes =>
          have hCase := leadCase_lead b
          rw [decodeFrom] at h
          cases hLead : lead b with
          | whole c =>
              simp only [hLead] at h
              cases hRest : decodeFrom (valid + 1) none bytes with
              | error e => simp [hRest] at h
              | ok cs' =>
                  simp only [hRest, Except.ok.injEq] at h
                  subst h
                  rw [hLead] at hCase
                  cases hCase with
                  | whole hWhole =>
                      rw [List.flatMap_cons, encodeChar_one hWhole]
                      rw [← ih bytes.length (by simp [← hLength]) hRest rfl]
                      rfl
          | start f =>
              simp only [hLead] at h
              obtain ⟨tail, n, rest, cs', hTail, rfl, rfl, hRest⟩ := completes_of_decodeFrom h
              have hShorter : rest.length < (b :: (tail ++ rest)).length := by
                rw [List.length_cons, List.length_append]
                omega
              rw [List.flatMap_cons, encodeChar_of_completes hLead hTail,
                ← ih rest.length (hLength ▸ hShorter) hRest rfl]
              rfl
          | bad => simp [hLead] at h

/-- Exactly the encoding of a text is read as that text. -/
theorem decode_eq_ok_iff {bytes : Bytes} {text : String} :
    decode bytes = .ok text ↔ bytes = encode text := by
  unfold decode encode
  constructor
  · intro h
    cases hFrom : decodeFrom 0 none bytes with
    | error e => simp [hFrom] at h
    | ok cs =>
        simp only [hFrom, Except.ok.injEq] at h
        rw [← h, String.toList_ofList]
        exact eq_encode_of_decodeFrom hFrom
  · rintro rfl
    simp only [decodeFrom_encode, String.ofList_toList]

theorem toByteArray_encode (text : String) : (encode text).toByteArray = text.toByteArray :=
  String.utf8Encode_toList

theorem length_encode (text : String) : (encode text).length = text.utf8ByteSize := by
  rw [← List.size_toByteArray, toByteArray_encode]
  rfl

end Utf8
end SavedState
end HostCalls
