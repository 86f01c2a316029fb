import HostCalls.Proofs.SavedState.RoundTrip

/-!
# The shortest form of a section

A section has many written forms, because a number may stand behind a wider tag than it needs. The
form that is saved is the shortest of them, and the only one of its length. So a linker that loads
any form and saves again puts the section into its normal form.

* `SameOrShorter` compares byte strings part by part.
* `NumberForm.encodeVarint_sameOrShorter` says of a number, and
  `SectionForm.encode_sameOrShorter` of a section, that every form is the saved one or longer.
* `Linker.save_of_load_is_shortest`: saving what was loaded.
-/

namespace HostCalls
namespace SavedState

/-- The first byte string is the second one, or shorter. -/
def SameOrShorter (short long : Bytes) : Prop :=
  short = long ∨ short.length < long.length

namespace SameOrShorter

variable {short long short' long' : Bytes}

theorem refl (bytes : Bytes) : SameOrShorter bytes bytes :=
  Or.inl rfl

theorem length_le (h : SameOrShorter short long) : short.length ≤ long.length := by
  rcases h with rfl | hShorter
  · exact Nat.le_refl _
  · exact Nat.le_of_lt hShorter

theorem eq_of_length_eq (h : SameOrShorter short long) (hLength : short.length = long.length) :
    short = long := by
  rcases h with hEq | hShorter
  · exact hEq
  · exact absurd hLength (Nat.ne_of_lt hShorter)

theorem append (h : SameOrShorter short long) (h' : SameOrShorter short' long') :
    SameOrShorter (short ++ short') (long ++ long') := by
  unfold SameOrShorter
  rw [List.length_append, List.length_append]
  -- one part that is shorter makes the whole shorter, as no part is longer
  rcases h with rfl | hShorter
  · rcases h' with rfl | hShorter'
    · exact Or.inl rfl
    · exact Or.inr (Nat.add_lt_add_left hShorter' _)
  · exact Or.inr (Nat.add_lt_add_of_lt_of_le hShorter h'.length_le)

theorem cons (b : UInt8) (h : SameOrShorter short long) :
    SameOrShorter (b :: short) (b :: long) :=
  (refl [b]).append h

end SameOrShorter

/-- Behind a tag, a number is written in the narrowest payload that holds it. -/
theorem exists_encodeVarint_eq_cons {n : Nat} (hTagged : ¬n < 251) :
    ∃ tag width, encodeVarint n = tag :: littleEndian width n ∧
      ∀ tag' width', payloadWidth? tag' = some width' → n < byteRange width' →
        tag = tag' ∧ width = width' ∨ width < width' := by
  unfold encodeVarint
  rw [if_neg hTagged]
  split
  · refine ⟨251, 2, rfl, fun tag' width' hTag' _ => ?_⟩
    rcases payloadWidth?_cases hTag' with ⟨rfl, rfl⟩ | ⟨-, rfl⟩ | ⟨-, rfl⟩ <;> simp
  · rename_i hNotTwo
    split
    · refine ⟨252, 4, rfl, fun tag' width' hTag' hFits => ?_⟩
      rcases payloadWidth?_cases hTag' with ⟨-, rfl⟩ | ⟨rfl, rfl⟩ | ⟨-, rfl⟩
      · exact absurd hFits hNotTwo
      · simp
      · simp
    · rename_i hNotFour
      refine ⟨253, 8, rfl, fun tag' width' hTag' hFits => ?_⟩
      rcases payloadWidth?_cases hTag' with ⟨-, rfl⟩ | ⟨-, rfl⟩ | ⟨rfl, rfl⟩
      · exact absurd hFits hNotTwo
      · exact absurd hFits hNotFour
      · simp

/-- A wider tag than the number needs makes its form longer. -/
theorem NumberForm.encodeVarint_sameOrShorter {widest n : Nat} {bytes : Bytes}
    (h : NumberForm widest n bytes) : SameOrShorter (encodeVarint n) bytes := by
  cases h with
  | @byte b hByte =>
      have hLt : b.toNat < 251 := UInt8.lt_iff_toNat_lt.mp hByte
      refine Or.inl ?_
      unfold encodeVarint
      rw [if_pos hLt]
      exact congrArg (fun b => [b]) UInt8.ofNat_toNat
  | @tagged tag payload hTag hWidth =>
      by_cases hByte : ofLittleEndian payload < 251
      · refine Or.inr ?_
        have hPos : 0 < payload.length := by
          rcases payloadWidth?_cases hTag with ⟨-, hLength⟩ | ⟨-, hLength⟩ | ⟨-, hLength⟩ <;> omega
        unfold encodeVarint
        rw [if_pos hByte]
        simpa using hPos
      · obtain ⟨tag', width, hEncode, hNarrowest⟩ := exists_encodeVarint_eq_cons hByte
        rw [hEncode]
        rcases hNarrowest tag _ hTag (ofLittleEndian_lt payload) with ⟨rfl, rfl⟩ | hWider
        · rw [littleEndian_ofLittleEndian]
          exact .refl _
        · refine Or.inr ?_
          rw [List.length_cons, List.length_cons, length_littleEndian]
          omega

theorem TextForm.encodeText_sameOrShorter {text : String} {bytes : Bytes}
    (h : TextForm text bytes) : SameOrShorter (encodeText text) bytes := by
  obtain ⟨size, hSize, rfl⟩ := h
  exact hSize.encodeVarint_sameOrShorter.append (.refl _)

theorem ImportForm.encodeImport_sameOrShorter {entry : DeferredImport} {bytes : Bytes}
    (h : ImportForm entry bytes) : SameOrShorter (encodeImport entry) bytes := by
  obtain ⟨moduleName, site, nid, hName, hSite, hNid, rfl⟩ := h
  exact (hName.encodeText_sameOrShorter.append hSite.encodeVarint_sameOrShorter).append
    hNid.encodeVarint_sameOrShorter

theorem ImportsForm.encode_sameOrShorter {entries : List DeferredImport} {bytes : Bytes}
    (h : ImportsForm entries bytes) : SameOrShorter (entries.flatMap encodeImport) bytes := by
  induction h with
  | nil => exact .refl []
  | cons hFirst hOthers ih =>
      rw [List.flatMap_cons]
      exact hFirst.encodeImport_sameOrShorter.append ih

/-- Every form of a section is the one that is written, or longer. -/
theorem SectionForm.encode_sameOrShorter {s : Section} {bytes : Bytes} (h : SectionForm s bytes) :
    SameOrShorter s.encode bytes := by
  obtain ⟨marker, count, entries, hMarker, hCount, hEntries, rfl⟩ := h
  have hBehind := hCount.encodeVarint_sameOrShorter.append hEntries.encode_sameOrShorter
  exact hMarker.encodeText_sameOrShorter.append (hBehind.cons s.version)

/-- The sizes in what was read are small enough to be written again. -/
theorem ImportsForm.size_lt {entries : List DeferredImport} {bytes : Bytes}
    (h : ImportsForm entries bytes) :
    ∀ entry ∈ entries, entry.moduleName.utf8ByteSize < byteRange 8 := by
  induction h with
  | nil => exact fun entry hMem => absurd hMem List.not_mem_nil
  | @cons first entries _ _ hFirst hOthers ih =>
      intro entry hMem
      rcases List.mem_cons.mp hMem with rfl | hMem
      · obtain ⟨_, _, _, ⟨_, hSize, -⟩, -⟩ := hFirst
        exact hSize.lt (by decide)
      · exact ih entry hMem

end SavedState

namespace Linker

open SavedState

variable {linker loaded receiver : Linker} {bytes : Bytes}

/-- Loading succeeds with the forms of a section of this kind and version, and restores it. -/
theorem load_eq_ok_iff :
    (linker.load bytes).value = (.ok (), loaded) ↔
      SectionForm (.ofImports loaded.deferred) bytes ∧
        loaded = { linker with deferred := loaded.deferred } := by
  constructor
  · intro hLoad
    rcases linker.load_cases bytes with ⟨entries, hForm⟩ | ⟨e, hError, -⟩
    · rw [linker.load_of_own hForm, Prod.mk.injEq] at hLoad
      obtain ⟨-, rfl⟩ := hLoad
      exact ⟨hForm, rfl⟩
    · rw [hError] at hLoad
      cases hLoad
  · rintro ⟨hForm, hLoaded⟩
    rw [linker.load_of_own hForm, ← hLoaded]

theorem deferredFits_of_form (hForm : SectionForm (.ofImports loaded.deferred) bytes) :
    loaded.DeferredFits := by
  obtain ⟨_, _, _, -, hCount, hEntries, -⟩ := hForm
  exact ⟨hCount.lt (by decide), hEntries.size_lt⟩

/-- Bytes that every linker accepts as saved deferred imports, while all other bytes that one
accepts as the same imports are longer. -/
structure IsShortestSave (entries : List DeferredImport) (saved : Bytes) : Prop where
  accepted : ∀ receiver : Linker,
    (receiver.load saved).value = (.ok (), { receiver with deferred := entries })
  length_le : ∀ (receiver : Linker) (bytes : Bytes),
    (receiver.load bytes).value = (.ok (), { receiver with deferred := entries }) →
      saved.length ≤ bytes.length
  unique : ∀ (receiver : Linker) (bytes : Bytes),
    (receiver.load bytes).value = (.ok (), { receiver with deferred := entries }) →
      saved.length = bytes.length → saved = bytes

/-- Saving after a load writes the loaded imports in their shortest form, which is accepted as the
same imports and is no longer than what was loaded, and only as long if it is the same. -/
theorem save_of_load_is_shortest (hLoad : (linker.load bytes).value = (.ok (), loaded)) :
    IsShortestSave loaded.deferred loaded.save ∧ loaded.save.length ≤ bytes.length ∧
      (loaded.save.length = bytes.length → loaded.save = bytes) := by
  obtain ⟨hForm, -⟩ := load_eq_ok_iff.mp hLoad
  have hSave : SectionForm (.ofImports loaded.deferred) loaded.save :=
    (deferredFits_of_form hForm).sectionForm_save
  have hShortest : ∀ {other : Bytes}, SectionForm (.ofImports loaded.deferred) other →
      SameOrShorter loaded.save other := fun h => h.encode_sameOrShorter
  refine ⟨⟨fun receiver => receiver.load_of_own hSave, ?_, ?_⟩, (hShortest hForm).length_le,
    (hShortest hForm).eq_of_length_eq⟩
  · intro receiver other hOther
    exact (hShortest (load_eq_ok_iff.mp hOther).1).length_le
  · intro receiver other hOther
    exact (hShortest (load_eq_ok_iff.mp hOther).1).eq_of_length_eq

/-- A section of one import, each of whose numbers has another width. -/
def wideSection : Bytes :=
  [251, 3, 0, 72, 76, 69, 1, 252, 1, 0, 0, 0, 253, 2, 0, 0, 0, 0, 0, 0, 0, 0xC3, 0xA9,
    251, 4, 0, 252, 251, 0, 0, 0]

theorem wide_section_is_saved_shorter :
    let loaded := (empty true).restoreDeferred [⟨"é", 4, 251⟩]
    ((empty true).load wideSection).value = (.ok (), loaded) ∧
      loaded.save = [3, 72, 76, 69, 1, 1, 2, 0xC3, 0xA9, 4, 251, 251, 0] ∧
      IsShortestSave loaded.deferred loaded.save ∧ loaded.save.length ≤ wideSection.length ∧
      (loaded.save.length = wideSection.length → loaded.save = wideSection) := by
  intro loaded
  have hLoad : ((empty true).load wideSection).value = (.ok (), loaded) := rfl
  exact ⟨hLoad, by decide, save_of_load_is_shortest hLoad⟩

end Linker
end HostCalls
