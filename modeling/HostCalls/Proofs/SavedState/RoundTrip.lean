import HostCalls.Proofs.SavedState.Load

/-!
# What is saved can be loaded

Writing takes the shortest form of every number. That is one of the forms that reading accepts, so
what one linker saved is a section, and another one that loads it has the same deferred imports.
-/

namespace HostCalls
namespace SavedState

/-- The shortest form is a form. -/
theorem numberForm_encodeVarint {widest n : Nat} (hWidest : widest = 4 ∨ widest = 8)
    (hn : n < byteRange widest) : NumberForm widest n (encodeVarint n) := by
  have hTagged : ∀ {tag : UInt8} {width : Nat}, payloadWidth? tag = some width → width ≤ widest →
      n < byteRange width → NumberForm widest n (tag :: littleEndian width n) := by
    intro tag width hTag hWidth hLt
    have hForm : NumberForm widest (ofLittleEndian (littleEndian width n))
        (tag :: littleEndian width n) :=
      .tagged (by rw [length_littleEndian]; exact hTag) (by rw [length_littleEndian]; exact hWidth)
    rwa [ofLittleEndian_littleEndian, Nat.mod_eq_of_lt hLt] at hForm
  unfold encodeVarint
  split
  · rename_i hByte
    have hToNat : n.toUInt8.toNat = n := by
      rw [UInt8.toNat_ofNat']
      omega
    have hForm : NumberForm widest n.toUInt8.toNat [n.toUInt8] := by
      apply NumberForm.byte
      rw [UInt8.lt_iff_toNat_lt, hToNat]
      exact hByte
    rwa [hToNat] at hForm
  · split
    · rename_i hTwo
      exact hTagged rfl (by omega) hTwo
    · split
      · rename_i hFour
        exact hTagged rfl (by omega) hFour
      · rename_i hNotFour
        -- eight bytes are only written for what no narrow field holds
        rcases hWidest with rfl | rfl
        · exact absurd hn hNotFour
        · exact hTagged rfl (Nat.le_refl 8) hn

theorem textForm_encodeText {text : String} (hSize : text.utf8ByteSize < byteRange 8) :
    TextForm text (encodeText text) :=
  ⟨_, numberForm_encodeVarint (Or.inr rfl) hSize, rfl⟩

theorem wordForm_encodeWord (w : Word) : WordForm w (encodeWord w) :=
  numberForm_encodeVarint (Or.inl rfl) w.toNat_lt

theorem importForm_encodeImport {entry : DeferredImport}
    (hName : entry.moduleName.utf8ByteSize < byteRange 8) :
    ImportForm entry (encodeImport entry) :=
  ⟨_, _, _, textForm_encodeText hName, wordForm_encodeWord _, wordForm_encodeWord _, rfl⟩

theorem importsForm_encode {entries : List DeferredImport}
    (hNames : ∀ entry ∈ entries, entry.moduleName.utf8ByteSize < byteRange 8) :
    ImportsForm entries (entries.flatMap encodeImport) := by
  induction entries with
  | nil => exact .nil
  | cons entry entries ih =>
      rw [List.flatMap_cons]
      have hFirst := importForm_encodeImport (hNames entry List.mem_cons_self)
      have hOthers := ih fun other hOther => hNames other (List.mem_cons_of_mem _ hOther)
      exact .cons hFirst hOthers

/-- What is saved is a section. -/
theorem sectionForm_encode {s : Section} (hMarker : s.marker.utf8ByteSize < byteRange 8)
    (hCount : s.entries.length < byteRange 8)
    (hNames : ∀ entry ∈ s.entries, entry.moduleName.utf8ByteSize < byteRange 8) :
    SectionForm s s.encode :=
  ⟨_, _, _, textForm_encodeText hMarker, numberForm_encodeVarint (Or.inr rfl) hCount,
    importsForm_encode hNames, rfl⟩

end SavedState

namespace Linker

/-- The sizes of the deferred list and of its names are numbers of 64 bits, as all sizes in the
memory of a host are. -/
structure DeferredFits (linker : Linker) : Prop where
  length_lt : linker.deferred.length < 2 ^ 64
  size_lt : ∀ entry ∈ linker.deferred, entry.moduleName.utf8ByteSize < 2 ^ 64

theorem DeferredFits.sectionForm_save {linker : Linker} (hFits : linker.DeferredFits) :
    SavedState.SectionForm (.ofImports linker.deferred) linker.save := by
  have hMarker : ("HLE" : String).utf8ByteSize < 2 ^ 64 := by decide
  exact SavedState.sectionForm_encode hMarker hFits.length_lt hFits.size_lt

/-- A linker that loads what another one saved has its deferred imports, in their order, and keeps
all else. -/
theorem load_save (sender receiver : Linker) (hFits : sender.DeferredFits) :
    (receiver.load sender.save).value =
      (.ok (), { receiver with deferred := sender.deferred }) := by
  have hMarker : ("HLE" : String).utf8ByteSize < 2 ^ 64 := by decide
  have hForm : SavedState.SectionForm (.ofImports sender.deferred) sender.save :=
    SavedState.sectionForm_encode hMarker hFits.length_lt hFits.size_lt
  exact receiver.load_of_own hForm

/-- Deferred imports with a repetition, an empty name, a name with characters of one to four bytes,
and numbers at the ends of each width. -/
def mixedDeferred : List DeferredImport :=
  [⟨"é漢😀a", 250, 251⟩, ⟨"", 0xFFFF, 0x10000⟩, ⟨"é漢😀a", 250, 251⟩, ⟨"Late", 0xFFFFFFFF, 0⟩]

theorem mixed_deferred_survives_saving :
    ({ empty true with deferred := mixedDeferred } : Linker).DeferredFits ∧
      ((({ empty false with deferred := [⟨"Old", 4, 5⟩] } : Linker).track 8 .patchedOut).load
        ({ empty true with deferred := mixedDeferred } : Linker).save).value =
      (.ok (), { (empty false).track 8 .patchedOut with deferred := mixedDeferred }) := by
  have hFits : ({ empty true with deferred := mixedDeferred } : Linker).DeferredFits :=
    ⟨by decide, by decide⟩
  exact ⟨hFits, load_save _ _ hFits⟩

end Linker
end HostCalls
