import HostCalls.Proofs.Linker.Request
import HostCalls.Proofs.SavedState.Form

/-!
# Loading saved imports

Bytes from outside are either a whole section, a section with more behind it, or neither; a whole
section may have a foreign marker or an unknown version. The first of these that applies decides
what a load reports, and a load that reports an error changes nothing:

* `sectionCase` tells the three kinds of byte strings apart,
* `load_of_own` up to `load_of_unreadable` say what loading does with each,
* `load_accepts_exactly_sections` puts them together.
-/

namespace HostCalls
namespace SavedState

/-- How far some bytes are a section. -/
inductive SectionCase (bytes : Bytes) : Prop
  | whole (s : Section) (hForm : SectionForm s bytes)
  | followed (s : Section) (front rest : Bytes) (hForm : SectionForm s front) (hRest : rest ≠ [])
      (hBytes : bytes = front ++ rest)
  | unreadable (hNone : ∀ s front rest, bytes = front ++ rest → ¬SectionForm s front)

theorem sectionCase (bytes : Bytes) : SectionCase bytes := by
  by_cases hFront : ∃ s front rest, bytes = front ++ rest ∧ SectionForm s front
  · obtain ⟨s, front, rest, hBytes, hForm⟩ := hFront
    cases rest with
    | nil =>
        rw [List.append_nil] at hBytes
        exact .whole s (hBytes ▸ hForm)
    | cons b rest => exact .followed s front (b :: rest) hForm (List.cons_ne_nil b rest) hBytes
  · exact .unreadable fun s front rest hBytes hForm => hFront ⟨s, front, rest, hBytes, hForm⟩

theorem read_of_form {s : Section} {bytes : Bytes} (hForm : SectionForm s bytes) :
    Section.read bytes = s.check := by
  have hDecode : Section.decode bytes = .ok (s, []) :=
    (reads_decodeSection _ _ _).mpr ⟨bytes, hForm, (List.append_nil bytes).symm⟩
  unfold Section.read
  rw [hDecode]

theorem read_of_trailing {s : Section} {front rest : Bytes} (hForm : SectionForm s front)
    (hRest : rest ≠ []) : Section.read (front ++ rest) = .error (.trailing rest.length) := by
  have hDecode : Section.decode (front ++ rest) = .ok (s, rest) :=
    (reads_decodeSection _ _ _).mpr ⟨front, hForm, rfl⟩
  unfold Section.read
  rw [hDecode]
  cases rest with
  | nil => exact absurd rfl hRest
  | cons b rest => rfl

theorem read_of_unreadable {bytes : Bytes}
    (hNone : ∀ s front rest, bytes = front ++ rest → ¬SectionForm s front) :
    ∃ cause, Section.read bytes = .error (.malformed cause) := by
  unfold Section.read
  cases hDecode : Section.decode bytes with
  | error cause => exact ⟨cause, rfl⟩
  | ok read =>
      obtain ⟨front, hForm, hBytes⟩ := (reads_decodeSection _ _ _).mp hDecode
      exact absurd hForm (hNone _ _ _ hBytes)

theorem version_unsupported_iff {version : UInt8} :
    (version = 0 || Section.currentVersion < version) = true ↔ version ≠ 1 := by
  have hCurrent : Section.currentVersion.toNat = 1 := rfl
  rw [Bool.or_eq_true, decide_eq_true_eq, decide_eq_true_eq, UInt8.lt_iff_toNat_lt, hCurrent,
    Ne, ← UInt8.toNat_inj, ← UInt8.toNat_inj]
  simp only [UInt8.reduceToNat]
  omega

theorem check_of_foreign {s : Section} (hMarker : s.marker ≠ "HLE") :
    s.check = .error (.foreignMarker s.marker) := by
  unfold Section.check Section.ownMarker
  rw [if_pos hMarker]

theorem check_of_unsupported {s : Section} (hMarker : s.marker = "HLE") (hVersion : s.version ≠ 1) :
    s.check = .error (.unsupportedVersion s.version) := by
  unfold Section.check Section.ownMarker
  rw [if_neg (not_not_intro hMarker), if_pos (version_unsupported_iff.mpr hVersion)]

theorem check_of_own (entries : List DeferredImport) :
    (Section.mk "HLE" 1 entries).check = .ok entries := rfl

end SavedState

namespace Linker

open SavedState

variable (linker : Linker) {bytes : Bytes}

theorem load_of_own {entries : List DeferredImport}
    (hForm : SectionForm ⟨"HLE", 1, entries⟩ bytes) :
    (linker.load bytes).value = (.ok (), { linker with deferred := entries }) := by
  rw [load_eq, read_of_form hForm, check_of_own]
  rfl

theorem load_of_foreign {s : Section} (hForm : SectionForm s bytes) (hMarker : s.marker ≠ "HLE") :
    (linker.load bytes).value =
      (.error (.invalidState s!"expected section HLE, found {s.marker}"), linker) := by
  rw [load_eq, read_of_form hForm, check_of_foreign hMarker]
  rfl

theorem load_of_unsupported {s : Section} (hForm : SectionForm s bytes) (hMarker : s.marker = "HLE")
    (hVersion : s.version ≠ 1) :
    (linker.load bytes).value =
      (.error (.invalidState s!"unsupported HLE section version {s.version.toNat}"), linker) := by
  rw [load_eq, read_of_form hForm, check_of_unsupported hMarker hVersion]
  rfl

theorem load_of_trailing {s : Section} {front rest : Bytes} (hForm : SectionForm s front)
    (hRest : rest ≠ []) :
    (linker.load (front ++ rest)).value =
      (.error (.parseError s!"HLE section: {rest.length} trailing bytes"), linker) := by
  rw [load_eq, read_of_trailing hForm hRest]
  rfl

theorem load_of_unreadable (hNone : ∀ s front rest, bytes = front ++ rest → ¬SectionForm s front) :
    ∃ cause : DecodeError, (linker.load bytes).value =
      (.error (.parseError s!"HLE section: {cause.message}"), linker) := by
  obtain ⟨cause, hRead⟩ := read_of_unreadable hNone
  refine ⟨cause, ?_⟩
  rw [load_eq, hRead]
  rfl

/-- A load that does not succeed leaves the linker alone, and parsing is only to blame if the bytes
are no whole section. -/
theorem load_cases (bytes : Bytes) :
    (∃ entries, SectionForm ⟨"HLE", 1, entries⟩ bytes) ∨
      ∃ e, (linker.load bytes).value = (.error e, linker) ∧
        ((∃ text, e = .parseError text) ↔ ¬∃ s, SectionForm s bytes) := by
  cases sectionCase bytes with
  | whole s hForm =>
      by_cases hMarker : s.marker = "HLE"
      · by_cases hVersion : s.version = 1
        · obtain ⟨marker, version, entries⟩ := s
          simp only at hMarker hVersion
          subst hMarker hVersion
          exact Or.inl ⟨entries, hForm⟩
        · exact Or.inr ⟨_, linker.load_of_unsupported hForm hMarker hVersion,
            by simpa using ⟨s, hForm⟩⟩
      · exact Or.inr ⟨_, linker.load_of_foreign hForm hMarker, by simpa using ⟨s, hForm⟩⟩
  | followed s front rest hForm hRest hBytes =>
      subst hBytes
      have hNone : ¬∃ s, SectionForm s (front ++ rest) := by
        rintro ⟨s', hForm'⟩
        -- the whole would be a form with nothing behind it, but no form begins with another
        have hEq : front ++ rest = front ++ rest ++ [] := (List.append_nil _).symm
        exact hRest (reads_decodeSection.unique hForm hForm' hEq).2.2
      exact Or.inr ⟨_, linker.load_of_trailing hForm hRest, by simpa using hNone⟩
  | unreadable hNone =>
      obtain ⟨cause, hLoad⟩ := linker.load_of_unreadable hNone
      have hNoForm : ¬∃ s, SectionForm s bytes := by
        rintro ⟨s, hForm⟩
        exact hNone s bytes [] (List.append_nil bytes).symm hForm
      exact Or.inr ⟨_, hLoad, by simpa using hNoForm⟩

end Linker
end HostCalls
