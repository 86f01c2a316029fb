import HostCalls.Proofs.SavedState.RoundTrip

/-!
# Sections that are cut or padded

A section tells where it ends, so bytes behind it are noticed. If its end is cut off, its reader
runs out of bytes wherever the cut is: inside a number, inside a character, or between two imports.
It never takes the part that is left for a shorter section, nor for a broken one.

* `Starves d`: if the input of the reader `d` ends too early, `d` asks for more bytes, and for no
  more than were lost.
* `Starves.andThen` builds such a reader out of two; `starves_decodeVarint` up to
  `starves_decodeSection` say so of the readers of a section.
* `Linker.cut_or_padded_save_is_refused`: loading refuses all that was cut off from what was saved,
  or added to it.
-/

namespace HostCalls
namespace SavedState

/-- A reader that needs more than `front` of the bytes `front ++ lost` runs out of bytes on `front`
alone. -/
def Starves {α : Type} (d : Decoder α) : Prop :=
  ∀ (front lost : Bytes) (a : α) (rest : Bytes), d (front ++ lost) = .ok (a, rest) →
    rest.length < lost.length →
      ∃ missing, d front = .error (.endOfInput missing) ∧ 0 < missing ∧ missing ≤ lost.length

namespace Starves

variable {α β : Type} {d : Decoder α} {Form : α → Bytes → Prop}

/-- Either the first reader runs out of bytes, or it leaves too few for the second one. -/
theorem andThen {next : α → Decoder β} (h : Starves d) (hReads : Reads d Form)
    (hNext : ∀ a, Starves (next a)) :
    Starves fun bytes => d bytes >>= fun read => next read.1 read.2 := by
  intro front lost b rest hOk hShort
  obtain ⟨⟨a, middle⟩, hFirst, hSecond⟩ := bind_eq_ok.mp hOk
  by_cases hCut : middle.length < lost.length
  · obtain ⟨missing, hError, hPos, hLe⟩ := h front lost a middle hFirst hCut
    refine ⟨missing, ?_, hPos, hLe⟩
    dsimp only
    rw [hError]
    rfl
  · obtain ⟨taken, hForm, hBytes⟩ := (hReads _ _ _).mp hFirst
    -- the form that was taken ends before the cut
    have hSuffix : lost <:+ middle :=
      List.suffix_of_suffix_length_le (List.suffix_append front lost) ⟨taken, hBytes.symm⟩
        (Nat.le_of_not_lt hCut)
    obtain ⟨left, rfl⟩ := hSuffix
    rw [← List.append_assoc] at hBytes
    have hLeft : d front = .ok (a, left) :=
      (hReads _ _ _).mpr ⟨taken, hForm, List.append_cancel_right hBytes⟩
    obtain ⟨missing, hError, hPos, hLe⟩ := hNext a left lost b rest hSecond hShort
    refine ⟨missing, ?_, hPos, hLe⟩
    dsimp only
    rw [hLeft]
    exact hError

/-- A reader that takes nothing does not run out of bytes. -/
theorem of_rest_eq (h : ∀ bytes a rest, d bytes = .ok (a, rest) → rest = bytes) : Starves d := by
  intro front lost a rest hOk hShort
  rw [h _ _ _ hOk, List.length_append] at hShort
  omega

theorem lift (x : Except DecodeError α) :
    Starves fun bytes => x >>= fun a => .ok (a, bytes) := by
  refine of_rest_eq fun bytes a rest hOk => ?_
  obtain ⟨_, _, hRead⟩ := bind_eq_ok.mp hOk
  cases hRead
  rfl

theorem done (a : α) : Starves fun bytes => .ok (a, bytes) := by
  refine of_rest_eq fun bytes b rest hOk => ?_
  cases hOk
  rfl

end Starves

theorem starves_takeBytes (n : Nat) : Starves (takeBytes n) := by
  intro front lost body rest hOk hShort
  obtain ⟨hLength, hBytes⟩ := takeBytes_eq_ok_iff.mp hOk
  have hSizes : front.length + lost.length = body.length + rest.length := by
    rw [← List.length_append, hBytes, List.length_append]
  have hError : takeBytes n front = .error (.endOfInput (n - front.length)) := by
    unfold takeBytes
    rw [if_neg (by omega)]
  exact ⟨_, hError, by omega, by omega⟩

theorem starves_takeByte : Starves takeByte := by
  intro front lost b rest hOk hShort
  cases front with
  | nil => exact ⟨1, rfl, Nat.one_pos, Nat.lt_of_le_of_lt (Nat.zero_le _) hShort⟩
  | cons head front =>
      obtain ⟨-, rfl⟩ : head = b ∧ front ++ lost = rest := by simpa [takeByte] using hOk
      rw [List.length_append] at hShort
      omega

theorem decodePayload_eq (width : Nat) :
    decodePayload width =
      fun bytes => takeBytes width bytes >>= fun read => .ok (ofLittleEndian read.1, read.2) := by
  funext bytes
  unfold decodePayload
  cases takeBytes width bytes <;> rfl

theorem starves_decodePayload (width : Nat) : Starves (decodePayload width) := by
  rw [decodePayload_eq]
  exact (starves_takeBytes width).andThen (reads_takeBytes width) fun payload => Starves.done _

theorem starves_decodeVarint (wanted : IntegerKind) : Starves (decodeVarint wanted) := by
  intro front lost n rest hOk hShort
  cases front with
  | nil => exact ⟨1, rfl, Nat.one_pos, Nat.lt_of_le_of_lt (Nat.zero_le _) hShort⟩
  | cons tag front =>
      rw [List.cons_append] at hOk
      by_cases hByte : tag < 251
      · simp only [decodeVarint, takeByte, if_pos hByte, Except.ok.injEq, Prod.mk.injEq] at hOk
        rw [← hOk.2, List.length_append] at hShort
        omega
      -- a tag that was accepted is still accepted: what it announces is cut, not the tag
      by_cases hFits : ∃ width, payloadWidth? tag = some width ∧ width ≤ wanted.widest
      · obtain ⟨width, hTag, hWidth⟩ := hFits
        rw [decodeVarint_tagged _ hTag hWidth] at hOk ⊢
        exact starves_decodePayload width front lost n rest hOk hShort
      · obtain ⟨e, hError⟩ := decodeVarint_refused (front ++ lost) hByte fun width hTag =>
          Nat.lt_of_not_le fun hWidth => hFits ⟨width, hTag, hWidth⟩
        rw [hError] at hOk
        cases hOk

theorem starves_decodeText : Starves decodeText :=
  (starves_decodeVarint .long).andThen (reads_decodeVarint .long) fun size =>
    (starves_takeBytes size).andThen (reads_takeBytes size) fun body =>
      Starves.lift (Utf8.decode body)

theorem starves_decodeWord : Starves decodeWord :=
  (starves_decodeVarint .word).andThen (reads_decodeVarint .word) fun n =>
    Starves.done (UInt32.ofNat n)

theorem starves_decodeImport : Starves decodeImport :=
  starves_decodeText.andThen reads_decodeText fun moduleName =>
    starves_decodeWord.andThen reads_decodeWord fun site =>
      starves_decodeWord.andThen reads_decodeWord fun nid =>
        Starves.done (DeferredImport.mk moduleName site nid)

theorem starves_decodeImports (count : Nat) : Starves (decodeImports count) := by
  induction count with
  | zero => exact Starves.done []
  | succ count ih =>
      exact starves_decodeImport.andThen reads_decodeImport fun entry =>
        ih.andThen (reads_decodeImports count) fun entries => Starves.done (entry :: entries)

theorem starves_decodeSection : Starves Section.decode :=
  starves_decodeText.andThen reads_decodeText fun marker =>
    starves_takeByte.andThen reads_takeByte fun version =>
      (starves_decodeVarint .count).andThen (reads_decodeVarint .count) fun count =>
        (starves_decodeImports count).andThen (reads_decodeImports count) fun entries =>
          Starves.done (Section.mk marker version entries)

/-- What is left of a section that was cut reads as nothing but an input that ends too early. -/
theorem read_of_cut {s : Section} {front lost : Bytes} (hForm : SectionForm s (front ++ lost))
    (hLost : lost ≠ []) :
    ∃ missing, Section.read front = .error (.malformed (.endOfInput missing)) ∧ 0 < missing ∧
      missing ≤ lost.length := by
  have hWhole : Section.decode (front ++ lost) = .ok (s, []) :=
    (reads_decodeSection _ _ _).mpr ⟨front ++ lost, hForm, (List.append_nil _).symm⟩
  obtain ⟨missing, hError, hPos, hLe⟩ :=
    starves_decodeSection front lost s [] hWhole (List.length_pos_iff.mpr hLost)
  refine ⟨missing, ?_, hPos, hLe⟩
  unfold Section.read
  rw [hError]

end SavedState

namespace Linker

open SavedState

/-- What a linker saved is loaded by no other one after its end was cut off, be it a single byte, or
after bytes were added to it. Either is an error of parsing, and changes nothing. -/
theorem cut_or_padded_save_is_refused (sender receiver : Linker) (hFits : sender.DeferredFits) :
    (∀ front lost, sender.save = front ++ lost → lost ≠ [] →
      ∃ missing, 0 < missing ∧ missing ≤ lost.length ∧
        (receiver.load front).value =
          (.error (.parseError s!"HLE section: {(DecodeError.endOfInput missing).message}"),
            receiver)) ∧
      ∀ more, more ≠ [] →
        (receiver.load (sender.save ++ more)).value =
          (.error (.parseError s!"HLE section: {more.length} trailing bytes"), receiver) := by
  have hForm := hFits.sectionForm_save
  constructor
  · intro front lost hSave hLost
    rw [hSave] at hForm
    obtain ⟨missing, hRead, hPos, hLe⟩ := read_of_cut hForm hLost
    refine ⟨missing, hPos, hLe, ?_⟩
    rw [load_eq, hRead]
    rfl
  · intro more hMore
    exact receiver.load_of_trailing hForm hMore

/-- A cut after the first byte of the second character of a name, and one byte too many. -/
theorem save_cut_inside_character_is_refused :
    let sender : Linker := { empty true with deferred := mixedDeferred }
    let receiver : Linker := (empty false).track 8 .patchedOut
    sender.DeferredFits ∧ sender.save.take 10 = [3, 72, 76, 69, 1, 4, 10, 0xC3, 0xA9, 0xE6] ∧
      (∃ missing, 0 < missing ∧ missing ≤ (sender.save.drop 10).length ∧
        (receiver.load (sender.save.take 10)).value =
          (.error (.parseError s!"HLE section: {(DecodeError.endOfInput missing).message}"),
            receiver)) ∧
      (receiver.load (sender.save ++ [0])).value =
        (.error (.parseError s!"HLE section: {[0].length} trailing bytes"), receiver) := by
  intro sender receiver
  have hFits : sender.DeferredFits := ⟨by decide, by decide⟩
  obtain ⟨hCut, hPadded⟩ := cut_or_padded_save_is_refused sender receiver hFits
  have hLost : sender.save.drop 10 ≠ [] := by decide
  exact ⟨hFits, by decide, hCut _ _ (List.take_append_drop 10 sender.save).symm hLost,
    hPadded [0] (List.cons_ne_nil 0 [])⟩

end Linker
end HostCalls
