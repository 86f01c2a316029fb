import HostCalls.Proofs.SavedState.Utf8
import HostCalls.SavedState.Section

/-!
# The written forms of a section

A number has several written forms: the tag in front may announce more bytes than it takes. So a
section has several written forms too, and a reader has to accept them all and no other bytes.

* `NumberForm`, `TextForm`, `WordForm`, `ImportForm`, `ImportsForm` and `SectionForm` say which
  bytes are a form of a value, without a reader.
* `Reads d Form` says that the reader `d` takes exactly the forms in `Form` from the front of its
  input. `Reads.andThen` builds such a reader out of two, and by `Reads.unique` no form is the
  beginning of another.
* `reads_decodeVarint` up to `reads_decodeSection` say so of the readers of a section.
-/

namespace HostCalls
namespace SavedState

/-- A reader takes exactly the written forms of values from the front of its input: `Form a front`
says that the bytes `front` are a form of `a`. -/
def Reads {α : Type} (d : Decoder α) (Form : α → Bytes → Prop) : Prop :=
  ∀ (bytes : Bytes) (a : α) (rest : Bytes),
    d bytes = .ok (a, rest) ↔ ∃ front, Form a front ∧ bytes = front ++ rest

theorem bind_eq_ok {ε α β : Type} {x : Except ε α} {f : α → Except ε β} {b : β} :
    (x >>= f) = .ok b ↔ ∃ a, x = .ok a ∧ f a = .ok b := by
  cases x with
  | error e => simp [bind, Except.bind]
  | ok a => simp [bind, Except.bind]

namespace Reads

variable {α β : Type} {d : Decoder α} {Form Form' : α → Bytes → Prop}

theorem of_form_iff (h : Reads d Form) (hForm : ∀ a front, Form a front ↔ Form' a front) :
    Reads d Form' := by
  intro bytes a rest
  rw [h]
  simp only [hForm]

/-- One reader after the other takes one form after the other. -/
theorem andThen {next : α → Decoder β} {Next : α → β → Bytes → Prop} (h : Reads d Form)
    (hNext : ∀ a, Reads (next a) (Next a)) :
    Reads (fun bytes => d bytes >>= fun read => next read.1 read.2) fun b front =>
      ∃ a first second, Form a first ∧ Next a b second ∧ front = first ++ second := by
  intro bytes b rest
  simp only [bind_eq_ok]
  constructor
  · rintro ⟨⟨a, middle⟩, hFirst, hSecond⟩
    obtain ⟨first, hForm, rfl⟩ := (h _ _ _).mp hFirst
    obtain ⟨second, hNextForm, rfl⟩ := (hNext a _ _ _).mp hSecond
    exact ⟨first ++ second, ⟨a, first, second, hForm, hNextForm, rfl⟩, by rw [List.append_assoc]⟩
  · rintro ⟨front, ⟨a, first, second, hForm, hNextForm, rfl⟩, rfl⟩
    rw [List.append_assoc]
    exact ⟨(a, second ++ rest), (h _ _ _).mpr ⟨first, hForm, rfl⟩,
      (hNext a _ _ _).mpr ⟨second, hNextForm, rfl⟩⟩

/-- A computation that reads nothing has the empty form. -/
theorem lift (x : Except DecodeError α) :
    Reads (fun bytes => x >>= fun a => .ok (a, bytes)) fun a front => x = .ok a ∧ front = [] := by
  intro bytes a rest
  simp only [bind_eq_ok, Except.ok.injEq, Prod.mk.injEq]
  constructor
  · rintro ⟨a', hx, rfl, rfl⟩
    exact ⟨[], ⟨hx, rfl⟩, rfl⟩
  · rintro ⟨front, ⟨hx, rfl⟩, rfl⟩
    exact ⟨a, hx, rfl, rfl⟩

theorem done (a : α) : Reads (fun bytes => .ok (a, bytes)) fun b front => b = a ∧ front = [] := by
  intro bytes b rest
  simp only [Except.ok.injEq, Prod.mk.injEq]
  constructor
  · rintro ⟨rfl, rfl⟩
    exact ⟨[], ⟨rfl, rfl⟩, rfl⟩
  · rintro ⟨front, ⟨rfl, rfl⟩, rfl⟩
    exact ⟨rfl, rfl⟩

/-- Two forms in front of the same bytes are forms of the same value, and equally long. -/
theorem unique (h : Reads d Form) {a a' : α} {front front' rest rest' : Bytes}
    (hForm : Form a front) (hForm' : Form a' front') (hEq : front ++ rest = front' ++ rest') :
    a = a' ∧ front = front' ∧ rest = rest' := by
  -- both forms stand in front of one input, of which the reader makes one thing only
  have hFirst : d (front ++ rest) = .ok (a, rest) := (h _ _ _).mpr ⟨front, hForm, rfl⟩
  have hSecond : d (front ++ rest) = .ok (a', rest') := (h _ _ _).mpr ⟨front', hForm', hEq⟩
  rw [hFirst] at hSecond
  obtain ⟨rfl, rfl⟩ : a = a' ∧ rest = rest' := by simpa using hSecond
  exact ⟨rfl, List.append_cancel_right hEq, rfl⟩

end Reads

/-- How many bytes a tag announces. -/
def payloadWidth? (tag : UInt8) : Option Nat :=
  if tag = 251 then some 2
  else if tag = 252 then some 4
  else if tag = 253 then some 8
  else none

theorem payloadWidth?_cases {tag : UInt8} {width : Nat} (h : payloadWidth? tag = some width) :
    tag = 251 ∧ width = 2 ∨ tag = 252 ∧ width = 4 ∨ tag = 253 ∧ width = 8 := by
  unfold payloadWidth? at h
  split at h
  · rename_i hTag
    exact Or.inl ⟨hTag, (Option.some.inj h).symm⟩
  · split at h
    · rename_i hTag
      exact Or.inr (Or.inl ⟨hTag, (Option.some.inj h).symm⟩)
    · split at h
      · rename_i hTag
        exact Or.inr (Or.inr ⟨hTag, (Option.some.inj h).symm⟩)
      · cases h

/-- The forms of a number in a field of at most `widest` bytes: a byte below all tags, or a tag and
as many bytes as it announces, lowest first. They need not be as short as possible. -/
inductive NumberForm (widest : Nat) : Nat → Bytes → Prop
  | byte {b : UInt8} (h : b < 251) : NumberForm widest b.toNat [b]
  | tagged {tag : UInt8} {payload : Bytes} (hTag : payloadWidth? tag = some payload.length)
      (hWidth : payload.length ≤ widest) :
      NumberForm widest (ofLittleEndian payload) (tag :: payload)

/-- The form of a text: a form of its size, and its encoding. -/
def TextForm (text : String) (bytes : Bytes) : Prop :=
  ∃ size, NumberForm 8 text.utf8ByteSize size ∧ bytes = size ++ Utf8.encode text

/-- The forms of a word. -/
def WordForm (w : Word) (bytes : Bytes) : Prop :=
  NumberForm 4 w.toNat bytes

/-- The forms of a deferred import. -/
def ImportForm (entry : DeferredImport) (bytes : Bytes) : Prop :=
  ∃ moduleName site nid, TextForm entry.moduleName moduleName ∧ WordForm entry.site site ∧
    WordForm entry.nid nid ∧ bytes = moduleName ++ site ++ nid

/-- The forms of a list of deferred imports, its length aside. -/
inductive ImportsForm : List DeferredImport → Bytes → Prop
  | nil : ImportsForm [] []
  | cons {entry : DeferredImport} {entries : List DeferredImport} {first others : Bytes}
      (hFirst : ImportForm entry first) (hOthers : ImportsForm entries others) :
      ImportsForm (entry :: entries) (first ++ others)

/-- The forms of a section. -/
def SectionForm (s : Section) (bytes : Bytes) : Prop :=
  ∃ marker count entries, TextForm s.marker marker ∧ NumberForm 8 s.entries.length count ∧
    ImportsForm s.entries entries ∧ bytes = marker ++ s.version :: (count ++ entries)

/-- The widest number that a field holds. -/
def IntegerKind.widest : IntegerKind → Nat
  | word => 4
  | _ => 8

theorem decodePayload_eq_ok_iff {width n : Nat} {bytes rest : Bytes} :
    decodePayload width bytes = .ok (n, rest) ↔
      ∃ payload, payload.length = width ∧ ofLittleEndian payload = n ∧ bytes = payload ++ rest := by
  unfold decodePayload
  constructor
  · intro h
    cases hTake : takeBytes width bytes with
    | error e => simp [hTake] at h
    | ok read =>
        obtain ⟨payload, rest'⟩ := read
        simp only [hTake, Except.ok.injEq, Prod.mk.injEq] at h
        obtain ⟨rfl, rfl⟩ := h
        obtain ⟨hLength, hBytes⟩ := takeBytes_eq_ok_iff.mp hTake
        exact ⟨payload, hLength, rfl, hBytes⟩
  · rintro ⟨payload, hLength, rfl, hBytes⟩
    rw [takeBytes_eq_ok_iff.mpr ⟨hLength, hBytes⟩]

theorem decodeVarint_tagged {wanted : IntegerKind} {tag : UInt8} {width : Nat} (rest : Bytes)
    (hTag : payloadWidth? tag = some width) (hWidth : width ≤ wanted.widest) :
    decodeVarint wanted (tag :: rest) = decodePayload width rest := by
  rcases payloadWidth?_cases hTag with ⟨rfl, rfl⟩ | ⟨rfl, rfl⟩ | ⟨rfl, rfl⟩
  · rfl
  · rfl
  · -- the one tag that a field of a word refuses although it announces something
    have hLong : wanted ≠ .word := by
      rintro rfl
      exact absurd hWidth (by decide)
    simp [decodeVarint, takeByte, hLong]

/-- A tag that announces nothing, or more than the field holds, is refused. -/
theorem decodeVarint_refused {wanted : IntegerKind} {tag : UInt8} (rest : Bytes)
    (hByte : ¬tag < 251) (hTag : ∀ width, payloadWidth? tag = some width → wanted.widest < width) :
    ∃ e, decodeVarint wanted (tag :: rest) = .error e := by
  unfold payloadWidth? at hTag
  have hWidest : 4 ≤ wanted.widest := by cases wanted <;> decide
  have hNotTwo : tag ≠ 251 := by
    rintro rfl
    have := hTag 2 rfl
    omega
  have hNotFour : tag ≠ 252 := by
    rintro rfl
    have := hTag 4 rfl
    omega
  simp only [decodeVarint, takeByte, if_neg hByte, if_neg hNotTwo, if_neg hNotFour]
  by_cases hEight : tag = 253
  · subst hEight
    have hWord : wanted = .word := by
      have := hTag 8 rfl
      cases wanted <;> first | rfl | exact absurd this (by decide)
    exact ⟨_, by rw [if_pos rfl, if_pos hWord]⟩
  · exact ⟨_, by rw [if_neg hEight]⟩

theorem reads_decodeVarint (wanted : IntegerKind) :
    Reads (decodeVarint wanted) (NumberForm wanted.widest) := by
  intro bytes n rest
  constructor
  · intro h
    cases bytes with
    | nil => cases h
    | cons tag bytes =>
        by_cases hByte : tag < 251
        · simp only [decodeVarint, takeByte, if_pos hByte, Except.ok.injEq, Prod.mk.injEq] at h
          obtain ⟨rfl, rfl⟩ := h
          exact ⟨[tag], .byte hByte, rfl⟩
        -- a tag whose bytes fit the field is followed by them, any other one is an error
        by_cases hFits : ∃ width, payloadWidth? tag = some width ∧ width ≤ wanted.widest
        · obtain ⟨width, hTag, hWidth⟩ := hFits
          rw [decodeVarint_tagged bytes hTag hWidth, decodePayload_eq_ok_iff] at h
          obtain ⟨payload, rfl, rfl, rfl⟩ := h
          exact ⟨tag :: payload, .tagged hTag hWidth, rfl⟩
        · obtain ⟨e, hError⟩ := decodeVarint_refused bytes hByte fun width hTag =>
            Nat.lt_of_not_le fun hWidth => hFits ⟨width, hTag, hWidth⟩
          rw [hError] at h
          cases h
  · rintro ⟨front, hForm, rfl⟩
    cases hForm with
    | @byte b hByte => simp [decodeVarint, takeByte, hByte]
    | @tagged tag payload hTag hWidth =>
        rw [List.cons_append, decodeVarint_tagged _ hTag hWidth, decodePayload_eq_ok_iff]
        exact ⟨payload, rfl, rfl, rfl⟩

theorem reads_takeBytes (n : Nat) :
    Reads (takeBytes n) fun body front => body.length = n ∧ front = body := by
  intro bytes body rest
  rw [takeBytes_eq_ok_iff]
  constructor
  · rintro ⟨hLength, hBytes⟩
    exact ⟨body, ⟨hLength, rfl⟩, hBytes⟩
  · rintro ⟨front, ⟨hLength, rfl⟩, hBytes⟩
    exact ⟨hLength, hBytes⟩

theorem byteRange_eq (width : Nat) : byteRange width = 256 ^ width := by
  induction width with
  | zero => rfl
  | succ width ih => rw [byteRange, ih, Nat.pow_succ, Nat.mul_comm]

/-- A form in a field of some bytes is that of a number which the field holds. -/
theorem NumberForm.lt {widest n : Nat} {bytes : Bytes} (h : NumberForm widest n bytes)
    (hWidest : 0 < widest) : n < byteRange widest := by
  rw [byteRange_eq]
  cases h with
  | @byte b hByte =>
      calc
        b.toNat < 256 ^ 1 := b.toNat_lt
        _ ≤ 256 ^ widest := Nat.pow_le_pow_right (by decide) hWidest
  | @tagged tag payload hTag hWidth =>
      calc
        ofLittleEndian payload < byteRange payload.length := ofLittleEndian_lt payload
        _ = 256 ^ payload.length := byteRange_eq _
        _ ≤ 256 ^ widest := Nat.pow_le_pow_right (by decide) hWidth

theorem reads_decodeText : Reads decodeText TextForm := by
  refine Reads.of_form_iff ((reads_decodeVarint .long).andThen fun size =>
    (reads_takeBytes size).andThen fun body => Reads.lift (Utf8.decode body)) ?_
  intro text front
  constructor
  · rintro ⟨_, size, _, hSize, hAfterSize, rfl⟩
    obtain ⟨body, _, _, ⟨rfl, rfl⟩, ⟨hText, rfl⟩, rfl⟩ := hAfterSize
    have hBody := Utf8.decode_eq_ok_iff.mp hText
    subst hBody
    rw [Utf8.length_encode] at hSize
    exact ⟨size, hSize, by rw [List.append_nil]⟩
  · rintro ⟨size, hSize, rfl⟩
    refine ⟨_, size, _, hSize, ?_, rfl⟩
    exact ⟨Utf8.encode text, _, [], ⟨Utf8.length_encode text, rfl⟩,
      ⟨Utf8.decode_eq_ok_iff.mpr rfl, rfl⟩, (List.append_nil _).symm⟩

theorem reads_decodeWord : Reads decodeWord WordForm := by
  refine Reads.of_form_iff ((reads_decodeVarint .word).andThen fun n =>
    Reads.done (UInt32.ofNat n)) ?_
  intro w front
  constructor
  · rintro ⟨n, form, _, hForm, ⟨rfl, rfl⟩, rfl⟩
    rw [List.append_nil]
    -- the conversion to a word loses nothing: the field was too narrow for a larger number
    have hLt : n < 2 ^ 32 := hForm.lt (by decide)
    unfold WordForm
    rw [UInt32.toNat_ofNat_of_lt' hLt]
    exact hForm
  · intro hForm
    exact ⟨w.toNat, front, [], hForm, ⟨by rw [UInt32.ofNat_toNat], rfl⟩, by rw [List.append_nil]⟩

theorem reads_decodeImport : Reads decodeImport ImportForm := by
  refine Reads.of_form_iff (reads_decodeText.andThen fun moduleName =>
    reads_decodeWord.andThen fun site => reads_decodeWord.andThen fun nid =>
      Reads.done (DeferredImport.mk moduleName site nid)) ?_
  intro entry front
  constructor
  · rintro ⟨_, moduleName, _, hName, hAfterName, rfl⟩
    obtain ⟨_, site, _, hSite, hAfterSite, rfl⟩ := hAfterName
    obtain ⟨_, nid, _, hNid, ⟨rfl, rfl⟩, rfl⟩ := hAfterSite
    exact ⟨moduleName, site, nid, hName, hSite, hNid, by simp⟩
  · rintro ⟨moduleName, site, nid, hName, hSite, hNid, rfl⟩
    refine ⟨_, moduleName, site ++ (nid ++ []), hName, ⟨_, site, _, hSite, ?_, rfl⟩, by simp⟩
    exact ⟨_, nid, [], hNid, ⟨rfl, rfl⟩, rfl⟩

theorem reads_decodeImports (count : Nat) :
    Reads (decodeImports count) fun entries front =>
      entries.length = count ∧ ImportsForm entries front := by
  induction count with
  | zero =>
      refine Reads.of_form_iff (Reads.done []) ?_
      intro entries front
      constructor
      · rintro ⟨rfl, rfl⟩
        exact ⟨rfl, .nil⟩
      · rintro ⟨hLength, hForm⟩
        cases hForm with
        | nil => exact ⟨rfl, rfl⟩
        | cons => simp at hLength
  | succ count ih =>
      refine Reads.of_form_iff (reads_decodeImport.andThen fun entry => ih.andThen fun entries =>
        Reads.done (entry :: entries)) ?_
      intro entries front
      constructor
      · rintro ⟨entry, first, _, hFirst, hAfterFirst, rfl⟩
        obtain ⟨entries, others, _, ⟨hLength, hOthers⟩, ⟨rfl, rfl⟩, rfl⟩ := hAfterFirst
        rw [List.append_nil]
        exact ⟨by rw [List.length_cons, hLength], .cons hFirst hOthers⟩
      · rintro ⟨hLength, hForm⟩
        cases hForm with
        | nil => simp at hLength
        | @cons entry entries first others hFirst hOthers =>
            have hCount : entries.length = count := by simpa using hLength
            refine ⟨entry, first, others, hFirst, ?_, rfl⟩
            exact ⟨entries, others, [], ⟨hCount, hOthers⟩, ⟨rfl, rfl⟩, (List.append_nil _).symm⟩

theorem reads_takeByte : Reads takeByte fun b front => front = [b] := by
  intro bytes b rest
  cases bytes with
  | nil => simp [takeByte]
  | cons head bytes => simp [takeByte]

theorem reads_decodeSection : Reads Section.decode SectionForm := by
  refine Reads.of_form_iff (reads_decodeText.andThen fun marker =>
    reads_takeByte.andThen fun version => (reads_decodeVarint .count).andThen fun count =>
      (reads_decodeImports count).andThen fun entries =>
        Reads.done (Section.mk marker version entries)) ?_
  intro s front
  constructor
  · rintro ⟨_, marker, _, hMarker, hAfterMarker, rfl⟩
    obtain ⟨version, _, _, rfl, hAfterVersion, rfl⟩ := hAfterMarker
    obtain ⟨_, count, _, hCount, hAfterCount, rfl⟩ := hAfterVersion
    obtain ⟨_, entries, _, ⟨rfl, hEntries⟩, ⟨rfl, rfl⟩, rfl⟩ := hAfterCount
    exact ⟨marker, count, entries, hMarker, hCount, hEntries, by simp⟩
  · rintro ⟨marker, count, entries, hMarker, hCount, hEntries, rfl⟩
    refine ⟨_, marker, [s.version] ++ (count ++ entries), hMarker, ?_, rfl⟩
    refine ⟨s.version, [s.version], count ++ entries, rfl, ?_, rfl⟩
    refine ⟨_, count, entries, hCount, ?_, rfl⟩
    exact ⟨s.entries, entries, [], ⟨rfl, hEntries⟩, ⟨rfl, rfl⟩, (List.append_nil _).symm⟩

end SavedState
end HostCalls
