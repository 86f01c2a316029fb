import HostCalls.CallSite
import HostCalls.Proofs.Memory

/-!
# Writing a call site

`SlotWrite` lists everything that writing a call site can do, one constructor for each access that
may decide; `slotWrite_writeSlots` says that the list is complete. A second slot without an address
is reported before any access (`value_writeSlots_of_pastEnd`), and nothing else prevents the write
where every access succeeds (`exists_writeSlots_of_acceptsAll`). In a faithful memory:

* `SlotWrite.held_after`: a write that succeeds leaves the words that the site is to hold,
* `SlotWrite.word_of_separate`: it changes no word that writing the two slots leaves alone, such as
  one that shares no byte with them (`SlotWrite.word_of_apart`),
* `SlotWrite.cell_eq`: in a memory made of cells it changes no cell but those of the two slots,
* `SlotWrite.word_of_error`: a write that fails leaves the first slot, and every word that shares
  no byte with it, as they were, if the memory accepts the roll-back,
* `SlotWrite.word_eq_of_error`: it leaves all words as they were, if the memory is restoring too,
* `SlotWrite.word_of_refused`: if the roll-back is refused, the first slot keeps its new word.
-/

namespace HostCalls
namespace CallSite

/-- Whether the address space goes on far enough for both slots of a site. -/
def HasSlots (site : Addr) : Prop :=
  site.toNat + Instruction.size.toNat < addrCount

instance (site : Addr) : Decidable (HasSlots site) :=
  inferInstanceAs (Decidable (_ < _))

theorem hasSlots_iff {site : Addr} : HasSlots site ↔ site ≤ 0xFFFFFFFB := by
  rw [UInt32.le_iff_toNat_le]
  unfold HasSlots addrCount
  rw [show Instruction.size.toNat = 4 from rfl, show (0xFFFFFFFB : Addr).toNat = 4294967291 from rfl]
  omega

theorem secondSlot?_eq_some_iff {site slot : Addr} :
    secondSlot? site = some slot ↔ HasSlots site ∧ slot = site + Instruction.size := by
  unfold secondSlot? HasSlots
  split
  · rename_i h
    simp [h, eq_comm]
  · rename_i h
    simp [h]

theorem HasSlots.toNat_second {site : Addr} (h : HasSlots site) :
    (site + Instruction.size).toNat = site.toNat + 4 := by
  rw [UInt32.toNat_add]
  exact Nat.mod_eq_of_lt h

theorem HasSlots.apart_second {site : Addr} (h : HasSlots site) :
    Addr.Apart 4 site (site + Instruction.size) := by
  have hBehind : (site + Instruction.size).toNat = site.toNat + 4 := h.toNat_second
  exact Or.inl (Nat.le_of_eq hBehind.symm)

/-- A word with the bytes of one site shares none with the first slot of another. -/
theorem apart_first {site other : Addr} (h : Addr.Apart 8 site other) :
    Addr.Apart 4 site other := by
  unfold Addr.Apart at h ⊢
  omega

/-- The first slot of one site shares no byte with the second slot of another. -/
theorem apart_second {site other : Addr} (h : Addr.Apart 8 site other) (hOther : HasSlots other) :
    Addr.Apart 4 site (other + Instruction.size) := by
  unfold Addr.Apart at h ⊢
  rw [hOther.toNat_second]
  omega

/-- The second slots of two sites share no byte. -/
theorem apart_seconds {site other : Addr} (h : Addr.Apart 8 site other) (hSite : HasSlots site)
    (hOther : HasSlots other) :
    Addr.Apart 4 (site + Instruction.size) (other + Instruction.size) := by
  unfold Addr.Apart at h ⊢
  rw [hSite.toNat_second, hOther.toNat_second]
  omega

section Cases

variable {M : Type} [Memory M]

/-- Everything that writing a site can do, by the access that decides. -/
inductive SlotWrite (m : M) (site : Addr) (held : CallSite) : Except Error Unit → M → Prop
  /-- The second slot has no address; nothing is accessed. -/
  | pastEnd (hSlots : ¬ HasSlots site) : SlotWrite m site held (.error (pastEnd site)) m
  | unread {e : Error} {m₁ : M} (hSlots : HasSlots site)
      (hRead : Memory.read m site = (.error e, m₁)) : SlotWrite m site held (.error e) m₁
  | refused {previous : Word} {e : Error} {m₁ m₂ : M} (hSlots : HasSlots site)
      (hRead : Memory.read m site = (.ok previous, m₁))
      (hFirst : Memory.write m₁ site held.firstWord = (.error e, m₂)) :
      SlotWrite m site held (.error e) m₂
  /-- The second slot cannot be written, and the first is given back its word, or refuses it. -/
  | rolledBack {previous : Word} {e : Error} {undone : Except Error Unit} {m₁ m₂ m₃ m₄ : M}
      (hSlots : HasSlots site) (hRead : Memory.read m site = (.ok previous, m₁))
      (hFirst : Memory.write m₁ site held.firstWord = (.ok (), m₂))
      (hSecond : Memory.write m₂ (site + Instruction.size) held.secondWord = (.error e, m₃))
      (hUndo : Memory.write m₃ site previous = (undone, m₄)) :
      SlotWrite m site held (.error e) m₄
  | written {previous : Word} {m₁ m₂ m₃ : M} (hSlots : HasSlots site)
      (hRead : Memory.read m site = (.ok previous, m₁))
      (hFirst : Memory.write m₁ site held.firstWord = (.ok (), m₂))
      (hSecond : Memory.write m₂ (site + Instruction.size) held.secondWord = (.ok (), m₃)) :
      SlotWrite m site held (.ok ()) m₃

/-- Whether the roll-back in which writing a site may end is accepted. -/
def RollBackAccepted (m : M) (site : Addr) (held : CallSite) : Prop :=
  ∀ (previous : Word) (e : Error) (m₁ m₂ m₃ : M), Memory.read m site = (.ok previous, m₁) →
    Memory.write m₁ site held.firstWord = (.ok (), m₂) →
    Memory.write m₂ (site + Instruction.size) held.secondWord = (.error e, m₃) →
    (Memory.write m₃ site previous).1 = .ok ()

theorem RollBackAccepted.undone {m m₁ m₂ m₃ m₄ : M} {site : Addr} {held : CallSite}
    {previous : Word} {e : Error} {undone : Except Error Unit} (h : RollBackAccepted m site held)
    (hRead : Memory.read m site = (.ok previous, m₁))
    (hFirst : Memory.write m₁ site held.firstWord = (.ok (), m₂))
    (hSecond : Memory.write m₂ (site + Instruction.size) held.secondWord = (.error e, m₃))
    (hUndo : Memory.write m₃ site previous = (undone, m₄)) : undone = .ok () := by
  have hTaken := h previous e m₁ m₂ m₃ hRead hFirst hSecond
  rwa [hUndo] at hTaken

/-- Whether writing a site ends in a roll-back that is refused: the second slot cannot be written,
and the first, which has been, does not take its previous word. -/
def RollBackRefused (m : M) (site : Addr) (held : CallSite) : Prop :=
  HasSlots site ∧ ∃ (previous : Word) (e refusal : Error) (m₁ m₂ m₃ m₄ : M),
    Memory.read m site = (.ok previous, m₁) ∧
      Memory.write m₁ site held.firstWord = (.ok (), m₂) ∧
      Memory.write m₂ (site + Instruction.size) held.secondWord = (.error e, m₃) ∧
      Memory.write m₃ site previous = (.error refusal, m₄)

theorem rollBackAccepted_of_not_refused {m : M} {site : Addr} {held : CallSite}
    (hSlots : HasSlots site) (h : ¬ RollBackRefused m site held) :
    RollBackAccepted m site held := by
  intro previous e m₁ m₂ m₃ hRead hFirst hSecond
  rcases hUndo : Memory.write m₃ site previous with ⟨refusal | ⟨⟩, m₄⟩
  · exact absurd ⟨hSlots, previous, e, refusal, m₁, m₂, m₃, m₄, hRead, hFirst, hSecond, hUndo⟩ h
  · rfl

theorem rollBackAccepted_of_steady {steady : M → Prop} (hAccepts : AcceptsRollBack steady) {m : M}
    (hm : steady m) (site : Addr) (held : CallSite) : RollBackAccepted m site held :=
  fun _ _ _ _ _ hRead hFirst hSecond =>
    hAccepts.accepts (hAccepts.steady_of_read hm hRead) hFirst hSecond _

theorem value_rollBack (m : M) (site : Addr) (previous : Word) (e : Error) :
    (rollBack m site previous e).value = (.error e, (Memory.write m site previous).2) := by
  unfold rollBack
  split <;> simp_all

theorem slotWrite_writeSlots (m : M) (site : Addr) (held : CallSite) :
    SlotWrite m site held (held.writeSlots m site).value.1 (held.writeSlots m site).value.2 := by
  unfold writeSlots
  cases hSlot : secondSlot? site with
  | none =>
      refine .pastEnd fun hSlots => ?_
      rw [secondSlot?_eq_some_iff.mpr ⟨hSlots, rfl⟩] at hSlot
      cases hSlot
  | some slot =>
      obtain ⟨hSlots, rfl⟩ := secondSlot?_eq_some_iff.mp hSlot
      -- one access after the other may be the one that decides
      rcases hRead : Memory.read m site with ⟨e | previous, m₁⟩
      · exact .unread hSlots hRead
      rcases hFirst : Memory.write m₁ site held.firstWord with ⟨e | ⟨⟩, m₂⟩
      · simp only [hFirst]
        exact .refused hSlots hRead hFirst
      rcases hSecond : Memory.write m₂ (site + Instruction.size) held.secondWord with ⟨e | ⟨⟩, m₃⟩
      · simp only [hFirst, hSecond, value_rollBack]
        exact .rolledBack hSlots hRead hFirst hSecond rfl
      · simp only [hFirst, hSecond]
        exact .written hSlots hRead hFirst hSecond

theorem slotWrite_of_value {m m' : M} {site : Addr} {held : CallSite}
    {result : Except Error Unit} (h : (held.writeSlots m site).value = (result, m')) :
    SlotWrite m site held result m' := by
  have hCases := slotWrite_writeSlots m site held
  rwa [h] at hCases

/-- Nothing is accessed if the second slot has no address. -/
theorem value_writeSlots_of_pastEnd {site : Addr} (hSlots : ¬ HasSlots site) (m : M)
    (held : CallSite) : (held.writeSlots m site).value = (.error (pastEnd site), m) := by
  rcases hWrite : (held.writeSlots m site).value with ⟨result, m'⟩
  cases slotWrite_of_value hWrite with
  | pastEnd => rfl
  | _ => contradiction

/-- Both slots are written if they have addresses and no access fails. -/
theorem exists_writeSlots_of_acceptsAll {ready : M → Prop} (hAccepts : AcceptsAll ready) {m : M}
    (hm : ready m) {site : Addr} (hSlots : HasSlots site) (held : CallSite) :
    ∃ m', (held.writeSlots m site).value = (.ok (), m') ∧ ready m' := by
  obtain ⟨previous, m₁, hRead, h₁⟩ := hAccepts.read (a := site) hm
  obtain ⟨m₂, hFirst, h₂⟩ := hAccepts.write (a := site) (w := held.firstWord) h₁
  obtain ⟨m₃, hSecond, h₃⟩ :=
    hAccepts.write (a := site + Instruction.size) (w := held.secondWord) h₂
  refine ⟨m₃, ?_, h₃⟩
  unfold writeSlots
  rw [secondSlot?_eq_some_iff.mpr ⟨hSlots, rfl⟩]
  simp only [hRead, hFirst, hSecond]
  rfl

namespace SlotWrite

variable {m m' : M} {site : Addr} {held : CallSite}

/-- A write that succeeds had both slots to write. -/
theorem hasSlots (h : SlotWrite m site held (.ok ()) m') : HasSlots site := by
  cases h with
  | written hSlots => exact hSlots

theorem steady_after {steady : M → Prop} {result : Except Error Unit}
    (h : SlotWrite m site held result m') (hAccepts : AcceptsRollBack steady) (hm : steady m) :
    steady m' := by
  cases h with
  | pastEnd => exact hm
  | unread hSlots hRead => exact hAccepts.steady_of_read hm hRead
  | refused hSlots hRead hFirst =>
      exact hAccepts.steady_of_write (hAccepts.steady_of_read hm hRead) hFirst
  | rolledBack hSlots hRead hFirst hSecond hUndo =>
      have h₁ := hAccepts.steady_of_read hm hRead
      have h₂ := hAccepts.steady_of_write h₁ hFirst
      have h₃ := hAccepts.steady_of_write h₂ hSecond
      exact hAccepts.steady_of_write h₃ hUndo
  | written hSlots hRead hFirst hSecond =>
      have h₁ := hAccepts.steady_of_read hm hRead
      exact hAccepts.steady_of_write (hAccepts.steady_of_write h₁ hFirst) hSecond

end SlotWrite
end Cases

section Faithful

variable {M : Type} [Memory M] [FaithfulMemory M]

/-- Whether the two slots of a site have the words for what the site holds. -/
def Held (m : M) (site : Addr) : CallSite → Prop
  | stub op =>
      word m site = Instruction.returnWord ∧ word m (site + Instruction.size) = op.raw
  | patchedOut =>
      word m site = Instruction.returnWord ∧ word m (site + Instruction.size) = Instruction.nopWord
  | directJump target =>
      word m site = Instruction.jumpWord target ∧
        word m (site + Instruction.size) = Instruction.nopWord

theorem held_iff {m : M} {site : Addr} {held : CallSite} :
    held.Held m site ↔
      word m site = held.firstWord ∧ word m (site + Instruction.size) = held.secondWord := by
  cases held <;> rfl

/-- What a site holds depends on nothing but its two words. -/
theorem Held.congr {m m' : M} {site : Addr} {held : CallSite} (h : held.Held m site)
    (hFirst : word m' site = word m site)
    (hSecond : word m' (site + Instruction.size) = word m (site + Instruction.size)) :
    held.Held m' site := by
  rw [held_iff] at h ⊢
  rw [hFirst, hSecond]
  exact h

namespace SlotWrite

variable {m m' : M} {site : Addr} {held : CallSite}

theorem held_after (h : SlotWrite m site held (.ok ()) m') : held.Held m' site := by
  cases h with
  | written hSlots hRead hFirst hSecond =>
      refine held_iff.mpr ⟨?_, FaithfulMemory.word_write hSecond⟩
      -- the write of the second slot leaves the first alone
      rw [FaithfulMemory.word_write_of_apart hSecond hSlots.apart_second.symm]
      exact FaithfulMemory.word_write hFirst

theorem word_of_separate (h : SlotWrite m site held (.ok ()) m') {a : Addr}
    (hFirstSlot : Separate M site a) (hSecondSlot : Separate M (site + Instruction.size) a) :
    word m' a = word m a := by
  cases h with
  | written hSlots hRead hFirst hSecond =>
      rw [hSecondSlot hSecond, hFirstSlot hFirst, FaithfulMemory.word_read hRead]

theorem word_of_apart (h : SlotWrite m site held (.ok ()) m') {a : Addr}
    (hFirstSlot : Addr.Apart 4 site a) (hSecondSlot : Addr.Apart 4 (site + Instruction.size) a) :
    word m' a = word m a :=
  h.word_of_separate (separate_of_apart hFirstSlot) (separate_of_apart hSecondSlot)

/-- A write that succeeds changes no cell but those of the two slots. -/
theorem cell_eq [CellMemory M] (h : SlotWrite m site held (.ok ()) m') {c : CellMemory.Cell M}
    (hFirstSlot : ¬ CellMemory.LiesIn (M := M) site c)
    (hSecondSlot : ¬ CellMemory.LiesIn (M := M) (site + Instruction.size) c) :
    CellMemory.cell m' c = CellMemory.cell m c := by
  cases h with
  | written hSlots hRead hFirst hSecond =>
      rw [CellMemory.cell_write hSecond hSecondSlot, CellMemory.cell_write hFirst hFirstSlot]
      exact CellMemory.word_ext_iff.mp (FaithfulMemory.word_read hRead) c

/-- Without an error every tracked site apart from the written one keeps its words. -/
theorem held_of_apart (h : SlotWrite m site held (.ok ()) m') {other : Addr} {there : CallSite}
    (hThere : there.Held m other) (hOther : HasSlots other) (hApart : Addr.Apart 8 site other) :
    there.Held m' other := by
  refine hThere.congr (h.word_of_apart (apart_first hApart) ?_)
    (h.word_of_apart (apart_second hApart hOther) (apart_seconds hApart h.hasSlots hOther))
  exact (apart_second hApart.symm h.hasSlots).symm

variable {steady : M → Prop}

theorem word_of_error {e : Error} (h : SlotWrite m site held (.error e) m')
    (hAccepts : AcceptsRollBack steady) (hm : steady m) {a : Addr}
    (ha : a = site ∨ Addr.Apart 4 site a) : word m' a = word m a := by
  cases h with
  | pastEnd => rfl
  | unread hSlots hRead => rw [FaithfulMemory.word_read hRead]
  | refused hSlots hRead hFirst =>
      rw [FaithfulMemory.word_write_of_error hFirst, FaithfulMemory.word_read hRead]
  | @rolledBack previous e undone m₁ m₂ m₃ m₄ hSlots hRead hFirst hSecond hUndo =>
      have hUndone : undone = .ok () :=
        (rollBackAccepted_of_steady hAccepts hm site held).undone hRead hFirst hSecond hUndo
      subst hUndone
      rcases ha with rfl | hApart
      · -- the roll-back writes the word that was read at first
        rw [FaithfulMemory.word_write hUndo]
        exact FaithfulMemory.eq_word_of_read hRead
      · rw [FaithfulMemory.word_write_of_apart hUndo hApart,
          FaithfulMemory.word_write_of_error hSecond,
          FaithfulMemory.word_write_of_apart hFirst hApart, FaithfulMemory.word_read hRead]

/-- Nothing is left of a write that fails. -/
theorem word_eq_of_error [RestoringMemory M] {e : Error} (h : SlotWrite m site held (.error e) m')
    (hRollBack : RollBackAccepted m site held) : word m' = word m := by
  cases h with
  | pastEnd => rfl
  | unread hSlots hRead => exact FaithfulMemory.word_read hRead
  | refused hSlots hRead hFirst =>
      rw [FaithfulMemory.word_write_of_error hFirst, FaithfulMemory.word_read hRead]
  | @rolledBack previous e undone m₁ m₂ m₃ m₄ hSlots hRead hFirst hSecond hUndo =>
      have hUndone : undone = .ok () := hRollBack.undone hRead hFirst hSecond hUndo
      have hRead' : word m₁ = word m := FaithfulMemory.word_read hRead
      have hPrevious : previous = word m₁ site := by
        rw [hRead']
        exact FaithfulMemory.eq_word_of_read hRead
      rw [hUndone, hPrevious] at hUndo
      rw [← hRead']
      exact RestoringMemory.word_write_back hFirst (FaithfulMemory.word_write_of_error hSecond)
        hUndo

theorem word_eq_of_not_refused [RestoringMemory M] {e : Error}
    (h : SlotWrite m site held (.error e) m') (hNotRefused : ¬ RollBackRefused m site held) :
    word m' = word m := by
  by_cases hSlots : HasSlots site
  · exact h.word_eq_of_error (rollBackAccepted_of_not_refused hSlots hNotRefused)
  · -- without a second slot nothing is accessed, so there is nothing to roll back
    cases h with
    | pastEnd => rfl
    | _ => contradiction

/-- If the roll-back is refused, the first slot keeps the word that was written, and nothing else is
left. -/
theorem word_of_refused {e : Error} (h : SlotWrite m site held (.error e) m')
    (hRefused : RollBackRefused m site held) :
    word m' site = held.firstWord ∧ ∀ a, Separate M site a → word m' a = word m a := by
  obtain ⟨hSlots, previous, e', refusal, m₁, m₂, m₃, m₄, hRead, hFirst, hSecond, hUndo⟩ := hRefused
  have hAfter : word m' = word m₂ := by
    cases h with
    | pastEnd hNoSlots => exact absurd hSlots hNoSlots
    | unread _ hUnread =>
        rw [hRead] at hUnread
        cases hUnread
    | refused _ hRead' hNoFirst =>
        cases hRead.symm.trans hRead'
        rw [hFirst] at hNoFirst
        cases hNoFirst
    | rolledBack _ hRead' hFirst' hSecond' hUndo' =>
        cases hRead.symm.trans hRead'
        cases hFirst.symm.trans hFirst'
        cases hSecond.symm.trans hSecond'
        cases hUndo.symm.trans hUndo'
        -- neither the write of the second slot nor the roll-back has changed anything
        rw [FaithfulMemory.word_write_of_error hUndo, FaithfulMemory.word_write_of_error hSecond]
  rw [hAfter]
  refine ⟨FaithfulMemory.word_write hFirst, fun a ha => ?_⟩
  rw [ha hFirst, FaithfulMemory.word_read hRead]

/-- A write that fails leaves every tracked site as it is, the one to be written included. -/
theorem held_of_error {e : Error} (h : SlotWrite m site held (.error e) m')
    (hAccepts : AcceptsRollBack steady) (hm : steady m) {other : Addr} {there : CallSite}
    (hThere : there.Held m other) (hOther : HasSlots other)
    (hSame : other = site ∨ Addr.Apart 8 site other) : there.Held m' other := by
  rcases hSame with rfl | hApart
  · exact hThere.congr (h.word_of_error hAccepts hm (Or.inl rfl))
      (h.word_of_error hAccepts hm (Or.inr hOther.apart_second))
  · exact hThere.congr (h.word_of_error hAccepts hm (Or.inr (apart_first hApart)))
      (h.word_of_error hAccepts hm (Or.inr (apart_second hApart hOther)))

end SlotWrite
end Faithful
end CallSite
end HostCalls
