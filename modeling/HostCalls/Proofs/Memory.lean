import HostCalls.Machine.FaultyMemory
import HostCalls.Machine.Ram

/-!
# Memories that keep what is written

The linker works on any memory. What its writes achieve can only be said of a memory that keeps
what is written.

* `FaithfulMemory` is such a memory, seen through the word at each address. A write that succeeds
  stores its word and leaves alone every word that shares no byte with it; a write that fails
  changes nothing. Words that overlap may change together, so a memory of bytes is faithful too.
* `RestoringMemory` adds that a word which is given back takes its first write back altogether,
  and `Separate` says of two addresses that writing one leaves the word at the other alone.
* `CellMemory` is a faithful memory whose words lie in cells, such as bytes. What all words are
  follows from what all cells hold, so two memories are told to be the same cell by cell
  (`CellMemory.word_ext_iff`). It is restoring.
* `AcceptsRollBack` says of some states of a memory that an address which has just been written
  can be written again after the write of another address failed, and `AcceptsAll` that every
  access succeeds.
* `Watched` remembers the accesses to another memory.
* `FaultyMemory` and `Ram` have a word of its own at each address, so their words are cells. `Ram`
  accepts every roll-back, `FaultyMemory` does as long as no write fails by its number.
-/

namespace HostCalls

/-- Whether `n` bytes from one address on and `n` bytes from another on share no byte. -/
def Addr.Apart (n : Nat) (a b : Addr) : Prop :=
  a.toNat + n ≤ b.toNat ∨ b.toNat + n ≤ a.toNat

instance (n : Nat) (a b : Addr) : Decidable (Addr.Apart n a b) :=
  inferInstanceAs (Decidable (_ ∨ _))

/-- Whether different addresses of a list have `n` bytes of their own. -/
def Addr.AllApart (n : Nat) (addrs : List Addr) : Prop :=
  ∀ a ∈ addrs, ∀ b ∈ addrs, a ≠ b → Addr.Apart n a b

-- by the elements of the list; a search for an instance may try every address there is
instance (n : Nat) (addrs : List Addr) : Decidable (Addr.AllApart n addrs) :=
  decidable_of_iff ((addrs.all fun a => addrs.all fun b => a == b || Addr.Apart n a b) = true) <| by
    simp only [List.all_eq_true, Bool.or_eq_true, beq_iff_eq, decide_eq_true_eq,
      Decidable.or_iff_not_imp_left]
    rfl

namespace Addr

theorem Apart.symm {n : Nat} {a b : Addr} (h : Apart n a b) : Apart n b a :=
  Or.symm h

theorem Apart.ne {n : Nat} {a b : Addr} (h : Apart n a b) (hn : 0 < n) : a ≠ b := by
  rintro rfl
  unfold Apart at h
  omega

theorem AllApart.subset {n : Nat} {fewer addrs : List Addr} (h : AllApart n addrs)
    (hFewer : fewer ⊆ addrs) : AllApart n fewer :=
  fun a ha b hb => h a (hFewer ha) b (hFewer hb)

end Addr

/-- A memory that keeps what is written, with the word that it stores at each address. -/
class FaithfulMemory (M : Type) [Memory M] where
  word : M → Addr → Word
  word_read {m m' : M} {a : Addr} {result : Except Error Word}
    (h : Memory.read m a = (result, m')) : word m' = word m
  eq_word_of_read {m m' : M} {a : Addr} {w : Word}
    (h : Memory.read m a = (.ok w, m')) : w = word m a
  word_write {m m' : M} {a : Addr} {w : Word}
    (h : Memory.write m a w = (.ok (), m')) : word m' a = w
  /-- A write that succeeds leaves alone the words that share no byte with it. -/
  word_write_of_apart {m m' : M} {a b : Addr} {w : Word}
    (h : Memory.write m a w = (.ok (), m')) (hApart : Addr.Apart 4 a b) : word m' b = word m b
  word_write_of_error {m m' : M} {a : Addr} {w : Word} {e : Error}
    (h : Memory.write m a w = (.error e, m')) : word m' = word m

export FaithfulMemory (word)

/-- A faithful memory in which giving an address its word back takes a write of it back, for the
words that overlap the written one too. -/
class RestoringMemory (M : Type) [Memory M] [FaithfulMemory M] : Prop where
  word_write_back {m m₁ m₂ m₃ : M} {a : Addr} {w : Word}
    (hWrite : Memory.write m a w = (.ok (), m₁)) (hSame : word m₂ = word m₁)
    (hBack : Memory.write m₂ a (word m a) = (.ok (), m₃)) : word m₃ = word m

/-- Whether writing at `a` never changes the word at `b`. Where words have no bytes in common, so it
is for all different addresses. -/
def Separate (M : Type) [Memory M] [FaithfulMemory M] (a b : Addr) : Prop :=
  ∀ {m m' : M} {w : Word}, Memory.write m a w = (.ok (), m') → word m' b = word m b

theorem separate_of_apart {M : Type} [Memory M] [FaithfulMemory M] {a b : Addr}
    (h : Addr.Apart 4 a b) : Separate M a b :=
  fun hWrite => FaithfulMemory.word_write_of_apart hWrite h

/-- A faithful memory whose words lie in cells. A word says what its cells hold, a write that
succeeds changes no other cells, and words that share no byte share no cell. The cells may be
bytes, or the words themselves where each address has a word of its own. -/
class CellMemory (M : Type) [Memory M] [FaithfulMemory M] where
  Cell : Type
  Content : Type
  cell : M → Cell → Content
  /-- Whether the word at an address lies in a cell. -/
  LiesIn : Addr → Cell → Prop
  exists_liesIn (c : Cell) : ∃ a, LiesIn a c
  word_eq_iff {m m' : M} {a : Addr} :
    word m' a = word m a ↔ ∀ c, LiesIn a c → cell m' c = cell m c
  not_liesIn_of_apart {a b : Addr} {c : Cell} (hApart : Addr.Apart 4 a b) (ha : LiesIn a c) :
    ¬ LiesIn b c
  cell_write {m m' : M} {a : Addr} {w : Word} {c : Cell}
    (h : Memory.write m a w = (.ok (), m')) (hc : ¬ LiesIn a c) : cell m' c = cell m c

namespace CellMemory

variable {M : Type} [Memory M] [FaithfulMemory M]

/-- A memory in which a write changes no other word has its words as cells. -/
@[reducible] def ofSeparate (h : ∀ {a b : Addr}, a ≠ b → Separate M a b) : CellMemory M where
  Cell := Addr
  Content := Word
  cell := word
  LiesIn a c := a = c
  exists_liesIn c := ⟨c, rfl⟩
  word_eq_iff := ⟨fun hSame _ hc => hc ▸ hSame, fun hSame => hSame _ rfl⟩
  not_liesIn_of_apart hApart ha hb := hApart.ne (by omega) (ha.trans hb.symm)
  cell_write hWrite hc := h hc hWrite

variable [CellMemory M] {m m' : M}

theorem word_ext_iff : word m' = word m ↔ ∀ c : Cell M, cell m' c = cell m c := by
  constructor
  · intro hSame c
    obtain ⟨a, ha⟩ := exists_liesIn (M := M) c
    exact word_eq_iff.mp (congrFun hSame a) c ha
  · intro hSame
    funext a
    exact word_eq_iff.mpr fun c _ => hSame c

instance : RestoringMemory M where
  word_write_back {m m₁ m₂ m₃ a w} hWrite hSame hBack := by
    refine word_ext_iff.mpr fun c => ?_
    by_cases hc : LiesIn a c
    · -- the word that is given back says what this cell holds
      exact word_eq_iff.mp (FaithfulMemory.word_write hBack) c hc
    · rw [cell_write hBack hc, word_ext_iff.mp hSame c, cell_write hWrite hc]

end CellMemory

/-- States of a memory, closed under accesses, in which an address that has just been written can
be written again after the write of another address failed. -/
structure AcceptsRollBack {M : Type} [Memory M] (steady : M → Prop) : Prop where
  read : ∀ {m a}, steady m → steady (Memory.read m a).2
  write : ∀ {m a w}, steady m → steady (Memory.write m a w).2
  accepts : ∀ {m m₁ m₂ : M} {a b : Addr} {v w : Word} {e : Error}, steady m →
    Memory.write m a v = (.ok (), m₁) → Memory.write m₁ b w = (.error e, m₂) →
    ∀ u, (Memory.write m₂ a u).1 = .ok ()

namespace AcceptsRollBack

variable {M : Type} [Memory M] {steady : M → Prop}

theorem steady_of_read (h : AcceptsRollBack steady) {m m' : M} {a : Addr}
    {result : Except Error Word} (hm : steady m) (hRead : Memory.read m a = (result, m')) :
    steady m' := by
  have hAfter := h.read (a := a) hm
  rwa [hRead] at hAfter

theorem steady_of_write (h : AcceptsRollBack steady) {m m' : M} {a : Addr} {w : Word}
    {result : Except Error Unit} (hm : steady m) (hWrite : Memory.write m a w = (result, m')) :
    steady m' := by
  have hAfter := h.write (a := a) (w := w) hm
  rwa [hWrite] at hAfter

end AcceptsRollBack

/-- States of a memory, closed under accesses, in which every access succeeds. -/
structure AcceptsAll {M : Type} [Memory M] (ready : M → Prop) : Prop where
  read : ∀ {m a}, ready m → ∃ w m', Memory.read m a = (.ok w, m') ∧ ready m'
  write : ∀ {m a w}, ready m → ∃ m', Memory.write m a w = (.ok (), m') ∧ ready m'

/-- An access to memory. -/
inductive Access
  | read (addr : Addr)
  | write (addr : Addr) (value : Word)
deriving DecidableEq, Repr

/-- A memory together with the accesses to it, oldest first. -/
structure Watched (M : Type) where
  memory : M
  accesses : List Access
deriving DecidableEq

instance {M : Type} [Memory M] : Memory (Watched M) where
  read w addr :=
    let (result, memory) := Memory.read w.memory addr
    (result, ⟨memory, w.accesses ++ [.read addr]⟩)
  write w addr value :=
    let (result, memory) := Memory.write w.memory addr value
    (result, ⟨memory, w.accesses ++ [.write addr value]⟩)

namespace FaultyMemory

theorem word_put (m : FaultyMemory) (a b : Addr) (w : Word) :
    (m.put a w).word b = if a = b then w else m.word b := by
  unfold word put
  by_cases hEq : a = b
  · simp [hEq]
  · simp [hEq, Table.get?_insert_of_ne]

/-- Everything that a write can do: it fails and is counted, or it stores its word. -/
theorem write_cases {m m' : FaultyMemory} {a : Addr} {w : Word} {result : Except Error Unit}
    (h : Memory.write m a w = (result, m')) :
    (∃ e, writeError? m.plan (m.tried + 1) a = some e ∧ result = .error e ∧
      m' = { m with tried := m.tried + 1 }) ∨
    (writeError? m.plan (m.tried + 1) a = none ∧ result = .ok () ∧
      m'.word = (m.put a w).word ∧ m'.plan = m.plan ∧ m'.tried = m.tried + 1) := by
  cases hError : writeError? m.plan (m.tried + 1) a with
  | some e =>
      simp only [Memory.write, hError, Prod.mk.injEq] at h
      exact Or.inl ⟨e, rfl, h.1.symm, h.2.symm⟩
  | none =>
      simp only [Memory.write, hError, Prod.mk.injEq] at h
      obtain ⟨hResult, rfl⟩ := h
      exact Or.inr ⟨rfl, hResult.symm, rfl, rfl, rfl⟩

theorem word_of_write {m m' : FaultyMemory} {a : Addr} {w : Word}
    (h : Memory.write m a w = (.ok (), m')) (b : Addr) :
    m'.word b = if a = b then w else m.word b := by
  rcases write_cases h with ⟨e, -, hResult, -⟩ | ⟨-, -, hWord, -⟩
  · cases hResult
  · rw [hWord, word_put]

theorem read_cases {m m' : FaultyMemory} {a : Addr} {result : Except Error Word}
    (h : Memory.read m a = (result, m')) :
    m' = m ∧ (result = .error (unmappedError a) ∨ result = .ok (m.word a)) := by
  simp only [Memory.read] at h
  split at h
  · cases h
    exact ⟨rfl, Or.inl rfl⟩
  · cases h
    exact ⟨rfl, Or.inr rfl⟩

instance : FaithfulMemory FaultyMemory where
  word := FaultyMemory.word
  word_read h := by rw [(read_cases h).1]
  eq_word_of_read h := by
    rcases (read_cases h).2 with hError | hOk
    · cases hError
    · exact Except.ok.inj hOk
  word_write h := (word_of_write h _).trans (if_pos rfl)
  word_write_of_apart h hApart := (word_of_write h _).trans (if_neg (hApart.ne (by omega)))
  word_write_of_error h := by
    rcases write_cases h with ⟨e, -, -, rfl⟩ | ⟨-, hResult, -⟩
    · rfl
    · cases hResult

theorem separate_of_ne {a b : Addr} (h : a ≠ b) : Separate FaultyMemory a b :=
  fun hWrite => (word_of_write hWrite b).trans (if_neg h)

instance : CellMemory FaultyMemory := .ofSeparate separate_of_ne

/-- Without writes that fail by their number, whether a write fails depends on its address
alone. -/
theorem writeError?_of_noNumbers {plan : FaultPlan} (h : plan.failWrites = []) (n k : Nat)
    (a : Addr) : writeError? plan n a = writeError? plan k a := by
  simp [writeError?, h]

/-- Roll-backs succeed as long as no write fails by its number. -/
theorem acceptsRollBack : AcceptsRollBack fun m : FaultyMemory => m.plan.failWrites = [] where
  read {m a} hm := by
    cases hRead : Memory.read m a with
    | mk result m' =>
        rw [(read_cases hRead).1]
        exact hm
  write {m a w} hm := by
    cases hWrite : Memory.write m a w with
    | mk result m' =>
        rcases write_cases hWrite with ⟨e, -, -, rfl⟩ | ⟨-, -, -, hPlan, -⟩
        · exact hm
        · rw [hPlan]
          exact hm
  accepts {m m₁ m₂ a b v w e} hm hFirst hSecond u := by
    rcases write_cases hFirst with ⟨e', -, hResult, -⟩ | ⟨hNoError, -, -, hPlan, -⟩
    · cases hResult
    rcases write_cases hSecond with ⟨e', -, -, rfl⟩ | ⟨-, hResult, -⟩
    · cases hThird : Memory.write { m₁ with tried := m₁.tried + 1 } a u with
      | mk result m₃ =>
          rcases write_cases hThird with ⟨e', hError, -⟩ | ⟨-, hResult, -⟩
          · -- the plan that let the first write of `a` through would stop this one
            rw [hPlan, writeError?_of_noNumbers hm _ (m.tried + 1), hNoError] at hError
            cases hError
          · exact hResult
    · cases hResult

/-- Without faults every access succeeds. -/
theorem acceptsAll : AcceptsAll fun m : FaultyMemory => m.plan = .none where
  read {m a} hm := by
    refine ⟨m.word a, m, ?_, hm⟩
    simp [Memory.read, hm, FaultPlan.none]
  write {m a w} hm := by
    cases hWrite : Memory.write m a w with
    | mk result m' =>
        rcases write_cases hWrite with ⟨e, hError, -⟩ | ⟨-, hResult, -, hPlan, -⟩
        · simp [hm, FaultPlan.none, writeError?] at hError
        · exact ⟨m', by rw [hResult], hPlan.trans hm⟩

end FaultyMemory

namespace Ram

theorem word_put (ram : Ram) (a b : Addr) (w : Word) :
    (ram.put a w).word b = if a = b then w else ram.word b := by
  unfold word put
  by_cases hEq : a = b
  · simp [hEq]
  · simp [hEq, Table.get?_insert_of_ne]

/-- Everything that a write can do: only the alignment of the address decides. -/
theorem write_cases {ram ram' : Ram} {a : Addr} {w : Word} {result : Except Error Unit}
    (h : Memory.write ram a w = (result, ram')) :
    (isAligned a = false ∧ result ≠ .ok () ∧ ram' = ram) ∨
    (isAligned a = true ∧ result = .ok () ∧ ram' = ram.put a w) := by
  cases hAligned : isAligned a with
  | false =>
      simp only [Memory.write, write, hAligned, Bool.false_eq_true, if_false, Prod.mk.injEq] at h
      obtain ⟨rfl, rfl⟩ := h
      exact Or.inl ⟨rfl, nofun, rfl⟩
  | true =>
      simp only [Memory.write, write, hAligned, if_true, Prod.mk.injEq] at h
      exact Or.inr ⟨rfl, h.1.symm, h.2.symm⟩

theorem read_cases {ram ram' : Ram} {a : Addr} {result : Except Error Word}
    (h : Memory.read ram a = (result, ram')) :
    ram' = ram ∧ ∀ w, result = .ok w → w = ram.word a := by
  simp only [Memory.read, read, Prod.mk.injEq] at h
  obtain ⟨rfl, rfl⟩ := h
  refine ⟨rfl, fun w hOk => ?_⟩
  split at hOk
  · exact (Except.ok.inj hOk).symm
  · cases hOk

instance : FaithfulMemory Ram where
  word := Ram.word
  word_read h := by rw [(read_cases h).1]
  eq_word_of_read h := (read_cases h).2 _ rfl
  word_write h := by
    rcases write_cases h with ⟨-, hResult, -⟩ | ⟨-, -, rfl⟩
    · exact absurd rfl hResult
    · rw [word_put, if_pos rfl]
  word_write_of_apart h hApart := by
    rcases write_cases h with ⟨-, hResult, -⟩ | ⟨-, -, rfl⟩
    · exact absurd rfl hResult
    · rw [word_put, if_neg (hApart.ne (by omega))]
  word_write_of_error h := by
    rcases write_cases h with ⟨-, -, rfl⟩ | ⟨-, hResult, -⟩
    · rfl
    · cases hResult

theorem separate_of_ne {a b : Addr} (h : a ≠ b) : Separate Ram a b := by
  intro ram ram' w hWrite
  rcases write_cases hWrite with ⟨-, hResult, -⟩ | ⟨-, -, rfl⟩
  · exact absurd rfl hResult
  · exact (word_put ram a b w).trans (if_neg h)

instance : CellMemory Ram := .ofSeparate separate_of_ne

/-- Roll-backs always succeed: an address that was written once is aligned. -/
theorem acceptsRollBack : AcceptsRollBack fun _ : Ram => True where
  read _ := trivial
  write _ := trivial
  accepts {m m₁ m₂ a b v w e} _ hFirst _ u := by
    rcases write_cases hFirst with ⟨-, hResult, -⟩ | ⟨hAligned, -, -⟩
    · exact absurd rfl hResult
    · cases hThird : Memory.write m₂ a u with
      | mk result m₃ =>
          rcases write_cases hThird with ⟨hUnaligned, -, -⟩ | ⟨-, hResult, -⟩
          · rw [hAligned] at hUnaligned
            cases hUnaligned
          · exact hResult

@[simp] theorem word_eq (ram : Ram) : FaithfulMemory.word ram = ram.word := rfl

end Ram
end HostCalls
