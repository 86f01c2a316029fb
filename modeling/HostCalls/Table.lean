/-!
# Finite tables in key order

Call sites, memory words, counters and native blocks are all kept in finite tables. A `Table`
lists its entries by ascending key, each key at most once, and carries the proof of that, so two
tables with the same look-ups are equal (`Table.ext_get?`).

* `Ranked` gives keys their order: an injective rank among the natural numbers.
* `get?_empty`, `get?_insert`, `get?_filter` say what each operation does to look-up, and
  `size_filter_add` that filtering splits the entries in two.
* `size_insert_of_none`: an entry under a new key takes the place of no other.
-/

namespace HostCalls

/-- Keys that are ordered by a number which identifies them. -/
class Ranked (κ : Type) where
  rank : κ → Nat
  rank_inj : ∀ {a b : κ}, rank a = rank b → a = b

export Ranked (rank)

instance : Ranked UInt32 where
  rank := UInt32.toNat
  rank_inj := UInt32.toNat_inj.mp

/-- A finite table, its entries by ascending key. -/
structure Table (κ : Type) [Ranked κ] (α : Type) where
  entries : List (κ × α)
  ascending : entries.Pairwise fun a b => rank a.1 < rank b.1

namespace Table

variable {κ α : Type} [Ranked κ]

/-- Looks a key up in a list of entries. -/
def lookup (k : κ) : List (κ × α) → Option α
  | [] => none
  | (key, value) :: rest => if rank key = rank k then some value else lookup k rest

/-- Puts an entry at its place in an ascending list, in place of one with the same key. -/
def place (k : κ) (v : α) : List (κ × α) → List (κ × α)
  | [] => [(k, v)]
  | (key, value) :: rest =>
      if rank k < rank key then (k, v) :: (key, value) :: rest
      else if rank k = rank key then (k, v) :: rest
      else (key, value) :: place k v rest

theorem mem_place {k : κ} {v : α} {entry : κ × α} {entries : List (κ × α)}
    (h : entry ∈ place k v entries) : entry = (k, v) ∨ entry ∈ entries := by
  induction entries with
  | nil => simpa [place] using h
  | cons head rest ih =>
      obtain ⟨key, value⟩ := head
      simp only [place] at h
      split at h
      · simpa using h
      · split at h
        · simp only [List.mem_cons] at h ⊢
          exact h.imp_right Or.inr
        · simp only [List.mem_cons] at h ⊢
          rcases h with h | h
          · exact Or.inr (Or.inl h)
          · exact (ih h).imp_right Or.inr

theorem pairwise_place (k : κ) (v : α) {entries : List (κ × α)}
    (h : entries.Pairwise fun a b => rank a.1 < rank b.1) :
    (place k v entries).Pairwise fun a b => rank a.1 < rank b.1 := by
  induction entries with
  | nil => simp [place]
  | cons head rest ih =>
      obtain ⟨key, value⟩ := head
      rw [List.pairwise_cons] at h
      obtain ⟨hHead, hRest⟩ := h
      simp only [place]
      split
      · rename_i hLt
        refine List.pairwise_cons.mpr ⟨?_, List.pairwise_cons.mpr ⟨hHead, hRest⟩⟩
        intro entry hEntry
        rcases List.mem_cons.mp hEntry with rfl | hEntry
        · exact hLt
        · exact Nat.lt_trans hLt (hHead entry hEntry)
      · split
        · rename_i hEq
          refine List.pairwise_cons.mpr ⟨?_, hRest⟩
          intro entry hEntry
          have := hHead entry hEntry
          simp only at this ⊢
          omega
        · rename_i hLt hEq
          refine List.pairwise_cons.mpr ⟨?_, ih hRest⟩
          intro entry hEntry
          rcases mem_place hEntry with rfl | hEntry
          · simp only
            omega
          · exact hHead entry hEntry

/-- The table without entries. -/
def empty : Table κ α where
  entries := []
  ascending := List.Pairwise.nil

/-- The value stored under a key. -/
def get? (t : Table κ α) (k : κ) : Option α :=
  lookup k t.entries

/-- Whether a key has an entry. -/
def contains (t : Table κ α) (k : κ) : Bool :=
  (t.get? k).isSome

/-- Stores a value under a key, in place of the one stored before. -/
def insert (t : Table κ α) (k : κ) (v : α) : Table κ α where
  entries := place k v t.entries
  ascending := pairwise_place k v t.ascending

/-- The entries that satisfy a test. -/
def filter (p : κ → α → Bool) (t : Table κ α) : Table κ α where
  entries := t.entries.filter fun entry => p entry.1 entry.2
  ascending := t.ascending.filter _

/-- The number of entries. -/
def size (t : Table κ α) : Nat :=
  t.entries.length

theorem lookup_eq_none {k : κ} {entries : List (κ × α)}
    (h : ∀ entry ∈ entries, rank entry.1 ≠ rank k) : lookup k entries = none := by
  induction entries with
  | nil => rfl
  | cons head rest ih =>
      obtain ⟨key, value⟩ := head
      have hHead : rank key ≠ rank k := h _ List.mem_cons_self
      rw [lookup, if_neg hHead]
      exact ih fun entry hEntry => h entry (List.mem_cons_of_mem _ hEntry)

theorem lookup_place (k key : κ) (v : α) (entries : List (κ × α)) :
    lookup key (place k v entries) =
      if rank k = rank key then some v else lookup key entries := by
  induction entries with
  | nil => rfl
  | cons head rest ih =>
      obtain ⟨other, value⟩ := head
      simp only [place]
      split
      · rw [lookup]
      · split
        · rename_i hEq
          simp only [lookup]
          split
          · rfl
          · rename_i hNe
            rw [if_neg (fun h => hNe (hEq.trans h))]
        · rename_i hNe
          simp only [lookup, ih]
          split
          · rename_i hKey
            rw [if_neg (fun h => hNe (h.trans hKey.symm))]
          · rfl

@[simp] theorem get?_empty (k : κ) : (empty : Table κ α).get? k = none := rfl

theorem get?_insert (t : Table κ α) (k key : κ) (v : α) :
    (t.insert k v).get? key = if rank k = rank key then some v else t.get? key :=
  lookup_place k key v t.entries

@[simp] theorem get?_insert_self (t : Table κ α) (k : κ) (v : α) :
    (t.insert k v).get? k = some v := by
  rw [get?_insert, if_pos rfl]

theorem get?_insert_of_ne (t : Table κ α) {k key : κ} (v : α) (h : k ≠ key) :
    (t.insert k v).get? key = t.get? key := by
  rw [get?_insert, if_neg (fun hRank => h (Ranked.rank_inj hRank))]

/-- What is found after an insertion is the new entry or was there before. -/
theorem get?_insert_cases {t : Table κ α} {k key : κ} {v there : α}
    (h : (t.insert k v).get? key = some there) :
    (key = k ∧ there = v) ∨ (key ≠ k ∧ t.get? key = some there) := by
  by_cases hEq : key = k
  · subst hEq
    rw [get?_insert_self] at h
    exact Or.inl ⟨rfl, (Option.some.inj h).symm⟩
  · rw [get?_insert_of_ne _ _ (Ne.symm hEq)] at h
    exact Or.inr ⟨hEq, h⟩

theorem mem_of_lookup {k : κ} {v : α} {entries : List (κ × α)}
    (h : lookup k entries = some v) : (k, v) ∈ entries := by
  induction entries with
  | nil => simp [lookup] at h
  | cons head rest ih =>
      obtain ⟨key, value⟩ := head
      rw [lookup] at h
      split at h
      · rename_i hRank
        cases h
        rw [Ranked.rank_inj hRank]
        exact List.mem_cons_self
      · exact List.mem_cons_of_mem _ (ih h)

theorem lookup_of_mem {k : κ} {v : α} {entries : List (κ × α)}
    (hSorted : entries.Pairwise fun a b => rank a.1 < rank b.1) (h : (k, v) ∈ entries) :
    lookup k entries = some v := by
  induction entries with
  | nil => simp at h
  | cons head rest ih =>
      obtain ⟨key, value⟩ := head
      rw [List.pairwise_cons] at hSorted
      rcases List.mem_cons.mp h with h | h
      · cases h
        rw [lookup, if_pos rfl]
      · have hLt := hSorted.1 _ h
        have hNe : rank key ≠ rank k := Nat.ne_of_lt hLt
        rw [lookup, if_neg hNe]
        exact ih hSorted.2 h

/-- Look-up finds exactly the listed entries. -/
theorem get?_eq_some_iff {t : Table κ α} {k : κ} {v : α} :
    t.get? k = some v ↔ (k, v) ∈ t.entries :=
  ⟨mem_of_lookup, lookup_of_mem t.ascending⟩

theorem get?_filter (p : κ → α → Bool) (t : Table κ α) (k : κ) :
    (t.filter p).get? k = (t.get? k).filter (p k) := by
  apply Option.ext
  intro v
  rw [get?_eq_some_iff, Option.filter_eq_some_iff, get?_eq_some_iff]
  exact List.mem_filter

/-- The entries that pass a test and those that fail it are all entries. -/
theorem size_filter_add (p : κ → α → Bool) (t : Table κ α) :
    (t.filter p).size + (t.filter fun k v => !p k v).size = t.size := by
  obtain ⟨entries, ascending⟩ := t
  simp only [filter, size]
  clear ascending
  induction entries with
  | nil => rfl
  | cons head rest ih =>
      simp only [List.filter_cons]
      split <;> simp_all <;> omega

theorem length_place {k : κ} (v : α) {entries : List (κ × α)} (h : lookup k entries = none) :
    (place k v entries).length = entries.length + 1 := by
  induction entries with
  | nil => rfl
  | cons head rest ih =>
      obtain ⟨key, value⟩ := head
      rw [lookup] at h
      split at h
      · cases h
      · rename_i hNe
        rw [place, if_neg (Ne.symm hNe)]
        split
        · rfl
        · simp only [List.length_cons, ih h]

/-- An entry under a new key makes the table longer by one. -/
theorem size_insert_of_none {t : Table κ α} {k : κ} (v : α) (h : t.get? k = none) :
    (t.insert k v).size = t.size + 1 :=
  length_place v h

theorem eq_of_entries {t u : Table κ α} (h : t.entries = u.entries) : t = u := by
  cases t
  cases u
  cases h
  rfl

theorem eq_of_lookup_eq {xs ys : List (κ × α)}
    (hXs : xs.Pairwise fun a b => rank a.1 < rank b.1)
    (hYs : ys.Pairwise fun a b => rank a.1 < rank b.1)
    (h : ∀ k, lookup k xs = lookup k ys) : xs = ys := by
  induction xs generalizing ys with
  | nil =>
      cases ys with
      | nil => rfl
      | cons head rest =>
          have := h head.1
          simp [lookup] at this
  | cons x xs ih =>
      obtain ⟨xKey, xValue⟩ := x
      rw [List.pairwise_cons] at hXs
      cases ys with
      | nil =>
          have := h xKey
          simp [lookup] at this
      | cons y ys =>
          obtain ⟨yKey, yValue⟩ := y
          rw [List.pairwise_cons] at hYs
          have hxIn : (xKey, xValue) ∈ (yKey, yValue) :: ys := by
            refine mem_of_lookup ?_
            rw [← h xKey, lookup, if_pos rfl]
          have hyIn : (yKey, yValue) ∈ (xKey, xValue) :: xs := by
            refine mem_of_lookup ?_
            rw [h yKey, lookup, if_pos rfl]
          have hHead : (xKey, xValue) = (yKey, yValue) := by
            rcases List.mem_cons.mp hxIn with hx | hx
            · exact hx
            · rcases List.mem_cons.mp hyIn with hy | hy
              · exact hy.symm
              · have h1 := hXs.1 _ hy
                have h2 := hYs.1 _ hx
                simp only at h1 h2
                omega
          cases hHead
          congr 1
          refine ih hXs.2 hYs.2 fun k => ?_
          by_cases hk : rank xKey = rank k
          · rw [lookup_eq_none (k := k), lookup_eq_none (k := k)]
            · intro entry hEntry
              have hLt := hYs.1 _ hEntry
              simp only at hLt
              omega
            · intro entry hEntry
              have hLt := hXs.1 _ hEntry
              simp only at hLt
              omega
          · have hTail := h k
            simpa only [lookup, if_neg hk] using hTail

/-- Tables with the same look-ups are equal. -/
theorem ext_get? {t u : Table κ α} (h : ∀ k, t.get? k = u.get? k) : t = u :=
  eq_of_entries (eq_of_lookup_eq t.ascending u.ascending h)

end Table

instance {κ α : Type} [Ranked κ] [DecidableEq κ] [DecidableEq α] : DecidableEq (Table κ α) :=
  fun t u =>
    if h : t.entries = u.entries then isTrue (Table.eq_of_entries h)
    else isFalse fun hEq => h (hEq ▸ rfl)

end HostCalls
