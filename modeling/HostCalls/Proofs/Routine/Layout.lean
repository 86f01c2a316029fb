import HostCalls.Proofs.Routine.CodeSpace
import HostCalls.Routine.Table

/-!
# Where the routines lie

The routines lie in the code one behind the other, in the order of their entries, without a gap and
without a byte in front of the first or behind the last. As none of them is empty, an entry is
known by the offset of its routine.

* `PartitionsCode` says so of a table of routines.
* `partitionsCode_of_offsets` takes it from two facts: that the code is made up of the routines, and
  that each routine starts where those of the entries in front of it end.
-/

namespace HostCalls

namespace LoopEntry

theorem index_inj {entry other : LoopEntry} (h : entry.index = other.index) : entry = other :=
  Ranked.rank_inj h

/-- An entry stands behind as many others as its index tells. -/
theorem all_eq (entry : LoopEntry) :
    all = all.take entry.index ++ entry :: all.drop (entry.index + 1) := by
  obtain ⟨hLt, hEq⟩ := List.getElem?_eq_some_iff.mp (getElem?_all entry)
  have hDrop : all.drop entry.index = entry :: all.drop (entry.index + 1) := by
    rw [List.drop_eq_getElem_cons hLt, hEq]
  rw [← hDrop, List.take_append_drop]

theorem take_index_succ (entry : LoopEntry) :
    all.take (entry.index + 1) = all.take entry.index ++ [entry] := by
  rw [List.take_add_one, getElem?_all, Option.toList_some]

/-- No entry stands there twice. -/
theorem not_mem_drop (entry : LoopEntry) : entry ∉ all.drop (entry.index + 1) := by
  cases entry <;> decide

/-- A list with one element for each entry. -/
theorem exists_eq_map_all {α : Type} [Inhabited α] {xs : List α} (h : xs.length = all.length) :
    ∃ f : LoopEntry → α, xs = all.map f := by
  have hIndices : all.map index = List.range all.length := rfl
  refine ⟨fun entry => xs.getD entry.index default, ?_⟩
  calc
    xs = (List.range xs.length).map fun k => xs.getD k default := by
      refine List.ext_getElem (by simp) fun k hLeft hRight => ?_
      simp [List.getD_eq_getElem?_getD, List.getElem?_eq_getElem hLeft]
    _ = (all.map index).map fun k => xs.getD k default := by rw [h, ← hIndices]
    _ = all.map fun entry => xs.getD entry.index default := List.map_map

end LoopEntry

namespace RoutineTable

/-- Whether the code of a table is made up of the routines of the entries. -/
structure PartitionsCode (table : RoutineTable) (routine : LoopEntry → List UInt8) : Prop where
  code_eq : table.space.code = LoopEntry.all.flatMap routine
  ne_nil : ∀ entry, routine entry ≠ []
  offset_enter : table.offset .enter = 0
  /-- Each routine ends where the next one starts. -/
  offset_next : ∀ entry next, next.index = entry.index + 1 →
    table.offset next = table.offset entry + (routine entry).length
  /-- The last one ends with the code. -/
  offset_breakpoint :
    table.offset .breakpoint + (routine .breakpoint).length = table.space.code.length
  offset_lt : ∀ entry later, entry.index < later.index → table.offset entry < table.offset later
  bytesAt?_offset : ∀ entry,
    table.space.bytesAt? (table.offset entry) (routine entry).length = some (routine entry)
  entryAt?_offset : ∀ entry, table.entryAt? (table.offset entry) = some entry
  entryAt?_other : ∀ offset, (∀ entry, table.offset entry ≠ offset) → table.entryAt? offset = none

section Offsets

variable {table : RoutineTable} {routine : LoopEntry → List UInt8}

theorem entryAt?_eq_none {offset : Nat} (h : ∀ entry, table.offset entry ≠ offset) :
    table.entryAt? offset = none :=
  List.find?_eq_none.mpr fun entry _ => by simpa using h entry

/-- The entries are found by their offsets, if these are different. -/
theorem entryAt?_offset_of_inj
    (h : ∀ entry other, table.offset entry = table.offset other → entry = other)
    (entry : LoopEntry) : table.entryAt? (table.offset entry) = some entry := by
  cases hFound : table.entryAt? (table.offset entry) with
  | none => simpa using List.find?_eq_none.mp hFound entry (LoopEntry.mem_all entry)
  | some other =>
      have hOffset : table.offset other = table.offset entry := by
        simpa using List.find?_some hFound
      rw [h other entry hOffset]

theorem length_flatMap_take_lt (hNe : ∀ entry, routine entry ≠ []) {entry later : LoopEntry}
    (h : entry.index < later.index) :
    ((LoopEntry.all.take entry.index).flatMap routine).length <
      ((LoopEntry.all.take later.index).flatMap routine).length := by
  have hPrefix : LoopEntry.all.take (entry.index + 1) <+: LoopEntry.all.take later.index :=
    List.take_prefix_take_left h
  obtain ⟨between, hBetween⟩ := hPrefix
  have hPos : 0 < (routine entry).length := List.length_pos_iff.mpr (hNe entry)
  rw [← hBetween, LoopEntry.take_index_succ]
  simp only [List.flatMap_append, List.flatMap_cons, List.flatMap_nil, List.length_append,
    List.append_nil]
  omega

theorem partitionsCode_of_offsets (hNe : ∀ entry, routine entry ≠ [])
    (hCode : table.space.code = LoopEntry.all.flatMap routine)
    (hOffset : ∀ entry,
      table.offset entry = ((LoopEntry.all.take entry.index).flatMap routine).length) :
    table.PartitionsCode routine := by
  have hLt : ∀ entry later, entry.index < later.index →
      table.offset entry < table.offset later := by
    intro entry later h
    rw [hOffset, hOffset]
    exact length_flatMap_take_lt hNe h
  have hInj : ∀ entry other, table.offset entry = table.offset other → entry = other := by
    intro entry other hEq
    rcases Nat.lt_trichotomy entry.index other.index with hBefore | hSame | hBehind
    · exact absurd hEq (Nat.ne_of_lt (hLt _ _ hBefore))
    · exact LoopEntry.index_inj hSame
    · exact absurd hEq.symm (Nat.ne_of_lt (hLt _ _ hBehind))
  have hSplit : ∀ entry, table.space.code = (LoopEntry.all.take entry.index).flatMap routine ++
      (routine entry ++ (LoopEntry.all.drop (entry.index + 1)).flatMap routine) := by
    intro entry
    rw [hCode, ← List.flatMap_cons, ← List.flatMap_append, ← LoopEntry.all_eq]
  exact {
    code_eq := hCode
    ne_nil := hNe
    offset_enter := hOffset .enter
    offset_next := by
      intro entry next hNext
      rw [hOffset, hOffset, hNext, LoopEntry.take_index_succ, List.flatMap_append,
        List.length_append, List.flatMap_singleton]
    offset_breakpoint := by
      have hLast : LoopEntry.all.drop (LoopEntry.breakpoint.index + 1) = [] := rfl
      rw [hOffset, hSplit .breakpoint, hLast, List.flatMap_nil, List.append_nil,
        List.length_append]
    offset_lt := hLt
    bytesAt?_offset := by
      intro entry
      rw [hOffset]
      exact CodeSpace.bytesAt?_of_code (hSplit entry)
    entryAt?_offset := entryAt?_offset_of_inj hInj
    entryAt?_other := fun _ => entryAt?_eq_none }

end Offsets

end RoutineTable
end HostCalls
