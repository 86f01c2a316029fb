import HostCalls.Proofs.Routine.Generation
import HostCalls.Routine.Descriptor

/-!
# Descriptors in the code

A core that interprets guest code has one descriptor for each entry of the run loop where others
have routines. All descriptors have the same size, so they are generated in every space in which all
of them fit, and in no other.

* `decode_encode`: a descriptor is read back from what was written, whatever it says.
* `emission_cases` is the emission of one descriptor. `sized_of_emits` and `full_of_stops` are what
  it means for the emissions that went well, and for the one that stops them.
* `found_of_emits` and `outOfMemory_of_stops` do so for the whole generation.
* `descriptors_read_back` says of every size what comes of it, and what is read at every entry.
-/

namespace HostCalls
namespace Descriptor

open RoutineTable

/-- The flags are found again in their number. -/
theorem flags_of_flagBits (d : Descriptor) :
    d.flagBits.toUInt8 < 4 ∧ (d.flagBits.toUInt8.toNat % 2 == 1) = d.fallsThrough ∧
      (d.flagBits.toUInt8.toNat / 2 == 1) = d.isSideEntry := by
  unfold flagBits
  cases d.fallsThrough <;> cases d.isSideEntry <;> decide

theorem decode_encode (d : Descriptor) : decode d.encode = some d := by
  obtain ⟨hLt, hFallsThrough, hIsSideEntry⟩ := d.flags_of_flagBits
  have hIndex : d.entry.index.toUInt8.toNat = d.entry.index := by
    cases d.entry <;> rfl
  rw [encode, decode, if_pos ⟨rfl, rfl, hLt⟩, hIndex, LoopEntry.getElem?_all, hFallsThrough,
    hIsSideEntry]
  rfl

section Emitted

variable {registers : PinnedRegisters} {space last : CodeSpace} {state state' : Unit}

/-- A descriptor is written if there is room for it, and refused if there is not. -/
theorem emission_cases (entry : LoopEntry) (registers : PinnedRegisters) (state : Unit)
    (hOpen : space.isProtected = false) :
    (∃ grown : CodeSpace, ((emitter entry registers state).run space).value =
          .ok (.ok (), state, grown) ∧
        grown.code = space.code ++ (ofEntry entry registers).encode ∧
        grown.isProtected = false) ∨
      (space.capacity < space.size + size ∧
        ((emitter entry registers state).run space).value =
          .ok (.error .outOfMemory, state, space)) := by
  unfold emitter Emission.run CodeSpace.write
  rw [hOpen]
  by_cases hFits : space.code.length + (ofEntry entry registers).encode.length ≤ space.capacity
  · simp only [Bool.false_eq_true, if_false, dif_pos hFits]
    exact Or.inl ⟨_, rfl, rfl, rfl⟩
  · simp only [Bool.false_eq_true, if_false, dif_neg hFits]
    exact Or.inr ⟨Nat.lt_of_not_le hFits, rfl⟩

/-- The emissions that went well have left the descriptors of their entries, and nothing else. -/
theorem sized_of_emits {entries : List LoopEntry} {routines : List Routine}
    (h : Emits emitter registers entries space state routines last state')
    (hOpen : space.isProtected = false) :
    last.isProtected = false ∧ last.size = space.size + size * entries.length ∧
      routines.map (·.bytes) = entries.map fun entry => (ofEntry entry registers).encode := by
  induction h with
  | nil => exact ⟨hOpen, rfl, rfl⟩
  | @cons entry rest space grown last state state' state'' routines hRun hBytes hRest ih =>
      rcases emission_cases entry registers state hOpen with
        ⟨grown', hRun', hCode, hStill⟩ | ⟨-, hRun'⟩
      · obtain rfl : grown = grown' := by simpa [hRun] using hRun'
        obtain ⟨hLast, hSize, hMap⟩ := ih hStill
        have hGrown : grown.size = space.size + size := by
          unfold CodeSpace.size
          rw [hCode, List.length_append]
          rfl
        have hRoutine : ((emitter entry registers state).routine space).bytes =
            (ofEntry entry registers).encode :=
          List.append_cancel_left ((code_eq_of_run hRun).symm.trans hCode)
        refine ⟨hLast, ?_, ?_⟩
        · rw [hSize, hGrown, List.length_cons, Nat.mul_succ]
          omega
        · rw [List.map_cons, List.map_cons, hRoutine, hMap]
      · simp [hRun] at hRun'

/-- Only the want of room stops the emission of descriptors. -/
theorem full_of_stops {asked : List SpaceRequest} {entry : LoopEntry}
    {stop : Except ProtectionFault (Error × Unit)}
    (h : Stops asked entry (emitter entry registers state) space stop)
    (hOpen : space.isProtected = false) :
    space.capacity < space.size + size ∧ stop = .ok (.outOfMemory, state) := by
  rcases emission_cases entry registers state hOpen with ⟨grown, hRun, hCode, -⟩ | ⟨hFull, hRun⟩
  · exfalso
    cases h with
    | failed hRun' => simp [hRun] at hRun'
    | empty hRun' hBytes =>
        rw [code_eq_of_run hRun, hBytes] at hCode
        exact List.cons_ne_nil _ _ (List.append_cancel_left hCode).symm
    | faulted _ hRun' => simp [hRun] at hRun'
  · refine ⟨hFull, ?_⟩
    cases h with
    | failed hRun' =>
        obtain ⟨rfl, -⟩ : Error.outOfMemory = _ ∧ _ := by simpa [hRun] using hRun'
        rfl
    | empty hRun' => simp [hRun] at hRun'
    | faulted _ hRun' => simp [hRun] at hRun'

variable {capacity : Nat} {routines : List Routine}

/-- Where all descriptors are written there was room for them, and each is found at its entry. -/
theorem found_of_emits (hCapacity : capacity ≠ 0) (hSmall : capacity ≤ 0x7FFFFFFFFFFFFFFF)
    (h : Emits emitter registers LoopEntry.all (.fresh capacity) state routines last state') :
    7 * size ≤ capacity ∧
      ∃ table, (generate capacity registers emitter state).value = .ok (.ok table, state') ∧
        ∀ entry, table.space.bytesAt? (table.offset entry) size =
          some (ofEntry entry registers).encode := by
  obtain ⟨-, hSize, hBytes⟩ := sized_of_emits h rfl
  have hRoom : last.size ≤ last.capacity := last.length_le
  rw [hSize, h.capacity_eq] at hRoom
  obtain ⟨routine, table, rfl, hValue, hTable⟩ := generate_of_emits hCapacity hSmall h
  refine ⟨hRoom, table, hValue, fun entry => ?_⟩
  have hEntry : (routine entry).bytes = (ofEntry entry registers).encode := by
    rw [List.map_map, List.map_inj_left] at hBytes
    exact hBytes entry (LoopEntry.mem_all entry)
  have hFound := hTable.partitions.bytesAt?_offset entry
  rwa [hEntry] at hFound

/-- Where one is not written there was no room for all of them. -/
theorem outOfMemory_of_stops {emitted rest : List LoopEntry} {entry : LoopEntry}
    {asked : List SpaceRequest} {stop : Except ProtectionFault (Error × Unit)}
    (hCapacity : capacity ≠ 0) (hSmall : capacity ≤ 0x7FFFFFFFFFFFFFFF)
    (hEntries : LoopEntry.all = emitted ++ entry :: rest)
    (hEmits : Emits emitter registers emitted (.fresh capacity) state routines last state')
    (hStop : Stops asked entry (emitter entry registers state') last stop) :
    capacity < 7 * size ∧
      (generate capacity registers emitter state).value = .ok (.error .outOfMemory, state') := by
  obtain ⟨hOpen, hSize, -⟩ := sized_of_emits hEmits rfl
  obtain ⟨hFull, rfl⟩ := full_of_stops hStop hOpen
  refine ⟨?_, (generate_of_stops hCapacity hSmall hEntries hEmits hStop).1⟩
  -- one of the seven is still to be written, so there are at most six
  have hLength : 7 = emitted.length + (rest.length + 1) := by
    rw [← List.length_cons (a := entry), ← List.length_append, ← hEntries]
    rfl
  have hFresh : (CodeSpace.fresh capacity).size = 0 := rfl
  rw [hEmits.capacity_eq, hSize, hFresh] at hFull
  unfold size at hFull ⊢
  omega

end Emitted

/-- What comes of the generation of descriptors in a space of any size, and what is read where an
entry starts. Only the first four entries fall through, and only the last two are side entries. -/
theorem descriptors_read_back (capacity : Nat) (registers : PinnedRegisters) :
    let result := (generate capacity registers emitter ()).value
    (capacity = 0 → result = .ok (.error (.configError "code space size must be non-zero"), ())) ∧
      (0 < capacity → capacity < 56 → result = .ok (.error .outOfMemory, ())) ∧
      (56 ≤ capacity → capacity ≤ 0x7FFFFFFFFFFFFFFF → ∃ table, result = .ok (.ok table, ()) ∧
        ∀ entry, ∃ record, table.space.bytesAt? (table.offset entry) 8 = some record ∧
          decode record = some ⟨entry,
            decide (entry = .enter ∨ entry = .outer ∨ entry = .checkState ∨ entry = .dispatch),
            decide (entry = .fpFault ∨ entry = .breakpoint), registers⟩) ∧
      (0x7FFFFFFFFFFFFFFF < capacity → ∃ fault : CapacityFault,
        result = .error (.capacity fault) ∧ fault.message = "capacity overflow") := by
  intro result
  by_cases hZero : capacity = 0
  · subst hZero
    exact ⟨fun _ => rfl, nofun, nofun, nofun⟩
  by_cases hLarge : 0x7FFFFFFFFFFFFFFF < capacity
  · refine ⟨fun h => absurd h hZero, fun _ hLt => ?_, fun _ hSmall => ?_, fun _ => ?_⟩
    · exact absurd hLt (by omega)
    · exact absurd hLarge (Nat.not_lt.mpr hSmall)
    · exact ⟨.overflow, (generate_of_lt hLarge).1, rfl⟩
  have hSmall : capacity ≤ 0x7FFFFFFFFFFFFFFF := Nat.le_of_not_lt hLarge
  rcases emits_or_stops emitter registers LoopEntry.all (.fresh capacity) () [] nofun with
    ⟨routines, last, state, hEmits⟩ |
    ⟨emitted, entry, rest, routines, last, state, stop, hEntries, hEmits, hStop⟩
  · obtain ⟨hRoom, table, hValue, hFound⟩ := found_of_emits hZero hSmall hEmits
    refine ⟨fun h => absurd h hZero, fun _ hLt => absurd hRoom (Nat.not_le.mpr hLt), fun _ _ => ?_,
      fun h => absurd h hLarge⟩
    refine ⟨table, hValue, fun entry => ⟨_, hFound entry, (decode_encode _).trans ?_⟩⟩
    cases entry <;> rfl
  · obtain ⟨hShort, hValue⟩ := outOfMemory_of_stops hZero hSmall hEntries hEmits hStop
    exact ⟨fun h => absurd h hZero, fun _ _ => hValue,
      fun h _ => absurd h (Nat.not_le.mpr hShort), fun h => absurd h hLarge⟩

/-- The sizes on both sides of each limit. -/
theorem descriptor_space_limits :
    (generate 0 .standard emitter ()).value =
        .ok (.error (.configError "code space size must be non-zero"), ()) ∧
      (generate 1 .standard emitter ()).value = .ok (.error .outOfMemory, ()) ∧
      (generate 55 .standard emitter ()).value = .ok (.error .outOfMemory, ()) ∧
      (∃ table, (generate 56 .standard emitter ()).value = .ok (.ok table, ()) ∧
        ∃ record, table.space.bytesAt? (table.offset .breakpoint) 8 = some record ∧
          decode record = some ⟨.breakpoint, false, true, ⟨5, 15, 14⟩⟩) ∧
      (∃ table, (generate 0x7FFFFFFFFFFFFFFF .standard emitter ()).value = .ok (.ok table, ()) ∧
        ∃ record, table.space.bytesAt? (table.offset .enter) 8 = some record ∧
          decode record = some ⟨.enter, true, false, ⟨5, 15, 14⟩⟩) ∧
      ∃ fault : CapacityFault,
        (generate 0x8000000000000000 .standard emitter ()).value = .error (.capacity fault) ∧
          fault.message = "capacity overflow" := by
  obtain ⟨small, hSmall, hSmallRecords⟩ :=
    (descriptors_read_back 56 .standard).2.2.1 (Nat.le_refl 56) (by decide)
  obtain ⟨large, hLarge, hLargeRecords⟩ :=
    (descriptors_read_back 0x7FFFFFFFFFFFFFFF .standard).2.2.1 (by decide) (by decide)
  exact ⟨(descriptors_read_back 0 .standard).1 rfl,
    (descriptors_read_back 1 .standard).2.1 (by decide) (by decide),
    (descriptors_read_back 55 .standard).2.1 (by decide) (by decide),
    ⟨small, hSmall, hSmallRecords .breakpoint⟩, ⟨large, hLarge, hLargeRecords .enter⟩,
    (descriptors_read_back 0x8000000000000000 .standard).2.2.2 (by decide)⟩

/-- There are sizes with room for all descriptors in which none of them is written. -/
theorem no_descriptors_in_huge_space :
    ¬ ∀ capacity, 56 ≤ capacity → capacity < UInt64.size →
      ∃ table, (generate capacity .standard emitter ()).value = .ok (.ok table, ()) := by
  intro h
  obtain ⟨table, hValue⟩ := h 0x8000000000000000 (by decide) (by decide)
  rw [(generate_of_lt (by decide)).1] at hValue
  cases hValue

end Descriptor
end HostCalls
