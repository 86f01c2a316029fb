import HostCalls.Proofs.Routine.Emission
import HostCalls.Proofs.Routine.Layout

/-!
# The generation of the routines

What an emitter leaves for an entry is known once its emission has been run, and may depend on all
the emissions before. So the runs are described first, one after the other, and the table is made
from them.

* `Emits` are the emissions of some entries that all went well, and `Stops` is one that did not.
  `emits_or_stops` says that nothing else can happen.
* `exists_emitAll_of_emits` and `emitAll_of_stops` follow the generation along these emissions. The
  first tells where the routines are noted to start, the second that nothing is asked of the emitter
  behind the entry at which it stops.
* `generate_of_emits` and `generate_of_stops` do so for the allocation and the protection around it,
  and `generate_of_lt` says what happens if there is no allocation.
* `generate_partitions_code` says what the generation can come to, for every emitter and size.
-/

namespace HostCalls

namespace RoutineTable

variable {σ : Type}

section Emits

variable (emitter : Emitter σ) (registers : PinnedRegisters)

/-- The emissions for some entries, one after the other, each on the space and in the state that the
one before it left. All of them end well, and each leaves a routine that is not empty. -/
inductive Emits : List LoopEntry → CodeSpace → σ → List Routine → CodeSpace → σ → Prop
  | nil {space : CodeSpace} {state : σ} : Emits [] space state [] space state
  | cons {entry : LoopEntry} {rest : List LoopEntry} {space grown last : CodeSpace}
      {state state' state'' : σ} {routines : List Routine}
      (hRun : ((emitter entry registers state).run space).value = .ok (.ok (), state', grown))
      (hBytes : ((emitter entry registers state).routine space).bytes ≠ [])
      (hRest : Emits rest grown state' routines last state'') :
      Emits (entry :: rest) space state
        ((emitter entry registers state).routine space :: routines) last state''

end Emits

/-- How an emission for an entry ends the generation, if `asked` was asked of the space before. -/
inductive Stops (asked : List SpaceRequest) (entry : LoopEntry) (emission : Emission σ)
    (space : CodeSpace) : Except ProtectionFault (Error × σ) → Prop
  | failed {e : Error} {state : σ} {grown : CodeSpace}
      (hRun : (emission.run space).value = .ok (.error e, state, grown)) :
      Stops asked entry emission space (.ok (e, state))
  | empty {state : σ} {grown : CodeSpace}
      (hRun : (emission.run space).value = .ok (.ok (), state, grown))
      (hBytes : (emission.routine space).bytes = []) :
      Stops asked entry emission space
        (.ok (.invalidState s!"emitter generated no code for {entry.name}", state))
  /-- The last request is a write, and the space was to be protected before. -/
  | faulted (earlier : List SpaceRequest) {bytes : List UInt8}
      (hRun : (emission.run space).value = .error ⟨bytes.length⟩)
      (hRequests : asked ++ emission.requests space = earlier ++ [.write bytes])
      (hProtected : .protect ∈ earlier) :
      Stops asked entry emission space (.error ⟨bytes.length⟩)

section Run

variable {emission : Emission σ} {space grown : CodeSpace} {state : σ}

/-- An emission that ends leaves the space with its routine at the end. -/
theorem eq_run_of_run {result : Except Error Unit}
    (h : (emission.run space).value = .ok (result, state, grown)) :
    grown = space.run (emission.requests space) := by
  have hRuns := emission.runsTo_run space
  rw [h] at hRuns
  cases hRuns with
  | ended => rfl

theorem code_eq_of_run {result : Except Error Unit}
    (h : (emission.run space).value = .ok (result, state, grown)) :
    grown.code = space.code ++ (emission.routine space).bytes := by
  rw [eq_run_of_run h, CodeSpace.code_run]
  rfl

theorem size_eq_iff_of_run {result : Except Error Unit}
    (h : (emission.run space).value = .ok (result, state, grown)) :
    grown.size = space.size ↔ (emission.routine space).bytes = [] := by
  unfold CodeSpace.size
  rw [code_eq_of_run h, List.length_append, Nat.add_eq_left, List.length_eq_zero_iff]

/-- An emission goes on or stops. -/
theorem goes_on_or_stops (emission : Emission σ) (space : CodeSpace) (entry : LoopEntry)
    {asked : List SpaceRequest} (hAsked : space.isProtected = true → .protect ∈ asked) :
    (∃ state grown, (emission.run space).value = .ok (.ok (), state, grown) ∧
        (emission.routine space).bytes ≠ []) ∨
      ∃ stop, Stops asked entry emission space stop := by
  have hRuns := emission.runsTo_run space
  generalize hRun : (emission.run space).value = result at hRuns
  cases hRuns with
  | ended result state =>
      cases result with
      | error e => exact Or.inr ⟨_, .failed hRun⟩
      | ok =>
          by_cases hBytes : (emission.routine space).bytes = []
          · exact Or.inr ⟨_, .empty hRun hBytes⟩
          · exact Or.inl ⟨_, _, rfl, hBytes⟩
  | faulted earlier hRequests hProtected =>
      refine Or.inr ⟨_, .faulted (asked ++ earlier) hRun ?_ ?_⟩
      · rw [hRequests, List.append_assoc]
      · rw [List.mem_append]
        exact ((CodeSpace.isProtected_run space earlier).mp hProtected).imp_left hAsked

end Run

variable {emitter : Emitter σ} {registers : PinnedRegisters} {entries : List LoopEntry}
  {space last : CodeSpace} {state state' : σ} {routines : List Routine}

theorem Emits.space_eq (h : Emits emitter registers entries space state routines last state') :
    last = space.run (routines.flatMap (·.requests)) := by
  induction h with
  | nil => rfl
  | cons hRun hBytes hRest ih =>
      rw [ih, List.flatMap_cons, CodeSpace.run_append, eq_run_of_run hRun]
      rfl

theorem Emits.code_eq (h : Emits emitter registers entries space state routines last state') :
    last.code = space.code ++ routines.flatMap (·.bytes) := by
  induction h with
  | nil => exact (List.append_nil _).symm
  | cons hRun hBytes hRest ih =>
      rw [ih, code_eq_of_run hRun, List.append_assoc, List.flatMap_cons]

theorem Emits.bytes_ne_nil
    (h : Emits emitter registers entries space state routines last state') :
    ∀ routine ∈ routines, routine.bytes ≠ [] := by
  induction h with
  | nil => nofun
  | cons hRun hBytes hRest ih => exact List.forall_mem_cons.mpr ⟨hBytes, ih⟩

theorem Emits.length_eq (h : Emits emitter registers entries space state routines last state') :
    routines.length = entries.length := by
  induction h with
  | nil => rfl
  | cons hRun hBytes hRest ih => exact congrArg (· + 1) ih

/-- Either the emissions for all entries end well, or one stops behind those that do. All that was
asked of the space before is kept, so that a fault can be traced back to a request to protect it. -/
theorem emits_or_stops (emitter : Emitter σ) (registers : PinnedRegisters)
    (entries : List LoopEntry) (space : CodeSpace) (state : σ) (asked : List SpaceRequest)
    (hAsked : space.isProtected = true → .protect ∈ asked) :
    (∃ routines last state', Emits emitter registers entries space state routines last state') ∨
      ∃ emitted entry rest routines last state' stop, entries = emitted ++ entry :: rest ∧
        Emits emitter registers emitted space state routines last state' ∧
        Stops (asked ++ routines.flatMap (·.requests)) entry (emitter entry registers state') last
          stop := by
  induction entries generalizing space state asked with
  | nil => exact Or.inl ⟨[], space, state, .nil⟩
  | cons entry rest ih =>
      rcases goes_on_or_stops (emitter entry registers state) space entry hAsked with
        ⟨state', grown, hRun, hBytes⟩ | ⟨stop, hStop⟩
      · have hNext : grown.isProtected = true →
            .protect ∈ asked ++ (emitter entry registers state).requests space := by
          rw [eq_run_of_run hRun, CodeSpace.isProtected_run, List.mem_append]
          exact Or.imp_left hAsked
        rcases ih grown state' _ hNext with ⟨routines, last, state'', hRest⟩ |
          ⟨emitted, entry', rest', routines, last, state'', stop, hEntries, hRest, hStop⟩
        · exact Or.inl ⟨_, last, state'', .cons hRun hBytes hRest⟩
        · refine Or.inr ⟨entry :: emitted, entry', rest', _, last, state'', stop, ?_,
            .cons hRun hBytes hRest, ?_⟩
          · rw [hEntries, List.cons_append]
          · rwa [List.flatMap_cons, ← List.append_assoc]
      · refine Or.inr ⟨[], entry, rest, [], space, state, stop, rfl, .nil, ?_⟩
        rwa [List.flatMap_nil, List.append_nil]

section EmitAll

variable {entry : LoopEntry} {rest : List LoopEntry} {grown : CodeSpace}
  {offsets : Table LoopEntry Nat}

/-- What is done after an emission that stops the generation. -/
def stopped {α : Type} (stop : Except ProtectionFault (Error × σ)) :
    Except ProtectionFault (Except Error α × σ) :=
  stop.map fun ended => (.error ended.1, ended.2)

theorem emitAll_cons_of_ok
    (hRun : ((emitter entry registers state).run space).value = .ok (.ok (), state', grown))
    (hBytes : ((emitter entry registers state).routine space).bytes ≠ []) :
    emitAll emitter registers (entry :: rest) space offsets state =
      (do
        let _ ← (emitter entry registers state).run space
        Log.trace (s!"{entry.name} at {Hex.marked space.size}, "
          ++ s!"{grown.size - space.size} bytes")
        emitAll emitter registers rest grown (offsets.insert entry space.size) state') := by
  rw [emitAll]
  refine Logged.bind_congr_value ?_
  rw [hRun]
  simp only [mt (size_eq_iff_of_run hRun).mp hBytes, if_false]

theorem emitAll_cons_of_stops {asked : List SpaceRequest}
    {stop : Except ProtectionFault (Error × σ)}
    (hStop : Stops asked entry (emitter entry registers state) space stop) :
    emitAll emitter registers (entry :: rest) space offsets state =
      (do
        let _ ← (emitter entry registers state).run space
        return stopped stop) := by
  rw [emitAll]
  refine Logged.bind_congr_value ?_
  cases hStop with
  | failed hRun =>
      rw [hRun]
      rfl
  | empty hRun hBytes =>
      rw [hRun]
      simp only [(size_eq_iff_of_run hRun).mpr hBytes, if_true]
      rfl
  | faulted _ hRun =>
      rw [hRun]
      rfl

/-- Where the routines of some entries start, the first of them at `start`. -/
structure Placed (entries : List LoopEntry) (start : Nat) (routines : List Routine)
    (offsets offsets' : Table LoopEntry Nat) : Prop where
  other : ∀ entry, entry ∉ entries → offsets'.get? entry = offsets.get? entry
  /-- For an entry that occurs twice, the last routine counts. -/
  placed : ∀ k entry, entries[k]? = some entry → entry ∉ entries.drop (k + 1) →
    offsets'.get? entry = some (start + ((routines.take k).flatMap (·.bytes)).length)

theorem exists_emitAll_of_emits
    (h : Emits emitter registers entries space state routines last state')
    (offsets : Table LoopEntry Nat) :
    ∃ offsets', (emitAll emitter registers entries space offsets state).value =
        .ok (.ok (last, offsets'), state') ∧
      Placed entries space.size routines offsets offsets' := by
  induction h generalizing offsets with
  | @nil space state =>
      exact ⟨offsets, rfl, ⟨fun _ _ => rfl, fun k entry hEntry => by simp at hEntry⟩⟩
  | @cons entry rest space grown last state state' state'' routines hRun hBytes hRest ih =>
      obtain ⟨offsets', hValue, hPlaced⟩ := ih (offsets.insert entry space.size)
      refine ⟨offsets', ?_, ?_, ?_⟩
      · rw [emitAll_cons_of_ok hRun hBytes]
        exact hValue
      · intro other hOther
        rw [List.mem_cons, not_or] at hOther
        rw [hPlaced.other other hOther.2]
        exact Table.get?_insert_of_ne _ _ (Ne.symm hOther.1)
      · intro k other hEntry hLater
        -- the offset that is noted for the first routine is not noted again for a later one
        cases k with
        | zero =>
            obtain rfl : entry = other := Option.some.inj hEntry
            exact (hPlaced.other entry hLater).trans (Table.get?_insert_self _ _ _)
        | succ k =>
            have hGrown : grown.size =
                space.size + ((emitter entry registers state).routine space).bytes.length := by
              unfold CodeSpace.size
              rw [code_eq_of_run hRun, List.length_append]
            rw [hPlaced.placed k other hEntry hLater, hGrown, List.take_succ_cons,
              List.flatMap_cons, List.length_append, Nat.add_assoc]

/-- An emission that stops the generation is the last one. The emitter is not asked for the entries
behind it, so any other emitter with the same answers up to there leads to the same. -/
theorem emitAll_of_stops {emitted : List LoopEntry} {asked : List SpaceRequest}
    {stop : Except ProtectionFault (Error × σ)} {other : Emitter σ}
    (h : Emits emitter registers emitted space state routines last state')
    (hStop : Stops asked entry (emitter entry registers state') last stop)
    (hOther : ∀ asked ∈ emitted ++ [entry], other asked = emitter asked)
    (rest : List LoopEntry) (offsets : Table LoopEntry Nat) :
    (emitAll emitter registers (emitted ++ entry :: rest) space offsets state).value =
        stopped stop ∧
      emitAll other registers (emitted ++ entry :: rest) space offsets state =
        emitAll emitter registers (emitted ++ entry :: rest) space offsets state := by
  induction h generalizing offsets with
  | @nil space state =>
      have hSame : other entry = emitter entry := hOther entry (List.mem_singleton.mpr rfl)
      have hStop' : Stops asked entry (other entry registers state) space stop := hSame ▸ hStop
      rw [List.nil_append, emitAll_cons_of_stops hStop, emitAll_cons_of_stops hStop', hSame]
      exact ⟨rfl, rfl⟩
  | @cons first rest' space grown last state state' state'' routines hRun hBytes hRest ih =>
      have hSame : other first = emitter first := hOther first List.mem_cons_self
      obtain ⟨hValue, hEq⟩ := ih hStop
        (fun asked hAsked => hOther asked (List.mem_cons_of_mem _ hAsked))
        (offsets.insert first space.size)
      rw [List.cons_append, emitAll_cons_of_ok hRun hBytes,
        emitAll_cons_of_ok (hSame ▸ hRun) (hSame ▸ hBytes), hSame, hEq]
      exact ⟨hValue, rfl⟩

end EmitAll

section Generate

variable {size : Nat} {offsets : Table LoopEntry Nat}

/-- The emissions for all entries leave a table of their routines. -/
theorem partitionsCode_of_emits {routine : LoopEntry → Routine} {table : RoutineTable}
    (h : Emits emitter registers LoopEntry.all (.fresh size) state (LoopEntry.all.map routine) last
      state')
    (hCode : table.space.code = last.code)
    (hPlaced : Placed LoopEntry.all 0 (LoopEntry.all.map routine) .empty table.offsets) :
    table.PartitionsCode fun entry => (routine entry).bytes := by
  refine partitionsCode_of_offsets (fun entry => ?_) ?_ fun entry => ?_
  · exact h.bytes_ne_nil _ (List.mem_map_of_mem (LoopEntry.mem_all entry))
  · rw [hCode, h.code_eq, List.flatMap_map]
    rfl
  · have hStart := hPlaced.placed entry.index entry (LoopEntry.getElem?_all entry)
      entry.not_mem_drop
    rw [offset, hStart, Option.getD_some, Nat.zero_add, ← List.map_take, List.flatMap_map]

theorem generate_congr {other : Emitter σ} (hSize : size ≠ 0) (hSmall : size ≤ 0x7FFFFFFFFFFFFFFF)
    (h : emitAll other registers LoopEntry.all (.fresh size) .empty state =
      emitAll emitter registers LoopEntry.all (.fresh size) .empty state) :
    generate size registers other state = generate size registers emitter state := by
  unfold generate
  refine Logged.bind_congr_value ?_
  rw [CodeSpace.value_alloc_of_le hSize hSmall]
  simp only [h]

/-- Where the space is not set aside the emitter does not matter. -/
theorem generate_of_lt (hLarge : 0x7FFFFFFFFFFFFFFF < size) :
    (generate size registers emitter state).value = .error (.capacity .overflow) ∧
      ∀ other : Emitter σ,
        generate size registers other state = generate size registers emitter state := by
  have hAlloc := CodeSpace.value_alloc_of_lt hLarge
  unfold generate
  refine ⟨?_, fun other => Logged.bind_congr_value ?_⟩
  · rw [Logged.value_bind, hAlloc]
    rfl
  · rw [hAlloc]

theorem value_generate_of_stopped {stop : Except ProtectionFault (Error × σ)} (hSize : size ≠ 0)
    (hSmall : size ≤ 0x7FFFFFFFFFFFFFFF)
    (h : (emitAll emitter registers LoopEntry.all (.fresh size) .empty state).value =
      stopped stop) :
    (generate size registers emitter state).value = (stopped stop).mapError .protection := by
  unfold generate
  rw [Logged.value_bind, CodeSpace.value_alloc_of_le hSize hSmall]
  simp only [Logged.value_bind, h]
  cases stop <;> rfl

theorem value_generate_of_emitted (hSize : size ≠ 0) (hSmall : size ≤ 0x7FFFFFFFFFFFFFFF)
    (h : (emitAll emitter registers LoopEntry.all (.fresh size) .empty state).value =
      .ok (.ok (last, offsets), state')) :
    (generate size registers emitter state).value =
      .ok (.ok ⟨{ last with isProtected := true }, offsets, registers⟩, state') := by
  unfold generate
  rw [Logged.value_bind, CodeSpace.value_alloc_of_le hSize hSmall]
  simp only [Logged.value_bind, h]
  rfl

/-- Where an emission stops, so does the generation, for every emitter that emits the same up to
there. -/
theorem generate_of_stops {emitted rest : List LoopEntry} {entry : LoopEntry}
    {asked : List SpaceRequest} {stop : Except ProtectionFault (Error × σ)} (hSize : size ≠ 0)
    (hSmall : size ≤ 0x7FFFFFFFFFFFFFFF) (hEntries : LoopEntry.all = emitted ++ entry :: rest)
    (hEmits : Emits emitter registers emitted (.fresh size) state routines last state')
    (hStop : Stops asked entry (emitter entry registers state') last stop) :
    (generate size registers emitter state).value = (stopped stop).mapError .protection ∧
      ∀ other : Emitter σ, (∀ asked ∈ emitted ++ [entry], other asked = emitter asked) →
        generate size registers other state = generate size registers emitter state := by
  have hEmitAll (other : Emitter σ)
      (hOther : ∀ asked ∈ emitted ++ [entry], other asked = emitter asked) :=
    emitAll_of_stops hEmits hStop hOther rest .empty
  rw [← hEntries] at hEmitAll
  refine ⟨value_generate_of_stopped hSize hSmall (hEmitAll emitter fun _ _ => rfl).1, ?_⟩
  exact fun other hOther => generate_congr hSize hSmall (hEmitAll other hOther).2

/-- A table of routines that was generated in `size` bytes. -/
structure Generated (emitter : Emitter σ) (registers : PinnedRegisters) (size : Nat) (state : σ)
    (routine : LoopEntry → Routine) (table : RoutineTable) (state' : σ) : Prop where
  emits : ∃ last, Emits emitter registers LoopEntry.all (.fresh size) state
    (LoopEntry.all.map routine) last state'
  partitions : table.PartitionsCode fun entry => (routine entry).bytes
  length_le : table.space.code.length ≤ size
  isProtected : table.space.isProtected = true
  registers_eq : table.registers = registers

theorem Emits.capacity_eq
    (h : Emits emitter registers entries (.fresh size) state routines last state') :
    last.capacity = size := by
  rw [h.space_eq, CodeSpace.capacity_run]
  rfl

theorem generate_of_emits (hSize : size ≠ 0) (hSmall : size ≤ 0x7FFFFFFFFFFFFFFF)
    (h : Emits emitter registers LoopEntry.all (.fresh size) state routines last state') :
    ∃ routine table, routines = LoopEntry.all.map routine ∧
      (generate size registers emitter state).value = .ok (.ok table, state') ∧
      Generated emitter registers size state routine table state' := by
  obtain ⟨routine, rfl⟩ := LoopEntry.exists_eq_map_all h.length_eq
  obtain ⟨offsets, hValue, hPlaced⟩ := exists_emitAll_of_emits h .empty
  refine ⟨routine, _, rfl, value_generate_of_emitted hSize hSmall hValue, ⟨last, h⟩,
    partitionsCode_of_emits h rfl hPlaced, ?_, rfl, rfl⟩
  exact h.capacity_eq ▸ last.length_le

/-- What the generation of the routines in `size` bytes can come to. -/
inductive Generates (emitter : Emitter σ) (registers : PinnedRegisters) (size : Nat) (state : σ) :
    Except GenerationFault (Except Error RoutineTable × σ) → Prop
  /-- The emitter is not asked for anything. -/
  | noSpace (hSize : size = 0)
      (hUnasked : ∀ other : Emitter σ,
        generate size registers other state = generate size registers emitter state) :
      Generates emitter registers size state
        (.ok (.error (.configError "code space size must be non-zero"), state))
  /-- The space is too large to be set aside. Again the emitter is not asked for anything. -/
  | tooLarge {fault : CapacityFault} (hLarge : 0x7FFFFFFFFFFFFFFF < size)
      (hMessage : fault.message = "capacity overflow")
      (hUnasked : ∀ other : Emitter σ,
        generate size registers other state = generate size registers emitter state) :
      Generates emitter registers size state (.error (.capacity fault))
  /-- An emission stops the generation. The emitter is not asked for the entries behind: the
  generation is the same for every emitter that emits the same up to there. -/
  | stopped {emitted rest : List LoopEntry} {entry : LoopEntry} {routines : List Routine}
      {last : CodeSpace} {state' : σ} {stop : Except ProtectionFault (Error × σ)}
      (hSize : size ≠ 0) (hSmall : size ≤ 0x7FFFFFFFFFFFFFFF)
      (hEntries : LoopEntry.all = emitted ++ entry :: rest)
      (hEmits : Emits emitter registers emitted (.fresh size) state routines last state')
      (hStop : Stops (routines.flatMap (·.requests)) entry (emitter entry registers state') last
        stop)
      (hUnasked : ∀ other : Emitter σ, (∀ asked ∈ emitted ++ [entry], other asked = emitter asked) →
        generate size registers other state = generate size registers emitter state) :
      Generates emitter registers size state ((RoutineTable.stopped stop).mapError .protection)
  | completed {routine : LoopEntry → Routine} {table : RoutineTable} {state' : σ}
      (hSize : size ≠ 0) (hSmall : size ≤ 0x7FFFFFFFFFFFFFFF)
      (hTable : Generated emitter registers size state routine table state') :
      Generates emitter registers size state (.ok (.ok table, state'))

/-- Whatever the emitter does to the space by writing and protecting: if the space is set aside at
all, it is asked for one entry after the other, until an emission fails, leaves nothing, or faults.
If none does, the routines make up the code in the order of their entries. -/
theorem generate_partitions_code (size : Nat) (registers : PinnedRegisters) (emitter : Emitter σ)
    (state : σ) :
    Generates emitter registers size state (generate size registers emitter state).value := by
  by_cases hSize : size = 0
  · subst hSize
    exact .noSpace rfl fun _ => rfl
  by_cases hLarge : 0x7FFFFFFFFFFFFFFF < size
  · obtain ⟨hValue, hUnasked⟩ := generate_of_lt hLarge
    rw [hValue]
    exact .tooLarge hLarge rfl hUnasked
  have hSmall : size ≤ 0x7FFFFFFFFFFFFFFF := Nat.le_of_not_lt hLarge
  rcases emits_or_stops emitter registers LoopEntry.all (.fresh size) state [] nofun with
    ⟨routines, last, state', hEmits⟩ |
    ⟨emitted, entry, rest, routines, last, state', stop, hEntries, hEmits, hStop⟩
  · obtain ⟨routine, table, -, hValue, hTable⟩ := generate_of_emits hSize hSmall hEmits
    rw [hValue]
    exact .completed hSize hSmall hTable
  · obtain ⟨hValue, hUnasked⟩ := generate_of_stops hSize hSmall hEntries hEmits hStop
    rw [hValue]
    exact .stopped hSize hSmall hEntries hEmits hStop hUnasked

/-- The largest sizes there are fault for an emitter that protects nothing. -/
theorem huge_space_faults_without_protection :
    let emitter : Emitter Unit := fun _ _ state => .write [0] fun _ => .done (.ok ()) state
    0x8000000000000000 < UInt64.size ∧
      (generate 0x8000000000000000 .standard emitter ()).value = .error (.capacity .overflow) ∧
      ∀ entry space, .protect ∉ (emitter entry .standard ()).requests space := by
  intro emitter
  refine ⟨by decide, (generate_of_lt (by decide)).1, fun entry space => ?_⟩
  -- one request, whatever the answer to it
  cases hWrite : space.write [0] <;> simp [emitter, Emission.requests, hWrite]

/-- Whoever takes a refused write for a success has emitted nothing. -/
example :
    let careless : Emitter Unit := fun _ _ state => .write [1, 2] fun _ => .done (.ok ()) state
    (generate 3 .standard careless ()).value =
      .ok (.error (.invalidState "emitter generated no code for outerLoop"), ()) := rfl

end Generate

end RoutineTable
end HostCalls
