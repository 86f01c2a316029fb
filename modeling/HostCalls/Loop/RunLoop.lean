import HostCalls.Loop.Executor
import HostCalls.Routine.Table

/-!
# The run loop

The run loop walks through its entries as the generated routines would:

```text
enter -> outer -> checkState -> dispatch -> dispatchUnchecked -> block
           ^          ^            ^               ^               |
           |          |            |               |               |
           +-- reschedule          +-- dispatch    +-- chain  <----+
                      +-- syscall
```

A block may also leave through the two side entries, which end the loop. `RunLoop.step` takes one
entry, and `RunLoop.run` takes as many as its fuel allows. A run that has not ended then, or that
executes a block which never ends, has no result; otherwise the amount of fuel does not matter
(`run_mono`).
-/

namespace HostCalls

/-- Why the loop returned. -/
inductive LoopEnd
  /-- The core is not running. -/
  | stopped (state : RunState)
  /-- An arithmetic fault arose with this program counter. -/
  | fpFault (pc : Addr)
  /-- A breakpoint was hit, and this is the restored program counter. -/
  | breakpoint (pc : Addr)
deriving DecidableEq, Repr

/-- Why the loop could not go on. -/
inductive LoopError
  /-- The guest code could not be compiled. -/
  | compileFailed (cause : Error)
  /-- The block compiled for `pc` starts elsewhere. -/
  | wrongStart (pc start : Addr)
  /-- There is no block for `pc`. -/
  | missing (pc : Addr)
deriving DecidableEq, Repr

/-- The error reported when the loop cannot go on. -/
def LoopError.toError : LoopError → Error
  | compileFailed cause => cause
  | wrongStart pc start =>
      .invalidState s!"block compiled for {Hex.word pc} starts at {Hex.word start}"
  | missing pc => .invalidState s!"no block at {Hex.word pc}"

/-- The state of the loop: its routines, the blocks at hand, and counters. -/
structure RunLoop where
  routines : RoutineTable
  cache : NativeCache
  /-- Passes through the outer entry. -/
  outerPasses : Nat
  executed : Nat
  compiled : Nat
  syscalls : Nat
deriving DecidableEq

/-- Where the loop goes from an entry. -/
inductive Transition
  /-- To another entry. -/
  | goto (entry : LoopEntry)
  /-- Back to the caller. -/
  | leave (result : Except LoopError LoopEnd)

namespace RunLoop

/-- A loop with generated routines that has not run yet. -/
def ofRoutines (routines : RoutineTable) : RunLoop where
  routines := routines
  cache := .empty
  outerPasses := 0
  executed := 0
  compiled := 0
  syscalls := 0

/-- Generates the routines of a loop. -/
def generate {σ : Type} (config : Config) (registers : PinnedRegisters) (emitter : Emitter σ)
    (state : σ) : Logged (Except GenerationFault (Except Error RunLoop × σ)) := do
  match ← RoutineTable.generate config.codeSpace registers emitter state with
  | .error fault => return .error fault
  | .ok (.error e, state) => return .ok (.error e, state)
  | .ok (.ok routines, state) => return .ok (.ok (ofRoutines routines), state)

/-- Drops the blocks of changed guest code and tells how many they were. -/
def invalidate (loop : RunLoop) (start stop : Addr) : Nat × RunLoop :=
  let (dropped, cache) := loop.cache.invalidate start stop
  (dropped, { loop with cache := cache })

/-- Drops the blocks of a changed call site, which has two slots. -/
def invalidateCallSite (loop : RunLoop) (site : Addr) : Nat × RunLoop :=
  loop.invalidate site (Addr.saturatingAdd site (2 * Instruction.size))

section Run

variable {E : Type} [Executor E]

/-- Makes sure that there is a block for an address. -/
def ensureCompiled (loop : RunLoop) (pc : Addr) (e : E) :
    Except LoopError Unit × RunLoop × E :=
  match loop.cache.lookUp pc with
  | (some _, cache) => (.ok (), { loop with cache := cache }, e)
  | (none, cache) =>
      let loop := { loop with cache := cache }
      match Executor.compile pc e with
      | (.error cause, e) => (.error (.compileFailed cause), loop, e)
      | (.ok block, e) =>
          if block.start = pc then
            (.ok (), { loop with
              cache := loop.cache.insert block
              compiled := loop.compiled + 1 }, e)
          else (.error (.wrongStart pc block.start), loop, e)

/-- Executes the block at the program counter, compiling it if need be. -/
def runBlock (loop : RunLoop) (e : E) : Option (Except LoopError BlockEnd × RunLoop × E) :=
  let pc := Executor.pc e
  match loop.ensureCompiled pc e with
  | (.error cause, loop, e) => some (.error cause, loop, e)
  | (.ok (), loop, e) =>
      match loop.cache.get? pc with
      | none => some (.error (.missing pc), loop, e)
      | some block =>
          match Executor.execute block e with
          | none => none
          | some (blockEnd, e) =>
              some (.ok blockEnd, { loop with executed := loop.executed + 1 }, e)

/-- Goes on after a block handed control back. -/
def afterBlock (loop : RunLoop) (e : E) :
    BlockEnd → Logged (Transition × RunLoop × E)
  | .dispatch => return (.goto .dispatch, loop, e)
  | .chain => return (.goto .dispatchUnchecked, loop, e)
  | .reschedule => return (.goto .outer, loop, e)
  | .fpFault => return (.goto .fpFault, loop, e)
  | .breakpoint => return (.goto .breakpoint, loop, e)
  | .syscall op => do
      let (outcome, e) ← Executor.syscall op e
      unless outcome.wasCalled do
        Log.warn (s!"syscall {op.describe} at {Hex.word (Executor.pc e)} "
          ++ s!"did not run: {outcome.describe}")
      return (.goto .checkState, { loop with syscalls := loop.syscalls + 1 }, e)

/-- Takes one entry of the loop. -/
def step (loop : RunLoop) (e : E) : LoopEntry → Option (Logged (Transition × RunLoop × E))
  | .enter =>
      some (return (.goto .outer, loop, Executor.bindRegisters loop.routines.registers e))
  | .outer =>
      some (return (.goto .checkState, { loop with outerPasses := loop.outerPasses + 1 },
        Executor.syncRegisters loop.routines.registers e))
  | .checkState =>
      let (state, e) := Executor.runState e
      if state.isRunning then some (return (.goto .dispatch, loop, e))
      else some do
        Log.debug s!"dispatch loop leaving: core {state.name}"
        return (.leave (.ok (.stopped state)), loop, e)
  | .dispatch =>
      let (expired, e) := Executor.sliceExpired e
      some (return (.goto (if expired then .outer else .dispatchUnchecked), loop, e))
  | .dispatchUnchecked =>
      match loop.runBlock e with
      | none => none
      | some (.error cause, loop, e) => some (return (.leave (.error cause), loop, e))
      | some (.ok blockEnd, loop, e) => some (loop.afterBlock e blockEnd)
  | .fpFault =>
      let pc := Executor.pc e
      some (return (.leave (.ok (.fpFault pc)), loop, Executor.reportFpFault pc e))
  | .breakpoint => some do
      let e := Executor.restoreSnapshot e
      let pc := Executor.pc e
      Log.debug s!"breakpoint bailout at {Hex.word pc}"
      return (.leave (.ok (.breakpoint pc)), loop, e)

/-- Reports which entry is taken. -/
def traceEntry (loop : RunLoop) (entry : LoopEntry) : Logged Unit :=
  Log.trace s!"{entry.name} ({Hex.marked (loop.routines.offset entry)})"

/-- Takes entries from `entry` on until the loop returns, but at most `fuel` of them; `past` holds
the lines reported before, latest first. -/
def runFrom : Nat → LoopEntry → RunLoop → E → List Log.Line →
    Option (Logged (Except LoopError LoopEnd × RunLoop × E))
  | 0, _, _, _, _ => none
  | fuel + 1, entry, loop, e, past =>
      match loop.step e entry with
      | none => none
      | some taken =>
          let past := taken.log.reverseAux ((loop.traceEntry entry).log.reverseAux past)
          match taken.value with
          | (.goto next, loop, e) => runFrom fuel next loop e past
          | (.leave result, loop, e) => some ⟨(result, loop, e), past.reverse⟩

/-- Runs guest code until the core stops, a side entry is taken, or a block cannot be compiled,
if that happens within `fuel` entries. -/
def run (fuel : Nat) (loop : RunLoop) (e : E) :
    Option (Logged (Except LoopError LoopEnd × RunLoop × E)) :=
  runFrom fuel .enter loop e []

/-- More fuel does not change the result of a run that has come to its end. -/
theorem runFrom_mono {fuel more : Nat} (hle : fuel ≤ more) {entry : LoopEntry}
    {loop : RunLoop} {e : E} {past : List Log.Line}
    {ended : Logged (Except LoopError LoopEnd × RunLoop × E)}
    (h : runFrom fuel entry loop e past = some ended) :
    runFrom more entry loop e past = some ended := by
  induction fuel generalizing more entry loop e past with
  | zero => cases h
  | succ fuel ih =>
      cases more with
      | zero => omega
      | succ more =>
          have hle' : fuel ≤ more := by omega
          simp only [runFrom] at h ⊢
          cases hStep : loop.step e entry with
          | none =>
              rw [hStep] at h
              cases h
          | some taken =>
              rw [hStep] at h
              rcases hTaken : taken.value with ⟨transition, loop', e'⟩
              simp only [hTaken] at h ⊢
              cases transition with
              | goto next => exact ih hle' h
              | leave result => exact h

theorem run_mono {fuel more : Nat} (hle : fuel ≤ more) {loop : RunLoop} {e : E}
    {ended : Logged (Except LoopError LoopEnd × RunLoop × E)}
    (h : loop.run fuel e = some ended) : loop.run more e = some ended :=
  runFrom_mono hle h

end Run
end RunLoop
end HostCalls
