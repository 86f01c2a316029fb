import HostCalls.Table

/-!
# The entries of the run loop

The run loop has seven entries, each with a routine of its own. They are generated in the order of
`LoopEntry.all`, in which the first four fall through into the next.
-/

namespace HostCalls

/-- An entry of the run loop. -/
inductive LoopEntry
  /-- Binds host registers. -/
  | enter
  /-- Resumes after a reschedule. -/
  | outer
  /-- Stops unless the core is running. -/
  | checkState
  /-- Reached at the end of a block. -/
  | dispatch
  /-- Reached where it is certain that the loop goes on. -/
  | dispatchUnchecked
  /-- Reached from generated code on an arithmetic fault. -/
  | fpFault
  /-- Reached from generated code on a breakpoint. -/
  | breakpoint
deriving DecidableEq, Repr

namespace LoopEntry

/-- Every entry, in the order of generation. -/
def all : List LoopEntry :=
  [enter, outer, checkState, dispatch, dispatchUnchecked, fpFault, breakpoint]

/-- The position of an entry in `all`. -/
def index : LoopEntry → Nat
  | enter => 0
  | outer => 1
  | checkState => 2
  | dispatch => 3
  | dispatchUnchecked => 4
  | fpFault => 5
  | breakpoint => 6

/-- The name of an entry's routine. -/
def name : LoopEntry → String
  | enter => "enterCode"
  | outer => "outerLoop"
  | checkState => "dispatcherCheckCoreState"
  | dispatch => "dispatcher"
  | dispatchUnchecked => "dispatcherNoCheck"
  | fpFault => "fpException"
  | breakpoint => "breakpointBailout"

/-- Whether an entry's routine falls through into the next one. -/
def fallsThrough : LoopEntry → Bool
  | enter | outer | checkState | dispatch => true
  | dispatchUnchecked | fpFault | breakpoint => false

/-- Whether an entry is only reached from generated code. -/
def isSideEntry : LoopEntry → Bool
  | fpFault | breakpoint => true
  | _ => false

@[simp] theorem mem_all (entry : LoopEntry) : entry ∈ all := by
  cases entry <;> decide

theorem getElem?_all (entry : LoopEntry) : all[entry.index]? = some entry := by
  cases entry <;> rfl

instance : Ranked LoopEntry where
  rank := index
  rank_inj := by
    intro a b h
    have := (getElem?_all a).symm.trans (h ▸ getElem?_all b)
    exact Option.some.inj this

end LoopEntry
end HostCalls
