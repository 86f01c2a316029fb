import HostCalls.Core.Call
import HostCalls.Proofs.FollowUp

/-!
# Which body a dispatch runs

A dispatch runs at most one body, and that at most once. The call counters are the evidence on the
side of the host. On the side of the guest it is any account to which each body adds its own slot.

* `value_call_of_error` and `exists_value_call_of_ok` say what a dispatch may do to a core.
* `RanNone` is a dispatch that runs no body; `ranNone_of_error` says that every dispatch is one
  whose opcode leads nowhere.
* `RanOnly` is a dispatch that runs one body once and no other; `ranOnly_of_ok` says that every
  dispatch is one whose opcode leads to a body.
-/

namespace HostCalls

namespace Stats

theorem callsTo_countCall (stats : Stats) (slot other : Slot) :
    (stats.countCall slot).callsTo other =
      if slot = other then stats.callsTo slot + 1 else stats.callsTo other := by
  unfold countCall callsTo
  by_cases hEq : slot = other
  · subst hEq
    rw [if_pos rfl, Table.get?_insert_self, Option.getD_some]
  · rw [if_neg hEq, Table.get?_insert_of_ne _ _ hEq]

@[simp] theorem callsTo_countOpcode (stats : Stats) (slot : Slot) :
    stats.countOpcode.callsTo slot = stats.callsTo slot := rfl

@[simp] theorem callsTo_countFailure (stats : Stats) (failure : CallFailure) (slot : Slot) :
    (stats.countFailure failure).callsTo slot = stats.callsTo slot := rfl

@[simp] theorem callsTo_countBreak (stats : Stats) (slot : Slot) :
    stats.countBreak.callsTo slot = stats.callsTo slot := rfl

end Stats

/-- Whether the guest keeps an account to which each body of a registry adds its own slot and
nothing else. -/
def Registry.AccountedIn {G : Type} (r : Registry G) (account : G → List Slot) : Prop :=
  ∀ (slot : Slot) (f : HostFunction G) (body : HostBody G),
    r.functionAt? slot.module.toNat slot.func.toNat = some f → f.body = some body →
      ∀ guest work, account (body guest work).value.1 = account guest ++ [slot]

namespace Core

variable {G S D : Type} [Scheduler S] [DebugHost D]

section FinishCall

variable {E : Type} [Surroundings E G] (core : Core G) (nid : Nid)

theorem finishCall_guest (env : Env G S D) :
    (core.finishCall nid env).value.2.2.guest = env.guest := by
  unfold finishCall
  split
  · rfl
  · exact core.work.finishOn_guest nid env

/-- Of a core, finishing a call changes the pending work and counts a break that was entered. -/
theorem exists_value_finishCall (env : E) :
    ∃ after work env', (core.finishCall nid env).value =
      (.called after,
        { core with
          work := work
          stats := if after = .breakEntered then core.stats.countBreak else core.stats },
        env') := by
  unfold finishCall
  split
  · exact ⟨.completed, core.work, env, rfl⟩
  · exact ⟨_, _, _, rfl⟩

theorem finishCall_wasCalled (env : E) : (core.finishCall nid env).value.1.wasCalled = true := by
  obtain ⟨after, work, env', hValue⟩ := core.exists_value_finishCall nid env
  rw [hValue]
  rfl

theorem finishCall_callsTo (env : E) (slot : Slot) :
    (core.finishCall nid env).value.2.1.stats.callsTo slot = core.stats.callsTo slot := by
  obtain ⟨after, work, env', hValue⟩ := core.exists_value_finishCall nid env
  rw [hValue]
  dsimp only
  split
  · exact Stats.callsTo_countBreak _ _
  · rfl

end FinishCall

/-- The core after a body has run on the guest, before the work that it requested. -/
def afterBody (core : Core G) (slot : Slot) (body : HostBody G) (guest : G) : Core G :=
  { core with
    work := (body guest core.work).value.2
    stats := core.stats.countOpcode.countCall slot }

section Call

variable {core : Core G} {op : Opcode}

theorem value_call_of_error {E : Type} [Surroundings E G] {env : E} {failure : CallFailure}
    (h : core.registry.resolve op = .error failure) :
    (core.call op env).value =
      (failure.outcome, { core with stats := core.stats.countOpcode.countFailure failure },
        env) := by
  unfold call
  rw [h]
  rfl

theorem value_call_of_ok {E : Type} [Surroundings E G] {env : E} {callee : Callee G}
    (h : core.registry.resolve op = .ok callee) :
    (core.call op env).value =
      ((core.afterBody op.slot callee.body (Surroundings.guest env)).finishCall callee.nid
        (Surroundings.setGuest env
          (callee.body (Surroundings.guest env) core.work).value.1)).value := by
  unfold call
  rw [h]
  rfl

/-- Of a core, a dispatch that runs a body changes the pending work and the counters. -/
theorem exists_value_call_of_ok {E : Type} [Surroundings E G] (env : E) {callee : Callee G}
    (h : core.registry.resolve op = .ok callee) :
    ∃ after work env', (core.call op env).value =
      (.called after,
        { core with
          work := work
          stats := if after = .breakEntered
            then (core.stats.countOpcode.countCall op.slot).countBreak
            else core.stats.countOpcode.countCall op.slot },
        env') := by
  rw [value_call_of_ok h]
  exact exists_value_finishCall _ _ _

variable {env : Env G S D}

/-- A dispatch that runs no body. -/
structure RanNone (core : Core G) (op : Opcode) (env : Env G S D) : Prop where
  env_eq : (core.call op env).value.2.2 = env
  calls : ∀ slot, (core.call op env).value.2.1.stats.callsTo slot = core.stats.callsTo slot

/-- A dispatch that runs the body of `f`, whose indices are those of `slot`, once and no other. -/
structure RanOnly (core : Core G) (op : Opcode) (env : Env G S D) (slot : Slot)
    (f : HostFunction G) (body : HostBody G) : Prop where
  /-- Behind the body there is only the work that it requested. -/
  result : (core.call op env).value =
    ((core.afterBody slot body env.guest).finishCall f.nid
      { env with guest := (body env.guest core.work).value.1 }).value
  wasCalled : (core.call op env).value.1.wasCalled = true
  guest : (core.call op env).value.2.2.guest = (body env.guest core.work).value.1
  counted : (core.call op env).value.2.1.stats.callsTo slot = core.stats.callsTo slot + 1
  others : ∀ other, other ≠ slot →
    (core.call op env).value.2.1.stats.callsTo other = core.stats.callsTo other
  /-- Whatever account the bodies keep, one entry is new, and it is that of `slot`. -/
  accounted : ∀ account, core.registry.AccountedIn account →
    account (core.call op env).value.2.2.guest = account env.guest ++ [slot]

theorem ranNone_of_error {failure : CallFailure} (h : core.registry.resolve op = .error failure) :
    RanNone core op env := by
  refine ⟨?_, fun slot => ?_⟩
  · rw [value_call_of_error h]
  · rw [value_call_of_error h]
    simp only [Stats.callsTo_countFailure, Stats.callsTo_countOpcode]

theorem ranOnly_of_ok {moduleName : String} {f : HostFunction G} {body : HostBody G}
    (h : core.registry.resolve op = .ok ⟨moduleName, f.name, f.nid, body⟩)
    (hFunction : core.registry.functionAt? op.moduleIndex.toNat op.funcIndex.toNat = some f)
    (hBody : f.body = some body) : RanOnly core op env op.slot f body := by
  have hResult : (core.call op env).value =
      ((core.afterBody op.slot body env.guest).finishCall f.nid
        { env with guest := (body env.guest core.work).value.1 }).value :=
    value_call_of_ok h
  have hGuest : (core.call op env).value.2.2.guest = (body env.guest core.work).value.1 := by
    rw [hResult, finishCall_guest]
  have hCalls : ∀ other, (core.call op env).value.2.1.stats.callsTo other =
      (core.stats.countOpcode.countCall op.slot).callsTo other := by
    intro other
    rw [hResult, finishCall_callsTo]
    rfl
  refine ⟨hResult, ?_, hGuest, ?_, fun other hOther => ?_, fun account hAccount => ?_⟩
  · rw [hResult, finishCall_wasCalled]
  · rw [hCalls, Stats.callsTo_countCall, if_pos rfl, Stats.callsTo_countOpcode]
  · rw [hCalls, Stats.callsTo_countCall, if_neg (Ne.symm hOther), Stats.callsTo_countOpcode]
  · rw [hGuest]
    exact hAccount op.slot f body hFunction hBody env.guest core.work

end Call

end Core
end HostCalls
