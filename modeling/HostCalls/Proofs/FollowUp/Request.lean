import HostCalls.Proofs.FollowUp
import HostCalls.Registry
import Mathlib.Data.List.DropRight

/-!
# What the requests of a body amount to

A body changes the pending work by requests only, and one of them takes back all before it. What a
list of requests leaves behind depends on those behind the last `clear`: on the kinds of work that
they ask for, as a set, and on the reason that is given last.

* `has_performAll_iff`, `reason_performAll`: what is pending after a list of requests, and for which
  reason.
* `foldl_arms_iff`: of the debug break alone, requests make an automaton of one bit.
* `schedulerSteps_performAll`: what the scheduler is asked to do for a body that found nothing
  pending but the debug break.
-/

namespace HostCalls

namespace FollowUp

/-- The form in which a reason is stored. -/
def storedForm (capacity : Nat) (reason : String) : String :=
  if capacity - 1 < reason.utf8ByteSize then Text.cut reason (capacity - 1) else reason

theorem value_storeReason (reason : String) (p : FollowUp) :
    (p.storeReason reason).value = { p with reason := storedForm p.capacity reason } := by
  unfold storeReason storedForm reasonLimit
  split <;> rfl

theorem value_reschedule (reason : Option String) (p : FollowUp) :
    (p.reschedule reason).value =
      { p.request .reschedule with
        reason := storedForm p.capacity (reason.getD missingReason) } := by
  unfold reschedule
  split <;> exact value_storeReason _ _

theorem value_rescheduleWithCallbacks (callbacks : Bool) (reason : Option String) (p : FollowUp) :
    (p.rescheduleWithCallbacks callbacks reason).value =
      if callbacks then (p.reschedule reason).value.request .rescheduleCallbacks
      else (p.reschedule reason).value := by
  unfold rescheduleWithCallbacks
  cases callbacks <;> rfl

end FollowUp

/-- What a body may ask for while it runs. -/
inductive WorkRequest
  | reschedule (reason : Option String)
  | rescheduleWithCallbacks (callbacks : Bool) (reason : Option String)
  | runInterrupts
  | checkAllCallbacks
  | checkCurrentCallbacks
  | debugBreak
  /-- Forget everything pending. -/
  | clear
deriving DecidableEq, Repr

namespace WorkRequest

/-- The pending work after a request. -/
def perform (p : FollowUp) : WorkRequest → FollowUp
  | reschedule reason => (p.reschedule reason).value
  | rescheduleWithCallbacks callbacks reason =>
      (p.rescheduleWithCallbacks callbacks reason).value
  | runInterrupts => p.request .runInterrupts
  | checkAllCallbacks => p.request .allCallbacks
  | checkCurrentCallbacks => p.request .currentCallbacks
  | debugBreak => p.request .debugBreak
  | clear => p.clear

/-- The pending work after requests. -/
def performAll (p : FollowUp) (requests : List WorkRequest) : FollowUp :=
  requests.foldl perform p

/-- The kinds of work that a request asks for. -/
def kinds : WorkRequest → List Work
  | reschedule _ => [.reschedule]
  | rescheduleWithCallbacks callbacks _ =>
      if callbacks then [.reschedule, .rescheduleCallbacks] else [.reschedule]
  | runInterrupts => [.runInterrupts]
  | checkAllCallbacks => [.allCallbacks]
  | checkCurrentCallbacks => [.currentCallbacks]
  | debugBreak => [.debugBreak]
  | clear => []

/-- The reason that a request gives, or what stands for one where it ought to be given. -/
def reason? : WorkRequest → Option String
  | reschedule reason => some (reason.getD FollowUp.missingReason)
  | rescheduleWithCallbacks _ reason => some (reason.getD FollowUp.missingReason)
  | _ => none

/-- The requests behind the last one to forget everything. -/
def sinceClear (requests : List WorkRequest) : List WorkRequest :=
  requests.rtakeWhile (· ≠ clear)

/-- Whether requests, as far as they were not taken back, ask for a kind of work. -/
def asked (requests : List WorkRequest) (work : Work) : Bool :=
  (sinceClear requests).any fun request => request.kinds.contains work

/-- The reason given last by requests that were not taken back. -/
def lastReason? (requests : List WorkRequest) : Option String :=
  ((sinceClear requests).filterMap reason?).getLast?

/-- What the scheduler is asked to do for requests. -/
def schedulerSteps (capacity : Nat) (requests : List WorkRequest) : List SchedulerStep :=
  SchedulerStep.ofWork (asked requests)
    (((lastReason? requests).map (FollowUp.storedForm capacity)).getD "")

section Lists

variable {requests : List WorkRequest} {request : WorkRequest}

theorem performAll_concat (p : FollowUp) (requests : List WorkRequest) (request : WorkRequest) :
    performAll p (requests ++ [request]) = perform (performAll p requests) request := by
  unfold performAll
  rw [List.foldl_append]
  rfl

theorem sinceClear_concat (h : request ≠ clear) :
    sinceClear (requests ++ [request]) = sinceClear requests ++ [request] :=
  List.rtakeWhile_concat_pos _ _ _ (decide_eq_true h)

theorem sinceClear_concat_clear : sinceClear (requests ++ [clear]) = [] :=
  List.rtakeWhile_concat_neg _ _ _ (by simp)

theorem asked_concat (h : request ≠ clear) (work : Work) :
    asked (requests ++ [request]) work =
      (asked requests work || request.kinds.contains work) := by
  unfold asked
  rw [sinceClear_concat h, List.any_append, List.any_cons, List.any_nil, Bool.or_false]

theorem asked_concat_clear (work : Work) : asked (requests ++ [clear]) work = false := by
  unfold asked
  rw [sinceClear_concat_clear]
  rfl

theorem lastReason?_concat (h : request ≠ clear) :
    lastReason? (requests ++ [request]) = request.reason?.or (lastReason? requests) := by
  unfold lastReason?
  rw [sinceClear_concat h, List.filterMap_append, List.getLast?_append]
  cases hReason : request.reason? <;> simp [hReason]

theorem lastReason?_concat_clear : lastReason? (requests ++ [clear]) = none := by
  unfold lastReason?
  rw [sinceClear_concat_clear]
  rfl

/-- A reason is only given together with a request to reschedule. -/
theorem asked_reschedule_of_lastReason? {text : String} (h : lastReason? requests = some text) :
    asked requests .reschedule = true := by
  unfold lastReason? at h
  obtain ⟨request, hMem, hReason⟩ := List.mem_filterMap.mp (List.mem_of_getLast? h)
  refine List.any_eq_true.mpr ⟨request, hMem, ?_⟩
  cases request with
  | rescheduleWithCallbacks callbacks reason => cases callbacks <;> rfl
  | reschedule reason => rfl
  | _ => cases hReason

end Lists

section Perform

variable {p : FollowUp} {request : WorkRequest}

theorem has_perform_iff (h : request ≠ clear) (work : Work) :
    (perform p request).pending.has work = true ↔
      p.pending.has work = true ∨ work ∈ request.kinds := by
  have hAdd : ∀ (q : FollowUp) (kind : Work), (q.request kind).pending.has work = true ↔
      q.pending.has work = true ∨ work = kind := by
    intro q kind
    show (q.pending.add kind).has work = true ↔ _
    rw [Pending.has_add, Bool.or_eq_true, beq_iff_eq, eq_comm (a := kind)]
  cases request with
  | clear => exact absurd rfl h
  | reschedule reason =>
      rw [perform, FollowUp.value_reschedule, kinds, List.mem_singleton]
      exact hAdd p _
  | rescheduleWithCallbacks callbacks reason =>
      rw [perform, FollowUp.value_rescheduleWithCallbacks, FollowUp.value_reschedule]
      cases callbacks with
      | false => exact (hAdd p _).trans (by simp [kinds])
      | true =>
          have hBoth : p.pending.has work = true ∨ work ∈ [Work.reschedule, .rescheduleCallbacks] ↔
              (p.pending.has work = true ∨ work = .reschedule) ∨ work = .rescheduleCallbacks := by
            simp [or_assoc]
          exact (hAdd _ _).trans ((or_congr_left (hAdd p .reschedule)).trans hBoth.symm)
  | _ =>
      rw [perform, kinds, List.mem_singleton]
      exact hAdd p _

theorem reason_perform (h : request ≠ clear) :
    (perform p request).reason =
      (request.reason?.map (FollowUp.storedForm p.capacity)).getD p.reason := by
  cases request with
  | clear => exact absurd rfl h
  | rescheduleWithCallbacks callbacks reason =>
      rw [perform, FollowUp.value_rescheduleWithCallbacks]
      cases callbacks <;> simp only [FollowUp.value_reschedule] <;> rfl
  | reschedule reason =>
      rw [perform, FollowUp.value_reschedule]
      rfl
  | _ => rfl

theorem settings_perform (p : FollowUp) (request : WorkRequest) :
    (perform p request).capacity = p.capacity ∧ (perform p request).blacklist = p.blacklist := by
  cases request with
  | rescheduleWithCallbacks callbacks reason =>
      rw [perform, FollowUp.value_rescheduleWithCallbacks, FollowUp.value_reschedule]
      cases callbacks <;> exact ⟨rfl, rfl⟩
  | reschedule reason =>
      rw [perform, FollowUp.value_reschedule]
      exact ⟨rfl, rfl⟩
  | _ => exact ⟨rfl, rfl⟩

end Perform

section PerformAll

variable (p : FollowUp) (requests : List WorkRequest)

theorem settings_performAll :
    (performAll p requests).capacity = p.capacity ∧
      (performAll p requests).blacklist = p.blacklist := by
  induction requests using List.reverseRecOn with
  | nil => exact ⟨rfl, rfl⟩
  | append_singleton requests request ih =>
      rw [performAll_concat]
      obtain ⟨hCapacity, hBlacklist⟩ := settings_perform (performAll p requests) request
      exact ⟨hCapacity.trans ih.1, hBlacklist.trans ih.2⟩

/-- Work is pending after requests if they ask for it, or if it was pending before them and they do
not forget it. -/
theorem has_performAll_iff (work : Work) :
    (performAll p requests).pending.has work = true ↔
      asked requests work = true ∨ p.pending.has work = true ∧ clear ∉ requests := by
  induction requests using List.reverseRecOn with
  | nil => simp [performAll, asked, sinceClear]
  | append_singleton requests request ih =>
      rw [performAll_concat]
      by_cases hClear : request = clear
      · subst hClear
        rw [asked_concat_clear]
        simp [perform, FollowUp.clear]
      · rw [has_perform_iff hClear, asked_concat hClear, Bool.or_eq_true, ih,
          List.contains_iff_mem, List.mem_append, List.mem_singleton]
        simp only [Ne.symm hClear, or_false]
        exact or_right_comm

/-- The reason after requests is the one given last. -/
theorem reason_performAll (hReason : p.reason = "") :
    (performAll p requests).reason =
      ((lastReason? requests).map (FollowUp.storedForm p.capacity)).getD "" := by
  induction requests using List.reverseRecOn with
  | nil => exact hReason
  | append_singleton requests request ih =>
      rw [performAll_concat]
      by_cases hClear : request = clear
      · subst hClear
        rw [lastReason?_concat_clear]
        rfl
      · rw [reason_perform hClear, lastReason?_concat hClear, ih, (settings_performAll p _).1]
        cases request.reason? <;> rfl

/-- A body that finds no reason leaves none without a request to reschedule. -/
theorem tidy_performAll (hReason : p.reason = "") : (performAll p requests).Tidy := by
  intro hEmpty
  have hPending : (performAll p requests).pending = .none := Pending.isEmpty_iff.mp hEmpty
  rw [reason_performAll p requests hReason]
  cases hLast : lastReason? requests with
  | none => rfl
  | some text =>
      have hAsked := (has_performAll_iff p requests .reschedule).mpr
        (Or.inl (asked_reschedule_of_lastReason? hLast))
      rw [hPending, Pending.has_none] at hAsked
      cases hAsked

end PerformAll

section DebugBreak

/-- Whether the debug break is pending after a request, if one knows whether it was before. -/
def arms (armed : Bool) : WorkRequest → Bool
  | debugBreak => true
  | clear => false
  | _ => armed

/-- A debug break is pending after requests if they ask for it, or if it was pending before and they
do not forget it. -/
theorem foldl_arms_iff (armed : Bool) (requests : List WorkRequest) :
    requests.foldl arms armed = true ↔
      asked requests .debugBreak = true ∨ armed = true ∧ clear ∉ requests := by
  induction requests using List.reverseRecOn with
  | nil => simp [asked, sinceClear]
  | append_singleton requests request ih =>
      rw [List.foldl_append, List.foldl_cons, List.foldl_nil]
      cases request with
      | clear => simp [arms, asked_concat_clear]
      | debugBreak => simp [arms, asked_concat, kinds]
      | rescheduleWithCallbacks callbacks reason =>
          cases callbacks <;> simp [arms, asked_concat, kinds, ih]
      | _ => simp [arms, asked_concat, kinds, ih]

end DebugBreak

end WorkRequest

namespace FollowUp

/-- What is pending between two calls: nothing, or the debug break that was held back. -/
def standing (config : Config) (armed : Bool) : FollowUp :=
  { ofConfig config with pending := if armed then .onlyDebugBreak else .none }

/-- The settings are those of the configuration, and nothing but them stays behind. -/
theorem eq_standing {config : Config} {p : FollowUp} {armed : Bool}
    (hSettings : p.capacity = config.reasonCapacity ∧ p.blacklist = config.breakBlacklist)
    (hPending : p.pending = if armed then .onlyDebugBreak else .none) (hReason : p.reason = "") :
    p = standing config armed := by
  obtain ⟨hCapacity, hBlacklist⟩ := hSettings
  cases p
  cases hCapacity
  cases hBlacklist
  cases hPending
  cases hReason
  rfl

theorem has_standing (config : Config) (armed : Bool) (work : Work) :
    (standing config armed).pending.has work = (armed && work == .debugBreak) := by
  unfold standing
  cases armed <;> cases work <;> rfl

end FollowUp

namespace WorkRequest

variable (config : Config) (armed : Bool) (requests : List WorkRequest)

/-- Of the work pending before a body, only the debug break counts after it. -/
theorem has_performAll_standing {work : Work} (hWork : work ≠ .debugBreak) :
    (performAll (.standing config armed) requests).pending.has work = asked requests work := by
  rw [Bool.eq_iff_iff, has_performAll_iff, FollowUp.has_standing]
  simp [hWork]

theorem has_debugBreak_performAll_standing :
    (performAll (.standing config armed) requests).pending.has .debugBreak =
      requests.foldl arms armed := by
  rw [Bool.eq_iff_iff, has_performAll_iff, foldl_arms_iff, FollowUp.has_standing]
  simp

/-- The scheduler is asked for what the body requested and did not take back. -/
theorem schedulerSteps_performAll :
    (performAll (.standing config armed) requests).schedulerSteps =
      schedulerSteps config.reasonCapacity requests := by
  unfold FollowUp.schedulerSteps schedulerSteps
  rw [reason_performAll _ requests rfl]
  exact SchedulerStep.ofWork_congr _ fun work hWork =>
    has_performAll_standing config armed requests hWork

end WorkRequest
end HostCalls
