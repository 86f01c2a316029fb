import HostCalls.Proofs.FollowUp.Request
import HostCalls.Proofs.Text.Cut

/-!
# The reason of a reschedule

A request to reschedule stores its reason as far as there is room for it. A reason that has to be
cut is reported, and one that is missing is reported and replaced before it is stored.

* `storedForm_eq`: what is stored is the cut reason, whether or not there is anything to cut off.
* `log_reschedule`: what is reported of a request.
* `reschedule_stores_longest_reason`: of every reason the longest beginning that fits is stored, for
  every capacity.
-/

namespace HostCalls
namespace FollowUp

theorem storedForm_eq (capacity : Nat) (reason : String) :
    storedForm capacity reason = Text.cut reason (capacity - 1) := by
  unfold storedForm
  split
  · rfl
  · rename_i hFits
    exact (Text.cut_of_le (Nat.le_of_not_lt hFits)).symm

/-- The lines that report a reason which is too large for a capacity. -/
def cutLines (capacity : Nat) (reason : String) : List Log.Line :=
  if capacity - 1 < reason.utf8ByteSize then
    [⟨.warn,
      s!"reschedule reason of {reason.utf8ByteSize} bytes truncated to {capacity - 1}"⟩]
  else []

/-- The lines that report a missing reason. -/
def missingLines (reason : Option String) : List Log.Line :=
  if reason = none then [⟨.error, "reschedule: expecting a valid reason"⟩] else []

theorem log_storeReason (reason : String) (p : FollowUp) :
    (p.storeReason reason).log = cutLines p.capacity reason := by
  unfold storeReason reasonLimit cutLines
  split <;> rfl

theorem log_reschedule (reason : Option String) (p : FollowUp) :
    (p.reschedule reason).log =
      missingLines reason ++ cutLines p.capacity (reason.getD missingReason) := by
  have hStore := log_storeReason (reason.getD missingReason) (p.request .reschedule)
  unfold reschedule missingLines
  cases reason with
  | none => exact congrArg (_ ++ ·) hStore
  | some reason => exact hStore

/-- A missing reason is an error, and no warning. -/
theorem exists_warn_iff (capacity : Nat) (given : Option String) (reason : String) :
    (∃ line ∈ missingLines given ++ cutLines capacity reason, line.level = .warn) ↔
      capacity - 1 < reason.utf8ByteSize := by
  have hMissing : ∀ line ∈ missingLines given, line.level = .error := by
    unfold missingLines
    split <;> simp
  constructor
  · rintro ⟨line, hLine, hWarn⟩
    by_contra hFits
    unfold cutLines at hLine
    rw [if_neg hFits, List.append_nil] at hLine
    rw [hMissing line hLine] at hWarn
    cases hWarn
  · intro hCut
    unfold cutLines
    rw [if_pos hCut]
    exact ⟨_, List.mem_append_right _ (List.mem_singleton.mpr rfl), rfl⟩

/-- What a request to reschedule leaves behind, be `reason` the one that is given or the one that
stands for a missing one. -/
structure StoresReason (p : FollowUp) (given : Option String) (reason : String)
    (after : Logged FollowUp) : Prop where
  stored : Text.IsLongestWithin (p.capacity - 1) reason after.value.reason
  requested : after.value = { p.request .reschedule with reason := after.value.reason }
  missing : given = none → after.value = (p.reschedule (some "Invalid reason")).value
  /-- A search is made only where there is something to cut off; it ends, and never at a loss for a
  byte to go back to. -/
  search : p.capacity - 1 < reason.utf8ByteSize → ∀ found,
    Text.Retreats reason (p.capacity - 1) found ↔ found = after.value.reason.utf8ByteSize
  log_eq : after.log = missingLines given ++ cutLines p.capacity reason
  warns_iff : (∃ line ∈ after.log, line.level = .warn) ↔ p.capacity - 1 < reason.utf8ByteSize

/-- For every capacity, a request to reschedule stores the longest beginning of its reason that
leaves room for a terminator, and reports whether it had to cut. A missing reason is taken for
"Invalid reason". -/
theorem reschedule_stores_longest_reason (p : FollowUp) (given : Option String) :
    StoresReason p given (given.getD "Invalid reason") (p.reschedule given) := by
  have hReason : (p.reschedule given).value.reason =
      Text.cut (given.getD "Invalid reason") (p.capacity - 1) := by
    rw [value_reschedule, storedForm_eq]
    rfl
  constructor
  · rw [hReason]
    exact Text.isLongestWithin_cut _ _
  · rw [value_reschedule]
  · rintro rfl
    rw [value_reschedule, value_reschedule]
    rfl
  · intro _ found
    rw [Text.retreats_iff, hReason, Text.utf8ByteSize_cut]
  · exact log_reschedule given p
  · rw [log_reschedule]
    exact exists_warn_iff _ _ _

example :
    let p := FollowUp.ofConfig { Config.standard with reasonCapacity := 6 }
    (p.reschedule (some "aé日")).value.reason = "aé" ∧
      (p.reschedule none).value.reason = "Inval" := by
  decide

end FollowUp
end HostCalls
