import HostCalls.Routine.CodeSpace

/-!
# Code is written once

Bytes are added to a code space at its end and never changed, and after it was protected none are
added. So what a write was told of its bytes stays true.

* `SpaceRequest` is a request to a space and `CodeSpace.run` a list of them. A request that is
  refused, or that faults, leaves the space behind for the next one all the same.
* `Answers` lists everything that a request can come to, and `answers_perform` says that the list is
  complete.
* `CodeSpace.taken` are the writes of a run that were not refused. `code_run`, `isProtected_run` and
  `capacity_run` say what a run leaves behind.
* `bytesAt?_of_prefix` finds bytes again in all code that begins with them.
* `code_is_written_once` puts this together.
-/

namespace HostCalls

/-- A request to a code space. -/
inductive SpaceRequest
  | write (bytes : List UInt8)
  | protect
deriving DecidableEq

/-- What comes of a request to a code space. -/
inductive SpaceAnswer
  /-- The bytes were written from an offset on. -/
  | written (offset : Nat)
  | refused (error : Error)
  | faulted (fault : ProtectionFault)
  | done
deriving DecidableEq

namespace SpaceRequest

/-- The answer to a request and the space after it. A fault is noticed before anything is written,
so the space is there as it was. -/
def perform (space : CodeSpace) : SpaceRequest → SpaceAnswer × CodeSpace
  | write bytes =>
      match space.write bytes with
      | .ok (.ok offset, space') => (.written offset, space')
      | .ok (.error e, space') => (.refused e, space')
      | .error fault => (.faulted fault, space)
  | protect => (.done, space.protect.value)

/-- The bytes of a request that were written, as its answer tells. -/
def written? : SpaceRequest → SpaceAnswer → Option (List UInt8)
  | write bytes, .written _ => some bytes
  | _, _ => none

end SpaceRequest

namespace CodeSpace

theorem value_alloc_of_le {capacity : Nat} (hNe : capacity ≠ 0)
    (hSmall : capacity ≤ 0x7FFFFFFFFFFFFFFF) :
    (alloc capacity).value = .ok (.ok (fresh capacity)) := by
  unfold alloc
  rw [if_neg hNe, reserve_of_le hSmall]
  rfl

theorem value_alloc_of_lt {capacity : Nat} (hLarge : 0x7FFFFFFFFFFFFFFF < capacity) :
    (alloc capacity).value = .error .overflow := by
  have hNe : capacity ≠ 0 := by omega
  unfold alloc
  rw [if_neg hNe, reserve_of_lt hLarge]
  rfl

/-- Everything that a request can come to. -/
inductive Answers (space : CodeSpace) : SpaceRequest → SpaceAnswer → CodeSpace → Prop
  | written {bytes : List UInt8} {space' : CodeSpace} (hOpen : space.isProtected = false)
      (hFits : space.size + bytes.length ≤ space.capacity)
      (hCode : space'.code = space.code ++ bytes) (hCapacity : space'.capacity = space.capacity)
      (hStill : space'.isProtected = false) :
      Answers space (.write bytes) (.written space.size) space'
  | full {bytes : List UInt8} (hOpen : space.isProtected = false)
      (hFull : space.capacity < space.size + bytes.length) :
      Answers space (.write bytes) (.refused .outOfMemory) space
  /-- Also a write of nothing faults. -/
  | faulted {bytes : List UInt8} (hProtected : space.isProtected = true) :
      Answers space (.write bytes) (.faulted ⟨bytes.length⟩) space
  | closed : Answers space .protect .done { space with isProtected := true }

theorem answers_perform (space : CodeSpace) (request : SpaceRequest) :
    space.Answers request (request.perform space).1 (request.perform space).2 := by
  cases request with
  | protect => exact .closed
  | write bytes =>
      unfold SpaceRequest.perform write
      cases hProtected : space.isProtected with
      | true => exact .faulted hProtected
      | false =>
          by_cases hFits : space.code.length + bytes.length ≤ space.capacity
          · simp only [Bool.false_eq_true, if_false, dif_pos hFits]
            exact .written hProtected hFits rfl rfl rfl
          · simp only [Bool.false_eq_true, if_false, dif_neg hFits]
            exact .full hProtected (Nat.lt_of_not_le hFits)

/-- The space after a list of requests. -/
def run (space : CodeSpace) : List SpaceRequest → CodeSpace
  | [] => space
  | request :: rest => (request.perform space).2.run rest

/-- The writes of a run that succeeded, oldest first. -/
def taken (space : CodeSpace) : List SpaceRequest → List (List UInt8)
  | [] => []
  | request :: rest =>
      (request.written? (request.perform space).1).toList ++ (request.perform space).2.taken rest

section Run

variable {space space' : CodeSpace} {request : SpaceRequest} {answer : SpaceAnswer}

theorem Answers.code_eq (h : space.Answers request answer space') :
    space'.code = space.code ++ (request.written? answer).toList.flatten := by
  cases h with
  | written _ _ hCode =>
      rw [hCode, SpaceRequest.written?, Option.toList_some, List.flatten_singleton]
  | full | faulted | closed => exact (List.append_nil _).symm

theorem Answers.capacity_eq (h : space.Answers request answer space') :
    space'.capacity = space.capacity := by
  cases h with
  | written _ _ _ hCapacity => exact hCapacity
  | full | faulted | closed => rfl

theorem Answers.isProtected_iff (h : space.Answers request answer space') :
    space'.isProtected = true ↔ space.isProtected = true ∨ request = .protect := by
  cases h with
  | written hOpen _ _ _ hStill => simp [hOpen, hStill]
  | full | faulted => simp
  | closed => simp

theorem run_append (space : CodeSpace) (earlier later : List SpaceRequest) :
    space.run (earlier ++ later) = (space.run earlier).run later := by
  induction earlier generalizing space with
  | nil => rfl
  | cons request rest ih => exact ih _

theorem code_run (space : CodeSpace) (requests : List SpaceRequest) :
    (space.run requests).code = space.code ++ (space.taken requests).flatten := by
  induction requests generalizing space with
  | nil => exact (List.append_nil _).symm
  | cons request rest ih =>
      rw [run, ih, (space.answers_perform request).code_eq, taken, List.flatten_append,
        List.append_assoc]

theorem capacity_run (space : CodeSpace) (requests : List SpaceRequest) :
    (space.run requests).capacity = space.capacity := by
  induction requests generalizing space with
  | nil => rfl
  | cons request rest ih => rw [run, ih, (space.answers_perform request).capacity_eq]

/-- A space is protected by nothing but a request to protect it, and for good. -/
theorem isProtected_run (space : CodeSpace) (requests : List SpaceRequest) :
    (space.run requests).isProtected = true ↔
      space.isProtected = true ∨ .protect ∈ requests := by
  induction requests generalizing space with
  | nil => simp [run]
  | cons request rest ih =>
      rw [run, ih, (space.answers_perform request).isProtected_iff, List.mem_cons, or_assoc,
        eq_comm (a := request)]

end Run

section BytesAt

theorem bytesAt?_eq_none_iff {space : CodeSpace} {offset length : Nat} :
    space.bytesAt? offset length = none ↔ space.size < offset + length := by
  unfold bytesAt?
  split
  · rename_i hLe
    exact iff_of_false nofun (Nat.not_lt.mpr hLe)
  · rename_i hNotLe
    exact iff_of_true rfl (Nat.lt_of_not_le hNotLe)

/-- Bytes are found behind those in front of them. -/
theorem bytesAt?_of_code {space : CodeSpace} {front bytes back : List UInt8}
    (h : space.code = front ++ (bytes ++ back)) :
    space.bytesAt? front.length bytes.length = some bytes := by
  unfold bytesAt? size
  rw [if_pos (by simp [h]), h, List.drop_left, List.take_left]

end BytesAt

/-- Where a write succeeds, its bytes stand behind all that was written before, and stay there. -/
theorem bytesAt?_of_written {space space' : CodeSpace} {bytes : List UInt8} {offset : Nat}
    (h : space.Answers (.write bytes) (.written offset) space') (later : List SpaceRequest) :
    (space'.run later).bytesAt? offset bytes.length = some bytes := by
  cases h with
  | written hOpen hFits hCode =>
      have hRun : (space'.run later).code =
          space.code ++ (bytes ++ (space'.taken later).flatten) := by
        rw [code_run, hCode, List.append_assoc]
      exact bytesAt?_of_code hRun

/-- In every run of requests to a space of any size, the code is what was written, in order, and
what was written is found again where its write was told it would be. The numbers that an offset
and a length can be may have a limit above the size of the space. -/
theorem code_is_written_once (capacity : Nat) (earlier later : List SpaceRequest)
    (request : SpaceRequest) :
    let start := fresh capacity
    let space := start.run earlier
    let after := request.perform space
    let last := start.run (earlier ++ request :: later)
    (space.code = (start.taken earlier).flatten ∧ space.code.length ≤ capacity ∧
        space.capacity = capacity ∧ (space.isProtected = true ↔ .protect ∈ earlier)) ∧
      space.Answers request after.1 after.2 ∧
      (∀ bytes offset, request = .write bytes → after.1 = .written offset →
        last.bytesAt? offset bytes.length = some bytes) ∧
      ∀ offset length, (space.bytesAt? offset length = none ↔ space.size < offset + length) ∧
        ∀ limit, capacity < limit →
          (space.bytesAt? offset length = none ↔
            space.size < offset + length ∨ limit ≤ offset + length) := by
  intro start space after last
  have hCapacity : space.capacity = capacity := capacity_run start earlier
  have hLe : space.code.length ≤ capacity := hCapacity ▸ space.length_le
  have hAnswers : space.Answers request after.1 after.2 := space.answers_perform request
  have hLast : last = after.2.run later := run_append start earlier (request :: later)
  refine ⟨⟨code_run start earlier, hLe, hCapacity, ?_⟩, hAnswers, ?_, fun offset length => ?_⟩
  · exact (isProtected_run start earlier).trans (or_iff_right Bool.false_ne_true)
  · intro bytes offset hRequest hWritten
    rw [hWritten, hRequest] at hAnswers
    rw [hLast]
    exact bytesAt?_of_written hAnswers later
  · refine ⟨bytesAt?_eq_none_iff, fun limit hLimit => bytesAt?_eq_none_iff.trans ?_⟩
    -- what lies behind the limit lies behind all that is written
    refine (or_iff_left_of_imp fun hOverflow => ?_).symm
    exact Nat.lt_of_lt_of_le (Nat.lt_of_le_of_lt hLe hLimit) hOverflow

/-- A space of four bytes is filled after a write that did not fit, and protected. -/
theorem last_byte_is_kept :
    let requests : List SpaceRequest := [.write [1, 2, 3], .write [4, 5]]
    let later : List SpaceRequest := [.write [7], .protect, .write []]
    let space := (fresh 4).run requests
    let last := (fresh 4).run (requests ++ .write [6] :: later)
    ((SpaceRequest.write [6]).perform space).1 = .written 3 ∧ space.code = [1, 2, 3] ∧
      ((SpaceRequest.write []).perform last).1 = .faulted ⟨0⟩ ∧
      last.bytesAt? 3 1 = some [6] ∧ space.bytesAt? 2 (UInt64.size - 2) = none := by
  intro requests later space last
  have hWritten : ((SpaceRequest.write [6]).perform space).1 = .written 3 := by decide
  obtain ⟨⟨hCode, -⟩, -, hKept, hNone⟩ := code_is_written_once 4 requests later (.write [6])
  have hOverflow := (hNone 2 (UInt64.size - 2)).2 UInt64.size (by decide)
  exact ⟨hWritten, hCode, by decide, hKept [6] 3 rfl hWritten, hOverflow.mpr (Or.inr (by decide))⟩

end CodeSpace
end HostCalls
