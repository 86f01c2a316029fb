import HostCalls.Proofs.Linker.DirectJump

/-!
# What binding a site leaves alone

Binding a site writes its two slots, or defers the import, or does nothing. Whichever it is, and
wherever it fails, everything else stays as it was.

* `BindOutcome` says what binding leaves behind: a failure leaves the linker and all words alone,
  but for a first slot whose roll-back is refused, and a success leaves all other words alone.
* `value_bind_of_deferred` and `value_bind_of_jump`: an import that is deferred needs no memory, and
  neither does a site that jumps. `BindOutcome` says so of a memory that remembers its accesses.
* `bind_leaves_the_rest_alone` is the theorem, for every way in which binding can go.
-/

namespace HostCalls
namespace Linker

section Bind

variable {G M : Type} [Memory M] {registry : Registry G} {name : String} {nid : Nid}

/-- Whatever a site is bound to here, it begins with a return to the caller. -/
theorem firstWord_of_wanted? {held : CallSite} (h : wanted? registry name nid = some held) :
    held.firstWord = Instruction.returnWord := by
  unfold wanted? at h
  split at h
  · cases h
    rfl
  · split at h
    · cases h
      rfl
    · cases h

/-- An import that has to wait for its module is deferred, and memory is not needed for that. -/
theorem value_bind_of_deferred {linker : Linker} {site : Addr}
    (hSite : ∀ target, linker.callSite? site ≠ some (.directJump target))
    (hWanted : wanted? registry name nid = none) (m : M) :
    (linker.bind registry m name nid site).value =
      (.ok (), linker.defer ⟨name, site, nid⟩, m) := by
  rw [value_bind_eq linker registry m name nid site hSite, hWanted]

end Bind

variable {G M : Type} [Memory M] [FaithfulMemory M]

/-- What binding a site leaves behind. -/
structure BindOutcome (linker : Linker) (registry : Registry G) (m : M) (name : String) (nid : Nid)
    (site : Addr) (result : Except Error Unit) (linker' : Linker) (m' : M) : Prop where
  /-- A failure is one of writing the site. It leaves nothing behind, unless the roll-back of the
  first slot is refused: then this slot, and it alone, has the return to the caller. -/
  failed : ∀ e, result = .error e → linker' = linker ∧
    ∃ held, wanted? registry name nid = some held ∧
      (¬ CallSite.RollBackRefused m site held → word m' = word m) ∧
      (CallSite.RollBackRefused m site held → word m' site = Instruction.returnWord ∧
        ∀ a, Separate M site a → word m' a = word m a)
  /-- A success changes no word that writing the two slots leaves alone. -/
  word_eq : result = .ok () → ∀ a, Separate M site a → Separate M (site + Instruction.size) a →
    word m' a = word m a
  /-- A success writes and tracks what the site is to hold, unless the site jumps. -/
  bound : result = .ok () → (∀ target, linker.callSite? site ≠ some (.directJump target)) →
    ∀ held, wanted? registry name nid = some held →
      linker' = linker.track site held ∧ held.Held m' site
  /-- For an import that is deferred memory is not accessed. -/
  deferred : (∀ target, linker.callSite? site ≠ some (.directJump target)) →
    wanted? registry name nid = none → ∀ accesses : List Access,
      (linker.bind registry (⟨m, accesses⟩ : Watched M) name nid site).value =
        (.ok (), linker.defer ⟨name, site, nid⟩, ⟨m, accesses⟩)
  /-- Nor is it for a site that jumps. -/
  jumping : ∀ target, linker.callSite? site = some (.directJump target) →
    ∀ accesses : List Access,
      (linker.bind registry (⟨m, accesses⟩ : Watched M) name nid site).value =
        (.ok (), linker, ⟨m, accesses⟩)

/-- Binding a site leaves alone what it does not bind, wherever it fails. -/
theorem bind_leaves_the_rest_alone [RestoringMemory M] (linker : Linker) (registry : Registry G)
    (m : M) (name : String) (nid : Nid) (site : Addr) :
    let after := (linker.bind registry m name nid site).value
    BindOutcome linker registry m name nid site after.1 after.2.1 after.2.2 := by
  intro after
  have hDeferred (hSite : ∀ target, linker.callSite? site ≠ some (.directJump target))
      (hWanted : wanted? registry name nid = none) (accesses : List Access) :=
    value_bind_of_deferred hSite hWanted (⟨m, accesses⟩ : Watched M)
  have hJumping (target : Addr) (hJump : linker.callSite? site = some (.directJump target))
      (accesses : List Access) :=
    value_bind_of_jump hJump registry (⟨m, accesses⟩ : Watched M) name nid
  have hStep := bindStep_bind linker registry m name nid site
  change BindStep linker registry m name nid site after.1 after.2.1 after.2.2 at hStep
  generalize after.1 = result at hStep ⊢
  generalize after.2.1 = linker' at hStep ⊢
  generalize after.2.2 = m' at hStep ⊢
  cases hStep with
  | jumps hJump =>
      exact ⟨nofun, fun _ _ _ _ => rfl, fun _ hSite => absurd hJump (hSite _), hDeferred, hJumping⟩
  | deferred hSite hWanted =>
      refine ⟨nofun, fun _ _ _ _ => rfl, fun _ _ held hHeld => ?_, hDeferred, hJumping⟩
      rw [hWanted] at hHeld
      cases hHeld
  | bound hSite hWanted hWrite =>
      refine ⟨nofun, fun _ a hFirst hSecond => hWrite.word_of_separate hFirst hSecond,
        fun _ _ held hHeld => ?_, hDeferred, hJumping⟩
      cases hWanted.symm.trans hHeld
      exact ⟨rfl, hWrite.held_after⟩
  | @failed held e m' hSite hWanted hWrite =>
      refine ⟨fun _ _ => ⟨rfl, held, hWanted, hWrite.word_eq_of_not_refused, fun hRefused => ?_⟩,
        (fun hOk => by cases hOk), nofun, hDeferred, hJumping⟩
      obtain ⟨hFirst, hRest⟩ := hWrite.word_of_refused hRefused
      exact ⟨hFirst.trans (firstWord_of_wanted? hWanted), hRest⟩

/-- Memory in which the second slot of a site cannot be written, nor the first again. -/
def stubbornMemory : FaultyMemory :=
  (FaultyMemory.zero.put 0x08800100 0x0C001234).follow { FaultPlan.none with failWrites := [2, 3] }

/-- The first slot keeps the return that was written, and nothing else is left of the failure. -/
theorem refused_roll_back_leaves_return :
    let after := ((empty true).bind (.empty : Registry Unit) stubbornMemory "Guest" 0
      0x08800100).value
    after.1 = .error (.systemError "write 2 failed") ∧ after.2.1 = empty true ∧
      word after.2.2 0x08800100 = Instruction.returnWord ∧
      ∀ a, a ≠ 0x08800100 → word after.2.2 a = word stubbornMemory a := by
  intro after
  have hError : after.1 = .error (.systemError "write 2 failed") := rfl
  have hOutcome := bind_leaves_the_rest_alone (empty true) (.empty : Registry Unit) stubbornMemory
    "Guest" 0 0x08800100
  obtain ⟨hLinker, held, hWanted, -, hRefused⟩ := hOutcome.failed _ hError
  have hHeld : held = .patchedOut := (Option.some.inj hWanted).symm
  subst hHeld
  obtain ⟨hFirst, hRest⟩ := hRefused ⟨by decide, _, _, _, _, _, _, _, rfl, rfl, rfl, rfl⟩
  exact ⟨hError, hLinker, hFirst, fun a ha => hRest a (FaultyMemory.separate_of_ne ha.symm)⟩

end Linker
end HostCalls
