import HostCalls.Proofs.Linker.DirectJump
import HostCalls.Proofs.Linker.Resolve

/-!
# A pass that stops halfway

Resolving an import writes its waiting sites one after the other, and the first that cannot be
written ends the pass. What is left behind depends on nothing but how many were written before.

* `pairWrites` are the results of writing the sites in order, and `exists_bound_eq_take` says that a
  pass binds the sites in front of the first failure, which it reports. Where every access succeeds,
  that is the first site whose second slot has no address (`bindSites_of_acceptsAll`).
* `leavesUnwritten_of_accepted`: nothing is left of the write that failed, if the memory accepts its
  roll-back. So a pass changes no word but those of the sites that it binds (`word_bindSites`).
* `resolve_stops_at_first_failure` puts this together with what becomes of the deferred imports.

An import may wait at one site several times. A site that was bound leaves the deferred list
wherever it stands in it, also behind the site at which the pass stopped.
-/

namespace HostCalls
namespace Linker

section Writes

variable {M : Type} [Memory M]

/-- The results of making sites jump to `target` one after the other, each in the memory that those
before it leave behind. -/
def pairWrites (target : Addr) : List Addr → M → List (Except Error Unit)
  | [], _ => []
  | site :: rest, m =>
      let done := ((CallSite.directJump target).writeSlots m site).value
      done.1 :: pairWrites target rest done.2

/-- Whether every roll-back is accepted that comes up in making sites jump to `target`, up to the
first that cannot be written. -/
def RollBacksAccepted (target : Addr) : List Addr → M → Prop
  | [], _ => True
  | site :: rest, m =>
      CallSite.RollBackAccepted m site (.directJump target) ∧
        ∀ m', ((CallSite.directJump target).writeSlots m site).value = (.ok (), m') →
          RollBacksAccepted target rest m'

@[simp] theorem length_pairWrites (target : Addr) (waiting : List Addr) (m : M) :
    (pairWrites target waiting m).length = waiting.length := by
  induction waiting generalizing m with
  | nil => rfl
  | cons site rest ih => simp [pairWrites, ih]

theorem rollBacksAccepted_of_steady {steady : M → Prop} (hAccepts : AcceptsRollBack steady)
    (target : Addr) (waiting : List Addr) {m : M} (hm : steady m) :
    RollBacksAccepted target waiting m := by
  induction waiting generalizing m with
  | nil => trivial
  | cons site rest ih =>
      refine ⟨CallSite.rollBackAccepted_of_steady hAccepts hm site _, fun m' hWrite => ih ?_⟩
      exact (CallSite.slotWrite_of_value hWrite).steady_after hAccepts hm

variable {name : String} {nid : Nid} {target : Addr}

/-- A pass binds the sites in front of the first that cannot be written. -/
theorem exists_bound_eq_take (waiting : List Addr) (sites : Table Addr CallSite) (m : M) :
    let pass := (bindSites name nid target waiting sites m).value
    let writes := pairWrites target waiting m
    ∃ k, pass.bound = waiting.take k ∧ (∀ i < k, writes[i]? = some (.ok ())) ∧
      (k = waiting.length ∧ pass.failure = none ∨
        ∃ e, writes[k]? = some (.error e) ∧ pass.failure = some e) := by
  induction waiting generalizing sites m with
  | nil => exact ⟨0, rfl, nofun, Or.inl ⟨rfl, rfl⟩⟩
  | cons site rest ih =>
      simp only [value_bindSites_cons, pairWrites]
      rcases ((CallSite.directJump target).writeSlots m site).value with ⟨e | ⟨⟩, m'⟩
      · exact ⟨0, rfl, nofun, Or.inr ⟨e, rfl, rfl⟩⟩
      · obtain ⟨k, hBound, hBefore, hEnd⟩ := ih (sites.insert site (.directJump target)) m'
        refine ⟨k + 1, congrArg (site :: ·) hBound, fun i hi => ?_, ?_⟩
        · cases i with
          | zero => rfl
          | succ i => exact hBefore i (Nat.lt_of_succ_lt_succ hi)
        · exact hEnd.imp_left fun hAll => ⟨congrArg (· + 1) hAll.1, hAll.2⟩

/-- Where every access succeeds, a pass stops only at a site whose second slot has no address. -/
theorem bindSites_of_acceptsAll {ready : M → Prop} (hAccepts : AcceptsAll ready) (name : String)
    (nid : Nid) (target : Addr) (waiting : List Addr) (sites : Table Addr CallSite) {m : M}
    (hm : ready m) :
    let pass := (bindSites name nid target waiting sites m).value
    pass.bound = waiting.takeWhile (CallSite.HasSlots ·) ∧
      pass.failure = (waiting.find? (¬ CallSite.HasSlots ·)).map CallSite.pastEnd ∧
      ready pass.memory := by
  induction waiting generalizing sites m with
  | nil => exact ⟨rfl, rfl, hm⟩
  | cons site rest ih =>
      rw [value_bindSites_cons]
      by_cases hSlots : CallSite.HasSlots site
      · obtain ⟨m', hWrite, hm'⟩ :=
          CallSite.exists_writeSlots_of_acceptsAll hAccepts hm hSlots (.directJump target)
        obtain ⟨hBound, hFailure, hReady⟩ := ih (sites.insert site (.directJump target)) hm'
        rw [hWrite]
        simp only [List.takeWhile_cons, List.find?_cons, hSlots, decide_true, if_true, not_true,
          decide_false]
        exact ⟨congrArg (site :: ·) hBound, hFailure, hReady⟩
      · rw [CallSite.value_writeSlots_of_pastEnd hSlots]
        simp only [List.takeWhile_cons, List.find?_cons, hSlots, decide_false, not_false_eq_true,
          decide_true]
        exact ⟨rfl, rfl, hm⟩

/-- Where every access succeeds, the waiting sites of an import are all bound if all of them have
both slots. -/
theorem done_of_acceptsAll {ready : M → Prop} (hAccepts : AcceptsAll ready) {linker : Linker}
    {m : M} (hm : ready m) (name : String) (nid : Nid) (target : Addr)
    (hSlots : ∀ site ∈ linker.waiting name nid, CallSite.HasSlots site) :
    (linker.pass m name nid target).failure = none ∧
      ready (linker.pass m name nid target).memory := by
  obtain ⟨-, hFailure, hReady⟩ := bindSites_of_acceptsAll hAccepts name nid target
    (linker.waiting name nid) linker.sites hm
  refine ⟨?_, hReady⟩
  rw [pass, hFailure, List.find?_eq_none.mpr fun site hSite => by simpa using hSlots site hSite,
    Option.map_none]

end Writes

section Faithful

variable {M : Type} [Memory M] [FaithfulMemory M] {name : String} {nid : Nid} {target : Addr}
  {waiting : List Addr} {sites : Table Addr CallSite} {m : M}

/-- Nothing is left of a write that fails, if its roll-back is accepted. -/
theorem leavesUnwritten_of_accepted [RestoringMemory M]
    (hRollBack : RollBacksAccepted target waiting m) : LeavesUnwritten target waiting m := by
  induction waiting generalizing m with
  | nil => trivial
  | cons site rest ih =>
      obtain ⟨hFirst, hRest⟩ := hRollBack
      rw [LeavesUnwritten]
      rcases hWrite : ((CallSite.directJump target).writeSlots m site).value with ⟨e | ⟨⟩, m'⟩
      · exact (CallSite.slotWrite_of_value hWrite).word_eq_of_error hFirst
      · exact ih (hRest m' hWrite)

/-- What is seen of a memory through its words is after a pass as before, if no write of a site that
the pass binds changes it. -/
theorem view_bindSites {α : Type} (view : M → α) (hLeft : LeavesUnwritten target waiting m)
    (hWords : ∀ {m m' : M}, word m' = word m → view m' = view m)
    (hBound : ∀ site ∈ (bindSites name nid target waiting sites m).value.bound, ∀ {m m' : M},
      CallSite.SlotWrite m site (.directJump target) (.ok ()) m' → view m' = view m) :
    view (bindSites name nid target waiting sites m).value.memory = view m := by
  induction waiting generalizing sites m with
  | nil => rfl
  | cons site rest ih =>
      rw [value_bindSites_cons] at hBound ⊢
      rw [LeavesUnwritten] at hLeft
      rcases hWrite : ((CallSite.directJump target).writeSlots m site).value with ⟨e | ⟨⟩, m'⟩
      · rw [hWrite] at hLeft
        exact hWords hLeft
      · rw [hWrite] at hBound hLeft
        rw [← hBound site List.mem_cons_self (CallSite.slotWrite_of_value hWrite)]
        exact ih hLeft fun other hOther => hBound other (List.mem_cons_of_mem _ hOther)

/-- A pass changes no word but those of the sites that it binds. -/
theorem word_bindSites (hLeft : LeavesUnwritten target waiting m) {a : Addr}
    (ha : ∀ site ∈ (bindSites name nid target waiting sites m).value.bound,
      Separate M site a ∧ Separate M (site + Instruction.size) a) :
    word (bindSites name nid target waiting sites m).value.memory a = word m a := by
  refine view_bindSites (fun m => word m a) hLeft (fun hSame => congrFun hSame a) ?_
  intro site hSite m m' hWrite
  exact hWrite.word_of_separate (ha site hSite).1 (ha site hSite).2

/-- What resolving an import leaves behind if the first `k` sites at which it waits are bound. -/
structure BindsFirst (linker : Linker) (m : M) (name : String) (nid : Nid) (target : Addr) (k : Nat)
    (linker' : Linker) (m' : M) : Prop where
  /-- The sites that were bound are tracked as jumps, and all others as before. -/
  callSite?_eq : ∀ site, linker'.callSite? site =
    if site ∈ (linker.waiting name nid).take k then some (.directJump target)
    else linker.callSite? site
  held : ∀ site ∈ (linker.waiting name nid).take k, (CallSite.directJump target).Held m' site
  /-- No word is different that writing the slots of these sites leaves alone. -/
  word_eq : ∀ a, (∀ site ∈ (linker.waiting name nid).take k,
    Separate M site a ∧ Separate M (site + Instruction.size) a) → word m' a = word m a
  deferred_eq : linker'.deferred = linker.leftDeferred name nid ((linker.waiting name nid).take k)
  pruneResolved_eq : linker'.pruneResolved = linker.pruneResolved

theorem bindsFirst_of_bound {linker : Linker} {k : Nat}
    (hApart : Addr.AllApart 8 (linker.waiting name nid))
    (hLeft : LeavesUnwritten target (linker.waiting name nid) m)
    (hBound : (linker.pass m name nid target).bound = (linker.waiting name nid).take k) :
    BindsFirst linker m name nid target k (linker.resolve m name nid target).value.2.1
      (linker.resolve m name nid target).value.2.2 := by
  rw [value_resolve]
  refine ⟨fun site => ?_, fun site hSite => ?_, fun a ha => ?_, ?_, rfl⟩
  · rw [← hBound]
    exact get?_bindSites _ _ _
  · rw [← hBound] at hSite
    exact (boundTo_of_mem_bound hApart hLeft site hSite).held
  · rw [← hBound] at ha
    exact word_bindSites hLeft ha
  · rw [← hBound]

/-- Resolving an import succeeds if all its waiting sites can be written, and binds them all; else
it reports why the first of the others cannot be written, and binds those in front of it. -/
theorem resolve_stops_at_first_failure [RestoringMemory M] (linker : Linker) (m : M) (name : String)
    (nid : Nid) (target : Addr) (hApart : Addr.AllApart 8 (linker.waiting name nid))
    (hRollBack : RollBacksAccepted target (linker.waiting name nid) m) :
    let waiting := linker.waiting name nid
    let writes := pairWrites target waiting m
    let after := (linker.resolve m name nid target).value
    ((∃ count, after.1 = .ok count) ↔ ∀ written ∈ writes, written = .ok ()) ∧
      ∃ k, (∀ i < k, writes[i]? = some (.ok ())) ∧
        (k = waiting.length ∧ after.1 = .ok waiting.length ∨
          ∃ e, writes[k]? = some (.error e) ∧ after.1 = .error e) ∧
        BindsFirst linker m name nid target k after.2.1 after.2.2 := by
  intro waiting writes after
  obtain ⟨k, hBound, hBefore, hEnd⟩ : ∃ k, (linker.pass m name nid target).bound = waiting.take k ∧
      (∀ i < k, writes[i]? = some (.ok ())) ∧
        (k = waiting.length ∧ (linker.pass m name nid target).failure = none ∨
          ∃ e, writes[k]? = some (.error e) ∧ (linker.pass m name nid target).failure = some e) :=
    exists_bound_eq_take waiting linker.sites m
  have hFirst : BindsFirst linker m name nid target k after.2.1 after.2.2 :=
    bindsFirst_of_bound hApart (leavesUnwritten_of_accepted hRollBack) hBound
  have hLength : writes.length = waiting.length := length_pairWrites target waiting m
  rcases hEnd with ⟨hAll, hDone⟩ | ⟨e, hFailed, hStopped⟩
  · have hOk : after.1 = .ok waiting.length := by
      show (linker.resolve m name nid target).value.1 = _
      rw [value_resolve, hDone, hBound, hAll, List.take_length]
    have hWritten : ∀ written ∈ writes, written = .ok () := by
      intro written hMem
      obtain ⟨i, hi, rfl⟩ := List.mem_iff_getElem.mp hMem
      have hSome := hBefore i (by omega)
      rw [List.getElem?_eq_getElem hi] at hSome
      exact Option.some.inj hSome
    exact ⟨⟨fun _ => hWritten, fun _ => ⟨_, hOk⟩⟩, k, hBefore, Or.inl ⟨hAll, hOk⟩, hFirst⟩
  · have hError : after.1 = .error e := by
      show (linker.resolve m name nid target).value.1 = _
      rw [value_resolve, hStopped]
    refine ⟨⟨fun ⟨count, hOk⟩ => ?_, fun hWritten => ?_⟩, k, hBefore, Or.inr ⟨e, hFailed, hError⟩,
      hFirst⟩
    · rw [hError] at hOk
      cases hOk
    · cases hWritten _ (List.mem_of_getElem? hFailed)

end Faithful

/-- An import that waits at two sites, twice at the first, where another import waits too. -/
def crowdedSites : Linker :=
  (empty true).restoreDeferred
    [⟨"Guest", 0x08800100, 7⟩, ⟨"Other", 0x08800100, 7⟩, ⟨"Guest", 0x08800108, 7⟩,
      ⟨"Guest", 0x08800100, 7⟩]

/-- The pass stops at the second site. Both entries for the first are gone, and the other import's
is not; the second site has the word that it had. -/
theorem crowded_pass_stops_at_second_site :
    let after := (crowdedSites.resolve halfWritableMemory "Guest" 7 0x08900000).value
    (∀ count, after.1 ≠ .ok count) ∧
      BindsFirst crowdedSites halfWritableMemory "Guest" 7 0x08900000 1 after.2.1 after.2.2 ∧
      after.2.1.deferred = [⟨"Other", 0x08800100, 7⟩, ⟨"Guest", 0x08800108, 7⟩] ∧
      word after.2.2 0x08800108 = 0x0C001234 := by
  intro after
  obtain ⟨-, k, hBefore, hEnd, hFirst⟩ := resolve_stops_at_first_failure crowdedSites
    halfWritableMemory "Guest" 7 0x08900000 (by decide)
    (rollBacksAccepted_of_steady FaultyMemory.acceptsRollBack _ _ rfl)
  have hError : ∀ count, after.1 ≠ .ok count := nofun
  have hOne : k = 1 := by
    rcases hEnd with ⟨-, hOk⟩ | ⟨e, hFailed, -⟩
    · exact absurd hOk (hError _)
    · cases k with
      | zero => cases hFailed
      | succ k =>
          cases k with
          | zero => rfl
          | succ k => cases hBefore 1 (by omega)
  subst hOne
  have hOther : word after.2.2 0x08800108 = word halfWritableMemory 0x08800108 := by
    refine hFirst.word_eq _ fun site hSite => ?_
    rw [List.mem_singleton.mp hSite]
    exact ⟨FaultyMemory.separate_of_ne (by decide), FaultyMemory.separate_of_ne (by decide)⟩
  exact ⟨hError, hFirst, hFirst.deferred_eq, hOther.trans (by decide)⟩

end Linker
end HostCalls
