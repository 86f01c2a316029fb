import HostCalls.Proofs.Linker.Pass

/-!
# Sites that are made to jump

Resolving imports makes sites jump to guest code and does nothing else. So what it leaves behind
follows from what was there before and from which site is made to jump where; in which order this
happens, how often and in how many passes has no influence.

* `Redirected` relates the tracked sites and the memory before to those after some jumps were made.
* `Redirected.trans`: jumps may be made one list after the other, as long as no two of them overlap.
* `Redirected.unique`: lists with the same members leave the same behind.
* `redirected_resolve`: resolving an import makes the jumps of the sites that its pass binds, and
  `leftDeferred_append` says what stays deferred after two passes.
-/

namespace HostCalls

/-- A site and the address to which it is made to jump. -/
structure Jump where
  site : Addr
  target : Addr
deriving DecidableEq

namespace Jump

/-- Whether two jumps are the same, or of sites that do not overlap. -/
def Agrees (jump other : Jump) : Prop :=
  jump = other ∨ Addr.Apart 8 jump.site other.site

variable {M : Type} [Memory M] [FaithfulMemory M] [CellMemory M]

/-- Whether one of the two slots lies in a cell. -/
def Touches (jump : Jump) (c : CellMemory.Cell M) : Prop :=
  CellMemory.LiesIn (M := M) jump.site c ∨
    CellMemory.LiesIn (M := M) (jump.site + Instruction.size) c

end Jump

namespace Linker

section Redirected

variable {M : Type} [Memory M] [FaithfulMemory M] [CellMemory M]

/-- Tracked sites and memory before and after some sites were made to jump, and nothing else was
changed. -/
structure Redirected (jumps : List Jump) (sites : Table Addr CallSite) (m : M)
    (sites' : Table Addr CallSite) (m' : M) : Prop where
  boundTo : ∀ jump ∈ jumps, BoundTo jump.target sites' m' jump.site
  get?_eq : ∀ site, (∀ jump ∈ jumps, jump.site ≠ site) → sites'.get? site = sites.get? site
  cell_eq : ∀ c : CellMemory.Cell M, (∀ jump ∈ jumps, ¬ jump.Touches c) →
    CellMemory.cell m' c = CellMemory.cell m c

namespace Redirected

variable {jumps later : List Jump} {sites sites₁ sites₂ : Table Addr CallSite} {m m₁ m₂ : M}

/-- Without jumps nothing is different, as far as words tell. -/
theorem nil (hSame : word m₁ = word m) : Redirected [] sites m sites m₁ where
  boundTo := nofun
  get?_eq _ _ := rfl
  cell_eq c _ := CellMemory.word_ext_iff.mp hSame c

/-- Words that share no byte with the slots are as before. -/
theorem word_eq (h : Redirected jumps sites m sites₁ m₁) {a : Addr}
    (ha : ∀ jump ∈ jumps, Addr.Apart 4 jump.site a ∧
      Addr.Apart 4 (jump.site + Instruction.size) a) : word m₁ a = word m a := by
  refine CellMemory.word_eq_iff.mpr fun c hc => h.cell_eq c fun jump hJump => ?_
  obtain ⟨hFirst, hSecond⟩ := ha jump hJump
  rintro (hTouch | hTouch)
  · exact CellMemory.not_liesIn_of_apart hFirst hTouch hc
  · exact CellMemory.not_liesIn_of_apart hSecond hTouch hc

/-- A site that no jump overlaps stays bound. -/
theorem boundTo_of_apart (h : Redirected later sites₁ m₁ sites₂ m₂) {site target : Addr}
    (hBound : BoundTo target sites₁ m₁ site)
    (hApart : ∀ jump ∈ later, Addr.Apart 8 site jump.site) : BoundTo target sites₂ m₂ site where
  tracked := by
    rw [h.get?_eq site fun jump hJump => (hApart jump hJump).symm.ne (by omega)]
    exact hBound.tracked
  hasSlots := hBound.hasSlots
  held := by
    refine hBound.held.congr (h.word_eq fun jump hJump => ?_) (h.word_eq fun jump hJump => ?_)
    · have hSites := hApart jump hJump
      have hSlots := (h.boundTo jump hJump).hasSlots
      exact ⟨CallSite.apart_first hSites.symm, (CallSite.apart_second hSites hSlots).symm⟩
    · have hSites := hApart jump hJump
      have hSlots := (h.boundTo jump hJump).hasSlots
      exact ⟨CallSite.apart_second hSites.symm hBound.hasSlots,
        CallSite.apart_seconds hSites.symm hSlots hBound.hasSlots⟩

/-- Jumps made after others leave these alone, unless they make the same again. -/
theorem trans (h : Redirected jumps sites m sites₁ m₁)
    (hLater : Redirected later sites₁ m₁ sites₂ m₂)
    (hAgree : ∀ jump ∈ jumps, ∀ other ∈ later, jump.Agrees other) :
    Redirected (jumps ++ later) sites m sites₂ m₂ where
  boundTo jump hJump := by
    by_cases hAgain : jump ∈ later
    · exact hLater.boundTo jump hAgain
    · have hFirst : jump ∈ jumps := (List.mem_append.mp hJump).resolve_right hAgain
      refine hLater.boundTo_of_apart (h.boundTo jump hFirst) fun other hOther => ?_
      rcases hAgree jump hFirst other hOther with rfl | hApart
      · exact absurd hOther hAgain
      · exact hApart
  get?_eq site hSite := by
    rw [hLater.get?_eq site fun jump hJump => hSite jump (List.mem_append_right _ hJump)]
    exact h.get?_eq site fun jump hJump => hSite jump (List.mem_append_left _ hJump)
  cell_eq c hc := by
    rw [hLater.cell_eq c fun jump hJump => hc jump (List.mem_append_right _ hJump)]
    exact h.cell_eq c fun jump hJump => hc jump (List.mem_append_left _ hJump)

/-- What is left behind depends on which jumps were made, and not on their order or number. -/
theorem unique {jumps' : List Jump} {n n₁ : M} {sites₁' : Table Addr CallSite}
    (h : Redirected jumps sites m sites₁ m₁) (h' : Redirected jumps' sites n sites₁' n₁)
    (hJumps : ∀ jump, jump ∈ jumps' ↔ jump ∈ jumps) (hSame : word n = word m) :
    sites₁' = sites₁ ∧ word n₁ = word m₁ := by
  constructor
  · refine Table.ext_get? fun site => ?_
    by_cases hSite : ∃ jump ∈ jumps, jump.site = site
    · obtain ⟨jump, hJump, rfl⟩ := hSite
      rw [(h.boundTo jump hJump).tracked, (h'.boundTo jump ((hJumps jump).mpr hJump)).tracked]
    · have hNone : ∀ jump ∈ jumps, jump.site ≠ site :=
        fun jump hJump hEq => hSite ⟨jump, hJump, hEq⟩
      rw [h.get?_eq site hNone,
        h'.get?_eq site fun jump hJump => hNone jump ((hJumps jump).mp hJump)]
  · refine CellMemory.word_ext_iff.mpr fun c => ?_
    by_cases hTouched : ∃ jump ∈ jumps, jump.Touches c
    · -- a cell of a slot is told by the word there, which both memories have from the jump
      obtain ⟨jump, hJump, hTouch⟩ := hTouched
      have hHeld := CallSite.held_iff.mp (h.boundTo jump hJump).held
      have hHeld' := CallSite.held_iff.mp (h'.boundTo jump ((hJumps jump).mpr hJump)).held
      rcases hTouch with hFirst | hSecond
      · exact CellMemory.word_eq_iff.mp (hHeld'.1.trans hHeld.1.symm) c hFirst
      · exact CellMemory.word_eq_iff.mp (hHeld'.2.trans hHeld.2.symm) c hSecond
    · have hNone : ∀ jump ∈ jumps, ¬ jump.Touches c :=
        fun jump hJump hTouch => hTouched ⟨jump, hJump, hTouch⟩
      rw [h.cell_eq c hNone, h'.cell_eq c fun jump hJump => hNone jump ((hJumps jump).mp hJump)]
      exact CellMemory.word_ext_iff.mp hSame c

end Redirected

variable {name : String} {nid : Nid} {target : Addr} {waiting : List Addr}
  {sites : Table Addr CallSite} {m : M}

/-- A pass changes no cell but those of the sites that it binds. -/
theorem cell_bindSites (hLeft : LeavesUnwritten target waiting m) {c : CellMemory.Cell M}
    (hc : ∀ site ∈ (bindSites name nid target waiting sites m).value.bound,
      ¬ (Jump.mk site target).Touches c) :
    CellMemory.cell (bindSites name nid target waiting sites m).value.memory c =
      CellMemory.cell m c := by
  refine view_bindSites (fun m => CellMemory.cell m c) hLeft
    (fun hSame => CellMemory.word_ext_iff.mp hSame c) fun site hSite _ _ hWrite => ?_
  exact hWrite.cell_eq (fun hFirst => hc site hSite (Or.inl hFirst))
    fun hSecond => hc site hSite (Or.inr hSecond)

theorem redirected_bindSites (hApart : Addr.AllApart 8 waiting)
    (hLeft : LeavesUnwritten target waiting m) :
    let pass := (bindSites name nid target waiting sites m).value
    Redirected (pass.bound.map (Jump.mk · target)) sites m pass.sites pass.memory where
  boundTo := by
    intro jump hJump
    obtain ⟨site, hSite, rfl⟩ := List.mem_map.mp hJump
    exact boundTo_of_mem_bound hApart hLeft site hSite
  get?_eq site hSite := by
    refine (get?_bindSites _ _ _).trans (if_neg fun hBound => ?_)
    exact hSite _ (List.mem_map_of_mem hBound) rfl
  cell_eq c hc := cell_bindSites hLeft fun site hSite => hc _ (List.mem_map_of_mem hSite)

end Redirected

section Resolve

variable {M : Type} [Memory M] {name : String} {nid : Nid} {target : Addr}

/-- A resolution without a failure tells how many sites waited, and leaves none of them deferred if
resolved imports are pruned. -/
theorem resolve_of_done {linker : Linker} {m : M}
    (hDone : (linker.pass m name nid target).failure = none) :
    (linker.resolve m name nid target).value =
      (.ok (linker.waiting name nid).length,
        { linker with
          sites := (linker.pass m name nid target).sites
          deferred := linker.leftDeferred name nid (linker.waiting name nid) },
        (linker.pass m name nid target).memory) := by
  rw [value_resolve, hDone, pass, bound_of_done hDone]

/-- Resolving an import makes the jumps of the sites that its pass binds. -/
theorem redirected_resolve [FaithfulMemory M] [CellMemory M] {linker : Linker} {m : M}
    (hApart : Addr.AllApart 8 (linker.waiting name nid))
    (hLeft : LeavesUnwritten target (linker.waiting name nid) m) :
    let after := (linker.resolve m name nid target).value
    Redirected ((linker.pass m name nid target).bound.map (Jump.mk · target)) linker.sites m
      after.2.1.sites after.2.2 :=
  redirected_bindSites hApart hLeft

/-- What stays deferred depends on which sites were bound, and not on their order or number. -/
theorem leftDeferred_congr (linker : Linker) {bound bound' : List Addr}
    (h : ∀ site, site ∈ bound' ↔ site ∈ bound) :
    linker.leftDeferred name nid bound' = linker.leftDeferred name nid bound := by
  have hContains : ∀ site, bound'.contains site = bound.contains site := by
    simp [List.contains_eq_mem, h]
  simp only [leftDeferred, prune, hContains]

/-- Pruning an import of which all sites are bound leaves the others. -/
theorem prune_waiting (linker : Linker) :
    prune name nid (linker.waiting name nid) linker.deferred =
      linker.deferred.filter fun entry => !entry.isFor name nid := by
  refine List.filter_congr fun entry hEntry => ?_
  cases hFor : entry.isFor name nid with
  | false => rfl
  | true =>
      have hWaits : entry.site ∈ linker.waiting name nid :=
        mem_waiting_iff.mpr ⟨entry, hEntry, hFor, rfl⟩
      simp [List.contains_eq_mem, hWaits]

/-- A pass that binds nothing leaves all imports deferred. -/
theorem leftDeferred_nil (linker : Linker) : linker.leftDeferred name nid [] = linker.deferred := by
  unfold leftDeferred prune
  split
  · exact List.filter_eq_self.mpr fun entry _ => by simp
  · rfl

/-- Two passes over an import leave deferred what one does that binds the sites of both. -/
theorem leftDeferred_append {linker after : Linker} {bound : List Addr} (later : List Addr)
    (hDeferred : after.deferred = linker.leftDeferred name nid bound)
    (hPrune : after.pruneResolved = linker.pruneResolved) :
    after.leftDeferred name nid later = linker.leftDeferred name nid (bound ++ later) := by
  unfold leftDeferred at hDeferred ⊢
  rw [hPrune, hDeferred]
  split
  · unfold prune
    rw [List.filter_filter]
    refine List.filter_congr fun entry _ => ?_
    cases entry.isFor name nid <;> simp [List.contains_eq_mem, Bool.and_comm]
  · rfl

/-- An import whose site was not bound stays deferred. -/
theorem mem_leftDeferred_of_not_mem {linker : Linker} {bound : List Addr} {entry : DeferredImport}
    (hEntry : entry ∈ linker.deferred) (hBound : entry.site ∉ bound) :
    entry ∈ linker.leftDeferred name nid bound := by
  unfold leftDeferred prune
  split
  · refine List.mem_filter.mpr ⟨hEntry, ?_⟩
    simp [List.contains_eq_mem, hBound]
  · exact hEntry

end Resolve

end Linker
end HostCalls
