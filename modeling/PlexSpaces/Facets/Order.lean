import PlexSpaces.Facets.Container
import PlexSpaces.Lib.Placement
/-!
# Facets in step with their metadata

`Host.Sound` is what the container promises: the listed facets are the attached
ones, one of each type, under the keys of the metadata, in descending order of
priority and then in attach order, and the interceptors call them in this order.
A facet locked for writing while `attach` or `detach` looks at it breaks it;
`Host.Clear` says of a call that no lock gets in its way.
-/

namespace PlexSpaces.Facets

open PlexSpaces.Lib

variable {N : Type}

/-- The calls of an interception: attached facets, each once, one after another
in the given order, and all of them if nothing ended the interception. -/
structure CalledInOrder (attached order called : List (Slot N)) (complete : Prop) : Prop where
  once : called.Nodup
  current : ∀ slot ∈ called, slot ∈ attached
  inOrder : called <+: order
  all : complete → ∀ slot ∈ attached, slot ∈ called

structure Host.InStep (h : Host N) : Prop where
  distinct : (h.container.facets.map Slot.facetType).Nodup
  keys : ∀ t, t ∈ h.container.metadata ↔ t ∈ h.container.facets.map Slot.facetType
  attached : h.container.facets.Perm h.attached
  ordered : h.container.facets.Pairwise (Ranked Slot.priority h.attached)

structure Host.Sound (h : Host N) : Prop extends h.InStep where
  before : ∀ beforeMethod method args headers,
    let (called, outcome) := h.container.interceptBefore beforeMethod method args headers
    CalledInOrder h.attached h.container.facets called
      (∃ args', outcome = .ok (.callActor args'))
  after : ∀ afterMethod method args result headers,
    let (called, outcome) := h.container.interceptAfter afterMethod method args result headers
    CalledInOrder h.attached h.container.facets.reverse called (∃ result', outcome = .ok result')

/-- The priority a slot shows to the sort of an `attach`. -/
def Host.seen (h : Host N) (sortHeld : Held) (slot : Slot N) : Int :=
  if slot.id ≠ h.nextId ∧ sortHeld slot.id then 0 else slot.priority

/-- The locks held during the scans of an `attach` do no harm: read with 0 for a
locked facet, the list with the new facet at its place is in descending order,
and no facet of lower priority that the scan passes reads as the new priority. -/
def Host.LocksHarmless (h : Host N) (facet : Facet N) (scanHeld sortHeld : Held) : Prop :=
  (place Slot.priority ⟨h.nextId, facet⟩ h.container.facets).Pairwise
      (fun a b => h.seen sortHeld b ≤ h.seen sortHeld a) ∧
    ∀ slot ∈ h.container.facets.takeWhile
        (fun slot => scanHeld slot.id || facet.priority ≤ slot.priority),
      slot.priority < facet.priority → h.seen sortHeld slot ≠ facet.priority

/-- The locks that others hold do not get in the way of the call. -/
def Host.Clear (h : Host N) : Call N → Prop
  | .attach facet actorId tenantId nameSpace onAttach scanHeld sortHeld =>
      facet.facetType ∉ h.container.metadata →
      onAttach actorId (FacetContainer.injectTenant facet.config tenantId nameSpace) = .ok () →
        h.LocksHarmless facet scanHeld sortHeld
  | .detach facetType _ _ held =>
      ∀ slot ∈ h.container.facets, slot.facetType = facetType → held slot.id = false

/-! ## Interception -/

theorem runBefore_prefix (before : Slot N → List UInt8 → Except FacetError InterceptResult)
    (slots : List (Slot N)) (args : List UInt8) :
    (FacetContainer.runBefore before slots args).1 <+: slots ∧
      ∀ args', (FacetContainer.runBefore before slots args).2 = .ok (.callActor args') →
        (FacetContainer.runBefore before slots args).1 = slots := by
  induction slots generalizing args with
  | nil => exact ⟨List.prefix_rfl, fun _ _ => rfl⟩
  | cons slot rest ih =>
      have hone : [slot] <+: slot :: rest := ⟨rest, rfl⟩
      have hgo : ∀ args, slot :: (FacetContainer.runBefore before rest args).1 <+: slot :: rest ∧
          ∀ args', (FacetContainer.runBefore before rest args).2 = .ok (.callActor args') →
            slot :: (FacetContainer.runBefore before rest args).1 = slot :: rest := by
        intro args
        refine ⟨(List.cons_prefix_cons.mpr ⟨rfl, (ih args).1⟩), ?_⟩
        intro args' hok
        exact congrArg (slot :: ·) ((ih args).2 args' hok)
      rw [FacetContainer.runBefore]
      cases before slot args with
      | error e => exact ⟨hone, fun _ hok => by cases hok⟩
      | ok reply =>
          cases reply with
          | proceed => exact hgo args
          | replaceArgs newArgs => exact hgo newArgs
          | replaceResult newResult => exact hgo args
          | shortCircuit result => exact ⟨hone, fun _ hok => by cases hok⟩

theorem runAfter_prefix (after : Slot N → List UInt8 → Except FacetError InterceptResult)
    (slots : List (Slot N)) (result : List UInt8) :
    (FacetContainer.runAfter after slots result).1 <+: slots ∧
      ∀ result', (FacetContainer.runAfter after slots result).2 = .ok result' →
        (FacetContainer.runAfter after slots result).1 = slots := by
  induction slots generalizing result with
  | nil => exact ⟨List.prefix_rfl, fun _ _ => rfl⟩
  | cons slot rest ih =>
      have hgo : ∀ result, slot :: (FacetContainer.runAfter after rest result).1 <+: slot :: rest ∧
          ∀ result', (FacetContainer.runAfter after rest result).2 = .ok result' →
            slot :: (FacetContainer.runAfter after rest result).1 = slot :: rest := by
        intro result
        refine ⟨(List.cons_prefix_cons.mpr ⟨rfl, (ih result).1⟩), ?_⟩
        intro result' hok
        exact congrArg (slot :: ·) ((ih result).2 result' hok)
      rw [FacetContainer.runAfter]
      cases after slot result with
      | error e => exact ⟨⟨rest, rfl⟩, fun _ hok => by cases hok⟩
      | ok reply =>
          cases reply with
          | proceed => exact hgo result
          | replaceArgs newArgs => exact hgo result
          | replaceResult newResult => exact hgo newResult
          | shortCircuit early => exact hgo result

theorem CalledInOrder.of_initial {attached order called : List (Slot N)} {complete : Prop}
    (hperm : order.Perm attached) (hnodup : order.Nodup) (hpre : called <+: order)
    (hall : complete → called = order) : CalledInOrder attached order called complete where
  once := hnodup.sublist hpre.sublist
  current := fun _ hslot => hperm.subset (hpre.subset hslot)
  inOrder := hpre
  all := fun hcomplete _ hslot => hall hcomplete ▸ hperm.symm.subset hslot

/-- A container whose list is in step with the metadata calls the facets in order. -/
theorem Host.InStep.sound {h : Host N} (hin : h.InStep) : h.Sound where
  toInStep := hin
  before := by
    intro beforeMethod method args headers
    have hrun := runBefore_prefix (fun slot args => beforeMethod slot method args headers)
      h.container.facets args
    exact .of_initial hin.attached (.of_map _ hin.distinct) hrun.1
      fun ⟨args', hok⟩ => hrun.2 args' hok
  after := by
    intro afterMethod method args result headers
    have hrun := runAfter_prefix (fun slot result => afterMethod slot method args result headers)
      h.container.facets.reverse result
    have hnodup := List.nodup_reverse.mpr (List.Nodup.of_map _ hin.distinct)
    exact .of_initial (List.reverse_perm _ |>.trans hin.attached) hnodup hrun.1
      fun ⟨result', hok⟩ => hrun.2 result' hok

/-! ## Attaching and detaching -/

/-- The metadata carry the priorities of the listed facets. -/
def FacetContainer.Carries (c : FacetContainer N) : Prop :=
  ∀ slot ∈ c.facets, ∃ m, c.metadata.lookup slot.facetType = some m ∧ m.priority = slot.priority

theorem FacetContainer.Carries.insertIdx_insertPos {c : FacetContainer N} (hc : c.Carries)
    (held : Held) (priority : Int) (slot : Slot N) :
    c.facets.insertIdx (c.insertPos held priority) slot =
      c.facets.takeWhile (fun slot => held slot.id || priority ≤ slot.priority) ++
        slot :: c.facets.dropWhile (fun slot => held slot.id || priority ≤ slot.priority) := by
  refine insertIdx_findIdx ?_
  intro slot hslot
  obtain ⟨m, hm, hpriority⟩ := hc slot hslot
  cases hheld : held slot.id with
  | true => simp only [Slot.tryRead_of_held hheld, Bool.true_or, Bool.not_true]
  | false =>
      simp only [Slot.tryRead_of_free hheld, hm, hpriority, Bool.false_or, ← decide_not]
      exact decide_eq_decide.mpr not_le.symm

theorem FacetContainer.Carries.sortPriority {c : FacetContainer N} (hc : c.Carries) (held : Held)
    {slot : Slot N} (hslot : slot ∈ c.facets) :
    c.sortPriority held slot = if held slot.id then 0 else slot.priority := by
  obtain ⟨m, hm, hpriority⟩ := hc slot hslot
  cases hheld : held slot.id with
  | true => simp only [FacetContainer.sortPriority, Slot.tryRead_of_held hheld, if_true]
  | false =>
      simp only [FacetContainer.sortPriority, Slot.tryRead_of_free hheld, hm, Option.map_some,
        Option.getD_some, hpriority, Bool.false_eq_true, if_false]

/-- With the list in step, the ids are old and the metadata carry the priorities. -/
structure Host.Consistent (h : Host N) : Prop extends h.InStep where
  fresh : ∀ slot ∈ h.container.facets, slot.id < h.nextId
  carries : h.container.Carries

theorem Host.consistent_new : (({} : Host N)).Consistent where
  distinct := List.nodup_nil
  keys := fun _ => ⟨fun ht => absurd ht (AList.notMem_empty _), fun ht => by cases ht⟩
  attached := .nil
  ordered := .nil
  fresh := fun _ hslot => by cases hslot
  carries := fun _ hslot => by cases hslot

section Attach

variable {h : Host N} {facet : Facet N} {actorId : String} {tenantId nameSpace : Option String}
  {onAttach : String → Json N → Except FacetError Unit} {scanHeld sortHeld : Held}

/-- An `attach` that is refused, by the metadata or by the facet, changes nothing. -/
theorem Host.step_attach_refused
    (hrefused : facet.facetType ∈ h.container.metadata ∨
      onAttach actorId (FacetContainer.injectTenant facet.config tenantId nameSpace) ≠ .ok ()) :
    h.step (.attach facet actorId tenantId nameSpace onAttach scanHeld sortHeld) =
      { h with nextId := h.nextId + 1 } := by
  by_cases hmem : facet.facetType ∈ h.container.metadata
  · simp only [Host.step, FacetContainer.attachWithTenantContext, if_pos hmem]
  · have hno := hrefused.resolve_left hmem
    cases hon : onAttach actorId (FacetContainer.injectTenant facet.config tenantId nameSpace) with
    | error e => simp only [Host.step, FacetContainer.attachWithTenantContext, if_neg hmem, hon]
    | ok done => exact absurd hon hno

/-- The list before the sort, cut where the new facet goes. -/
def Host.inserted (h : Host N) (facet : Facet N) (scanHeld : Held) : List (Slot N) :=
  h.container.facets.takeWhile (fun slot => scanHeld slot.id || facet.priority ≤ slot.priority) ++
    ⟨h.nextId, facet⟩ ::
      h.container.facets.dropWhile
        (fun slot => scanHeld slot.id || facet.priority ≤ slot.priority)

theorem Host.mem_inserted {slot : Slot N} :
    slot ∈ h.inserted facet scanHeld ↔ slot = ⟨h.nextId, facet⟩ ∨ slot ∈ h.container.facets := by
  rw [inserted, List.perm_middle.mem_iff, List.takeWhile_append_dropWhile, List.mem_cons]

theorem Host.Consistent.carries_insert (hc : h.Consistent)
    (hnew : facet.facetType ∉ h.container.metadata) (entry : FacetMetadata N) :
    FacetContainer.Carries
      ⟨h.container.facets, h.container.metadata.insert facet.facetType entry⟩ := by
  intro slot hslot
  have hmem : slot.facetType ∈ h.container.metadata :=
    (hc.keys _).mpr (List.mem_map_of_mem hslot)
  have hne : slot.facetType ≠ facet.facetType := fun heq => hnew (heq ▸ hmem)
  rw [AList.lookup_insert_ne hne]
  exact hc.carries slot hslot

theorem Host.Consistent.carries_inserted (hc : h.Consistent)
    (hnew : facet.facetType ∉ h.container.metadata) {entry : FacetMetadata N}
    (hentry : entry.priority = facet.priority) :
    FacetContainer.Carries
      ⟨h.inserted facet scanHeld, h.container.metadata.insert facet.facetType entry⟩ := by
  intro slot hslot
  rcases Host.mem_inserted.mp hslot with rfl | hslot
  · exact ⟨entry, AList.lookup_insert _, hentry⟩
  · exact hc.carries_insert hnew entry slot hslot

variable (scanHeld sortHeld) in
/-- An `attach` that goes through inserts the facet and sorts by what it can see. -/
theorem Host.Consistent.step_attach (hc : h.Consistent)
    (hnew : facet.facetType ∉ h.container.metadata)
    (hok : onAttach actorId (FacetContainer.injectTenant facet.config tenantId nameSpace) =
      .ok ()) :
    ∃ entry : FacetMetadata N, entry.priority = facet.priority ∧
      h.step (.attach facet actorId tenantId nameSpace onAttach scanHeld sortHeld) =
        { container :=
            { facets := (h.inserted facet scanHeld).insertionSort
                fun a b => h.seen sortHeld b ≤ h.seen sortHeld a
              metadata := (h.container.metadata.insert facet.facetType entry).insert
                facet.facetType entry }
          nextId := h.nextId + 1
          attached := h.attached ++ [⟨h.nextId, facet⟩] } := by
  let entry : FacetMetadata N := ⟨facet.facetType, facet.priority,
    FacetContainer.injectTenant facet.config tenantId nameSpace⟩
  let held : Held := fun id => id != h.nextId && sortHeld id
  let c : FacetContainer N :=
    ⟨h.inserted facet scanHeld, h.container.metadata.insert facet.facetType entry⟩
  have hinserted := (hc.carries_insert hnew entry).insertIdx_insertPos scanHeld facet.priority
    ⟨h.nextId, facet⟩
  have hseen : ∀ slot ∈ c.facets, c.sortPriority held slot = h.seen sortHeld slot := by
    intro slot hslot
    rw [(hc.carries_inserted hnew rfl).sortPriority held hslot, Host.seen]
    exact if_congr (by simp [held]) rfl rfl
  have hsorted : c.facets.insertionSort (fun a b => c.sortPriority held b ≤ c.sortPriority held a) =
      c.facets.insertionSort (fun a b => h.seen sortHeld b ≤ h.seen sortHeld a) :=
    insertionSort_congr fun a ha b hb => by rw [hseen a ha, hseen b hb]
  refine ⟨entry, rfl, ?_⟩
  simp only [Host.step, FacetContainer.attachWithTenantContext, if_neg hnew, hok]
  rw [hinserted]
  rw [← hsorted]
  rfl

theorem Host.Consistent.descending (hc : h.Consistent) :
    h.container.facets.Pairwise fun a b => b.priority ≤ a.priority :=
  hc.ordered.imp fun hab => hab.le

theorem Host.Consistent.new_notMem (hc : h.Consistent) (facet : Facet N) :
    (⟨h.nextId, facet⟩ : Slot N) ∉ h.container.facets :=
  fun hmem => absurd (hc.fresh _ hmem) (Nat.lt_irrefl _)

/-- The sort of an `attach` gives the right list exactly when the locks are harmless. -/
theorem Host.Consistent.sorted_eq_place_iff (hc : h.Consistent) :
    (h.inserted facet scanHeld).insertionSort
        (fun a b => h.seen sortHeld b ≤ h.seen sortHeld a) =
        place Slot.priority ⟨h.nextId, facet⟩ h.container.facets ↔
      h.LocksHarmless facet scanHeld sortHeld := by
  let passes : Slot N → Bool := fun slot => scanHeld slot.id || facet.priority ≤ slot.priority
  have hcut : h.container.facets.takeWhile passes ++ h.container.facets.dropWhile passes =
      h.container.facets := List.takeWhile_append_dropWhile
  have hseen : h.seen sortHeld ⟨h.nextId, facet⟩ = facet.priority := by
    rw [seen, if_neg fun hheld => hheld.1 rfl]
  have hafter : ∀ slot ∈ h.container.facets.dropWhile passes, slot.priority < facet.priority := by
    refine rank_lt_of_mem_dropWhile hc.descending fun slot _ hstop => ?_
    exact not_le.mp (of_decide_eq_false (Bool.or_eq_false_iff.mp hstop).2)
  have hnodup : h.container.facets.Nodup := List.Nodup.of_map _ hc.distinct
  have hiff : (h.inserted facet scanHeld).insertionSort
        (fun a b => h.seen sortHeld b ≤ h.seen sortHeld a) = place Slot.priority ⟨h.nextId, facet⟩
          (h.container.facets.takeWhile passes ++ h.container.facets.dropWhile passes) ↔ _ :=
    insertionSort_eq_place_iff (hcut.symm ▸ hnodup) (hcut.symm ▸ hc.new_notMem facet)
      (hcut.symm ▸ hc.descending) hafter
  rw [hcut, hseen] at hiff
  exact hiff

theorem Host.Consistent.consistent_attach (hc : h.Consistent)
    (hnew : facet.facetType ∉ h.container.metadata)
    (hok : onAttach actorId (FacetContainer.injectTenant facet.config tenantId nameSpace) =
      .ok ())
    (hharmless : h.LocksHarmless facet scanHeld sortHeld) :
    (h.step (.attach facet actorId tenantId nameSpace onAttach scanHeld sortHeld)).Consistent := by
  obtain ⟨entry, hentry, hstep⟩ := hc.step_attach scanHeld sortHeld hnew hok
  rw [hc.sorted_eq_place_iff.mpr hharmless] at hstep
  have hperm := place_perm Slot.priority ⟨h.nextId, facet⟩ h.container.facets
  have htype : facet.facetType ∉ h.container.facets.map Slot.facetType :=
    fun hmem => hnew ((hc.keys _).mpr hmem)
  rw [hstep]
  refine ⟨⟨?_, ?_, ?_, ?_⟩, ?_, ?_⟩
  · exact (hperm.map _).nodup_iff.mpr (List.nodup_cons.mpr ⟨htype, hc.distinct⟩)
  · intro t
    rw [(hperm.map _).mem_iff, List.map_cons, List.mem_cons, AList.mem_insert, AList.mem_insert,
      hc.keys, or_self_left]
  · exact hperm.trans ((hc.attached.cons _).trans (List.perm_append_singleton _ _).symm)
  · exact pairwise_place hc.ordered fun slot hslot => hc.attached.subset hslot
  · intro slot hslot
    rcases mem_place.mp hslot with rfl | hslot
    · exact Nat.lt_succ_self _
    · exact (hc.fresh slot hslot).trans (Nat.lt_succ_self _)
  · intro slot hslot
    by_cases hsame : slot.facetType = facet.facetType
    · rcases mem_place.mp hslot with rfl | hslot
      · exact ⟨entry, AList.lookup_insert _, hentry⟩
      · exact absurd (hsame ▸ List.mem_map_of_mem hslot) htype
    · rw [AList.lookup_insert_ne hsame, AList.lookup_insert_ne hsame]
      rcases mem_place.mp hslot with rfl | hslot
      · exact absurd rfl hsame
      · exact hc.carries slot hslot

/-- Where the list is still in order after an `attach`, the locks were harmless. -/
theorem Host.Consistent.locksHarmless_of_inStep (hc : h.Consistent)
    (hnew : facet.facetType ∉ h.container.metadata)
    (hok : onAttach actorId (FacetContainer.injectTenant facet.config tenantId nameSpace) =
      .ok ())
    (hnext :
      (h.step (.attach facet actorId tenantId nameSpace onAttach scanHeld sortHeld)).InStep) :
    h.LocksHarmless facet scanHeld sortHeld := by
  obtain ⟨entry, -, hstep⟩ := hc.step_attach scanHeld sortHeld hnew hok
  rw [hstep] at hnext
  have hperm : (place Slot.priority ⟨h.nextId, facet⟩ h.container.facets).Perm
      (h.attached ++ [⟨h.nextId, facet⟩]) :=
    (place_perm _ _ _).trans ((hc.attached.cons _).trans (List.perm_append_singleton _ _).symm)
  have hnodup : (h.attached ++ [(⟨h.nextId, facet⟩ : Slot N)]).Nodup :=
    hnext.attached.nodup_iff.mp (List.Nodup.of_map _ hnext.distinct)
  have hplace := pairwise_place (a := (⟨h.nextId, facet⟩ : Slot N)) hc.ordered
    fun slot hslot => hc.attached.subset hslot
  exact hc.sorted_eq_place_iff.mp
    (eq_of_ranked hnodup (hnext.attached.trans hperm.symm) hnext.ordered hplace)

end Attach

section Detach

variable {h : Host N} {facetType actorId : String} {onDetach : String → Except FacetError Unit}
  {held : Held}

theorem FacetContainer.detach_of_mem {c : FacetContainer N} (hmem : facetType ∈ c.metadata) :
    (c.detach facetType actorId onDetach held).2 =
      { facets := c.facets.eraseP (Slot.shows held facetType)
        metadata := c.metadata.erase facetType } := by
  rw [List.eraseP_eq_eraseIdx, detach, if_pos hmem]
  dsimp only
  cases c.facets.findIdx? (Slot.shows held facetType) with
  | none => rfl
  | some pos => rfl

theorem FacetContainer.detach_of_notMem {c : FacetContainer N} (hmem : facetType ∉ c.metadata) :
    (c.detach facetType actorId onDetach held).2 = c := by
  rw [detach, if_neg hmem]

/-- Without the facets of one type, list and metadata are in step again. -/
theorem Host.Consistent.without (hc : h.Consistent) (facetType : String) :
    Host.Consistent
      { container :=
          { facets := h.container.facets.filter fun slot => slot.facetType ≠ facetType
            metadata := h.container.metadata.erase facetType }
        nextId := h.nextId
        attached := h.attached.filter fun slot => slot.facetType ≠ facetType } where
  distinct := hc.distinct.sublist (List.filter_sublist.map _)
  keys := by
    intro t
    rw [AList.mem_erase, hc.keys, List.mem_map, List.mem_map]
    constructor
    · rintro ⟨hne, slot, hslot, rfl⟩
      exact ⟨slot, List.mem_filter.mpr ⟨hslot, decide_eq_true hne⟩, rfl⟩
    · rintro ⟨slot, hslot, rfl⟩
      obtain ⟨hslot, hne⟩ := List.mem_filter.mp hslot
      exact ⟨of_decide_eq_true hne, slot, hslot, rfl⟩
  attached := hc.attached.filter _
  ordered := by
    have hfiltered := hc.ordered.filter fun slot => decide (slot.facetType ≠ facetType)
    refine hfiltered.imp_of_mem ?_
    rintro a b ha hb (hlt | ⟨heq, hab⟩)
    · exact .inl hlt
    · have hpair := hab.filter fun slot => decide (slot.facetType ≠ facetType)
      rw [List.filter_cons, if_pos (List.mem_filter.mp ha).2, List.filter_cons,
        if_pos (List.mem_filter.mp hb).2] at hpair
      exact .inr ⟨heq, hpair⟩
  fresh := fun slot hslot => hc.fresh slot (List.mem_filter.mp hslot).1
  carries := by
    intro slot hslot
    obtain ⟨hslot, hne⟩ := List.mem_filter.mp hslot
    rw [AList.lookup_erase_ne (of_decide_eq_true hne)]
    exact hc.carries slot hslot

theorem Slot.shows_of_free {slot : Slot N} (hfree : slot.facetType = facetType →
    held slot.id = false) : slot.shows held facetType = (slot.facetType == facetType) := by
  cases hheld : held slot.id with
  | false => rw [shows, Slot.tryRead_of_free hheld]
  | true =>
      have hne : slot.facetType ≠ facetType := by
        intro heq
        rw [hfree heq] at hheld
        cases hheld
      rw [shows, Slot.tryRead_of_held hheld]
      exact (beq_eq_false_iff_ne.mpr hne).symm

theorem Host.Consistent.consistent_detach (hc : h.Consistent)
    (hclear : h.Clear (.detach facetType actorId onDetach held)) :
    (h.step (.detach facetType actorId onDetach held)).Consistent := by
  have hwithout := hc.without facetType
  by_cases hmem : facetType ∈ h.container.metadata
  · have hfacets := eraseP_eq_filter hc.distinct fun slot hslot =>
      Slot.shows_of_free (hclear slot hslot)
    rw [Host.step, FacetContainer.detach_of_mem hmem, hfacets]
    exact hwithout
  · have hne : ∀ slot ∈ h.container.facets, slot.facetType ≠ facetType := by
      intro slot hslot heq
      exact hmem ((hc.keys _).mpr (heq ▸ List.mem_map_of_mem hslot))
    have hattached : h.attached.filter (fun slot => slot.facetType ≠ facetType) = h.attached :=
      List.filter_eq_self.mpr fun slot hslot =>
        decide_eq_true (hne slot (hc.attached.symm.subset hslot))
    rw [Host.step, FacetContainer.detach_of_notMem hmem, hattached]
    exact hc

/-- A `detach` that leaves the list in step found its facet free. -/
theorem Host.Consistent.clear_of_inStep_detach (hc : h.Consistent)
    (hnext : (h.step (.detach facetType actorId onDetach held)).InStep) :
    h.Clear (.detach facetType actorId onDetach held) := by
  intro slot hslot htype
  by_contra hheld
  have hmem : facetType ∈ h.container.metadata :=
    (hc.keys _).mpr (htype ▸ List.mem_map_of_mem hslot)
  -- no other facet has the type, so none is found and the locked one stays
  have hnone : ∀ other ∈ h.container.facets, ¬other.shows held facetType = true := by
    intro other hother hshows
    have hfree : held other.id = false := by
      cases hother : held other.id with
      | false => rfl
      | true =>
          rw [Slot.shows, Slot.tryRead_of_held hother] at hshows
          cases hshows
    rw [Slot.shows, Slot.tryRead_of_free hfree] at hshows
    have heq : other = slot := List.inj_on_of_nodup_map hc.distinct hother hslot
      ((beq_iff_eq.mp hshows).trans htype.symm)
    exact hheld (heq ▸ hfree)
  rw [Host.step, FacetContainer.detach_of_mem hmem, List.eraseP_of_forall_not hnone] at hnext
  have hkey := (hnext.keys facetType).mpr (htype ▸ List.mem_map_of_mem hslot)
  exact (AList.mem_erase.mp hkey).1 rfl

end Detach

/-! ## Every call, and every sequence of calls -/

theorem Host.Consistent.skip_id {h : Host N} (hc : h.Consistent) :
    Host.Consistent { h with nextId := h.nextId + 1 } where
  distinct := hc.distinct
  keys := hc.keys
  attached := hc.attached
  ordered := hc.ordered
  fresh := fun slot hslot => Nat.lt_succ_of_lt (hc.fresh slot hslot)
  carries := hc.carries

theorem Host.Consistent.step {h : Host N} (hc : h.Consistent) {call : Call N}
    (hclear : h.Clear call) : (h.step call).Consistent := by
  cases call with
  | attach facet actorId tenantId nameSpace onAttach scanHeld sortHeld =>
      by_cases hnew : facet.facetType ∈ h.container.metadata
      · rw [Host.step_attach_refused (.inl hnew)]
        exact hc.skip_id
      · by_cases hok : onAttach actorId
            (FacetContainer.injectTenant facet.config tenantId nameSpace) = .ok ()
        · exact hc.consistent_attach hnew hok (hclear hnew hok)
        · rw [Host.step_attach_refused (.inr hok)]
          exact hc.skip_id
  | detach facetType actorId onDetach held => exact hc.consistent_detach hclear

theorem Host.Consistent.clear_of_inStep {h : Host N} (hc : h.Consistent) {call : Call N}
    (hnext : (h.step call).InStep) : h.Clear call := by
  cases call with
  | attach facet actorId tenantId nameSpace onAttach scanHeld sortHeld =>
      intro hnew hok
      exact hc.locksHarmless_of_inStep hnew hok hnext
  | detach facetType actorId onDetach held => exact hc.clear_of_inStep_detach hnext

/-- The container is sound after every call of a history exactly when no call of
it meets a lock that harms it. -/
theorem Host.stays_sound_iff (calls : List (Call N)) :
    (∀ earlier, earlier <+: calls → (run Host.step {} earlier).Sound) ↔
      Along Host.step Host.Clear {} calls :=
  forall_prefix_iff_along (I := Host.Consistent) (fun _ _ hc _ hcall => hc.step hcall)
    (fun _ _ hc _ => ⟨fun hnext => hc.clear_of_inStep hnext.toInStep,
      fun hcall => (hc.step hcall).toInStep.sound⟩)
    Host.consistent_new Host.consistent_new.toInStep.sound calls

section Locked

private def facetOf (facetType : String) (priority : Int) : Facet Unit :=
  ⟨facetType, .object [], priority⟩

private def attachFree (facet : Facet Unit) : Call Unit :=
  .attach facet "actor-1" none none (fun _ _ => .ok ()) (fun _ => false) (fun _ => false)

/-- A facet is detached while another task holds its lock: it stays in the list. -/
private def detachLocked : List (Call Unit) :=
  [attachFree (facetOf "logging" 0),
    .detach "logging" "actor-1" (fun _ => .ok ()) (fun id => id == 0)]

/-- A facet is attached while the lock of one of higher priority is held: it goes in front. -/
private def attachLocked : List (Call Unit) :=
  [attachFree (facetOf "metrics" 10),
    .attach (facetOf "logging" 5) "actor-1" none none (fun _ _ => .ok ()) (fun id => id == 0)
      (fun id => id == 0)]

theorem Host.not_stays_sound :
    ¬(run Host.step {} detachLocked).Sound ∧ ¬(run Host.step {} attachLocked).Sound := by
  constructor
  · intro hsound
    have hlisted : "logging" ∈
        (run Host.step {} detachLocked).container.facets.map Slot.facetType := by decide +kernel
    have hkey := (hsound.keys "logging").mpr hlisted
    have hgone : "logging" ∉ (run Host.step {} detachLocked).container.metadata := by
      decide +kernel
    exact hgone hkey
  · intro hsound
    have hpriorities :
        (run Host.step {} attachLocked).container.facets.map Slot.priority = [5, 10] := by
      decide +kernel
    have hdescending : ((run Host.step {} attachLocked).container.facets.map
        Slot.priority).Pairwise fun p q => q ≤ p :=
      List.pairwise_map.mpr (hsound.ordered.imp fun hab => hab.le)
    rw [hpriorities] at hdescending
    exact absurd hdescending (by decide)

end Locked

end PlexSpaces.Facets
