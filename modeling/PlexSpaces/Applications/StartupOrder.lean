import Mathlib.Data.Finset.Card
import PlexSpaces.Applications.Startup
import PlexSpaces.Lib.Dependency

/-!
# The startup order is right

The graph holds what the configurations say (`Built`).  The search for a cycle finds one that the
application leads to, or leaves all that it needs clear (`hasCycle_correct`), and just what it needs
is collected (`collectDependencies_correct`).

An application is started after exactly what it needs, directly or through others, each after its
own dependencies and itself last; it is refused exactly if it is not loaded, if something that is
loaded depends on something that is not, or if it needs something that needs itself
(`resolveStartupOrder_correct`).  Cycles among other applications do no harm.
-/

namespace PlexSpaces.Applications

open PlexSpaces.Lib

/-! ## The graph -/

/-- The graph holds the dependencies of the applications `done`. -/
structure Built (configs : Configs) (done : List String) (g : DependencyGraph) : Prop where
  graph : ∀ app, g.graph.lookup app =
    if app ∈ done then some (dependencies configs app) else none
  reverse : ∀ app dep, (g.dependents dep).count app =
    if app ∈ done then (dependencies configs app).count dep else 0
  loaded : ∀ app ∈ done, ∀ dep ∈ dependencies configs app, dep ∈ configs

theorem count_foldl_addDependent (app : String) (deps : List String)
    (reverse : Assoc String (List String)) (app' dep : String) :
    (((deps.foldl (addDependent app) reverse).lookup dep).getD []).count app'
      = ((reverse.lookup dep).getD []).count app' + if app' = app then deps.count dep else 0 := by
  induction deps generalizing reverse with
  | nil => simp
  | cons d deps ih =>
      rw [List.foldl_cons, ih, addDependent, Assoc.lookup_insert, List.count_cons]
      by_cases hd : dep = d
      · subst hd
        rw [if_pos rfl, Option.getD_some, List.count_append, List.count_singleton]
        by_cases happ : app' = app
        · subst happ
          simp only [beq_self_eq_true, if_true]
          omega
        · rw [if_neg happ, if_neg happ, if_neg (by simpa using fun h => happ h.symm)]
      · rw [if_neg hd, if_neg (c := (d == dep) = true) (by simpa using fun h => hd h.symm),
          Nat.add_zero]

namespace Built

variable {configs : Configs} {done : List String} {g : DependencyGraph}

theorem nil : Built configs [] ⟨∅, ∅⟩ where
  graph _ := rfl
  reverse _ _ := rfl
  loaded _ h := absurd h List.not_mem_nil

theorem addApplication (h : Built configs done g) {app : String} {spec : ApplicationSpec}
    (hconfig : configs.lookup app = some spec) (hnew : app ∉ done)
    (hloaded : ∀ dep ∈ spec.dependencies, dep ∈ configs) :
    Built configs (done ++ [app]) ⟨g.graph.insert app spec.dependencies,
      spec.dependencies.foldl (addDependent app) g.reverse⟩ := by
  have hdeps : dependencies configs app = spec.dependencies := by
    rw [dependencies, hconfig]
    rfl
  constructor
  case graph =>
    intro app'
    rw [Assoc.lookup_insert]
    by_cases happ : app' = app
    · rw [if_pos happ, happ, hdeps, if_pos (List.mem_append_right _ (List.mem_singleton_self _))]
    · rw [if_neg happ, h.graph]
      simp [happ]
  case reverse =>
    intro app' dep
    rw [DependencyGraph.dependents, count_foldl_addDependent]
    have hreverse := h.reverse app' dep
    rw [DependencyGraph.dependents] at hreverse
    by_cases happ : app' = app
    · rw [hreverse, happ, hdeps, if_neg hnew, if_pos rfl,
        if_pos (List.mem_append_right _ (List.mem_singleton_self _)), Nat.zero_add]
    · rw [hreverse, if_neg happ, Nat.add_zero]
      simp [happ]
  case loaded =>
    intro app' happ' dep hdep
    rcases List.mem_append.mp happ' with happ' | happ'
    · exact h.loaded app' happ' dep hdep
    · rw [List.mem_singleton.mp happ', hdeps] at hdep
      exact hloaded dep hdep

theorem successors_eq (h : Built configs configs.keys g) :
    g.successors = dependencies configs := by
  ext app
  rw [DependencyGraph.successors, h.graph]
  split
  · rfl
  · next hkey =>
    rw [dependencies, AList.lookup_eq_none.mpr hkey]
    rfl

theorem count_dependents (h : Built configs configs.keys g) (app dep : String) :
    (g.dependents dep).count app = (g.successors app).count dep := by
  rw [h.reverse, h.successors_eq]
  split
  · rfl
  · next hkey =>
    rw [dependencies, AList.lookup_eq_none.mpr hkey]
    rfl

theorem mem_keys_of_mem_dependents (h : Built configs configs.keys g) {app dep : String}
    (hmem : app ∈ g.dependents dep) : app ∈ configs := by
  have hpos := List.count_pos_iff.mpr hmem
  rw [h.reverse] at hpos
  split at hpos
  · next hkey => exact hkey
  · exact absurd hpos (Nat.lt_irrefl 0)

theorem mem_of_needs (h : Built configs configs.keys g) {app dep : String}
    (hneeds : Needs (dependencies configs) app dep) : dep ∈ configs := by
  apply h.loaded app ?_ dep hneeds
  by_contra hkey
  rw [Needs, dependencies, AList.lookup_eq_none.mpr hkey] at hneeds
  exact List.not_mem_nil hneeds

end Built

theorem buildDependencyGraph_cases (configs : Configs) :
    (∃ g, buildDependencyGraph configs = .ok g ∧ Built configs configs.keys g) ∨
      ∃ app dep, Needs (dependencies configs) app dep ∧ dep ∉ configs ∧
        buildDependencyGraph configs = .error (notLoaded app dep) := by
  suffices hloop : ∀ rest before g, configs.entries = before ++ rest →
      Built configs (before.map Sigma.fst) g →
      (∃ g', rest.foldlM (addApplication configs) g = .ok g' ∧ Built configs configs.keys g') ∨
        ∃ app dep, Needs (dependencies configs) app dep ∧ dep ∉ configs ∧
          rest.foldlM (addApplication configs) g = .error (notLoaded app dep) from
    hloop configs.entries [] ⟨∅, ∅⟩ rfl Built.nil
  intro rest
  induction rest with
  | nil =>
      intro before g hentries h
      rw [List.append_nil] at hentries
      exact Or.inl ⟨g, rfl, by rw [AList.keys, hentries]; exact h⟩
  | cons entry rest ih =>
      intro before g hentries h
      obtain ⟨app, spec⟩ := entry
      have hconfig : configs.lookup app = some spec :=
        Assoc.lookup_of_mem_entries (e := ⟨app, spec⟩) (hentries ▸ by simp)
      rw [List.foldlM_cons, addApplication]
      cases hfind : spec.dependencies.find? fun dep => dep ∉ configs with
      | some dep =>
          have hmissing : dep ∉ configs := by simpa using List.find?_some hfind
          refine Or.inr ⟨app, dep, ?_, hmissing, rfl⟩
          rw [Needs, dependencies, hconfig]
          exact List.mem_of_find?_eq_some hfind
      | none =>
          have hnew : app ∉ before.map Sigma.fst := by
            have hnodup : (before ++ ⟨app, spec⟩ :: rest).NodupKeys := hentries ▸ configs.nodupKeys
            rw [List.NodupKeys, List.keys, List.map_append, List.map_cons] at hnodup
            exact fun hmem => (List.disjoint_of_nodup_append hnodup) hmem List.mem_cons_self
          have hloaded : ∀ dep ∈ spec.dependencies, dep ∈ configs := by
            intro dep hdep
            simpa using List.find?_eq_none.mp hfind dep hdep
          refine ih (before ++ [⟨app, spec⟩]) _ (by rw [hentries]; simp) ?_
          rw [List.map_append]
          exact h.addApplication hconfig hnew hloaded

/-! ## Search -/

section Search

variable (g : DependencyGraph) (bound : Finset String)

/-- What the search relies on: what it has left is clear, and there is room for what is new. -/
structure Searching (room : Nat) (m : Marks) : Prop where
  stack : m.recStack ⊆ m.visited
  clear : Clear g.successors ↑(m.visited \ m.recStack)
  inside : m.visited ⊆ bound
  room : (bound \ m.visited).card ≤ room

/-- What a search from `node` finds: a cycle that `node` leads to, or that all of `goals` is
clear. -/
def Found (node : String) (goals : List String) (m : Marks) : Option (Bool × Marks) → Prop
  | none => False
  | some (true, _) => ∃ c, Relation.ReflTransGen (Needs g.successors) node c ∧
      Relation.TransGen (Needs g.successors) c c
  | some (false, m') => m.visited ⊆ m'.visited ∧ m'.recStack = m.recStack ∧ m'.visited ⊆ bound ∧
      Clear g.successors ↑(m'.visited \ m.recStack) ∧ ∀ a ∈ goals, a ∈ m'.visited \ m.recStack

variable {g bound}

theorem Found.after {node dep : String} {deps : List String} {m m' : Marks}
    {result : Option (Bool × Marks)} (hvisited : m.visited ⊆ m'.visited)
    (hstack : m'.recStack = m.recStack) (hdep : dep ∈ m'.visited \ m.recStack)
    (h : Found g bound node deps m' result) : Found g bound node (dep :: deps) m result := by
  cases result with
  | none => exact h
  | some r =>
      obtain ⟨found, m''⟩ := r
      cases found with
      | true => exact h
      | false =>
          obtain ⟨hlater, hstack', hinside, hclear, hgoals⟩ := h
          rw [hstack] at hstack' hclear hgoals
          refine ⟨hvisited.trans hlater, hstack', hinside, hclear, fun a ha => ?_⟩
          rcases List.mem_cons.mp ha with rfl | ha
          · exact Finset.sdiff_subset_sdiff hlater (Finset.Subset.refl _) hdep
          · exact hgoals a ha

theorem hasCycleLoop_found {visit : String → Marks → Option (Bool × Marks)} {room : Nat}
    {node : String}
    (hvisit : ∀ dep m, Searching g bound room m → dep ∈ bound → dep ∉ m.visited →
      (∀ a ∈ m.recStack, Relation.TransGen (Needs g.successors) a dep) →
      Found g bound dep [dep] m (visit dep m))
    {deps : List String} (hdeps : ∀ dep ∈ deps, Needs g.successors node dep ∧ dep ∈ bound)
    {m : Marks} (h : Searching g bound room m)
    (hpath : ∀ a ∈ m.recStack, Relation.ReflTransGen (Needs g.successors) a node) :
    Found g bound node deps m (hasCycleLoop visit deps m) := by
  induction deps generalizing m with
  | nil =>
      exact ⟨Finset.Subset.refl _, rfl, h.inside, h.clear, fun a ha => absurd ha List.not_mem_nil⟩
  | cons dep deps ih =>
      obtain ⟨hneeds, hbound⟩ := hdeps dep List.mem_cons_self
      have hrest : ∀ dep ∈ deps, Needs g.successors node dep ∧ dep ∈ bound :=
        fun d hd => hdeps d (List.mem_cons_of_mem _ hd)
      rw [hasCycleLoop]
      by_cases hnew : dep ∉ m.visited
      · rw [if_pos hnew]
        have hfound := hvisit dep m h hbound hnew fun a ha =>
          Relation.TransGen.tail' (hpath a ha) hneeds
        cases hresult : visit dep m with
        | none =>
            rw [hresult] at hfound
            exact hfound
        | some r =>
            obtain ⟨found, m'⟩ := r
            rw [hresult] at hfound
            cases found with
            | true =>
                obtain ⟨c, hreach, hcycle⟩ := hfound
                exact ⟨c, Relation.ReflTransGen.head hneeds hreach, hcycle⟩
            | false =>
                obtain ⟨hlater, hstack, hinside, hclear, hgoals⟩ := hfound
                have hnext : Searching g bound room m' := by
                  constructor
                  · exact hstack ▸ h.stack.trans hlater
                  · exact hstack ▸ hclear
                  · exact hinside
                  · exact (Finset.card_le_card
                      (Finset.sdiff_subset_sdiff (Finset.Subset.refl _) hlater)).trans h.room
                exact (ih hrest hnext (hstack ▸ hpath)).after hlater hstack
                  (hgoals dep List.mem_cons_self)
      · rw [if_neg hnew]
        by_cases hstack : dep ∈ m.recStack
        · rw [if_pos hstack]
          exact ⟨dep, Relation.ReflTransGen.single hneeds,
            Relation.TransGen.tail' (hpath dep hstack) hneeds⟩
        · rw [if_neg hstack]
          exact (ih hrest h hpath).after (Finset.Subset.refl _) rfl
            (Finset.mem_sdiff.mpr ⟨not_not.mp hnew, hstack⟩)

/-- Depth-first search finds a cycle or leaves all that `node` leads to clear. -/
theorem hasCycle_found (hclosed : ∀ a ∈ bound, ∀ b ∈ g.successors a, b ∈ bound) {depth : Nat}
    {node : String} {m : Marks} (h : Searching g bound depth m) (hnode : node ∈ bound)
    (hnew : node ∉ m.visited)
    (hpath : ∀ a ∈ m.recStack, Relation.TransGen (Needs g.successors) a node) :
    Found g bound node [node] m (hasCycle g depth node m) := by
  induction depth generalizing node m with
  | zero =>
      have hcard := h.room
      have hmem : node ∈ bound \ m.visited := Finset.mem_sdiff.mpr ⟨hnode, hnew⟩
      have hpos := Finset.card_pos.mpr ⟨node, hmem⟩
      omega
  | succ depth ih =>
      have hunmarked : node ∉ m.recStack := fun hmem => hnew (h.stack hmem)
      have hopened : Searching g bound depth
          ⟨insert node m.visited, insert node m.recStack⟩ := by
        constructor
        · exact Finset.insert_subset_insert node h.stack
        · have hsame : insert node m.visited \ insert node m.recStack = m.visited \ m.recStack := by
            ext x
            simp only [Finset.mem_sdiff, Finset.mem_insert]
            grind
          exact hsame ▸ h.clear
        · exact Finset.insert_subset hnode h.inside
        · have hless : (bound \ insert node m.visited).card < (bound \ m.visited).card := by
            apply Finset.card_lt_card
            rw [Finset.ssubset_iff_of_subset
              (Finset.sdiff_subset_sdiff (Finset.Subset.refl _) (Finset.subset_insert _ _))]
            exact ⟨node, Finset.mem_sdiff.mpr ⟨hnode, hnew⟩, by simp⟩
          have hroom := h.room
          show (bound \ insert node m.visited).card ≤ depth
          omega
      have hloop : Found g bound node (g.successors node)
          ⟨insert node m.visited, insert node m.recStack⟩ (hasCycleLoop (hasCycle g depth)
            (g.successors node) ⟨insert node m.visited, insert node m.recStack⟩) := by
        apply hasCycleLoop_found (fun dep m' hm hdep hdep' hto => ih hm hdep hdep' hto)
          (fun dep hdep => ⟨hdep, hclosed node hnode dep hdep⟩) hopened
        intro a ha
        rcases Finset.mem_insert.mp ha with rfl | ha
        · exact Relation.ReflTransGen.refl
        · exact (hpath a ha).to_reflTransGen
      rw [hasCycle]
      cases hresult : hasCycleLoop (hasCycle g depth) (g.successors node)
          ⟨insert node m.visited, insert node m.recStack⟩ with
      | none =>
          rw [hresult] at hloop
          exact hloop
      | some r =>
          obtain ⟨found, m'⟩ := r
          rw [hresult] at hloop
          cases found with
          | true => exact hloop
          | false =>
              obtain ⟨hlater, hstack, hinside, hclear, hgoals⟩ := hloop
              dsimp only at hlater hstack hclear hgoals
              have hmem : node ∈ m'.visited := hlater (Finset.mem_insert_self _ _)
              have hclosing : m'.visited \ m.recStack
                  = insert node (m'.visited \ insert node m.recStack) := by
                ext x
                simp only [Finset.mem_sdiff, Finset.mem_insert]
                grind
              refine ⟨(Finset.subset_insert _ _).trans hlater, ?_, hinside, ?_, ?_⟩
              · show m'.recStack.erase node = m.recStack
                rw [hstack, Finset.erase_insert hunmarked]
              · show Clear g.successors ↑(m'.visited \ m.recStack)
                rw [hclosing, Finset.coe_insert]
                apply hclear.insert hgoals
                simp
              · intro a ha
                rw [List.mem_singleton.mp ha]
                exact Finset.mem_sdiff.mpr ⟨hmem, hunmarked⟩

/-- Where no cycle is found there is none, and all that `node` needs is clear. -/
theorem hasCycle_correct (hclosed : ∀ a ∈ bound, ∀ b ∈ g.successors a, b ∈ bound) {depth : Nat}
    {node : String} (hnode : node ∈ bound) (hroom : bound.card ≤ depth) :
    (∃ m, hasCycle g depth node ⟨∅, ∅⟩ = some (true, m) ∧
        ∃ c, Relation.ReflTransGen (Needs g.successors) node c ∧
          Relation.TransGen (Needs g.successors) c c) ∨
      ∃ m, hasCycle g depth node ⟨∅, ∅⟩ = some (false, m) ∧
        m.visited ⊆ bound ∧ node ∈ m.visited ∧ Clear g.successors ↑m.visited := by
  have hstart : Searching g bound depth ⟨∅, ∅⟩ := by
    constructor
    · exact Finset.Subset.refl _
    · simpa using Clear.empty
    · exact Finset.empty_subset _
    · rw [Finset.sdiff_empty]
      exact hroom
  have hfound := hasCycle_found hclosed hstart hnode (Finset.notMem_empty node)
    fun a ha => absurd ha (Finset.notMem_empty a)
  cases hresult : hasCycle g depth node ⟨∅, ∅⟩ with
  | none =>
      rw [hresult] at hfound
      exact hfound.elim
  | some r =>
      obtain ⟨found, m⟩ := r
      rw [hresult] at hfound
      cases found with
      | true => exact Or.inl ⟨m, rfl, hfound⟩
      | false =>
          obtain ⟨-, -, hinside, hclear, hgoals⟩ := hfound
          rw [Finset.sdiff_empty] at hclear
          have hmem := hgoals node (List.mem_singleton_self node)
          exact Or.inr ⟨m, rfl, hinside, (Finset.mem_sdiff.mp hmem).1, hclear⟩

/-- What collecting from `found` adds: all that `name` needs, with what that needs. -/
structure Collected (g : DependencyGraph) (bound : Finset String) (name : String)
    (goals : List String) (found found' : Finset String) : Prop where
  grows : found ⊆ found'
  inside : found' ⊆ bound
  goals : ∀ a ∈ goals, a ∈ found'
  needed : ∀ a ∈ found', a ∉ found → Relation.TransGen (Needs g.successors) name a
  closed : ∀ a ∈ found', a ∉ found → ∀ b ∈ g.successors a, b ∈ found'

theorem collectLoop_collected {visit : String → Finset String → Option (Finset String)}
    {room : Nat} {name : String}
    (hvisit : ∀ dep found, found ⊆ bound → (bound \ found).card < room → dep ∈ bound →
      ∃ found', visit dep found = some found' ∧
        Collected g bound dep (g.successors dep) found found')
    {deps : List String} (hdeps : ∀ dep ∈ deps, Needs g.successors name dep ∧ dep ∈ bound)
    {found : Finset String} (hinside : found ⊆ bound) (hroom : (bound \ found).card ≤ room) :
    ∃ found', collectLoop visit deps found = some found' ∧
      Collected g bound name deps found found' := by
  induction deps generalizing found with
  | nil =>
      refine ⟨found, rfl, Finset.Subset.refl _, hinside, fun a ha => absurd ha List.not_mem_nil,
        fun a ha hnew => absurd ha hnew, fun a ha hnew => absurd ha hnew⟩
  | cons dep deps ih =>
      obtain ⟨hneeds, hbound⟩ := hdeps dep List.mem_cons_self
      have hrest : ∀ dep ∈ deps, Needs g.successors name dep ∧ dep ∈ bound :=
        fun d hd => hdeps d (List.mem_cons_of_mem _ hd)
      rw [collectLoop]
      by_cases hold : dep ∈ found
      · rw [if_pos hold]
        obtain ⟨found', hresult, h⟩ := ih hrest hinside hroom
        refine ⟨found', hresult, h.grows, h.inside, fun a ha => ?_, h.needed, h.closed⟩
        rcases List.mem_cons.mp ha with rfl | ha
        · exact h.grows hold
        · exact h.goals a ha
      · rw [if_neg hold]
        have hopened : insert dep found ⊆ bound := Finset.insert_subset hbound hinside
        have hless : (bound \ insert dep found).card < room := by
          refine lt_of_lt_of_le (Finset.card_lt_card ?_) hroom
          rw [Finset.ssubset_iff_of_subset
            (Finset.sdiff_subset_sdiff (Finset.Subset.refl _) (Finset.subset_insert _ _))]
          exact ⟨dep, Finset.mem_sdiff.mpr ⟨hbound, hold⟩, by simp⟩
        obtain ⟨found₁, hvisited, hfirst⟩ := hvisit dep _ hopened hless hbound
        rw [hvisited]
        have hroom₁ : (bound \ found₁).card ≤ room :=
          (Finset.card_le_card (Finset.sdiff_subset_sdiff (Finset.Subset.refl _)
            hfirst.grows)).trans hless.le
        obtain ⟨found', hresult, hlater⟩ := ih hrest hfirst.inside hroom₁
        refine ⟨found', hresult, ?_, hlater.inside, ?_, ?_, ?_⟩
        · exact (Finset.subset_insert _ _).trans (hfirst.grows.trans hlater.grows)
        · intro a ha
          rcases List.mem_cons.mp ha with rfl | ha
          · exact hlater.grows (hfirst.grows (Finset.mem_insert_self _ _))
          · exact hlater.goals a ha
        · intro a ha hnew
          by_cases hmem : a ∈ found₁
          · by_cases hdep : a = dep
            · exact hdep ▸ Relation.TransGen.single hneeds
            · have hnew' : a ∉ insert dep found := by simp [hdep, hnew]
              exact Relation.TransGen.head hneeds (hfirst.needed a hmem hnew')
          · exact hlater.needed a ha hmem
        · intro a ha hnew b hb
          by_cases hmem : a ∈ found₁
          · apply hlater.grows
            by_cases hdep : a = dep
            · exact hfirst.goals b (hdep ▸ hb)
            · have hnew' : a ∉ insert dep found := by simp [hdep, hnew]
              exact hfirst.closed a hmem hnew' b hb
          · exact hlater.closed a ha hmem b hb

theorem collectDependencies_collected (hclosed : ∀ a ∈ bound, ∀ b ∈ g.successors a, b ∈ bound)
    {depth : Nat} {name : String} {found : Finset String} (hname : name ∈ bound)
    (hinside : found ⊆ bound) (hroom : (bound \ found).card < depth) :
    ∃ found', collectDependencies g depth name found = some found' ∧
      Collected g bound name (g.successors name) found found' := by
  induction depth generalizing name found with
  | zero => exact absurd hroom (Nat.not_lt_zero _)
  | succ depth ih =>
      have hroom' : (bound \ found).card ≤ depth := by omega
      exact collectLoop_collected (fun dep found' hin hless hdep => ih hdep hin hless)
        (fun dep hdep => ⟨hdep, hclosed name hname dep hdep⟩) hinside hroom'

theorem collectDependencies_correct (hclosed : ∀ a ∈ bound, ∀ b ∈ g.successors a, b ∈ bound)
    {depth : Nat} {name : String} (hname : name ∈ bound) (hroom : bound.card < depth) :
    ∃ found, collectDependencies g depth name ∅ = some found ∧
      ∀ a, a ∈ found ↔ Relation.TransGen (Needs g.successors) name a := by
  obtain ⟨found, hresult, h⟩ := collectDependencies_collected hclosed hname
    (Finset.empty_subset bound) (by rw [Finset.sdiff_empty]; exact hroom)
  refine ⟨found, hresult, fun a => ⟨fun ha => h.needed a ha (Finset.notMem_empty a), fun ha => ?_⟩⟩
  induction ha with
  | single hneeds => exact h.goals _ hneeds
  | tail _ hneeds ih => exact h.closed _ ih (Finset.notMem_empty _) _ hneeds

end Search

variable {g : DependencyGraph} {keys : List String}

/-! ## Sorting -/

/-- How many dependencies of `app` are not in the result. -/
def missing (g : DependencyGraph) (result : List String) (app : String) : Nat :=
  (g.successors app).countP fun dep => dep ∉ result

theorem missing_concat {result : List String} {current : String} (hnew : current ∉ result)
    (app : String) : missing g result app
      = missing g (result ++ [current]) app + (g.successors app).count current := by
  unfold missing
  induction g.successors app with
  | nil => rfl
  | cons dep deps ih =>
      have hmem : dep ∉ result ++ [current] ↔ dep ∉ result ∧ dep ≠ current := by simp
      simp only [List.countP_cons, List.count_cons, ih, decide_eq_true_eq, beq_iff_eq, hmem]
      by_cases hdep : dep = current
      · rw [if_pos (hdep ▸ hnew), if_neg fun h => h.2 hdep, if_pos hdep]
        omega
      · simp only [hdep, ne_eq, not_false_eq_true, and_true, if_false]
        omega

theorem missing_eq_zero {result : List String} {app : String} :
    missing g result app = 0 ↔ ∀ dep ∈ g.successors app, dep ∈ result := by
  unfold missing
  rw [List.countP_eq_zero]
  simp

/-- Kahn's algorithm between two steps: the `pending` are still to be told that the last
application of the result is done. -/
structure Sorted (g : DependencyGraph) (keys pending : List String) (k : Sorting) : Prop where
  degree : ∀ app ∈ keys,
    k.inDegree.lookup app = some (missing g k.result app + pending.count app)
  ready : ∀ app, app ∈ k.result ++ k.queue ↔
    app ∈ keys ∧ missing g k.result app + pending.count app = 0
  nodup : (k.result ++ k.queue).Nodup
  ordered : DependsFirst g.successors k.result
  known : ∀ app ∈ pending, app ∈ keys

/-- The degrees of the applications `done` are counted. -/
structure Counted (g : DependencyGraph) (done : List String) (k : Sorting) : Prop where
  degree : ∀ app, k.inDegree.lookup app =
    if app ∈ done then some (g.successors app).length else none
  queue : k.queue = done.filter fun app => (g.successors app).length = 0
  result : k.result = []

theorem Counted.count {done : List String} {k : Sorting} (h : Counted g done k) (app : String) :
    Counted g (done ++ [app]) (k.count g app) where
  degree app' := by
    rw [Sorting.count, Assoc.lookup_insert, h.degree]
    by_cases happ : app' = app
    · simp [happ]
    · simp [happ]
  queue := by
    rw [List.filter_append, ← h.queue]
    by_cases hzero : g.successors app = []
    · simp [Sorting.count, hzero]
    · simp [Sorting.count, hzero]
  result := h.result

theorem counted (g : DependencyGraph) (keys : List String) :
    Counted g keys (keys.foldl (Sorting.count g) ⟨[], ∅, []⟩) := by
  suffices hloop : ∀ rest done k, Counted g done k →
      Counted g (done ++ rest) (rest.foldl (Sorting.count g) k) from
    hloop keys [] _ ⟨fun _ => rfl, rfl, rfl⟩
  intro rest
  induction rest with
  | nil =>
      intro done k h
      rw [List.append_nil]
      exact h
  | cons app rest ih =>
      intro done k h
      have hnext := ih (done ++ [app]) _ (h.count app)
      rw [List.append_assoc, List.singleton_append] at hnext
      exact hnext

theorem Counted.sorted {k : Sorting} (h : Counted g keys k) (hkeys : keys.Nodup) :
    Sorted g keys [] k := by
  have hall (app : String) : missing g k.result app = (g.successors app).length := by
    rw [missing, h.result]
    simp
  constructor
  case degree =>
    intro app happ
    rw [h.degree, if_pos happ, hall, List.count_nil, Nat.add_zero]
  case ready =>
    intro app
    rw [hall, h.result, h.queue, List.nil_append, List.mem_filter]
    simp
  case nodup =>
    rw [h.result, h.queue, List.nil_append]
    exact hkeys.filter _
  case ordered =>
    rw [h.result]
    exact eachAfter_nil
  case known => exact fun app happ => absurd happ List.not_mem_nil

theorem Sorted.release {app : String} {pending : List String} {k : Sorting}
    (h : Sorted g keys (app :: pending) k) :
    ∃ k', k.release app = some k' ∧ k'.result = k.result ∧ Sorted g keys pending k' := by
  have hdegree := h.degree app (h.known app List.mem_cons_self)
  rw [List.count_cons_self, ← Nat.add_assoc] at hdegree
  have hnew : app ∉ k.result ++ k.queue := by
    rw [h.ready app, List.count_cons_self]
    omega
  have hother {other : String} (hne : other ≠ app) :
      (app :: pending).count other = pending.count other :=
    List.count_cons_of_ne (Ne.symm hne)
  rw [Sorting.release, hdegree]
  refine ⟨_, rfl, rfl, ?_, ?_, ?_, h.ordered, fun a ha => h.known a (List.mem_cons_of_mem _ ha)⟩
  · intro other hmem
    rw [Assoc.lookup_insert]
    by_cases hne : other = app
    · rw [if_pos hne, hne]
    · rw [if_neg hne, h.degree other hmem, hother hne]
  · intro other
    have hready := h.ready other
    show other ∈ k.result ++ (if _ then k.queue ++ [app] else k.queue) ↔ _
    by_cases hne : other = app
    · subst hne
      have hknown := h.known other List.mem_cons_self
      split
      · next hzero => simp [hzero, hknown]
      · next hpos => exact ⟨fun hmem => absurd hmem hnew, fun hzero => absurd hzero.2 hpos⟩
    · rw [hother hne] at hready
      rw [← hready]
      split
      · simp [hne]
      · exact Iff.rfl
  · show (k.result ++ (if _ then k.queue ++ [app] else k.queue)).Nodup
    split
    · rw [← List.append_assoc, ← List.concat_eq_append]
      exact h.nodup.concat hnew
    · exact h.nodup

theorem Sorted.releaseAll {pending : List String} {k : Sorting} (h : Sorted g keys pending k) :
    ∃ k', pending.foldlM Sorting.release k = some k' ∧ k'.result = k.result ∧
      Sorted g keys [] k' := by
  induction pending generalizing k with
  | nil => exact ⟨k, rfl, rfl, h⟩
  | cons app pending ih =>
      obtain ⟨k', hreleased, hresult, hsorted⟩ := h.release
      obtain ⟨k'', hrest, hresult', hsorted'⟩ := ih hsorted
      refine ⟨k'', ?_, hresult'.trans hresult, hsorted'⟩
      rw [List.foldlM_cons, hreleased]
      exact hrest

/-- The first of the queue is taken over into the result. -/
theorem Sorted.pop {current : String} {queue : List String} {k : Sorting}
    (h : Sorted g keys [] k) (hqueue : k.queue = current :: queue)
    (hreverse : ∀ app, (g.dependents current).count app = (g.successors app).count current)
    (hknown : ∀ app ∈ g.dependents current, app ∈ keys) :
    Sorted g keys (g.dependents current)
      { k with queue := queue, result := k.result ++ [current] } := by
  have hnodup := h.nodup
  rw [hqueue] at hnodup
  have hnew : current ∉ k.result :=
    fun hmem => (List.disjoint_of_nodup_append hnodup) hmem List.mem_cons_self
  have hsame (app : String) : missing g (k.result ++ [current]) app
      + (g.dependents current).count app = missing g k.result app := by
    rw [missing_concat hnew, hreverse]
  have hzero : missing g k.result current = 0 :=
    ((h.ready current).mp (List.mem_append_right _ (hqueue ▸ List.mem_cons_self))).2
  constructor
  case degree =>
    intro app happ
    rw [h.degree app happ, hsame, List.count_nil, Nat.add_zero]
  case ready =>
    intro app
    have hready := h.ready app
    rw [hqueue, List.count_nil, Nat.add_zero] at hready
    rw [hsame, ← hready]
    simp
  case nodup =>
    show (k.result ++ [current] ++ queue).Nodup
    rw [List.append_assoc, List.singleton_append]
    exact hnodup
  case ordered => exact h.ordered.concat (missing_eq_zero.mp hzero)
  case known => exact hknown

theorem Sorted.process {rounds : Nat} {k : Sorting} (h : Sorted g keys [] k)
    (hreverse : ∀ app dep, (g.dependents dep).count app = (g.successors app).count dep)
    (hknown : ∀ dep, ∀ app ∈ g.dependents dep, app ∈ keys)
    (hrounds : keys.length < rounds + k.result.length) :
    ∃ k', Sorting.process g rounds k = some k'.result ∧ k'.queue = [] ∧ Sorted g keys [] k' := by
  induction rounds generalizing k with
  | zero =>
      have hsubset : k.result ⊆ keys :=
        fun app happ => ((h.ready app).mp (List.mem_append_left _ happ)).1
      have hnodup : k.result.Nodup := (List.nodup_append.mp h.nodup).1
      have hlength := (hnodup.subperm hsubset).length_le
      omega
  | succ rounds ih =>
      rw [Sorting.process]
      cases hqueue : k.queue with
      | nil => exact ⟨k, rfl, hqueue, h⟩
      | cons current queue =>
          obtain ⟨k', hreleased, hresult, hsorted⟩ :=
            (h.pop hqueue (fun app => hreverse app current) (hknown current)).releaseAll
          dsimp only
          rw [hreleased]
          apply ih hsorted
          rw [hresult, List.length_append, List.length_singleton]
          omega

/-- Kahn's algorithm orders all that does not depend on a cycle. -/
theorem topologicalOrder_sorted {configs : Configs}
    (hreverse : ∀ app dep, (g.dependents dep).count app = (g.successors app).count dep)
    (hknown : ∀ dep, ∀ app ∈ g.dependents dep, app ∈ configs.keys) :
    ∃ order, topologicalOrder g configs = some order ∧ order.Nodup ∧
      DependsFirst g.successors order ∧
      ∀ app, app ∈ order ↔ app ∈ configs.keys ∧ ∀ dep ∈ g.successors app, dep ∈ order := by
  have hstart := (counted g configs.keys).sorted configs.keys_nodup
  have hrounds : configs.keys.length < configs.keys.length + 1
      + (configs.keys.foldl (Sorting.count g) ⟨[], ∅, []⟩).result.length := by omega
  obtain ⟨k, hresult, hqueue, h⟩ := hstart.process hreverse hknown hrounds
  have hnodup := h.nodup
  have hready := h.ready
  rw [hqueue, List.append_nil] at hnodup
  refine ⟨k.result, hresult, hnodup, h.ordered, fun app => ?_⟩
  rw [← missing_eq_zero]
  simpa [hqueue] using hready app

/-! ## The order -/

/-- An order to start `name` in. -/
structure StartupOrder (deps : String → List String) (name : String) (order : List String) :
    Prop where
  nodup : order.Nodup
  needed : ∀ app, app ∈ order ↔ Relation.ReflTransGen (Needs deps) name app
  ordered : DependsFirst deps order
  last : order.getLast? = some name

theorem startupOrder_moveToEnd {deps : String → List String} {name : String} {order : List String}
    (hnodup : order.Nodup)
    (hneeded : ∀ app, app ∈ order ↔ Relation.ReflTransGen (Needs deps) name app)
    (hordered : DependsFirst deps order) : StartupOrder deps name (moveToEnd name order) := by
  have hname : name ∈ order := (hneeded name).mpr Relation.ReflTransGen.refl
  obtain ⟨before, after, rfl⟩ := List.append_of_mem hname
  have hafter : after = [] := by
    rw [List.eq_nil_iff_forall_not_mem]
    intro app happ
    have hdisjoint := List.disjoint_of_nodup_append hnodup
    rcases (Relation.reflTransGen_iff_eq_or_transGen.mp ((hneeded app).mp (by simp [happ])))
      with rfl | hneeds
    · exact (List.nodup_cons.mp (List.nodup_append.mp hnodup).2.1).1 happ
    · exact hdisjoint (hordered.mem_before rfl hneeds) (List.mem_cons_of_mem _ happ)
  subst hafter
  have hnew : name ∉ before :=
    fun hmem => (List.disjoint_of_nodup_append hnodup) hmem List.mem_cons_self
  have hsame : moveToEnd name (before ++ [name]) = before ++ [name] := by
    rw [moveToEnd, if_pos hname, List.erase_append_right _ hnew, List.erase_cons_head,
      List.append_nil]
  rw [hsame]
  exact ⟨hnodup, hneeded, hordered, List.getLast?_concat⟩

theorem resolveStartupOrder_built {checked built counted : Configs}
    (hbuilt : ∀ app ∈ checked, app ∈ built) (hcounted : ∀ app ∈ built, app ∈ counted)
    {name : String} (hname : name ∈ checked) (hgraph : buildDependencyGraph built = .ok g)
    (h : Built built built.keys g) :
    ((∃ c, Relation.ReflTransGen (Needs (dependencies built)) name c ∧
        Relation.TransGen (Needs (dependencies built)) c c) ∧
      resolveStartupOrder checked built counted name = some (.error (circular name))) ∨
    (¬∃ c, Relation.ReflTransGen (Needs (dependencies built)) name c ∧
        Relation.TransGen (Needs (dependencies built)) c c) ∧
      ∃ order, resolveStartupOrder checked built counted name = some (.ok order) ∧
        StartupOrder (dependencies built) name order := by
  have hsuccessors := h.successors_eq
  have hclosed : ∀ a ∈ built.keys.toFinset, ∀ b ∈ g.successors a, b ∈ built.keys.toFinset := by
    intro a _ b hb
    rw [hsuccessors] at hb
    exact List.mem_toFinset.mpr (h.mem_of_needs hb)
  have hmem : name ∈ built.keys.toFinset := List.mem_toFinset.mpr (hbuilt name hname)
  have hcard : built.keys.toFinset.card = built.keys.length :=
    List.toFinset_card_of_nodup built.keys_nodup
  rw [resolveStartupOrder, if_neg (not_not.mpr hname), hgraph]
  rw [← hsuccessors]
  rcases hasCycle_correct hclosed hmem hcard.le with ⟨m, hsearch, hcycle⟩ | ⟨m, hsearch, hm⟩
  · refine Or.inl ⟨hcycle, ?_⟩
    dsimp only
    rw [hsearch]
    rfl
  · obtain ⟨hinside, hvisited, hclear⟩ := hm
    refine Or.inr ⟨fun ⟨c, hreach, hcycle⟩ => hclear.no_cycle hvisited hreach hcycle, ?_⟩
    obtain ⟨sorted, hsorted, hnodup, hordered, hready⟩ :=
      topologicalOrder_sorted h.count_dependents
        (fun dep app happ => hcounted app (h.mem_keys_of_mem_dependents happ))
    obtain ⟨found, hcollected, hneeded⟩ :=
      collectDependencies_correct hclosed hmem (Nat.lt_succ_of_le hcard.le)
    have hinclude (app : String) : app ∈ insert name found
        ↔ Relation.ReflTransGen (Needs g.successors) name app := by
      rw [Finset.mem_insert, hneeded, Relation.reflTransGen_iff_eq_or_transGen]
    have hall : ∀ app ∈ m.visited, app ∈ sorted := by
      apply hclear.subset_of_saturated m.visited.finite_toSet
      intro app happ hdeps
      have hkey : app ∈ built.keys := List.mem_toFinset.mp (hinside happ)
      exact (hready app).mpr ⟨hcounted app hkey, hdeps⟩
    refine ⟨moveToEnd name (sorted.filter fun app => app ∈ insert name found), ?_, ?_⟩
    · dsimp only
      rw [hsearch, hsorted, hcollected]
      rfl
    · apply startupOrder_moveToEnd (hnodup.filter _)
      · intro app
        rw [List.mem_filter, decide_eq_true_eq, hinclude]
        exact ⟨And.right, fun hreach => ⟨hall app (hclear.reach hvisited hreach), hreach⟩⟩
      · apply hordered.filter
        intro a ha b hb
        simp only [decide_eq_true_eq, hinclude] at ha ⊢
        exact ha.tail hb

/-- The startup order of an application, for every table of configurations and every order of
iteration, whatever is loaded between the three reads: it is found exactly if the application is
loaded, no loaded application misses a dependency, and the application needs nothing that needs
itself. -/
theorem resolveStartupOrder_correct {checked built counted : Configs}
    (hbuilt : ∀ app ∈ checked, app ∈ built) (hcounted : ∀ app ∈ built, app ∈ counted)
    (name : String) :
    (name ∉ checked →
      resolveStartupOrder checked built counted name = some (.error (.notFound name))) ∧
    (name ∈ checked → (∃ app dep, Needs (dependencies built) app dep ∧ dep ∉ built) →
      ∃ app dep, Needs (dependencies built) app dep ∧ dep ∉ built ∧
        resolveStartupOrder checked built counted name = some (.error (notLoaded app dep))) ∧
    (name ∈ checked → (∀ app dep, Needs (dependencies built) app dep → dep ∈ built) →
      (∃ c, Relation.ReflTransGen (Needs (dependencies built)) name c ∧
        Relation.TransGen (Needs (dependencies built)) c c) →
      resolveStartupOrder checked built counted name = some (.error (circular name))) ∧
    (name ∈ checked → (∀ app dep, Needs (dependencies built) app dep → dep ∈ built) →
      (¬∃ c, Relation.ReflTransGen (Needs (dependencies built)) name c ∧
        Relation.TransGen (Needs (dependencies built)) c c) →
      ∃ order, resolveStartupOrder checked built counted name = some (.ok order) ∧
        StartupOrder (dependencies built) name order) := by
  rcases buildDependencyGraph_cases built with ⟨g, hgraph, h⟩ | ⟨app, dep, hneeds, hdep, hgraph⟩
  · have hloaded : ¬∃ app dep, Needs (dependencies built) app dep ∧ dep ∉ built :=
      fun ⟨_, _, hneeds, hdep⟩ => hdep (h.mem_of_needs hneeds)
    refine ⟨fun hname => if_pos hname, fun _ hmissing => absurd hmissing hloaded, ?_, ?_⟩
    · intro hname _ hcycle
      rcases resolveStartupOrder_built hbuilt hcounted hname hgraph h with hresult | hresult
      · exact hresult.2
      · exact absurd hcycle hresult.1
    · intro hname _ hclear
      rcases resolveStartupOrder_built hbuilt hcounted hname hgraph h with hresult | hresult
      · exact absurd hresult.1 hclear
      · exact hresult.2
  · refine ⟨fun hname => if_pos hname, fun hname _ => ⟨app, dep, hneeds, hdep, ?_⟩, ?_, ?_⟩
    · rw [resolveStartupOrder, if_neg (not_not.mpr hname), hgraph]
    · exact fun _ hloaded => absurd (hloaded app dep hneeds) hdep
    · exact fun _ hloaded => absurd (hloaded app dep hneeds) hdep

def chain : Configs := ((∅ : Configs).insert "b" ⟨[]⟩).insert "a" ⟨["b"]⟩

theorem needs_chain {app dep : String} (h : Needs (dependencies chain) app dep) :
    app = "a" ∧ dep = "b" := by
  rw [Needs, dependencies, chain, Assoc.lookup_insert, Assoc.lookup_insert] at h
  split at h
  · next happ => exact ⟨happ, by simpa using h⟩
  · split at h
    · simp at h
    · simp at h

theorem resolveStartupOrder_correct_chain :
    ∃ order, resolveStartupOrder chain chain chain "a" = some (.ok order) ∧
      StartupOrder (dependencies chain) "a" order := by
  refine (resolveStartupOrder_correct (fun _ h => h) (fun _ h => h) "a").2.2.2 (by decide) ?_ ?_
  · intro app dep h
    rw [(needs_chain h).2]
    decide
  · rintro ⟨c, -, hcycle⟩
    obtain ⟨d, hcd, hdc⟩ := Relation.TransGen.head'_iff.mp hcycle
    obtain ⟨rfl, rfl⟩ := needs_chain hcd
    rcases Relation.reflTransGen_iff_eq_or_transGen.mp hdc with heq | hba
    · exact absurd heq (by decide)
    · obtain ⟨e, hbe, -⟩ := Relation.TransGen.head'_iff.mp hba
      exact absurd (needs_chain hbe).1 (by decide)

end PlexSpaces.Applications
