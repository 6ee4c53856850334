import PlexSpaces.Lib.Assoc
import PlexSpaces.Lib.Forest
import PlexSpaces.Lib.Run
/-!
# Parents and children

The registry keeps the supervision tree in two maps, from a parent to its children and
from a child to its parent.  Every operation edits both.  An old parent that unregisters a
child which has moved on takes it out of its own list and takes away the new parent's
entry for it; that, and nothing else, parts the two maps (`forest_iff`).
-/

namespace PlexSpaces.Actors

open PlexSpaces.Lib

structure ParentChild where
  parentToChildren : Assoc String (List String)
  childToParent : Assoc String String

namespace ParentChild

def empty : ParentChild := ⟨∅, ∅⟩

/-- A child comes out of the list of a parent, and an empty list out of the map. -/
def removeFrom (m : Assoc String (List String)) (parent child : String) :
    Assoc String (List String) :=
  match m.lookup parent with
  | some children =>
      let kept := children.filter (· ≠ child)
      if kept = [] then m.erase parent else m.insert parent kept
  | none => m

/-- The first block of `register_parent_child`: the child leaves the parent that it has. -/
def leaveOldParent (s : ParentChild) (child : String) : Assoc String (List String) :=
  match s.childToParent.lookup child with
  | some oldParent => removeFrom s.parentToChildren oldParent child
  | none => s.parentToChildren

def registerParentChild (s : ParentChild) (parent child : String) : ParentChild :=
  let removed := s.leaveOldParent child
  { parentToChildren := removed.insert parent (((removed.lookup parent).getD []) ++ [child])
    childToParent := s.childToParent.insert child parent }

def unregisterParentChild (s : ParentChild) (parent child : String) : ParentChild where
  parentToChildren := removeFrom s.parentToChildren parent child
  childToParent := s.childToParent.erase child

/-- What `unregister_with_cleanup` does to the two maps. -/
def unregisterWithCleanup (s : ParentChild) (actor : String) : ParentChild where
  parentToChildren :=
    (s.parentToChildren.mapValues fun children => children.filter (· ≠ actor)).retain
      fun _ children => children ≠ []
  childToParent := s.childToParent.erase actor

def getChildren (s : ParentChild) (parent : String) : List String :=
  (s.parentToChildren.lookup parent).getD []

def getParent (s : ParentChild) (child : String) : Option String := s.childToParent.lookup child

/-- `get_subtree`, of at most `fuel` turns of its loop. -/
def getSubtree (s : ParentChild) (fuel : Nat) (root : String) : Option (List String) :=
  Forest.walk s.getChildren fuel [root] []

inductive Op
  | registerParentChild (parent child : String)
  | unregisterParentChild (parent child : String)
  | unregisterWithCleanup (actor : String)

def step (s : ParentChild) : Op → ParentChild
  | .registerParentChild parent child => s.registerParentChild parent child
  | .unregisterParentChild parent child => s.unregisterParentChild parent child
  | .unregisterWithCleanup actor => s.unregisterWithCleanup actor

/-- The maps are inverse to each other without duplicates, and from every root the subtree is found
after finitely many turns: the proper descendants, each once, level by level. -/
def IsForest (s : ParentChild) : Prop :=
  Mirrors s.getChildren s.getParent ∧
    ∀ root, ∃ h turns, (∀ fuel, turns ≤ fuel →
        s.getSubtree fuel root = some (Forest.levels s.getChildren root h)) ∧
      (Forest.levels s.getChildren root h).Nodup ∧
      ∀ x, x ∈ Forest.levels s.getChildren root h ↔ Forest.Descendant s.getParent root x

def NoOwnAncestor (s : ParentChild) : Op → Prop
  | .registerParentChild parent child =>
      Forest.Acyclic (s.registerParentChild parent child).getParent
  | _ => True

def FromParent (s : ParentChild) : Op → Prop
  | .unregisterParentChild parent child => ∀ p ∈ s.getParent child, p = parent
  | _ => True

variable {s : ParentChild}

/-! ## What the operations do to a list of children and to a parent -/

theorem lookup_removeFrom (m : Assoc String (List String)) (parent child p : String) :
    ((removeFrom m parent child).lookup p).getD [] =
      if p = parent then ((m.lookup p).getD []).filter (· ≠ child) else (m.lookup p).getD [] := by
  rw [removeFrom]
  split
  · next children hfound =>
      dsimp only
      split_ifs with hkept hp hp
      · subst hp
        rw [Assoc.lookup_erase, if_pos rfl, hfound, Option.getD_some, hkept, Option.getD_none]
      · rw [Assoc.lookup_erase, if_neg hp]
      · subst hp
        rw [Assoc.lookup_insert_self, hfound, Option.getD_some, Option.getD_some]
      · rw [Assoc.lookup_insert_of_ne m _ hp]
  · next hfound =>
      split_ifs with hp
      · subst hp
        rw [hfound]
        rfl
      · rfl

theorem getChildren_unregisterParentChild (parent child p : String) :
    (s.unregisterParentChild parent child).getChildren p =
      if p = parent then (s.getChildren p).filter (· ≠ child) else s.getChildren p :=
  lookup_removeFrom ..

theorem getParent_unregisterParentChild (parent child c : String) :
    (s.unregisterParentChild parent child).getParent c =
      if c = child then none else s.getParent c :=
  Assoc.lookup_erase ..

theorem getChildren_unregisterWithCleanup (actor p : String) :
    (s.unregisterWithCleanup actor).getChildren p = (s.getChildren p).filter (· ≠ actor) := by
  rw [getChildren, unregisterWithCleanup, Assoc.lookup_retain, Assoc.lookup_mapValues, getChildren]
  cases s.parentToChildren.lookup p with
  | none => rfl
  | some children =>
      rw [Option.map_some, Option.getD_some, Option.filter_some]
      split_ifs with hkept
      · rfl
      · have hnil : children.filter (· ≠ actor) = [] := by
          by_contra hne
          exact hkept (decide_eq_true hne)
        rw [hnil]
        rfl

theorem getParent_unregisterWithCleanup (actor c : String) :
    (s.unregisterWithCleanup actor).getParent c = if c = actor then none else s.getParent c :=
  Assoc.lookup_erase ..

theorem getParent_registerParentChild (parent child c : String) :
    (s.registerParentChild parent child).getParent c =
      if c = child then some parent else s.getParent c :=
  Assoc.lookup_insert ..

/-! ## On a forest -/

/-- Two maps that mirror each other, without a cycle. -/
structure Sound (s : ParentChild) : Prop where
  mirrors : Mirrors s.getChildren s.getParent
  acyclic : Forest.Acyclic s.getParent

theorem Sound.isForest (h : s.Sound) : s.IsForest :=
  ⟨h.mirrors, fun root => Forest.walk_spec h.mirrors h.acyclic s.childToParent.keys
    (fun _ _ hparent => AList.lookup_isSome.mp (Option.isSome_of_eq_some hparent)) root⟩

theorem Sound.detach (h : s.Sound) {s' : ParentChild} {child : String}
    (hchildren : ∀ p, s'.getChildren p = (s.getChildren p).filter (· ≠ child))
    (hparents : ∀ c, s'.getParent c = if c = child then none else s.getParent c) : s'.Sound where
  mirrors := by
    have hupdate : s'.getParent = Function.update s.getParent child none := by
      funext c
      rw [hparents, Function.update_apply]
    rw [funext hchildren, hupdate]
    exact h.mirrors.detach child
  acyclic := h.acyclic.mono fun c p hc => by
    rw [hparents] at hc
    split_ifs at hc
    exact hc

theorem lookup_leaveOldParent (hm : Mirrors s.getChildren s.getParent) (child p : String) :
    ((s.leaveOldParent child).lookup p).getD [] = (s.getChildren p).filter (· ≠ child) := by
  have hself : s.getParent child ≠ some p →
      (s.getChildren p).filter (· ≠ child) = s.getChildren p := hm.filter_eq_self
  rw [getParent] at hself
  rw [leaveOldParent]
  split
  · next oldParent hold =>
      rw [lookup_removeFrom]
      split_ifs with hp
      · rfl
      · rw [hself fun h => hp (Option.some.inj (hold.symm.trans h)).symm]
        rfl
  · next hold =>
      rw [hself fun h => Option.some_ne_none p (h.symm.trans hold)]
      rfl

/-- A registration takes the child away from the parent that it has and gives it to another. -/
theorem registerParentChild_mirrors (hm : Mirrors s.getChildren s.getParent)
    (parent child : String) :
    Mirrors (s.registerParentChild parent child).getChildren
      (s.registerParentChild parent child).getParent := by
  let kept := fun p => (s.getChildren p).filter (· ≠ child)
  have hchildren : (s.registerParentChild parent child).getChildren =
      Function.update kept parent (kept parent ++ [child]) := by
    funext p
    rw [getChildren, registerParentChild]
    dsimp only
    rw [Assoc.lookup_insert, lookup_leaveOldParent hm, Function.update_apply]
    split_ifs
    · rfl
    · exact lookup_leaveOldParent hm child p
  have hparents : (s.registerParentChild parent child).getParent =
      Function.update (Function.update s.getParent child none) child (some parent) := by
    funext c
    rw [Function.update_idem, Function.update_apply, getParent_registerParentChild]
  rw [hchildren, hparents]
  exact (hm.detach child).attach (Function.update_self ..) parent

theorem Sound.step {op : Op} (h : s.Sound) (hown : s.NoOwnAncestor op)
    (hparent : s.FromParent op) : (s.step op).Sound := by
  cases op with
  | registerParentChild parent child =>
      exact ⟨registerParentChild_mirrors h.mirrors parent child, hown⟩
  | unregisterParentChild parent child =>
      refine h.detach (fun p => ?_) (getParent_unregisterParentChild parent child)
      rw [ParentChild.step, getChildren_unregisterParentChild]
      split_ifs with hp
      · rfl
      · exact (h.mirrors.filter_eq_self fun hold => hp (hparent p hold)).symm
  | unregisterWithCleanup actor =>
      exact h.detach (getChildren_unregisterWithCleanup actor)
        (getParent_unregisterWithCleanup actor)

theorem empty_sound : empty.Sound where
  mirrors := ⟨fun _ _ => ⟨fun h => (List.not_mem_nil h).elim, fun h => by cases h⟩,
    fun _ => List.nodup_nil⟩
  acyclic := Forest.acyclic_of_rank (fun _ => 0) fun _ _ h => by cases h

/-- Where the maps still mirror each other after a child was unregistered, it had no other
parent. -/
theorem fromParent_of_mirrors {op : Op} (hm : Mirrors s.getChildren s.getParent)
    (hafter : Mirrors (s.step op).getChildren (s.step op).getParent) : s.FromParent op := by
  cases op with
  | registerParentChild => trivial
  | unregisterWithCleanup => trivial
  | unregisterParentChild parent child =>
      intro p hp
      by_contra hne
      have hlisted : child ∈ (s.step (.unregisterParentChild parent child)).getChildren p := by
        rw [ParentChild.step, getChildren_unregisterParentChild, if_neg hne]
        exact (hm.inverse p child).mpr hp
      rw [hafter.inverse, ParentChild.step, getParent_unregisterParentChild, if_pos rfl] at hlisted
      cases hlisted

/-- In a run whose registrations make no actor its own ancestor, the maps are a forest in every
state reached if and only if every child is unregistered from the parent that it has. -/
theorem forest_iff (ops : List Op) (hown : Along step NoOwnAncestor empty ops) :
    Along step (fun s op => (s.step op).IsForest) empty ops ↔ Along step FromParent empty ops := by
  refine hown.congr (fun s op hs hown => ?_) (fun s op hs hown hforest => ?_) empty_sound
  · constructor
    · exact fun hforest => fromParent_of_mirrors hs.mirrors hforest.1
    · exact fun hfrom => (hs.step hown hfrom).isForest
  · exact hs.step hown (fromParent_of_mirrors hs.mirrors hforest.1)

def moved : List Op := [.registerParentChild "p1" "c", .registerParentChild "p2" "c"]

theorem noOwnAncestor_moved (parent : String) :
    Along step NoOwnAncestor empty (moved ++ [.unregisterParentChild parent "c"]) := by
  let rank := fun x => if x = "c" then 1 else 0
  refine ⟨Forest.acyclic_of_rank rank fun c p hc => ?_,
    Forest.acyclic_of_rank rank fun c p hc => ?_, trivial, trivial⟩
  · rw [getParent_registerParentChild] at hc
    split_ifs at hc with hchild
    · cases hc
      cases hchild
      decide
    · cases hc
  · rw [getParent_registerParentChild, step, getParent_registerParentChild] at hc
    split_ifs at hc with hchild
    · cases hc
      cases hchild
      decide
    · cases hc

theorem forest_iff_moved :
    Along step (fun s op => (s.step op).IsForest) empty
        (moved ++ [.unregisterParentChild "p2" "c"]) ↔
      Along step FromParent empty (moved ++ [.unregisterParentChild "p2" "c"]) :=
  forest_iff _ (noOwnAncestor_moved "p2")

/-- The old parent unregisters a child that has moved to another parent. -/
theorem not_forest :
    ¬∀ ops, Along step NoOwnAncestor empty ops →
      Along step (fun s op => (s.step op).IsForest) empty ops := by
  intro h
  have hforest := (h _ (noOwnAncestor_moved "p1")).2.2.1.1
  have hparent := (hforest.inverse "p2" "c").mp (by decide)
  revert hparent
  decide

end ParentChild

end PlexSpaces.Actors
