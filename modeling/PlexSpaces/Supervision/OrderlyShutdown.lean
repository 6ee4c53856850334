import Mathlib.Tactic.Abel
import Mathlib.Tactic.GCongr
import PlexSpaces.Supervision.Shutdown

/-!
# An orderly shutdown

How long the shutdown of a tree takes is decided by the budgets of the root's own children and by
the waits no timeout is set on (`ends_shutdown`); nothing below can prolong it.  What it does comes
in the stop order (`names_shutdown_sublist`), everything the root owes its own children included
(`ownOrder_sublist`), and it does everything just where no nested shutdown has anything left to do
at its deadline (`names_shutdown_eq_iff`).
-/

namespace PlexSpaces.Supervision

open PlexSpaces.Lib Timed

variable {ι : Type}

namespace ShutdownSupervisor

variable (own : ShutdownSupervisor ι)

/-! ## One child -/

theorem ends_unregister (child : ι) (takes : ℕ∞) :
    (own.unregister child takes).ends = own.unregisterWait takes := by
  unfold unregister unregisterWait
  split
  · show takes + 0 = takes
    exact add_zero _
  · rfl

theorem names_unregister {child : ι} {takes : ℕ∞} (h : own.unregisterWait takes ≠ ⊤) :
    (own.unregister child takes).names = own.unregisterMark child := by
  unfold unregisterWait at h
  unfold unregister unregisterMark
  split
  · next hr =>
    rw [if_pos hr] at h
    exact names_andThen_of_ends h _
  · rfl

theorem ends_report (child : ι) (takes : ℕ∞) :
    (own.report child takes).ends = own.reportWait takes := by
  unfold report reportWait
  split
  · show takes + 0 = takes
    exact add_zero _
  · rfl

theorem names_report {child : ι} {takes : ℕ∞} (h : own.reportWait takes ≠ ⊤) :
    (own.report child takes).names = own.reportMark child := by
  unfold reportWait at h
  unfold report reportMark
  split
  · next hr =>
    rw [if_pos hr] at h
    exact names_andThen_of_ends h _
  · rfl

theorem ends_abortHandle (c : ActorShutdownInfo ι) : (abortHandle c).ends = 0 := by
  unfold abortHandle
  split <;> rfl

theorem names_abortHandle (c : ActorShutdownInfo ι) :
    (abortHandle c).names = if c.handle then [.actorAborted c.id] else [] := by
  unfold abortHandle
  split <;> rfl

theorem ends_abortTask (info : SupervisorShutdownInfo ι) : (abortTask info).ends = 0 := by
  unfold abortTask
  split <;> rfl

theorem names_abortTask (info : SupervisorShutdownInfo ι) :
    (abortTask info).names = if info.handle then [.taskAborted info.id] else [] := by
  unfold abortTask
  split <;> rfl

theorem ends_endActor_le (c : ActorShutdownInfo ι) :
    (own.endActor c).ends ≤ own.actorTimeout c := by
  unfold endActor actorTimeout
  cases c.shutdownTimeoutMs with
  | none =>
    show (cut _ _).ends + (abortHandle c).ends ≤ _
    rw [ends_abortHandle, add_zero]
    exact ends_cut_le _ _
  | some ms =>
    cases ms with
    | zero =>
      show (abortHandle c).ends ≤ _
      rw [ends_abortHandle]
      exact zero_le
    | succ ms => exact ends_timeout_le _ _ (ends_abortHandle c)

theorem ends_stop (c : ActorShutdownInfo ι) : (stop c).ends = c.stopTakes := add_zero _

theorem after_stop (c : ActorShutdownInfo ι) : (stop c).After c.stopTakes := after_wait _ _

theorem names_endActor (c : ActorShutdownInfo ι) :
    (own.endActor c).names
      = (if own.StopsInTime c then [.actorStopped c.id] else [])
        ++ if c.handle then [.actorAborted c.id] else [] := by
  rw [← names_abortHandle]
  cases hms : c.shutdownTimeoutMs with
  | none =>
    have hend : own.endActor c = (cut own.safetyTimeout (stop c)).andThen (abortHandle c) := by
      simp [endActor, hms]
    have hbudget : own.actorTimeout c = own.safetyTimeout := by simp [actorTimeout, hms]
    rw [hend, names_andThen_of_ends (ends_cut_ne_top _ _)]
    congr 1
    by_cases hle : c.stopTakes ≤ own.safetyTimeout
    · have hstops : own.StopsInTime c := ⟨by simp [hms], hbudget ▸ hle⟩
      have hends : (stop c).ends ≤ own.safetyTimeout := by rwa [ends_stop]
      rw [cut_of_ends_le hends, if_pos hstops]
      exact names_andThen_of_ends (hle.trans_lt (ENat.natCast_lt_top _)).ne _
    · rw [names_cut_of_after (after_stop c) hle, if_neg fun h => hle (hbudget ▸ h.2)]
  | some ms =>
    cases ms with
    | zero =>
      have hend : own.endActor c = abortHandle c := by simp [endActor, hms]
      rw [hend, if_neg fun h => h.1 hms, List.nil_append]
    | succ ms =>
      have hend : own.endActor c = timeout (fromMillis (ms + 1))
          ((stop c).andThen (abortHandle c)) (abortHandle c) := by simp [endActor, hms]
      have hbudget : own.actorTimeout c = fromMillis (ms + 1) := by simp [actorTimeout, hms]
      have hends : ((stop c).andThen (abortHandle c)).ends = c.stopTakes := by
        rw [ends_andThen, ends_stop, ends_abortHandle, add_zero]
      rw [hend, names_timeout, hends]
      by_cases hle : c.stopTakes ≤ fromMillis (ms + 1)
      · have hstops : own.StopsInTime c := ⟨by simp [hms], hbudget ▸ hle⟩
        have htop := (hle.trans_lt (ENat.natCast_lt_top _)).ne
        rw [if_pos hle, if_pos hstops, cut_of_ends_le (hends.trans_le hle), List.append_nil,
          names_andThen_of_ends ((ends_stop c).trans_ne htop)]
        congr 1
        exact names_andThen_of_ends htop _
      · have hafter : ((stop c).andThen (abortHandle c)).After c.stopTakes :=
          (after_stop c).andThen (ends_stop c).ge _
        rw [names_cut_of_after hafter hle, if_neg hle, if_neg fun h => hle (hbudget ▸ h.2)]

theorem ends_shutdownActor (c : ActorShutdownInfo ι) :
    (own.shutdownActor c).ends = (own.endActor c).ends + own.reportWait c.eventTakes := by
  rw [shutdownActor, ends_andThen, ends_report]

theorem ends_endActor_ne_top (c : ActorShutdownInfo ι) : (own.endActor c).ends ≠ ⊤ :=
  ((own.ends_endActor_le c).trans_lt (ENat.natCast_lt_top _)).ne

theorem names_shutdownActor {c : ActorShutdownInfo ι} (h : own.reportWait c.eventTakes ≠ ⊤) :
    (own.shutdownActor c).names = own.actorOrder c := by
  rw [shutdownActor, names_andThen_of_ends (own.ends_endActor_ne_top c), names_endActor,
    names_report own h]
  rfl

/-- A report that waits for ever is the last thing that is seen, or rather not seen. -/
theorem names_report_sublist (child : ι) (takes : ℕ∞) :
    (own.report child takes).names.Sublist (own.reportMark child) := by
  unfold report reportMark
  split
  · have h := names_andThen_sublist (a := wait takes)
      (b := mark (ShutdownMark.childStopped own.id child))
      (List.Sublist.refl _) (List.Sublist.refl _)
    exact h
  · exact List.Sublist.refl _

theorem names_unregister_sublist (child : ι) (takes : ℕ∞) :
    (own.unregister child takes).names.Sublist (own.unregisterMark child) := by
  unfold unregister unregisterMark
  split
  · have h := names_andThen_sublist (a := wait takes)
      (b := mark (ShutdownMark.unregistered own.id child))
      (List.Sublist.refl _) (List.Sublist.refl _)
    exact h
  · exact List.Sublist.refl _

theorem names_shutdownActor_sublist (c : ActorShutdownInfo ι) :
    (own.shutdownActor c).names.Sublist (own.actorOrder c) :=
  names_andThen_sublist (own.names_endActor c ▸ List.Sublist.refl _) (own.names_report_sublist _ _)

/-! ## The actors of one supervisor -/

theorem ends_unregisterChildren (children : List (ActorShutdownInfo ι)) :
    (own.unregisterChildren children).ends
      = if own.registry then
          own.childrenRead + (children.map fun c => own.unregisterWait c.unregisterTakes).sum
        else 0 := by
  unfold unregisterChildren
  split
  · show own.childrenRead + (inTurn _).ends = _
    rw [ends_inTurn, List.map_map]
    congr 2
    exact List.map_congr_left fun c _ => own.ends_unregister _ _
  · rfl

theorem ends_shutdownActors (children : List (ActorShutdownInfo ι)) :
    (inTurn (children.reverse.map own.shutdownActor)).ends
      = (children.map fun c => (own.endActor c).ends).sum
        + (children.map fun c => own.reportWait c.eventTakes).sum := by
  rw [ends_inTurn, List.map_map, List.map_reverse, List.sum_reverse, ← List.sum_map_add]
  exact congrArg List.sum (List.map_congr_left fun c _ => own.ends_shutdownActor c)

/-- What the actors of a supervisor take beyond the waits no timeout is set on. -/
theorem ends_shutdownChildren (children : List (ActorShutdownInfo ι)) :
    (own.shutdownChildren children).ends
      = own.childrenWait children + (children.map fun c => (own.endActor c).ends).sum := by
  show (own.unregisterChildren children).ends
    + (own.childrenWrite + ((inTurn _).ends + own.childrenClear)) = _
  rw [ends_shutdownActors, ends_unregisterChildren, childrenWait]
  abel

theorem sum_ends_endActor_le (children : List (ActorShutdownInfo ι)) :
    (children.map fun c => (own.endActor c).ends).sum
      ≤ ((children.map own.actorTimeout).sum : Nat) := by
  induction children with
  | nil => exact zero_le
  | cons c children ih =>
    simp only [List.map_cons, List.sum_cons, Nat.cast_add]
    exact add_le_add (own.ends_endActor_le c) ih

theorem names_shutdownChildren_sublist (children : List (ActorShutdownInfo ι)) :
    (own.shutdownChildren children).names.Sublist (own.childrenOrder children) := by
  have hunregister : (own.unregisterChildren children).names.Sublist
      (children.flatMap fun c => own.unregisterMark c.id) := by
    unfold unregisterChildren
    split
    · have h := names_andThen_sublist (a := wait own.childrenRead) (List.Sublist.refl _)
        (names_inTurn_sublist fun c (_ : c ∈ children) =>
          own.names_unregister_sublist c.id c.unregisterTakes)
      exact h
    · exact List.nil_sublist _
  have hturn : (inTurn (children.reverse.map own.shutdownActor)).names.Sublist
      (children.reverse.flatMap own.actorOrder) :=
    names_inTurn_sublist fun c _ => own.names_shutdownActor_sublist c
  have h := names_andThen_sublist hunregister
    (names_andThen_sublist (a := wait own.childrenWrite) (List.Sublist.refl _)
      (names_andThen_sublist (b := wait own.childrenClear) hturn (List.Sublist.refl _)))
  simpa [childrenOrder, shutdownChildren] using h

theorem ne_top_of_mem_sum {α : Type} {f : α → ℕ∞} {l : List α} (h : (l.map f).sum ≠ ⊤) :
    ∀ x ∈ l, f x ≠ ⊤ := by
  intro x hx htop
  exact h (top_le_iff.1 (htop ▸ List.le_sum_of_mem (List.mem_map_of_mem hx)))

theorem names_shutdownChildren {children : List (ActorShutdownInfo ι)}
    (h : own.childrenWait children ≠ ⊤) :
    (own.shutdownChildren children).names = own.childrenOrder children := by
  simp only [childrenWait, ne_eq, ENat.add_eq_top, not_or] at h
  obtain ⟨⟨⟨hunregister, hwrite⟩, hreports⟩, -⟩ := h
  have hreport := ne_top_of_mem_sum hreports
  have hfirst : (own.unregisterChildren children).names
      = children.flatMap fun c => own.unregisterMark c.id := by
    unfold unregisterChildren
    split
    · next hr =>
      rw [if_pos hr, ENat.add_eq_top, not_or] at hunregister
      have hwait := ne_top_of_mem_sum hunregister.2
      show ((wait _).andThen _).names = _
      rw [names_andThen_of_ends hunregister.1, names_wait, List.nil_append, names_inTurn]
      · rw [List.flatMap_map]
        exact List.flatMap_congr fun c hc => own.names_unregister (hwait c hc)
      · intro a ha
        obtain ⟨c, hc, rfl⟩ := List.mem_map.1 ha
        rw [ends_unregister]
        exact hwait c hc
    · next hr => simp [unregisterMark, hr]
  have hends : ∀ a ∈ children.reverse.map own.shutdownActor, a.ends ≠ ⊤ := by
    intro a ha
    obtain ⟨c, hc, rfl⟩ := List.mem_map.1 ha
    rw [ends_shutdownActor, ne_eq, ENat.add_eq_top, not_or]
    exact ⟨own.ends_endActor_ne_top c, hreport c (List.mem_reverse.1 hc)⟩
  have hturn : (inTurn (children.reverse.map own.shutdownActor)).names
      = children.reverse.flatMap own.actorOrder := by
    rw [names_inTurn hends, List.flatMap_map]
    exact List.flatMap_congr fun c hc => own.names_shutdownActor (hreport c (List.mem_reverse.1 hc))
  have hactors : (inTurn (children.reverse.map own.shutdownActor)).ends ≠ ⊤ := by
    rw [ends_shutdownActors, ne_eq, ENat.add_eq_top, not_or]
    exact ⟨((own.sum_ends_endActor_le children).trans_lt (ENat.natCast_lt_top _)).ne, hreports⟩
  have hread : (own.unregisterChildren children).ends ≠ ⊤ := by
    rwa [ends_unregisterChildren]
  calc (own.shutdownChildren children).names
      = (own.unregisterChildren children).names
        ++ ((inTurn (children.reverse.map own.shutdownActor)).andThen
            (wait own.childrenClear)).names := by
        rw [shutdownChildren, names_andThen_of_ends hread, names_andThen_of_ends hwrite,
          names_wait, List.nil_append]
    _ = own.childrenOrder children := by
        rw [names_andThen_of_ends hactors, names_wait, List.append_nil, hfirst, hturn,
          childrenOrder]

end ShutdownSupervisor

namespace ShutdownSupervisor

variable (own : ShutdownSupervisor ι)

/-! ## One child supervisor -/

theorem ends_shutdownSupervisor (info : SupervisorShutdownInfo ι)
    (nested : Timed (ShutdownMark ι)) :
    (own.shutdownSupervisor info nested).ends
      = own.supervisorWait info + (cut (own.supervisorTimeout info)
          ((wait info.lockTakes).andThen nested)).ends := by
  rw [shutdownSupervisor, ends_andThen, ends_andThen, ends_andThen, ends_unregister,
    ends_abortTask, ends_report, supervisorWait]
  abel

theorem names_shutdownSupervisor_sublist (info : SupervisorShutdownInfo ι)
    {nested : Timed (ShutdownMark ι)} {order : List (ShutdownMark ι)}
    (h : nested.names.Sublist order) :
    (own.shutdownSupervisor info nested).names.Sublist (own.supervisorOrder info order) := by
  have hlock : ((wait info.lockTakes).andThen nested).names.Sublist order := by
    have hafter := names_andThen_sublist (a := wait info.lockTakes) (List.Sublist.refl _) h
    exact hafter
  have hcut := (names_cut_initial (own.supervisorTimeout info)
    ((wait info.lockTakes).andThen nested)).sublist.trans hlock
  have habort : (abortTask info).names.Sublist
      (if info.handle then [.taskAborted info.id] else []) := by
    rw [names_abortTask]
  have hall := names_andThen_sublist (own.names_unregister_sublist info.id info.unregisterTakes)
    (names_andThen_sublist habort
      (names_andThen_sublist hcut (own.names_report_sublist info.id info.eventTakes)))
  simpa [supervisorOrder, shutdownSupervisor] using hall

theorem names_shutdownSupervisor {info : SupervisorShutdownInfo ι}
    (h : own.supervisorWait info ≠ ⊤) (nested : Timed (ShutdownMark ι)) :
    (own.shutdownSupervisor info nested).names
      = own.supervisorOrder info (cut (own.supervisorTimeout info)
          ((wait info.lockTakes).andThen nested)).names := by
  rw [supervisorWait, ne_eq, ENat.add_eq_top, not_or] at h
  have hunregister : (own.unregister info.id info.unregisterTakes).ends ≠ ⊤ :=
    (own.ends_unregister _ _).trans_ne h.1
  have habort : (abortTask info).ends ≠ ⊤ := (ends_abortTask info).trans_ne ENat.zero_ne_top
  rw [shutdownSupervisor, names_andThen_of_ends hunregister, names_andThen_of_ends habort,
    names_andThen_of_ends (ends_cut_ne_top _ _), own.names_unregister h.1, names_abortTask,
    own.names_report h.2, supervisorOrder]
  simp only [List.append_assoc]

theorem supervisorOrder_inj {info : SupervisorShutdownInfo ι} {l r : List (ShutdownMark ι)} :
    own.supervisorOrder info l = own.supervisorOrder info r ↔ l = r := by
  simp [supervisorOrder]

theorem supervisorOrder_sublist {info : SupervisorShutdownInfo ι} {l r : List (ShutdownMark ι)}
    (h : l.Sublist r) : (own.supervisorOrder info l).Sublist (own.supervisorOrder info r) :=
  ((List.Sublist.refl _).append h).append (List.Sublist.refl _)

end ShutdownSupervisor

/-! ## The child supervisors of one supervisor -/

namespace SupervisorForest

variable (own : ShutdownSupervisor ι)

theorem ownWait_le_ends : ∀ forest : SupervisorForest ι,
    forest.ownWait own ≤ (forest.shutdownReversed own).ends
  | .nil => le_rfl
  | .cons info supervisor rest => by
      show _ + _ ≤ (rest.shutdownReversed own).ends + (own.shutdownSupervisor info _).ends
      rw [own.ends_shutdownSupervisor]
      exact add_le_add (ownWait_le_ends rest) le_self_add

theorem ends_le : ∀ forest : SupervisorForest ι,
    (forest.shutdownReversed own).ends ≤ forest.ownWait own + (forest.allowance own : Nat)
  | .nil => zero_le
  | .cons info supervisor rest => by
      have hcut := ends_cut_le (own.supervisorTimeout info)
        ((wait info.lockTakes).andThen supervisor.shutdown)
      calc (rest.shutdownReversed own).ends + (own.shutdownSupervisor info supervisor.shutdown).ends
          ≤ (rest.ownWait own + (rest.allowance own : Nat))
            + (own.supervisorWait info + (own.supervisorTimeout info : Nat)) := by
            rw [own.ends_shutdownSupervisor]
            exact add_le_add (ends_le rest) (add_le_add_right hcut _)
        _ = _ := by
            simp only [ownWait, allowance, Nat.cast_add]
            abel

theorem names_shutdownReversed : ∀ {forest : SupervisorForest ι}, forest.ownWait own ≠ ⊤ →
    (forest.shutdownReversed own).names = forest.droppedOrder own
  | .nil, _ => rfl
  | .cons info supervisor rest, h => by
      rw [ownWait, ne_eq, ENat.add_eq_top, not_or] at h
      have hends : (rest.shutdownReversed own).ends ≠ ⊤ := by
        have hle := ends_le own rest
        have htop : rest.ownWait own + (rest.allowance own : Nat) ≠ ⊤ := by
          rw [ne_eq, ENat.add_eq_top, not_or]
          exact ⟨h.1, ENat.natCast_ne_top _⟩
        exact (hle.trans_lt htop.lt_top).ne
      show ((rest.shutdownReversed own).andThen _).names = _
      rw [names_andThen_of_ends hends, names_shutdownReversed h.1,
        own.names_shutdownSupervisor h.2]
      rfl

theorem ownOrder_sublist : ∀ forest : SupervisorForest ι,
    (forest.ownOrder own).Sublist (forest.droppedOrder own)
  | .nil => List.Sublist.refl _
  | .cons _ _ rest =>
      (ownOrder_sublist rest).append (own.supervisorOrder_sublist (List.nil_sublist _))

end SupervisorForest

/-! ## The tree -/

mutual

theorem SupervisorTree.names_shutdown_sublist : ∀ tree : SupervisorTree ι,
    tree.shutdown.names.Sublist tree.stopOrder
  | .node own childSupervisors children => by
      have h := names_andThen_sublist (a := wait own.childSupervisorsWrite) (List.Sublist.refl _)
        (names_andThen_sublist (childSupervisors.names_shutdownReversed_sublist own)
          (own.names_shutdownChildren_sublist children))
      exact h

theorem SupervisorForest.names_shutdownReversed_sublist (own : ShutdownSupervisor ι) :
    ∀ forest : SupervisorForest ι,
      (forest.shutdownReversed own).names.Sublist (forest.stopOrder own)
  | .nil => List.Sublist.refl _
  | .cons info supervisor rest =>
      names_andThen_sublist (rest.names_shutdownReversed_sublist own)
        (own.names_shutdownSupervisor_sublist info supervisor.names_shutdown_sublist)

end

namespace SupervisorTree

theorem ownWait_le_ends : ∀ tree : SupervisorTree ι, tree.ownWait ≤ tree.shutdown.ends
  | .node own childSupervisors children => by
      show own.childSupervisorsWrite + childSupervisors.ownWait own + own.childrenWait children
        ≤ own.childSupervisorsWrite + ((childSupervisors.shutdownReversed own).ends
          + (own.shutdownChildren children).ends)
      rw [own.ends_shutdownChildren, add_assoc]
      exact add_le_add_right
        (add_le_add (childSupervisors.ownWait_le_ends own) le_self_add) _

theorem ends_le : ∀ tree : SupervisorTree ι,
    tree.shutdown.ends ≤ tree.ownWait + (tree.allowance : Nat)
  | .node own childSupervisors children => by
      calc own.childSupervisorsWrite + ((childSupervisors.shutdownReversed own).ends
            + (own.shutdownChildren children).ends)
          ≤ own.childSupervisorsWrite
            + ((childSupervisors.ownWait own + (childSupervisors.allowance own : Nat))
              + (own.childrenWait children + ((children.map own.actorTimeout).sum : Nat))) := by
            rw [own.ends_shutdownChildren]
            exact add_le_add_right (add_le_add (childSupervisors.ends_le own)
              (add_le_add_right (own.sum_ends_endActor_le children) _)) _
        _ = _ := by
            simp only [ownWait, allowance, Nat.cast_add]
            abel

theorem names_shutdown : ∀ {tree : SupervisorTree ι}, tree.ownWait ≠ ⊤ →
    tree.shutdown.names = tree.droppedOrder
  | .node own childSupervisors children, h => by
      simp only [ownWait, ne_eq, ENat.add_eq_top, not_or] at h
      obtain ⟨⟨hwrite, hsupervisors⟩, hchildren⟩ := h
      have hends : (childSupervisors.shutdownReversed own).ends ≠ ⊤ := by
        have htop : childSupervisors.ownWait own + (childSupervisors.allowance own : Nat) ≠ ⊤ := by
          rw [ne_eq, ENat.add_eq_top, not_or]
          exact ⟨hsupervisors, ENat.natCast_ne_top _⟩
        exact ((childSupervisors.ends_le own).trans_lt htop.lt_top).ne
      show ((wait _).andThen ((childSupervisors.shutdownReversed own).andThen _)).names = _
      rw [names_andThen_of_ends hwrite, names_wait, List.nil_append, names_andThen_of_ends hends,
        childSupervisors.names_shutdownReversed own hsupervisors,
        own.names_shutdownChildren hchildren]
      rfl

theorem ownOrder_sublist : ∀ tree : SupervisorTree ι, tree.ownOrder.Sublist tree.droppedOrder
  | .node own childSupervisors _ =>
      (childSupervisors.ownOrder_sublist own).append (List.Sublist.refl _)

theorem WaitsEnd.ownWait_ne_top : ∀ {tree : SupervisorTree ι}, tree.WaitsEnd → tree.ownWait ≠ ⊤
  | .node _ _ _, h => h.1

end SupervisorTree

/-- Two parts that are each part of something are all of it together only if each of them is. -/
theorem append_eq_append_iff_of_sublist {α : Type} {a b a' b' : List α} (ha : a.Sublist a')
    (hb : b.Sublist b') : a ++ b = a' ++ b' ↔ a = a' ∧ b = b' := by
  constructor
  · intro h
    have hlen := congrArg List.length h
    simp only [List.length_append] at hlen
    have hale := ha.length_le
    have hble := hb.length_le
    exact ⟨ha.eq_of_length (by omega), hb.eq_of_length (by omega)⟩
  · rintro ⟨rfl, rfl⟩
    rfl

theorem SupervisorTree.names_nested_sublist (supervisor : SupervisorTree ι)
    (info : SupervisorShutdownInfo ι) :
    (info.nested supervisor).names.Sublist supervisor.stopOrder := by
  have h := names_andThen_sublist (a := wait info.lockTakes) (List.Sublist.refl _)
    supervisor.names_shutdown_sublist
  exact h

theorem SupervisorForest.droppedOrder_sublist (own : ShutdownSupervisor ι) :
    ∀ forest : SupervisorForest ι, (forest.droppedOrder own).Sublist (forest.stopOrder own)
  | .nil => List.Sublist.refl _
  | .cons info supervisor rest => by
      have hcut := (names_cut_initial (own.supervisorTimeout info) (info.nested supervisor)).sublist
      exact (rest.droppedOrder_sublist own).append
        (own.supervisorOrder_sublist (hcut.trans (supervisor.names_nested_sublist info)))

mutual

theorem SupervisorTree.droppedOrder_eq_iff : ∀ {tree : SupervisorTree ι}, tree.WaitsEnd →
    (tree.droppedOrder = tree.stopOrder ↔ tree.InTime)
  | .node own childSupervisors children, h => by
      have hforest := childSupervisors.droppedOrder_eq_iff own h.2
      show _ ++ _ = _ ++ _ ↔ childSupervisors.InTime own
      rw [List.append_cancel_right_eq, hforest]

theorem SupervisorForest.droppedOrder_eq_iff (own : ShutdownSupervisor ι) :
    ∀ (forest : SupervisorForest ι), forest.WaitsEnd →
      (forest.droppedOrder own = forest.stopOrder own ↔ forest.InTime own)
  | .nil, _ => ⟨fun _ => trivial, fun _ => rfl⟩
  | .cons info supervisor rest, h => by
      obtain ⟨hrest, hlock, hsupervisor⟩ := h
      have hnested : (info.nested supervisor).names = supervisor.shutdown.names :=
        names_andThen_of_ends hlock _
      have hcut := (names_cut_initial (own.supervisorTimeout info) (info.nested supervisor)).sublist
      have hall := supervisor.names_shutdown_sublist
      have hpart : (cut (own.supervisorTimeout info) (info.nested supervisor)).names
          = supervisor.stopOrder
          ↔ (info.nested supervisor).By (own.supervisorTimeout info) ∧ supervisor.InTime := by
        rw [← names_cut_eq_iff, ← supervisor.droppedOrder_eq_iff hsupervisor,
          ← SupervisorTree.names_shutdown hsupervisor.ownWait_ne_top, hnested]
        rw [hnested] at hcut
        constructor
        · intro heq
          -- the names lie between the part that was left in time and the whole
          have hshut := hall.antisymm (heq ▸ hcut)
          exact ⟨heq.trans hshut.symm, hshut⟩
        · exact fun h => h.1.trans h.2
      calc rest.droppedOrder own ++ own.supervisorOrder info
            (cut (own.supervisorTimeout info) (info.nested supervisor)).names
          = rest.stopOrder own ++ own.supervisorOrder info supervisor.stopOrder
          ↔ rest.droppedOrder own = rest.stopOrder own
            ∧ own.supervisorOrder info
                (cut (own.supervisorTimeout info) (info.nested supervisor)).names
              = own.supervisorOrder info supervisor.stopOrder :=
            append_eq_append_iff_of_sublist (rest.droppedOrder_sublist own)
              (own.supervisorOrder_sublist (hcut.trans (hnested ▸ hall)))
        _ ↔ rest.InTime own ∧ (info.nested supervisor).By (own.supervisorTimeout info)
            ∧ supervisor.InTime := by
            rw [rest.droppedOrder_eq_iff own hrest, own.supervisorOrder_inj, hpart]

end

end PlexSpaces.Supervision
