import PlexSpaces.Lib.Assoc
import PlexSpaces.Supervision.ExitPropagation
/-!
# Death propagation

When an actor terminates, those who monitor it get a DOWN message, its linked actors an
EXIT message if it failed, and it disappears from the tables.  Whether it failed is read
off the first link of the exit reason, and a kill is not taken for a failure: the linked
actors hear of the right deaths only where that does not matter
(`termination_announced_iff`).
-/

namespace PlexSpaces.Supervision

open PlexSpaces.Lib

variable {ι κ : Type}

namespace ExitReason

def isError : ExitReason ι → Bool
  | .error _ | .linked _ _ => true
  | _ => false

def toHeader [ToString ι] : ExitReason ι → String
  | .normal => "normal"
  | .shutdown => "shutdown"
  | .killed => "killed"
  | .error message => message
  | .linked actorId reason =>
      let inner := match reason with
        | .normal => "normal"
        | .shutdown => "shutdown"
        | .killed => "killed"
        | .error message => message
        | .linked _ _ => "linked"
      s!"linked:{actorId}:{inner}"

/-- The chain of links ends in an error or a kill. -/
def RootFails (r : ExitReason ι) : Prop := r.rootKind = .error ∨ r.rootKind = .killed

instance (r : ExitReason ι) : Decidable r.RootFails := inferInstanceAs (Decidable (_ ∨ _))

/-- The reason is no kill, and if it is a link, its chain ends in an error or a kill. -/
def Plain : ExitReason ι → Prop
  | .killed => False
  | .linked _ reason => reason.RootFails
  | _ => True

theorem isError_iff (r : ExitReason ι) : (r.isError = true ↔ r.RootFails) ↔ r.Plain := by
  cases r with
  | normal => simp [isError, RootFails, rootKind, root, toProto, Plain]
  | shutdown => simp [isError, RootFails, rootKind, root, toProto, Plain]
  | killed => simp [isError, RootFails, rootKind, root, toProto, Plain]
  | error message => simp [isError, RootFails, rootKind, root, toProto, Plain]
  | linked actorId reason => exact ⟨fun h => h.mp rfl, fun h => ⟨fun _ => h, fun _ => rfl⟩⟩

end ExitReason

structure MonitorLink (ι κ : Type) where
  monitorRef : String
  monitoringActorId : ι
  monitoringContext : κ

structure Message where
  senderId : String
  messageType : String
  headers : List (String × String)
  deriving DecidableEq

/-- A message and where it is sent, with the request context of the send. -/
structure Delivery (ι κ : Type) where
  context : κ
  recipient : ι
  message : Message

def createDownMessage [ToString ι] (terminated : ι) (monitorRef reason : String) : Message where
  senderId := toString terminated
  messageType := "__DOWN__"
  headers := [("type", "__DOWN__"), ("down_from", toString terminated),
    ("monitor_ref", monitorRef), ("down_reason", reason)]

def createExitMessage (source reason : String) : Message where
  senderId := source
  messageType := "__EXIT__"
  headers := [("type", "__EXIT__"), ("exit_from", source), ("exit_reason", reason)]

variable [DecidableEq ι]

/-- The tables of monitors and links; `add_link` puts no actor twice into a list. -/
structure ActorMonitor (ι κ : Type) [DecidableEq ι] where
  monitors : Assoc ι (List (MonitorLink ι κ))
  links : Assoc ι (List ι)
  nodup : ∀ a peers, links.lookup a = some peers → peers.Nodup

namespace ActorMonitor

def new : ActorMonitor ι κ := ⟨∅, ∅, fun _ _ h => by cases h⟩

def getMonitors (t : ActorMonitor ι κ) (actor : ι) : List (MonitorLink ι κ) :=
  (t.monitors.lookup actor).getD []

def getLinks (t : ActorMonitor ι κ) (actor : ι) : List ι := (t.links.lookup actor).getD []

theorem getLinks_nodup (t : ActorMonitor ι κ) (actor : ι) : (t.getLinks actor).Nodup := by
  rw [getLinks]
  cases h : t.links.lookup actor with
  | none => exact List.nodup_nil
  | some peers => exact t.nodup actor peers h

def addPeer (t : ActorMonitor ι κ) (a b : ι) : ActorMonitor ι κ :=
  let peers := if b ∈ t.getLinks a then t.getLinks a else t.getLinks a ++ [b]
  { t with
    links := t.links.insert a peers
    nodup := by
      intro c peers' h
      rw [Assoc.lookup_insert] at h
      split_ifs at h
      · cases h
        dsimp only [peers]
        split_ifs with hmem
        · exact t.getLinks_nodup a
        · refine List.nodup_append.mpr ⟨t.getLinks_nodup a, List.nodup_singleton b, ?_⟩
          rintro x hx y hy rfl
          exact hmem (List.mem_singleton.mp hy ▸ hx)
      · exact t.nodup c peers' h }

def addLink (t : ActorMonitor ι κ) (a b : ι) : Except String (ActorMonitor ι κ) :=
  if a = b then .error "Cannot link actor to itself" else .ok ((t.addPeer a b).addPeer b a)

/-- `cleanup_monitors_for_actor`. -/
def cleanupMonitors (t : ActorMonitor ι κ) (actor : ι) : ActorMonitor ι κ :=
  { t with
    monitors := Assoc.retain (fun _ watchers => !watchers.isEmpty) <|
      Assoc.mapValues (fun watchers => watchers.filter (·.monitoringActorId ≠ actor)) <|
        t.monitors.erase actor }

/-- `cleanup_links_for_actor`. -/
def cleanupLinks (t : ActorMonitor ι κ) (actor : ι) : ActorMonitor ι κ :=
  { t with
    links := (t.links.mapValues fun peers => peers.filter (· ≠ actor)).erase actor
    nodup := by
      intro a peers h
      rw [Assoc.lookup_erase] at h
      split_ifs at h
      rw [Assoc.lookup_mapValues] at h
      obtain ⟨old, hold, rfl⟩ := Option.map_eq_some_iff.mp h
      exact (t.nodup a old hold).filter _ }

theorem getMonitors_cleanupMonitors (t : ActorMonitor ι κ) (actor a : ι) :
    (t.cleanupMonitors actor).getMonitors a =
      if a = actor then [] else (t.getMonitors a).filter (·.monitoringActorId ≠ actor) := by
  rw [getMonitors, cleanupMonitors, Assoc.lookup_retain, Assoc.lookup_mapValues,
    Assoc.lookup_erase, getMonitors]
  split_ifs with ha
  · rfl
  · cases t.monitors.lookup a with
    | none => rfl
    | some watchers =>
        rw [Option.map_some, Option.filter_some, Option.getD_some]
        cases watchers.filter (·.monitoringActorId ≠ actor) with
        | nil => rfl
        | cons link rest => rfl

theorem getLinks_cleanupLinks (t : ActorMonitor ι κ) (actor a : ι) :
    (t.cleanupLinks actor).getLinks a =
      if a = actor then [] else (t.getLinks a).filter (· ≠ actor) := by
  rw [getLinks, cleanupLinks, Assoc.lookup_erase, Assoc.lookup_mapValues, getLinks]
  split_ifs with ha
  · rfl
  · cases t.links.lookup a with
    | none => rfl
    | some peers => rfl

variable [ToString ι] (exitContext : ι → κ)

def sendDownToMonitors (t : ActorMonitor ι κ) (actor : ι) (reason : ExitReason ι) :
    List (Delivery ι κ) :=
  (t.getMonitors actor).map fun link =>
    ⟨link.monitoringContext, link.monitoringActorId,
      createDownMessage actor link.monitorRef reason.toHeader⟩

/-- `propagate_exit_to_links`; `exitContext` is the context for a linked actor. -/
def propagateExitToLinks (t : ActorMonitor ι κ) (actor : ι) (reason : ExitReason ι) :
    List (Delivery ι κ) :=
  (t.getLinks actor).map fun linked =>
    ⟨exitContext linked, linked, createExitMessage (toString actor) reason.toHeader⟩

/-- `handle_actor_termination`: what it sends, and the tables after it. -/
def handleActorTermination (t : ActorMonitor ι κ) (actor : ι) (reason : ExitReason ι) :
    List (Delivery ι κ) × ActorMonitor ι κ :=
  (t.sendDownToMonitors actor reason ++
      if reason.isError then t.propagateExitToLinks exitContext actor reason else [],
    (t.cleanupMonitors actor).cleanupLinks actor)

/-- Every monitor of the actor gets one DOWN message with its reference, every linked actor one
EXIT message if the root of the reason is an error or a kill, and else none; no entry mentions the
actor any more, and all others are as before. -/
structure Announced (t : ActorMonitor ι κ) (actor : ι) (reason : ExitReason ι) : Prop where
  down : (t.handleActorTermination exitContext actor reason).1.filter
      (·.message.messageType = "__DOWN__") =
    (t.getMonitors actor).map fun link => ⟨link.monitoringContext, link.monitoringActorId,
      createDownMessage actor link.monitorRef reason.toHeader⟩
  exit : ∀ a, (t.handleActorTermination exitContext actor reason).1.countP
      (fun d => d.message.messageType = "__EXIT__" ∧ d.recipient = a) =
    if reason.RootFails ∧ a ∈ t.getLinks actor then 1 else 0
  monitors : ∀ a, (t.handleActorTermination exitContext actor reason).2.getMonitors a =
    if a = actor then [] else (t.getMonitors a).filter (·.monitoringActorId ≠ actor)
  links : ∀ a, (t.handleActorTermination exitContext actor reason).2.getLinks a =
    if a = actor then [] else (t.getLinks a).filter (· ≠ actor)

variable {exitContext} {t : ActorMonitor ι κ} {actor : ι} {reason : ExitReason ι}

theorem filter_sent_down : (t.handleActorTermination exitContext actor reason).1.filter
    (·.message.messageType = "__DOWN__") = t.sendDownToMonitors actor reason := by
  have hdown : ∀ d ∈ t.sendDownToMonitors actor reason, d.message.messageType = "__DOWN__" := by
    intro d hd
    obtain ⟨link, -, rfl⟩ := List.mem_map.mp hd
    rfl
  have hexit : ∀ d ∈ t.propagateExitToLinks exitContext actor reason,
      d.message.messageType ≠ "__DOWN__" := by
    intro d hd
    obtain ⟨linked, -, rfl⟩ := List.mem_map.mp hd
    exact (by decide : "__EXIT__" ≠ "__DOWN__")
  rw [handleActorTermination, List.filter_append,
    List.filter_eq_self.mpr fun d hd => decide_eq_true (hdown d hd)]
  split_ifs
  · rw [List.filter_eq_nil_iff.mpr fun d hd => by simpa using hexit d hd, List.append_nil]
  · rw [List.filter_nil, List.append_nil]

/-- The EXIT messages to an actor: one if it is linked and the reason passes for an error. -/
theorem countP_sent_exit (a : ι) : (t.handleActorTermination exitContext actor reason).1.countP
    (fun d => d.message.messageType = "__EXIT__" ∧ d.recipient = a) =
      if reason.isError = true ∧ a ∈ t.getLinks actor then 1 else 0 := by
  have hdown : (t.sendDownToMonitors actor reason).countP
      (fun d => d.message.messageType = "__EXIT__" ∧ d.recipient = a) = 0 := by
    refine List.countP_eq_zero.mpr fun d hd => ?_
    obtain ⟨link, -, rfl⟩ := List.mem_map.mp hd
    simp [createDownMessage]
  have hexit : (t.propagateExitToLinks exitContext actor reason).countP
      (fun d => d.message.messageType = "__EXIT__" ∧ d.recipient = a) =
        if a ∈ t.getLinks actor then 1 else 0 := by
    rw [propagateExitToLinks, List.countP_map, ← (t.getLinks_nodup actor).count, List.count]
    refine List.countP_congr fun linked _ => ?_
    simp [createExitMessage]
  rw [handleActorTermination, List.countP_append, hdown, Nat.zero_add]
  by_cases herror : reason.isError = true
  · rw [if_pos herror, hexit]
    simp only [herror, true_and]
  · rw [if_neg herror, List.countP_nil, if_neg fun h => herror h.1]

/-- A termination is announced rightly if and only if the actor has no links, or its reason is no
kill and, if it is a link, ends in an error or a kill. -/
theorem termination_announced_iff (exitContext : ι → κ) (t : ActorMonitor ι κ) (actor : ι)
    (reason : ExitReason ι) :
    t.Announced exitContext actor reason ↔ t.getLinks actor = [] ∨ reason.Plain := by
  have hexit : (∀ a, (if reason.isError = true ∧ a ∈ t.getLinks actor then 1 else 0) =
      if reason.RootFails ∧ a ∈ t.getLinks actor then 1 else 0) ↔
        t.getLinks actor = [] ∨ reason.Plain := by
    rw [← reason.isError_iff]
    constructor
    · intro h
      by_cases hnil : t.getLinks actor = []
      · exact .inl hnil
      · obtain ⟨a, ha⟩ := List.exists_mem_of_ne_nil _ hnil
        have hcount := h a
        simp only [ha, and_true] at hcount
        right
        split_ifs at hcount with herror hfails hfails
        · exact iff_of_true herror hfails
        · exact iff_of_false herror hfails
    · rintro (hnil | hsame) a
      · rw [hnil]
        simp
      · simp only [hsame]
  constructor
  · exact fun h => hexit.mp fun a => (countP_sent_exit a).symm.trans (h.exit a)
  · intro h
    exact ⟨filter_sent_down, fun a => (countP_sent_exit a).trans (hexit.mpr h a),
      t.getMonitors_cleanupMonitors actor, (t.cleanupMonitors actor).getLinks_cleanupLinks actor⟩

/-- The tables after `add_link` of two actors. -/
def linkedPair : ActorMonitor String Unit := (new.addPeer "a" "b").addPeer "b" "a"

example : new.addLink "a" "b" = .ok linkedPair := rfl

/-- A killed actor leaves its linked actor without a word. -/
theorem not_termination_announced :
    ¬∀ (t : ActorMonitor String Unit) (actor : String) (reason : ExitReason String),
      t.Announced (fun _ => ()) actor reason := by
  intro h
  have hexit := (h linkedPair "a" .killed).exit "b"
  revert hexit
  decide

end ActorMonitor

end PlexSpaces.Supervision
