import PlexSpaces.Actors.ActorId
import PlexSpaces.Supervision.Supervisor
/-!
# Exit reasons across links and nodes

An exit reason is a chain of links that ends in the reason of the actor that failed
first.  A transient child looks only at the first link of the chain, and the message to
another node has room for one link.  Both agree with the end of the chain when there is
at most one link, and when the chain ends in a normal exit (`propagates_iff`).
-/

namespace PlexSpaces.Supervision

open PlexSpaces.Actors

/-- The `ExitReason` of the messages. -/
inductive ProtoExitReason
  | unspecified
  | normal
  | shutdown
  | killed
  | error
  | linked
  deriving DecidableEq

namespace ProtoExitReason

def toInt : ProtoExitReason → Int
  | .unspecified => 0
  | .normal => 1
  | .shutdown => 2
  | .killed => 3
  | .error => 4
  | .linked => 5

/-- `ProtoExitReason::try_from`. -/
def tryFrom : Int → Option ProtoExitReason
  | 0 => some .unspecified
  | 1 => some .normal
  | 2 => some .shutdown
  | 3 => some .killed
  | 4 => some .error
  | 5 => some .linked
  | _ => none

@[simp] theorem tryFrom_toInt (p : ProtoExitReason) : tryFrom p.toInt = some p := by
  cases p <;> rfl

end ProtoExitReason

structure ExitReasonDetails where
  errorMessage : String
  linkedActorId : String
  linkedReason : Int

def unknownLinkedActorId : ActorId where
  canonical := "unknown//system::default@unknown"
  name := "unknown"
  actorType := "system"
  nsName := "default"
  nodeId := "unknown"
  name_valid := by decide +kernel
  actorType_valid := by decide +kernel
  nsName_valid := by decide +kernel
  nodeId_valid := by decide +kernel
  canonical_eq := by decide +kernel

namespace ExitReason

def toProto {ι : Type} : ExitReason ι → ProtoExitReason
  | .normal => .normal
  | .shutdown => .shutdown
  | .killed => .killed
  | .error _ => .error
  | .linked _ _ => .linked

def toProtoDetails : ExitReason ActorId → Option ExitReasonDetails
  | .error message => some ⟨message, "", 0⟩
  | .linked actorId reason => some ⟨"", actorId.asStr, reason.toProto.toInt⟩
  | _ => none

def fromProto (proto : ProtoExitReason) (details : Option ExitReasonDetails) :
    ExitReason ActorId :=
  match proto with
  | .normal => .normal
  | .shutdown => .shutdown
  | .killed => .killed
  | .error =>
      let message := details.bind fun d =>
        if d.errorMessage.isEmpty then none else some d.errorMessage
      .error (message.getD "unknown error")
  | .linked =>
      let actorId := details.bind fun d =>
        if d.linkedActorId.isEmpty then none
        else (ActorId.fromCanonical d.linkedActorId).toOption
      let reason := match details with
        | none => .normal
        | some d =>
            if d.linkedReason = 0 then .normal
            else
              match ProtoExitReason.tryFrom d.linkedReason with
              | none => .normal
              | some proto => fromProto proto none
      .linked (actorId.getD unknownLinkedActorId) reason
  | .unspecified => .normal
termination_by details.isSome.toNat

/-- The reason at the end of the chain of links. -/
def root {ι : Type} : ExitReason ι → ExitReason ι
  | .linked _ reason => root reason
  | reason => reason

def depth {ι : Type} : ExitReason ι → Nat
  | .linked _ reason => depth reason + 1
  | _ => 0

def rootKind {ι : Type} (r : ExitReason ι) : ProtoExitReason := r.root.toProto

def received (r : ExitReason ActorId) : ExitReason ActorId :=
  fromProto r.toProto r.toProtoDetails

/-- A transient child that fails with `r` is restarted exactly when the chain ends in an
error or a kill, and another node sees the same end of the chain and decides alike. -/
structure Propagates (r : ExitReason ActorId) : Prop where
  decision : RestartPolicy.transient.shouldRestart (some r) = true ↔
    r.rootKind = .error ∨ r.rootKind = .killed
  kind : r.received.rootKind = r.rootKind
  remote : RestartPolicy.transient.shouldRestart (some r.received) =
    RestartPolicy.transient.shouldRestart (some r)

theorem toInt_toProto_ne_zero {ι : Type} (r : ExitReason ι) : r.toProto.toInt ≠ 0 := by
  cases r with
  | _ => simp [toProto, ProtoExitReason.toInt]

/-- A reason without details keeps its kind, and of a link nothing but the link is left. -/
theorem fromProto_none (r : ExitReason ActorId) :
    fromProto r.toProto none = .normal ∧ r = .normal ∨
      fromProto r.toProto none = .shutdown ∧ r = .shutdown ∨
      fromProto r.toProto none = .killed ∧ r = .killed ∨
      (∃ message message', fromProto r.toProto none = .error message ∧ r = .error message') ∨
      ∃ k k' reason, fromProto r.toProto none = .linked k .normal ∧ r = .linked k' reason := by
  cases r with
  | normal => exact .inl ⟨by rw [toProto, fromProto], rfl⟩
  | shutdown => exact .inr (.inl ⟨by rw [toProto, fromProto], rfl⟩)
  | killed => exact .inr (.inr (.inl ⟨by rw [toProto, fromProto], rfl⟩))
  | error message =>
      refine .inr (.inr (.inr (.inl ⟨"unknown error", message, ?_, rfl⟩)))
      rw [toProto, fromProto]
      rfl
  | linked k reason =>
      refine .inr (.inr (.inr (.inr ⟨unknownLinkedActorId, k, reason, ?_, rfl⟩)))
      rw [toProto, fromProto]
      rfl

/-- A link reaches another node with what its reason is without details. -/
theorem received_linked (actorId : ActorId) (reason : ExitReason ActorId) :
    ∃ k, (linked actorId reason).received = .linked k (fromProto reason.toProto none) := by
  have hcode := toInt_toProto_ne_zero reason
  rw [received, toProto, toProtoDetails, fromProto]
  simp only [hcode, if_false, ProtoExitReason.tryFrom_toInt]
  exact ⟨_, rfl⟩

theorem propagates_of_plain {r : ExitReason ActorId} (hdepth : r.depth = 0) :
    r.Propagates := by
  cases r with
  | linked actorId reason => cases hdepth
  | error message =>
      refine ⟨by simp [RestartPolicy.shouldRestart, rootKind, root, toProto], ?_, ?_⟩
      · rw [received, toProto, fromProto]
        rfl
      · rw [received, toProto, fromProto]
        rfl
  | _ =>
      refine ⟨by simp [RestartPolicy.shouldRestart, rootKind, root, toProto], ?_, ?_⟩
      all_goals rw [received, toProto, fromProto]

theorem propagates_of_link {actorId : ActorId} {reason : ExitReason ActorId}
    (hdepth : reason.depth = 0) : (linked actorId reason).Propagates := by
  obtain ⟨k, hk⟩ := received_linked actorId reason
  rcases fromProto_none reason with ⟨hfrom, rfl⟩ | ⟨hfrom, rfl⟩ | ⟨hfrom, rfl⟩ |
    ⟨message, message', hfrom, rfl⟩ | ⟨-, k', reason', -, rfl⟩
  case inr.inr.inr.inr => cases hdepth
  all_goals
    refine ⟨by simp [RestartPolicy.shouldRestart, rootKind, root, toProto], ?_, ?_⟩
    · rw [hk, hfrom]
      rfl
    · rw [hk, hfrom]
      rfl

/-- Behind the first link nobody looks at a second one: the chain counts as normal. -/
theorem propagates_of_links_iff {actorId actorId' : ActorId} {reason : ExitReason ActorId} :
    (linked actorId (linked actorId' reason)).Propagates ↔ reason.rootKind = .normal := by
  obtain ⟨k, hk⟩ := received_linked actorId (linked actorId' reason)
  have hfrom : fromProto (linked actorId' reason).toProto none =
      .linked unknownLinkedActorId .normal := by
    rw [toProto, fromProto]
    rfl
  rw [hfrom] at hk
  have hkind : (linked actorId (linked actorId' reason)).rootKind = reason.rootKind := rfl
  constructor
  · intro h
    rw [← hkind, ← h.kind, hk]
    rfl
  · intro hnormal
    refine ⟨?_, ?_, ?_⟩
    · rw [hkind, hnormal]
      simp [RestartPolicy.shouldRestart]
    · rw [hkind, hnormal, hk]
      rfl
    · rw [hk]
      rfl

/-- Exit reasons are told and decided by the end of their chain if and only if there is at
most one link or the chain ends in a normal exit. -/
theorem propagates_iff (r : ExitReason ActorId) :
    r.Propagates ↔ r.depth ≤ 1 ∨ r.rootKind = .normal := by
  cases r with
  | linked actorId reason =>
      cases reason with
      | linked actorId' reason' =>
          rw [propagates_of_links_iff]
          constructor
          · exact .inr
          · rintro (hdepth | hnormal)
            · simp only [depth] at hdepth
              omega
            · exact hnormal
      | _ => exact iff_of_true (propagates_of_link rfl) (.inl le_rfl)
  | _ => exact iff_of_true (propagates_of_plain rfl) (.inl (Nat.zero_le 1))

/-- A kill behind two links: no restart, and another node takes it for a normal exit. -/
theorem not_propagates :
    ¬∀ r : ExitReason ActorId, r.Propagates := by
  intro h
  have hkind := propagates_of_links_iff.mp
    (h (linked unknownLinkedActorId (linked unknownLinkedActorId killed)))
  cases hkind

end ExitReason

end PlexSpaces.Supervision
