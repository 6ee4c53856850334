import PlexSpaces.Lib.Separator
/-!
# Actor ids

An actor id keeps its four components and the canonical text
`name//actor_type::namespace@node_id`; two ids are compared by their texts.  The name and
the type hold only letters, digits, `-` and `_`, but the namespace and the node id are any
texts that are not empty.  The text is parsed at its last `@`, so it stands for one id
only when the node id has no `@` and the namespace has none after its first letter
(`unambiguous_iff`).
-/

namespace PlexSpaces.Actors

open PlexSpaces.Lib

inductive ActorIdError
  | invalidName (name : String)
  | invalidActorType (actorType : String)
  | missingField (field : String)
  | invalidFormat (message : String)
  deriving DecidableEq

def nameMaxLen : Nat := 128

def actorTypeMaxLen : Nat := 128

def validateRequired (field value : String) : Except ActorIdError Unit :=
  if value.isEmpty then .error (.missingField field) else .ok ()

/-- The letters that may follow the first one in a name or a type. -/
def isWordChar (ch : Char) : Bool := ch.isAlphanum || ch == '-' || ch == '_'

def validateName (name : String) : Except ActorIdError Unit :=
  if nameMaxLen < name.utf8ByteSize then .error (.invalidName name)
  else
    match name.toList with
    | [] => .error (.invalidName name)
    | first :: chars =>
        if !first.isAlphanum then .error (.invalidName name)
        else if chars.all isWordChar then .ok ()
        else .error (.invalidName name)

def validateActorType (actorType : String) : Except ActorIdError Unit :=
  match validateRequired "actor_type" actorType with
  | .error e => .error e
  | .ok () =>
      if actorTypeMaxLen < actorType.utf8ByteSize then .error (.invalidActorType actorType)
      else
        match actorType.toList with
        | [] => .error (.invalidActorType actorType)
        | first :: chars =>
            if !first.isAlpha then .error (.invalidActorType actorType)
            else if !chars.all isWordChar then .error (.invalidActorType actorType)
            else .ok ()

/-- `format!("{name}//{actor_type}::{namespace}@{node_id}")`. -/
def canonicalOf (name actorType nsName nodeId : String) : String :=
  name ++ "//" ++ actorType ++ "::" ++ nsName ++ "@" ++ nodeId

structure ActorId where
  canonical : String
  name : String
  actorType : String
  nsName : String
  nodeId : String
  name_valid : validateName name = .ok ()
  actorType_valid : validateActorType actorType = .ok ()
  nsName_valid : validateRequired "namespace" nsName = .ok ()
  nodeId_valid : validateRequired "node_id" nodeId = .ok ()
  canonical_eq : canonical = canonicalOf name actorType nsName nodeId

namespace ActorId

def new (name actorType nsName nodeId : String) : Except ActorIdError ActorId :=
  match hname : validateName name with
  | .error e => .error e
  | .ok () =>
      match htype : validateActorType actorType with
      | .error e => .error e
      | .ok () =>
          match hns : validateRequired "namespace" nsName with
          | .error e => .error e
          | .ok () =>
              match hnode : validateRequired "node_id" nodeId with
              | .error e => .error e
              | .ok () =>
                  .ok ⟨canonicalOf name actorType nsName nodeId, name, actorType, nsName, nodeId,
                    hname, htype, hns, hnode, rfl⟩

def fromCanonical (canonical : String) : Except ActorIdError ActorId :=
  match cutLast '@' canonical.toList with
  | none => .error (.invalidFormat ("missing @ in '" ++ canonical ++ "'"))
  | some (beforeNode, nodeId) =>
      match cutBy "//".toList beforeNode with
      | none => .error (.invalidFormat ("missing // in '" ++ canonical ++ "'"))
      | some (name, afterName) =>
          match cutBy "::".toList afterName with
          | none => .error (.invalidFormat ("missing :: in '" ++ canonical ++ "'"))
          | some (actorType, nsName) =>
              new (String.ofList name) (String.ofList actorType) (String.ofList nsName)
                (String.ofList nodeId)

def asStr (a : ActorId) : String := a.canonical

instance : BEq ActorId := ⟨fun a b => a.canonical == b.canonical⟩

instance : Ord ActorId := ⟨fun a b => compare a.canonical b.canonical⟩

instance : Hashable ActorId := ⟨fun a => hash a.canonical⟩

structure SameComponents (a b : ActorId) : Prop where
  name : a.name = b.name
  actorType : a.actorType = b.actorType
  nsName : a.nsName = b.nsName
  nodeId : a.nodeId = b.nodeId

/-- The text of the id is parsed back to its components, and no id with other components
compares equal to it. -/
structure Unambiguous (a : ActorId) : Prop where
  roundTrip : ∃ b, fromCanonical a.asStr = .ok b ∧ b.SameComponents a
  unique : ∀ b : ActorId, (b == a) = true ∨ compare b a = .eq → b.SameComponents a

theorem new_eq_ok {name actorType nsName nodeId : String} (hname : validateName name = .ok ())
    (htype : validateActorType actorType = .ok ())
    (hns : validateRequired "namespace" nsName = .ok ())
    (hnode : validateRequired "node_id" nodeId = .ok ()) :
    new name actorType nsName nodeId =
      .ok ⟨canonicalOf name actorType nsName nodeId, name, actorType, nsName, nodeId, hname,
        htype, hns, hnode, rfl⟩ := by
  unfold new
  split
  · next e h => rw [hname] at h; cases h
  · split
    · next e h => rw [htype] at h; cases h
    · split
      · next e h => rw [hns] at h; cases h
      · split
        · next e h => rw [hnode] at h; cases h
        · rfl

theorem components_of_new {name actorType nsName nodeId : String} {a : ActorId}
    (h : new name actorType nsName nodeId = .ok a) :
    a.name = name ∧ a.actorType = actorType ∧ a.nsName = nsName ∧ a.nodeId = nodeId := by
  unfold new at h
  split at h
  · cases h
  · split at h
    · cases h
    · split at h
      · cases h
      · split at h
        · cases h
        · cases h
          exact ⟨rfl, rfl, rfl, rfl⟩

theorem isWordChar_of_validateName {name : String} (h : validateName name = .ok ()) {c : Char}
    (hc : c ∈ name.toList) : isWordChar c = true := by
  unfold validateName at h
  split_ifs at h with hlen
  cases hchars : name.toList with
  | nil => rw [hchars] at hc; cases hc
  | cons first chars =>
      rw [hchars] at h hc
      dsimp only at h
      split_ifs at h with hfirst hrest
      rcases List.mem_cons.mp hc with rfl | hc
      · have halnum : c.isAlphanum = true := by simpa using hfirst
        rw [isWordChar, halnum]
        rfl
      · exact List.all_eq_true.mp hrest c hc

theorem isWordChar_of_validateActorType {actorType : String}
    (h : validateActorType actorType = .ok ()) {c : Char} (hc : c ∈ actorType.toList) :
    isWordChar c = true := by
  unfold validateActorType at h
  split at h
  · cases h
  · split_ifs at h with hlen
    cases hchars : actorType.toList with
    | nil => rw [hchars] at hc; cases hc
    | cons first chars =>
        rw [hchars] at h hc
        dsimp only at h
        split_ifs at h with hfirst hrest
        rcases List.mem_cons.mp hc with rfl | hc
        · have halpha : c.isAlpha = true := by simpa using hfirst
          rw [isWordChar, Char.isAlphanum, halpha]
          rfl
        · have hall : chars.all isWordChar = true := by simpa using hrest
          exact List.all_eq_true.mp hall c hc

theorem slash_notMem_name (a : ActorId) : '/' ∉ a.name.toList := by
  intro h
  have hword := isWordChar_of_validateName a.name_valid h
  revert hword
  decide

theorem colon_notMem_actorType (a : ActorId) : ':' ∉ a.actorType.toList := by
  intro h
  have hword := isWordChar_of_validateActorType a.actorType_valid h
  revert hword
  decide

theorem validateRequired_iff {field value : String} :
    validateRequired field value = .ok () ↔ value.toList ≠ [] := by
  unfold validateRequired
  split_ifs with hempty
  · refine iff_of_false ?_ ?_
    · intro h
      cases h
    · simpa using hempty
  · refine iff_of_true rfl ?_
    simpa using hempty

theorem toList_canonicalOf (name actorType nsName nodeId : String) :
    (canonicalOf name actorType nsName nodeId).toList =
      name.toList ++ ("//".toList ++ (actorType.toList ++ ("::".toList ++
        (nsName.toList ++ '@' :: nodeId.toList)))) := by
  simp [canonicalOf]

/-- The text is read as an id whose node id is what follows the last `@`. -/
theorem fromCanonical_of_toList {text name actorType : String} {nsName nodeId : List Char}
    (htext : text.toList = name.toList ++ ("//".toList ++ (actorType.toList ++ ("::".toList ++
      (nsName ++ '@' :: nodeId)))))
    (hname : '/' ∉ name.toList) (htype : ':' ∉ actorType.toList) (hnode : '@' ∉ nodeId) :
    fromCanonical text =
      new name actorType (String.ofList nsName) (String.ofList nodeId) := by
  have hlast : cutLast '@' text.toList =
      some (name.toList ++ ("//".toList ++ (actorType.toList ++ ("::".toList ++ nsName))),
        nodeId) := by
    rw [← cutLast_append_cons _ hnode, htext]
    simp
  have hslash : cutBy "//".toList
      (name.toList ++ ("//".toList ++ (actorType.toList ++ ("::".toList ++ nsName)))) =
      some (name.toList, actorType.toList ++ ("::".toList ++ nsName)) := cutBy_append hname _
  have hcolon : cutBy "::".toList (actorType.toList ++ ("::".toList ++ nsName)) =
      some (actorType.toList, nsName) := cutBy_append htype _
  unfold fromCanonical
  rw [hlast]
  dsimp only
  rw [hslash]
  dsimp only
  rw [hcolon]
  simp only [String.ofList_toList]

theorem beq_iff {a b : ActorId} : (a == b) = true ↔ a.canonical = b.canonical := by
  change (a.canonical == b.canonical) = true ↔ _
  exact beq_iff_eq

theorem toList_canonical (a : ActorId) :
    a.canonical.toList = a.name.toList ++ ("//".toList ++ (a.actorType.toList ++
      ("::".toList ++ (a.nsName.toList ++ '@' :: a.nodeId.toList)))) := by
  rw [a.canonical_eq, toList_canonicalOf]

/-- The text is parsed back to the components exactly when the node id has no `@`. -/
theorem roundTrip_iff (a : ActorId) :
    (∃ b, fromCanonical a.asStr = .ok b ∧ b.SameComponents a) ↔ '@' ∉ a.nodeId.toList := by
  constructor
  · rintro ⟨b, hb, hsame⟩ hmem
    -- the last `@` stands inside the node id, so the namespace comes back longer
    obtain ⟨q, p, hnode, hq⟩ := List.eq_append_cons_of_mem (List.mem_reverse.mpr hmem)
    have hnode' : a.nodeId.toList = p.reverse ++ '@' :: q.reverse := by
      rw [← List.reverse_reverse a.nodeId.toList, hnode]
      simp
    have htext : a.asStr.toList = a.name.toList ++ ("//".toList ++ (a.actorType.toList ++
        ("::".toList ++ ((a.nsName.toList ++ '@' :: p.reverse) ++ '@' :: q.reverse)))) := by
      rw [asStr, toList_canonical, hnode']
      simp
    rw [fromCanonical_of_toList htext a.slash_notMem_name a.colon_notMem_actorType
      (by simpa using hq)] at hb
    have hns := (components_of_new hb).2.2.1
    rw [hsame.nsName, ← String.toList_inj, String.toList_ofList] at hns
    have hlen := congrArg List.length hns
    simp at hlen
  · intro hnode
    have hparse := fromCanonical_of_toList a.toList_canonical a.slash_notMem_name
      a.colon_notMem_actorType hnode
    rw [String.ofList_toList, String.ofList_toList,
      new_eq_ok a.name_valid a.actorType_valid a.nsName_valid a.nodeId_valid] at hparse
    exact ⟨_, hparse, rfl, rfl, rfl, rfl⟩

/-- What is read from the text of an id has that text. -/
theorem asStr_of_fromCanonical {a b : ActorId} (h : fromCanonical a.asStr = .ok b) :
    b.asStr = a.asStr := by
  have hread : ∃ nsName nodeId, '@' ∉ nodeId ∧ a.asStr.toList = a.name.toList ++
      ("//".toList ++ (a.actorType.toList ++ ("::".toList ++ (nsName ++ '@' :: nodeId)))) := by
    by_cases hmem : '@' ∈ a.nodeId.toList
    · obtain ⟨q, p, hnode, hq⟩ := List.eq_append_cons_of_mem (List.mem_reverse.mpr hmem)
      have hnode' : a.nodeId.toList = p.reverse ++ '@' :: q.reverse := by
        rw [← List.reverse_reverse a.nodeId.toList, hnode]
        simp
      refine ⟨a.nsName.toList ++ '@' :: p.reverse, q.reverse, by simpa using hq, ?_⟩
      rw [asStr, toList_canonical, hnode']
      simp
    · exact ⟨a.nsName.toList, a.nodeId.toList, hmem, a.toList_canonical⟩
  obtain ⟨nsName, nodeId, hnode, htext⟩ := hread
  rw [fromCanonical_of_toList htext a.slash_notMem_name a.colon_notMem_actorType hnode] at h
  obtain ⟨hname, htype, hns, hid⟩ := components_of_new h
  rw [← String.toList_inj, asStr, toList_canonical, htext, hname, htype, hns, hid]
  simp

/-- Two ids with one text have the same name and type. -/
theorem rest_eq_of_canonical_eq {a b : ActorId} (h : b.canonical = a.canonical) :
    b.name = a.name ∧ b.actorType = a.actorType ∧
      b.nsName.toList ++ '@' :: b.nodeId.toList = a.nsName.toList ++ '@' :: a.nodeId.toList := by
  have htext := congrArg String.toList h
  rw [b.toList_canonical, a.toList_canonical] at htext
  have hcut := congrArg (cutBy "//".toList) htext
  have hslash : ∀ (c : ActorId) (rest : List Char),
      cutBy "//".toList (c.name.toList ++ ("//".toList ++ rest)) = some (c.name.toList, rest) :=
    fun c rest => cutBy_append c.slash_notMem_name rest
  rw [hslash, hslash, Option.some.injEq, Prod.mk.injEq] at hcut
  obtain ⟨hname, hrest⟩ := hcut
  have hcut := congrArg (cutBy "::".toList) hrest
  have hcolon : ∀ (c : ActorId) (rest : List Char),
      cutBy "::".toList (c.actorType.toList ++ ("::".toList ++ rest)) =
        some (c.actorType.toList, rest) :=
    fun c rest => cutBy_append c.colon_notMem_actorType rest
  rw [hcolon, hcolon, Option.some.injEq, Prod.mk.injEq] at hcut
  exact ⟨String.toList_inj.mp hname, String.toList_inj.mp hcut.1, hcut.2⟩

theorem unique_of_notMem {a : ActorId} (hnode : '@' ∉ a.nodeId.toList)
    (hns : '@' ∉ a.nsName.toList.tail) {b : ActorId} (h : b.canonical = a.canonical) :
    b.SameComponents a := by
  obtain ⟨hname, htype, hrest⟩ := rest_eq_of_canonical_eq h
  have hb : '@' ∉ b.nodeId.toList := by
    intro hmem
    obtain ⟨q, p, hsplit, hq⟩ := List.eq_append_cons_of_mem (List.mem_reverse.mpr hmem)
    have hsplit' : b.nodeId.toList = p.reverse ++ '@' :: q.reverse := by
      rw [← List.reverse_reverse b.nodeId.toList, hsplit]
      simp
    have hcut := congrArg (cutLast '@') hrest
    rw [hsplit', cutLast_append_cons _ hnode, ← List.cons_append, ← List.append_assoc,
      cutLast_append_cons _ (by simpa using hq), Option.some.injEq, Prod.mk.injEq] at hcut
    -- the namespace of `b` is not empty, so this `@` is not the first letter
    rw [← hcut.1] at hns
    cases hbns : b.nsName.toList with
    | nil => exact validateRequired_iff.mp b.nsName_valid hbns
    | cons x xs =>
        rw [hbns] at hns
        simp at hns
  have hcut := congrArg (cutLast '@') hrest
  rw [cutLast_append_cons _ hb, cutLast_append_cons _ hnode, Option.some.injEq,
    Prod.mk.injEq] at hcut
  exact ⟨hname, htype, String.toList_inj.mp hcut.1, String.toList_inj.mp hcut.2⟩

/-- A second `@` in the namespace can be taken for the separator. -/
theorem exists_ne_of_mem_tail {a : ActorId} (h : '@' ∈ a.nsName.toList.tail) :
    ∃ b : ActorId, b.canonical = a.canonical ∧ b.nsName ≠ a.nsName := by
  cases hns : a.nsName.toList with
  | nil =>
      rw [hns] at h
      cases h
  | cons x xs =>
      rw [hns, List.tail_cons] at h
      obtain ⟨p, q, rfl, -⟩ := List.eq_append_cons_of_mem h
      have hvalid : validateRequired "namespace" (String.ofList (x :: p)) = .ok () :=
        validateRequired_iff.mpr (by simp)
      have hvalid' : validateRequired "node_id" (String.ofList (q ++ '@' :: a.nodeId.toList)) =
          .ok () := validateRequired_iff.mpr (by simp)
      refine ⟨⟨_, a.name, a.actorType, _, _, a.name_valid, a.actorType_valid, hvalid, hvalid',
        rfl⟩, ?_, ?_⟩
      · rw [← String.toList_inj, toList_canonicalOf, a.toList_canonical, hns]
        simp
      · intro heq
        rw [← String.toList_inj, String.toList_ofList, hns] at heq
        have hlen := congrArg List.length heq
        simp at hlen

/-- The text of an id stands for it alone if and only if the node id has no `@` and the
namespace has none after its first letter. -/
theorem unambiguous_iff (name actorType nsName nodeId : String) (a : ActorId)
    (h : new name actorType nsName nodeId = .ok a) :
    Unambiguous a ↔ '@' ∉ nodeId.toList ∧ '@' ∉ nsName.toList.tail := by
  obtain ⟨rfl, rfl, rfl, rfl⟩ := components_of_new h
  constructor
  · intro hunambiguous
    refine ⟨(roundTrip_iff a).mp hunambiguous.roundTrip, ?_⟩
    intro hmem
    obtain ⟨b, hcanonical, hne⟩ := exists_ne_of_mem_tail hmem
    exact hne (hunambiguous.unique b (.inl (beq_iff.mpr hcanonical))).nsName
  · rintro ⟨hnode, hns⟩
    refine ⟨(roundTrip_iff a).mpr hnode, ?_⟩
    intro b hequal
    have hcanonical : b.canonical = a.canonical := by
      rcases hequal with hbeq | hcompare
      · exact beq_iff.mp hbeq
      · exact Std.LawfulEqOrd.eq_of_compare hcompare
    exact unique_of_notMem hnode hns hcanonical

theorem unambiguous_iff_counter :
    ∃ a, new "counter" "worker" "default" "node1" = .ok a ∧ Unambiguous a := by
  have hname : validateName "counter" = .ok () := by decide +kernel
  have htype : validateActorType "worker" = .ok () := by decide +kernel
  have hns : validateRequired "namespace" "default" = .ok () := by decide +kernel
  have hnode : validateRequired "node_id" "node1" = .ok () := by decide +kernel
  have hnew := new_eq_ok hname htype hns hnode
  refine ⟨_, hnew, (unambiguous_iff _ _ _ _ _ hnew).mpr ⟨?_, ?_⟩⟩
  · decide +kernel
  · decide +kernel

/-- The node id `x@y` is read back as the node `y` of another namespace. -/
theorem not_unambiguous :
    ¬∀ (name actorType nsName nodeId : String) (a : ActorId),
      new name actorType nsName nodeId = .ok a → Unambiguous a := by
  intro h
  have hname : validateName "a" = .ok () := by decide +kernel
  have htype : validateActorType "w" = .ok () := by decide +kernel
  have hns : validateRequired "namespace" "ns" = .ok () := by decide +kernel
  have hnode : validateRequired "node_id" "x@y" = .ok () := by decide +kernel
  have hunambiguous := h _ _ _ _ _ (new_eq_ok hname htype hns hnode)
  have hmem : '@' ∈ "x@y".toList := by decide +kernel
  exact (roundTrip_iff _).mp hunambiguous.roundTrip hmem

end ActorId

end PlexSpaces.Actors
