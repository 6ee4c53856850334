import Mathlib.Data.List.Sort
import PlexSpaces.Lib.Assoc
import PlexSpaces.Lib.Json
import PlexSpaces.Lib.Run
/-!
# The facet container of an actor

The list of facets, each behind its own lock, and the table of their metadata,
which `attach` and `detach` update one after the other.  Both look at the listed
facets with `try_read`: a facet whose lock another task holds for writing is
skipped.  Which locks are held is an argument of each call, once for each of the
scans it makes.  What `on_attach` and `on_detach` answer is an argument too.
-/

namespace PlexSpaces.Facets

open PlexSpaces.Lib

inductive FacetError where
  | notFound (facetType : String)
  | configurationError (message : String)
  | alreadyAttached (facetType : String)
  | invalidConfig (message : String)
  | attachmentFailed (message : String)
  | detachmentFailed (message : String)
  | interceptionFailed (message : String)
deriving DecidableEq, Repr

inductive InterceptResult where
  | proceed
  | replaceArgs (newArgs : List UInt8)
  | replaceResult (newResult : List UInt8)
  | shortCircuit (result : List UInt8)
deriving DecidableEq, Repr

inductive BeforeInterceptOutcome where
  | callActor (args : List UInt8)
  | shortCircuit (result : List UInt8)
deriving DecidableEq, Repr

/-- What the container reads of a facet. -/
structure Facet (N : Type) where
  facetType : String
  config : Json N
  priority : Int

structure FacetMetadata (N : Type) where
  facetType : String
  priority : Int
  config : Json N

/-- A listed facet behind its `Arc<RwLock<_>>`; `id` tells the allocations apart. -/
structure Slot (N : Type) where
  id : Nat
  facet : Facet N

abbrev Slot.facetType {N : Type} (slot : Slot N) : String := slot.facet.facetType

abbrev Slot.priority {N : Type} (slot : Slot N) : Int := slot.facet.priority

structure FacetContainer (N : Type) where
  facets : List (Slot N) := []
  metadata : Assoc String (FacetMetadata N) := ∅

abbrev Held := Nat → Bool

variable {N : Type}

def Slot.tryRead (slot : Slot N) (held : Held) : Option (Facet N) :=
  if held slot.id then none else some slot.facet

theorem Slot.tryRead_of_held {slot : Slot N} {held : Held} (hheld : held slot.id = true) :
    slot.tryRead held = none := by
  rw [tryRead, if_pos hheld]

theorem Slot.tryRead_of_free {slot : Slot N} {held : Held} (hfree : held slot.id = false) :
    slot.tryRead held = some slot.facet := by
  rw [tryRead, hfree, if_neg Bool.false_ne_true]

/-- The facet can be read and has the type. -/
def Slot.shows (held : Held) (facetType : String) (slot : Slot N) : Bool :=
  match slot.tryRead held with
  | some facet => facet.facetType == facetType
  | none => false

namespace FacetContainer

/-- The configuration with the tenant of the request, where it is an object. -/
def injectTenant (config : Json N) (tenantId nameSpace : Option String) : Json N :=
  match config with
  | .object fields =>
      let fields := match tenantId with
        | some tenantId => Json.insertField "_tenant_id" (.string tenantId) fields
        | none => fields
      let fields := match nameSpace with
        | some nameSpace => Json.insertField "_namespace" (.string nameSpace) fields
        | none => fields
      .object fields
  | config => config

/-- The first facet that can be read and has a lower priority, or the end. -/
def insertPos (c : FacetContainer N) (held : Held) (priority : Int) : Nat :=
  c.facets.findIdx fun slot =>
    match slot.tryRead held with
    | some facet =>
        match c.metadata.lookup facet.facetType with
        | some existing => existing.priority < priority
        | none => false
    | none => false

def sortPriority (c : FacetContainer N) (held : Held) (slot : Slot N) : Int :=
  match slot.tryRead held with
  | some facet => ((c.metadata.lookup facet.facetType).map (·.priority)).getD 0
  | none => 0

def attachWithTenantContext (c : FacetContainer N) (id : Nat) (facet : Facet N) (actorId : String)
    (tenantId nameSpace : Option String) (onAttach : String → Json N → Except FacetError Unit)
    (scanHeld sortHeld : Held) : Except FacetError String × FacetContainer N :=
  if facet.facetType ∈ c.metadata then
    (.error (.alreadyAttached facet.facetType), c)
  else
    let config := injectTenant facet.config tenantId nameSpace
    match onAttach actorId config with
    | .error e => (.error e, c)
    | .ok () =>
        let entry : FacetMetadata N := ⟨facet.facetType, facet.priority, config⟩
        let c := { c with metadata := c.metadata.insert facet.facetType entry }
        let pos := c.insertPos scanHeld facet.priority
        let c := { c with facets := c.facets.insertIdx pos ⟨id, facet⟩ }
        -- nobody else has the new slot yet
        let held : Held := fun slot => slot != id && sortHeld slot
        let c := { c with
          facets := c.facets.insertionSort fun a b =>
            c.sortPriority held b ≤ c.sortPriority held a }
        (.ok facet.facetType, { c with metadata := c.metadata.insert facet.facetType entry })

def detach (c : FacetContainer N) (facetType actorId : String)
    (onDetach : String → Except FacetError Unit) (held : Held) :
    Except FacetError Unit × FacetContainer N :=
  if facetType ∈ c.metadata then
    let c := { c with metadata := c.metadata.erase facetType }
    match c.facets.findIdx? (Slot.shows held facetType) with
    | some pos => (onDetach actorId, { c with facets := c.facets.eraseIdx pos })
    | none => (.ok (), c)
  else
    (.error (.notFound facetType), c)

/-- The calls of `before_method` down the list, and how they ended. -/
def runBefore (before : Slot N → List UInt8 → Except FacetError InterceptResult) :
    List (Slot N) → List UInt8 → List (Slot N) × Except FacetError BeforeInterceptOutcome
  | [], args => ([], .ok (.callActor args))
  | slot :: rest, args =>
      match before slot args with
      | .error e => ([slot], .error e)
      | .ok (.shortCircuit result) => ([slot], .ok (.shortCircuit result))
      | .ok (.replaceArgs newArgs) =>
          let (called, outcome) := runBefore before rest newArgs
          (slot :: called, outcome)
      | .ok _ =>
          let (called, outcome) := runBefore before rest args
          (slot :: called, outcome)

/-- The calls of `after_method` down a list, and how they ended. -/
def runAfter (after : Slot N → List UInt8 → Except FacetError InterceptResult) :
    List (Slot N) → List UInt8 → List (Slot N) × Except FacetError (List UInt8)
  | [], result => ([], .ok result)
  | slot :: rest, result =>
      match after slot result with
      | .error e => ([slot], .error e)
      | .ok (.replaceResult newResult) =>
          let (called, outcome) := runAfter after rest newResult
          (slot :: called, outcome)
      | .ok _ =>
          let (called, outcome) := runAfter after rest result
          (slot :: called, outcome)

abbrev Headers := List (String × String)

def interceptBefore (c : FacetContainer N)
    (beforeMethod : Slot N → String → List UInt8 → Headers → Except FacetError InterceptResult)
    (method : String) (args : List UInt8) (headers : Headers) :
    List (Slot N) × Except FacetError BeforeInterceptOutcome :=
  runBefore (fun slot args => beforeMethod slot method args headers) c.facets args

def interceptAfter (c : FacetContainer N)
    (afterMethod : Slot N → String → List UInt8 → List UInt8 → Headers →
      Except FacetError InterceptResult)
    (method : String) (args result : List UInt8) (headers : Headers) :
    List (Slot N) × Except FacetError (List UInt8) :=
  runAfter (fun slot result => afterMethod slot method args result headers) c.facets.reverse result

end FacetContainer

/-! ## Histories of a container -/

/-- A container with what happened to it: `attached` are the facets attached and
not detached since, in attach order. -/
structure Host (N : Type) where
  container : FacetContainer N := {}
  nextId : Nat := 0
  attached : List (Slot N) := []

inductive Call (N : Type) where
  | attach (facet : Facet N) (actorId : String) (tenantId nameSpace : Option String)
      (onAttach : String → Json N → Except FacetError Unit) (scanHeld sortHeld : Held)
  | detach (facetType actorId : String) (onDetach : String → Except FacetError Unit) (held : Held)

def Host.step (h : Host N) : Call N → Host N
  | .attach facet actorId tenantId nameSpace onAttach scanHeld sortHeld =>
      let (result, container) := h.container.attachWithTenantContext h.nextId facet actorId
        tenantId nameSpace onAttach scanHeld sortHeld
      { container
        nextId := h.nextId + 1
        attached := match result with
          | .ok _ => h.attached ++ [⟨h.nextId, facet⟩]
          | .error _ => h.attached }
  | .detach facetType actorId onDetach held =>
      { h with
        container := (h.container.detach facetType actorId onDetach held).2
        attached := h.attached.filter fun slot => slot.facetType ≠ facetType }

end PlexSpaces.Facets
