import PlexSpaces.Journaling.Durability
import PlexSpaces.Lib.Assoc
/-!
# Execution contexts

An actor performs its effects through a context.  In normal mode the context invokes the
closure of an effect, keeps its output under the effect's id and remembers it for the journal;
in replay mode it only looks up the output, which `load_side_effects` has taken from the
journal.

A closure changes the outside world, which is a state here.  `Program` is what an actor does for
one message: a tree of effects, each chosen by the outputs of the ones before.
-/

namespace PlexSpaces.Journaling

open PlexSpaces.Lib

inductive ExecutionMode
  | unspecified
  | normal
  | replay
  deriving DecidableEq

structure ExecutionContext where
  currentSequence : Nat
  mode : ExecutionMode
  sideEffectCache : Assoc String Bytes
  sideEffects : List SideEffectEntry

variable {W S : Type}

namespace ExecutionContext

def new (mode : ExecutionMode) : ExecutionContext := ⟨0, mode, ∅, []⟩

def setSequence (ctx : ExecutionContext) (sequence : Nat) : ExecutionContext :=
  { ctx with currentSequence := sequence }

def setMode (ctx : ExecutionContext) (mode : ExecutionMode) : ExecutionContext :=
  { ctx with mode }

def loadSideEffects (ctx : ExecutionContext) (entries : List SideEffectEntry) :
    ExecutionContext :=
  { ctx with
    sideEffectCache := entries.foldl
      (fun cache se => cache.insert se.sideEffectId se.outputData) ctx.sideEffectCache }

def notFound (sideEffectId : String) : JournalError :=
  .serialization ("Side effect not found in cache during replay: " ++ sideEffectId)

def invokes (ctx : ExecutionContext) : Bool := ctx.mode ≠ .replay

def recordSideEffect (ctx : ExecutionContext) (sideEffectId : String)
    (executor : W → Except String Bytes × W) (w : W) :
    Except JournalError Bytes × ExecutionContext × W :=
  match ctx.mode with
  | .replay =>
      match ctx.sideEffectCache.lookup sideEffectId with
      | some output => (.ok output, ctx, w)
      | none => (.error (notFound sideEffectId), ctx, w)
  | .normal | .unspecified =>
      match executor w with
      | (.error e, w) => (.error (.serialization e), ctx, w)
      | (.ok output, w) =>
          (.ok output,
            { ctx with
              sideEffectCache := ctx.sideEffectCache.insert sideEffectId output
              sideEffects := ctx.sideEffects ++ [⟨sideEffectId, [], output⟩] }, w)

def takeSideEffects (ctx : ExecutionContext) : List SideEffectEntry × ExecutionContext :=
  (ctx.sideEffects, { ctx with sideEffects := [] })

theorem lookup_foldl_insert (cache : Assoc String Bytes) (entries : List SideEffectEntry)
    (id : String) :
    (entries.foldl (fun cache se => cache.insert se.sideEffectId se.outputData) cache).lookup
        id =
      ((entries.reverse.find? fun se => se.sideEffectId = id).map
        SideEffectEntry.outputData).or (cache.lookup id) := by
  induction entries generalizing cache with
  | nil => rfl
  | cons se entries ih =>
      rw [List.foldl_cons, ih, List.reverse_cons, List.find?_append, Assoc.lookup_insert]
      cases hfind : entries.reverse.find? fun se => decide (se.sideEffectId = id) with
      | none =>
          by_cases hid : se.sideEffectId = id
          · simp [hid]
          · simp [hid, Ne.symm hid]
      | some found => rfl

/-- An id stands for the last output that was journaled under it. -/
theorem lookup_loadSideEffects (ctx : ExecutionContext) (entries : List SideEffectEntry)
    (id : String) :
    (ctx.loadSideEffects entries).sideEffectCache.lookup id =
      ((entries.reverse.find? fun se => se.sideEffectId = id).map
        SideEffectEntry.outputData).or (ctx.sideEffectCache.lookup id) :=
  lookup_foldl_insert ctx.sideEffectCache entries id

end ExecutionContext

/-- What an actor does for a message: it ends in a state, with a reply or an error.  `absent` is
what it does where it finds no context. -/
inductive Program (W S : Type)
  | done (state : S) (result : Except String Bytes)
  | recordSideEffect (sideEffectId : String) (executor : W → Except String Bytes × W)
      (k : Except JournalError Bytes → Program W S) (absent : Program W S)

/-- An effect that an actor has performed, with what the context gave back, if there was
one. -/
structure Call where
  sideEffectId : String
  result : Option (Except JournalError Bytes)
  invoked : Bool
  deriving DecidableEq

structure Execution (W S : Type) where
  state : S
  result : Except String Bytes
  context : Option ExecutionContext
  world : W
  calls : List Call

def Execution.after (x : Execution W S) (c : Call) : Execution W S :=
  { x with calls := c :: x.calls }

namespace Program

def execute : Program W S → Option ExecutionContext → W → Execution W S
  | .done s result, context, w => ⟨s, result, context, w, []⟩
  | .recordSideEffect id _ _ absent, none, w => (absent.execute none w).after ⟨id, none, false⟩
  | .recordSideEffect id executor k _, some ctx, w =>
      match ctx.recordSideEffect id executor w with
      | (result, ctx', w') =>
          ((k result).execute (some ctx') w').after ⟨id, some result, ctx.invokes⟩

theorem execute_some (p : Program W S) (ctx : ExecutionContext) (w : W) :
    (∃ ctx', (p.execute (some ctx) w).context = some ctx') ∧
      ∀ c ∈ (p.execute (some ctx) w).calls, c.result ≠ none := by
  induction p generalizing ctx w with
  | done s result =>
      refine ⟨⟨ctx, rfl⟩, ?_⟩
      intro c hc
      cases hc
  | recordSideEffect id executor k absent ih _ =>
      rcases hrecord : ctx.recordSideEffect id executor w with ⟨result, ctx', w'⟩
      obtain ⟨hcontext, hcalls⟩ := ih result ctx' w'
      simp only [execute, hrecord]
      refine ⟨hcontext, ?_⟩
      intro c hc
      rcases List.mem_cons.mp hc with rfl | hc
      · exact Option.some_ne_none _
      · exact hcalls c hc

/-- Without a context no call returns and the world is left alone. -/
theorem execute_none (p : Program W S) (w : W) :
    (p.execute none w).context = none ∧ (p.execute none w).world = w ∧
      ∀ c ∈ (p.execute none w).calls, c.result = none ∧ c.invoked = false := by
  induction p with
  | done s result =>
      refine ⟨rfl, rfl, ?_⟩
      intro c hc
      cases hc
  | recordSideEffect id executor k absent _ ih =>
      refine ⟨ih.1, ih.2.1, ?_⟩
      intro c hc
      rcases List.mem_cons.mp hc with rfl | hc
      · exact ⟨rfl, rfl⟩
      · exact ih.2.2 c hc

/-- The context holds the output of each of these calls. -/
def Recorded (ctx : ExecutionContext) (calls : List Call) : Prop :=
  ∀ c ∈ calls, ∃ output, c.result = some (.ok output) ∧
    ctx.sideEffectCache.lookup c.sideEffectId = some output

/-- A context in replay mode that holds the outputs of an execution repeats it without
invoking a closure. -/
theorem execute_replay {p : Program W S} {ctx : ExecutionContext} {w : W}
    {replay : ExecutionContext} (hmode : replay.mode = .replay)
    (hrecorded : Recorded replay (p.execute (some ctx) w).calls) (w' : W) :
    p.execute (some replay) w' =
      ⟨(p.execute (some ctx) w).state, (p.execute (some ctx) w).result, some replay, w',
        (p.execute (some ctx) w).calls.map fun c => { c with invoked := false }⟩ := by
  induction p generalizing ctx w with
  | done s result => rfl
  | recordSideEffect id executor k absent ih _ =>
      rcases hrecord : ctx.recordSideEffect id executor w with ⟨result, ctx', w''⟩
      have hexec : (Program.recordSideEffect id executor k absent).execute (some ctx) w =
          ((k result).execute (some ctx') w'').after ⟨id, some result, ctx.invokes⟩ := by
        rw [execute, hrecord]
      rw [hexec] at hrecorded ⊢
      obtain ⟨output, hresult, hlookup⟩ := hrecorded _ List.mem_cons_self
      have hresult : result = .ok output := Option.some.inj hresult
      subst hresult
      have hcached : replay.recordSideEffect id executor w' = (.ok output, replay, w') := by
        simp only [ExecutionContext.recordSideEffect, hmode, hlookup]
      have hnext := ih (.ok output) fun c hc => hrecorded c (List.mem_cons_of_mem _ hc)
      rw [execute, hcached]
      dsimp only
      rw [hnext]
      simp [Execution.after, ExecutionContext.invokes, hmode]

end Program

end PlexSpaces.Journaling
