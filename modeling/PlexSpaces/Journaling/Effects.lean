import PlexSpaces.Journaling.ExecutionContext
import PlexSpaces.Lib.Run
/-!
# Effects in a replay

The facet keeps the execution context of its actor in a field, and an actor performs its
effects through that field.  When a facet is attached, it builds a context in replay mode from
the journaled effects and replays the messages, but it puts the context into the field only
after the replay, already in normal mode.  So the replayed messages find no context: none of
their effects is answered from the journal, and a restart repeats the original run only where
the replayed messages perform no effect (`recalls_iff`).

A context that holds the outputs would repeat them (`Program.execute_replay`), but it keeps one
output for an id, the last that was journaled (`ExecutionContext.lookup_loadSideEffects`).
-/

namespace PlexSpaces.Journaling

open PlexSpaces.Lib

variable {W S : Type}

/-- What an actor does in a state for a method with its payload. -/
abbrev Handler (W S : Type) := S → String → Bytes → Program W S

def sideEffectsOf (es : List JournalEntry) : List SideEffectEntry :=
  es.filterMap fun e =>
    match e.entry with
    | .sideEffectExecuted effectId request response => some ⟨effectId, request, response⟩
    | _ => none

/-- What comes of a replay, with the calls of the message of each entry. -/
structure Replay (W S : Type) where
  result : Except JournalError S
  world : W
  calls : List (Nat × Call)

/-- The messages among the entries are handled with the context that is in the field. -/
def replayThrough (handler : Handler W S) :
    Option ExecutionContext → S → W → List JournalEntry → Replay W S
  | _, s, w, [] => ⟨.ok s, w, []⟩
  | context, s, w, e :: es =>
      match e.entry with
      | .messageReceived method payload =>
          let x := (handler s method payload).execute context w
          let calls := x.calls.map fun c => (e.sequence, c)
          match x.result with
          | .error err => ⟨.error (.replay ("Replay failed: " ++ err)), x.world, calls⟩
          | .ok _ =>
              let r := replayThrough handler x.context x.state x.world es
              { r with calls := calls ++ r.calls }
      | _ => replayThrough handler context s w es

/-- A running actor with its facet and the field of its facet. -/
structure Incarnation (S : Type) where
  facet : DurabilityFacet
  context : Option ExecutionContext
  state : S

structure Attachment (W S : Type) where
  result : Except FacetError (Incarnation S)
  world : W
  calls : List (Nat × Call)

namespace Setup

def replayContext (st : Storage) (fromSequence : Nat) : ExecutionContext :=
  (ExecutionContext.new .replay).loadSideEffects (sideEffectsOf (st.replayFrom fromSequence))

def replayJournalWithHandler (handler : Handler W S) (st : Storage) (fromSequence : Nat)
    (context : Option ExecutionContext) (s : S) (w : W) :
    ExecutionContext × Replay W S :=
  let ctx := replayContext st fromSequence
  let r := replayThrough handler context s w (st.replayFrom fromSequence)
  match (st.replayFrom 0).getLast? with
  | some e => (ctx.setSequence e.sequence, r)
  | none => (ctx, r)

/-- The context of the replay goes into the field when the replay has ended. -/
def install (u : Setup S) (st : Storage) (ctx : ExecutionContext) (r : Replay W S) :
    Attachment W S :=
  match r.result with
  | .error e => ⟨.error (.invalidConfig e.toString), r.world, r.calls⟩
  | .ok s => ⟨.ok ⟨u.attachedFacet st, some (ctx.setMode .normal), s⟩, r.world, r.calls⟩

/-- `on_attach` of a facet whose field holds `context`; a fresh facet has none. -/
def attach (u : Setup S) (handler : Handler W S) (st : Storage)
    (context : Option ExecutionContext) (w : W) : Attachment W S :=
  if u.config.replayOnActivation = true then
    match u.replayPoint st with
    | .error e => ⟨.error e, w, []⟩
    | .ok (fromSequence, s) =>
        match replayJournalWithHandler handler st fromSequence context s w with
        | (ctx, r) => u.install st ctx r
  else ⟨.ok ⟨u.attachedFacet st, some (.new .normal), u.init⟩, w, []⟩

/-- The state and the entries that a replay starts with, if there is one. -/
def replayed (u : Setup S) (st : Storage) : Option (S × List JournalEntry) :=
  if u.config.replayOnActivation = true then
    match u.replayPoint st with
    | .error _ => none
    | .ok (fromSequence, s) => some (s, st.replayFrom fromSequence)
  else none

end Setup

/-- A durable actor with its storage, the outside world and the calls of its messages, each
with the number of the message. -/
structure Actor (W S : Type) where
  storage : Storage
  life : Option (Incarnation S)
  world : W
  calls : List (Nat × Call)

inductive ActorAction
  | message (method : String) (payload : Bytes) (now : Nat)
  | restart

namespace Actor

def start (w : W) : Actor W S := ⟨Storage.new, none, w, []⟩

/-- The effects that `after_method` journals. -/
def takeSideEffects : Option ExecutionContext →
    List SideEffectEntry × Option ExecutionContext
  | none => ([], none)
  | some ctx => (ctx.takeSideEffects.1, some ctx.takeSideEffects.2)

/-- A message between `before_method` and `after_method`, which only a message that was handled
without an error gets to. -/
def handleMessage (u : Setup S) (handler : Handler W S) (n : Actor W S) (l : Incarnation S)
    (method : String) (payload : Bytes) (now : Nat) : Actor W S :=
  match l.facet.beforeMethod n.storage method payload with
  | (.error _, f, st) => { n with storage := st, life := some { l with facet := f } }
  | (.ok (), f, st) =>
      let x := (handler l.state method payload).execute l.context n.world
      let calls := n.calls ++ x.calls.map fun c => (f.messageSequence, c)
      match x.result with
      | .error _ => ⟨st, some ⟨f, x.context, x.state⟩, x.world, calls⟩
      | .ok reply =>
          match takeSideEffects x.context with
          | (sideEffects, context) =>
              match u.afterMethod f st x.state reply sideEffects now with
              | (_, f, st) => ⟨st, some ⟨f, context, x.state⟩, x.world, calls⟩

/-- A restart attaches a fresh facet, whatever the actor was doing before. -/
def step (u : Setup S) (handler : Handler W S) (n : Actor W S) : ActorAction → Actor W S
  | .message method payload now =>
      match n.life with
      | none => n
      | some l => handleMessage u handler n l method payload now
  | .restart =>
      let a := u.attach handler n.storage none n.world
      { n with life := a.result.toOption, world := a.world }

/-- No closure is invoked in a replay, and each call returns what it returned when its message
was handled first. -/
def Recalls (original replay : List (Nat × Call)) : Prop :=
  ∀ e ∈ replay, e.2.invoked = false ∧
    ∃ c, (e.1, c) ∈ original ∧ c.sideEffectId = e.2.sideEffectId ∧ c.result = e.2.result

/-- The messages among the entries perform no effect, from this state on. -/
def EffectFree (handler : Handler W S) : S → List JournalEntry → Prop
  | _, [] => True
  | s, e :: es =>
      match e.entry with
      | .messageReceived method payload =>
          match handler s method payload with
          | .done s (.ok _) => EffectFree handler s es
          | .done _ (.error _) => True
          | .recordSideEffect _ _ _ _ => False
      | _ => EffectFree handler s es

/-- Without a context in the field, the calls of a replay do not return. -/
theorem replayThrough_none (handler : Handler W S) (s : S) (w : W) (es : List JournalEntry) :
    (replayThrough handler none s w es).world = w ∧
      ∀ e ∈ (replayThrough handler none s w es).calls, e.2.result = none := by
  induction es generalizing s w with
  | nil =>
      refine ⟨rfl, ?_⟩
      intro e he
      cases he
  | cons e es ih =>
      obtain ⟨sequence, ⟨method, payload⟩ | _ | _ | _ | _⟩ := e
      · obtain ⟨hcontext, hworld, hcalls⟩ := (handler s method payload).execute_none w
        have hcall : ∀ e ∈ (((handler s method payload).execute none w).calls.map
            fun c => (sequence, c)), e.2.result = none := by
          intro e he
          obtain ⟨c, hc, rfl⟩ := List.mem_map.mp he
          exact (hcalls c hc).1
        simp only [replayThrough]
        split
        · exact ⟨hworld, hcall⟩
        · rw [hcontext, hworld]
          obtain ⟨hnext, hrest⟩ := ih ((handler s method payload).execute none w).state w
          refine ⟨hnext, ?_⟩
          intro e he
          exact (List.mem_append.mp he).elim (hcall e) (hrest e)
      · exact ih s w
      · exact ih s w
      · exact ih s w
      · exact ih s w

/-- Without a context in the field, a replay makes no call if and only if its messages perform
no effect. -/
theorem replayThrough_none_calls (handler : Handler W S) (s : S) (w : W)
    (es : List JournalEntry) :
    (replayThrough handler none s w es).calls = [] ↔ EffectFree handler s es := by
  induction es generalizing s w with
  | nil => exact iff_of_true rfl trivial
  | cons e es ih =>
      obtain ⟨sequence, ⟨method, payload⟩ | _ | _ | _ | _⟩ := e
      · cases hprogram : handler s method payload with
        | done s' result =>
            cases result with
            | error e => simp [replayThrough, EffectFree, hprogram, Program.execute]
            | ok reply => simpa [replayThrough, EffectFree, hprogram, Program.execute] using ih s' w
        | recordSideEffect id executor k absent =>
            simp only [replayThrough, EffectFree, hprogram, Program.execute, iff_false]
            split <;> simp [Execution.after]
      · exact ih s w
      · exact ih s w
      · exact ih s w
      · exact ih s w

section Run

variable {u : Setup S} {handler : Handler W S}

theorem install_calls (st : Storage) (ctx : ExecutionContext) (r : Replay W S) :
    (u.install st ctx r).calls = r.calls := by
  unfold Setup.install
  split <;> rfl

theorem attach_none (u : Setup S) (handler : Handler W S) (st : Storage) (w : W) :
    (∀ e ∈ (u.attach handler st none w).calls, e.2.result = none) ∧
      ((u.attach handler st none w).calls = [] ↔
        ∀ s es, u.replayed st = some (s, es) → EffectFree handler s es) := by
  unfold Setup.attach Setup.replayed
  by_cases hreplay : u.config.replayOnActivation = true
  · simp only [if_pos hreplay]
    rcases u.replayPoint st with e | ⟨fromSequence, s⟩
    · simp
    · have hreplayed : (Setup.replayJournalWithHandler handler st fromSequence none s w).2 =
          replayThrough handler none s w (st.replayFrom fromSequence) := by
        unfold Setup.replayJournalWithHandler
        split <;> rfl
      simp only [install_calls, hreplayed]
      refine ⟨(replayThrough_none handler s w _).2, ?_⟩
      rw [replayThrough_none_calls]
      constructor
      · rintro h _ _ ⟨⟩
        exact h
      · intro h
        exact h s _ rfl
  · simp [if_neg hreplay]

/-- A running actor has a context, and so had the calls of its messages. -/
structure Contextual (n : Actor W S) : Prop where
  context : ∀ l, n.life = some l → ∃ ctx, l.context = some ctx
  calls : ∀ e ∈ n.calls, e.2.result ≠ none

theorem contextual_handleMessage {n : Actor W S} (h : n.Contextual) {l : Incarnation S}
    (hlife : n.life = some l) (method : String) (payload : Bytes) (now : Nat) :
    (handleMessage u handler n l method payload now).Contextual := by
  obtain ⟨ctx, hctx⟩ := h.context l hlife
  rcases hbefore : l.facet.beforeMethod n.storage method payload with ⟨_ | _, f, st⟩
  · simp only [handleMessage, hbefore]
    refine ⟨?_, h.calls⟩
    rintro l' ⟨⟩
    exact ⟨ctx, hctx⟩
  · obtain ⟨⟨ctx', hcontext⟩, hcalls⟩ := (handler l.state method payload).execute_some ctx n.world
    simp only [handleMessage, hbefore, hctx]
    have hall : ∀ e ∈ n.calls ++ ((handler l.state method payload).execute (some ctx)
        n.world).calls.map fun c => (f.messageSequence, c), e.2.result ≠ none := by
      intro e he
      rcases List.mem_append.mp he with he | he
      · exact h.calls e he
      · obtain ⟨c, hc, rfl⟩ := List.mem_map.mp he
        exact hcalls c hc
    split
    · refine ⟨?_, hall⟩
      rintro l' ⟨⟩
      exact ⟨ctx', hcontext⟩
    · refine ⟨?_, hall⟩
      rintro l' ⟨⟩
      exact ⟨ctx'.takeSideEffects.2, by rw [hcontext]; rfl⟩

theorem contextual_step {n : Actor W S} (h : n.Contextual) (a : ActorAction) :
    (step u handler n a).Contextual := by
  cases a with
  | message method payload now =>
      cases hlife : n.life with
      | none =>
          simp only [step, hlife]
          exact h
      | some l =>
          simp only [step, hlife]
          exact contextual_handleMessage h hlife method payload now
  | restart =>
      refine ⟨?_, h.calls⟩
      intro l hl
      change (u.attach handler n.storage none n.world).result.toOption = some l at hl
      unfold Setup.attach at hl
      split at hl
      · split at hl
        · cases hl
        · simp only [Setup.install] at hl
          split at hl
          · cases hl
          · cases hl
            exact ⟨_, rfl⟩
      · cases hl
        exact ⟨_, rfl⟩

theorem contextual_run (w : W) (as : List ActorAction) :
    (run (step u handler) (start w) as).Contextual := by
  refine run_invariant (I := Contextual) (fun a _ n h => contextual_step h a) ?_
  refine ⟨?_, ?_⟩
  · intro l h
    cases h
  · intro e he
    cases he

/-- A restart after a run of messages and restarts repeats the effects of the run if and only if
the messages that it replays perform none. -/
theorem recalls_iff (u : Setup S) (handler : Handler W S) (w : W) (as : List ActorAction) :
    Recalls (run (step u handler) (start w) as).calls
        (u.attach handler (run (step u handler) (start w) as).storage none
          (run (step u handler) (start w) as).world).calls ↔
      ∀ s es, u.replayed (run (step u handler) (start w) as).storage = some (s, es) →
        EffectFree handler s es := by
  have hcontextual : (run (step u handler) (start w) as).Contextual := contextual_run w as
  generalize run (step u handler) (start w) as = n at hcontextual ⊢
  obtain ⟨hnone, hiff⟩ := attach_none u handler n.storage n.world
  rw [← hiff]
  constructor
  · intro hrecalls
    refine List.eq_nil_iff_forall_not_mem.mpr ?_
    intro e he
    obtain ⟨-, c, hc, -, hresult⟩ := hrecalls e he
    rw [hnone e he] at hresult
    exact hcontextual.calls _ hc hresult
  · intro hcalls
    rw [hcalls]
    intro e he
    cases he

end Run

section Fetch

def fetcher : Setup Nat where
  actorId := "fetcher"
  config := ⟨0, none, true, 0, 1⟩
  codecs := ⟨none, none⟩
  init := 0
  handle := fun s _ _ => s
  replayHandler := none
  adapter := none
  loader := none

/-- Each message fetches a byte from the outside world. -/
def fetch : Handler Nat Nat := fun s _ _ =>
  .recordSideEffect "fetch" (fun w => (.ok [7], w + 1))
    (fun _ => .done (s + 1) (.ok [])) (.done s (.ok []))

/-- One message with one effect is enough: its replay finds no context. -/
theorem not_recalls :
    ¬∀ (u : Setup Nat) (handler : Handler Nat Nat) (w : Nat) (as : List ActorAction),
      ((run (step u handler) (start w) as).calls.map fun e => (e.1, e.2.sideEffectId)).Nodup →
      Recalls (run (step u handler) (start w) as).calls
        (u.attach handler (run (step u handler) (start w) as).storage none
          (run (step u handler) (start w) as).world).calls := by
  intro h
  let n : Actor Nat Nat := run (step fetcher fetch) (start 0) [.restart, .message "get" [] 0]
  have hcalls : n.calls = [(1, ⟨"fetch", some (.ok [7]), true⟩)] := by decide +kernel
  have hreplay : (fetcher.attach fetch n.storage none n.world).calls =
      [(1, ⟨"fetch", none, false⟩)] := by decide +kernel
  have hrecalls := h fetcher fetch 0 [.restart, .message "get" [] 0] (by decide +kernel)
  change Recalls n.calls (fetcher.attach fetch n.storage none n.world).calls at hrecalls
  rw [hcalls, hreplay] at hrecalls
  obtain ⟨-, c, hc, -, hresult⟩ := hrecalls _ List.mem_cons_self
  simp only [List.mem_singleton, Prod.mk.injEq, true_and] at hc
  subst hc
  cases hresult

end Fetch

end Actor

end PlexSpaces.Journaling
