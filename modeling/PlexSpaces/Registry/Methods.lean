import PlexSpaces.Registry.History
/-!
# The methods of the object registry

Every method, whatever the others do, makes justified requests only, and what it returns is
told by the log.  So after every schedule of calls on any nodes the table and the caches agree
with the log, and the log is sound (`after_consistent`).  Two of the facts in it are read off
here: what a lookup by alias answers, and on what a verdict of the failure detector rests.
-/

namespace PlexSpaces.Registry

open PlexSpaces.Lib

variable {ν : Type} [DecidableEq ν]

abbrev Keeps {α : Type} (caller : Nat) (post : α → List (LogEntry ν) → Prop)
    (p : Interaction (Reply (ν := ν)) α) (known : List (LogEntry ν)) : Prop :=
  Interaction.Keeps Cluster.serve Consistent (fun _ _ _ => True) caller post p known

def Request.Plain : Request ν → Prop
  | .statement (.delete _ _ false) => False
  | .cache _ (.insert _ _ _) => False
  | _ => True

omit [DecidableEq ν] in
theorem Request.Plain.justified {request : Request ν} (h : request.Plain)
    (caller : Nat) (log : List (LogEntry ν)) : request.Justified caller log := by
  unfold Request.Justified
  split
  · exact False.elim h
  · exact False.elim h
  · trivial

variable {caller : Nat}

theorem keeps_of_plain {α : Type} {p : Interaction (Reply (ν := ν)) α}
    (hp : p.Asks Request.Plain) (known : List (LogEntry ν)) :
    Keeps caller (fun _ log => known <+: log) p known :=
  hp.keeps (fun request _ log hplain h _ => h.serve request (hplain.justified _ log)) known

section Plain

omit [DecidableEq ν]

theorem asks_statement {s : Statement} (h : (Request.statement s : Request ν).Plain) :
    (statement s : Method ν _).run.Asks Request.Plain :=
  (Interaction.asks_send h).bind fun _ => trivial

theorem asks_statement_bind {β : Type} {s : Statement} {f : s.Answer → Method ν β}
    (h : (Request.statement s : Request ν).Plain)
    (hf : ∀ a, (f a).run.Asks Request.Plain) : (statement s >>= f).run.Asks Request.Plain :=
  (asks_statement h).bindExcept hf

theorem asks_cache {node : ν} {op : CacheOp} (h : (Request.cache node op).Plain) :
    (cache node op).run.Asks Request.Plain :=
  (Interaction.asks_send h).bind fun _ => trivial

theorem asks_readClock : (readClock : Method ν Nat).run.Asks Request.Plain :=
  (Interaction.asks_send (trivial : (Request.now : Request ν).Plain)).bind fun _ => trivial

theorem asks_checkNodeId (ctx : RequestContext) (registration : ObjectRegistration) :
    (checkNodeId ctx registration : Method ν Unit).run.Asks Request.Plain := by
  unfold checkNodeId
  split_ifs
  · refine asks_statement_bind trivial fun existing => ?_
    split_ifs
    · trivial
    · trivial
  · trivial

theorem asks_register (node : ν) (ctx : RequestContext) (registration : ObjectRegistration) :
    (register node ctx registration).run.Asks Request.Plain := by
  unfold register
  refine Interaction.Asks.bindExcept (p := ExceptT.mk (pure (validate ctx registration))) ?_ ?_
  · trivial
  · intro _
    refine (asks_checkNodeId ctx _).bindExcept fun _ => ?_
    refine asks_readClock.bindExcept fun now => ?_
    refine asks_readClock.bindExcept fun storedAt => ?_
    refine asks_statement_bind trivial fun _ => ?_
    split_ifs
    · exact asks_cache trivial
    · trivial

theorem asks_unregister (node : ν) (ctx : RequestContext) (objectId : String) :
    (unregister node ctx objectId).run.Asks Request.Plain := by
  unfold unregister
  refine asks_statement_bind trivial fun existing => ?_
  cases existing with
  | none => trivial
  | some registration =>
      refine asks_statement_bind trivial fun _ => ?_
      split_ifs
      · exact asks_cache trivial
      · trivial

theorem asks_heartbeat (ctx : RequestContext) (objectId : String) :
    (heartbeat ctx objectId : Method ν Unit).run.Asks Request.Plain := by
  unfold heartbeat
  refine asks_readClock.bindExcept fun now => ?_
  refine asks_statement_bind trivial fun _ => ?_
  refine asks_statement_bind trivial fun _ => ?_
  exact asks_statement trivial

end Plain

/-! ## Statements and cache accesses in a method -/

/-- What is known after a request: its entry, at the end of a log with the invariant. -/
def Logged (known : List (LogEntry ν)) (e : LogEntry ν) (log : List (LogEntry ν)) : Prop :=
  ∃ before, known <+: before ∧ log = before ++ [e] ∧ LogEntry.Sound before e

omit [DecidableEq ν] in
theorem Logged.mem {known log : List (LogEntry ν)} {e : LogEntry ν} (h : Logged known e log) :
    e ∈ log := by
  obtain ⟨before, -, rfl, -⟩ := h
  exact List.mem_append_right _ (List.mem_singleton_self e)

omit [DecidableEq ν] in
theorem Logged.prefix {known log : List (LogEntry ν)} {e : LogEntry ν} (h : Logged known e log) :
    known <+: log := by
  obtain ⟨before, hknown, rfl, -⟩ := h
  exact hknown.trans (List.prefix_append _ _)

theorem keeps_ask {request : Request ν} {known : List (LogEntry ν)}
    (hjustified : ∀ log, known <+: log → request.Justified caller log) :
    Keeps caller (fun reply log => Logged known (.served caller request reply) log) (ask request)
      known := by
  refine (Interaction.keeps_send fun s log hknown h _ =>
    h.serve request (hjustified log hknown)).weaken ?_
  rintro reply log ⟨before, s, hknown, rfl, h⟩
  exact ⟨before, hknown, rfl, (eachAfter_concat.mp h.sound).2⟩

theorem keeps_statement_bind {β : Type} {s : Statement} {f : s.Answer → Method ν β}
    {post : Except ObjectRegistryError β → List (LogEntry ν) → Prop} {known : List (LogEntry ν)}
    (hjustified : ∀ log, known <+: log → (Request.statement s : Request ν).Justified caller log)
    (herror : ∀ e log, post (.error e) log)
    (hok : ∀ a log, Logged known (.served caller (.statement s) (.ok a)) log →
      Keeps caller post (f a).run log) : Keeps caller post (statement s >>= f).run known := by
  have hstatement : Keeps caller (fun result log => ∀ a, result = .ok a →
      Logged known (.served caller (.statement s) (.ok a)) log)
      (statement s : Method ν _).run known := by
    refine (keeps_ask hjustified).bind fun reply log hlogged => ?_
    intro a ha
    cases reply with
    | ok b =>
        cases ha
        exact hlogged
    | error e => cases ha
  exact hstatement.bindExcept (fun a log h => hok a log (h a rfl)) fun e log _ => herror e log

theorem keeps_cache_bind {β : Type} {node : ν} {op : CacheOp} {f : op.Answer → Method ν β}
    {post : Except ObjectRegistryError β → List (LogEntry ν) → Prop} {known : List (LogEntry ν)}
    (hjustified : ∀ log, known <+: log → (Request.cache node op).Justified caller log)
    (herror : ∀ e log, post (.error e) log)
    (hok : ∀ a log, Logged known (.served caller (.cache node op) a) log →
      Keeps caller post (f a).run log) :
    Keeps caller post (cache node op >>= f).run known := by
  have hcache : Keeps caller (fun result log => ∀ a, result = .ok a →
      Logged known (.served caller (.cache node op) a) log) (cache node op).run known := by
    refine (keeps_ask hjustified).bind fun reply log hlogged => ?_
    intro a ha
    cases ha
    exact hlogged
  exact hcache.bindExcept (fun a log h => hok a log (h a rfl)) fun e log _ => herror e log

theorem keeps_readClock_bind {β : Type} {f : Nat → Method ν β}
    {post : Except ObjectRegistryError β → List (LogEntry ν) → Prop} {known : List (LogEntry ν)}
    (herror : ∀ e log, post (.error e) log)
    (hok : ∀ now log, known <+: log → Keeps caller post (f now).run log) :
    Keeps caller post (readClock >>= f).run known :=
  (keeps_of_plain asks_readClock known).bindExcept hok fun e log _ => herror e log

/-! ## The methods that justify their requests -/

theorem keeps_displaceStale (node : ν) (scope : Scope) (aliasName : String)
    (known : List (LogEntry ν)) :
    Keeps caller (fun _ _ => True) (displaceStale node scope aliasName).run known := by
  unfold displaceStale
  refine keeps_statement_bind (fun _ _ => trivial) (fun _ _ => trivial) fun holder log hread => ?_
  cases holder with
  | none => trivial
  | some existing =>
      dsimp only
      split_ifs with hactive
      · trivial
      · refine keeps_statement_bind (fun log' hlog => ?_) (fun _ _ => trivial) fun _ log' _ => ?_
        · exact ⟨aliasName, existing, hlog.subset hread.mem, rfl, Bool.eq_false_iff.mpr hactive⟩
        · exact keeps_cache_bind (fun _ _ => trivial) (fun _ _ => trivial) fun _ _ _ => trivial

theorem keeps_registerWithUniqueAlias (node : ν) (ctx : RequestContext)
    (registration : ObjectRegistration) (enforceUnique : Bool) (known : List (LogEntry ν)) :
    Keeps caller (fun _ _ => True)
      (registerWithUniqueAlias node ctx registration enforceUnique).run known := by
  unfold registerWithUniqueAlias
  have hconflict : Keeps caller (fun _ _ => True)
      (aliasConflict node ctx registration enforceUnique).run known := by
    unfold aliasConflict
    split_ifs
    · exact keeps_displaceStale node ctx.scope registration.aliasName known
    · trivial
  refine hconflict.bindExcept (fun conflict log _ => ?_) ?_
  · cases conflict with
    | some result => trivial
    | none =>
        refine (keeps_of_plain (asks_register node ctx registration) log).bindExcept ?_ ?_
        · exact fun _ _ _ => trivial
        · exact fun _ _ _ => trivial
  · exact fun _ _ _ => trivial

theorem keeps_lookupByAlias (node : ν) (ctx : RequestContext) (aliasName : String)
    (known : List (LogEntry ν)) :
    Keeps caller (fun result log => ∀ value, result = .ok value →
        Answered log caller node ctx aliasName value)
      (lookupByAlias node ctx aliasName).run known := by
  unfold lookupByAlias
  refine keeps_readClock_bind (fun _ _ _ h => by cases h) fun now log _ => ?_
  refine keeps_cache_bind (fun _ _ => trivial) (fun _ _ _ h => by cases h)
    fun answer log' hget => ?_
  cases answer with
  | some cached =>
      -- the answer comes from an entry of the cache
      intro value hvalue
      cases hvalue
      obtain ⟨before, -, rfl, ts, hage, hfilled⟩ := hget
      exact Or.inr ⟨before, [], now, ts, rfl, hage, hfilled⟩
  | none =>
      refine keeps_statement_bind (fun _ _ => trivial) (fun _ _ _ h => by cases h)
        fun result log₁ hread => ?_
      refine keeps_readClock_bind (fun _ _ _ h => by cases h) fun filledAt log₂ hlog₂ => ?_
      refine keeps_cache_bind (fun log₃ hlog₃ => ?_) (fun _ _ _ h => by cases h)
        fun _ log₄ hfilled => ?_
      · exact ⟨ctx.scope, (hlog₂.trans hlog₃).subset hread.mem⟩
      · intro value hvalue
        cases hvalue
        exact Or.inl ((hlog₂.trans hfilled.prefix).subset hread.mem)

/-- A failure has been counted and the registration has been read after that. -/
def Judging (log : List (LogEntry ν)) (caller : Nat) (scope : Scope) (objectId : String) (n : Nat)
    (registration : ObjectRegistration) (later : List (LogEntry ν)) : Prop :=
  ∃ e₁ e₂, log = e₁ ++ LogEntry.counted caller scope objectId n ::
    (e₂ ++ .served caller (.statement (.get scope objectId)) (.ok (some registration)) :: later)

omit [DecidableEq ν] in
theorem Judging.mono {log log' later : List (LogEntry ν)} {scope : Scope} {objectId : String}
    {n : Nat} {registration : ObjectRegistration}
    (h : Judging log caller scope objectId n registration later) (hlog : log <+: log') :
    ∃ later', Judging log' caller scope objectId n registration later' ∧ later ⊆ later' := by
  obtain ⟨more, rfl⟩ := hlog
  obtain ⟨e₁, e₂, rfl⟩ := h
  exact ⟨later ++ more, ⟨e₁, e₂, by simp⟩, List.subset_append_left _ _⟩

omit [DecidableEq ν] in
theorem Judging.concat {log log' later : List (LogEntry ν)} {scope : Scope} {objectId : String}
    {n : Nat} {registration : ObjectRegistration} {e : LogEntry ν}
    (h : Judging log caller scope objectId n registration later) (he : Logged log e log') :
    ∃ later', Judging log' caller scope objectId n registration later' ∧ later ⊆ later' ∧
      e ∈ later' := by
  obtain ⟨before, hbefore, rfl, -⟩ := he
  obtain ⟨later', ⟨e₁, e₂, rfl⟩, hsub⟩ := h.mono hbefore
  refine ⟨later' ++ [e], ⟨e₁, e₂, by simp⟩, ?_, List.mem_append_right _ (List.mem_singleton_self e)⟩
  exact List.Subset.trans hsub (List.subset_append_left _ _)

/-- The failure is counted, the registration read and the status written; then come an optional
access to the cache and an optional cascade. -/
theorem keeps_recordHeartbeatFailure (node : ν) (ctx : RequestContext) (objectId : String)
    (known : List (LogEntry ν)) :
    Keeps caller (fun result log => ∀ status, result = .ok status →
        Verdict log caller ctx.scope objectId status)
      (recordHeartbeatFailure node ctx objectId).run known := by
  unfold recordHeartbeatFailure
  refine keeps_statement_bind (fun _ _ => trivial) (fun _ _ _ h => by cases h)
    fun n log₁ hcounted => ?_
  refine keeps_statement_bind (fun _ _ => trivial) (fun _ _ _ h => by cases h)
    fun holder log₂ hgot => ?_
  cases holder with
  | none => exact fun _ h => by cases h
  | some registration =>
      have hjudging : Judging log₂ caller ctx.scope objectId n registration [] := by
        obtain ⟨before, -, rfl, -⟩ := hcounted
        obtain ⟨before', ⟨e₂, rfl⟩, rfl, -⟩ := hgot
        exact ⟨before, e₂, by simp⟩
      dsimp only
      refine keeps_statement_bind (fun _ _ => trivial) (fun _ _ _ h => by cases h)
        fun _ log₃ hupdated => ?_
      obtain ⟨later, hlater, -, hmem⟩ := hjudging.concat hupdated
      -- the rest of the method, from any longer log
      have hcascade (log : List (LogEntry ν)) (hlog : log₃ <+: log) :
          Keeps caller (fun result log => ∀ status, result = .ok status →
              Verdict log caller ctx.scope objectId status)
            (if statusAfter registration n = .dead ∧ registration.objectType = objectTypeNode
              then do
                let _ ← statement (.markDeadByNodeId ctx.scope registration.objectId)
                return statusAfter registration n
              else return statusAfter registration n : Method ν HealthStatus).run log := by
        obtain ⟨later₁, hlater₁, hsub⟩ := hlater.mono hlog
        split_ifs with hdead
        · refine keeps_statement_bind (fun _ _ => trivial) (fun _ _ _ h => by cases h)
            fun m log' hmarked => ?_
          obtain ⟨later₂, ⟨e₁, e₂, heq⟩, hsub', hmark⟩ := hlater₁.concat hmarked
          intro status hstatus
          cases hstatus
          exact ⟨n, registration, e₁, e₂, later₂, heq, rfl, hsub' (hsub hmem),
            fun _ _ => ⟨m, hmark⟩⟩
        · obtain ⟨e₁, e₂, heq⟩ := hlater₁
          intro status hstatus
          cases hstatus
          exact ⟨n, registration, e₁, e₂, later₁, heq, rfl, hsub hmem,
            fun hstatus htype => absurd ⟨hstatus, htype⟩ hdead⟩
      by_cases halias : registration.aliasName ≠ ""
      · rw [if_pos halias]
        exact keeps_cache_bind (fun _ _ => trivial) (fun _ _ _ h => by cases h)
          fun _ log hdropped => hcascade log hdropped.prefix
      · rw [if_neg halias]
        exact hcascade log₃ (List.prefix_refl _)

/-- What a call returns is sound after the log that it returns to. -/
theorem keeps_program (caller : Nat) (call : Call ν) (known : List (LogEntry ν)) :
    Keeps caller (fun returned log => LogEntry.Sound log (.returned caller returned))
      (program call) known := by
  cases call with
  | register node ctx registration =>
      exact (keeps_of_plain (asks_register node ctx registration) known).bind
        fun _ _ _ => trivial
  | registerWithUniqueAlias node ctx registration enforceUnique =>
      exact (keeps_registerWithUniqueAlias node ctx registration enforceUnique known).bind
        fun _ _ _ => trivial
  | unregister node ctx objectId =>
      exact (keeps_of_plain (asks_unregister node ctx objectId) known).bind fun _ _ _ => trivial
  | heartbeat ctx objectId =>
      exact (keeps_of_plain (asks_heartbeat ctx objectId) known).bind fun _ _ _ => trivial
  | recordHeartbeatFailure node ctx objectId =>
      refine (keeps_recordHeartbeatFailure node ctx objectId known).bind fun result log h => ?_
      cases result with
      | ok status => exact h status rfl
      | error e => trivial
  | lookupByAlias node ctx aliasName =>
      refine (keeps_lookupByAlias node ctx aliasName known).bind fun result log h => ?_
      cases result with
      | ok value => exact h value rfl
      | error e => trivial
  | updateHealthStatus ctx objectId status =>
      refine (keeps_of_plain ?_ known).bind fun _ _ _ => trivial
      exact asks_statement trivial
  | markObjectsDeadByNode ctx nodeId =>
      refine (keeps_of_plain ?_ known).bind fun _ _ _ => trivial
      exact asks_statement trivial

omit [DecidableEq ν] in
/-- The end of a call changes neither the table nor a cache. -/
theorem Consistent.returned (caller : Nat) (c : Cluster ν) (log : List (LogEntry ν))
    (value : Returned ν) (h : Consistent c log)
    (hsound : LogEntry.Sound log (.returned caller value)) :
    Consistent c (log ++ [.returned caller value]) where
  recorded k := by
    rw [recorded_concat]
    exact h.recorded k
  blobs := h.blobs
  limits := h.limits
  fits := h.fits
  cached node aliasName x ts hlookup :=
    (h.cached node aliasName x ts hlookup).concat (fun _ he => by cases he)
  sound := h.sound.concat hsound

/-- After every schedule the table and the caches agree with a sound log. -/
theorem after_consistent (clock : List Nat) (faults : List (Option String))
    (moves : List (Move (Call ν))) :
    Consistent (after clock faults moves).server (after clock faults moves).log := by
  exact Pool.run_keeps Consistent.returned keeps_program
    (Pool.safe_start (start_consistent clock faults)) (Pool.meets_along _ moves)

end PlexSpaces.Registry
