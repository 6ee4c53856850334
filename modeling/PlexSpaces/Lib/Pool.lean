import Mathlib.Data.List.Induction
import PlexSpaces.Lib.Interaction
import PlexSpaces.Lib.Run

/-!
# Calls in progress over one server

Any number of calls run at once, each an interaction; a scheduler picks the call
whose next request is answered.  The log holds, in order, every request that was
answered and every value that was returned, with the number of the call.  `Keeps`
is the triple of a call under interference: its obligations are for every server
state and every log that the other calls may have led to.  `Pool.run_keeps` carries
an invariant over every schedule from these triples.
-/

namespace PlexSpaces.Lib

variable {Request : Type} {Reply : Request → Type} {σ α β ρ ι : Type}

/-- An entry of the log.  The calls are numbered as they start. -/
inductive Event (Reply : Request → Type) (ρ : Type) where
  | served (caller : Nat) (request : Request) (reply : Reply request)
  | returned (caller : Nat) (value : ρ)

/-- The server, the calls that were started, and the log. -/
structure Pool (Reply : Request → Type) (σ ρ : Type) where
  server : σ
  tasks : List (Interaction Reply ρ) := []
  log : List (Event Reply ρ) := []

/-- A scheduler starts a call or lets one go on. -/
inductive Move (ι : Type) where
  | start (call : ι)
  | advance (task : Nat)

def Interaction.ending (caller : Nat) : Interaction Reply ρ → List (Event Reply ρ)
  | .done value => [.returned caller value]
  | .ask _ _ => []

namespace Pool

variable (program : ι → Interaction Reply ρ) (serve : (r : Request) → σ → Reply r × σ)

def step (pool : Pool Reply σ ρ) : Move ι → Pool Reply σ ρ
  | .start call =>
      { pool with
        tasks := pool.tasks ++ [program call]
        log := pool.log ++ (program call).ending pool.tasks.length }
  | .advance task =>
      match pool.tasks[task]? with
      | some (.ask request next) =>
          let (reply, server) := serve request pool.server
          { server
            tasks := pool.tasks.set task (next reply)
            log := pool.log ++ .served task request reply :: (next reply).ending task }
      | _ => pool

/-- The step serves no request for which `cond` fails. -/
def Meets (cond : σ → List (Event Reply ρ) → Request → Prop) (pool : Pool Reply σ ρ) :
    Move ι → Prop
  | .start _ => True
  | .advance task =>
      match pool.tasks[task]? with
      | some (.ask request _) => cond pool.server pool.log request
      | _ => True

end Pool

/-! ## Logs -/

section Log

variable {ε : Type} {good : List ε → ε → Prop} {log : List ε} {e : ε}

/-- Every entry is good after the entries before it. -/
def EachAfter (good : List ε → ε → Prop) (log : List ε) : Prop :=
  ∀ before e after, log = before ++ e :: after → good before e

theorem eachAfter_nil : EachAfter good [] := by
  intro before e after hlog
  exact absurd hlog.symm (List.append_ne_nil_of_right_ne_nil _ (List.cons_ne_nil _ _))

theorem EachAfter.concat (h : EachAfter good log) (he : good log e) :
    EachAfter good (log ++ [e]) := by
  intro before e' after hlog
  rcases List.eq_nil_or_concat after with rfl | ⟨rest, last, rfl⟩
  · obtain ⟨rfl, hlast⟩ := List.append_inj' hlog rfl
    exact List.singleton_inj.mp hlast ▸ he
  · rw [List.concat_eq_append, ← List.cons_append, ← List.append_assoc] at hlog
    exact h before e' rest (List.append_inj' hlog rfl).1

theorem eachAfter_concat : EachAfter good (log ++ [e]) ↔ EachAfter good log ∧ good log e := by
  constructor
  · intro h
    refine ⟨fun before e' after hlog => h before e' (after ++ [e]) ?_, h log e [] rfl⟩
    rw [hlog, List.append_assoc, List.cons_append]
  · exact fun h => h.1.concat h.2

/-- The beginning of a log is good as the whole is. -/
theorem EachAfter.initial {rest : List ε} (h : EachAfter good (log ++ rest)) :
    EachAfter good log := by
  intro before e after hlog
  refine h before e (after ++ rest) ?_
  rw [hlog, List.append_assoc, List.cons_append]

/-- Entries that take a growing measure over a bound come once at most. -/
theorem EachAfter.countP_le_one {m : List ε → Nat} {b : Nat} {p : ε → Bool}
    (hgrows : ∀ log e, good log e → m log ≤ m (log ++ [e]))
    (hcross : ∀ log e, good log e → p e → m log < b ∧ b ≤ m (log ++ [e]))
    (h : EachAfter good log) : log.countP p ≤ 1 := by
  -- none has come below the bound
  suffices hcount : log.countP p ≤ 1 ∧ (m log < b → log.countP p = 0) from hcount.1
  induction log using List.reverseRecOn with
  | nil => exact ⟨Nat.zero_le 1, fun _ => rfl⟩
  | append_singleton log e ih =>
    obtain ⟨hlog, he⟩ := eachAfter_concat.mp h
    have hmono := hgrows log e he
    rw [List.countP_append, List.countP_singleton]
    by_cases hp : p e
    · have hbound := hcross log e he hp
      have hzero := (ih hlog).2 hbound.1
      rw [if_pos hp]
      omega
    · have hle := (ih hlog).1
      have hzero := (ih hlog).2
      rw [if_neg hp]
      omega

theorem eachAfter_iff_take :
    EachAfter good log ↔ ∀ i, (h : i < log.length) → good (log.take i) (log.get ⟨i, h⟩) := by
  constructor
  · intro heach i h
    refine heach _ _ (log.drop (i + 1)) ?_
    rw [List.get_eq_getElem, ← List.drop_eq_getElem_cons h, List.take_append_drop]
  · rintro h before e after rfl
    have hi : before.length < (before ++ e :: after).length := by simp
    simpa using h before.length hi

instance [∀ log e, Decidable (good log e)] : Decidable (EachAfter good log) :=
  decidable_of_iff _ eachAfter_iff_take.symm

end Log

/-! ## Triples under interference -/

namespace Interaction

variable (serve : (r : Request) → σ → Reply r × σ)
variable (inv : σ → List (Event Reply ρ) → Prop)
variable (cond : σ → List (Event Reply ρ) → Request → Prop)
variable (caller : Nat)

/-- From a log that begins with `known`, every request of the caller's interaction keeps the
invariant and its value comes with `post` of the log. -/
def Keeps (post : α → List (Event Reply ρ) → Prop) :
    Interaction Reply α → List (Event Reply ρ) → Prop
  | done a, known => post a known
  | ask request next, known =>
      ∀ s log, known <+: log → inv s log → cond s log request →
        inv (serve request s).2 (log ++ [.served caller request (serve request s).1]) ∧
          Keeps post (next (serve request s).1)
            (log ++ [.served caller request (serve request s).1])

variable {serve inv cond caller} {post post' : α → List (Event Reply ρ) → Prop}

theorem Keeps.bind {p : Interaction Reply α} {f : α → Interaction Reply β}
    {after : β → List (Event Reply ρ) → Prop} {known : List (Event Reply ρ)}
    (hp : Keeps serve inv cond caller post p known)
    (hf : ∀ a log, post a log → Keeps serve inv cond caller after (f a) log) :
    Keeps serve inv cond caller after (p >>= f) known := by
  change Keeps serve inv cond caller after (p.bind f) known
  induction p generalizing known with
  | done a => exact hf a known hp
  | ask request next ih =>
      intro s log hknown hinv hcond
      obtain ⟨hinv', hnext⟩ := hp s log hknown hinv hcond
      exact ⟨hinv', ih _ hnext⟩

theorem Keeps.weaken {p : Interaction Reply α} {known : List (Event Reply ρ)}
    (hp : Keeps serve inv cond caller post p known) (hpost : ∀ a log, post a log → post' a log) :
    Keeps serve inv cond caller post' p known := by
  induction p generalizing known with
  | done a => exact hpost a known hp
  | ask request next ih =>
      intro s log hknown hinv hcond
      obtain ⟨hinv', hnext⟩ := hp s log hknown hinv hcond
      exact ⟨hinv', ih _ hnext⟩

theorem keeps_of_serve (hserve : ∀ request s log, inv s log → cond s log request →
      inv (serve request s).2 (log ++ [.served caller request (serve request s).1]))
    (p : Interaction Reply α) (known : List (Event Reply ρ)) :
    Keeps serve inv cond caller (fun _ log => known <+: log) p known := by
  induction p generalizing known with
  | done a => exact List.prefix_refl known
  | ask request next ih =>
      intro s log hknown hinv hcond
      refine ⟨hserve request s log hinv hcond, (ih _ _).weaken fun _ _ hlog => ?_⟩
      exact (hknown.trans (List.prefix_append _ _)).trans hlog

theorem Keeps.bindExcept {ε : Type} {p : ExceptT ε (Interaction Reply) α}
    {f : α → ExceptT ε (Interaction Reply) β} {post : Except ε α → List (Event Reply ρ) → Prop}
    {after : Except ε β → List (Event Reply ρ) → Prop} {known : List (Event Reply ρ)}
    (hp : Keeps serve inv cond caller post p.run known)
    (hok : ∀ a log, post (.ok a) log → Keeps serve inv cond caller after (f a).run log)
    (herror : ∀ e log, post (.error e) log → after (.error e) log) :
    Keeps serve inv cond caller after (p >>= f).run known := by
  change Keeps serve inv cond caller after (p.run >>= ExceptT.bindCont f) known
  refine hp.bind fun result log hresult => ?_
  cases result with
  | ok a => exact hok a log hresult
  | error e => exact herror e log hresult

/-- One request that keeps the invariant after the log known so far. -/
theorem keeps_send {request : Request} {known : List (Event Reply ρ)}
    (h : ∀ s log, known <+: log → inv s log → cond s log request →
      inv (serve request s).2 (log ++ [.served caller request (serve request s).1])) :
    Keeps serve inv cond caller
      (fun reply log => ∃ before s, known <+: before ∧
        log = before ++ [.served caller request reply] ∧ inv s log)
      (send request) known := by
  intro s log hknown hinv hcond
  have hserved := h s log hknown hinv hcond
  exact ⟨hserved, log, _, hknown, rfl, hserved⟩

/-- Where every request of a kind keeps the invariant, so do the interactions that make
requests of the kind only. -/
theorem Asks.keeps {allowed : Request → Prop}
    (hserve : ∀ request s log, allowed request → inv s log → cond s log request →
      inv (serve request s).2 (log ++ [.served caller request (serve request s).1]))
    {p : Interaction Reply α} (hp : Asks allowed p) (known : List (Event Reply ρ)) :
    Keeps serve inv cond caller (fun _ log => known <+: log) p known := by
  induction p generalizing known with
  | done a => exact List.prefix_refl known
  | ask request next ih =>
      intro s log hknown hinv hcond
      refine ⟨hserve request s log hp.1 hinv hcond, (ih _ (hp.2 _) _).weaken fun _ _ hlog => ?_⟩
      exact (hknown.trans (List.prefix_append _ _)).trans hlog

/-- What was known of a part of the log is known of the whole. -/
theorem Keeps.extend {request : Request} {next : Reply request → Interaction Reply α}
    {known log : List (Event Reply ρ)} (hlog : known <+: log)
    (hp : Keeps serve inv cond caller post (ask request next) known) :
    Keeps serve inv cond caller post (ask request next) log :=
  fun s log' hlog' hinv hcond => hp s log' (hlog.trans hlog') hinv hcond

end Interaction

/-! ## Runs -/

namespace Pool

variable {program : ι → Interaction Reply ρ} {serve : (r : Request) → σ → Reply r × σ}
variable {inv : σ → List (Event Reply ρ) → Prop}
variable {cond : σ → List (Event Reply ρ) → Request → Prop}
variable {post : Nat → ρ → List (Event Reply ρ) → Prop}

/-- The invariant holds and every call in progress has its triple. -/
def Safe (serve : (r : Request) → σ → Reply r × σ) (inv : σ → List (Event Reply ρ) → Prop)
    (cond : σ → List (Event Reply ρ) → Request → Prop)
    (post : Nat → ρ → List (Event Reply ρ) → Prop) (pool : Pool Reply σ ρ) : Prop :=
  inv pool.server pool.log ∧
    ∀ caller request next, pool.tasks[caller]? = some (Interaction.ask request next) →
      (Interaction.ask request next).Keeps serve inv cond caller (post caller) pool.log

theorem safe_start {s : σ} (h : inv s []) : Safe serve inv cond post { server := s } :=
  ⟨h, fun caller request next htask => by
    rw [List.getElem?_nil] at htask
    cases htask⟩

/-- Without a condition every schedule meets it. -/
theorem meets_along (pool : Pool Reply σ ρ) (moves : List (Move ι)) :
    Along (step program serve) (Meets fun _ _ _ => True) pool moves := by
  refine along_of_invariant (I := fun _ => True) (fun pool move _ => ⟨?_, trivial⟩) trivial moves
  unfold Meets
  split
  · trivial
  · split <;> trivial

theorem log_prefix_run (pool : Pool Reply σ ρ) (moves : List (Move ι)) :
    pool.log <+: (run (step program serve) pool moves).log := by
  refine run_invariant (I := fun later : Pool Reply σ ρ => pool.log <+: later.log) ?_
    (List.prefix_refl _)
  intro move _ later h
  apply h.trans
  cases move with
  | start call => exact List.prefix_append _ _
  | advance task =>
      rw [Pool.step]
      split
      · exact List.prefix_append _ _
      · exact List.prefix_refl _

theorem inv_ending {caller : Nat}
    (hreturn : ∀ s log a, inv s log → post caller a log → inv s (log ++ [.returned caller a]))
    {p : Interaction Reply ρ} {s : σ} {log : List (Event Reply ρ)} (hinv : inv s log)
    (hp : p.Keeps serve inv cond caller (post caller) log) : inv s (log ++ p.ending caller) := by
  cases p with
  | done a => exact hreturn s log a hinv hp
  | ask request next => exact (List.append_nil log).symm ▸ hinv

theorem Safe.step (hreturn : ∀ caller s log a, inv s log → post caller a log →
      inv s (log ++ [.returned caller a]))
    (hprogram : ∀ caller call log, (program call).Keeps serve inv cond caller (post caller) log)
    {pool : Pool Reply σ ρ} (hsafe : pool.Safe serve inv cond post) {move : Move ι}
    (hmeets : pool.Meets cond move) :
    (pool.step program serve move).Safe serve inv cond post := by
  obtain ⟨hinv, htasks⟩ := hsafe
  cases move with
  | start call =>
      have hstart := hprogram pool.tasks.length call pool.log
      refine ⟨inv_ending (hreturn _) hinv hstart, fun caller request next htask => ?_⟩
      change (pool.tasks ++ [program call])[caller]? = _ at htask
      rw [List.getElem?_append] at htask
      split_ifs at htask with hold
      · exact (htasks caller request next htask).extend (List.prefix_append _ _)
      · have hlast := (List.getElem?_eq_some_iff.mp htask).1
        have hcaller : caller = pool.tasks.length := by
          rw [List.length_singleton] at hlast
          omega
        rw [hcaller, Nat.sub_self, List.getElem?_cons_zero] at htask
        rw [hcaller]
        rw [Option.some.inj htask] at hstart
        exact hstart.extend (List.prefix_append _ _)
  | advance task =>
      rw [Pool.step]
      split
      next request next htask =>
        rw [Meets, htask] at hmeets
        obtain ⟨hserved, hnext⟩ := htasks task request next htask
          pool.server pool.log (List.prefix_refl _) hinv hmeets
        have hended := inv_ending (hreturn _) hserved hnext
        rw [List.append_assoc, List.singleton_append] at hended
        refine ⟨hended, fun caller request' next' htask' => ?_⟩
        change (pool.tasks.set task _)[caller]? = _ at htask'
        rw [List.getElem?_set] at htask'
        split_ifs at htask' with hsame hlt
        · obtain rfl := hsame
          rw [Option.some.inj htask'] at hnext
          refine hnext.extend ⟨(next (serve request pool.server).1).ending task, ?_⟩
          rw [List.append_assoc, List.singleton_append]
        · exact (htasks caller request' next' htask').extend (List.prefix_append _ _)
      next => exact ⟨hinv, htasks⟩

/-- The rule of interference: an invariant that every call keeps, whatever the others
do, holds after every schedule. -/
theorem run_keeps (hreturn : ∀ caller s log a, inv s log → post caller a log →
      inv s (log ++ [.returned caller a]))
    (hprogram : ∀ caller call log, (program call).Keeps serve inv cond caller (post caller) log)
    {pool : Pool Reply σ ρ} (hsafe : pool.Safe serve inv cond post) {moves : List (Move ι)}
    (hmeets : Along (step program serve) (Meets cond) pool moves) :
    inv (run (step program serve) pool moves).server (run (step program serve) pool moves).log :=
  (hmeets.invariant (fun _ _ hsafe hmeets => hsafe.step hreturn hprogram hmeets) hsafe).1

end Pool

end PlexSpaces.Lib
