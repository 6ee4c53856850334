/-!
# Interactions

A computation that makes requests one at a time and goes on with what is
answered.  `run` lets a server with a state answer all of them, `Asks` says which
requests there may be, and `loop` repeats a body that says whether to go on.
`run_loop` is the rule of total correctness for it: an invariant and a measure
that the body lowers.
-/

namespace PlexSpaces.Lib

/-- A computation with requests, each answered before the next one is made. -/
inductive Interaction {Request : Type} (Reply : Request → Type) (α : Type) : Type where
  | done (value : α)
  | ask (request : Request) (next : Reply request → Interaction Reply α)

namespace Interaction

variable {Request : Type} {Reply : Request → Type} {α β ε σ : Type}

def bind (p : Interaction Reply α) (f : α → Interaction Reply β) : Interaction Reply β :=
  match p with
  | done a => f a
  | ask request next => ask request fun reply => (next reply).bind f

instance : Monad (Interaction Reply) where
  pure := done
  bind := bind

theorem bind_assoc {γ : Type} (p : Interaction Reply α) (f : α → Interaction Reply β)
    (g : β → Interaction Reply γ) : (p.bind f).bind g = p.bind fun a => (f a).bind g := by
  induction p with
  | done a => rfl
  | ask request next ih => exact congrArg (ask request) (funext ih)

theorem bind_done (p : Interaction Reply α) : p.bind done = p := by
  induction p with
  | done a => rfl
  | ask request next ih => exact congrArg (ask request) (funext ih)

instance : LawfulMonad (Interaction Reply) :=
  LawfulMonad.mk' _ bind_done (fun _ _ => rfl) bind_assoc

def value? : Interaction Reply α → Option α
  | done a => some a
  | ask _ _ => none

theorem eq_done {p : Interaction Reply α} {a : α} (h : p.value? = some a) : p = done a := by
  cases p with
  | done b => exact congrArg done (Option.some.inj h)
  | ask request next => cases h

def send (request : Request) : Interaction Reply (Reply request) := ask request done

/-- The value and the last state of the server. -/
def run (serve : (r : Request) → σ → Reply r × σ) : Interaction Reply α → σ → α × σ
  | done a, s => (a, s)
  | ask request next, s => run serve (next (serve request s).1) (serve request s).2

variable {serve : (r : Request) → σ → Reply r × σ}

@[simp] theorem run_pure (a : α) (s : σ) :
    run serve (pure a : Interaction Reply α) s = (a, s) := rfl

@[simp] theorem run_send (request : Request) (s : σ) :
    run serve (send request) s = serve request s := rfl

theorem run_bind (p : Interaction Reply α) (f : α → Interaction Reply β) (s : σ) :
    run serve (p >>= f) s = run serve (f (run serve p s).1) (run serve p s).2 := by
  change run serve (p.bind f) s = _
  induction p generalizing s with
  | done a => rfl
  | ask request next ih => exact ih (serve request s).1 (serve request s).2

theorem run_bindExcept (p : ExceptT ε (Interaction Reply) α)
    (f : α → ExceptT ε (Interaction Reply) β) (s : σ) :
    run serve (p >>= f).run s =
      match run serve p.run s with
      | (.ok a, s') => run serve (f a).run s'
      | (.error e, s') => (.error e, s') := by
  change run serve (p.run >>= ExceptT.bindCont f) s = _
  rw [run_bind]
  obtain ⟨result, s'⟩ := run serve p.run s
  cases result with
  | ok a => rfl
  | error e => rfl

/-! ## The requests of an interaction -/

section Asks

variable {allowed : Request → Prop}

/-- Every request that the interaction may come to make is allowed. -/
def Asks (allowed : Request → Prop) : Interaction Reply α → Prop
  | done _ => True
  | ask request next => allowed request ∧ ∀ reply, Asks allowed (next reply)

theorem asks_send {request : Request} (h : allowed request) :
    Asks allowed (send request : Interaction Reply (Reply request)) :=
  ⟨h, fun _ => trivial⟩

theorem Asks.bind {p : Interaction Reply α} {f : α → Interaction Reply β} (hp : Asks allowed p)
    (hf : ∀ a, Asks allowed (f a)) : Asks allowed (p >>= f) := by
  change Asks allowed (p.bind f)
  induction p with
  | done a => exact hf a
  | ask request next ih => exact ⟨hp.1, fun reply => ih reply (hp.2 reply)⟩

theorem Asks.mono {allowed' : Request → Prop} (h : ∀ request, allowed request → allowed' request)
    {p : Interaction Reply α} (hp : Asks allowed p) : Asks allowed' p := by
  induction p with
  | done a => trivial
  | ask request next ih => exact ⟨h request hp.1, fun reply => ih reply (hp.2 reply)⟩

theorem Asks.bindExcept {p : ExceptT ε (Interaction Reply) α}
    {f : α → ExceptT ε (Interaction Reply) β} (hp : Asks allowed p.run)
    (hf : ∀ a, Asks allowed (f a).run) : Asks allowed (p >>= f).run := by
  change Asks allowed (p.run >>= ExceptT.bindCont f)
  refine hp.bind fun result => ?_
  cases result with
  | ok a => exact hf a
  | error e => trivial

theorem Asks.run_invariant {I : σ → Prop}
    (hserve : ∀ request s, allowed request → I s → I (serve request s).2)
    {p : Interaction Reply α} (hp : Asks allowed p) {s : σ} (hs : I s) : I (run serve p s).2 := by
  induction p generalizing s with
  | done a => exact hs
  | ask request next ih => exact ih _ (hp.2 _) (hserve request s hp.1 hs)

/-- A request of the given kind is the last one. -/
def EndsAt (last : Request → Prop) : Interaction Reply α → Prop
  | done _ => True
  | ask request next => (last request → ∀ reply, ∃ a, next reply = done a) ∧
      ∀ reply, EndsAt last (next reply)

theorem EndsAt.bind_of_asks {last : Request → Prop} {p : Interaction Reply α}
    {f : α → Interaction Reply β} (hp : Asks (fun request => ¬last request) p)
    (hf : ∀ a, EndsAt last (f a)) : EndsAt last (p >>= f) := by
  change EndsAt last (p.bind f)
  induction p with
  | done a => exact hf a
  | ask request next ih =>
      exact ⟨fun hlast => absurd hlast hp.1, fun reply => ih reply (hp.2 reply)⟩

theorem EndsAt.bind_pure {last : Request → Prop} {p : Interaction Reply α} (hp : EndsAt last p)
    (f : α → β) : EndsAt last (p >>= fun a => pure (f a)) := by
  change EndsAt last (p.bind fun a => done (f a))
  induction p with
  | done a => trivial
  | ask request next ih =>
      refine ⟨fun hlast reply => ?_, fun reply => ih reply (hp.2 reply)⟩
      obtain ⟨a, ha⟩ := hp.1 hlast reply
      exact ⟨f a, congrArg (·.bind fun a => done (f a)) ha⟩

end Asks

/-! ## Loops -/

section Loop

variable {τ ρ : Type} {body : τ → Interaction Reply (τ ⊕ ρ)}

/-- Repeat a body until it gives a result; `none` when the fuel runs out. -/
def loop (body : τ → Interaction Reply (τ ⊕ ρ)) : Nat → τ → Interaction Reply (Option ρ)
  | 0, _ => pure none
  | fuel + 1, t => do
      match ← body t with
      | .inl t' => loop body fuel t'
      | .inr result => pure (some result)

theorem asks_loop {allowed : Request → Prop} (hbody : ∀ t, Asks allowed (body t)) (fuel : Nat)
    (t : τ) : Asks allowed (loop body fuel t) := by
  induction fuel generalizing t with
  | zero => trivial
  | succ fuel ih =>
      refine (hbody t).bind fun next => ?_
      cases next with
      | inl t' => exact ih t'
      | inr result => trivial

theorem run_loop_succ (fuel : Nat) (t : τ) (s : σ) :
    run serve (loop body (fuel + 1) t) s =
      match run serve (body t) s with
      | (.inl t', s') => run serve (loop body fuel t') s'
      | (.inr result, s') => (some result, s') := by
  rw [loop, run_bind]
  obtain ⟨next, s'⟩ := run serve (body t) s
  cases next with
  | inl t' => rfl
  | inr result => rfl

/-- Total correctness: where the body keeps an invariant and lowers a measure or
gives a good result, enough fuel leads to a good result. -/
theorem run_loop {I : τ → σ → Prop} {Q : ρ → σ → Prop} (measure : τ → Nat)
    (hbody : ∀ t s, I t s →
      match run serve (body t) s with
      | (.inl t', s') => I t' s' ∧ measure t' < measure t
      | (.inr result, s') => Q result s')
    {fuel : Nat} {t : τ} {s : σ} (hI : I t s) (hfuel : measure t < fuel) :
    ∃ result s', run serve (loop body fuel t) s = (some result, s') ∧ Q result s' := by
  induction fuel generalizing t s with
  | zero => exact absurd hfuel (Nat.not_lt_zero _)
  | succ fuel ih =>
      have hstep := hbody t s hI
      rw [run_loop_succ]
      revert hstep
      obtain ⟨next, s'⟩ := run serve (body t) s
      cases next with
      | inl t' =>
          rintro ⟨hI', hless⟩
          exact ih hI' (Nat.lt_of_lt_of_le hless (Nat.le_of_lt_succ hfuel))
      | inr result => exact fun hQ => ⟨result, s', rfl, hQ⟩

end Loop

end Interaction

end PlexSpaces.Lib
