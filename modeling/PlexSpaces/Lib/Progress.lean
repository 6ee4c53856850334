import PlexSpaces.Lib.Interference
/-!
# Programs that end

`World.wp` says what a main program ends with, if it ends.  `World.ends` says more: at every moment
of every schedule an invariant holds and the others can still make room for the next request, so
from wherever a run has come the program can be brought to its end (`ends_reaches`).
-/

namespace PlexSpaces.Lib

variable {Request : Type} {Reply : Request → Type} {σ ε δ α β : Type}

namespace World

variable (w : World Reply σ ε)

/-- However the others interfere, `I` holds at every moment, the main program is never blocked for
good, and it ends with `Q`. -/
def ends (I : σ → Prop) (Q : α → σ → Prop) : Interaction Reply α → σ → Prop
  | .done a, s => ∀ s', w.Leads s s' → I s' ∧ Q a s'
  | .ask request next, s => ∀ s', w.Leads s s' →
      I s' ∧ (∃ s'', w.Leads s' s'' ∧ (w.serve request s'').isSome = true) ∧
      ∀ reply s'', w.serve request s' = some (reply, s'') → ends I Q (next reply) s''

section Rules

variable {w} {I A : σ → Prop} {Q Q' : α → σ → Prop} {s s' s'' : σ}

theorem Leads.trans (h : w.Leads s s') (h' : w.Leads s' s'') : w.Leads s s'' := by
  obtain ⟨moves, rfl⟩ := h
  obtain ⟨moves', rfl⟩ := h'
  exact ⟨moves ++ moves', (run_append s moves moves').symm⟩

theorem ends_leads {p : Interaction Reply α} (h : w.ends I Q p s) (hleads : w.Leads s s') :
    w.ends I Q p s' := by
  cases p with
  | done a => exact fun s'' hleads' => h s'' (hleads.trans hleads')
  | ask request next => exact fun s'' hleads' => h s'' (hleads.trans hleads')

theorem ends_invariant {p : Interaction Reply α} (h : w.ends I Q p s) : I s := by
  cases p with
  | done a => exact (h s .refl).1
  | ask request next => exact (h s .refl).1

theorem ends_mono (hQ : ∀ a s, Q a s → Q' a s) {p : Interaction Reply α} (h : w.ends I Q p s) :
    w.ends I Q' p s := by
  induction p generalizing s with
  | done a => exact fun s' hleads => ⟨(h s' hleads).1, hQ a s' (h s' hleads).2⟩
  | ask request next ih =>
      intro s' hleads
      obtain ⟨hI, hfree, hnext⟩ := h s' hleads
      exact ⟨hI, hfree, fun reply s'' hserve => ih reply (hnext reply s'' hserve)⟩

theorem ends_bind {p : Interaction Reply α} {f : α → Interaction Reply β} {Q : β → σ → Prop}
    (h : w.ends I (fun a => w.ends I Q (f a)) p s) : w.ends I Q (p >>= f) s := by
  change w.ends I Q (p.bind f) s
  induction p generalizing s with
  | done a => exact (h s .refl).2
  | ask request next ih =>
      intro s' hleads
      obtain ⟨hI, hfree, hnext⟩ := h s' hleads
      exact ⟨hI, hfree, fun reply s'' hserve => ih reply (hnext reply s'' hserve)⟩

theorem ends_bindExcept {p : ExceptT δ (Interaction Reply) α}
    {f : α → ExceptT δ (Interaction Reply) β} {Q : Except δ β → σ → Prop}
    (h : w.ends I (fun result s => match result with
      | .ok a => w.ends I Q (f a).run s
      | .error e => w.ends I Q (.done (.error e)) s) p.run s) : w.ends I Q (p >>= f).run s := by
  change w.ends I Q (p.run >>= ExceptT.bindCont f) s
  refine ends_bind (ends_mono (fun result s hresult => ?_) h)
  cases result with
  | ok a => exact hresult
  | error e => exact hresult

theorem ends_done (hA : w.Stable A) (hI : ∀ s, A s → I s) (hs : A s) {a : α}
    (hQ : ∀ s, A s → Q a s) : w.ends I Q (.done a) s :=
  fun s' hleads => ⟨hI s' (hA.leads hs hleads), hQ s' (hA.leads hs hleads)⟩

theorem ends_ask (hA : w.Stable A) (hI : ∀ s, A s → I s) (hs : A s) {request : Request}
    {next : Reply request → Interaction Reply α}
    (hfree : ∀ s, A s → ∃ s', w.Leads s s' ∧ (w.serve request s').isSome = true)
    (hnext : ∀ s reply s', A s → w.serve request s = some (reply, s') →
      w.ends I Q (next reply) s') : w.ends I Q (.ask request next) s :=
  fun s' hleads =>
    have hs' := hA.leads hs hleads
    ⟨hI s' hs', hfree s' hs', fun reply s'' hserve => hnext s' reply s'' hs' hserve⟩

end Rules

/-! ## Runs -/

section Runs

variable {w} {I : σ → Prop} {Q : α → σ → Prop} {m : Machine Reply σ α}

theorem ends_step (h : w.ends I Q m.main m.state) (turn : Turn ε) :
    w.ends I Q (w.step m turn).main (w.step m turn).state := by
  obtain ⟨state, p⟩ := m
  cases turn with
  | main =>
      cases p with
      | done a => exact h
      | ask request next =>
          rw [step]
          dsimp only
          split
          · exact h
          · next hserve => exact (h state .refl).2.2 _ _ hserve
  | other move => exact ends_leads h ⟨[move], rfl⟩

theorem ends_run (h : w.ends I Q m.main m.state) (turns : List (Turn ε)) :
    w.ends I Q (run w.step m turns).main (run w.step m turns).state :=
  run_invariant (I := fun m : Machine Reply σ α => w.ends I Q m.main m.state)
    (fun turn _ _ hm => ends_step hm turn) h

theorem ends_result (h : w.ends I Q m.main m.state) {turns : List (Turn ε)} {a : α}
    (hdone : (run w.step m turns).main = .done a) : Q a (run w.step m turns).state := by
  have hrun := ends_run h turns
  rw [hdone] at hrun
  exact (hrun _ .refl).2

theorem run_others (s : σ) (p : Interaction Reply α) (moves : List ε) :
    run w.step ⟨s, p⟩ (moves.map .other) = ⟨run w.other s moves, p⟩ := by
  induction moves generalizing s with
  | nil => rfl
  | cons move moves ih => exact ih (w.other s move)

theorem ends_reaches (h : w.ends I Q m.main m.state) :
    ∃ turns a, (run w.step m turns).main = .done a := by
  obtain ⟨s, p⟩ := m
  induction p generalizing s with
  | done a => exact ⟨[], a, rfl⟩
  | ask request next ih =>
      obtain ⟨-, ⟨s', ⟨moves, rfl⟩, hserve⟩, -⟩ := h s .refl
      obtain ⟨⟨reply, s''⟩, hreply⟩ := Option.isSome_iff_exists.mp hserve
      obtain ⟨turns, a, hdone⟩ := ih reply s'' ((h _ ⟨moves, rfl⟩).2.2 reply s'' hreply)
      refine ⟨moves.map .other ++ .main :: turns, a, ?_⟩
      have hstep : w.step ⟨run w.other s moves, .ask request next⟩ .main = ⟨s'', next reply⟩ := by
        rw [step]
        dsimp only
        rw [hreply]
      rw [run_append, run_others]
      change (run w.step (w.step _ .main) turns).main = _
      rw [hstep, hdone]

end Runs

end World

end PlexSpaces.Lib
