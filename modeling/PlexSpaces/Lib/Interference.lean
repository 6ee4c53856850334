import PlexSpaces.Lib.Interaction
import PlexSpaces.Lib.Run
/-!
# A program among others

A main program works on a state that others change between any two of its
requests; a request that cannot be answered yet blocks it.  `World.wp` is the
weakest precondition of the main program: what it asserts has to survive the
others' moves, which is what `World.Stable` says of an assertion.  Two worlds
whose answers the program cannot tell apart stay in lockstep (`World.lockstep`).
-/

namespace PlexSpaces.Lib

variable {Request : Type} {Reply : Request → Type} {σ ε α β τ ρ ω : Type}

/-- A main program and the state it works on. -/
structure Machine (Reply : Request → Type) (σ α : Type) where
  state : σ
  main : Interaction Reply α

inductive Turn (ε : Type) where
  | main
  | other (move : ε)

/-- How requests are answered, `none` while they block, what the others do, and which
answers to a request the main program must not tell apart. -/
structure World (Reply : Request → Type) (σ ε : Type) where
  serve : (r : Request) → σ → Option (Reply r × σ)
  other : σ → ε → σ
  alike : (r : Request) → σ → Reply r → Reply r → Prop := fun _ _ _ _ => False

namespace World

variable (w : World Reply σ ε)

def step (m : Machine Reply σ α) : Turn ε → Machine Reply σ α
  | .main =>
      match m.main with
      | .done _ => m
      | .ask request next =>
          match w.serve request m.state with
          | none => m
          | some (reply, state) => ⟨state, next reply⟩
  | .other move => { m with state := w.other m.state move }

def Leads (s s' : σ) : Prop := ∃ moves, s' = run w.other s moves

def Stable (A : σ → Prop) : Prop := ∀ s move, A s → A (w.other s move)

/-- However the others interfere, the main program ends with `Q` only. -/
def wp (Q : α → σ → Prop) : Interaction Reply α → σ → Prop
  | .done a, s => Q a s
  | .ask request next, s => ∀ s', w.Leads s s' →
      ∀ reply s'', w.serve request s' = some (reply, s'') →
      wp Q (next reply) s'' ∧ ∀ reply', w.alike request s'' reply reply' → next reply' = next reply

section Rules

variable {w} {A : σ → Prop} {Q Q' : α → σ → Prop} {s s' : σ}

theorem Leads.refl : w.Leads s s := ⟨[], rfl⟩

theorem Leads.cons {move : ε} (h : w.Leads (w.other s move) s') : w.Leads s s' := by
  obtain ⟨moves, rfl⟩ := h
  exact ⟨move :: moves, rfl⟩

theorem Stable.leads (h : w.Stable A) (hs : A s) (hleads : w.Leads s s') : A s' := by
  obtain ⟨moves, rfl⟩ := hleads
  exact run_invariant (fun move _ s => h s move) hs

theorem wp_mono (hQ : ∀ a s, Q a s → Q' a s) {p : Interaction Reply α} (h : w.wp Q p s) :
    w.wp Q' p s := by
  induction p generalizing s with
  | done a => exact hQ a s h
  | ask request next ih =>
      intro s' hleads reply s'' hserve
      obtain ⟨hnext, halike⟩ := h s' hleads reply s'' hserve
      exact ⟨ih reply hnext, halike⟩

theorem wp_bind {p : Interaction Reply α} {f : α → Interaction Reply β} {Q : β → σ → Prop}
    (h : w.wp (fun a => w.wp Q (f a)) p s) : w.wp Q (p >>= f) s := by
  change w.wp Q (p.bind f) s
  induction p generalizing s with
  | done a => exact h
  | ask request next ih =>
      intro s' hleads reply s'' hserve
      obtain ⟨hnext, halike⟩ := h s' hleads reply s'' hserve
      exact ⟨ih reply hnext, fun reply' hreply => congrArg (·.bind f) (halike reply' hreply)⟩

theorem wp_ask (hA : w.Stable A) (hs : A s) {request : Request}
    {next : Reply request → Interaction Reply α}
    (h : ∀ s reply s', A s → w.serve request s = some (reply, s') →
      w.wp Q (next reply) s' ∧
        ∀ reply', w.alike request s' reply reply' → next reply' = next reply) :
    w.wp Q (.ask request next) s :=
  fun s' hleads reply s'' hserve => h s' reply s'' (hA.leads hs hleads) hserve

/-- The rule of a loop: an invariant that the body keeps while it goes on. -/
theorem wp_loop {body : τ → Interaction Reply (τ ⊕ ρ)} {I : τ → σ → Prop}
    {Q : Option ρ → σ → Prop}
    (hbody : ∀ t s, I t s → w.wp (fun next s => match next with
      | .inl t' => I t' s
      | .inr result => Q (some result) s) (body t) s)
    (hnone : ∀ s, Q none s) {fuel : Nat} {t : τ} (hI : I t s) :
    w.wp Q (Interaction.loop body fuel t) s := by
  induction fuel generalizing t s with
  | zero => exact hnone s
  | succ fuel ih =>
      refine wp_bind (wp_mono (fun next s hnext => ?_) (hbody t s hI))
      cases next with
      | inl t' => exact ih hnext
      | inr result => exact hnext

end Rules

/-! ## Runs -/

section Runs

variable {w} {Q : α → σ → Prop} {m : Machine Reply σ α}

theorem state_invariant {I : σ → Prop}
    (hserve : ∀ request s reply s', w.serve request s = some (reply, s') → I s → I s')
    (hother : w.Stable I) (hI : I m.state) (turns : List (Turn ε)) :
    I (run w.step m turns).state := by
  refine run_invariant (I := fun m : Machine Reply σ α => I m.state) (fun turn _ m hm => ?_) hI
  cases turn with
  | main =>
      rw [step]
      split
      · exact hm
      · split
        · exact hm
        · next hcase => exact hserve _ _ _ _ hcase hm
  | other move => exact hother m.state move hm

theorem wp_step (hQ : ∀ a, w.Stable (Q a)) (h : w.wp Q m.main m.state) (turn : Turn ε) :
    w.wp Q (w.step m turn).main (w.step m turn).state := by
  obtain ⟨state, p⟩ := m
  cases turn with
  | main =>
      cases p with
      | done a => exact h
      | ask request next =>
          rw [step]
          dsimp only
          split
          · exact h
          · next hserve => exact (h state .refl _ _ hserve).1
  | other move =>
      cases p with
      | done a => exact hQ a state move h
      | ask request next => exact fun s' hleads => h s' hleads.cons

/-- Whatever the schedule, the main program ends with `Q` only. -/
theorem wp_run (hQ : ∀ a, w.Stable (Q a)) (h : w.wp Q m.main m.state) {turns : List (Turn ε)}
    {a : α} (hdone : (run w.step m turns).main = .done a) : Q a (run w.step m turns).state := by
  have hrun : w.wp Q (run w.step m turns).main (run w.step m turns).state :=
    run_invariant (I := fun m : Machine Reply σ α => w.wp Q m.main m.state)
      (fun turn _ _ hm => wp_step hQ hm turn) h
  rw [hdone] at hrun
  exact hrun

/-- What a program does with its result at the end does not matter before. -/
theorem run_map (f : α → β) (m : Machine Reply σ α) (turns : List (Turn ε)) :
    run w.step ⟨m.state, m.main.bind fun a => .done (f a)⟩ turns =
      ⟨(run w.step m turns).state, (run w.step m turns).main.bind fun a => .done (f a)⟩ := by
  induction turns generalizing m with
  | nil => rfl
  | cons turn turns ih =>
      have hstep : w.step ⟨m.state, m.main.bind fun a => .done (f a)⟩ turn =
          ⟨(w.step m turn).state, (w.step m turn).main.bind fun a => .done (f a)⟩ := by
        obtain ⟨s, p⟩ := m
        cases turn with
        | other move => rfl
        | main =>
            cases p with
            | done a => rfl
            | ask request next =>
                change w.step ⟨s, .ask request fun r => (next r).bind fun a => .done (f a)⟩ .main = _
                rw [step, step]
                dsimp only
                cases w.serve request s <;> rfl
      rw [run_cons, hstep]
      exact ih (w.step m turn)

/-- Two runs of one program whose answers are equal or not told apart. -/
theorem lockstep {R : σ → σ → Prop} (hQ : ∀ a, w.Stable (Q a))
    (hother : ∀ s s' move, R s s' → R (w.other s move) (w.other s' move))
    (hblocked : ∀ request s s', R s s' → w.serve request s = none → w.serve request s' = none)
    (hserve : ∀ request s s' reply s₁, R s s' → w.serve request s = some (reply, s₁) →
      ∃ reply' s₁', w.serve request s' = some (reply', s₁') ∧ R s₁ s₁' ∧
        (reply' = reply ∨ w.alike request s₁ reply reply'))
    (h : w.wp Q m.main m.state) {s' : σ} (hR : R m.state s') (turns : List (Turn ε)) :
    (run w.step ⟨s', m.main⟩ turns).main = (run w.step m turns).main ∧
      R (run w.step m turns).state (run w.step ⟨s', m.main⟩ turns).state := by
  induction turns generalizing m s' with
  | nil => exact ⟨rfl, hR⟩
  | cons turn turns ih =>
      have hnext : ∃ s'', w.step ⟨s', m.main⟩ turn = ⟨s'', (w.step m turn).main⟩ ∧
          R (w.step m turn).state s'' := by
        obtain ⟨s, p⟩ := m
        cases turn with
        | other move => exact ⟨w.other s' move, rfl, hother s s' move hR⟩
        | main =>
            cases p with
            | done a => exact ⟨s', rfl, hR⟩
            | ask request next =>
                rw [step, step]
                dsimp only
                cases hcase : w.serve request s with
                | none =>
                    rw [hblocked request s s' hR hcase]
                    exact ⟨s', rfl, hR⟩
                | some answer =>
                    obtain ⟨reply, s₁⟩ := answer
                    obtain ⟨reply', s₁', hcase', hR', hreply⟩ :=
                      hserve request s s' reply s₁ hR hcase
                    rw [hcase']
                    refine ⟨s₁', ?_, hR'⟩
                    rcases hreply with rfl | halike
                    · rfl
                    · have hsame := (h s .refl reply s₁ hcase).2 reply' halike
                      exact congrArg (Machine.mk s₁') hsame
      obtain ⟨s'', hstep, hR''⟩ := hnext
      change (run w.step (w.step ⟨s', m.main⟩ turn) turns).main = _ ∧
        R _ (run w.step (w.step ⟨s', m.main⟩ turn) turns).state
      rw [hstep]
      exact ih (wp_step hQ h turn) hR''

end Runs

end World

end PlexSpaces.Lib
