import PlexSpaces.Lib.Run

/-!
# Failure detection in rounds

A detector that suspects first.  In a round a trusted member may be hit by a probe that fails; a
suspect whose timeout has passed is declared dead; and one that has been dead for long enough is
removed.  Nothing in a round lifts a suspicion, so what becomes of a member is decided by the first
round that hits it and by the checks from that round on (`declared_iff`).
-/

namespace PlexSpaces.Lib

inductive Trust
  | trusted
  | suspected (since : Nat)
  | dead (since : Nat)
  | gone
  deriving DecidableEq

/-- What one round of the detector means for one member. -/
structure DetectionRound where
  hit : Bool
  probed : Nat
  timeout : Nat
  checked : Nat
  reapAfter : Nat
  reaped : Nat

/-- The check of the round finds overdue who is suspected since `since`. -/
def DetectionRound.Overdue (r : DetectionRound) (since : Nat) : Prop :=
  r.timeout < r.checked - since

instance (r : DetectionRound) (since : Nat) : Decidable (r.Overdue since) :=
  inferInstanceAs (Decidable (_ < _))

namespace Trust

def suspect (now : Nat) : Trust → Trust
  | trusted => suspected now
  | st => st

def check (timeout now : Nat) : Trust → Trust
  | suspected since => if timeout < now - since then dead now else suspected since
  | st => st

def reap (reapAfter now : Nat) : Trust → Trust
  | dead since => if reapAfter < now - since then gone else dead since
  | st => st

def round (st : Trust) (r : DetectionRound) : Trust :=
  ((if r.hit then st.suspect r.probed else st).check r.timeout r.checked).reap r.reapAfter r.reaped

def Declared : Trust → Prop
  | dead _ | gone => True
  | _ => False

theorem declared_round {st : Trust} (h : st.Declared) (r : DetectionRound) :
    (st.round r).Declared := by
  have hreap : ∀ since, ((dead since).reap r.reapAfter r.reaped).Declared := by
    intro since
    unfold reap
    dsimp only
    split <;> trivial
  cases st with
  | trusted => exact h.elim
  | suspected since => exact h.elim
  | dead since =>
    have hround : (dead since).round r = (dead since).reap r.reapAfter r.reaped := by
      unfold round
      split <;> rfl
    rw [hround]
    exact hreap since
  | gone =>
    have hround : gone.round r = gone := by
      unfold round
      split <;> rfl
    rw [hround]
    trivial

theorem round_trusted_of_spared {r : DetectionRound} (h : r.hit = false) :
    trusted.round r = trusted := by
  unfold round
  rw [h]
  rfl

theorem round_trusted_of_hit {r : DetectionRound} (h : r.hit = true) :
    trusted.round r = (suspected r.probed).round r := by
  unfold round
  rw [h]
  rfl

theorem round_suspected_of_overdue {r : DetectionRound} {since : Nat} (h : r.Overdue since) :
    ((suspected since).round r).Declared := by
  have hcheck : (suspected since).check r.timeout r.checked = dead r.checked := if_pos h
  have hround : (suspected since).round r = (dead r.checked).reap r.reapAfter r.reaped := by
    unfold round
    rw [show (if r.hit = true then (suspected since).suspect r.probed else suspected since)
      = suspected since by split <;> rfl, hcheck]
  rw [hround]
  unfold reap
  dsimp only
  split <;> trivial

theorem round_suspected_of_not_overdue {r : DetectionRound} {since : Nat}
    (h : ¬ r.Overdue since) : (suspected since).round r = suspected since := by
  have hcheck : (suspected since).check r.timeout r.checked = suspected since := if_neg h
  unfold round
  rw [show (if r.hit = true then (suspected since).suspect r.probed else suspected since)
    = suspected since by split <;> rfl, hcheck]
  rfl

/-! ## Whole runs -/

theorem declared_run {st : Trust} (h : st.Declared) (rs : List DetectionRound) :
    (run round st rs).Declared :=
  run_invariant (I := Declared) (fun r _ _ hst => declared_round hst r) h

theorem declared_run_suspected_iff {since : Nat} {rs : List DetectionRound} :
    (run round (suspected since) rs).Declared ↔ ∃ r ∈ rs, r.Overdue since := by
  induction rs with
  | nil => simp [Declared]
  | cons r rs ih =>
    simp only [run_cons, List.mem_cons, exists_eq_or_imp]
    by_cases h : r.Overdue since
    · exact ⟨fun _ => Or.inl h, fun _ => declared_run (round_suspected_of_overdue h) rs⟩
    · rw [round_suspected_of_not_overdue h, ih]
      exact ⟨Or.inr, fun hor => hor.resolve_left h⟩

theorem run_suspected_of_none {since : Nat} {rs : List DetectionRound}
    (h : ∀ r ∈ rs, ¬ r.Overdue since) : run round (suspected since) rs = suspected since := by
  induction rs with
  | nil => rfl
  | cons r rs ih =>
    obtain ⟨hr, hrs⟩ := List.forall_mem_cons.1 h
    rw [run_cons, round_suspected_of_not_overdue hr, ih hrs]

/-- A trusted member stays trusted just as long as no round hits it. -/
theorem trusted_iff {rs : List DetectionRound} :
    run round trusted rs = trusted ↔ ∀ r ∈ rs, r.hit = false := by
  induction rs with
  | nil => simp
  | cons r rs ih =>
    rw [run_cons, List.forall_mem_cons]
    cases hr : r.hit with
    | false =>
      rw [round_trusted_of_spared hr, ih]
      simp
    | true =>
      rw [round_trusted_of_hit hr, ← run_cons]
      constructor
      · intro h
        by_cases hover : ∃ f ∈ r :: rs, f.Overdue r.probed
        · have hdecl := declared_run_suspected_iff.2 hover
          rw [h] at hdecl
          exact hdecl.elim
        · rw [run_suspected_of_none (by simpa using hover)] at h
          cases h
      · intro h
        exact absurd h.1 (by simp)

def FirstHit (rs : List DetectionRound) (r : DetectionRound) (after : List DetectionRound) : Prop :=
  ∃ before, rs = before ++ r :: after ∧ (∀ b ∈ before, b.hit = false) ∧ r.hit = true

theorem run_of_firstHit {rs : List DetectionRound} {r : DetectionRound}
    {after : List DetectionRound} (h : FirstHit rs r after) :
    run round trusted rs = run round (suspected r.probed) (r :: after) := by
  obtain ⟨before, rfl, hbefore, hr⟩ := h
  rw [run_append, trusted_iff.2 hbefore, run_cons, round_trusted_of_hit hr, run_cons]

theorem exists_firstHit {rs : List DetectionRound} (h : ∃ r ∈ rs, r.hit = true) :
    ∃ r after, FirstHit rs r after := by
  induction rs with
  | nil => simp at h
  | cons r rs ih =>
    cases hr : r.hit with
    | true => exact ⟨r, rs, [], rfl, by simp, hr⟩
    | false =>
      have hrest : ∃ f ∈ rs, f.hit = true := by simpa [hr] using h
      obtain ⟨f, after, before, rfl, hbefore, hf⟩ := ih hrest
      exact ⟨f, after, r :: before, rfl, List.forall_mem_cons.2 ⟨hr, hbefore⟩, hf⟩

/-- A trusted member has been declared dead just where a round has hit it and a check from that
round on found the suspicion overdue. -/
theorem declared_iff {rs : List DetectionRound} :
    (run round trusted rs).Declared ↔
      ∃ r after, FirstHit rs r after ∧ ∃ f ∈ r :: after, f.Overdue r.probed := by
  constructor
  · intro h
    by_cases hhit : ∃ r ∈ rs, r.hit = true
    · obtain ⟨r, after, hfirst⟩ := exists_firstHit hhit
      rw [run_of_firstHit hfirst] at h
      exact ⟨r, after, hfirst, declared_run_suspected_iff.1 h⟩
    · rw [trusted_iff.2 (by simpa using hhit)] at h
      exact h.elim
  · rintro ⟨r, after, hfirst, hover⟩
    rw [run_of_firstHit hfirst]
    exact declared_run_suspected_iff.2 hover

end Trust

end PlexSpaces.Lib
