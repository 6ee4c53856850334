import Mathlib.Data.Fintype.Card
import Mathlib.Data.List.FinRange
import Mathlib.Data.Nat.Pairing
import Mathlib.Logic.Function.Basic
import PlexSpaces.Lib.Run
import PlexSpaces.Tuples.Conservation
/-!
# Barrier rounds

`n` participants share one in-memory space and each repeats: register at the
barrier, write a tuple that matches its pattern, await the channel of the
registration.  The write is two lock sections, the tuples and then the barriers,
so it is two steps; registration, the two halves of the write and the receipt of
the wake-up interleave as they like.

The invariant is relative to the number `R` of releases so far: a participant has
registered `R` or `R + 1` times, those with `R + 1` are the waiters, the messages
sent are one for each participant and released round, and when everybody waits
somebody has not finished writing.
-/

namespace PlexSpaces.Tuples

open PlexSpaces.Lib

/-- Where a participant stands in its loop. -/
inductive Stage
  | outside
  | registered
  | stored
  | awaiting
  deriving DecidableEq, Repr

def channel {n : Nat} (i : Fin n) (round : Nat) : Nat := Nat.pair i.val round

theorem channel_inj {n : Nat} {i j : Fin n} {k l : Nat} :
    channel i k = channel j l ↔ i = j ∧ k = l := by
  rw [channel, channel, Nat.pair_eq_pair, Fin.val_inj]

/-- The space, and for each participant how often it has registered and where it
stands. -/
structure Party (n : Nat) where
  space : TupleSpace
  round : Fin n → Nat
  stage : Fin n → Stage

/-- The call that every participant makes, and the tuples it writes. -/
structure BarrierCall (n : Nat) where
  name : String
  pattern : Pattern
  tuple : Fin n → Nat → Tuple
  completes : ∀ i k, (tuple i k).matches pattern = true

namespace Party

variable {n : Nat} (codec : TupleCodec) (call : BarrierCall n)

def start (tuples : List Tuple) : Party n :=
  ⟨TupleSpace.new (.inMemory tuples), fun _ => 0, fun _ => .outside⟩

/-- The next step of participant `i` at a clock reading.  A participant whose
channel is empty stays where it is. -/
def step (s : Party n) (a : Fin n × Nat) : Party n :=
  let i := a.1
  match s.stage i with
  | .outside =>
      { space := s.space.barrier call.name call.pattern n (channel i (s.round i + 1))
        round := Function.update s.round i (s.round i + 1)
        stage := Function.update s.stage i .registered }
  | .registered =>
      { s with
        space := (s.space.writeToStorage codec (call.tuple i (s.round i)) "" a.2).2
        stage := Function.update s.stage i .stored }
  | .stored =>
      { s with
        space := s.space.notifyBarriers (call.tuple i (s.round i))
        stage := Function.update s.stage i .awaiting }
  | .awaiting =>
      if channel i (s.round i) ∈ s.space.sent then
        { s with stage := Function.update s.stage i .outside }
      else
        s

/-! ## The space under the calls of the barrier -/

/-- The only barrier of the space is the call's, with the given waiters. -/
def Waiting (space : TupleSpace) (waiters : List Nat) : Prop :=
  (space.barriers = ∅ ∧ waiters = []) ∨
    space.barriers = AList.singleton call.name ⟨call.pattern, n, waiters⟩

theorem waiting_barrier {space : TupleSpace} {waiters : List Nat}
    (h : Waiting call space waiters) (waiter : Nat) :
    Waiting call (space.barrier call.name call.pattern n waiter) (waiters ++ [waiter]) := by
  right
  rcases h with ⟨hempty, rfl⟩ | hone
  · rw [TupleSpace.barrier, hempty]
    rfl
  · rw [TupleSpace.barrier, hone]
    have hlookup : (AList.singleton call.name ⟨call.pattern, n, waiters⟩ :
        Assoc String Barrier).lookup call.name = some ⟨call.pattern, n, waiters⟩ := by
      simp [AList.singleton, AList.lookup]
    rw [hlookup]
    exact AList.insert_singleton_eq

theorem waiting_notify_of_lt {space : TupleSpace} {waiters : List Nat}
    (h : Waiting call space waiters) (hlt : waiters.length < n) (tuple : Tuple) :
    Waiting call (space.notifyBarriers tuple) waiters ∧
      (space.notifyBarriers tuple).sent = space.sent := by
  have hnot : (⟨call.pattern, n, waiters⟩ : Barrier).completedBy tuple = false := by
    rw [Barrier.completedBy, decide_eq_false (by omega : ¬ n ≤ waiters.length), Bool.and_false]
  rcases h with ⟨hempty, rfl⟩ | hone
  · refine ⟨Or.inl ⟨?_, rfl⟩, ?_⟩
    · rw [TupleSpace.notifyBarriers, hempty]
      rfl
    · rw [TupleSpace.notifyBarriers, hempty]
      exact List.append_nil _
  · refine ⟨Or.inr ?_, ?_⟩
    · rw [TupleSpace.notifyBarriers, hone]
      change Assoc.mapValues (Barrier.release tuple) (AList.singleton call.name _) = _
      apply AList.ext
      simp [Assoc.mapValues, AList.singleton, Barrier.release, hnot]
    · rw [TupleSpace.notifyBarriers, hone]
      simp [Assoc.values, AList.singleton, hnot]

theorem waiting_notify_of_full {space : TupleSpace} {waiters : List Nat}
    (h : Waiting call space waiters) (hn : 0 < n) (hfull : waiters.length = n)
    {tuple : Tuple} (hmatch : tuple.matches call.pattern = true) :
    Waiting call (space.notifyBarriers tuple) [] ∧
      (space.notifyBarriers tuple).sent = space.sent ++ waiters := by
  have hdone : (⟨call.pattern, n, waiters⟩ : Barrier).completedBy tuple = true := by
    rw [Barrier.completedBy, hmatch, decide_eq_true (by omega : n ≤ waiters.length)]
    rfl
  rcases h with ⟨-, rfl⟩ | hone
  · exact absurd hfull (by simp; omega)
  · refine ⟨Or.inr ?_, ?_⟩
    · rw [TupleSpace.notifyBarriers, hone]
      change Assoc.mapValues (Barrier.release tuple) (AList.singleton call.name _) = _
      apply AList.ext
      simp [Assoc.mapValues, AList.singleton, Barrier.release, hdone]
    · rw [TupleSpace.notifyBarriers, hone]
      simp [Assoc.values, AList.singleton, hdone]

theorem writeToStorage_frame (space : TupleSpace) (tuple : Tuple) (id : String) (now : Nat) :
    (space.writeToStorage codec tuple id now).2.barriers = space.barriers ∧
      (space.writeToStorage codec tuple id now).2.sent = space.sent := by
  unfold TupleSpace.writeToStorage
  cases space.storage with
  | inMemory tuples => exact ⟨rfl, rfl⟩
  | external table =>
      dsimp only
      split
      · exact ⟨rfl, rfl⟩
      · exact ⟨rfl, rfl⟩

/-- Run back to back, the two halves are the space's `write`. -/
theorem write_as_steps {s : Party n} {i : Fin n} {tuples : List Tuple}
    (hstage : s.stage i = .registered) (hmem : s.space.storage = .inMemory tuples)
    (now later : Nat) :
    (run (step codec call) s [(i, now), (i, later)]).space =
      (s.space.write codec (call.tuple i (s.round i)) "" now).2 := by
  have hok : s.space.writeToStorage codec (call.tuple i (s.round i)) "" now =
      (.ok (), (s.space.writeToStorage codec (call.tuple i (s.round i)) "" now).2) := by
    rw [TupleSpace.writeToStorage, hmem]
  rw [TupleSpace.write, hok]
  simp [step, hstage]

/-! ## The rounds -/

/-- After `R` releases the participants of `waiters` have registered once more,
in this order. -/
structure InRound (s : Party n) (R : Nat) (waiters : List (Fin n)) : Prop where
  nodup : waiters.Nodup
  mem_waiters : ∀ i, i ∈ waiters ↔ s.round i = R + 1
  round_eq : ∀ i, s.round i = R ∨ s.round i = R + 1
  waiting : Waiting call s.space (waiters.map (channel · (R + 1)))
  sent_nodup : s.space.sent.Nodup
  mem_sent : ∀ c, c ∈ s.space.sent ↔ ∃ i : Fin n, ∃ k, 1 ≤ k ∧ k ≤ R ∧ c = channel i k
  outside : ∀ i, s.stage i = .outside → s.round i = R
  started : ∀ i, s.stage i = .outside ∨ 1 ≤ s.round i
  writer : (∀ i, s.round i = R + 1) → ∃ i, s.stage i = .registered ∨ s.stage i = .stored

namespace InRound

variable {call} {s : Party n} {R : Nat} {waiters : List (Fin n)}

theorem channel_mem_sent (h : InRound call s R waiters) (i : Fin n) (k : Nat) :
    channel i k ∈ s.space.sent ↔ 1 ≤ k ∧ k ≤ R := by
  rw [h.mem_sent]
  constructor
  · rintro ⟨j, l, hl, hlR, heq⟩
    obtain ⟨-, rfl⟩ := channel_inj.mp heq
    exact ⟨hl, hlR⟩
  · rintro ⟨hk, hkR⟩
    exact ⟨i, k, hk, hkR, rfl⟩

theorem length_le (h : InRound call s R waiters) : waiters.length ≤ n := by
  simpa using h.nodup.length_le_card

theorem length_eq_of_all (h : InRound call s R waiters) (hall : ∀ i, s.round i = R + 1) :
    waiters.length = n := by
  have hsub : List.finRange n ⊆ waiters := fun i _ => (h.mem_waiters i).mpr (hall i)
  have hle := ((List.nodup_finRange n).subperm hsub).length_le
  rw [List.length_finRange] at hle
  exact le_antisymm h.length_le hle

theorem perm_of_length_eq (h : InRound call s R waiters) (hfull : waiters.length = n) :
    waiters.Perm (List.finRange n) := by
  have hsub : waiters.Subperm (List.finRange n) :=
    h.nodup.subperm fun i _ => List.mem_finRange i
  exact hsub.perm_of_length_le (by rw [List.length_finRange, hfull])

theorem round_eq_of_full (h : InRound call s R waiters) (hfull : waiters.length = n)
    (i : Fin n) : s.round i = R + 1 :=
  (h.mem_waiters i).mp ((h.perm_of_length_eq hfull).mem_iff.mpr (List.mem_finRange i))

theorem start (hn : 0 < n) (tuples : List Tuple) :
    InRound call (Party.start tuples : Party n) 0 [] where
  nodup := List.nodup_nil
  mem_waiters i := by simp [Party.start]
  round_eq i := Or.inl rfl
  waiting := Or.inl ⟨rfl, rfl⟩
  sent_nodup := List.nodup_nil
  mem_sent c := by
    constructor
    · intro hc
      cases hc
    · rintro ⟨i, k, hk, hk0, -⟩
      omega
  outside i _ := rfl
  started i := Or.inl rfl
  writer hall := absurd (hall ⟨0, hn⟩) (by simp [Party.start])

/-! ## One step in a round -/

theorem outside_of_update {stage : Fin n → Stage} {i j : Fin n} {next : Stage}
    (hnext : next ≠ .outside) (h : Function.update stage i next j = .outside) :
    stage j = .outside := by
  by_cases hj : j = i
  · subst hj
    exact absurd ((Function.update_self j next stage).symm.trans h) hnext
  · exact (Function.update_of_ne hj _ _).symm.trans h

theorem started_update (h : InRound call s R waiters) {i : Fin n} (hi : s.stage i ≠ .outside)
    (next : Stage) (j : Fin n) :
    Function.update s.stage i next j = .outside ∨ 1 ≤ s.round j := by
  by_cases hj : j = i
  · subst hj
    exact Or.inr ((h.started j).resolve_left hi)
  · rw [Function.update_of_ne hj]
    exact h.started j

theorem register (h : InRound call s R waiters) {i : Fin n} {now : Nat}
    (hstage : s.stage i = .outside) :
    InRound call (step codec call s (i, now)) R (waiters ++ [i]) := by
  have hround := h.outside i hstage
  have hnew : i ∉ waiters := by
    rw [h.mem_waiters i, hround]
    omega
  simp only [step, hstage]
  refine ⟨?_, ?_, ?_, ?_, h.sent_nodup, h.mem_sent, ?_, ?_, ?_⟩
  · exact List.nodup_append.mpr ⟨h.nodup, List.nodup_singleton i, by
      rintro j hj k hk rfl
      exact hnew (List.mem_singleton.mp hk ▸ hj)⟩
  · intro j
    rw [List.mem_append, List.mem_singleton, h.mem_waiters j]
    by_cases hj : j = i
    · subst hj
      simp [hround]
    · simp [hj]
  · intro j
    by_cases hj : j = i
    · subst hj
      simp [hround]
    · simpa [hj] using h.round_eq j
  · rw [List.map_append, hround]
    exact waiting_barrier call h.waiting _
  · intro j hj
    by_cases hji : j = i
    · subst hji
      simp at hj
    · have hj := outside_of_update (by decide) hj
      exact (Function.update_of_ne hji _ _).trans (h.outside j hj)
  · intro j
    by_cases hj : j = i
    · subst hj
      simp
    · simpa [hj] using h.started j
  · intro _
    exact ⟨i, Or.inl (Function.update_self ..)⟩

theorem store (h : InRound call s R waiters) {i : Fin n} {now : Nat}
    (hstage : s.stage i = .registered) :
    InRound call (step codec call s (i, now)) R waiters := by
  obtain ⟨hbarriers, hsent⟩ :=
    writeToStorage_frame codec s.space (call.tuple i (s.round i)) "" now
  simp only [step, hstage]
  refine ⟨h.nodup, h.mem_waiters, h.round_eq, ?_, ?_, ?_, ?_,
    h.started_update (by simp [hstage]) _, ?_⟩
  · rw [Waiting, hbarriers]
    exact h.waiting
  · rw [hsent]
    exact h.sent_nodup
  · rw [hsent]
    exact h.mem_sent
  · intro j hj
    exact h.outside j (outside_of_update (by decide) hj)
  · intro _
    exact ⟨i, Or.inr (Function.update_self ..)⟩

/-- A late write finds fewer waiters than participants and wakes nobody. -/
theorem notify_of_lt (h : InRound call s R waiters) {i : Fin n} {now : Nat}
    (hstage : s.stage i = .stored) (hlt : waiters.length < n) :
    InRound call (step codec call s (i, now)) R waiters ∧
      (step codec call s (i, now)).space.sent = s.space.sent := by
  obtain ⟨hwaiting, hsent⟩ := waiting_notify_of_lt call h.waiting
    (by rwa [List.length_map]) (call.tuple i (s.round i))
  simp only [step, hstage]
  refine ⟨⟨h.nodup, h.mem_waiters, h.round_eq, hwaiting, ?_, ?_, ?_,
    h.started_update (by simp [hstage]) _, ?_⟩, hsent⟩
  · rw [hsent]
    exact h.sent_nodup
  · rw [hsent]
    exact h.mem_sent
  · intro j hj
    exact h.outside j (outside_of_update (by decide) hj)
  · intro hall
    exact absurd (h.length_eq_of_all hall) (by omega)

theorem notify_of_full (h : InRound call s R waiters) (hn : 0 < n) {i : Fin n} {now : Nat}
    (hstage : s.stage i = .stored) (hfull : waiters.length = n) :
    InRound call (step codec call s (i, now)) (R + 1) [] ∧
      (step codec call s (i, now)).space.sent =
        s.space.sent ++ waiters.map (channel · (R + 1)) := by
  obtain ⟨hwaiting, hsent⟩ := waiting_notify_of_full call h.waiting hn
    (by rwa [List.length_map]) (call.completes i (s.round i))
  have hall := h.round_eq_of_full hfull
  simp only [step, hstage]
  refine ⟨⟨List.nodup_nil, ?_, fun j => Or.inl (hall j), hwaiting, ?_, ?_,
    fun j _ => hall j, h.started_update (by simp [hstage]) _, ?_⟩, hsent⟩
  · intro j
    rw [hall j]
    simp
  · rw [hsent]
    refine List.nodup_append.mpr ⟨h.sent_nodup, ?_, ?_⟩
    · exact h.nodup.map fun j k hjk => (channel_inj.mp hjk).1
    · rintro c hc d hd rfl
      obtain ⟨j, -, rfl⟩ := List.mem_map.mp hd
      have := (h.channel_mem_sent j (R + 1)).mp hc
      omega
  · intro c
    rw [hsent, List.mem_append, h.mem_sent c]
    constructor
    · rintro (⟨j, k, hk, hkR, rfl⟩ | hc)
      · exact ⟨j, k, hk, by omega, rfl⟩
      · obtain ⟨j, -, rfl⟩ := List.mem_map.mp hc
        exact ⟨j, R + 1, by omega, le_rfl, rfl⟩
    · rintro ⟨j, k, hk, hkR, rfl⟩
      rcases Nat.lt_or_eq_of_le hkR with hlt | rfl
      · exact Or.inl ⟨j, k, hk, by omega, rfl⟩
      · exact Or.inr (List.mem_map.mpr ⟨j, (h.mem_waiters j).mpr (hall j), rfl⟩)
  · intro hnext
    have := hnext ⟨0, hn⟩
    have := hall ⟨0, hn⟩
    simp only at *
    omega

theorem receive (h : InRound call s R waiters) {i : Fin n} {now : Nat}
    (hstage : s.stage i = .awaiting) :
    InRound call (step codec call s (i, now)) R waiters := by
  simp only [step, hstage]
  split
  next hwoken =>
      -- A message is sent only in a released round, so `i` is not among the waiters.
      have hround : s.round i = R := by
        have := (h.channel_mem_sent i (s.round i)).mp hwoken
        have := h.round_eq i
        omega
      refine ⟨h.nodup, h.mem_waiters, h.round_eq, h.waiting, h.sent_nodup, h.mem_sent, ?_,
        h.started_update (by simp [hstage]) _, ?_⟩
      · intro j hj
        by_cases hji : j = i
        · subst hji
          exact hround
        · exact h.outside j ((Function.update_of_ne hji _ _).symm.trans hj)
      · intro hall
        have := hall i
        simp only at this
        omega
  next => exact h

/-- Every step stays in the round, or releases it and wakes everybody in it. -/
theorem step_cases (h : InRound call s R waiters) (hn : 0 < n) (a : Fin n × Nat) :
    (∃ waiters', InRound call (step codec call s a) R waiters' ∧
      (step codec call s a).space.sent = s.space.sent) ∨
    waiters.length = n ∧ InRound call (step codec call s a) (R + 1) [] ∧
      (step codec call s a).space.sent = s.space.sent ++ waiters.map (channel · (R + 1)) := by
  obtain ⟨i, now⟩ := a
  cases hstage : s.stage i with
  | outside => exact Or.inl ⟨_, h.register codec hstage, by simp [step, hstage, TupleSpace.barrier]⟩
  | registered =>
      refine Or.inl ⟨_, h.store codec hstage, ?_⟩
      simp only [step, hstage]
      exact (writeToStorage_frame codec s.space _ "" now).2
  | stored =>
      rcases Nat.lt_or_eq_of_le h.length_le with hlt | hfull
      · exact Or.inl ⟨_, h.notify_of_lt codec hstage hlt⟩
      · exact Or.inr ⟨hfull, h.notify_of_full codec hn hstage hfull⟩
  | awaiting =>
      refine Or.inl ⟨_, h.receive codec hstage, ?_⟩
      simp only [step, hstage]
      split
      · rfl
      · rfl

theorem count_sent (h : InRound call s R waiters) (i : Fin n) (k : Nat) :
    s.space.sent.count (channel i k) = if 1 ≤ k ∧ k ≤ R then 1 else 0 := by
  split
  next hk => exact List.count_eq_one_of_mem h.sent_nodup ((h.channel_mem_sent i k).mpr hk)
  next hk => exact List.count_eq_zero.mpr fun hmem => hk ((h.channel_mem_sent i k).mp hmem)

theorem exists_woken (h : InRound call s R waiters)
    (hawait : ∀ i, s.stage i = .awaiting) : ∃ i, channel i (s.round i) ∈ s.space.sent := by
  by_contra hnone
  have hall : ∀ i, s.round i = R + 1 := by
    intro i
    rcases h.round_eq i with hi | hi
    · have hstarted := (h.started i).resolve_left (by simp [hawait i])
      exact absurd ⟨i, (h.channel_mem_sent i _).mpr ⟨hstarted, hi.le⟩⟩ hnone
    · exact hi
  obtain ⟨i, hi | hi⟩ := h.writer hall
  · exact absurd (hi.symm.trans (hawait i)) (by decide)
  · exact absurd (hi.symm.trans (hawait i)) (by decide)

end InRound

theorem inRound_run (hn : 0 < n) (tuples : List Tuple) (schedule : List (Fin n × Nat)) :
    ∃ R waiters, InRound call (run (step codec call) (start tuples) schedule) R waiters := by
  refine run_invariant (I := fun s => ∃ R waiters, InRound call s R waiters) ?_
    ⟨0, [], InRound.start hn tuples⟩
  rintro a - s ⟨R, waiters, h⟩
  rcases h.step_cases codec hn a with ⟨waiters', hstay, -⟩ | ⟨-, hrelease, -⟩
  · exact ⟨R, waiters', hstay⟩
  · exact ⟨R + 1, [], hrelease⟩

/-- In every reachable state a step wakes nobody or exactly the `n` participants
registered in the current round; nobody is more than one round ahead; a
participant has one message for every round it has left and never two; and not
everybody waits for a message that has not been sent. -/
theorem barrier_rounds (hn : 0 < n) (tuples : List Tuple) (schedule : List (Fin n × Nat)) :
    let s := run (step codec call) (start tuples) schedule
    (∀ a, (step codec call s a).space.sent = s.space.sent ∨
      ∃ k, ∃ woken : List (Fin n), woken.Perm (List.finRange n) ∧ (∀ i, s.round i = k) ∧
        (step codec call s a).space.sent = s.space.sent ++ woken.map (channel · k)) ∧
    (∀ i j, s.round i ≤ s.round j + 1) ∧
    (∀ (i : Fin n) k, s.space.sent.count (channel i k) ≤ 1) ∧
    (∀ (i : Fin n) k, 1 ≤ k → k < s.round i ∨ k = s.round i ∧ s.stage i = .outside →
      s.space.sent.count (channel i k) = 1) ∧
    ¬ ((∀ i, s.stage i = .awaiting) ∧ ∀ i, channel i (s.round i) ∉ s.space.sent) := by
  intro s
  obtain ⟨R, waiters, h⟩ := inRound_run codec call hn tuples schedule
  change InRound call s R waiters at h
  refine ⟨?_, ?_, ?_, ?_, ?_⟩
  · intro a
    rcases h.step_cases codec hn a with ⟨-, -, hsent⟩ | ⟨hfull, -, hsent⟩
    · exact Or.inl hsent
    · exact Or.inr ⟨R + 1, waiters, h.perm_of_length_eq hfull, h.round_eq_of_full hfull, hsent⟩
  · intro i j
    have := h.round_eq i
    have := h.round_eq j
    omega
  · intro i k
    rw [h.count_sent i k]
    split
    · exact le_rfl
    · exact Nat.zero_le 1
  · intro i k hk hleft
    have hkR : k ≤ R := by
      rcases hleft with hlt | ⟨rfl, hout⟩
      · have := h.round_eq i
        omega
      · exact (h.outside i hout).le
    rw [h.count_sent i k, if_pos ⟨hk, hkR⟩]
  · rintro ⟨hawait, hnone⟩
    obtain ⟨i, hi⟩ := h.exists_woken hawait
    exact hnone i hi

def ticketCall : BarrierCall 2 where
  name := "iteration"
  pattern := ⟨[.wildcard]⟩
  tuple _ _ := History.ticket.1
  completes _ _ := by decide

/-- Participant 1 finishes its write of the first round after participant 0 has
registered for the second. -/
def lateWrite : List (Fin 2 × Nat) :=
  [(0, 1), (1, 1), (0, 2), (0, 3), (0, 4), (0, 5), (1, 6), (1, 7)]

theorem barrier_rounds_late_write :
    let s := run (step History.ticketCodec ticketCall) (start []) lateWrite
    s.round 0 = 2 ∧ s.stage 1 = .awaiting ∧
    s.space.sent = [channel (0 : Fin 2) 1, channel (1 : Fin 2) 1] ∧
      s.space.sent.count (channel (0 : Fin 2) 1) = 1 ∧ s.round 0 ≤ s.round 1 + 1 ∧
      ¬ ((∀ i, s.stage i = .awaiting) ∧ ∀ i, channel i (s.round i) ∉ s.space.sent) := by
  intro s
  obtain ⟨-, hahead, -, hcount, hlive⟩ :=
    barrier_rounds History.ticketCodec ticketCall (by decide) [] lateWrite
  have hround : s.round 0 = 2 := by decide
  exact ⟨hround, by decide, by decide, hcount 0 1 le_rfl (Or.inl (by decide)), hahead 0 1, hlive⟩

end Party

end PlexSpaces.Tuples
