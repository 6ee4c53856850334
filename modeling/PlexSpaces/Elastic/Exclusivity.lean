import PlexSpaces.Elastic.Pool
import PlexSpaces.Lib.Custody
import PlexSpaces.Lib.Run

/-!
# Who has a worker

A call has at most one worker in its hands, from the moment it takes it out of the queue
until it puts it back, sends it to a waiter or is told that its client returns it.
`LockSection` lists what the next section of a call can do to the pool, and `advance_cases`
says that this is all.

The pool is a custody of its workers: idle ones lie in the queue, and the others are in
the hands of calls and clients.  Every lock section is a step of that custody
(`step_custody`), so that in every interleaving no worker is in two places.
-/

namespace PlexSpaces.Elastic

open PlexSpaces.Lib

/-- The worker that a call, or the client that made it, has in its hands. -/
def Call.worker? : Call → Option String
  | .checkoutWorker worker | .checkedOut worker | .held worker | .checkin worker
  | .takeWaiter worker | .serve worker _ | .respond worker _ | .refuse _ worker _
  | .giveBack worker | .waiting (some (.ok worker)) => some worker
  | _ => none

def Call.waits : Call → Bool
  | .waiting none => true
  | _ => false

theorem Call.waits_iff {call : Call} : call.waits = true ↔ call = .waiting none := by
  constructor
  · intro h
    unfold waits at h
    split at h
    · rfl
    · cases h
  · rintro rfl
    rfl

namespace ElasticPool

/-- The pool after the next section of a call. -/
inductive LockSection (s : ElasticPool) (c : Nat) : ElasticPool → Prop
  | stays : LockSection s c s
  /-- The call goes on, and every worker stays where it is. -/
  | goes {workers : Assoc String WorkerState} {draining : Bool} {scalingState : ScalingState}
      {next : Call} (hworkers : ∀ w, w ∈ workers ↔ w ∈ s.workers)
      (hhand : next.worker? = (s.calls c).worker?) (hwaits : next.waits = false) :
      LockSection s c (({ s with workers, draining, scalingState } : ElasticPool).put c next)
  | takes {worker : String} {rest : List String} (hcall : s.calls c = .takeAvailable)
      (hqueue : s.availableWorkers = worker :: rest) :
      LockSection s c
        (({ s with availableWorkers := rest } : ElasticPool).put c (.checkoutWorker worker))
  | queues (hcall : s.calls c = .enqueue) :
      LockSection s c
        (({ s with checkoutQueue := s.checkoutQueue ++ [c] } : ElasticPool).put c (.waiting none))
  | serves {worker : String} {waiter : Nat} {rest : List Nat}
      (hcall : s.calls c = .takeWaiter worker) (hqueue : s.checkoutQueue = waiter :: rest) :
      LockSection s c
        (({ s with checkoutQueue := rest } : ElasticPool).put c (.serve worker waiter))
  | responds {worker : String} {waiter : Nat} (hcall : s.calls c = .respond worker waiter) :
      LockSection s c ((s.send waiter (.ok worker)).put c .done)
  | refuses {e : ElasticPoolError} {worker : String} {waiter : Nat}
      (hcall : s.calls c = .refuse e worker waiter) :
      LockSection s c ((s.send waiter (.error e)).put c (.giveBack worker))
  | givesBack {worker : String} (hcall : s.calls c = .giveBack worker) :
      LockSection s c
        (({ s with availableWorkers := s.availableWorkers ++ [worker] } : ElasticPool).put c .done)
  | spawns {ids : List String} (hcall : s.calls c = .spawn ids.length) (hfresh : s.Fresh ids) :
      LockSection s c ((s.spawnWorkers ids).put c .done)
  | removes {count : Nat} (hcall : s.calls c = .remove count) :
      LockSection s c ((s.removeWorkers count).put c .done)
  | removesLast {count : Nat} (hcall : s.calls c = .removeLast count) :
      LockSection s c ((s.removeLastWorkers count).put c .done)

variable {s : ElasticPool} {c : Nat}

theorem LockSection.put {next : Call} (hhand : next.worker? = (s.calls c).worker?)
    (hwaits : next.waits = false) : LockSection s c (s.put c next) :=
  .goes (fun _ => Iff.rfl) hhand hwaits

theorem LockSection.insert {worker : String} (hmem : worker ∈ s.workers) (state : WorkerState)
    {next : Call} (hhand : next.worker? = (s.calls c).worker?) (hwaits : next.waits = false) :
    LockSection s c
      (({ s with workers := s.workers.insert worker state } : ElasticPool).put c next) :=
  .goes (fun _ => (AList.mem_insert _).trans (or_iff_right_of_imp fun h => h ▸ hmem)) hhand hwaits

theorem checkoutWorker_of_mem {worker : String} (hmem : worker ∈ s.workers) :
    s.checkoutWorker worker = .ok { s with workers := s.workers.insert worker .busy } := by
  rw [checkoutWorker, if_pos hmem]

/-- What the next section of a call does, as long as the worker in its hands is in the pool. -/
theorem advance_cases (config : PoolConfig) (ids : List String)
    (hmem : ∀ worker, (s.calls c).worker? = some worker → worker ∈ s.workers) :
    LockSection s c (s.advance config c ids) := by
  rw [advance]
  cases hcall : s.calls c with
  | checkout | scaleTo _ | autoScale _ =>
      refine .put ?_ ?_
      · rw [hcall]
        split_ifs <;> rfl
      · split_ifs <;> rfl
  | takeAvailable =>
      dsimp only
      split
      · next worker rest hqueue => exact .takes hcall hqueue
      · exact .put (by rw [hcall]; rfl) rfl
  | enqueue => exact .queues hcall
  | waiting response =>
      cases response with
      | none => exact .stays
      | some result =>
          cases result with
          | ok worker => exact .put (by rw [hcall]; rfl) rfl
          | error e => exact .put (by rw [hcall]; rfl) rfl
  | checkoutWorker worker | serve worker _ =>
      have hworker : worker ∈ s.workers := hmem worker (by rw [hcall]; rfl)
      dsimp only
      rw [checkoutWorker_of_mem hworker]
      exact .insert hworker .busy (by rw [hcall]; rfl) rfl
  | checkin worker =>
      have hworker : worker ∈ s.workers := hmem worker (by rw [hcall]; rfl)
      dsimp only
      rw [if_pos hworker]
      exact .insert hworker .available (by rw [hcall]; rfl) rfl
  | takeWaiter worker =>
      dsimp only
      split
      · next waiter rest hqueue => exact .serves hcall hqueue
      · exact .put (by rw [hcall]; rfl) rfl
  | respond worker waiter => exact .responds hcall
  | refuse e worker waiter => exact .refuses hcall
  | giveBack worker => exact .givesBack hcall
  | spawn count =>
      dsimp only
      split_ifs with h
      · obtain ⟨rfl, hfresh⟩ := h
        exact .spawns hcall hfresh
      · exact .stays
  | remove count => exact .removes hcall
  | removeLast count => exact .removesLast hcall
  | drain | delete => exact .goes (fun _ => Iff.rfl) (by rw [hcall]; rfl) rfl
  | draining =>
      dsimp only
      split_ifs
      · exact .put (by rw [hcall]; rfl) rfl
      · exact .stays
  | checkedOut _ | scaleBy _ | scaleUp | scaleDown | deleteCount =>
      exact .put (by rw [hcall]; rfl) rfl
  | idle | held _ | failed _ | checkinFailed _ | done => exact .stays

end ElasticPool

namespace ElasticPool

def custody (s : ElasticPool) : Custody String Nat where
  stock worker := worker ∈ s.workers
  shelf := s.availableWorkers
  hand := Call.worker? ∘ s.calls

def Holds (s : ElasticPool) (c : Nat) (worker : String) : Prop := s.calls c = .held worker

theorem Holds.hand {s : ElasticPool} {c : Nat} {worker : String} (h : s.Holds c worker) :
    s.custody.hand c = some worker :=
  congrArg Call.worker? h

/-- A worker is sent to a checkout that has given up, or reaches one that gives up. -/
def Loses (s : ElasticPool) : Step → Prop
  | .advance c _ =>
      match s.calls c with
      | .respond _ waiter => ¬(s.calls waiter).waits
      | _ => False
  | .timeout c =>
      match s.calls c with
      | .waiting (some (.ok _)) => True
      | _ => False
  | _ => False

variable {s : ElasticPool} {c : Nat} {config : PoolConfig}

theorem custody_put (s : ElasticPool) (c : Nat) (next : Call) :
    (s.put c next).custody =
      { s.custody with hand := Function.update s.custody.hand c next.worker? } := by
  rw [custody, custody, put, Function.comp_update]

theorem custody_put_of_eq {next : Call} (h : next.worker? = s.custody.hand c) :
    (s.put c next).custody = s.custody := by
  rw [custody_put, h, Function.update_eq_self]

theorem passes_put {next : Call} (h : next.worker? = s.custody.hand c) :
    s.custody.Passes (s.put c next).custody :=
  custody_put_of_eq h ▸ .stay

theorem passes_goes {workers : Assoc String WorkerState} {draining : Bool}
    {scalingState : ScalingState} {next : Call} (hworkers : ∀ w, w ∈ workers ↔ w ∈ s.workers)
    (hhand : next.worker? = s.custody.hand c) :
    s.custody.Passes
      (({ s with workers, draining, scalingState } : ElasticPool).put c next).custody := by
  have hstock : (fun w => w ∈ workers) = fun w => w ∈ s.workers :=
    funext fun w => propext (hworkers w)
  have hcustody : ({ s with workers, draining, scalingState } : ElasticPool).custody =
      s.custody := by
    rw [custody, custody, hstock]
  rw [custody_put_of_eq (s := { s with workers, draining, scalingState }) hhand, hcustody]
  exact .stay

theorem mem_foldl_insert {ids : List String} {workers : Assoc String WorkerState} {w : String} :
    w ∈ ids.foldl (fun workers id => workers.insert id .available) workers ↔
      w ∈ workers ∨ w ∈ ids := by
  induction ids generalizing workers with
  | nil => simp
  | cons id ids ih =>
      rw [List.foldl_cons, ih, AList.mem_insert, List.mem_cons, or_comm (a := w = id), or_assoc]

theorem mem_foldl_erase {ids : List String} {workers : Assoc String WorkerState} {w : String} :
    w ∈ ids.foldl (fun workers id => workers.erase id) workers ↔ w ∈ workers ∧ w ∉ ids := by
  induction ids generalizing workers with
  | nil => simp
  | cons id ids ih =>
      rw [List.foldl_cons, ih, AList.mem_erase, List.mem_cons, not_or, and_comm (a := w ≠ id),
        and_assoc]

theorem passes_spawnWorkers {ids : List String} (h : s.Fresh ids) :
    s.custody.Passes (s.spawnWorkers ids).custody := by
  have hcustody : (s.spawnWorkers ids).custody = { s.custody with
      stock := fun w => s.custody.stock w ∨ w ∈ ids, shelf := s.custody.shelf ++ ids } := by
    have hstock : (fun w => w ∈ (s.spawnWorkers ids).workers) = fun w => w ∈ s.workers ∨ w ∈ ids :=
      funext fun w => propext mem_foldl_insert
    rw [custody, hstock]
    rfl
  exact hcustody ▸ .supply h.1 h.2

/-- Taking workers off the queue that do not stay on it. -/
theorem passes_takeOut {ids rest : List String} (hsub : rest.Sublist s.availableWorkers)
    (hids : ∀ w, w ∈ ids ↔ w ∈ s.availableWorkers ∧ w ∉ rest) :
    s.custody.Passes (s.takeOut ids rest).custody := by
  have hcustody : (s.takeOut ids rest).custody = { s.custody with
      stock := fun w => s.custody.stock w ∧ (w ∈ s.custody.shelf → w ∈ rest), shelf := rest } := by
    have hstock : (fun w => w ∈ (s.takeOut ids rest).workers) =
        fun w => w ∈ s.workers ∧ (w ∈ s.availableWorkers → w ∈ rest) := by
      funext w
      have hmem : w ∈ (s.takeOut ids rest).workers ↔ w ∈ s.workers ∧ w ∉ ids := mem_foldl_erase
      rw [hmem, hids w, not_and, not_not]
    rw [custody, hstock]
    rfl
  exact hcustody ▸ .withdraw hsub

theorem passes_removeWorkers (s : ElasticPool) (count : Nat) :
    s.custody.Passes (s.removeWorkers count).custody := by
  refine passes_takeOut List.filter_sublist fun w => ?_
  rw [List.mem_filter, decide_eq_true_eq, not_and, not_not]
  exact ⟨fun h => ⟨List.mem_of_mem_take h, fun _ => h⟩, fun h => h.2 h.1⟩

theorem passes_removeLastWorkers (hs : s.custody.Exclusive) (count : Nat) :
    s.custody.Passes (s.removeLastWorkers count).custody := by
  refine passes_takeOut (List.take_sublist _ _) fun w => ?_
  have hnodup : s.availableWorkers.Nodup := hs.nodup
  generalize s.availableWorkers.length - count = kept
  rw [← List.take_append_drop kept s.availableWorkers] at hnodup
  have hapart := List.disjoint_of_nodup_append hnodup
  constructor
  · intro h
    exact ⟨List.mem_of_mem_drop h, fun ht => hapart ht h⟩
  · rintro ⟨hmem, hnot⟩
    rw [← List.take_append_drop kept s.availableWorkers] at hmem
    exact (List.mem_append.mp hmem).resolve_left hnot

theorem passes_respond {worker : String} {waiter : Nat} (hcall : s.calls c = .respond worker waiter)
    (hwaits : (s.calls waiter).waits) :
    s.custody.Passes ((s.send waiter (.ok worker)).put c .done).custody := by
  have hwaiting : s.calls waiter = .waiting none := Call.waits_iff.mp hwaits
  have hhand : s.custody.hand c = some worker := congrArg Call.worker? hcall
  have hfree : s.custody.hand waiter = none := congrArg Call.worker? hwaiting
  have hsend : s.send waiter (.ok worker) = s.put waiter (.waiting (some (.ok worker))) := by
    rw [send, hwaiting]
  rw [hsend, custody_put, custody_put]
  exact .give c waiter hhand hfree

/-- A response to a checkout that has given up is dropped. -/
theorem send_of_not_waits {waiter : Nat} (h : ¬(s.calls waiter).waits)
    (response : Except ElasticPoolError String) : s.send waiter response = s := by
  rw [send]
  split
  · next hcall => exact absurd (Call.waits_iff.mpr hcall) h
  · rfl

theorem custody_send_error (waiter : Nat) (e : ElasticPoolError) :
    (s.send waiter (.error e)).custody = s.custody := by
  by_cases hwaits : (s.calls waiter).waits
  · have hwaiting : s.calls waiter = .waiting none := Call.waits_iff.mp hwaits
    have hsend : s.send waiter (.error e) = s.put waiter (.waiting (some (.error e))) := by
      rw [send, hwaiting]
    have hfree : s.custody.hand waiter = none := congrArg Call.worker? hwaiting
    rw [hsend]
    exact custody_put_of_eq hfree.symm
  · rw [send_of_not_waits hwaits]

/-- The next lock section of a call as a step of the custody. -/
theorem advance_custody (config : PoolConfig) (hs : s.custody.Exclusive) (c : Nat)
    (ids : List String) :
    s.custody.Passes (s.advance config c ids).custody ∨
      s.Loses (.advance c ids) ∧ (s.advance config c ids).custody = s.custody.drop c := by
  have hhand : ∀ {call next : Call}, s.calls c = call → next.worker? = call.worker? →
      next.worker? = s.custody.hand c :=
    fun hcall hsame => hsame.trans (congrArg Call.worker? hcall).symm
  have hsection := advance_cases config ids fun worker h => (hs.held c worker h).1
  generalize s.advance config c ids = s' at hsection ⊢
  cases hsection with
  | stays => exact .inl .stay
  | goes hworkers hnext _ => exact .inl (passes_goes hworkers hnext)
  | takes hcall hqueue =>
      left
      rw [custody_put]
      exact .take c hqueue (congrArg Call.worker? hcall)
  | queues hcall => exact .inl (passes_put (hhand hcall rfl))
  | serves hcall hqueue => exact .inl (passes_put (hhand hcall rfl))
  | @responds worker waiter hcall =>
      by_cases hwaits : (s.calls waiter).waits
      · exact .inl (passes_respond hcall hwaits)
      · right
        refine ⟨?_, ?_⟩
        · rw [Loses, hcall]
          exact hwaits
        · rw [send_of_not_waits hwaits, custody_put]
          rfl
  | @refuses e worker waiter hcall =>
      left
      have hsend := custody_send_error (s := s) waiter e
      have hput : ((s.send waiter (.error e)).put c (.giveBack worker)).custody =
          (s.send waiter (.error e)).custody := by
        refine custody_put_of_eq ?_
        rw [hsend]
        exact hhand hcall rfl
      rw [hput, hsend]
      exact .stay
  | givesBack hcall =>
      left
      rw [custody_put]
      exact .put c (congrArg Call.worker? hcall)
  | @spawns ids hcall hfresh =>
      left
      have hput : ((s.spawnWorkers ids).put c .done).custody = (s.spawnWorkers ids).custody :=
        custody_put_of_eq (hhand hcall rfl)
      rw [hput]
      exact passes_spawnWorkers hfresh
  | @removes count hcall =>
      left
      have hput : ((s.removeWorkers count).put c .done).custody = (s.removeWorkers count).custody :=
        custody_put_of_eq (hhand hcall rfl)
      rw [hput]
      exact passes_removeWorkers s count
  | @removesLast count hcall =>
      left
      have hput : ((s.removeLastWorkers count).put c .done).custody =
          (s.removeLastWorkers count).custody := custody_put_of_eq (hhand hcall rfl)
      rw [hput]
      exact passes_removeLastWorkers hs count

theorem step_custody (config : PoolConfig) (hs : s.custody.Exclusive) (a : Step) :
    s.custody.Passes (s.step config a).custody ∨
      s.Loses a ∧ ∃ c, (s.step config a).custody = s.custody.drop c := by
  cases a with
  | advance c ids => exact (advance_custody config hs c ids).imp_right (.imp_right fun h => ⟨c, h⟩)
  | start c request =>
      left
      rw [step]
      split
      · next hcall =>
          have hhand : s.custody.hand c = none := congrArg Call.worker? hcall
          refine passes_put ?_
          rw [hhand]
          cases request <;> rfl
      · exact .stay
  | checkin c =>
      left
      rw [step]
      split
      · next worker hcall => exact passes_put (congrArg Call.worker? hcall).symm
      · exact .stay
  | timeout c =>
      have hhand : s.custody.hand c = (s.calls c).worker? := rfl
      rw [step, Loses]
      cases hcall : s.calls c with
      | waiting response =>
          rw [hcall] at hhand
          cases response with
          | none => exact .inl (passes_put hhand.symm)
          | some result =>
              cases result with
              | ok worker => exact .inr ⟨trivial, c, custody_put s c _⟩
              | error e => exact .inl (passes_put hhand.symm)
      | draining =>
          rw [hcall] at hhand
          exact .inl (passes_put hhand.symm)
      | _ => exact .inl .stay

theorem step_exclusive (config : PoolConfig) (hs : s.custody.Exclusive) (a : Step) :
    (s.step config a).custody.Exclusive := by
  rcases step_custody config hs a with hpasses | ⟨-, c, hdrop⟩
  · exact hpasses.exclusive hs
  · exact hdrop ▸ hs.drop c

theorem empty_exclusive : empty.custody.Exclusive where
  nodup := List.nodup_nil
  shelved _ h := (List.not_mem_nil h).elim
  held _ _ h := by cases h
  single _ _ _ h := by cases h

theorem run_exclusive (config : PoolConfig) (steps : List Step) :
    (run (step config) empty steps).custody.Exclusive :=
  run_invariant (I := fun s : ElasticPool => s.custody.Exclusive)
    (fun a _ _ h => step_exclusive config h a) empty_exclusive

/-- In every interleaving no worker is held by two clients, the idle workers are in the pool, each
once, and nobody holds them; a worker that is held is in the pool, and so is one whose return has
been called, which therefore does not fail. -/
theorem pool_exclusive (config : PoolConfig) (steps : List Step) :
    let s := run (step config) empty steps
    (∀ c c' worker, s.Holds c worker → s.Holds c' worker → c = c') ∧
      s.availableWorkers.Nodup ∧
      (∀ worker ∈ s.availableWorkers, worker ∈ s.workers ∧ ∀ c, ¬s.Holds c worker) ∧
      (∀ c worker, s.Holds c worker → worker ∈ s.workers) ∧
      ∀ c worker ids, s.calls c = .checkin worker →
        (s.step config (.advance c ids)).calls c = .takeWaiter worker := by
  intro s
  have hs : s.custody.Exclusive := run_exclusive config steps
  refine ⟨fun c c' worker h h' => hs.single c c' worker h.hand h'.hand, hs.nodup,
    fun worker hmem => ⟨hs.shelved worker hmem, fun c h => ?_⟩,
    fun c worker h => (hs.held c worker h.hand).1, fun c worker ids hcall => ?_⟩
  · exact (hs.held c worker h.hand).2 hmem
  · have hmem : worker ∈ s.workers := (hs.held c worker (congrArg Call.worker? hcall)).1
    rw [step, advance, hcall]
    dsimp only
    rw [if_pos hmem]
    exact Function.update_self ..

end ElasticPool

end PlexSpaces.Elastic
