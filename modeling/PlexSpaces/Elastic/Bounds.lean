import Mathlib.Data.List.Perm.Subperm
import PlexSpaces.Elastic.Exclusivity
import PlexSpaces.Lib.Run
/-!
# The bounds of the pool

Calls of a pool that run one after another.  `scale_by` clamps the size that it asks for, but
computes it in `i32`; the auto-scaler looks at the bounds before it scales, and then adds or
removes the whole amount of its policy.  So the size leaves the bounds when that amount does
not fit (`not_staysBounded`), and `staysBounded_iff` says exactly when nothing of the kind
happens.

The product of the size and the factor of a percentage policy is a double; `percentage` stands
for it, for the maximum with one, and for the conversion back.
-/

namespace PlexSpaces.Elastic

open PlexSpaces.Lib

inductive Strategy
  | incremental
  | percentage
  | exponential
  | custom
  deriving DecidableEq

def Strategy.tryFrom : Int → Option Strategy
  | 0 => some incremental
  | 1 => some percentage
  | 2 => some exponential
  | 3 => some custom
  | _ => none

/-- `strategy` is the number of a `Strategy`, and `scaleFactor` has the bits of a double. -/
structure ScalingPolicy where
  strategy : Int
  scaleFactor : UInt64
  minScaleStep : UInt32
  maxScaleStep : UInt32

/-- The sizes and the policy of the configuration that `new` takes. -/
structure PoolSettings where
  minSize : UInt32
  maxSize : UInt32
  initialSize : UInt32
  scalingPolicy : Option ScalingPolicy

def oneHalf : UInt64 := 4602678819172646912

def calculateScaleAmount (percentage : UInt32 → UInt64 → UInt32) (policy : Option ScalingPolicy)
    (currentSize : UInt32) : UInt32 :=
  let strategy := (policy.bind fun p => Strategy.tryFrom p.strategy).getD .incremental
  let amount := match strategy with
    | .incremental => 1
    | .percentage => percentage currentSize ((policy.map (·.scaleFactor)).getD oneHalf)
    | .exponential => currentSize
    | .custom => 1
  min (max amount ((policy.map (·.minScaleStep)).getD 1)) ((policy.map (·.maxScaleStep)).getD 10)

/-- The checks of `new`. -/
def checkConfig (settings : PoolSettings) : Except String Unit :=
  if settings.maxSize < settings.minSize then
    .error "Invalid configuration: min_size cannot exceed max_size"
  else if settings.initialSize < settings.minSize ∨ settings.maxSize < settings.initialSize then
    .error "Invalid configuration: initial_size must be between min_size and max_size"
  else .ok ()

def PoolSettings.config (settings : PoolSettings) (percentage : UInt32 → UInt64 → UInt32) :
    PoolConfig where
  minSize := settings.minSize.toNat
  maxSize := settings.maxSize.toNat
  scaleAmount size :=
    (calculateScaleAmount percentage settings.scalingPolicy (UInt32.ofNat size)).toNat

/-- The pool and the `total_actors` of its metrics. -/
structure MeteredPool where
  pool : ElasticPool
  totalActors : Nat

namespace MeteredPool

variable (config : PoolConfig) (s : MeteredPool)

def size : Nat := s.pool.workers.keys.length

/-- `update_metrics`, and `refresh_metrics` of the auto-scaler. -/
def updateMetrics : MeteredPool := { s with totalActors := s.pool.currentSize }

def spawnWorkers (ids : List String) : MeteredPool :=
  { s with pool := s.pool.spawnWorkers ids }.updateMetrics

def removeWorkers (count : Nat) : MeteredPool :=
  { s with pool := s.pool.removeWorkers count }.updateMetrics

def scaleTo (size : Nat) (ids : List String) : MeteredPool :=
  if s.pool.currentSize < size then s.spawnWorkers ids
  else if size < s.pool.currentSize then s.removeWorkers (s.pool.currentSize - size)
  else s

def scaleBy (delta : Int) (ids : List String) : MeteredPool :=
  s.scaleTo (ElasticPool.scaleBySize config s.pool.currentSize delta) ids

def scaleUp (ids : List String) : MeteredPool := s.spawnWorkers ids

def scaleDown : MeteredPool :=
  { s with
    pool := s.pool.removeLastWorkers (config.scaleAmount s.pool.currentSize) }.updateMetrics

/-- What an iteration of the auto-scaler finds: how the load compares with the two thresholds,
and which of the two cooldowns are over. -/
structure Reading where
  high : Bool
  low : Bool
  shouldScaleUp : Bool
  shouldScaleDown : Bool
  deriving DecidableEq

def goesUp (reading : Reading) : Bool :=
  s.pool.scalingState ≠ .paused ∧ reading.high ∧ s.totalActors < config.maxSize ∧
    reading.shouldScaleUp

def goesDown (reading : Reading) : Bool :=
  s.pool.scalingState ≠ .paused ∧ reading.low ∧ config.minSize < s.totalActors ∧
    reading.shouldScaleDown

/-- The first half of an iteration of `auto_scaler_loop`. -/
def autoScaleUp (reading : Reading) (ids : List String) : MeteredPool :=
  if s.goesUp config reading then s.scaleUp ids else s

/-- An iteration; both halves go by the metrics at its beginning. -/
def autoScale (reading : Reading) (ids : List String) : MeteredPool :=
  if s.goesDown config reading then (s.autoScaleUp config reading ids).scaleDown config
  else s.autoScaleUp config reading ids

/-- `checkout`; a call that finds no idle worker queues and runs into its timeout. -/
def checkout (caller : Nat) : Except ElasticPoolError String × MeteredPool :=
  if s.pool.draining then (.error .poolDraining, s)
  else
    match s.pool.availableWorkers with
    | worker :: rest =>
        match { s.pool with availableWorkers := rest }.checkoutWorker worker with
        | .ok pool => (.ok worker, { s with pool }.updateMetrics)
        | .error e => (.error e, { s with pool := { s.pool with availableWorkers := rest } })
    | [] =>
        (.error .checkoutTimeout,
          { s with
            pool := { s.pool with
              checkoutQueue := s.pool.checkoutQueue ++ [caller] } }.updateMetrics)

/-- The part of `checkin` after the worker is marked available: it goes to the first in the
queue, who has given up, or back to the idle workers. -/
def handOver (pool : ElasticPool) (worker : String) : ElasticPool :=
  match pool.checkoutQueue with
  | _ :: rest =>
      match { pool with checkoutQueue := rest }.checkoutWorker worker with
      | .ok pool' => pool'
      | .error _ =>
          { pool with
            checkoutQueue := rest
            availableWorkers := pool.availableWorkers ++ [worker] }
  | [] => { pool with availableWorkers := pool.availableWorkers ++ [worker] }

def checkin (worker : String) : Except ElasticPoolError Unit × MeteredPool :=
  if worker ∈ s.pool.workers then
    (.ok (), { s with
      pool := handOver { s.pool with workers := s.pool.workers.insert worker .available }
        worker }.updateMetrics)
  else (.error (.actorError s!"Actor {worker} not found during checkin"), s)

end MeteredPool

/-- `ElasticPool::new`. -/
def ElasticPool.new (settings : PoolSettings) (ids : List String) : Except String MeteredPool :=
  match checkConfig settings with
  | .error e => .error e
  | .ok () => .ok ((⟨.empty, 0⟩ : MeteredPool).spawnWorkers ids)

/-- A call, with the ids that it generates. -/
inductive PoolCall
  | scaleBy (delta : Int) (ids : List String)
  | autoScale (reading : MeteredPool.Reading) (ids : List String)
  | checkout (caller : Nat)
  | checkin (worker : String)

namespace MeteredPool

variable (config : PoolConfig) (s : MeteredPool)

def call : PoolCall → MeteredPool
  | .scaleBy delta ids => s.scaleBy config delta ids
  | .autoScale reading ids => s.autoScale config reading ids
  | .checkout caller => (s.checkout caller).2
  | .checkin worker => (s.checkin worker).2

/-- The ids are new, and as many as the call spawns workers. -/
def Generates : PoolCall → Prop
  | .scaleBy delta ids => s.pool.Fresh ids ∧
      ids.length = ElasticPool.scaleBySize config s.pool.currentSize delta - s.pool.currentSize
  | .autoScale reading ids => s.goesUp config reading →
      s.pool.Fresh ids ∧ ids.length = config.scaleAmount s.pool.currentSize
  | _ => True

def InBounds : Prop := config.minSize ≤ s.size ∧ s.size ≤ config.maxSize

instance : Decidable (s.InBounds config) := inferInstanceAs (Decidable (_ ∧ _))

/-- The number is an `i32`. -/
def FitsI32 (z : Int) : Prop := -2 ^ 31 ≤ z ∧ z < 2 ^ 31

instance (z : Int) : Decidable (FitsI32 z) := inferInstanceAs (Decidable (_ ∧ _))

/-- No conversion and no addition of `scale_by` overflows. -/
structure NoOverflow (delta : Int) : Prop where
  currentSize : FitsI32 s.size
  newSize : FitsI32 (s.size + delta)
  minSize : FitsI32 config.minSize
  maxSize : FitsI32 config.maxSize

/-- The call keeps the pool within its bounds all the time, and does not overflow. -/
def CallBounded : PoolCall → Prop
  | .scaleBy delta ids => s.NoOverflow config delta ∧ (s.scaleBy config delta ids).InBounds config
  | .autoScale reading ids =>
      (s.autoScaleUp config reading ids).InBounds config ∧
        (s.autoScale config reading ids).InBounds config
  | .checkout caller => (s.checkout caller).2.InBounds config
  | .checkin worker => (s.checkin worker).2.InBounds config

/-- From the first state on and in every call the pool is bounded. -/
def StaysBounded (calls : List PoolCall) : Prop :=
  s.InBounds config ∧ Along (call config) (CallBounded config) s calls

/-- The workers that are among the last `count` entries of the queue of idle workers. -/
def lastIdle (count : Nat) : Nat :=
  (s.pool.workers.keys.filter
    (· ∈ s.pool.availableWorkers.drop (s.pool.availableWorkers.length - count))).length

/-- The largest size is an `i32`, and so is the sum of `scale_by`; the amount that the
auto-scaler adds, or takes away from the idle workers, does not pass the bound. -/
def AmountFits : PoolCall → Prop
  | .scaleBy delta _ => FitsI32 config.maxSize ∧ FitsI32 (s.size + delta)
  | .autoScale reading ids =>
      (s.goesUp config reading → s.size + config.scaleAmount s.size ≤ config.maxSize) ∧
        (s.goesDown config reading →
          config.minSize + (s.autoScaleUp config reading ids).lastIdle
            (config.scaleAmount (s.autoScaleUp config reading ids).size) ≤
          (s.autoScaleUp config reading ids).size)
  | _ => True

instance : (c : PoolCall) → Decidable (s.AmountFits config c)
  | .scaleBy _ _ => inferInstanceAs (Decidable (_ ∧ _))
  | .autoScale _ _ => inferInstanceAs (Decidable ((_ → _) ∧ (_ → _)))
  | .checkout _ | .checkin _ => inferInstanceAs (Decidable True)

/-! ## The number of workers -/

theorem keys_foldl_erase (ids : List String) (workers : Assoc String WorkerState) :
    (ids.foldl (fun workers id => workers.erase id) workers).keys =
      workers.keys.filter (· ∉ ids) := by
  induction ids generalizing workers with
  | nil => simp
  | cons id ids ih =>
      rw [List.foldl_cons, ih, AList.keys_erase, workers.keys_nodup.erase_eq_filter,
        List.filter_filter]
      refine List.filter_congr fun w _ => ?_
      by_cases hw : w = id <;> simp [hw]

theorem length_keys_foldl_insert {ids : List String} {workers : Assoc String WorkerState}
    (hnodup : ids.Nodup) (hnew : ∀ id ∈ ids, id ∉ workers) :
    (ids.foldl (fun workers id => workers.insert id .available) workers).keys.length =
      workers.keys.length + ids.length := by
  induction ids generalizing workers with
  | nil => rfl
  | cons id ids ih =>
      obtain ⟨hid, hnodup⟩ := List.nodup_cons.mp hnodup
      have hfirst : id ∉ workers.keys := hnew id List.mem_cons_self
      rw [List.foldl_cons, ih hnodup, AList.keys_insert, List.erase_of_not_mem hfirst,
        List.length_cons, List.length_cons]
      · omega
      · intro other hother hmem
        rcases (AList.mem_insert workers).mp hmem with rfl | hmem
        · exact hid hother
        · exact hnew other (List.mem_cons_of_mem _ hother) hmem

theorem length_keys_insert {worker : String} {workers : Assoc String WorkerState}
    (hmem : worker ∈ workers) (state : WorkerState) :
    (workers.insert worker state).keys.length = workers.keys.length := by
  have hkeys : worker ∈ workers.keys := hmem
  have hpos := List.length_pos_of_mem hkeys
  rw [AList.keys_insert, List.length_cons, List.length_erase_of_mem hkeys]
  omega

variable {config s}

theorem currentSize_eq (h : s.size < 2 ^ 32) : s.pool.currentSize = s.size :=
  Nat.mod_eq_of_lt h

theorem size_spawnWorkers {ids : List String} (h : s.pool.Fresh ids) :
    (s.spawnWorkers ids).size = s.size + ids.length :=
  length_keys_foldl_insert h.1 h.2

theorem size_removeWorkers (count : Nat) :
    s.size ≤ (s.removeWorkers count).size + count ∧ (s.removeWorkers count).size ≤ s.size := by
  have hsize : (s.removeWorkers count).size =
      (s.pool.workers.keys.filter (· ∉ s.pool.availableWorkers.take count)).length :=
    congrArg List.length (keys_foldl_erase _ _)
  have hsplit := List.length_eq_length_filter_add (l := s.pool.workers.keys)
    (· ∈ s.pool.availableWorkers.take count)
  have hgone : (s.pool.workers.keys.filter
      (· ∈ s.pool.availableWorkers.take count)).length ≤ count := by
    refine le_trans (List.Subperm.length_le ?_) (List.length_take_le count s.pool.availableWorkers)
    apply (s.pool.workers.keys_nodup.filter _).subperm
    intro w hw
    exact of_decide_eq_true (List.mem_filter.mp hw).2
  simp only [← decide_not] at hsplit
  rw [hsize]
  change s.pool.workers.keys.length ≤ _ + _ ∧ _ ≤ s.pool.workers.keys.length
  omega

theorem size_scaleDown (h : s.size < 2 ^ 32) :
    (s.scaleDown config).size + s.lastIdle (config.scaleAmount s.size) = s.size := by
  have hsize : (s.scaleDown config).size = (s.pool.workers.keys.filter
      (· ∉ s.pool.availableWorkers.drop
        (s.pool.availableWorkers.length - config.scaleAmount s.pool.currentSize))).length :=
    congrArg List.length (keys_foldl_erase _ _)
  have hsplit := List.length_eq_length_filter_add (l := s.pool.workers.keys)
    (· ∈ s.pool.availableWorkers.drop
        (s.pool.availableWorkers.length - config.scaleAmount s.pool.currentSize))
  simp only [← decide_not] at hsplit
  rw [currentSize_eq h] at hsize hsplit
  rw [hsize, lastIdle]
  change _ + _ = s.pool.workers.keys.length
  omega

theorem size_checkoutWorker {pool pool' : ElasticPool} {worker : String}
    (h : pool.checkoutWorker worker = .ok pool') :
    pool'.workers.keys.length = pool.workers.keys.length := by
  unfold ElasticPool.checkoutWorker at h
  split at h
  next hmem =>
    cases h
    exact length_keys_insert hmem .busy
  · cases h

theorem size_checkout (caller : Nat) : (s.checkout caller).2.size = s.size := by
  unfold checkout
  split
  · rfl
  · split
    · split
      next hres =>
        have hsize := size_checkoutWorker hres
        exact hsize
      · rfl
    · rfl

theorem size_handOver (pool : ElasticPool) (worker : String) :
    (handOver pool worker).workers.keys.length = pool.workers.keys.length := by
  unfold handOver
  split
  · split
    next hres =>
      have hsize := size_checkoutWorker hres
      exact hsize
    · rfl
  · rfl

theorem size_checkin (worker : String) : (s.checkin worker).2.size = s.size := by
  unfold checkin
  split
  next hmem => exact (size_handOver _ _).trans (length_keys_insert hmem .available)
  · rfl

/-! ## The bounds -/

theorem asI32_of_fits {z : Int} (h : FitsI32 z) : ElasticPool.asI32 z = z := by
  obtain ⟨hlow, hhigh⟩ := h
  exact Int.bmod_eq_of_le_mul_two (by omega) (by omega)

/-- Without overflow `scale_by` asks for the sum, put within the bounds. -/
theorem scaleBySize_of_fits {delta : Int} (h : s.NoOverflow config delta) :
    (ElasticPool.scaleBySize config s.size delta : Int) =
      min (max (s.size + delta) config.minSize) config.maxSize := by
  unfold ElasticPool.scaleBySize
  rw [asI32_of_fits h.currentSize, asI32_of_fits h.newSize, asI32_of_fits h.minSize,
    asI32_of_fits h.maxSize]
  obtain ⟨-, hnew⟩ := h.newSize
  obtain ⟨-, hmin⟩ := h.minSize
  obtain ⟨-, hmax⟩ := h.maxSize
  simp only
  omega

section Bounds

variable (hmax : config.maxSize < 2 ^ 32)
include hmax

theorem scaleBy_inBounds (hvalid : config.minSize ≤ config.maxSize) {delta : Int}
    {ids : List String} (h : s.InBounds config)
    (hgenerates : s.Generates config (.scaleBy delta ids)) (hfits : s.NoOverflow config delta) :
    (s.scaleBy config delta ids).InBounds config := by
  obtain ⟨hlow, hhigh⟩ := h
  obtain ⟨hfresh, hlength⟩ := hgenerates
  have hcurrent : s.pool.currentSize = s.size := currentSize_eq (by omega)
  have hasked := scaleBySize_of_fits hfits
  rw [hcurrent] at hlength
  unfold scaleBy scaleTo
  rw [hcurrent]
  generalize ElasticPool.scaleBySize config s.size delta = asked at hlength hasked ⊢
  split
  next hgrow =>
    rw [InBounds, size_spawnWorkers hfresh, hlength]
    omega
  · split
    next hshrink =>
      have hremoved := size_removeWorkers (s := s) (s.size - asked)
      unfold InBounds
      omega
    · exact ⟨hlow, hhigh⟩

theorem autoScaleUp_inBounds_iff {reading : Reading} {ids : List String} (h : s.InBounds config)
    (hgenerates : s.Generates config (.autoScale reading ids)) :
    (s.autoScaleUp config reading ids).InBounds config ↔
      (s.goesUp config reading → s.size + config.scaleAmount s.size ≤ config.maxSize) := by
  obtain ⟨hlow, hhigh⟩ := h
  unfold autoScaleUp
  split
  next hup =>
    obtain ⟨hfresh, hlength⟩ := hgenerates hup
    rw [currentSize_eq (by omega)] at hlength
    rw [InBounds, scaleUp, size_spawnWorkers hfresh, hlength]
    constructor
    · exact fun hbounds _ => hbounds.2
    · exact fun hfits => ⟨by omega, hfits hup⟩
  next hup =>
    exact ⟨fun _ hgoes => absurd hgoes hup, fun _ => ⟨hlow, hhigh⟩⟩

theorem autoScale_inBounds_iff {reading : Reading} {ids : List String}
    (h : (s.autoScaleUp config reading ids).InBounds config) :
    (s.autoScale config reading ids).InBounds config ↔
      (s.goesDown config reading →
        config.minSize + (s.autoScaleUp config reading ids).lastIdle
          (config.scaleAmount (s.autoScaleUp config reading ids).size) ≤
        (s.autoScaleUp config reading ids).size) := by
  obtain ⟨hlow, hhigh⟩ := h
  have hsize : ((s.autoScaleUp config reading ids).scaleDown config).size +
      (s.autoScaleUp config reading ids).lastIdle
        (config.scaleAmount (s.autoScaleUp config reading ids).size) =
      (s.autoScaleUp config reading ids).size := size_scaleDown (by omega)
  unfold autoScale
  split
  next hdown =>
    unfold InBounds
    constructor
    · intro hbounds _
      omega
    · intro hfits
      have hfits := hfits hdown
      omega
  next hdown => exact ⟨fun _ hgoes => absurd hgoes hdown, fun _ => ⟨hlow, hhigh⟩⟩

theorem callBounded_iff (hvalid : config.minSize ≤ config.maxSize) (h : s.InBounds config)
    {c : PoolCall} (hgenerates : s.Generates config c) :
    s.CallBounded config c ↔ s.AmountFits config c := by
  cases c with
  | scaleBy delta ids =>
      constructor
      · exact fun hbounded => ⟨hbounded.1.maxSize, hbounded.1.newSize⟩
      · rintro ⟨hmaxFits, hnewFits⟩
        obtain ⟨hlow, hhigh⟩ := h
        have hmaxFits' := hmaxFits
        unfold FitsI32 at hmaxFits'
        have hfits : s.NoOverflow config delta :=
          ⟨⟨by omega, by omega⟩, hnewFits, ⟨by omega, by omega⟩, hmaxFits⟩
        exact ⟨hfits, scaleBy_inBounds hmax hvalid ⟨hlow, hhigh⟩ hgenerates hfits⟩
  | autoScale reading ids =>
      rw [CallBounded, AmountFits, ← autoScaleUp_inBounds_iff hmax h hgenerates]
      exact and_congr_right fun hup => autoScale_inBounds_iff hmax hup
  | checkout caller =>
      refine iff_of_true ?_ trivial
      rw [CallBounded, InBounds, size_checkout]
      exact h
  | checkin worker =>
      refine iff_of_true ?_ trivial
      rw [CallBounded, InBounds, size_checkin]
      exact h

end Bounds

theorem CallBounded.inBounds {c : PoolCall} (h : s.CallBounded config c) :
    (s.call config c).InBounds config := by
  cases c with
  | scaleBy delta ids => exact h.2
  | autoScale reading ids => exact h.2
  | checkout caller => exact h
  | checkin worker => exact h

end MeteredPool

theorem checkConfig_ok {settings : PoolSettings} (h : checkConfig settings = .ok ()) :
    settings.minSize.toNat ≤ settings.initialSize.toNat ∧
      settings.initialSize.toNat ≤ settings.maxSize.toNat := by
  unfold checkConfig at h
  split_ifs at h with hminmax hinitial
  rw [not_or, UInt32.not_lt, UInt32.not_lt] at hinitial
  exact hinitial

theorem new_inBounds (percentage : UInt32 → UInt64 → UInt32) {settings : PoolSettings}
    {ids : List String} {s : MeteredPool} (hids : ids.Nodup)
    (hlength : ids.length = settings.initialSize.toNat)
    (hnew : ElasticPool.new settings ids = .ok s) : s.InBounds (settings.config percentage) := by
  unfold ElasticPool.new at hnew
  split at hnew
  · cases hnew
  next hcheck =>
    cases hnew
    have hfresh : ElasticPool.empty.Fresh ids := ⟨hids, fun id _ => AList.notMem_empty id⟩
    have hsize := MeteredPool.size_spawnWorkers (s := ⟨.empty, 0⟩) hfresh
    have hempty : MeteredPool.size ⟨.empty, 0⟩ = 0 := rfl
    obtain ⟨hlow, hhigh⟩ := checkConfig_ok hcheck
    rw [MeteredPool.InBounds, hsize, hempty, hlength, Nat.zero_add]
    exact ⟨hlow, hhigh⟩

/-- A pool that `new` has accepted stays within its bounds, and `scale_by` does not overflow, in
exactly the runs in which every amount fits. -/
theorem staysBounded_iff (percentage : UInt32 → UInt64 → UInt32) (settings : PoolSettings)
    (ids : List String) (hids : ids.Nodup) (hlength : ids.length = settings.initialSize.toNat)
    (s : MeteredPool) (hnew : ElasticPool.new settings ids = .ok s) (calls : List PoolCall)
    (hgenerates : Along (MeteredPool.call (settings.config percentage))
      (MeteredPool.Generates (settings.config percentage)) s calls) :
    s.StaysBounded (settings.config percentage) calls ↔
      Along (MeteredPool.call (settings.config percentage))
        (MeteredPool.AmountFits (settings.config percentage)) s calls := by
  have hinitial := new_inBounds percentage hids hlength hnew
  have hmax : (settings.config percentage).maxSize < 2 ^ 32 := settings.maxSize.toNat_lt
  have hvalid : (settings.config percentage).minSize ≤ (settings.config percentage).maxSize :=
    hinitial.1.trans hinitial.2
  rw [MeteredPool.StaysBounded, and_iff_right hinitial]
  exact hgenerates.congr
    (fun s c hbounds hc => MeteredPool.callBounded_iff hmax hvalid hbounds hc)
    (fun s c _ _ hbounded => hbounded.inBounds) hinitial

def oneByOne : PoolSettings := ⟨1, 4, 2, none⟩

theorem staysBounded_iff_oneByOne : ∃ s, ElasticPool.new oneByOne ["a", "b"] = .ok s ∧
    s.StaysBounded (oneByOne.config fun size _ => size)
      [.autoScale ⟨true, false, true, true⟩ ["c"], .checkout 0, .checkin "a", .scaleBy 7 ["d"],
        .autoScale ⟨false, true, true, true⟩ []] := by
  refine ⟨_, rfl, ?_⟩
  refine (staysBounded_iff (fun size _ => size) oneByOne ["a", "b"] (by decide) rfl _ rfl _
    ?_).mpr ?_
  · refine ⟨fun _ => ⟨by decide +kernel, rfl⟩, trivial, trivial,
      ⟨by decide +kernel, by decide +kernel⟩, fun hup => ?_, trivial⟩
    revert hup
    decide +kernel
  · refine ⟨by decide +kernel, trivial, trivial, by decide +kernel, by decide +kernel, trivial⟩

def small : PoolSettings := ⟨2, 10, 5, none⟩

/-- Eight workers of two to ten, and the exponential policy. -/
def doubling : PoolSettings := ⟨2, 10, 8, some ⟨2, oneHalf, 1, 10⟩⟩

/-- A large delta overflows, and the auto-scaler doubles eight workers to sixteen. -/
theorem not_staysBounded :
    (∃ s, ElasticPool.new small ["a", "b", "c", "d", "e"] = .ok s ∧
      s.Generates (small.config fun size _ => size) (.scaleBy 2147483647 []) ∧
      ¬s.StaysBounded (small.config fun size _ => size) [.scaleBy 2147483647 []]) ∧
    ∃ s, ElasticPool.new doubling ["a", "b", "c", "d", "e", "f", "g", "h"] = .ok s ∧
      s.Generates (doubling.config fun size _ => size)
        (.autoScale ⟨true, false, true, true⟩ ["i", "j", "k", "l", "m", "n", "o", "p"]) ∧
      ¬s.StaysBounded (doubling.config fun size _ => size)
        [.autoScale ⟨true, false, true, true⟩ ["i", "j", "k", "l", "m", "n", "o", "p"]] := by
  constructor
  · refine ⟨_, rfl, ⟨by decide +kernel, by decide +kernel⟩, ?_⟩
    rintro ⟨-, ⟨hoverflow, -⟩, -⟩
    exact absurd hoverflow.newSize (by decide +kernel)
  · refine ⟨_, rfl, fun _ => ⟨by decide +kernel, rfl⟩, ?_⟩
    rintro ⟨-, ⟨hup, -⟩, -⟩
    exact absurd hup (by decide +kernel)

end PlexSpaces.Elastic
