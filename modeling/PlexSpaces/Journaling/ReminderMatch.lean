import PlexSpaces.Lib.Table
import Mathlib.Algebra.Group.Int.Defs
import Mathlib.Data.Int.Order.Basic
/-!
# Deleting a reminder that has not moved

A reminder is deleted on condition that it still fires at an expected time.  The time of a
reminder is stored in two columns, whole seconds and nanoseconds, and the expected time is a
number of milliseconds, so that the columns are compared with whole milliseconds.  A time taken
from the system clock has a part below the millisecond and is never found: the condition is the
equality of the milliseconds only for times without such a part (`deletes_on_match_iff`).
-/

namespace PlexSpaces.Journaling

open PlexSpaces.Lib

/-- `prost_types::Timestamp`. -/
structure Timestamp where
  seconds : Int64
  nanos : Int32
  deriving DecidableEq

def Timestamp.unixMs (t : Timestamp) : Int :=
  (t.seconds.toInt * 10 ^ 9 + t.nanos.toInt) / 10 ^ 6

/-- The columns of a reminder that the conditional deletion reads. -/
structure ReminderRow where
  actorId : String
  reminderName : String
  nextFireTimeSeconds : Option Int64
  nextFireTimeNanos : Option Int32
  deriving DecidableEq

/-- `PRIMARY KEY(actor_id, reminder_name)`. -/
def ReminderRow.key (r : ReminderRow) : String × String := (r.actorId, r.reminderName)

abbrev ReminderRows := Table ReminderRow ReminderRow.key

namespace ReminderRows

variable {actorId reminderName : String} {t : Timestamp} {e : UInt64}

def registerReminder (reminders : ReminderRows) (actorId reminderName : String)
    (nextFireTime : Option Timestamp) : ReminderRows :=
  reminders.insertOrReplace ⟨actorId, reminderName, nextFireTime.map (·.seconds),
    nextFireTime.map (·.nanos)⟩

def expectedSeconds (e : UInt64) : Int64 := (e / 1000).toInt64

/-- `((e % 1000) * 1_000_000) as i32`. -/
def expectedNanos (e : UInt64) : Int32 := (e % 1000 * 1000000).toUInt32.toInt32

def unregisterReminderIfMatches (reminders : ReminderRows) (actorId reminderName : String)
    (expectedNextFireMs : UInt64) : Bool × ReminderRows :=
  let matching := fun r : ReminderRow => decide (r.key = (actorId, reminderName) ∧
    r.nextFireTimeSeconds = some (expectedSeconds expectedNextFireMs) ∧
    r.nextFireTimeNanos = some (expectedNanos expectedNextFireMs))
  (0 < (reminders.select matching).length, reminders.deleteWhere matching)

/-- A reminder that was stored to fire at `t` is deleted, and the answer is `true`, exactly when
the expected milliseconds are those of `t`. -/
def DeletesOnMatch (reminders : ReminderRows) (actorId reminderName : String) (t : Timestamp) :
    Prop :=
  ∀ e : UInt64,
    let stored := reminders.registerReminder actorId reminderName (some t)
    let after := stored.unregisterReminderIfMatches actorId reminderName e
    (after.1 = true ↔ t.unixMs = e.toNat) ∧
      (after.2.find (actorId, reminderName) = none ↔ t.unixMs = e.toNat)

theorem expectedSeconds_toInt (e : UInt64) :
    (expectedSeconds e).toInt = (e.toNat / 1000 : Nat) := by
  have hlt := e.toNat_lt
  have htoNat : (e / 1000).toNat = e.toNat / 1000 := rfl
  have hint : (expectedSeconds e).toInt = (e / 1000).toBitVec.toInt := rfl
  have hnat : (e / 1000).toBitVec.toNat = e.toNat / 1000 := htoNat
  rw [hint, BitVec.toInt_eq_toNat_of_lt, hnat]
  omega

theorem expectedNanos_toInt (e : UInt64) :
    (expectedNanos e).toInt = (e.toNat % 1000 * 1000000 : Nat) := by
  have hmod : (e % 1000).toNat = e.toNat % 1000 := rfl
  have hproduct : (e % 1000 * 1000000).toNat = e.toNat % 1000 * 1000000 := by
    have hfactor : (1000000 : UInt64).toNat = 1000000 := rfl
    rw [UInt64.toNat_mul, hmod, hfactor]
    exact Nat.mod_eq_of_lt (by omega)
  have hnat : (e % 1000 * 1000000).toUInt32.toBitVec.toNat = e.toNat % 1000 * 1000000 := by
    have htrunc := UInt64.toNat_toUInt32 (e % 1000 * 1000000)
    rw [hproduct, Nat.mod_eq_of_lt (by omega)] at htrunc
    exact htrunc
  have hint : (expectedNanos e).toInt = (e % 1000 * 1000000).toUInt32.toBitVec.toInt := rfl
  rw [hint, BitVec.toInt_eq_toNat_of_lt, hnat]
  omega

/-- The columns hold the expected ones when the time is the expected millisecond, without a
rest. -/
theorem columns_eq_iff : t.seconds = expectedSeconds e ∧ t.nanos = expectedNanos e ↔
    t.seconds.toInt = (e.toNat / 1000 : Nat) ∧
      t.nanos.toInt = (e.toNat % 1000 * 1000000 : Nat) := by
  rw [← Int64.toInt_inj, ← Int32.toInt_inj, expectedSeconds_toInt, expectedNanos_toInt]

section Stored

variable (reminders : ReminderRows) (actorId reminderName : String) (t : Timestamp) (e : UInt64)

/-- What the deletion does with the reminder that was just stored. -/
theorem unregister_registered :
    let after := (reminders.registerReminder actorId reminderName
      (some t)).unregisterReminderIfMatches actorId reminderName e
    (after.1 = true ↔ t.seconds = expectedSeconds e ∧ t.nanos = expectedNanos e) ∧
      (after.2.find (actorId, reminderName) = none ↔
        t.seconds = expectedSeconds e ∧ t.nanos = expectedNanos e) := by
  have hfind : (reminders.registerReminder actorId reminderName (some t)).find
      (actorId, reminderName) = some ⟨actorId, reminderName, some t.seconds, some t.nanos⟩ := by
    rw [registerReminder, Table.find_insertOrReplace]
    exact if_pos rfl
  constructor
  · rw [unregisterReminderIfMatches, decide_eq_true_iff, List.length_pos_iff_exists_mem]
    constructor
    · rintro ⟨r, hr⟩
      obtain ⟨hmem, hmatch⟩ := List.mem_filter.mp hr
      obtain ⟨hkey, hseconds, hnanos⟩ := of_decide_eq_true hmatch
      have hstored := Table.find_of_mem hmem
      rw [hkey, hfind] at hstored
      cases hstored
      exact ⟨Option.some.inj hseconds, Option.some.inj hnanos⟩
    · rintro ⟨hseconds, hnanos⟩
      refine ⟨_, List.mem_filter.mpr ⟨List.mem_of_find?_eq_some hfind, ?_⟩⟩
      exact decide_eq_true ⟨rfl, congrArg some hseconds, congrArg some hnanos⟩
  · rw [unregisterReminderIfMatches, Table.find_deleteWhere, hfind]
    by_cases hmatch : t.seconds = expectedSeconds e ∧ t.nanos = expectedNanos e
    · simp [ReminderRow.key, hmatch]
    · simp [ReminderRow.key, hmatch]

end Stored

/-- The condition is that of the milliseconds exactly for the times without a part below the
millisecond, and for those that no number of milliseconds names. -/
theorem deletes_on_match_iff (reminders : ReminderRows) (actorId reminderName : String)
    (t : Timestamp) :
    reminders.DeletesOnMatch actorId reminderName t ↔
      (0 ≤ t.nanos.toInt ∧ t.nanos.toInt < 10 ^ 9 ∧ t.nanos.toInt % 10 ^ 6 = 0) ∨
        t.unixMs < 0 ∨ 2 ^ 64 ≤ t.unixMs := by
  constructor
  · intro h
    by_contra hnot
    obtain ⟨hrest, hrange⟩ := not_or.mp hnot
    obtain ⟨hnonneg, hlt⟩ := not_or.mp hrange
    have htoNat : (UInt64.ofNat t.unixMs.toNat).toNat = t.unixMs.toNat := by
      rw [UInt64.toNat_ofNat']
      exact Nat.mod_eq_of_lt (by omega)
    have hdeleted := ((h (UInt64.ofNat t.unixMs.toNat)).1.mpr (by rw [htoNat]; omega))
    obtain ⟨hseconds, hnanos⟩ :=
      columns_eq_iff.mp ((unregister_registered reminders actorId reminderName t _).1.mp hdeleted)
    rw [htoNat] at hseconds hnanos
    omega
  · intro h e
    have hcolumns : t.seconds = expectedSeconds e ∧ t.nanos = expectedNanos e ↔
        t.unixMs = e.toNat := by
      have hlt := e.toNat_lt
      rw [columns_eq_iff]
      unfold Timestamp.unixMs at h ⊢
      omega
    have hafter := unregister_registered reminders actorId reminderName t e
    rw [hcolumns] at hafter
    exact hafter

/-- A reminder for one second and one nanosecond after the epoch is not deleted on condition that
it fires after a thousand milliseconds. -/
theorem not_deletes_on_match :
    ¬∀ (reminders : ReminderRows) (actorId reminderName : String) (t : Timestamp),
      reminders.DeletesOnMatch actorId reminderName t := by
  intro h
  have hdeleted := (h Table.empty "a" "r" ⟨1, 1⟩ 1000).1.mpr (by decide)
  exact absurd hdeleted (by decide)

end ReminderRows

end PlexSpaces.Journaling
