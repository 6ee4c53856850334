import PlexSpaces.Journaling.Storage
/-!
# Reminders

The registration of a reminder and its state as it is stored.  Times are nanoseconds since
the epoch.
-/

namespace PlexSpaces.Journaling

structure ReminderRegistration where
  actorId : String
  reminderName : String
  interval : Option Nat
  firstFireTime : Option Nat
  callbackData : Bytes
  persistAcrossActivations : Bool
  maxOccurrences : Int32
  deriving DecidableEq

structure ReminderState where
  registration : ReminderRegistration
  lastFired : Option Nat
  nextFireTime : Option Nat
  fireCount : Int32
  isActive : Bool
  deriving DecidableEq

namespace ReminderState

/-- `PRIMARY KEY(actor_id, reminder_name)`. -/
def key (r : ReminderState) : String × String :=
  (r.registration.actorId, r.registration.reminderName)

/-- The row `old` with the values of `r` in all columns outside the key. -/
def overwrite (r old : ReminderState) : ReminderState :=
  { r with registration := { r.registration with
    actorId := old.registration.actorId
    reminderName := old.registration.reminderName } }

@[simp] theorem overwrite_key (r old : ReminderState) : (r.overwrite old).key = old.key := rfl

theorem overwrite_eq {r old : ReminderState} (h : old.key = r.key) : r.overwrite old = r := by
  have hactor : old.registration.actorId = r.registration.actorId := congrArg Prod.fst h
  have hname : old.registration.reminderName = r.registration.reminderName :=
    congrArg Prod.snd h
  rw [overwrite, hactor, hname]

end ReminderState

end PlexSpaces.Journaling
