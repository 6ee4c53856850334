import Mathlib
import PlexSpaces.Actors.ActorId
import PlexSpaces.Journaling.Sqlite
import PlexSpaces.Lib.Like
/-!
# Purging a namespace

`purge_namespace` deletes the rows whose actor id matches a pattern with the namespace in it.
The namespace is not escaped, so `%` and `_` in it are wildcards, SQLite does not tell the case
of letters apart, and the pattern may match inside a longer namespace or in the node id.  The
rows of exactly one namespace are deleted if and only if the namespace, as a pattern, finds its
place in the ids of its own actors and in no others (`purgesExactly_iff`).
-/

namespace PlexSpaces.Journaling

open PlexSpaces.Lib PlexSpaces.Actors

/-- `LIKE` in SQLite ignores the case of ASCII letters and has no escape letter. -/
def sqlite : LikeSyntax Char where
  any := '%'
  one := '_'
  escape := none
  same := fun a c => a.toLower == c.toLower
  any_ne_escape := Option.some_ne_none _
  same_refl := fun a => beq_self_eq_true a.toLower

/-- `LIKE` in PostgreSQL has a backslash as its escape letter. -/
def postgres : LikeSyntax Char where
  any := '%'
  one := '_'
  escape := some '\\'
  same := fun a c => a == c
  any_ne_escape := by decide
  same_refl := beq_self_eq_true

inductive Database
  | sqlite
  | postgres

def Database.patterns : Database → LikeSyntax Char
  | .sqlite => PlexSpaces.Journaling.sqlite
  | .postgres => PlexSpaces.Journaling.postgres

variable {E V : Type}

namespace Tables

def actorIds (st : Tables E V) : List String :=
  st.journalEntries.rows.map Row.actorId ++ st.checkpoints.rows.map CheckpointRow.actorId ++
    st.actorEvents.rows.map Row.actorId ++
    st.reminders.rows.map fun r => r.registration.actorId

def purgeNamespace (db : Database) (st : Tables E V) (nsName : String) : Nat × Tables E V :=
  let qualifiedPattern := "%::" ++ nsName ++ "@%"
  let simplePattern := "%:" ++ nsName ++ "@%"
  st.deleteActors fun actorId =>
    db.patterns.like qualifiedPattern.toList actorId.toList ||
      db.patterns.like simplePattern.toList actorId.toList

/-- `st'` has the rows of `st` whose actor ids `p` holds of. -/
structure Keeps (st st' : Tables E V) (p : String → Prop) : Prop where
  journalEntries : ∀ r, r ∈ st'.journalEntries.rows ↔ r ∈ st.journalEntries.rows ∧ p r.actorId
  checkpoints : ∀ r, r ∈ st'.checkpoints.rows ↔ r ∈ st.checkpoints.rows ∧ p r.actorId
  actorEvents : ∀ r, r ∈ st'.actorEvents.rows ↔ r ∈ st.actorEvents.rows ∧ p r.actorId
  reminders : ∀ r, r ∈ st'.reminders.rows ↔ r ∈ st.reminders.rows ∧ p r.registration.actorId

/-- The rows of the actors in the namespace are deleted, and no others. -/
def PurgesExactly (db : Database) (st : Tables E V) (owner : String → ActorId)
    (nsName : String) : Prop :=
  st.Keeps (st.purgeNamespace db nsName).2 fun text => (owner text).nsName ≠ nsName

/-- The namespace, as a pattern, matches a piece between a colon and an `@` after the type of
the id. -/
def Reached (db : Database) (nsName : String) (a : ActorId) : Prop :=
  ∃ v, db.patterns.like nsName.toList v = true ∧
    ':' :: (v ++ ['@']) <:+: "::".toList ++ (a.nsName.toList ++ '@' :: a.nodeId.toList)

section Patterns

theorem eq_of_toLower_eq {a c : Char} (ha : a.isAlpha = false) (h : a.toLower = c.toLower) :
    c = a := by
  have hc : c.isAlpha = false := by
    rw [← Char.isAlpha_toLower_eq_isAlpha, ← h, Char.isAlpha_toLower_eq_isAlpha]
    exact ha
  have hupper : ∀ {b : Char}, b.isAlpha = false → ¬b.isUpper = true := fun hb =>
    Bool.eq_false_iff.mp (Bool.or_eq_false_iff.mp hb).1
  rw [Char.toLower_eq_of_not_isUpper (hupper ha), Char.toLower_eq_of_not_isUpper (hupper hc)] at h
  exact h.symm

theorem ordinary_of {a : Char} (db : Database) (halpha : a.isAlpha = false) (hany : a ≠ '%')
    (hone : a ≠ '_') (hescape : a ≠ '\\') : db.patterns.Ordinary a := by
  cases db with
  | sqlite => exact ⟨hany, hone, Option.some_ne_none a, fun c h => eq_of_toLower_eq halpha
      (beq_iff_eq.mp h)⟩
  | postgres => exact ⟨hany, hone, fun h => hescape (Option.some.inj h), fun c h =>
      (beq_iff_eq.mp h).symm⟩

theorem ordinary_colon (db : Database) : db.patterns.Ordinary ':' :=
  ordinary_of db (by decide) (by decide) (by decide) (by decide)

theorem ordinary_at (db : Database) : db.patterns.Ordinary '@' :=
  ordinary_of db (by decide) (by decide) (by decide) (by decide)

/-- The text `name//type` has no colon. -/
theorem colon_notMem_front (a : ActorId) :
    ':' ∉ a.name.toList ++ ("//".toList ++ a.actorType.toList) := by
  rw [List.mem_append, List.mem_append, not_or, not_or]
  refine ⟨?_, by decide, a.colon_notMem_actorType⟩
  intro h
  have hword := ActorId.isWordChar_of_validateName a.name_valid h
  revert hword
  decide

theorem simplePattern_iff (db : Database) (nsName : String) (a : ActorId) :
    db.patterns.like ("%:" ++ nsName ++ "@%").toList a.asStr.toList = true ↔
      Reached db nsName a := by
  have hpattern : ("%:" ++ nsName ++ "@%").toList =
      db.patterns.any :: ':' :: (nsName.toList ++ ['@', db.patterns.any]) := by
    cases db <;> simp [Database.patterns, sqlite, postgres]
  have htext : a.asStr.toList = (a.name.toList ++ ("//".toList ++ a.actorType.toList)) ++
      ("::".toList ++ (a.nsName.toList ++ '@' :: a.nodeId.toList)) := by
    rw [ActorId.asStr, a.toList_canonical]
    simp only [List.append_assoc]
  rw [hpattern, htext, LikeSyntax.like_around_iff (ordinary_colon db) (ordinary_at db)]
  simp only [infix_append_iff_of_notMem (colon_notMem_front a)]
  exact Iff.rfl

/-- The pattern with two colons finds nothing that the one with one colon does not. -/
theorem simple_of_qualified (db : Database) (nsName : String) (text : List Char)
    (h : db.patterns.like ("%::" ++ nsName ++ "@%").toList text = true) :
    db.patterns.like ("%:" ++ nsName ++ "@%").toList text = true := by
  have hqualified : ("%::" ++ nsName ++ "@%").toList =
      db.patterns.any :: ':' :: ((':' :: nsName.toList) ++ ['@', db.patterns.any]) := by
    cases db <;> simp [Database.patterns, sqlite, postgres]
  have hsimple : ("%:" ++ nsName ++ "@%").toList =
      db.patterns.any :: ':' :: (nsName.toList ++ ['@', db.patterns.any]) := by
    cases db <;> simp [Database.patterns, sqlite, postgres]
  rw [hqualified, LikeSyntax.like_around_iff (ordinary_colon db) (ordinary_at db)] at h
  rw [hsimple, LikeSyntax.like_around_iff (ordinary_colon db) (ordinary_at db)]
  obtain ⟨v, hv, hinfix⟩ := h
  obtain ⟨w, rfl, hw⟩ := (ordinary_colon db).like_cons_iff.mp hv
  exact ⟨w, hw, (List.suffix_cons _ _).isInfix.trans hinfix⟩

/-- The rows of an actor are deleted when the namespace finds its place in the id. -/
theorem deleted_iff (db : Database) (nsName : String) (a : ActorId) :
    (db.patterns.like ("%::" ++ nsName ++ "@%").toList a.asStr.toList ||
      db.patterns.like ("%:" ++ nsName ++ "@%").toList a.asStr.toList) = true ↔
      Reached db nsName a := by
  rw [Bool.or_eq_true, or_iff_right_of_imp (simple_of_qualified db nsName _),
    simplePattern_iff]

end Patterns

/-- A deletion keeps the rows that `p` holds of when it leaves out all others. -/
theorem deleteWhere_keeps_iff {R K : Type} [DecidableEq K] {key : R → K} (t : Table R key)
    (actor : R → String) (deleted : String → Bool) (p : String → Prop) :
    (∀ r, r ∈ (t.deleteWhere fun r => deleted (actor r)).rows ↔ r ∈ t.rows ∧ p (actor r)) ↔
      ∀ r ∈ t.rows, (deleted (actor r) = false ↔ p (actor r)) := by
  simp only [Table.deleteWhere, List.mem_filter, Bool.not_eq_true', and_congr_right_iff]

theorem mem_actorIds {st : Tables E V} {text : String} : text ∈ st.actorIds ↔
    (∃ r ∈ st.journalEntries.rows, r.actorId = text) ∨
      (∃ r ∈ st.checkpoints.rows, r.actorId = text) ∨
      (∃ r ∈ st.actorEvents.rows, r.actorId = text) ∨
      ∃ r ∈ st.reminders.rows, r.registration.actorId = text := by
  simp only [actorIds, List.mem_append, List.mem_map, or_assoc]

theorem deleteActors_keeps_iff (st : Tables E V) (deleted : String → Bool) (p : String → Prop) :
    st.Keeps (st.deleteActors deleted).2 p ↔
      ∀ text ∈ st.actorIds, (deleted text = false ↔ p text) := by
  constructor
  · intro h text htext
    rcases mem_actorIds.mp htext with ⟨r, hr, rfl⟩ | ⟨r, hr, rfl⟩ | ⟨r, hr, rfl⟩ | ⟨r, hr, rfl⟩
    · exact (deleteWhere_keeps_iff _ _ _ _).mp h.journalEntries r hr
    · exact (deleteWhere_keeps_iff _ _ _ _).mp h.checkpoints r hr
    · exact (deleteWhere_keeps_iff _ _ _ _).mp h.actorEvents r hr
    · exact (deleteWhere_keeps_iff _ _ _ _).mp h.reminders r hr
  · intro h
    refine ⟨?_, ?_, ?_, ?_⟩
    · refine (deleteWhere_keeps_iff _ _ _ _).mpr ?_
      intro r hr
      exact h _ (mem_actorIds.mpr (.inl ⟨r, hr, rfl⟩))
    · refine (deleteWhere_keeps_iff _ _ _ _).mpr ?_
      intro r hr
      exact h _ (mem_actorIds.mpr (.inr (.inl ⟨r, hr, rfl⟩)))
    · refine (deleteWhere_keeps_iff _ _ _ _).mpr ?_
      intro r hr
      exact h _ (mem_actorIds.mpr (.inr (.inr (.inl ⟨r, hr, rfl⟩))))
    · refine (deleteWhere_keeps_iff _ _ _ _).mpr ?_
      intro r hr
      exact h _ (mem_actorIds.mpr (.inr (.inr (.inr ⟨r, hr, rfl⟩))))

/-- In SQLite the rows of the namespace itself are always deleted. -/
theorem reached_self (a : ActorId) : Reached .sqlite a.nsName a := by
  refine ⟨a.nsName.toList, LikeSyntax.like_self rfl _, [':'], a.nodeId.toList, ?_⟩
  simp

/-- Exactly the rows of the namespace are deleted if and only if the namespace finds its place
in the stored ids of its actors and in no other stored ids. -/
theorem purgesExactly_iff (db : Database) (st : Tables E V) (owner : String → ActorId)
    (howner : ∀ text ∈ st.actorIds, (owner text).asStr = text) (nsName : String) :
    st.PurgesExactly db owner nsName ↔
      ∀ text ∈ st.actorIds, Reached db nsName (owner text) ↔ (owner text).nsName = nsName := by
  unfold PurgesExactly
  simp only [purgeNamespace]
  rw [deleteActors_keeps_iff]
  refine forall₂_congr fun text htext => ?_
  have hdeleted := deleted_iff db nsName (owner text)
  rw [howner text htext] at hdeleted
  rw [← hdeleted, ← Bool.not_eq_true]
  exact not_iff_not

section Examples

/-- The actor `w//t::axb@n`. -/
def axb : ActorId where
  canonical := "w//t::axb@n"
  name := "w"
  actorType := "t"
  nsName := "axb"
  nodeId := "n"
  name_valid := by decide +kernel
  actorType_valid := by decide +kernel
  nsName_valid := by decide +kernel
  nodeId_valid := by decide +kernel
  canonical_eq := by decide +kernel

def oneEvent : Tables Unit Unit :=
  ⟨Table.empty, Table.empty,
    ⟨[⟨"1", "w//t::axb@n", 1, ()⟩], List.pairwise_singleton _ _⟩, Table.empty⟩

theorem oneEvent_owner : ∀ text ∈ oneEvent.actorIds, axb.asStr = text := by decide +kernel

theorem purgesExactly_iff_axb : oneEvent.PurgesExactly .sqlite (fun _ => axb) "axb" := by
  refine (purgesExactly_iff .sqlite oneEvent (fun _ => axb) oneEvent_owner "axb").mpr ?_
  intro _ _
  exact iff_of_true (reached_self axb) rfl

/-- To purge `a_b` deletes the event of an actor in the namespace `axb`. -/
theorem not_purgesExactly :
    ¬∀ (db : Database) (st : Tables Unit Unit) (owner : String → ActorId),
      (∀ text ∈ st.actorIds, (owner text).asStr = text) → ∀ nsName,
        st.PurgesExactly db owner nsName := by
  intro h
  have hkeeps := h .sqlite oneEvent (fun _ => axb) oneEvent_owner "a_b"
  have hmem : (⟨"1", "w//t::axb@n", 1, ()⟩ : Row Unit) ∈ oneEvent.actorEvents.rows :=
    List.mem_singleton.mpr rfl
  have hrows : (oneEvent.purgeNamespace .sqlite "a_b").2.actorEvents.rows.length = 0 := by
    decide +kernel
  have hkept := (hkeeps.actorEvents _).mpr ⟨hmem, by decide +kernel⟩
  rw [List.length_eq_zero_iff.mp hrows] at hkept
  cases hkept

end Examples

end Tables

end PlexSpaces.Journaling
