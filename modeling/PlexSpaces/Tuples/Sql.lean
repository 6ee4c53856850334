import PlexSpaces.Lib.Table
import PlexSpaces.Tuples.Tuple
/-!
# The SQL tuple store

`SqlStorage` over one table of rows `(id, tuple_data, created_at, expires_at,
renewable)`.  The tuple is stored as JSON text; the codec is a parameter, because
`serde_json` does not give every tuple back (a float that is not finite becomes
`null`).  One row that cannot be decoded fails the whole scan.

The statements are those of the SQLite pool.  Fresh ids come from the caller; an
id that is taken violates the primary key and fails the insertion.
-/

namespace PlexSpaces.Tuples

open PlexSpaces.Lib

structure TupleCodec where
  encode : Tuple → Except String String
  decode : String → Except String Tuple

structure TupleRow where
  id : String
  tupleData : String
  createdAt : Nat
  expiresAt : Option Nat
  renewable : Bool
  deriving DecidableEq

abbrev TupleTable := Table TupleRow TupleRow.id

structure StoredTuple where
  id : String
  tuple : Tuple
  createdAt : Nat
  expiresAt : Option Nat
  renewable : Bool

/-- `expires_at IS NULL OR expires_at > now`. -/
def TupleRow.isLive (now : Nat) (r : TupleRow) : Bool :=
  match r.expiresAt with
  | none => true
  | some e => decide (now < e)

namespace SqlStorage

variable (codec : TupleCodec)

/-- Decode the rows and keep those that match; the first row that cannot be
decoded fails the call. -/
def processRows (pattern : Pattern) : List TupleRow → Except TupleSpaceError (List StoredTuple)
  | [] => .ok []
  | row :: rest =>
      match codec.decode row.tupleData with
      | .error e => .error (.serializationError ("Deserialization failed: " ++ e))
      | .ok tuple =>
          match processRows pattern rest with
          | .error e => .error e
          | .ok found =>
              if tuple.matches pattern then
                .ok (⟨row.id, tuple, row.createdAt, row.expiresAt, row.renewable⟩ :: found)
              else
                .ok found

def scanTuples (t : TupleTable) (pattern : Pattern) (now : Nat) :
    Except TupleSpaceError (List StoredTuple) :=
  processRows codec pattern (t.select (TupleRow.isLive now))

/-- The row of a tuple with the given JSON text. -/
def rowFor (tuple : Tuple) (data id : String) (now : Nat) : TupleRow where
  id := id
  tupleData := data
  createdAt := now
  expiresAt := tuple.lease.map (·.expiresAt)
  renewable := (tuple.lease.map (·.renewable)).getD false

def write (t : TupleTable) (tuple : Tuple) (id : String) (now : Nat) :
    Except TupleSpaceError String × TupleTable :=
  match codec.encode tuple with
  | .error e => (.error (.serializationError ("Serialization failed: " ++ e)), t)
  | .ok data =>
      match t.insert? (rowFor tuple data id now) with
      | none => (.error (.backendError "Insert failed: UNIQUE constraint failed: tuples.id"), t)
      | some t' => (.ok id, t')

/-- `take` without a timeout: scan, then delete every row that was found. -/
def take (t : TupleTable) (pattern : Pattern) (now : Nat) :
    Except TupleSpaceError (List Tuple) × TupleTable :=
  match scanTuples codec t pattern now with
  | .error e => (.error e, t)
  | .ok [] => (.ok [], t)
  | .ok stored => (.ok (stored.map (·.tuple)), t.deleteKeys (stored.map (·.id)))

/-! ## Tables whose rows all decode -/

variable {codec}

def rowTuple? (codec : TupleCodec) (r : TupleRow) : Option Tuple :=
  match codec.decode r.tupleData with
  | .ok tuple => some tuple
  | .error _ => none

def rowMatches (codec : TupleCodec) (pattern : Pattern) (r : TupleRow) : Bool :=
  match rowTuple? codec r with
  | some tuple => tuple.matches pattern
  | none => false

def Decodable (codec : TupleCodec) (rows : List TupleRow) : Prop :=
  ∀ r ∈ rows, ∃ tuple, codec.decode r.tupleData = .ok tuple

theorem processRows_of_decodable (pattern : Pattern) {rows : List TupleRow}
    (h : Decodable codec rows) :
    ∃ stored, processRows codec pattern rows = .ok stored ∧
      stored.map (·.id) = (rows.filter (rowMatches codec pattern)).map (·.id) ∧
      stored.map (·.tuple) = (rows.filter (rowMatches codec pattern)).filterMap
        (rowTuple? codec) := by
  induction rows with
  | nil => exact ⟨[], rfl, rfl, rfl⟩
  | cons row rest ih =>
      obtain ⟨stored, hstored, hids, htuples⟩ :=
        ih fun r hr => h r (List.mem_cons_of_mem row hr)
      obtain ⟨tuple, hdecode⟩ := h row List.mem_cons_self
      have htuple : rowTuple? codec row = some tuple := by
        rw [rowTuple?, hdecode]
      have hmatches : rowMatches codec pattern row = tuple.matches pattern := by
        rw [rowMatches, htuple]
      unfold processRows
      rw [hdecode, hstored, List.filter_cons, hmatches]
      dsimp only
      split_ifs with hm
      · refine ⟨_, rfl, ?_, ?_⟩
        · rw [List.map_cons, List.map_cons, hids]
        · rw [List.map_cons, List.filterMap_cons, htuple, htuples]
      · exact ⟨stored, rfl, hids, htuples⟩

end SqlStorage

end PlexSpaces.Tuples
