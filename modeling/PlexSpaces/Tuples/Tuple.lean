import PlexSpaces.Lib.Assoc
/-!
# Tuples and patterns

Tuples are compared with the source's derived equality: a float by its bits, the
metadata as a map.  A pattern matches a tuple of the same length whose fields
match one by one.
-/

namespace PlexSpaces.Tuples

open PlexSpaces.Lib

structure OrderedFloat where
  bits : UInt64
  deriving DecidableEq, Repr

inductive TupleField
  | integer (value : Int64)
  | string (value : String)
  | boolean (value : Bool)
  | binary (value : List UInt8)
  | float (value : OrderedFloat)
  | null
  deriving DecidableEq, Repr

/-- Time is a natural number of nanoseconds since the first instant of the calendar. -/
structure Lease where
  expiresAt : Nat
  owner : Option String
  renewable : Bool
  deriving DecidableEq, Repr

/-- A clock reading plus a number of nanoseconds; `none` when the sum panics because it is no
instant of the calendar. -/
def plusNanos (lastInstant now : Nat) (nanos : Int) : Option Nat :=
  if 0 ≤ now + nanos ∧ now + nanos ≤ lastInstant then some (now + nanos).toNat else none

theorem plusNanos_eq_some {lastInstant now later : Nat} {nanos : Int}
    (h : plusNanos lastInstant now nanos = some later) : (later : Int) = now + nanos := by
  rw [plusNanos] at h
  split_ifs at h with hrange
  have hsame := Option.some.inj h
  omega

def Lease.isExpired (l : Lease) (now : Nat) : Bool := decide (l.expiresAt < now)

structure Tuple where
  fields : List TupleField
  lease : Option Lease
  metadata : FMap String String
  deriving DecidableEq

inductive FieldType
  | integer
  | string
  | boolean
  | binary
  | float
  | null
  deriving DecidableEq, Repr

inductive PatternField
  | exact (expected : TupleField)
  | wildcard
  | type (fieldType : FieldType)
  | predicate (pred : TupleField → Bool)

structure Pattern where
  fields : List PatternField

def matchesType : TupleField → FieldType → Bool
  | .integer _, .integer => true
  | .string _, .string => true
  | .boolean _, .boolean => true
  | .binary _, .binary => true
  | .float _, .float => true
  | .null, .null => true
  | _, _ => false

def PatternField.matches (p : PatternField) (field : TupleField) : Bool :=
  match p with
  | exact expected => field = expected
  | wildcard => true
  | type fieldType => matchesType field fieldType
  | predicate pred => pred field

namespace Tuple

def new (fields : List TupleField) : Tuple := ⟨fields, none, ∅⟩

def isExpired (t : Tuple) (now : Nat) : Bool :=
  match t.lease with
  | some lease => lease.isExpired now
  | none => false

end Tuple

def Tuple.matches (t : Tuple) (p : Pattern) : Bool :=
  t.fields.length = p.fields.length &&
    (t.fields.zip p.fields).all fun (field, pf) => pf.matches field

theorem Tuple.isExpired_of_lease_none {t : Tuple} (h : t.lease = none) (now : Nat) :
    t.isExpired now = false := by
  rw [Tuple.isExpired, h]

inductive TupleSpaceError
  | notFound
  | patternError (message : String)
  | leaseError (message : String)
  | ioError (message : String)
  | backendError (message : String)
  | serializationError (message : String)
  | notSupported (message : String)
  | notImplemented (message : String)
  | invalidConfiguration (message : String)
  | connectionError (message : String)
  deriving DecidableEq, Repr

end PlexSpaces.Tuples
