import PlexSpaces.Sdk.Encoders
/-!
# The ReadResponse decoders of the SDKs

The three decoders are one program with a `Dialect` for what differs: how a number
is kept, where a field ends, which ends are checked and what becomes of a value.
A decoder also notes what it meets: the length of each length-delimited field, each
slice it takes and each step of its position.  Its loops run on fuel.
-/

namespace PlexSpaces.Sdk

open PlexSpaces.Lib

/-- Why there is no result: an error, a panic, or the fuel is used up. -/
inductive Fault where
  | error (message : String)
  | panic
  | stuck
  deriving DecidableEq

/-- What a decoder meets. -/
inductive Event where
  /-- The length of a field of a message of `size` bytes, that is read or skipped, and where
  its bytes begin; `pos` is where the length stands. -/
  | length (skipped : Bool) (pos start : Int) (length size : Nat)
  | slice (start stop : Int) (size : Nat)
  | step (pos next : Int)
  deriving DecidableEq

/-- What was met, and the result. -/
structure Decoding (α : Type) where
  met : List Event
  result : Except Fault α

namespace Decoding

variable {α β : Type}

protected def pure (a : α) : Decoding α := ⟨[], .ok a⟩

protected def bind (p : Decoding α) (f : α → Decoding β) : Decoding β :=
  match p.result with
  | .ok a => ⟨p.met ++ (f a).met, (f a).result⟩
  | .error e => ⟨p.met, .error e⟩

instance : Monad Decoding where
  pure := Decoding.pure
  bind := Decoding.bind

def throw (fault : Fault) : Decoding α := ⟨[], .error fault⟩

def note (event : Event) : Decoding Unit := ⟨[event], .ok ()⟩

theorem bind_of_ok {p : Decoding α} {a : α} (h : p.result = .ok a) (f : α → Decoding β) :
    p >>= f = ⟨p.met ++ (f a).met, (f a).result⟩ := by
  change Decoding.bind p f = _
  rw [Decoding.bind, h]

theorem bind_of_error {p : Decoding α} {e : Fault} (h : p.result = .error e)
    (f : α → Decoding β) : p >>= f = ⟨p.met, .error e⟩ := by
  change Decoding.bind p f = _
  rw [Decoding.bind, h]

theorem note_bind (e : Event) (f : Unit → Decoding β) :
    note e >>= f = ⟨e :: (f ()).met, (f ()).result⟩ := rfl

def All (good : Event → Prop) (p : Decoding α) : Prop := ∀ e ∈ p.met, good e

theorem all_bind_of_ok {good : Event → Prop} {p : Decoding α} {a : α} (h : p.result = .ok a)
    (f : α → Decoding β) : (p >>= f).All good ↔ p.All good ∧ (f a).All good := by
  rw [bind_of_ok h]
  exact List.forall_mem_append

theorem all_bind_of_error {good : Event → Prop} {p : Decoding α} {e : Fault}
    (h : p.result = .error e) (f : α → Decoding β) : (p >>= f).All good ↔ p.All good := by
  rw [bind_of_error h]
  exact Iff.rfl

end Decoding

/-- A decoded value; a text is what the language has for one. -/
inductive Value (T : Type) where
  | undefined
  | null
  | boolean (b : Bool)
  | integer (n : Int)
  | double (bytes : Bytes)
  | text (t : T)
  deriving DecidableEq

/-- What differs between the languages. -/
structure Dialect (T : Type) where
  /-- A number of up to seventy bits. -/
  keep : Nat → Nat
  /-- Where a field ends that begins at a position and has a length. -/
  endOf : Int → Nat → Int
  checksRead : Bool
  checksSkipped : Bool
  checksFixed : Bool
  /-- The messages of a length that is too large, of a value, a field and a tuple. -/
  bytesUnderflow : String
  fieldUnderflow : String
  tupleUnderflow : String
  /-- The value of a field that is empty. -/
  initial : Value T
  /-- Any fixed number is taken for the double, whatever its field number. -/
  anyDouble : Bool
  integer : Nat → Int
  decodeText : Bytes → T

namespace Dialect

variable {T α : Type} (D : Dialect T)

/-- The number at a position, and how many bytes it has. -/
def readVarint (data : Bytes) (pos : Int) : Decoding (Nat × Nat) :=
  if pos < 0 then .throw .panic
  else
    match Varint.decode 10 (data.drop pos.toNat) with
    | .ok (n, size) => return (D.keep n, size)
    | .error .underflow => .throw (.error "varint buffer underflow")
    | .error .tooLong => .throw (.error "varint too long")

def skipVarint (data : Bytes) (pos : Int) : Decoding Int := do
  let (_, n) ← D.readVarint data pos
  return pos + n

def skipFixed (data : Bytes) (pos : Int) (size : Nat) (message : String) : Decoding Int :=
  if D.checksFixed ∧ data.length < pos + size then .throw (.error message)
  else return pos + size

def skipLengthDelimited (data : Bytes) (pos : Int) : Decoding Int := do
  let (ln, n) ← D.readVarint data pos
  .note (.length true pos (pos + n) ln data.length)
  let stop := D.endOf (pos + n) ln
  if D.checksSkipped ∧ data.length < stop then .throw (.error "length-delimited underflow")
  else return stop

def positionBehind (data : Bytes) (pos : Int) (wireType : Nat) : Decoding Int :=
  match wireType with
  | 0 => D.skipVarint data pos
  | 1 => D.skipFixed data pos 8 "fixed64 underflow"
  | 2 => D.skipLengthDelimited data pos
  | 5 => D.skipFixed data pos 4 "fixed32 underflow"
  | _ => .throw (.error s!"unknown wire type {wireType}")

def skipField (data : Bytes) (pos : Int) (wireType : Nat) : Decoding Int := do
  let next ← D.positionBehind data pos wireType
  .note (.step pos next)
  return next

/-- The bytes of a length-delimited field and where they end.  A slice that ends before it
begins panics; one that ends behind the data is cut off. -/
def lengthDelimited (data : Bytes) (pos : Int) (message : String) : Decoding (Bytes × Int) := do
  let (ln, n) ← D.readVarint data pos
  let start := pos + n
  .note (.length false pos start ln data.length)
  let stop := D.endOf start ln
  if D.checksRead ∧ data.length < stop then .throw (.error message)
  else
    .note (.slice start stop data.length)
    if stop < start then .throw .panic
    else return ((data.drop start.toNat).take (stop - start).toNat, stop)

/-- The loop over the fields of a message: `field` is given the field number, the wire type
and the position after the tag. -/
def eachField (data : Bytes) (field : Nat → Nat → Int → α → Decoding (Int × α)) :
    Nat → Int → α → Decoding α
  | 0, pos, acc => if pos < data.length then .throw .stuck else return acc
  | fuel + 1, pos, acc =>
      if pos < data.length then do
        let (tag, n) ← D.readVarint data pos
        let (next, acc) ← field (tag >>> 3) (tag % 8) (pos + n) acc
        .note (.step pos next)
        eachField data field fuel next acc
      else return acc

def valueField (msg : Bytes) (fieldNum wireType : Nat) (pos : Int) (last : Value T) :
    Decoding (Int × Value T) :=
  match wireType with
  | 0 => do
      let (v, m) ← D.readVarint msg pos
      return (pos + m,
        match fieldNum with
        | 1 => .integer (D.integer v)
        | 4 => .boolean (v ≠ 0)
        | 6 | 7 => .null
        | _ => last)
  | 1 =>
      if msg.length < pos + 8 then .throw (.error "double underflow")
      else
        return (pos + 8,
          if fieldNum = 2 ∨ D.anyDouble then .double ((msg.drop pos.toNat).take 8) else last)
  | 2 => do
      let (chunk, stop) ← D.lengthDelimited msg pos D.bytesUnderflow
      return (stop, if fieldNum = 3 ∨ fieldNum = 5 then .text (D.decodeText chunk) else last)
  | _ => do
      let next ← D.skipField msg pos wireType
      return (next, last)

def parseTupleFieldMsg (fuel : Nat) (msg : Bytes) : Decoding (Value T) :=
  D.eachField msg (D.valueField msg) fuel 0 D.initial

def repeatedField (msg : Bytes) (message : String) (parse : Bytes → Decoding α)
    (fieldNum wireType : Nat) (pos : Int) (parsed : List α) : Decoding (Int × List α) :=
  if fieldNum = 2 ∧ wireType = 2 then do
    let (sub, stop) ← D.lengthDelimited msg pos message
    let a ← parse sub
    return (stop, parsed ++ [a])
  else do
    let next ← D.skipField msg pos wireType
    return (next, parsed)

def parseTupleMsg (fuel : Nat) (msg : Bytes) : Decoding (List (Value T)) :=
  D.eachField msg (D.repeatedField msg D.fieldUnderflow (D.parseTupleFieldMsg fuel)) fuel 0 []

def parseReadResponseTuples (fuel : Nat) (data : Bytes) : Decoding (List (List (Value T))) :=
  D.eachField data (D.repeatedField data D.tupleUnderflow (D.parseTupleMsg fuel)) fuel 0 []

end Dialect

/-! ## What one field does -/

section Field

variable {T : Type} {D : Dialect T} {data : Bytes} {pos : Int}

theorem readVarint_met (data : Bytes) (pos : Int) : (D.readVarint data pos).met = [] := by
  rw [Dialect.readVarint]
  split_ifs
  · rfl
  · split <;> rfl

theorem readVarint_ok {v n : Nat} (h : (D.readVarint data pos).result = .ok (v, n)) :
    0 ≤ pos ∧ 0 < n ∧ n ≤ 10 ∧ pos + n ≤ data.length ∧
      ∃ number, Varint.decode 10 (data.drop pos.toNat) = .ok (number, n) ∧ v = D.keep number := by
  rw [Dialect.readVarint] at h
  split_ifs at h with hneg
  · cases h
  · cases hdecode : Varint.decode 10 (data.drop pos.toNat) with
    | error bad =>
        rw [hdecode] at h
        cases bad <;> cases h
    | ok read =>
        rw [hdecode] at h
        cases h
        obtain ⟨hpos, hsize, hten⟩ := Varint.decode_size hdecode
        rw [List.length_drop] at hsize
        exact ⟨by omega, hpos, hten, by omega, _, rfl, rfl⟩

theorem readVarint_error {e : Fault} (hpos : 0 ≤ pos)
    (h : (D.readVarint data pos).result = .error e) : ∃ message, e = .error message := by
  rw [Dialect.readVarint, if_neg (Int.not_lt.mpr hpos)] at h
  split at h <;> cases h <;> exact ⟨_, rfl⟩

theorem readVarint_bind {α : Type} {read : Nat × Nat}
    (h : (D.readVarint data pos).result = .ok read) (f : Nat × Nat → Decoding α) :
    D.readVarint data pos >>= f = f read := by
  rw [Decoding.bind_of_ok h, readVarint_met]
  rfl

theorem lengthDelimited_of_error {e : Fault} (h : (D.readVarint data pos).result = .error e)
    (message : String) : D.lengthDelimited data pos message = ⟨[], .error e⟩ := by
  rw [Dialect.lengthDelimited, Decoding.bind_of_error h, readVarint_met]

theorem lengthDelimited_of_ok {ln n : Nat} (h : (D.readVarint data pos).result = .ok (ln, n))
    (message : String) :
    D.lengthDelimited data pos message =
      if D.checksRead ∧ data.length < D.endOf (pos + n) ln then
        ⟨[.length false pos (pos + n) ln data.length], .error (.error message)⟩
      else
        ⟨[.length false pos (pos + n) ln data.length,
            .slice (pos + n) (D.endOf (pos + n) ln) data.length],
          if D.endOf (pos + n) ln < pos + n then .error .panic
          else .ok ((data.drop (pos + n).toNat).take (D.endOf (pos + n) ln - (pos + n)).toNat,
            D.endOf (pos + n) ln)⟩ := by
  rw [Dialect.lengthDelimited, readVarint_bind h]
  dsimp only
  rw [Decoding.note_bind]
  split_ifs <;> rfl

theorem skipField_of_error {e : Fault} (h : (D.readVarint data pos).result = .error e) :
    D.skipField data pos 2 = ⟨[], .error e⟩ := by
  have hskip : D.skipLengthDelimited data pos = ⟨[], .error e⟩ := by
    rw [Dialect.skipLengthDelimited, Decoding.bind_of_error h, readVarint_met]
  change (D.skipLengthDelimited data pos >>= _) = _
  rw [hskip]
  rfl

theorem skipField_of_ok {ln n : Nat} (h : (D.readVarint data pos).result = .ok (ln, n)) :
    D.skipField data pos 2 =
      if D.checksSkipped ∧ data.length < D.endOf (pos + n) ln then
        ⟨[.length true pos (pos + n) ln data.length],
          .error (.error "length-delimited underflow")⟩
      else
        ⟨[.length true pos (pos + n) ln data.length, .step pos (D.endOf (pos + n) ln)],
          .ok (D.endOf (pos + n) ln)⟩ := by
  change (D.skipLengthDelimited data pos >>= _) = _
  rw [Dialect.skipLengthDelimited, readVarint_bind h]
  dsimp only
  rw [Decoding.note_bind]
  split_ifs <;> rfl

end Field

/-! ## Texts -/

/-- How many bytes one replacement character stands for: the longest piece that some character
begins with, or one byte. -/
def maximalSubpart : Bytes → Nat
  | [] => 0
  | [_] => 1
  | first :: second :: rest =>
      let continues : UInt8 → Bool := fun byte => 0x80 ≤ byte && byte ≤ 0xBF
      let low : UInt8 := if first = 0xE0 then 0xA0 else if first = 0xF0 then 0x90 else 0x80
      let high : UInt8 := if first = 0xED then 0x9F else if first = 0xF4 then 0x8F else 0xBF
      if first < 0xE0 ∨ 0xF4 < first ∨ second < low ∨ high < second then 1
      else if first < 0xF0 then 2
      else if (rest.head?.any continues) then 3
      else 2

/-- The text in UTF-8, with a replacement character for what is none. -/
def decodeUtf8 : Nat → Bytes → List Char
  | 0, _ => []
  | _ + 1, [] => []
  | fuel + 1, byte :: bytes =>
      match (byte :: bytes).toByteArray.utf8DecodeChar? 0 with
      | some c => c :: decodeUtf8 fuel ((byte :: bytes).drop c.utf8Size)
      | none => '\uFFFD' :: decodeUtf8 fuel ((byte :: bytes).drop (maximalSubpart (byte :: bytes)))

/-- `bytes.decode('utf-8', errors='replace')`. -/
def decodeReplace (bytes : Bytes) : String := String.ofList (decodeUtf8 bytes.length bytes)

/-- `TextDecoder` drops a byte order mark. -/
def textDecoder (bytes : Bytes) : String :=
  match bytes with
  | 0xEF :: 0xBB :: 0xBF :: bytes => decodeReplace bytes
  | _ => decodeReplace bytes

/-! ## The languages -/

/-- A number as an `int64`. -/
def asInt64 (n : Int) : Int := n.bmod (2 ^ 64)

/-- Numbers are `uint64` and `int`; a Go string is its bytes. -/
def go : Dialect Bytes where
  keep n := n % 2 ^ 64
  endOf start ln := asInt64 (start + asInt64 ln)
  checksRead := true
  checksSkipped := true
  checksFixed := true
  bytesUnderflow := "bytes underflow"
  fieldUnderflow := "tuple field underflow"
  tupleUnderflow := "tuple message underflow"
  initial := .null
  anyDouble := false
  integer v := asInt64 v
  decodeText chunk := chunk

/-- Numbers are unbounded; nothing is checked but a double.  The functions are called
`_decode_varint`, `_skip_field`, `_decode_tuple_field_msg`, `_decode_tuple_msg` and
`decode_read_response`. -/
def python : Dialect String where
  keep n := n
  endOf start ln := start + ln
  checksRead := false
  checksSkipped := false
  checksFixed := false
  bytesUnderflow := ""
  fieldUnderflow := ""
  tupleUnderflow := ""
  initial := .null
  anyDouble := true
  integer v := if 0x7FFFFFFFFFFFFFFF < v then v - 0x10000000000000000 else v
  decodeText := decodeReplace

/-- The double nearest to a number, ties to even. -/
def asNumber (n : Nat) : Nat :=
  let dropped := n.log2 - 52
  let kept := n >>> dropped
  let rest := n % 2 ^ dropped
  if 2 ^ dropped < 2 * rest ∨ (2 * rest = 2 ^ dropped ∧ kept % 2 = 1) then
    (kept + 1) <<< dropped
  else kept <<< dropped

/-- Numbers are read as `BigInt`.  A position is a `Number`, exact below the length of any
data, and beyond it whatever its rounding. -/
def typeScript : Dialect String where
  keep n := n
  endOf start ln := start + ln
  checksRead := true
  checksSkipped := false
  checksFixed := true
  bytesUnderflow := "length-delimited field truncated"
  fieldUnderflow := "length-delimited field truncated"
  tupleUnderflow := "length-delimited field truncated"
  initial := .undefined
  anyDouble := false
  integer v := asNumber v
  decodeText := textDecoder

end PlexSpaces.Sdk
