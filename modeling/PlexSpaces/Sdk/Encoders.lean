import PlexSpaces.Lib.Varint
import Mathlib.Data.Nat.Bitwise
/-!
# The tuple encoders of the SDKs

`WriteRequest` and `ReadRequest` as the Python, Go and TypeScript SDKs write them,
for tuples of null, booleans, integers that a double holds exactly and strings.  A
Go value is given with its type, since the Go encoder refuses an `int`.  A length is
that of an array in memory, so no encoder meets one that it cannot write.
-/

namespace PlexSpaces.Sdk

open PlexSpaces.Lib

abbrev Bytes := List UInt8

/-- An integer of absolute value at most `2^53`. -/
abbrev SafeInt := { n : Int // n.natAbs ≤ 2 ^ 53 }

/-- An element of a tuple or of a pattern. -/
inductive Item where
  | null
  | boolean (b : Bool)
  | integer (n : SafeInt)
  | text (s : String)
  deriving DecidableEq

def utf8 (s : String) : Bytes := s.toList.flatMap String.utf8EncodeChar

/-- Seven bits a byte, the last byte without the mark that another one follows. -/
def varintLoop (more : Nat → UInt8) (x : Nat) : Bytes :=
  if x < 0x80 then [UInt8.ofNat x] else more x :: varintLoop more (x >>> 7)
termination_by x
decreasing_by
  rw [Nat.shiftRight_eq_div_pow]
  omega

/-- The two's complement of a number in 64 bits. -/
def asU64 (n : Int) : Nat := (n % 2 ^ 64).toNat

namespace Python

def encodeVarint (value : Int) : Bytes :=
  varintLoop (fun value => UInt8.ofNat ((value &&& 0x7F) ||| 0x80))
    (if value < 0 then asU64 value else value.toNat)

def encodeLengthDelimited (fieldNum : Nat) (inner : Bytes) : Bytes :=
  encodeVarint ((fieldNum <<< 3) ||| 2 : Nat) ++ encodeVarint inner.length ++ inner

def encodeTupleField (value : Item) (allowWildcard : Bool) : Bytes :=
  match value with
  | .null => if allowWildcard then 0x38 :: encodeVarint 1 else 0x30 :: encodeVarint 1
  | .text s =>
      if allowWildcard && s == "*" then 0x38 :: encodeVarint 1
      else 0x1a :: encodeVarint (utf8 s).length ++ utf8 s
  | .boolean b => 0x20 :: encodeVarint (if b then 1 else 0)
  | .integer n => 0x08 :: encodeVarint n

def encodeTupleFields (values : List Item) (allowWildcard : Bool) : Bytes :=
  values.flatMap fun v => encodeLengthDelimited 2 (encodeTupleField v allowWildcard)

def encodeWriteRequest (tupleValues : List Item) : Bytes :=
  encodeLengthDelimited 2 (encodeTupleFields tupleValues false)

def encodeReadRequest (pattern : List Item) (take : Bool) (maxResults : Int) : Bytes :=
  encodeLengthDelimited 2 (encodeTupleFields pattern true) ++
    (if take then [0x28, 0x01] else []) ++ 0x30 :: encodeVarint maxResults

end Python

namespace Go

def appendVarint (x : Nat) : Bytes := varintLoop (fun x => UInt8.ofNat x ||| 0x80) x

def appendLengthDelimited (fieldNum : Nat) (inner : Bytes) : Bytes :=
  appendVarint ((fieldNum <<< 3) ||| 2) ++ appendVarint inner.length ++ inner

/-- A Go value; a `float64` is one that is an integer. -/
inductive Any where
  | nil
  | bool (x : Bool)
  | int (x : SafeInt)
  | int64 (x : SafeInt)
  | float64 (x : SafeInt)
  | string (x : String)
  deriving DecidableEq

def Any.item : Any → Item
  | .nil => .null
  | .bool x => .boolean x
  | .int x | .int64 x | .float64 x => .integer x
  | .string x => .text x

def encodeTupleField (v : Any) (allowWildcardStar : Bool) : Except String Bytes :=
  match v with
  | .nil => return 0x38 :: appendVarint 1
  | .string x =>
      if allowWildcardStar && x == "*" then return 0x38 :: appendVarint 1
      else return 0x1a :: appendVarint (utf8 x).length ++ utf8 x
  | .bool x => return 0x20 :: if x then appendVarint 1 else appendVarint 0
  | .float64 x => return 0x08 :: appendVarint (asU64 x)
  | .int _ => throw "unsupported tuple field type int"
  | .int64 _ => throw "unsupported tuple field type int64"

def encodeTupleFields (tuple : List Any) (allowWildcardStar : Bool) : Except String Bytes :=
  match tuple with
  | [] => return []
  | el :: tuple => do
      let tf ← encodeTupleField el allowWildcardStar
      let out ← encodeTupleFields tuple allowWildcardStar
      return appendLengthDelimited 2 tf ++ out

def encodeWriteRequest (tuple : List Any) : Except String Bytes := do
  let tupleBody ← encodeTupleFields tuple false
  return appendLengthDelimited 2 tupleBody

/-- The number of results is an `int32`, written as a `uint32`. -/
def encodeReadRequest (pattern : List Any) (take : Bool) (maxResults : Int) :
    Except String Bytes := do
  let templateBody ← encodeTupleFields pattern true
  return appendLengthDelimited 2 templateBody ++
    (if take then 0x28 :: appendVarint 1 else []) ++
    0x30 :: appendVarint (maxResults % 2 ^ 32).toNat

end Go

namespace TypeScript

def appendVarint (x : Nat) : Bytes := varintLoop (fun n => UInt8.ofNat ((n &&& 0xff) ||| 0x80)) x

def appendLengthDelimited (fieldNum : Nat) (inner : Bytes) : Bytes :=
  appendVarint ((fieldNum <<< 3) ||| 2) ++ appendVarint inner.length ++ inner

def appendVarintSigned (x : Int) : Bytes :=
  varintLoop (fun n => UInt8.ofNat ((n &&& 0xff) ||| 0x80)) (if x < 0 then asU64 x else x.toNat)

def encodeTupleField (v : Item) (allowWildcardStar : Bool) : Bytes :=
  match v with
  | .null => 0x38 :: appendVarint 1
  | .text v =>
      if allowWildcardStar && v == "*" then 0x38 :: appendVarint 1
      else 0x1a :: appendVarint (utf8 v).length ++ utf8 v
  | .boolean v => 0x20 :: appendVarint (if v then 1 else 0)
  | .integer v => 0x08 :: appendVarintSigned v

def encodeTupleFields (tuple : List Item) (allowWildcardStar : Bool) : Bytes :=
  tuple.flatMap fun el => appendLengthDelimited 2 (encodeTupleField el allowWildcardStar)

def encodeWriteRequest (tuple : List Item) : Bytes :=
  appendLengthDelimited 2 (encodeTupleFields tuple false)

/-- `maxResults >>> 0` is the number in 32 bits. -/
def encodeReadRequest (pattern : List Item) (take : Bool) (maxResults : Int) : Bytes :=
  appendLengthDelimited 2 (encodeTupleFields pattern true) ++
    (if take then [0x28, 0x01] else []) ++ 0x30 :: appendVarint (maxResults % 2 ^ 32).toNat

end TypeScript

/-! ## The numbers they write -/

section Numbers

theorem ofNat_inj_mod {n n' : Nat} (h : n % 256 = n' % 256) : UInt8.ofNat n = UInt8.ofNat n' := by
  refine UInt8.toNat_inj.mp ?_
  rw [UInt8.toNat_ofNat', UInt8.toNat_ofNat']
  exact h

theorem or_mark : ∀ n < 256, (n ||| 0x80) % 256 = n % 128 + 128 := by decide +kernel

theorem varintLoop_eq {more : Nat → UInt8} (hmore : ∀ x, more x = Varint.continued x) (x : Nat) :
    varintLoop more x = Varint.encode x := by
  induction x using Nat.strongRecOn with
  | ind x ih =>
      rw [varintLoop, Varint.encode, Nat.shiftRight_eq_div_pow]
      split_ifs with hx
      · rfl
      · rw [hmore, ih (x / 2 ^ 7) (by omega)]

theorem python_more (x : Nat) : UInt8.ofNat ((x &&& 0x7F) ||| 0x80) = Varint.continued x := by
  have hlow : x &&& 0x7F = x % 128 := Nat.and_two_pow_sub_one_eq_mod x 7
  refine ofNat_inj_mod ?_
  rw [hlow, or_mark _ (by omega)]
  omega

theorem typeScript_more (x : Nat) : UInt8.ofNat ((x &&& 0xff) ||| 0x80) = Varint.continued x := by
  have hlow : x &&& 0xff = x % 256 := Nat.and_two_pow_sub_one_eq_mod x 8
  refine ofNat_inj_mod ?_
  rw [hlow, or_mark _ (by omega)]
  omega

theorem go_more (x : Nat) : UInt8.ofNat x ||| 0x80 = Varint.continued x := by
  refine UInt8.toNat_inj.mp ?_
  have hsmall : x % 256 ||| 0x80 < 2 ^ 8 := Nat.or_lt_two_pow (by omega) (by decide)
  rw [UInt8.toNat_or, UInt8.toNat_ofNat', Varint.toNat_continued]
  have hmark := or_mark (x % 256) (by omega)
  have hkept : (x % 256 ||| 0x80) % 256 = x % 256 ||| 0x80 := Nat.mod_eq_of_lt hsmall
  rw [hkept] at hmark
  refine hmark.trans ?_
  omega

theorem go_appendVarint (x : Nat) : Go.appendVarint x = Varint.encode x :=
  varintLoop_eq go_more x

theorem typeScript_appendVarint (x : Nat) : TypeScript.appendVarint x = Varint.encode x :=
  varintLoop_eq typeScript_more x

theorem asU64_of_nonneg {n : Int} (h : 0 ≤ n) (hlt : n < 2 ^ 64) : asU64 n = n.toNat := by
  rw [asU64, Int.emod_eq_of_lt h hlt]

theorem python_encodeVarint (n : Int) :
    Python.encodeVarint n = Varint.encode (if n < 0 then asU64 n else n.toNat) :=
  varintLoop_eq python_more _

theorem python_encodeVarint_natCast (n : Nat) : Python.encodeVarint n = Varint.encode n := by
  rw [python_encodeVarint, if_neg (Int.not_lt.mpr (Int.natCast_nonneg n)), Int.toNat_natCast]

theorem SafeInt.lt (n : SafeInt) : -2 ^ 63 ≤ n.1 ∧ n.1 < 2 ^ 63 := by
  have hn := n.2
  omega

theorem signed_asU64 (n : SafeInt) : (if n.1 < 0 then asU64 n.1 else n.1.toNat) = asU64 n.1 := by
  have hn := SafeInt.lt n
  split_ifs with hneg
  · rfl
  · exact (asU64_of_nonneg (by omega) (by omega)).symm

theorem python_integer (n : SafeInt) : Python.encodeVarint n.1 = Varint.encode (asU64 n.1) := by
  rw [python_encodeVarint, signed_asU64]

theorem typeScript_integer (n : SafeInt) :
    TypeScript.appendVarintSigned n.1 = Varint.encode (asU64 n.1) := by
  rw [TypeScript.appendVarintSigned, varintLoop_eq typeScript_more, signed_asU64]

def delimited (inner : Bytes) : Bytes := 0x12 :: Varint.encode inner.length ++ inner

theorem tag_two : Varint.encode ((2 <<< 3) ||| 2) = [0x12] :=
  Varint.encode_of_lt (by decide)

theorem go_delimited (inner : Bytes) : Go.appendLengthDelimited 2 inner = delimited inner := by
  rw [Go.appendLengthDelimited, go_appendVarint, go_appendVarint, tag_two]
  rfl

theorem typeScript_delimited (inner : Bytes) :
    TypeScript.appendLengthDelimited 2 inner = delimited inner := by
  rw [TypeScript.appendLengthDelimited, typeScript_appendVarint, typeScript_appendVarint, tag_two]
  rfl

theorem python_delimited (inner : Bytes) :
    Python.encodeLengthDelimited 2 inner = delimited inner := by
  rw [Python.encodeLengthDelimited, python_encodeVarint_natCast, python_encodeVarint_natCast,
    tag_two]
  rfl

theorem delimited_injective : Function.Injective delimited := by
  intro inner inner' h
  have hbytes : Varint.encode inner.length ++ inner = Varint.encode inner'.length ++ inner' :=
    (List.cons.inj h).2
  have hlength : inner.length = inner'.length := by
    let k := (Varint.encode inner.length).length + (Varint.encode inner'.length).length
    have hn := Varint.decode_encode (k := k) (Nat.le_add_right _ _) inner
    have hn' := Varint.decode_encode (k := k) (Nat.le_add_left _ _) inner'
    rw [hbytes, hn'] at hn
    exact (Prod.mk.inj (Except.ok.inj hn)).1.symm
  rw [hlength] at hbytes
  exact List.append_cancel_left hbytes

end Numbers

/-! ## Agreement -/

section Agreement

/-- Python writes null as null, unless it is in a pattern; TypeScript writes a wildcard. -/
theorem python_field (v : Item) (star : Bool) :
    Python.encodeTupleField v star =
      if v = .null ∧ star = false then [0x30, 0x01] else TypeScript.encodeTupleField v star := by
  have hone : Varint.encode 1 = [0x01] := Varint.encode_of_lt (by decide)
  have hpython : Python.encodeVarint 1 = [0x01] := (python_encodeVarint_natCast 1).trans hone
  cases v with
  | null =>
      cases star with
      | false =>
          rw [if_pos ⟨rfl, rfl⟩, Python.encodeTupleField, hpython]
          rfl
      | true => rw [if_neg nofun, Python.encodeTupleField, TypeScript.encodeTupleField, hpython,
          typeScript_appendVarint, hone, if_pos rfl]
  | boolean b =>
      rw [if_neg nofun, Python.encodeTupleField, TypeScript.encodeTupleField,
        typeScript_appendVarint]
      cases b with
      | false => exact congrArg _ (python_encodeVarint_natCast 0)
      | true => exact congrArg _ (python_encodeVarint_natCast 1)
  | integer n => rw [if_neg nofun, Python.encodeTupleField, TypeScript.encodeTupleField,
      python_integer, typeScript_integer]
  | text s => rw [if_neg nofun, Python.encodeTupleField, TypeScript.encodeTupleField,
      python_encodeVarint_natCast, hpython, typeScript_appendVarint, typeScript_appendVarint, hone]

theorem typeScript_null : TypeScript.encodeTupleField .null false = [0x38, 0x01] := by
  rw [TypeScript.encodeTupleField, typeScript_appendVarint, Varint.encode_of_lt (by decide)]
  rfl

theorem length_python_field (v : Item) (star : Bool) :
    (Python.encodeTupleField v star).length = (TypeScript.encodeTupleField v star).length := by
  rw [python_field]
  split_ifs with h
  · rw [h.1, h.2, typeScript_null]
    rfl
  · rfl

theorem python_field_iff (v : Item) (star : Bool) :
    Python.encodeTupleField v star = TypeScript.encodeTupleField v star ↔
      ¬(v = .null ∧ star = false) := by
  rw [python_field]
  split_ifs with h
  · rw [h.1, h.2, typeScript_null]
    exact iff_of_false (by decide) (not_not.mpr ⟨rfl, rfl⟩)
  · exact iff_of_true rfl h

theorem length_delimited {inner inner' : Bytes} (h : inner.length = inner'.length) :
    (delimited inner).length = (delimited inner').length := by
  rw [delimited, delimited, List.length_append, List.length_append, h]

theorem python_fields_iff (tuple : List Item) (star : Bool) :
    Python.encodeTupleFields tuple star = TypeScript.encodeTupleFields tuple star ↔
      ∀ v ∈ tuple, ¬(v = .null ∧ star = false) := by
  induction tuple with
  | nil => exact iff_of_true rfl nofun
  | cons v tuple ih =>
      rw [Python.encodeTupleFields, TypeScript.encodeTupleFields] at ih ⊢
      rw [List.flatMap_cons, List.flatMap_cons, List.forall_mem_cons, ← ih, ← python_field_iff,
        python_delimited, typeScript_delimited]
      constructor
      · intro h
        obtain ⟨hhead, htail⟩ := List.append_inj h (length_delimited (length_python_field v star))
        exact ⟨delimited_injective hhead, htail⟩
      · rintro ⟨hhead, htail⟩
        rw [hhead, htail]

theorem python_write_iff (tuple : List Item) :
    Python.encodeWriteRequest tuple = TypeScript.encodeWriteRequest tuple ↔ Item.null ∉ tuple := by
  rw [Python.encodeWriteRequest, TypeScript.encodeWriteRequest, python_delimited,
    typeScript_delimited, delimited_injective.eq_iff, python_fields_iff]
  constructor
  · intro h hnull
    exact h _ hnull ⟨rfl, rfl⟩
  · rintro h v hv ⟨rfl, -⟩
    exact h hv

theorem python_read_iff (pattern : List Item) (take : Bool) {maxResults : Int}
    (hlow : -2 ^ 31 ≤ maxResults) (hhigh : maxResults < 2 ^ 31) :
    Python.encodeReadRequest pattern take maxResults =
        TypeScript.encodeReadRequest pattern take maxResults ↔
      0 ≤ maxResults := by
  have hpattern : Python.encodeTupleFields pattern true =
      TypeScript.encodeTupleFields pattern true :=
    (python_fields_iff pattern true).mpr fun _ _ h => Bool.false_ne_true h.2.symm
  rw [Python.encodeReadRequest, TypeScript.encodeReadRequest, python_delimited,
    typeScript_delimited, hpattern, List.append_cancel_left_eq, List.cons.injEq,
    python_encodeVarint, typeScript_appendVarint, Varint.encode_injective.eq_iff]
  refine (and_iff_right rfl).trans ?_
  rw [asU64]
  split_ifs with hneg <;> omega

/-- A value that the Go encoder knows: of the numbers only `float64`. -/
def Go.Any.Encodable : Go.Any → Prop
  | .int _ | .int64 _ => False
  | _ => True

instance (v : Go.Any) : Decidable v.Encodable :=
  match v with
  | .int _ | .int64 _ => inferInstanceAs (Decidable False)
  | .nil | .bool _ | .float64 _ | .string _ => inferInstanceAs (Decidable True)

/-- What Go writes for an encodable value is what TypeScript writes. -/
theorem go_field {v : Go.Any} (h : v.Encodable) (star : Bool) :
    Go.encodeTupleField v star = .ok (TypeScript.encodeTupleField v.item star) := by
  cases v with
  | nil =>
      rw [Go.encodeTupleField, Go.Any.item, TypeScript.encodeTupleField, go_appendVarint,
        typeScript_appendVarint]
      rfl
  | bool b =>
      rw [Go.encodeTupleField, Go.Any.item, TypeScript.encodeTupleField, typeScript_appendVarint,
        go_appendVarint, go_appendVarint, apply_ite Varint.encode]
      rfl
  | float64 n =>
      rw [Go.encodeTupleField, Go.Any.item, TypeScript.encodeTupleField, typeScript_integer,
        go_appendVarint]
      rfl
  | string s =>
      rw [Go.encodeTupleField, Go.Any.item, TypeScript.encodeTupleField, typeScript_appendVarint,
        typeScript_appendVarint, go_appendVarint, go_appendVarint]
      split_ifs <;> rfl
  | int n => cases h
  | int64 n => cases h

theorem go_field_error {v : Go.Any} (h : ¬v.Encodable) (star : Bool) :
    ∃ message, Go.encodeTupleField v star = .error message := by
  cases v with
  | int n => exact ⟨_, rfl⟩
  | int64 n => exact ⟨_, rfl⟩
  | nil | bool b | float64 n | string s => exact absurd trivial h

/-- Go writes a tuple as TypeScript does, or refuses it for an integer that is no `float64`. -/
theorem go_fields (tuple : List Go.Any) (star : Bool) :
    (∀ v ∈ tuple, v.Encodable) ∧ Go.encodeTupleFields tuple star =
        .ok (TypeScript.encodeTupleFields (tuple.map Go.Any.item) star) ∨
      (¬∀ v ∈ tuple, v.Encodable) ∧ ∃ message, Go.encodeTupleFields tuple star = .error message := by
  induction tuple with
  | nil => exact .inl ⟨nofun, rfl⟩
  | cons v tuple ih =>
      rw [Go.encodeTupleFields, List.forall_mem_cons]
      by_cases hv : v.Encodable
      · rw [go_field hv star]
        rcases ih with ⟨htuple, hfields⟩ | ⟨htuple, message, hfields⟩
        · rw [hfields]
          refine .inl ⟨⟨hv, htuple⟩, congrArg Except.ok ?_⟩
          rw [go_delimited, TypeScript.encodeTupleFields, TypeScript.encodeTupleFields,
            List.map_cons, List.flatMap_cons, typeScript_delimited]
        · rw [hfields]
          exact .inr ⟨fun hall => htuple hall.2, message, rfl⟩
      · obtain ⟨message, hfield⟩ := go_field_error hv star
        rw [hfield]
        exact .inr ⟨fun hall => hv hall.1, message, rfl⟩

theorem go_write_iff (tuple : List Go.Any) :
    Go.encodeWriteRequest tuple =
        .ok (TypeScript.encodeWriteRequest (tuple.map Go.Any.item)) ↔
      ∀ v ∈ tuple, v.Encodable := by
  rw [Go.encodeWriteRequest]
  rcases go_fields tuple false with ⟨htuple, hfields⟩ | ⟨htuple, message, hfields⟩
  · rw [hfields]
    refine iff_of_true (congrArg Except.ok ?_) htuple
    rw [go_delimited, TypeScript.encodeWriteRequest, typeScript_delimited]
  · rw [hfields]
    exact iff_of_false nofun htuple

theorem take_bytes : (0x28 :: Go.appendVarint 1 : Bytes) = [0x28, 0x01] := by
  rw [go_appendVarint, Varint.encode_of_lt (by decide)]
  rfl

theorem go_read_iff (pattern : List Go.Any) (take : Bool) (maxResults : Int) :
    Go.encodeReadRequest pattern take maxResults =
        .ok (TypeScript.encodeReadRequest (pattern.map Go.Any.item) take maxResults) ↔
      ∀ v ∈ pattern, v.Encodable := by
  rw [Go.encodeReadRequest]
  rcases go_fields pattern true with ⟨hpattern, hfields⟩ | ⟨hpattern, message, hfields⟩
  · rw [hfields]
    refine iff_of_true (congrArg Except.ok ?_) hpattern
    rw [go_delimited, TypeScript.encodeReadRequest, typeScript_delimited, take_bytes,
      go_appendVarint, typeScript_appendVarint]
  · rw [hfields]
    exact iff_of_false nofun hpattern

end Agreement

/-- The three encoders write the same request for a tuple as it is given in Go. -/
def WritesAgree (tuple : List Go.Any) : Prop :=
  Go.encodeWriteRequest tuple = .ok (Python.encodeWriteRequest (tuple.map Go.Any.item)) ∧
    Go.encodeWriteRequest tuple = .ok (TypeScript.encodeWriteRequest (tuple.map Go.Any.item))

/-- The three encoders write the same request for a pattern as it is given in Go. -/
def ReadsAgree (pattern : List Go.Any) (take : Bool) (maxResults : Int) : Prop :=
  Go.encodeReadRequest pattern take maxResults =
      .ok (Python.encodeReadRequest (pattern.map Go.Any.item) take maxResults) ∧
    Go.encodeReadRequest pattern take maxResults =
      .ok (TypeScript.encodeReadRequest (pattern.map Go.Any.item) take maxResults)

theorem eq_and_eq_iff {α : Type} {result : Except String α} {a b : α} :
    result = .ok a ∧ result = .ok b ↔ result = .ok b ∧ a = b := by
  constructor
  · rintro ⟨ha, hb⟩
    exact ⟨hb, Except.ok.inj (ha.symm.trans hb)⟩
  · rintro ⟨hb, rfl⟩
    exact ⟨hb, hb⟩

/-- The encoders agree on a tuple exactly if it has no null and Go has its integers as `float64`,
and on a pattern exactly if Go has them so and the number of results is not negative. -/
theorem encoders_agree_iff (tuple : List Go.Any) (take : Bool) (maxResults : Int)
    (hlow : -2 ^ 31 ≤ maxResults) (hhigh : maxResults < 2 ^ 31) :
    (WritesAgree tuple ↔ Go.Any.nil ∉ tuple ∧ ∀ v ∈ tuple, v.Encodable) ∧
      (ReadsAgree tuple take maxResults ↔ 0 ≤ maxResults ∧ ∀ v ∈ tuple, v.Encodable) := by
  have hnull : Item.null ∉ tuple.map Go.Any.item ↔ Go.Any.nil ∉ tuple := by
    rw [not_iff_not, List.mem_map]
    constructor
    · rintro ⟨v, hv, hitem⟩
      cases v with
      | nil => exact hv
      | _ => cases hitem
    · exact fun h => ⟨.nil, h, rfl⟩
  constructor
  · rw [WritesAgree, eq_and_eq_iff, go_write_iff, python_write_iff, hnull, and_comm]
  · rw [ReadsAgree, eq_and_eq_iff, go_read_iff, python_read_iff _ take hlow hhigh, and_comm]

theorem encoders_agree_iff_job :
    WritesAgree [.string "job", .float64 ⟨-7, by decide⟩, .bool true] ∧
      ReadsAgree [.string "job", .nil] true 100 :=
  ⟨(encoders_agree_iff [.string "job", .float64 ⟨-7, by decide⟩, .bool true] false 0 (by decide)
      (by decide)).1.mpr (by decide),
    (encoders_agree_iff [.string "job", .nil] true 100 (by decide) (by decide)).2.mpr (by decide)⟩

/-- A tuple with a null. -/
theorem not_encoders_agree : ¬∀ (tuple : List Go.Any) (take : Bool) (maxResults : Int),
    -2 ^ 31 ≤ maxResults → maxResults < 2 ^ 31 →
    WritesAgree tuple ∧ ReadsAgree tuple take maxResults := by
  intro h
  obtain ⟨hpython, htypeScript⟩ := (h [.nil] false 1 (by decide) (by decide)).1
  have hsame := Except.ok.inj (hpython.symm.trans htypeScript)
  exact (python_write_iff [.null]).mp hsame List.mem_cons_self

end PlexSpaces.Sdk
