import PlexSpaces.Sdk.Truncation
/-!
# Tuples through the SDKs

A ReadResponse message with an SDK's own encoding of some tuples, read by the decoder
of the same SDK.
-/

namespace PlexSpaces.Sdk

open PlexSpaces.Lib

/-! ## Texts -/

section Texts

theorem utf8_cons (c : Char) (cs : List Char) :
    utf8 (String.ofList (c :: cs)) = String.utf8EncodeChar c ++ utf8 (String.ofList cs) := by
  simp [utf8]

theorem decodeChar_append (c : Char) (bytes : Bytes) :
    (String.utf8EncodeChar c ++ bytes).toByteArray.utf8DecodeChar? 0 = some c := by
  rw [List.toByteArray_append]
  exact ByteArray.utf8DecodeChar?_utf8EncodeChar_append

theorem decodeUtf8_utf8 (cs : List Char) {fuel : Nat}
    (hfuel : (utf8 (String.ofList cs)).length ≤ fuel) :
    decodeUtf8 fuel (utf8 (String.ofList cs)) = cs := by
  induction cs generalizing fuel with
  | nil => cases fuel <;> rfl
  | cons c cs ih =>
      have hdecode := decodeChar_append c (utf8 (String.ofList cs))
      have hlength := String.length_utf8EncodeChar c
      have hpos := c.utf8Size_pos
      rw [utf8_cons] at hfuel ⊢
      rw [List.length_append] at hfuel
      obtain ⟨byte, bytes, hbytes⟩ : ∃ byte bytes,
          String.utf8EncodeChar c ++ utf8 (String.ofList cs) = byte :: bytes :=
        List.exists_cons_of_ne_nil fun hnil => by
          rw [List.append_eq_nil_iff] at hnil
          rw [hnil.1] at hlength
          exact absurd hlength (Nat.ne_of_lt hpos)
      cases fuel with
      | zero => omega
      | succ fuel =>
          rw [hbytes, decodeUtf8, ← hbytes, hdecode]
          dsimp only
          rw [← hlength, List.drop_left, ih (by omega)]

theorem decodeReplace_utf8 (s : String) : decodeReplace (utf8 s) = s := by
  have h := decodeUtf8_utf8 s.toList (le_refl _)
  rw [String.ofList_toList] at h
  rw [decodeReplace, h, String.ofList_toList]

/-- A text that begins with a byte order mark. -/
def Marked (s : String) : Prop := s.toList.head? = some '\uFEFF'

instance (s : String) : Decidable (Marked s) := inferInstanceAs (Decidable (_ = _))

theorem textDecoder_of_ne {bytes : Bytes}
    (h : ∀ rest, bytes ≠ 0xEF :: 0xBB :: 0xBF :: rest) :
    textDecoder bytes = decodeReplace bytes := by
  unfold textDecoder
  split
  · exact absurd rfl (h _)
  · rfl

/-- `TextDecoder` gives the text back unless it begins with a byte order mark. -/
theorem textDecoder_utf8_iff (s : String) : textDecoder (utf8 s) = s ↔ ¬Marked s := by
  have hmark : String.utf8EncodeChar '\uFEFF' = [0xEF, 0xBB, 0xBF] := by decide
  obtain ⟨cs, rfl⟩ : ∃ cs, s = String.ofList cs := ⟨s.toList, String.ofList_toList.symm⟩
  constructor
  · intro h hmarked
    cases cs with
    | nil => simp [Marked] at hmarked
    | cons c cs =>
        obtain rfl : c = '\uFEFF' := by simpa [Marked] using hmarked
        have hdropped : textDecoder (utf8 (String.ofList ('\uFEFF' :: cs))) = String.ofList cs := by
          rw [utf8_cons, hmark]
          exact decodeReplace_utf8 _
        rw [hdropped] at h
        have hlength := congrArg String.length h
        simp at hlength
  · intro h
    rw [textDecoder_of_ne, decodeReplace_utf8]
    intro rest hrest
    cases cs with
    | nil => cases hrest
    | cons c cs =>
        have hdecode := decodeChar_append c (utf8 (String.ofList cs))
        have hdecode' := decodeChar_append '\uFEFF' rest
        rw [← utf8_cons, hrest] at hdecode
        rw [hmark] at hdecode'
        have hc : some c = some '\uFEFF' := hdecode.symm.trans hdecode'
        exact h (by simpa [Marked] using hc)

end Texts

/-! ## Integers -/

section Integers

theorem asNumber_of_le {n : Nat} (h : n ≤ 2 ^ 53) : asNumber n = n := by
  obtain rfl | hlt := h.eq_or_lt
  · decide +kernel
  · have hdropped : n.log2 - 52 = 0 := by
      by_cases hn : n = 0
      · rw [hn]
        decide
      · have hlog := (Nat.log2_lt hn).mpr hlt
        omega
    rw [asNumber, hdropped]
    simp [Nat.mod_one]

theorem asU64_lt (n : Int) : asU64 n < 2 ^ 64 := by
  rw [asU64]
  omega

theorem asInt64_asU64 (n : SafeInt) : asInt64 (asU64 n.1) = n.1 := by
  have hn := n.2
  rw [asInt64, asU64, Int.toNat_of_nonneg (Int.emod_nonneg _ (by decide))]
  refine (Int.emod_bmod n.1 (2 ^ 64)).trans ?_
  exact Int.bmod_eq_of_le (by omega) (by omega)

theorem go_integer (v : Nat) : go.integer v = asInt64 v := by simp only [go]

theorem go_integer_asU64 (n : SafeInt) : go.integer (asU64 n.1) = n.1 := by
  rw [go_integer, asInt64_asU64]

theorem python_integer_asU64 (n : SafeInt) : python.integer (asU64 n.1) = n.1 := by
  have hn := n.2
  change (if 0x7FFFFFFFFFFFFFFF < asU64 n.1 then (asU64 n.1 : Int) - 0x10000000000000000
    else (asU64 n.1 : Int)) = n.1
  rw [asU64]
  split_ifs <;> omega

/-- `Number` gives the integer back unless it is negative. -/
theorem typeScript_integer_iff (n : SafeInt) : typeScript.integer (asU64 n.1) = n.1 ↔ 0 ≤ n.1 := by
  change (asNumber (asU64 n.1) : Int) = n.1 ↔ 0 ≤ n.1
  have hn := n.2
  constructor
  · intro h
    rw [← h]
    exact Int.natCast_nonneg _
  · intro h
    rw [asU64_of_nonneg h (by omega), asNumber_of_le (by omega), Int.toNat_of_nonneg h]

end Integers

/-! ## Reading what was written -/

/-- What the languages have in common for numbers of 64 bits and for positions in memory. -/
structure Reads {T : Type} (D : Dialect T) : Prop where
  keep : ∀ n < 2 ^ 64, D.keep n = n
  endOf : ∀ (start ln : Nat), start + ln < 2 ^ 63 → D.endOf start ln = (start + ln : Nat)

theorem reads_language (language : Language) : Reads language.dialect := by
  cases language with
  | python => exact ⟨fun _ _ => rfl, fun _ _ _ => rfl⟩
  | typeScript => exact ⟨fun _ _ => rfl, fun _ _ _ => rfl⟩
  | go =>
      refine ⟨fun n hn => Nat.mod_eq_of_lt hn, fun start ln h => ?_⟩
      exact (endOf_of_lt (Int.natCast_nonneg start) (by omega)).trans
        (Int.natCast_add start ln).symm

section Reading

open Decoding

variable {T α β : Type} {D : Dialect T} {data rest : Bytes} {pos : Nat} (h : Reads D)

theorem drop_add (front : Bytes) (hdrop : data.drop pos = front ++ rest) :
    data.drop (pos + front.length) = rest := by
  rw [← List.drop_drop, hdrop, List.drop_left]

theorem length_eq {front : Bytes} (hdrop : data.drop pos = front ++ rest) (hne : front ≠ []) :
    data.length = pos + front.length + rest.length := by
  have hlength := congrArg List.length hdrop
  have hpos := List.length_pos_iff.mpr hne
  rw [List.length_drop, List.length_append] at hlength
  omega

include h

theorem readVarint_encode {n : Nat} (hn : n < 2 ^ 64)
    (hdrop : data.drop pos = Varint.encode n ++ rest) :
    D.readVarint data pos = pure (n, (Varint.encode n).length) := by
  have hten : (Varint.encode n).length ≤ 10 :=
    Varint.length_encode_le (hn.trans_le (by decide))
  rw [Dialect.readVarint, if_neg (Int.not_lt.mpr (Int.natCast_nonneg pos)), Int.toNat_natCast,
    hdrop, Varint.decode_encode hten]
  dsimp only
  rw [h.keep n hn]

theorem lengthDelimited_encode {sub : Bytes} (hsize : data.length < 2 ^ 63)
    (hdrop : data.drop pos = Varint.encode sub.length ++ (sub ++ rest)) (message : String) :
    (D.lengthDelimited data pos message).result =
      .ok (sub, (pos + (Varint.encode sub.length).length + sub.length : Nat)) := by
  have hlength := length_eq hdrop (Varint.encode_ne_nil _)
  rw [List.length_append] at hlength
  have hread := readVarint_encode h (by omega) hdrop
  have hend := h.endOf (pos + (Varint.encode sub.length).length) sub.length (by omega)
  have hresult : (D.readVarint data pos).result =
      .ok (sub.length, (Varint.encode sub.length).length) := by rw [hread]; rfl
  rw [lengthDelimited_of_ok hresult, ← Int.natCast_add, hend, if_neg (by omega), if_neg (by omega),
    Int.toNat_natCast, drop_add _ hdrop, ← Int.natCast_sub (Nat.le_add_right _ _),
    Int.toNat_natCast, Nat.add_sub_cancel_left, List.take_left]

theorem skipField_encode {sub : Bytes} (hsize : data.length < 2 ^ 63)
    (hdrop : data.drop pos = Varint.encode sub.length ++ (sub ++ rest)) :
    (D.skipField data pos 2).result =
      .ok ((pos + (Varint.encode sub.length).length + sub.length : Nat) : Int) := by
  have hlength := length_eq hdrop (Varint.encode_ne_nil _)
  rw [List.length_append] at hlength
  have hread := readVarint_encode h (by omega) hdrop
  have hend := h.endOf (pos + (Varint.encode sub.length).length) sub.length (by omega)
  have hresult : (D.readVarint data pos).result =
      .ok (sub.length, (Varint.encode sub.length).length) := by rw [hread]; rfl
  rw [skipField_of_ok hresult, ← Int.natCast_add, hend, if_neg (by omega)]

omit h

theorem eachField_end {field : Nat → Nat → Int → α → Decoding (Int × α)} (hend : data.length ≤ pos)
    (fuel : Nat) (acc : α) : (D.eachField data field fuel pos acc).result = .ok acc := by
  cases fuel with
  | zero =>
      rw [Dialect.eachField, if_neg (by omega)]
      rfl
  | succ fuel =>
      rw [Dialect.eachField, if_neg (by omega)]
      rfl

include h

/-- One round of a loop, with a tag of one byte. -/
theorem eachField_tag {field : Nat → Nat → Int → α → Decoding (Int × α)} (pos tag next : Nat)
    {acc acc' : α} (htag : tag < 128) (hdrop : data.drop pos = UInt8.ofNat tag :: rest)
    (hfield : (field (tag >>> 3) (tag % 8) (pos + 1 : Nat) acc).result = .ok (next, acc'))
    (fuel : Nat) : (D.eachField data field (fuel + 1) pos acc).result =
      (D.eachField data field fuel next acc').result := by
  have hdrop' : data.drop pos = Varint.encode tag ++ rest := by
    rw [Varint.encode_of_lt htag]
    exact hdrop
  have hlength := length_eq hdrop' (Varint.encode_ne_nil _)
  have hpos := Varint.length_encode_pos tag
  rw [Dialect.eachField, if_pos (by omega), readVarint_encode h (by omega) hdrop',
    Varint.encode_of_lt htag]
  change (field (tag >>> 3) (tag % 8) (pos + 1 : Nat) acc >>= _).result = _
  rw [result_bind_of_ok hfield]
  rfl

theorem eachField_delimited (hsize : data.length < 2 ^ 63) (message : String)
    (parse : Bytes → Decoding α) (write : β → Bytes) (read : β → α) {elements : List β} {fuel : Nat}
    (parsed : List α) (hfuel : data.length ≤ pos + fuel)
    (hdrop : data.drop pos = (elements.flatMap fun b => delimited (write b)) ++ rest)
    (hparse : ∀ b ∈ elements, (write b).length ≤ data.length →
      (parse (write b)).result = .ok (read b)) :
    ∃ fuel' pos' : Nat, data.length ≤ pos' + fuel' ∧ data.drop pos' = rest ∧
      (D.eachField data (D.repeatedField data message parse) fuel pos parsed).result =
        (D.eachField data (D.repeatedField data message parse) fuel' pos'
          (parsed ++ elements.map read)).result := by
  induction elements generalizing pos fuel parsed with
  | nil => exact ⟨fuel, pos, hfuel, hdrop, by rw [List.map_nil, List.append_nil]⟩
  | cons b elements ih =>
      rw [List.flatMap_cons, delimited, List.append_assoc, List.append_assoc,
        List.cons_append] at hdrop
      have htag := drop_add [0x12] hdrop
      have hlength := length_eq htag (Varint.encode_ne_nil _)
      rw [List.length_append, List.length_singleton] at hlength
      obtain ⟨fuel, rfl⟩ : ∃ k, fuel = k + 1 := ⟨fuel - 1, by omega⟩
      have hread := lengthDelimited_encode h hsize htag message
      have hrest := drop_add _ (drop_add _ htag)
      rw [List.length_singleton] at hread hrest
      have hfield : (D.repeatedField data message parse 2 2 (pos + 1 : Nat) parsed).result =
          .ok ((pos + 1 + (Varint.encode (write b).length).length + (write b).length : Nat),
            parsed ++ [read b]) := by
        rw [Dialect.repeatedField, if_pos ⟨rfl, rfl⟩, result_bind_of_ok hread]
        dsimp only
        rw [result_bind_of_ok (hparse b List.mem_cons_self (by omega))]
        rfl
      have hfuel' : data.length ≤
          pos + 1 + (Varint.encode (write b).length).length + (write b).length + fuel := by omega
      obtain ⟨fuel', pos', hfuel', hdrop', hresult⟩ := ih (parsed ++ [read b]) hfuel' hrest
        fun b' hb' => hparse b' (List.mem_cons_of_mem _ hb')
      refine ⟨fuel', pos', hfuel', hdrop', ?_⟩
      rw [eachField_tag h pos 0x12 _ (by decide) hdrop hfield, hresult, List.append_assoc,
        List.map_cons, List.singleton_append]

theorem parseField_varint (tag n : Nat) (htag : tag < 128) (htype : tag % 8 = 0) (hn : n < 2 ^ 64)
    (fuel : Nat) : (D.parseTupleFieldMsg (fuel + 1) (UInt8.ofNat tag :: Varint.encode n)).result =
      .ok (match tag >>> 3 with
        | 1 => .integer (D.integer n)
        | 4 => .boolean (n ≠ 0)
        | 6 | 7 => .null
        | _ => D.initial) := by
  have hread : D.readVarint (UInt8.ofNat tag :: Varint.encode n) (1 : Nat) =
      pure (n, (Varint.encode n).length) := readVarint_encode h hn (List.append_nil _).symm
  refine (eachField_tag h 0 tag (1 + (Varint.encode n).length) htag rfl ?_ fuel).trans
    (eachField_end ?_ fuel _)
  · rw [htype]
    change (D.readVarint _ (1 : Nat) >>= _).result = _
    rw [hread]
    rfl
  · rw [List.length_cons]
    omega

theorem parseField_text {bytes : Bytes}
    (hsize : (0x1a :: Varint.encode bytes.length ++ bytes).length < 2 ^ 63) (fuel : Nat) :
    (D.parseTupleFieldMsg (fuel + 1) (0x1a :: Varint.encode bytes.length ++ bytes)).result =
      .ok (.text (D.decodeText bytes)) := by
  have hdrop : (0x1a :: Varint.encode bytes.length ++ bytes).drop 1 =
      Varint.encode bytes.length ++ (bytes ++ []) := congrArg _ (List.append_nil bytes).symm
  have hread := lengthDelimited_encode h hsize hdrop D.bytesUnderflow
  refine (eachField_tag h 0 0x1a (1 + (Varint.encode bytes.length).length + bytes.length)
    (by decide) rfl ?_ fuel).trans (eachField_end ?_ fuel _)
  · change (D.lengthDelimited _ (1 : Nat) D.bytesUnderflow >>= _).result = _
    rw [result_bind_of_ok hread]
    rfl
  · change (0x1a :: Varint.encode bytes.length ++ bytes).length ≤ _
    rw [List.length_append, List.length_cons]
    omega

end Reading

/-! ## Tuples -/

namespace Language

variable (language : Language)

def field (v : Item) : Bytes :=
  if language = .python ∧ v = .null then [0x30, 0x01] else TypeScript.encodeTupleField v false

def read : Item → Value language.Text
  | .null => .null
  | .boolean b => .boolean b
  | .integer n => .integer (language.dialect.integer (asU64 n.1))
  | .text s => .text (language.dialect.decodeText (utf8 s))

def fields (tuple : List Item) : Bytes := tuple.flatMap fun v => delimited (language.field v)

theorem field_of_ne {v : Item} (h : v ≠ .null) :
    language.field v = TypeScript.encodeTupleField v false := if_neg fun hnull => h hnull.2

theorem parseField (v : Item) (hsize : (language.field v).length < 2 ^ 63) (fuel : Nat) :
    (language.dialect.parseTupleFieldMsg (fuel + 1) (language.field v)).result =
      .ok (language.read v) := by
  have h := reads_language language
  have hone : Varint.encode 1 = [0x01] := Varint.encode_of_lt (by decide)
  cases v with
  | null =>
      rw [field, typeScript_null, ← hone]
      split_ifs
      · exact parseField_varint h 0x30 1 (by decide) rfl (by decide) fuel
      · exact parseField_varint h 0x38 1 (by decide) rfl (by decide) fuel
  | boolean b =>
      rw [field_of_ne language (by simp), TypeScript.encodeTupleField, typeScript_appendVarint]
      cases b with
      | false => exact parseField_varint h 0x20 0 (by decide) rfl (by decide) fuel
      | true => exact parseField_varint h 0x20 1 (by decide) rfl (by decide) fuel
  | integer n =>
      rw [field_of_ne language (by simp), TypeScript.encodeTupleField, typeScript_integer]
      exact parseField_varint h 0x08 _ (by decide) rfl (asU64_lt n.1) fuel
  | text s =>
      have hfield : language.field (.text s) =
          0x1a :: Varint.encode (utf8 s).length ++ utf8 s := by
        rw [field_of_ne language (by simp), TypeScript.encodeTupleField, typeScript_appendVarint,
          typeScript_appendVarint]
        rfl
      rw [hfield] at hsize ⊢
      exact parseField_text h hsize fuel

theorem parseTuple (tuple : List Item) (hsize : (language.fields tuple).length < 2 ^ 63)
    {fuel : Nat} (hfuel : (language.fields tuple).length < fuel) :
    (language.dialect.parseTupleMsg fuel (language.fields tuple)).result =
      .ok (tuple.map language.read) := by
  obtain ⟨more, rfl⟩ : ∃ more, fuel = more + 1 := ⟨fuel - 1, by omega⟩
  have hfields : (language.fields tuple).drop 0 =
      (tuple.flatMap fun v => delimited (language.field v)) ++ [] := by
    rw [List.drop_zero, List.append_nil, fields]
  have hbound : (language.fields tuple).length ≤ 0 + (more + 1) := by omega
  obtain ⟨fuel', pos', -, hdrop, hresult⟩ := eachField_delimited (reads_language language) hsize
    language.dialect.fieldUnderflow (language.dialect.parseTupleFieldMsg (more + 1)) language.field
    language.read [] hbound hfields fun v _ hv => language.parseField v (hv.trans_lt hsize) more
  exact hresult.trans (eachField_end (List.drop_eq_nil_iff.mp hdrop) fuel' _)

end Language

/-- A ReadResponse message; its fields are the id of the request, the tuples and whether there
are more. -/
def readResponse (requestId : Bytes) (tuples : List Bytes) (hasMore : Bool) : Bytes :=
  (if requestId = [] then [] else 0x0a :: Varint.encode requestId.length ++ requestId) ++
    (tuples.flatMap delimited ++ if hasMore then [0x18, 0x01] else [])

section Message

open Decoding

variable {T α : Type} {D : Dialect T} {data rest : Bytes} (h : Reads D) (message : String)
  (parse : Bytes → Decoding α) (parsed : List α)

include h

theorem eachField_requestId (hsize : data.length < 2 ^ 63) (requestId : Bytes) {fuel : Nat}
    (hdata : data =
      (if requestId = [] then [] else 0x0a :: Varint.encode requestId.length ++ requestId) ++ rest)
    (hfuel : data.length ≤ fuel) : ∃ fuel' pos' : Nat, data.length ≤ pos' + fuel' ∧
      data.drop pos' = rest ∧
      (D.eachField data (D.repeatedField data message parse) fuel 0 parsed).result =
        (D.eachField data (D.repeatedField data message parse) fuel' pos' parsed).result := by
  split_ifs at hdata with hnil
  · exact ⟨fuel, 0, by omega, hdata, rfl⟩
  · have hdrop : data.drop 0 = 0x0a :: (Varint.encode requestId.length ++ (requestId ++ rest)) := by
      rw [List.drop_zero, hdata, List.append_assoc, List.cons_append]
    have htag := drop_add [0x0a] hdrop
    have hlength := length_eq htag (Varint.encode_ne_nil _)
    have hrest := drop_add _ (drop_add _ htag)
    have hskip := skipField_encode h hsize htag
    rw [List.length_singleton] at hlength hrest hskip
    rw [List.length_append] at hlength
    obtain ⟨fuel, rfl⟩ : ∃ k, fuel = k + 1 := ⟨fuel - 1, by omega⟩
    refine ⟨fuel, _, ?_, hrest, eachField_tag h 0 0x0a _ (by decide) hdrop ?_ fuel⟩
    · omega
    · rw [Dialect.repeatedField, if_neg (by decide)]
      exact (result_bind_of_ok hskip _).trans rfl

theorem eachField_hasMore {pos fuel : Nat} {hasMore : Bool}
    (hdrop : data.drop pos = if hasMore then [0x18, 0x01] else [])
    (hfuel : data.length ≤ pos + fuel) :
    (D.eachField data (D.repeatedField data message parse) fuel pos parsed).result =
      .ok parsed := by
  split_ifs at hdrop with hmore
  · have hlength := congrArg List.length hdrop
    have hone : Varint.encode 1 = [0x01] := Varint.encode_of_lt (by decide)
    rw [List.length_drop] at hlength
    change data.length - pos = 2 at hlength
    obtain ⟨fuel, rfl⟩ : ∃ k, fuel = k + 1 := ⟨fuel - 1, by omega⟩
    have hread : D.readVarint data (pos + 1 : Nat) = pure (1, 1) := by
      have hdrop' : data.drop (pos + 1) = Varint.encode 1 ++ [] := by
        rw [hone]
        exact drop_add [0x18] hdrop
      rw [readVarint_encode h (by decide) hdrop', hone]
      rfl
    refine (eachField_tag h pos 0x18 (pos + 2) (by decide) hdrop ?_ fuel).trans
      (eachField_end (by omega) fuel parsed)
    rw [Dialect.repeatedField, if_neg (by decide)]
    change (((D.readVarint data (pos + 1 : Nat) >>= _) >>= _) >>= _).result = _
    rw [hread]
    rfl
  · exact eachField_end (List.drop_eq_nil_iff.mp hdrop) fuel _

end Message

theorem decode_readResponse (language : Language) (requestId : Bytes) (tuples : List (List Item))
    (hasMore : Bool)
    (hsize : (readResponse requestId (tuples.map language.fields) hasMore).length < 2 ^ 63)
    {fuel : Nat}
    (hfuel : (readResponse requestId (tuples.map language.fields) hasMore).length < fuel) :
    (language.decode fuel
        (readResponse requestId (tuples.map language.fields) hasMore)).result =
      .ok (tuples.map fun tuple => tuple.map language.read) := by
  have h := reads_language language
  obtain ⟨fuel', pos', hfuel', hdrop', hid⟩ := eachField_requestId h
    language.dialect.tupleUnderflow (language.dialect.parseTupleMsg fuel) [] hsize requestId rfl
    hfuel.le
  rw [List.flatMap_map] at hdrop'
  obtain ⟨fuel'', pos'', hfuel'', hdrop'', htuples⟩ := eachField_delimited h hsize
    language.dialect.tupleUnderflow (language.dialect.parseTupleMsg fuel) language.fields
    (fun tuple => tuple.map language.read) [] hfuel' hdrop'
    fun tuple _ htuple => language.parseTuple tuple (htuple.trans_lt hsize) (htuple.trans_lt hfuel)
  exact hid.trans (htuples.trans (eachField_hasMore h _ _ _ hdrop'' hfuel''))

/-! ## What is given to an SDK -/

namespace Language

variable (language : Language)

/-- An element of a tuple as the language has it. -/
abbrev Element : Type :=
  match language with
  | .python | .typeScript => Item
  | .go => Go.Any

def item {language : Language} (v : language.Element) : Item :=
  match language, v with
  | .python, v | .typeScript, v => v
  | .go, v => Go.Any.item v

def encodeTupleFields (tuple : List language.Element) : Except String Bytes :=
  match language, tuple with
  | .python, tuple => return Python.encodeTupleFields tuple false
  | .typeScript, tuple => return TypeScript.encodeTupleFields tuple false
  | .go, tuple => Go.encodeTupleFields tuple false

/-- A value that the language reads an element as. -/
def value : Item → Value language.Text
  | .null => .null
  | .boolean b => .boolean b
  | .integer n => .integer n.1
  | .text s =>
      .text (match language with
        | .python => s
        | .typeScript => s
        | .go => utf8 s)

/-- The message with the SDK's encoding of some tuples. -/
def response (requestId : Bytes) (tuples : List (List language.Element)) (hasMore : Bool) :
    Except String Bytes := do
  return readResponse requestId (← tuples.mapM language.encodeTupleFields) hasMore

/-- The SDK has a message for the tuples, and reads the same tuples in it. -/
def Survive (requestId : Bytes) (tuples : List (List language.Element)) (hasMore : Bool) : Prop :=
  ∃ message, language.response requestId tuples hasMore = .ok message ∧
    ∀ fuel, message.length < fuel → (language.decode fuel message).result =
      .ok (tuples.map fun tuple => tuple.map fun v => language.value (item v))

end Language

/-- An element that is no negative integer and no text that begins with a byte order mark. -/
def Item.Plain : Item → Prop
  | .integer n => 0 ≤ n.1
  | .text s => ¬Marked s
  | _ => True

/-- TypeScript keeps the plain elements, and Go the values that it can encode. -/
def Language.Keeps (language : Language) (v : language.Element) : Prop :=
  match language, v with
  | .python, _ => True
  | .typeScript, v => v.Plain
  | .go, v => v.Encodable

def Language.Writes (language : Language) (v : language.Element) : Prop :=
  match language, v with
  | .python, _ | .typeScript, _ => True
  | .go, v => v.Encodable

section Survive

variable (language : Language) (requestId : Bytes) (tuples : List (List language.Element))
  (hasMore : Bool)

theorem read_eq_value_iff (v : Item) :
    language.read v = language.value v ↔ (language = .typeScript → v.Plain) := by
  cases v with
  | null => exact iff_of_true rfl fun _ => trivial
  | boolean b => exact iff_of_true rfl fun _ => trivial
  | integer n =>
      rw [Language.read, Language.value, Value.integer.injEq]
      cases language with
      | python => exact iff_of_true (python_integer_asU64 n) nofun
      | typeScript => exact (typeScript_integer_iff n).trans ⟨fun hn _ => hn, fun hn => hn rfl⟩
      | go => exact iff_of_true (go_integer_asU64 n) nofun
  | text s =>
      cases language with
      | python => exact iff_of_true (congrArg Value.text (decodeReplace_utf8 s)) nofun
      | typeScript =>
          constructor
          · intro h _
            exact (textDecoder_utf8_iff s).mp (Value.text.inj h)
          · intro h
            exact congrArg Value.text ((textDecoder_utf8_iff s).mpr (h rfl))
      | go => exact iff_of_true rfl nofun

variable {language}

theorem keeps_iff (v : language.Element) :
    language.Keeps v ↔ language.Writes v ∧
      language.read (Language.item v) = language.value (Language.item v) := by
  rw [read_eq_value_iff]
  cases language with
  | python => exact iff_of_true trivial ⟨trivial, nofun⟩
  | typeScript => exact ⟨fun h => ⟨trivial, fun _ => h⟩, fun h => h.2 rfl⟩
  | go => exact (and_iff_left nofun).symm

theorem encodeTupleFields_cases (tuple : List language.Element) :
    (∀ v ∈ tuple, language.Writes v) ∧
        language.encodeTupleFields tuple = .ok (language.fields (tuple.map Language.item)) ∨
      (¬∀ v ∈ tuple, language.Writes v) ∧
        ∃ message, language.encodeTupleFields tuple = .error message := by
  cases language with
  | python =>
      refine .inl ⟨fun _ _ => trivial, congrArg Except.ok ?_⟩
      change List.flatMap _ tuple = List.flatMap _ (List.map id tuple)
      simp only [python_delimited, python_field, Language.field, true_and, and_true, List.map_id]
  | typeScript =>
      refine .inl ⟨fun _ _ => trivial, congrArg Except.ok ?_⟩
      change List.flatMap _ tuple = List.flatMap _ (List.map id tuple)
      simp only [typeScript_delimited, Language.field, reduceCtorEq, false_and, if_false,
        List.map_id]
  | go =>
      refine (go_fields tuple false).imp_left fun h => ⟨h.1, h.2.trans (congrArg Except.ok ?_)⟩
      change List.flatMap _ (tuple.map Go.Any.item) = List.flatMap _ (tuple.map Go.Any.item)
      simp only [typeScript_delimited, Language.field, reduceCtorEq, false_and, if_false]

theorem mapM_encodeTupleFields_cases :
    (∀ tuple ∈ tuples, ∀ v ∈ tuple, language.Writes v) ∧
        tuples.mapM language.encodeTupleFields =
          .ok ((tuples.map (·.map Language.item)).map language.fields) ∨
      (¬∀ tuple ∈ tuples, ∀ v ∈ tuple, language.Writes v) ∧
        ∃ message, tuples.mapM language.encodeTupleFields = .error message := by
  induction tuples with
  | nil => exact .inl ⟨nofun, rfl⟩
  | cons tuple tuples ih =>
      rw [List.mapM_cons, List.forall_mem_cons]
      rcases encodeTupleFields_cases tuple with ⟨htuple, hfields⟩ | ⟨htuple, message, hfields⟩
      · rw [hfields]
        rcases ih with ⟨htuples, hrest⟩ | ⟨htuples, message, hrest⟩
        · rw [hrest]
          exact .inl ⟨⟨htuple, htuples⟩, rfl⟩
        · rw [hrest]
          exact .inr ⟨fun hall => htuples hall.2, message, rfl⟩
      · rw [hfields]
        exact .inr ⟨fun hall => htuple hall.1, message, rfl⟩

/-- Tuples survive an SDK exactly if it keeps their elements: in TypeScript no negative integer
and no text that begins with a byte order mark, in Go no integer but a `float64`. -/
theorem tuples_survive_iff (hsize : ∀ message, language.response requestId tuples hasMore =
      .ok message → message.length < 2 ^ 63) :
    language.Survive requestId tuples hasMore ↔
      ∀ tuple ∈ tuples, ∀ v ∈ tuple, language.Keeps v := by
  have hkeeps : (∀ tuple ∈ tuples, ∀ v ∈ tuple, language.Keeps v) ↔
      (∀ tuple ∈ tuples, ∀ v ∈ tuple, language.Writes v) ∧
        ((tuples.map (·.map Language.item)).map fun tuple => tuple.map language.read) =
          tuples.map fun tuple => tuple.map fun v => language.value (Language.item v) := by
    rw [List.map_map, List.map_inj_left]
    simp only [Function.comp_apply, List.map_map, List.map_inj_left, keeps_iff]
    exact ⟨fun h => ⟨fun tuple htuple v hv => (h tuple htuple v hv).1,
      fun tuple htuple v hv => (h tuple htuple v hv).2⟩,
      fun h tuple htuple v hv => ⟨h.1 tuple htuple v hv, h.2 tuple htuple v hv⟩⟩
  rw [hkeeps, Language.Survive]
  rcases mapM_encodeTupleFields_cases tuples with ⟨hwrites, hmap⟩ | ⟨hwrites, message, hmap⟩
  · have hresponse : language.response requestId tuples hasMore =
        .ok (readResponse requestId
          ((tuples.map (·.map Language.item)).map language.fields) hasMore) := by
      rw [Language.response, hmap]
      rfl
    have hdecode := @decode_readResponse language requestId
      (tuples.map (·.map Language.item)) hasMore (hsize _ hresponse)
    rw [hresponse, and_iff_right hwrites]
    constructor
    · rintro ⟨message, hmessage, h⟩
      cases hmessage
      exact Except.ok.inj ((hdecode (Nat.lt_succ_self _)).symm.trans (h _ (Nat.lt_succ_self _)))
    · intro h
      exact ⟨_, rfl, fun fuel hfuel => (hdecode hfuel).trans (congrArg Except.ok h)⟩
  · refine iff_of_false ?_ fun h => hwrites h.1
    rintro ⟨sent, hsent, -⟩
    rw [Language.response, hmap] at hsent
    cases hsent

end Survive

/-- Tuples that are given in TypeScript and in Go. -/
theorem tuples_survive_iff_job :
    Language.typeScript.Survive [1, 2] [[.integer ⟨7, by decide⟩, .text "job"], [.null]] true ∧
      Language.go.Survive [] [[.float64 ⟨-7, by decide⟩, .string "job"]] false := by
  constructor
  · refine (@tuples_survive_iff .typeScript _ _ _ ?_).mpr ?_
    · intro message hmessage
      obtain rfl := Except.ok.inj hmessage
      decide +kernel
    · simp [Language.Keeps, Item.Plain, Marked]
  · refine (@tuples_survive_iff .go _ _ _ ?_).mpr ?_
    · intro message hmessage
      obtain rfl := Except.ok.inj hmessage
      decide +kernel
    · simp [Language.Keeps, Go.Any.Encodable]

/-- The TypeScript decoder reads `-1` as a positive number. -/
theorem not_tuples_survive : ¬∀ (language : Language) (requestId : Bytes)
    (tuples : List (List language.Element)) (hasMore : Bool),
    (∀ message, language.response requestId tuples hasMore = .ok message →
      message.length < 2 ^ 63) →
    language.Survive requestId tuples hasMore := by
  intro h
  have hsize : ∀ message, Language.typeScript.response [] [[Item.integer ⟨-1, by decide⟩]] false =
      .ok message → message.length < 2 ^ 63 := by
    intro message hmessage
    obtain rfl := Except.ok.inj hmessage
    decide +kernel
  obtain ⟨message, hmessage, hdecode⟩ := h _ _ _ _ hsize
  obtain rfl := Except.ok.inj hmessage
  have hminus := hdecode _ (Nat.lt_succ_self _)
  exact absurd hminus (by decide +kernel)

end PlexSpaces.Sdk
