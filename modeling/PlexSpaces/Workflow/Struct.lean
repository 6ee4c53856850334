import PlexSpaces.Lib.JsonNumber
import PlexSpaces.Workflow.Resume
/-!
# JSON values as protobuf structs

Values are kept as protobuf structs, which are objects with floats for numbers.  Another value is
wrapped into an object with one field, and an object with that one field is unwrapped when it is
read, wherever it stands; the input of an execution is read without unwrapping.  So what is read
back is what was stored, by value, exactly for the objects in which no object looks like a wrapped
value (`values_survive_iff`).
-/

namespace PlexSpaces.Workflow

open PlexSpaces.Lib

/-- `prost_types::Value`; `unset` is a value without a kind. -/
inductive ProstValue where
  | unset
  | nullValue (n : Int32)
  | boolValue (b : Bool)
  | numberValue (bits : UInt64)
  | stringValue (s : String)
  | listValue (values : List ProstValue)
  | structValue (fields : List (String × ProstValue))

/-- `prost_types::Struct`. -/
abbrev ProstStruct := List (String × ProstValue)

/-- An object with the mark of a wrapped value as its only key stands for what is in it. -/
def unwrapped {N : Type} : List (String × Json N) → Json N
  | [("__value__", inner)] => inner
  | fields => .object fields

/-! ## The conversions of the storage -/

mutual

def valueToProstValue : Json JsonNumber → ProstValue
  | .null => .nullValue 0
  | .bool b => .boolValue b
  | .number n => .numberValue n.asF64
  | .string s => .stringValue s
  | .array items => .listValue (valuesToProstValues items)
  | .object fields => .structValue (fieldsToProstFields fields)

def valuesToProstValues : List (Json JsonNumber) → List ProstValue
  | [] => []
  | v :: items => valueToProstValue v :: valuesToProstValues items

def fieldsToProstFields : List (String × Json JsonNumber) → ProstStruct
  | [] => []
  | (key, v) :: fields => (key, valueToProstValue v) :: fieldsToProstFields fields

end

def valueToStruct : Json JsonNumber → Option ProstStruct
  | .object fields => some (fieldsToProstFields fields)
  | .null => none
  | v => some [("__value__", valueToProstValue v)]

mutual

def prostValueToValue : ProstValue → Json JsonNumber
  | .unset | .nullValue _ => .null
  | .boolValue b => .bool b
  | .numberValue bits => ((JsonNumber.ofF64 bits).map .number).getD .null
  | .stringValue s => .string s
  | .listValue values => .array (prostValuesToValues values)
  | .structValue fields => unwrapped (prostFieldsToFields fields)

def prostValuesToValues : List ProstValue → List (Json JsonNumber)
  | [] => []
  | v :: values => prostValueToValue v :: prostValuesToValues values

def prostFieldsToFields : ProstStruct → List (String × Json JsonNumber)
  | [] => []
  | (key, v) :: fields => (key, prostValueToValue v) :: prostFieldsToFields fields

end

def structToValue (s : ProstStruct) : Json JsonNumber := unwrapped (prostFieldsToFields s)

def valueToOptStruct : Json JsonNumber → Option ProstStruct
  | .null => none
  | v => valueToStruct v

def storedInput (input : Json JsonNumber) : Option ProstStruct := valueToOptStruct input

def executionInputToValue (input : Option ProstStruct) : Option (Json JsonNumber) :=
  input.map fun s => .object (prostFieldsToFields s)

/-! ## The conversions of the types -/

mutual

def jsonValueToProstValue : Json JsonNumber → ProstValue
  | .null => .nullValue 0
  | .bool b => .boolValue b
  | .number n => .numberValue n.asF64
  | .string s => .stringValue s
  | .array items => .listValue (jsonValuesToProstValues items)
  | .object fields => .structValue (jsonFieldsToProstFields fields)

def jsonValuesToProstValues : List (Json JsonNumber) → List ProstValue
  | [] => []
  | v :: items => jsonValueToProstValue v :: jsonValuesToProstValues items

def jsonFieldsToProstFields : List (String × Json JsonNumber) → ProstStruct
  | [] => []
  | (key, v) :: fields => (key, jsonValueToProstValue v) :: jsonFieldsToProstFields fields

end

def jsonValueToProstStruct : Json JsonNumber → Option ProstStruct
  | .object fields => some (jsonFieldsToProstFields fields)
  | v => some [("__value__", jsonValueToProstValue v)]

mutual

def prostValueToJson : ProstValue → Json JsonNumber
  | .unset | .nullValue _ => .null
  | .boolValue b => .bool b
  | .numberValue bits => ((JsonNumber.ofF64 bits).map .number).getD .null
  | .stringValue s => .string s
  | .listValue values => .array (prostValuesToJsons values)
  | .structValue fields => unwrapped (prostFieldsToJsons fields)

def prostValuesToJsons : List ProstValue → List (Json JsonNumber)
  | [] => []
  | v :: values => prostValueToJson v :: prostValuesToJsons values

def prostFieldsToJsons : ProstStruct → List (String × Json JsonNumber)
  | [] => []
  | (key, v) :: fields => (key, prostValueToJson v) :: prostFieldsToJsons fields

end

def prostStructToValue (s : ProstStruct) : Json JsonNumber := unwrapped (prostFieldsToJsons s)

/-! ## What survives -/

/-- Equality of values with the numbers compared by value. -/
def SameValue (v w : Json JsonNumber) : Prop :=
  v.mapNumbers JsonNumber.value = w.mapNumbers JsonNumber.value

def isObject {N : Type} : Json N → Bool
  | .object _ => true
  | _ => false

def isSentinel {N : Type} : List (String × Json N) → Bool
  | [("__value__", _)] => true
  | _ => false

section Sentinels

variable {N : Type}

mutual

/-- How many of the objects in a value look like a wrapped value. -/
def sentinels : Json N → Nat
  | .array items => sentinelsOfItems items
  | .object fields => (if isSentinel fields then 1 else 0) + sentinelsOfFields fields
  | .null | .bool _ | .number _ | .string _ => 0

def sentinelsOfItems : List (Json N) → Nat
  | [] => 0
  | v :: items => sentinels v + sentinelsOfItems items

def sentinelsOfFields : List (String × Json N) → Nat
  | [] => 0
  | (_, v) :: fields => sentinels v + sentinelsOfFields fields

end

end Sentinels

/-- The value survives either way of storing it, both ways are the same, and an execution that was
created with it reads it as its input. -/
structure Survives (v : Json JsonNumber) : Prop where
  stored : v ≠ .null → ∃ s, valueToStruct v = some s ∧ SameValue (structToValue s) v
  converted : ∃ s, jsonValueToProstStruct v = some s ∧ SameValue (prostStructToValue s) v
  agree : v ≠ .null → valueToStruct v = jsonValueToProstStruct v
  agreeBack : ∀ s, structToValue s = prostStructToValue s
  resumed : ∃ w, executionInputToValue (storedInput v) = some w ∧ SameValue w v

/-! ## The two conversions -/

section Agreement

@[elab_as_elim]
theorem ProstValue.induction {motive : ProstValue → Prop} (unset : motive .unset)
    (nullValue : ∀ n, motive (.nullValue n)) (boolValue : ∀ b, motive (.boolValue b))
    (numberValue : ∀ bits, motive (.numberValue bits)) (stringValue : ∀ s, motive (.stringValue s))
    (listValue : ∀ values, (∀ v ∈ values, motive v) → motive (.listValue values))
    (structValue : ∀ fields, (∀ field ∈ fields, motive field.2) → motive (.structValue fields))
    (v : ProstValue) : motive v := by
  refine @ProstValue.rec motive (fun values => ∀ v ∈ values, motive v)
    (fun fields => ∀ field ∈ fields, motive field.2) (fun field => motive field.2)
    unset nullValue boolValue numberValue stringValue listValue structValue ?_ ?_ ?_ ?_ ?_ v
  · intro v hv
    cases hv
  · intro v values hv hvalues w hw
    rcases List.mem_cons.mp hw with rfl | hw
    · exact hv
    · exact hvalues w hw
  · intro field hfield
    cases hfield
  · intro field fields hv hfields other hother
    rcases List.mem_cons.mp hother with rfl | hother
    · exact hv
    · exact hfields other hother
  · exact fun key v hv => hv

theorem valuesToProstValues_eq (items : List (Json JsonNumber)) :
    valuesToProstValues items = items.map valueToProstValue :=
  Json.eq_map rfl (fun _ _ => rfl) items

theorem fieldsToProstFields_eq (fields : List (String × Json JsonNumber)) :
    fieldsToProstFields fields = fields.map fun field => (field.1, valueToProstValue field.2) :=
  Json.eq_map rfl (fun _ _ => rfl) fields

theorem jsonValuesToProstValues_eq (items : List (Json JsonNumber)) :
    jsonValuesToProstValues items = items.map jsonValueToProstValue :=
  Json.eq_map rfl (fun _ _ => rfl) items

theorem jsonFieldsToProstFields_eq (fields : List (String × Json JsonNumber)) :
    jsonFieldsToProstFields fields =
      fields.map fun field => (field.1, jsonValueToProstValue field.2) :=
  Json.eq_map rfl (fun _ _ => rfl) fields

theorem prostValuesToValues_eq (values : List ProstValue) :
    prostValuesToValues values = values.map prostValueToValue :=
  Json.eq_map rfl (fun _ _ => rfl) values

theorem prostFieldsToFields_eq (fields : ProstStruct) :
    prostFieldsToFields fields = fields.map fun field => (field.1, prostValueToValue field.2) :=
  Json.eq_map rfl (fun _ _ => rfl) fields

theorem prostValuesToJsons_eq (values : List ProstValue) :
    prostValuesToJsons values = values.map prostValueToJson :=
  Json.eq_map rfl (fun _ _ => rfl) values

theorem prostFieldsToJsons_eq (fields : ProstStruct) :
    prostFieldsToJsons fields = fields.map fun field => (field.1, prostValueToJson field.2) :=
  Json.eq_map rfl (fun _ _ => rfl) fields

theorem valueToProstValue_eq_json (v : Json JsonNumber) :
    valueToProstValue v = jsonValueToProstValue v := by
  induction v using Json.induction with
  | null | bool | number | string => rfl
  | array items ih =>
      rw [valueToProstValue, jsonValueToProstValue, valuesToProstValues_eq,
        jsonValuesToProstValues_eq, List.map_congr_left ih]
  | object fields ih =>
      rw [valueToProstValue, jsonValueToProstValue, fieldsToProstFields_eq,
        jsonFieldsToProstFields_eq]
      exact congrArg _ (List.map_congr_left fun field hfield => congrArg _ (ih field hfield))

theorem prostValueToValue_eq_json (v : ProstValue) : prostValueToValue v = prostValueToJson v := by
  induction v using ProstValue.induction with
  | unset | nullValue | boolValue | numberValue | stringValue => rfl
  | listValue values ih =>
      rw [prostValueToValue, prostValueToJson, prostValuesToValues_eq, prostValuesToJsons_eq,
        List.map_congr_left ih]
  | structValue fields ih =>
      rw [prostValueToValue, prostValueToJson, prostFieldsToFields_eq, prostFieldsToJsons_eq]
      exact congrArg _ (List.map_congr_left fun field hfield => congrArg _ (ih field hfield))

theorem fieldsToProstFields_eq_json (fields : List (String × Json JsonNumber)) :
    fieldsToProstFields fields = jsonFieldsToProstFields fields := by
  rw [fieldsToProstFields_eq, jsonFieldsToProstFields_eq]
  exact List.map_congr_left fun field _ => congrArg _ (valueToProstValue_eq_json field.2)

theorem structToValue_eq_json (s : ProstStruct) : structToValue s = prostStructToValue s := by
  rw [structToValue, prostStructToValue, prostFieldsToFields_eq, prostFieldsToJsons_eq]
  exact congrArg _ (List.map_congr_left fun field _ =>
    congrArg _ (prostValueToValue_eq_json field.2))

theorem valueToStruct_eq_json {v : Json JsonNumber} (hv : v ≠ .null) :
    valueToStruct v = jsonValueToProstStruct v := by
  cases v with
  | null => exact absurd rfl hv
  | object fields => exact congrArg some (fieldsToProstFields_eq_json fields)
  | bool | number | string | array =>
      exact congrArg (fun w => some [("__value__", w)]) (valueToProstValue_eq_json _)

end Agreement

/-! ## There and back -/

section RoundTrip

variable {v : Json JsonNumber}

theorem throughStructs_eq {N : Type} (double : N → N) (items : List (Json N)) :
    throughStructs double items = items.map (throughStruct double) :=
  Json.eq_map rfl (fun _ _ => rfl) items

theorem throughFields_eq {N : Type} (double : N → N) (fields : List (String × Json N)) :
    throughFields double fields =
      fields.map fun field => (field.1, throughStruct double field.2) :=
  Json.eq_map rfl (fun _ _ => rfl) fields

theorem throughStruct_object {N : Type} (double : N → N) (fields : List (String × Json N)) :
    throughStruct double (.object fields) = unwrapped (throughFields double fields) := rfl

theorem prostValueToValue_valueToProstValue (v : Json JsonNumber) :
    prostValueToValue (valueToProstValue v) = throughStruct JsonNumber.toDouble v := by
  induction v using Json.induction with
  | null | bool | string => rfl
  | number n =>
      rw [valueToProstValue, prostValueToValue, JsonNumber.ofF64_asF64]
      rfl
  | array items ih =>
      rw [valueToProstValue, prostValueToValue, throughStruct, prostValuesToValues_eq,
        valuesToProstValues_eq, throughStructs_eq, List.map_map]
      exact congrArg _ (List.map_congr_left ih)
  | object fields ih =>
      rw [valueToProstValue, prostValueToValue, throughStruct_object, prostFieldsToFields_eq,
        fieldsToProstFields_eq, throughFields_eq, List.map_map]
      exact congrArg _ (List.map_congr_left fun field hfield => congrArg _ (ih field hfield))

theorem prostFields_fieldsToProst (fields : List (String × Json JsonNumber)) :
    prostFieldsToFields (fieldsToProstFields fields) =
      throughFields JsonNumber.toDouble fields := by
  rw [prostFieldsToFields_eq, fieldsToProstFields_eq, throughFields_eq, List.map_map]
  exact List.map_congr_left fun field _ =>
    congrArg _ (prostValueToValue_valueToProstValue field.2)

theorem structToValue_valueToStruct (hv : v ≠ .null) :
    ∃ s, valueToStruct v = some s ∧ structToValue s = throughStruct JsonNumber.toDouble v := by
  cases v with
  | null => exact absurd rfl hv
  | object fields =>
      refine ⟨_, rfl, ?_⟩
      rw [structToValue, prostFields_fieldsToProst, throughStruct_object]
  | bool | number | string | array =>
      exact ⟨_, rfl, prostValueToValue_valueToProstValue _⟩

/-- The input that `execute_from_state` begins with. -/
theorem executionInput_eq (v : Json JsonNumber) :
    executionInput JsonNumber.toDouble v =
      (executionInputToValue (storedInput v)).getD (.object []) := by
  cases v with
  | null => rfl
  | object fields =>
      change Json.object _ = Json.object (prostFieldsToFields (fieldsToProstFields fields))
      rw [prostFields_fieldsToProst]
  | bool | number | string | array =>
      change Json.object _ = Json.object [("__value__", prostValueToValue _)]
      rw [prostValueToValue_valueToProstValue]

end RoundTrip

/-! ## What is lost -/

section Lost

variable {N : Type} {v : Json N} {fields : List (String × Json N)}

theorem sentinelsOfItems_eq (items : List (Json N)) :
    sentinelsOfItems items = (items.map sentinels).sum := by
  induction items with
  | nil => rfl
  | cons v items ih => rw [sentinelsOfItems, ih, List.map_cons, List.sum_cons]

theorem sentinelsOfFields_eq (fields : List (String × Json N)) :
    sentinelsOfFields fields = (fields.map fun field => sentinels field.2).sum := by
  induction fields with
  | nil => rfl
  | cons field fields ih => rw [sentinelsOfFields, ih, List.map_cons, List.sum_cons]

theorem unwrapped_cases (fields : List (String × Json N)) :
    (∃ inner, fields = [("__value__", inner)] ∧ isSentinel fields = true ∧
      unwrapped fields = inner) ∨
    (isSentinel fields = false ∧ unwrapped fields = .object fields) := by
  unfold unwrapped isSentinel
  split
  · next inner => exact .inl ⟨inner, rfl, rfl, rfl⟩
  · exact .inr ⟨rfl, rfl⟩

theorem isSentinel_iff {fields : List (String × Json N)} :
    isSentinel fields = true ↔ fields.map Prod.fst = ["__value__"] := by
  obtain ⟨inner, rfl, hsentinel, -⟩ | ⟨hsentinel, -⟩ := unwrapped_cases fields
  · exact iff_of_true hsentinel rfl
  · rw [hsentinel]
    refine iff_of_false Bool.false_ne_true fun hkeys => ?_
    obtain ⟨⟨key, v⟩, rfl, hkey⟩ := List.map_eq_singleton_iff.mp hkeys
    cases hkey
    cases hsentinel

theorem isSentinel_congr {M : Type} {fields : List (String × Json N)}
    {fields' : List (String × Json M)} (hkeys : fields.map Prod.fst = fields'.map Prod.fst) :
    isSentinel fields = isSentinel fields' := by
  rw [Bool.eq_iff_iff, isSentinel_iff, isSentinel_iff, hkeys]

theorem isSentinel_throughFields (double : N → N) (fields : List (String × Json N)) :
    isSentinel (throughFields double fields) = isSentinel fields := by
  refine isSentinel_congr ?_
  rw [throughFields_eq, List.map_map]
  rfl

theorem sum_add_sum {α : Type} {f g h : α → Nat} {as : List α} (heq : ∀ a ∈ as, f a + g a = h a) :
    (as.map f).sum + (as.map g).sum = (as.map h).sum := by
  induction as with
  | nil => rfl
  | cons a as ih =>
      have hhead := heq a List.mem_cons_self
      have hrest := ih fun b hb => heq b (List.mem_cons_of_mem a hb)
      rw [List.map_cons, List.map_cons, List.map_cons, List.sum_cons, List.sum_cons, List.sum_cons]
      omega

/-- Each object that looks like a wrapped value loses one value. -/
theorem size_throughStruct (double : N → N) (v : Json N) :
    (throughStruct double v).size + sentinels v = v.size := by
  induction v using Json.induction with
  | null | bool | number | string => rfl
  | array items ih =>
      rw [throughStruct, Json.size, sentinels, Json.size, throughStructs_eq, Json.sizeOfItems_eq,
        sentinelsOfItems_eq, Json.sizeOfItems_eq, List.map_map, Nat.add_assoc]
      exact congrArg (1 + ·) (sum_add_sum ih)
  | object fields ih =>
      have hsum : Json.sizeOfFields (throughFields double fields) + sentinelsOfFields fields =
          Json.sizeOfFields fields := by
        rw [throughFields_eq, Json.sizeOfFields_eq, sentinelsOfFields_eq, Json.sizeOfFields_eq,
          List.map_map]
        exact sum_add_sum ih
      rw [throughStruct_object, sentinels, Json.size, ← isSentinel_throughFields double]
      obtain ⟨inner, hfields, hsentinel, hunwrapped⟩ | ⟨hsentinel, hunwrapped⟩ :=
        unwrapped_cases (throughFields double fields)
      · rw [hunwrapped, if_pos hsentinel, ← hsum, hfields, Json.sizeOfFields, Json.sizeOfFields]
        omega
      · rw [hunwrapped, Json.size, if_neg (by rw [hsentinel]; decide), ← hsum]
        omega

theorem unwrapped_plain (hsentinel : isSentinel fields = false) :
    unwrapped fields = .object fields := by
  refine ((unwrapped_cases _).resolve_left ?_).2
  rintro ⟨inner, -, htrue, -⟩
  rw [hsentinel] at htrue
  cases htrue

theorem throughStruct_plain (double : N → N) (hsentinel : isSentinel fields = false) :
    throughStruct double (.object fields) = .object (throughFields double fields) :=
  unwrapped_plain ((isSentinel_throughFields double fields).trans hsentinel)

theorem isSentinel_of_sentinels_eq_zero (hsentinels : sentinels (.object fields) = 0) :
    isSentinel fields = false := by
  rw [sentinels] at hsentinels
  cases hsentinel : isSentinel fields with
  | true => rw [if_pos hsentinel] at hsentinels; omega
  | false => rfl

theorem throughStruct_eq_mapNumbers (double : N → N) (hsentinels : sentinels v = 0) :
    throughStruct double v = v.mapNumbers double := by
  induction v using Json.induction with
  | null | bool | number | string => rfl
  | array items ih =>
      rw [sentinels, sentinelsOfItems_eq, List.sum_eq_zero_iff_forall_eq_nat] at hsentinels
      rw [throughStruct, Json.mapNumbers, throughStructs_eq, Json.mapItems_eq_map]
      exact congrArg Json.array (List.map_congr_left fun w hw =>
        ih w hw (hsentinels _ (List.mem_map_of_mem hw)))
  | object fields ih =>
      rw [throughStruct_plain double (isSentinel_of_sentinels_eq_zero hsentinels),
        Json.mapNumbers, throughFields_eq, Json.mapFields_eq_map]
      rw [sentinels, sentinelsOfFields_eq, Nat.add_eq_zero_iff,
        List.sum_eq_zero_iff_forall_eq_nat] at hsentinels
      exact congrArg Json.object (List.map_congr_left fun field hfield =>
        congrArg (Prod.mk field.1) (ih field hfield (hsentinels.2 _ (List.mem_map_of_mem hfield))))

end Lost

/-! ## Survival -/

section Survival

variable {v : Json JsonNumber}

theorem sameValue_throughStruct_iff (hnumbers : ∀ n ∈ v.numbers, n.Small) :
    SameValue (throughStruct JsonNumber.toDouble v) v ↔ sentinels v = 0 := by
  constructor
  · intro hsame
    have hsize := congrArg Json.size hsame
    rw [Json.size_mapNumbers, Json.size_mapNumbers] at hsize
    have hlost := size_throughStruct JsonNumber.toDouble v
    omega
  · intro hsentinels
    rw [SameValue, throughStruct_eq_mapNumbers _ hsentinels, Json.mapNumbers_mapNumbers]
    exact Json.mapNumbers_congr fun n hn => JsonNumber.value_toDouble (hnumbers n hn)

theorem SameValue.isObject_eq {w : Json JsonNumber} (hsame : SameValue w v) :
    isObject w = isObject v := by
  cases w <;> cases v <;> first | rfl | cases hsame

/-- Values whose numbers are small integers survive exactly when they are objects without an object
in them, or they themselves, that looks like a wrapped value. -/
theorem values_survive_iff (v : Json JsonNumber) (hnumbers : ∀ n ∈ v.numbers, n.Small) :
    Survives v ↔ isObject v = true ∧ sentinels v = 0 := by
  constructor
  · intro hsurvives
    obtain ⟨w, hw, hresumed⟩ := hsurvives.resumed
    have hobject : isObject v = true := by
      rw [← hresumed.isObject_eq]
      obtain ⟨s, -, rfl⟩ := Option.map_eq_some_iff.mp hw
      rfl
    have hnull : v ≠ .null := by
      rintro rfl
      cases hobject
    obtain ⟨s, hs, hsame⟩ := hsurvives.stored hnull
    obtain ⟨s', hs', hback⟩ := structToValue_valueToStruct hnull
    cases hs.symm.trans hs'
    rw [hback] at hsame
    exact ⟨hobject, (sameValue_throughStruct_iff hnumbers).mp hsame⟩
  · rintro ⟨hobject, hsentinels⟩
    have hnull : v ≠ .null := by
      rintro rfl
      cases hobject
    have hsame := (sameValue_throughStruct_iff hnumbers).mpr hsentinels
    obtain ⟨s, hs, hback⟩ := structToValue_valueToStruct hnull
    refine ⟨fun _ => ⟨s, hs, hback ▸ hsame⟩, ⟨s, ?_, ?_⟩, valueToStruct_eq_json,
      structToValue_eq_json, ?_⟩
    · rw [← valueToStruct_eq_json hnull, hs]
    · rw [← structToValue_eq_json, hback]
      exact hsame
    · cases v with
      | object fields =>
          refine ⟨.object (throughFields JsonNumber.toDouble fields), ?_, ?_⟩
          · exact congrArg (some ∘ Json.object) (prostFields_fieldsToProst fields)
          rw [← throughStruct_plain JsonNumber.toDouble
            (isSentinel_of_sentinels_eq_zero hsentinels)]
          exact hsame
      | null | bool | number | string | array => cases hobject

section Example

def oneNumber : JsonNumber := .posInt 1

theorem oneNumber_small : oneNumber.Small := ⟨1, by decide, rfl⟩

/-- `{"items": [1, {"__value__": 1, "a": null}]}`. -/
def twoKeysInput : Json JsonNumber :=
  .object [("items", .array [.number oneNumber,
    .object [("__value__", .number oneNumber), ("a", .null)]])]

theorem values_survive_iff_twoKeys :
    (∀ n ∈ twoKeysInput.numbers, n.Small) ∧ Survives twoKeysInput := by
  have hnumbers : ∀ n ∈ twoKeysInput.numbers, n.Small := by
    intro n hn
    have hone : n = oneNumber := by
      change n ∈ [oneNumber, oneNumber] at hn
      simpa only [List.mem_cons, List.not_mem_nil, or_false, or_self] using hn
    exact hone ▸ oneNumber_small
  exact ⟨hnumbers, (values_survive_iff _ hnumbers).mpr ⟨rfl, rfl⟩⟩

/-- The object `{"__value__": 1}` is read back as 1. -/
theorem not_values_survive :
    ¬ ∀ v : Json JsonNumber, (∀ n ∈ v.numbers, n.Small) → Survives v := by
  intro hall
  have hnumbers : ∀ n ∈ (Json.object [("__value__", .number oneNumber)]).numbers, n.Small := by
    intro n hn
    exact List.mem_singleton.mp hn ▸ oneNumber_small
  obtain ⟨s, hs, hsame⟩ := (hall _ hnumbers).stored (by intro h; cases h)
  cases hs
  cases hsame

end Example

end Survival

end PlexSpaces.Workflow
