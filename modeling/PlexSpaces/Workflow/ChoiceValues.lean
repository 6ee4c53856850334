import PlexSpaces.Workflow.Struct
/-!
# Values in Choice conditions

The value of a choice is read from the configuration of the step, which is kept as a protobuf
struct: its numbers are floats there.  The input of an execution is a struct only once it was
stored.  Equality is that of the structure, and an integer is no float.  So a choice with the
operator `equals` sees what its author wrote for an input from the caller and for the stored one
exactly when the values, where they agree, are written with floats and without an object that looks
like a wrapped value (`equals_byValue_iff`).
-/

namespace PlexSpaces.Workflow

open PlexSpaces.Lib

def stepConfigValue (config : Option ProstStruct) : Json JsonNumber :=
  (config.map structToValue).getD (.object [])

/-- A Choice step as `make_step` makes it from a configuration. -/
def makeChoiceStep (id : String) (config : Json JsonNumber) : Step JsonNumber :=
  { id, type := 5, config := stepConfigValue (valueToOptStruct config) }

section Rules

variable {N : Type}

def choicesOf (config : Json N) : List (Json N) :=
  ((config.get "choices").bind Json.asArray).getD []

/-- A rule that compares a field of the input with a value. -/
structure IsEquals (choice : Json N) (variableName : String) (e : Json N) : Prop where
  variableName : choice.get "variable" = some (.string variableName)
  operator : choice.get "operator" = some (.string "equals")
  value : choice.get "value" = some e

def choiceMatches [BEq N] [LT N] [DecidableLT N] (input choice : Json N) :
    Except WorkflowError Bool := do
  let some variableName := (choice.get "variable").bind Json.asStr
    | throw (.invalidDefinition "Choice must have 'variable' field")
  let some operator := (choice.get "operator").bind Json.asStr
    | throw (.invalidDefinition "Choice must have 'operator' field")
  let some expectedValue := choice.get "value"
    | throw (.invalidDefinition "Choice must have 'value' field")
  evaluateCondition (extractVariable input variableName) operator expectedValue

end Rules

/-- What an execution begins with: the input of the caller, or what is stored of it. -/
inductive BeginsWith (input : Json JsonNumber) : Json JsonNumber → Prop where
  | fromCaller : BeginsWith input input
  | fromStorage : BeginsWith input (executionInput JsonNumber.toDouble input)

def storedChoices (config : Json JsonNumber) : List (Json JsonNumber) :=
  choicesOf (stepConfigValue (valueToOptStruct config))

/-- Each rule with `equals` matches when the field that it names (null where there is none) has its
value, the first rule that matches decides, and rules with `equals` alone decide the same for the
input of the caller and the stored one. -/
structure ByValue (config input : Json JsonNumber) : Prop where
  matchesByValue : ∀ {given}, BeginsWith input given →
    ∀ {i : Nat} {choice variableName e}, (choicesOf config)[i]? = some choice →
      IsEquals choice variableName e →
        ∃ stored, (storedChoices config)[i]? = some stored ∧
          (choiceMatches given stored = .ok true ↔
            SameValue (extractVariable input variableName) e)
  firstDecides : ∀ {given}, BeginsWith input given →
    ∀ {i : Nat} {stored nextStep id}, (storedChoices config)[i]? = some stored →
      choiceMatches given stored = .ok true →
      (stored.get "next").bind Json.asStr = some nextStep →
      (∀ earlier ∈ (storedChoices config).take i, choiceMatches given earlier = .ok false) →
        (decideChoice (makeChoiceStep id config) given).map Prod.fst = .ok (some nextStep)
  sameOutcome : ∀ {choices}, config.get "choices" = some (.array choices) →
    (∀ choice ∈ choices, ∃ variableName e, IsEquals choice variableName e) → ∀ id,
    decideChoice (makeChoiceStep id config) (executionInput JsonNumber.toDouble input) =
      decideChoice (makeChoiceStep id config) input

/-- The input as it is stored, with its numbers: an object has the value of any other input. -/
def wrapped {N : Type} : Json N → Json N
  | .null => .object []
  | .object fields => .object fields
  | v => .object [("__value__", v)]

/-- Every object that looks like a wrapped value is replaced by that value. -/
def unwrapAll {N : Type} (v : Json N) : Json N := throughStruct id v

/-- When the field that a rule names is the rule's value, wrapped or not, in the input or in what is
stored of it, then it is the same field, all its numbers are floats, and nothing in either value
looks wrapped. -/
def Fits (input : Json JsonNumber) (variableName : String) (e : Json JsonNumber) : Prop :=
  SameValue (unwrapAll (extractVariable input variableName)) (unwrapAll e) ∨
      SameValue (unwrapAll (extractVariable (wrapped input) variableName)) (unwrapAll e) →
    extractVariable (wrapped input) variableName = extractVariable input variableName ∧
      (∀ n ∈ (extractVariable input variableName).numbers, n.isFloat = true) ∧
      sentinels (extractVariable input variableName) = 0 ∧ sentinels e = 0

/-! ## Values without wrappers -/

section Unwrapping

variable {N M : Type} {v : Json N}

theorem mapNumbers_unwrapped (f : N → M) (fields : List (String × Json N)) :
    (unwrapped fields).mapNumbers f = unwrapped (Json.mapFields f fields) := by
  have hkeys : isSentinel (Json.mapFields f fields) = isSentinel fields := by
    refine isSentinel_congr ?_
    rw [Json.mapFields_eq_map, List.map_map]
    rfl
  obtain ⟨inner, rfl, -, -⟩ | ⟨hsentinel, hplain⟩ := unwrapped_cases fields
  · rfl
  · rw [hplain, Json.mapNumbers, unwrapped_plain (hkeys.trans hsentinel)]

theorem mapNumbers_unwrapAll (f : N → M) (v : Json N) :
    (unwrapAll v).mapNumbers f = unwrapAll (v.mapNumbers f) := by
  unfold unwrapAll
  induction v using Json.induction with
  | null | bool | number | string => rfl
  | array items ih =>
      rw [throughStruct, Json.mapNumbers, Json.mapNumbers, throughStruct, throughStructs_eq,
        throughStructs_eq, Json.mapItems_eq_map, Json.mapItems_eq_map, List.map_map, List.map_map]
      exact congrArg Json.array (List.map_congr_left ih)
  | object fields ih =>
      rw [throughStruct_object, mapNumbers_unwrapped, Json.mapNumbers, throughStruct_object,
        throughFields_eq, throughFields_eq, Json.mapFields_eq_map, Json.mapFields_eq_map,
        List.map_map, List.map_map]
      exact congrArg unwrapped (List.map_congr_left fun field hfield =>
        congrArg (Prod.mk field.1) (ih field hfield))

theorem throughStruct_eq_unwrapAll (double : N → N) (v : Json N) :
    throughStruct double v = (unwrapAll v).mapNumbers double := by
  rw [mapNumbers_unwrapAll, unwrapAll]
  induction v using Json.induction with
  | null | bool | number | string => rfl
  | array items ih =>
      rw [throughStruct, Json.mapNumbers, throughStruct, throughStructs_eq, throughStructs_eq,
        Json.mapItems_eq_map, List.map_map]
      exact congrArg Json.array (List.map_congr_left ih)
  | object fields ih =>
      rw [throughStruct_object, Json.mapNumbers, throughStruct_object, throughFields_eq,
        throughFields_eq, Json.mapFields_eq_map, List.map_map]
      exact congrArg unwrapped (List.map_congr_left fun field hfield =>
        congrArg (Prod.mk field.1) (ih field hfield))

theorem unwrapAll_eq_self (hsentinels : sentinels v = 0) : unwrapAll v = v :=
  (throughStruct_eq_mapNumbers id hsentinels).trans (Json.mapNumbers_id v)

theorem size_unwrapAll (v : Json N) : (unwrapAll v).size + sentinels v = v.size :=
  size_throughStruct id v

theorem sentinels_mapNumbers (f : N → M) (v : Json N) :
    sentinels (v.mapNumbers f) = sentinels v := by
  have hmapped := size_unwrapAll (v.mapNumbers f)
  have hsize := size_unwrapAll v
  rw [← mapNumbers_unwrapAll, Json.size_mapNumbers, Json.size_mapNumbers] at hmapped
  omega

theorem sentinels_unwrapAll (v : Json N) : sentinels (unwrapAll v) = 0 := by
  unfold unwrapAll
  induction v using Json.induction with
  | null | bool | number | string => rfl
  | array items ih =>
      rw [throughStruct, sentinels, throughStructs_eq, sentinelsOfItems_eq,
        List.sum_eq_zero_iff_forall_eq_nat, List.map_map]
      exact List.forall_mem_map.mpr ih
  | object fields ih =>
      have hfields : ∀ field ∈ throughFields id fields, sentinels field.2 = 0 := by
        rw [throughFields_eq]
        exact List.forall_mem_map.mpr ih
      rw [throughStruct_object]
      obtain ⟨inner, hinner, -, hunwrapped⟩ | ⟨hsentinel, hplain⟩ :=
        unwrapped_cases (throughFields id fields)
      · rw [hunwrapped]
        exact hfields ("__value__", inner) (hinner ▸ List.mem_cons_self)
      · rw [hplain, sentinels, hsentinel, if_neg Bool.false_ne_true, Nat.zero_add,
          sentinelsOfFields_eq, List.sum_eq_zero_iff_forall_eq_nat]
        exact List.forall_mem_map.mpr hfields

theorem numbers_unwrapAll_subset (v : Json N) : (unwrapAll v).numbers ⊆ v.numbers := by
  unfold unwrapAll
  induction v using Json.induction with
  | null | bool | number | string => exact List.Subset.refl _
  | array items ih =>
      rw [throughStruct, Json.numbers, Json.numbers, throughStructs_eq, Json.numbersOfItems_eq,
        Json.numbersOfItems_eq, List.flatMap_map]
      intro n hn
      obtain ⟨w, hw, hn⟩ := List.mem_flatMap.mp hn
      exact List.mem_flatMap.mpr ⟨w, hw, ih w hw hn⟩
  | object fields ih =>
      have hfields : ∀ field ∈ throughFields id fields, ∀ n ∈ field.2.numbers,
          n ∈ fields.flatMap fun field => field.2.numbers := by
        rw [throughFields_eq]
        refine List.forall_mem_map.mpr fun field hfield n hn => ?_
        exact List.mem_flatMap.mpr ⟨field, hfield, ih field hfield hn⟩
      rw [throughStruct_object, Json.numbers, Json.numbersOfFields_eq]
      obtain ⟨inner, hinner, -, hunwrapped⟩ | ⟨-, hplain⟩ :=
        unwrapped_cases (throughFields id fields)
      · rw [hunwrapped]
        exact hfields ("__value__", inner) (hinner ▸ List.mem_cons_self)
      · rw [hplain, Json.numbers, Json.numbersOfFields_eq]
        intro n hn
        obtain ⟨field, hfield, hn⟩ := List.mem_flatMap.mp hn
        exact hfields field hfield n hn

end Unwrapping

/-! ## Equality by value and by structure -/

section Equality

variable {v w x e : Json JsonNumber}

theorem SameValue.symm (h : SameValue v w) : SameValue w v := Eq.symm h

theorem SameValue.trans {u : Json JsonNumber} (h : SameValue u v) (h' : SameValue v w) :
    SameValue u w := Eq.trans h h'

theorem SameValue.sentinels_eq (h : SameValue v w) : sentinels v = sentinels w := by
  rw [← sentinels_mapNumbers JsonNumber.value v, h, sentinels_mapNumbers]

theorem SameValue.unwrapAll (h : SameValue v w) : SameValue (unwrapAll v) (unwrapAll w) := by
  rw [SameValue, mapNumbers_unwrapAll, mapNumbers_unwrapAll, h]

theorem SameValue.small (h : SameValue v w) (hsmall : ∀ n ∈ w.numbers, n.Small) :
    ∀ n ∈ v.numbers, n.Small := by
  intro n hn
  have hmem : n.value ∈ (w.mapNumbers JsonNumber.value).numbers := by
    rw [← h, Json.numbers_mapNumbers]
    exact List.mem_map_of_mem hn
  rw [Json.numbers_mapNumbers] at hmem
  obtain ⟨m, hm, hvalue⟩ := List.mem_map.mp hmem
  obtain ⟨k, hlt, hk⟩ := hsmall m hm
  exact ⟨k, hlt, hvalue ▸ hk⟩

theorem sameValue_toDouble (hsmall : ∀ n ∈ v.numbers, n.Small) :
    SameValue (v.mapNumbers JsonNumber.toDouble) v := by
  rw [SameValue, Json.mapNumbers_mapNumbers]
  exact Json.mapNumbers_congr fun n hn => JsonNumber.value_toDouble (hsmall n hn)

theorem small_of_toDouble (hsmall : ∀ n ∈ (v.mapNumbers JsonNumber.toDouble).numbers, n.Small) :
    ∀ n ∈ v.numbers, n.Small := by
  rw [Json.numbers_mapNumbers] at hsmall
  exact fun n hn => JsonNumber.small_of_toDouble (hsmall _ (List.mem_map_of_mem hn))

theorem small_unwrapAll (hsmall : ∀ n ∈ v.numbers, n.Small) :
    ∀ n ∈ (unwrapAll v).numbers, n.Small :=
  fun n hn => hsmall n (numbers_unwrapAll_subset v hn)

theorem isFloat_throughStruct (v : Json JsonNumber) :
    ∀ n ∈ (throughStruct JsonNumber.toDouble v).numbers, n.isFloat = true := by
  rw [throughStruct_eq_unwrapAll, Json.numbers_mapNumbers]
  exact List.forall_mem_map.mpr fun n _ => rfl

theorem beq_iff_of_floats (hfloats : ∀ n ∈ w.numbers, n.isFloat = true) :
    (v == w) = true ↔ SameValue v w ∧ ∀ n ∈ v.numbers, n.isFloat = true := by
  have hpair : ∀ {u : Json JsonNumber}, (∀ n ∈ u.numbers, n.isFloat = true) →
      u.mapNumbers (fun n => (n.isFloat, n.value)) =
        (u.mapNumbers JsonNumber.value).mapNumbers (Prod.mk true) := by
    intro u hu
    rw [Json.mapNumbers_mapNumbers]
    exact Json.mapNumbers_congr fun n hn => congrArg (Prod.mk · n.value) (hu n hn)
  rw [Json.beq_iff_mapNumbers_eq _ JsonNumber.beq_iff]
  constructor
  · intro h
    have hvalue := congrArg (Json.mapNumbers Prod.snd) h
    have hkinds := congrArg (List.map Prod.fst ∘ Json.numbers) h
    rw [Json.mapNumbers_mapNumbers, Json.mapNumbers_mapNumbers] at hvalue
    simp only [Function.comp_apply, Json.numbers_mapNumbers, List.map_map] at hkinds
    refine ⟨hvalue, fun n hn => ?_⟩
    have hmem : n.isFloat ∈ w.numbers.map (Prod.fst ∘ fun n => (n.isFloat, n.value)) :=
      hkinds ▸ List.mem_map_of_mem hn
    obtain ⟨m, hm, heq⟩ := List.mem_map.mp hmem
    exact heq ▸ hfloats m hm
  · rintro ⟨hvalue, hv⟩
    rw [hpair hv, hpair hfloats, hvalue]

/-- The value of a rule against a value of the caller. -/
theorem beq_throughStruct_iff (hsmall : ∀ n ∈ e.numbers, n.Small) :
    (x == throughStruct JsonNumber.toDouble e) = true ↔
      SameValue x (unwrapAll e) ∧ ∀ n ∈ x.numbers, n.isFloat = true := by
  have hsame := sameValue_toDouble (small_unwrapAll hsmall)
  rw [beq_iff_of_floats (isFloat_throughStruct e), throughStruct_eq_unwrapAll]
  exact and_congr_left fun _ => ⟨fun h => h.trans hsame, fun h => h.trans hsame.symm⟩

/-- The value of a rule against a value that was stored. -/
theorem throughStruct_beq_iff (hsmall : ∀ n ∈ e.numbers, n.Small) :
    (throughStruct JsonNumber.toDouble x == throughStruct JsonNumber.toDouble e) = true ↔
      SameValue (unwrapAll x) (unwrapAll e) := by
  rw [beq_throughStruct_iff hsmall, and_iff_left (isFloat_throughStruct x),
    throughStruct_eq_unwrapAll]
  constructor
  · intro h
    have hx := small_of_toDouble (h.small (small_unwrapAll hsmall))
    exact (sameValue_toDouble hx).symm.trans h
  · intro h
    exact (sameValue_toDouble (h.small (small_unwrapAll hsmall))).trans h

end Equality

/-! ## The rules of the configuration -/

section Configuration

variable {N : Type} {v w e : Json N} {key variableName : String}

theorem lookup_throughFields (double : N → N) (fields : List (String × Json N)) (key : String) :
    (throughFields double fields).lookup key =
      (fields.lookup key).map (throughStruct double) := by
  induction fields with
  | nil => rfl
  | cons field fields ih =>
      obtain ⟨key', v⟩ := field
      rw [throughFields, Json.lookup_cons, Json.lookup_cons, ih]
      split <;> rfl

theorem get_object (fields : List (String × Json N)) (key : String) :
    (Json.object fields).get key = fields.lookup key := rfl

theorem get_throughStruct (double : N → N) (h : v.get key = some w) (hkey : key ≠ "__value__")
    (key' : String) :
    (throughStruct double v).get key' = (v.get key').map (throughStruct double) := by
  cases v with
  | object fields =>
      have hsentinel : isSentinel fields = false := by
        obtain ⟨inner, rfl, -, -⟩ | ⟨hsentinel, -⟩ := unwrapped_cases fields
        · rw [get_object, Json.lookup_cons, if_neg hkey] at h
          cases h
        · exact hsentinel
      rw [throughStruct_plain double hsentinel, get_object, get_object, lookup_throughFields]
  | null | bool | number | string | array => cases h

theorem IsEquals.throughStruct {choice : Json N} (double : N → N)
    (h : IsEquals choice variableName e) :
    IsEquals (throughStruct double choice) variableName (throughStruct double e) := by
  have hget := get_throughStruct double h.variableName (by decide)
  refine ⟨?_, ?_, ?_⟩
  · rw [hget, h.variableName]
    rfl
  · rw [hget, h.operator]
    rfl
  · rw [hget, h.value]
    rfl

theorem IsEquals.matches_eq [BEq N] [LT N] [DecidableLT N] {choice : Json N}
    (h : IsEquals choice variableName e) (given : Json N) :
    choiceMatches given choice = .ok (extractVariable given variableName == e) := by
  rw [choiceMatches, h.variableName, h.operator, h.value]
  rfl

theorem choicesOf_of_get {choices : List (Json N)} (h : v.get "choices" = some (.array choices)) :
    choicesOf v = choices := by
  rw [choicesOf, h]
  rfl

theorem get_choices_of_mem {choice : Json N} (h : choice ∈ choicesOf v) :
    v.get "choices" = some (.array (choicesOf v)) := by
  unfold choicesOf at h ⊢
  cases hget : v.get "choices" with
  | none =>
      rw [hget] at h
      cases h
  | some w =>
      rw [hget] at h
      cases w with
      | array items => rfl
      | null | bool | number | string | object => cases h

end Configuration

theorem storedChoices_eq {config : Json JsonNumber} {choices : List (Json JsonNumber)}
    (h : config.get "choices" = some (.array choices)) :
    storedChoices config = choices.map (throughStruct JsonNumber.toDouble) := by
  have hnull : config ≠ .null := by
    rintro rfl
    cases h
  obtain ⟨s, hs, hback⟩ := structToValue_valueToStruct hnull
  have hopt : valueToOptStruct config = some s := by
    cases config with
    | null => exact absurd rfl hnull
    | bool | number | string | array | object => exact hs
  rw [storedChoices, stepConfigValue, hopt, Option.map_some, Option.getD_some, hback, choicesOf,
    get_throughStruct _ h (by decide), h, ← throughStructs_eq]
  rfl

/-! ## The field of the input -/

section Field

variable {N : Type}

def fieldName (variableName : String) : String :=
  match variableName.toList with
  | '$' :: '.' :: name => String.ofList name
  | _ => variableName

theorem extractVariable_eq (input : Json N) (variableName : String) :
    extractVariable input variableName = (input.get (fieldName variableName)).getD .null := rfl

theorem extractVariable_executionInput (double : N → N) (input : Json N) (variableName : String) :
    extractVariable (executionInput double input) variableName =
      throughStruct double (extractVariable (wrapped input) variableName) := by
  have hfields : ∀ fields : List (String × Json N),
      extractVariable (.object (throughFields double fields)) variableName =
        throughStruct double (extractVariable (.object fields) variableName) := by
    intro fields
    rw [extractVariable_eq, extractVariable_eq, get_object, get_object, lookup_throughFields]
    cases fields.lookup (fieldName variableName) <;> rfl
  cases input with
  | null => exact hfields []
  | object fields => exact hfields fields
  | bool | number | string | array => exact hfields [("__value__", _)]

/-- Storing makes another field only of an input that is no object, and that field is not null. -/
theorem extractVariable_wrapped (input : Json N) (variableName : String) :
    extractVariable (wrapped input) variableName = extractVariable input variableName ∨
      extractVariable input variableName = .null ∧
        unwrapAll (extractVariable (wrapped input) variableName) ≠ .null := by
  have hother : ∀ v : Json N, unwrapAll v ≠ .null →
      extractVariable (.object [("__value__", v)]) variableName = .null ∨
        .null = (.null : Json N) ∧
          unwrapAll (extractVariable (.object [("__value__", v)]) variableName) ≠ .null := by
    intro v hv
    rw [extractVariable_eq, get_object, Json.lookup_cons]
    split
    · exact .inr ⟨rfl, hv⟩
    · exact .inl rfl
  cases input with
  | null | object => exact .inl rfl
  | bool | number | string | array => exact hother _ (by intro h; cases h)

end Field

section Fitting

variable {x x' e : Json JsonNumber}

theorem SameValue.eq_null {v : Json JsonNumber} (h : SameValue v .null) : v = .null := by
  cases v with
  | null => rfl
  | bool | number | string | array | object => cases h

/-- `x` is the field in the input of the caller, `x'` the one that is stored. -/
theorem fits_of_sees (hcases : x' = x ∨ x = .null ∧ unwrapAll x' ≠ .null)
    (hcaller : SameValue x (unwrapAll e) ∧ (∀ n ∈ x.numbers, n.isFloat = true) ↔ SameValue x e)
    (hstorage : SameValue (unwrapAll x') (unwrapAll e) ↔ SameValue x e)
    (heither : SameValue (unwrapAll x) (unwrapAll e) ∨
      SameValue (unwrapAll x') (unwrapAll e)) :
    x' = x ∧ (∀ n ∈ x.numbers, n.isFloat = true) ∧ sentinels x = 0 ∧ sentinels e = 0 := by
  have hsame : SameValue x e := by
    rcases heither with hx | hx'
    · rcases hcases with rfl | ⟨rfl, -⟩
      · exact hstorage.mp hx
      · exact hcaller.mp ⟨hx, fun n hn => by cases hn⟩
    · exact hstorage.mp hx'
  obtain ⟨hplain, hfloats⟩ := hcaller.mpr hsame
  have hx : sentinels x = 0 := hplain.sentinels_eq.trans (sentinels_unwrapAll e)
  refine ⟨hcases.resolve_right ?_, hfloats, hx, hsame.sentinels_eq ▸ hx⟩
  rintro ⟨rfl, hne⟩
  exact hne ((hstorage.mpr hsame).trans hsame.unwrapAll.symm).eq_null

theorem sees_of_fits
    (hfits : SameValue (unwrapAll x) (unwrapAll e) ∨ SameValue (unwrapAll x') (unwrapAll e) →
      x' = x ∧ (∀ n ∈ x.numbers, n.isFloat = true) ∧ sentinels x = 0 ∧ sentinels e = 0) :
    (SameValue x (unwrapAll e) ∧ (∀ n ∈ x.numbers, n.isFloat = true) ↔ SameValue x e) ∧
      (SameValue (unwrapAll x') (unwrapAll e) ↔ SameValue x e) := by
  by_cases heither : SameValue (unwrapAll x) (unwrapAll e) ∨
    SameValue (unwrapAll x') (unwrapAll e)
  · obtain ⟨rfl, hfloats, hx, he⟩ := hfits heither
    rw [unwrapAll_eq_self hx, unwrapAll_eq_self he]
    exact ⟨and_iff_left hfloats, Iff.rfl⟩
  · obtain ⟨hx, hx'⟩ := not_or.mp heither
    have hne : ¬ SameValue x e := fun h => hx h.unwrapAll
    refine ⟨iff_of_false (fun h => ?_) hne, iff_of_false hx' hne⟩
    have hsame := h.1.unwrapAll
    rw [unwrapAll_eq_self (sentinels_unwrapAll e)] at hsame
    exact hx hsame

end Fitting

/-- A rule sees what its author wrote in an input from the caller and in a stored one. -/
theorem fits_iff {input e : Json JsonNumber} {variableName : String}
    (hsmall : ∀ n ∈ e.numbers, n.Small) :
    Fits input variableName e ↔ ∀ given, BeginsWith input given →
      ((extractVariable given variableName == throughStruct JsonNumber.toDouble e) = true ↔
        SameValue (extractVariable input variableName) e) := by
  have hboth : (∀ given, BeginsWith input given →
      ((extractVariable given variableName == throughStruct JsonNumber.toDouble e) = true ↔
        SameValue (extractVariable input variableName) e)) ↔
      (SameValue (extractVariable input variableName) (unwrapAll e) ∧
          (∀ n ∈ (extractVariable input variableName).numbers, n.isFloat = true) ↔
        SameValue (extractVariable input variableName) e) ∧
      (SameValue (unwrapAll (extractVariable (wrapped input) variableName)) (unwrapAll e) ↔
        SameValue (extractVariable input variableName) e) := by
    rw [← beq_throughStruct_iff hsmall, ← throughStruct_beq_iff hsmall,
      ← extractVariable_executionInput]
    constructor
    · exact fun h => ⟨h _ .fromCaller, h _ .fromStorage⟩
    · rintro ⟨hcaller, hstorage⟩ given (_ | _)
      · exact hcaller
      · exact hstorage
  rw [hboth]
  constructor
  · exact sees_of_fits
  · rintro ⟨hcaller, hstorage⟩
    exact fits_of_sees (extractVariable_wrapped input variableName) hcaller hstorage

/-! ## The step -/

section Deciding

variable {N : Type} [BEq N] [LT N] [DecidableLT N] {given choice : Json N} {choices : List (Json N)}

/-- What the record of a step says of the rule that was taken. -/
def choiceCondition (choice : Json N) : Json N :=
  .object [("operator", (choice.get "operator").getD .null),
    ("value", (choice.get "value").getD .null), ("variable", (choice.get "variable").getD .null)]

omit [BEq N] [LT N] [DecidableLT N] in
theorem bind_asStr_eq_some {key s : String} (h : (choice.get key).bind Json.asStr = some s) :
    choice.get key = some (.string s) := by
  obtain ⟨v, hv, hs⟩ := Option.bind_eq_some_iff.mp h
  cases v with
  | string t =>
      cases hs
      exact hv
  | null | bool | number | array | object => cases hs

theorem takeChoice_cons (given choice : Json N) (choices : List (Json N)) :
    takeChoice given (choice :: choices) =
      match choiceMatches given choice with
      | .error e => .error e
      | .ok false => takeChoice given choices
      | .ok true =>
          match (choice.get "next").bind Json.asStr with
          | some nextStep => .ok (some (nextStep, choiceCondition choice))
          | none => takeChoice given choices := by
  rw [takeChoice, choiceMatches, choiceCondition]
  cases hvariable : (choice.get "variable").bind Json.asStr with
  | none => rfl
  | some variableName =>
  cases hoperator : (choice.get "operator").bind Json.asStr with
  | none => rfl
  | some operator =>
  cases hvalue : choice.get "value" with
  | none => rfl
  | some expectedValue =>
  rw [bind_asStr_eq_some hvariable, bind_asStr_eq_some hoperator]
  cases hcondition : evaluateCondition (extractVariable given variableName) operator
    expectedValue with
  | error e =>
      simp only [hcondition]
      rfl
  | ok matched =>
      simp only [hcondition]
      cases matched with
      | false => rfl
      | true => cases (choice.get "next").bind Json.asStr <;> rfl

theorem takeChoice_first {i : Nat} {nextStep : String} (hat : choices[i]? = some choice)
    (hmatches : choiceMatches given choice = .ok true)
    (hnext : (choice.get "next").bind Json.asStr = some nextStep)
    (hearlier : ∀ earlier ∈ choices.take i, choiceMatches given earlier = .ok false) :
    takeChoice given choices = .ok (some (nextStep, choiceCondition choice)) := by
  induction choices generalizing i with
  | nil => cases hat
  | cons first choices ih =>
      rw [takeChoice_cons]
      cases i with
      | zero =>
          cases hat
          rw [hmatches, hnext]
      | succ i =>
          rw [hearlier first List.mem_cons_self]
          exact ih hat fun earlier h => hearlier earlier (List.mem_cons_of_mem first h)

/-- Inputs on which the rules match alike lead to the same decision. -/
theorem takeChoice_congr {given' : Json N}
    (h : ∀ choice ∈ choices, choiceMatches given choice = choiceMatches given' choice) :
    takeChoice given choices = takeChoice given' choices := by
  induction choices with
  | nil => rfl
  | cons first choices ih =>
      rw [takeChoice_cons, takeChoice_cons, h first List.mem_cons_self,
        ih fun choice hchoice => h choice (List.mem_cons_of_mem first hchoice)]

end Deciding

section Step

variable {config input given : Json JsonNumber}

/-- The decision of the step goes through the rules that the executor reads. -/
theorem decideChoice_eq (id : String) (config given : Json JsonNumber) :
    decideChoice (makeChoiceStep id config) given =
      (takeChoice given (storedChoices config)).bind fun taken =>
        match taken with
        | some (nextStep, condition) => .ok (some nextStep, condition)
        | none =>
            match ((stepConfigValue (valueToOptStruct config)).get "default").bind Json.asStr with
            | some defaultNext => .ok (some defaultNext, .string "default")
            | none => .ok (none, .string "no_match_no_default") := by
  unfold decideChoice makeChoiceStep
  change (takeChoice given (storedChoices config)).bind _ = _
  cases takeChoice given (storedChoices config) with
  | error e => rfl
  | ok taken =>
      cases taken with
      | none =>
          simp only [Except.bind]
          cases ((stepConfigValue (valueToOptStruct config)).get "default").bind Json.asStr <;> rfl
      | some taken => rfl

theorem getElem?_storedChoices {i : Nat} {choice : Json JsonNumber}
    (hat : (choicesOf config)[i]? = some choice) :
    (storedChoices config)[i]? = some (throughStruct JsonNumber.toDouble choice) := by
  rw [storedChoices_eq (get_choices_of_mem (List.mem_of_getElem? hat)), List.getElem?_map, hat]
  rfl

/-- With rules that fit the input, the step sees the values that its author wrote, and only then. -/
theorem equals_byValue_iff (config input : Json JsonNumber)
    (hsmall : ∀ choice ∈ choicesOf config, ∀ variableName e, IsEquals choice variableName e →
      ∀ n ∈ e.numbers, n.Small) :
    ByValue config input ↔ ∀ choice ∈ choicesOf config, ∀ variableName e,
      IsEquals choice variableName e → Fits input variableName e := by
  constructor
  · intro hbyValue choice hchoice variableName e hequals
    obtain ⟨i, hat⟩ := List.getElem?_of_mem hchoice
    refine (fits_iff (hsmall choice hchoice variableName e hequals)).mpr fun given hgiven => ?_
    obtain ⟨stored, hstored, hmatches⟩ := hbyValue.matchesByValue hgiven hat hequals
    cases (getElem?_storedChoices hat).symm.trans hstored
    rw [(hequals.throughStruct _).matches_eq, Except.ok.injEq] at hmatches
    exact hmatches
  · intro hfits
    have hsees : ∀ {choice}, choice ∈ choicesOf config → ∀ {variableName e},
        IsEquals choice variableName e → ∀ {given}, BeginsWith input given →
          (choiceMatches given (throughStruct JsonNumber.toDouble choice) = .ok true ↔
            SameValue (extractVariable input variableName) e) := by
      intro choice hchoice variableName e hequals given hgiven
      rw [(hequals.throughStruct _).matches_eq, Except.ok.injEq]
      exact (fits_iff (hsmall choice hchoice _ _ hequals)).mp (hfits choice hchoice _ _ hequals)
        given hgiven
    refine ⟨?_, ?_, ?_⟩
    · intro given hgiven i choice variableName e hat hequals
      exact ⟨_, getElem?_storedChoices hat,
        hsees (List.mem_of_getElem? hat) hequals hgiven⟩
    · intro given hgiven i stored nextStep id hat hmatches hnext hearlier
      rw [decideChoice_eq, takeChoice_first hat hmatches hnext hearlier]
      rfl
    · intro choices hchoices hall id
      rw [decideChoice_eq, decideChoice_eq, storedChoices_eq hchoices]
      refine congrArg (Except.bind · _) (takeChoice_congr (List.forall_mem_map.mpr ?_))
      intro choice hchoice
      obtain ⟨variableName, e, hequals⟩ := hall choice hchoice
      have hmem : choice ∈ choicesOf config := choicesOf_of_get hchoices ▸ hchoice
      have hstored := hsees hmem hequals .fromStorage
      have hcaller := hsees hmem hequals .fromCaller
      rw [(hequals.throughStruct _).matches_eq, Except.ok.injEq] at hstored hcaller
      rw [(hequals.throughStruct _).matches_eq, (hequals.throughStruct _).matches_eq]
      exact congrArg Except.ok (Bool.eq_iff_iff.mpr (hstored.trans hcaller.symm))

end Step

section Example

def fiveNumber : JsonNumber := .posInt 5

theorem fiveNumber_small : fiveNumber.Small := ⟨5, by decide, rfl⟩

def fiveRule : Json JsonNumber :=
  .object [("next", .string "a"), ("operator", .string "equals"), ("value", .number fiveNumber),
    ("variable", .string "$.n")]

theorem fiveRule_isEquals : IsEquals fiveRule "$.n" (.number fiveNumber) := ⟨rfl, rfl, rfl⟩

/-- Go to step `a` when `n` is 5, otherwise to step `b`. -/
def fiveConfig : Json JsonNumber :=
  .object [("choices", .array [fiveRule]), ("default", .string "b")]

theorem fiveConfig_rules {choice e : Json JsonNumber} {variableName : String}
    (hchoice : choice ∈ choicesOf fiveConfig) (h : IsEquals choice variableName e) :
    variableName = "$.n" ∧ e = .number fiveNumber := by
  cases List.mem_singleton.mp hchoice
  have hname := h.variableName.symm.trans fiveRule_isEquals.variableName
  have hvalue := h.value.symm.trans fiveRule_isEquals.value
  cases hname
  cases hvalue
  exact ⟨rfl, rfl⟩

theorem fiveConfig_small : ∀ choice ∈ choicesOf fiveConfig, ∀ variableName e,
    IsEquals choice variableName e → ∀ n ∈ e.numbers, n.Small := by
  intro choice hchoice variableName e hequals n hn
  obtain ⟨-, rfl⟩ := fiveConfig_rules hchoice hequals
  exact List.mem_singleton.mp hn ▸ fiveNumber_small

/-- The input `{"n": 5.0}`. -/
def floatInput : Json JsonNumber := .object [("n", .number fiveNumber.toDouble)]

theorem equals_byValue_iff_float : (∀ choice ∈ choicesOf fiveConfig, ∀ variableName e,
      IsEquals choice variableName e → ∀ n ∈ e.numbers, n.Small) ∧
    ByValue fiveConfig floatInput := by
  refine ⟨fiveConfig_small, (equals_byValue_iff _ _ fiveConfig_small).mpr ?_⟩
  intro choice hchoice variableName e hequals
  obtain ⟨rfl, rfl⟩ := fiveConfig_rules hchoice hequals
  exact fun _ => ⟨rfl, fun n hn => List.mem_singleton.mp hn ▸ rfl, rfl, rfl⟩

/-- The input `{"n": 5}` does not match the value 5 when it comes from the caller. -/
theorem not_equals_byValue : ¬ ∀ config input : Json JsonNumber,
    (∀ choice ∈ choicesOf config, ∀ variableName e, IsEquals choice variableName e →
      ∀ n ∈ e.numbers, n.Small) → ByValue config input := by
  intro hall
  have hbyValue := hall fiveConfig (.object [("n", .number fiveNumber)]) fiveConfig_small
  have hat : (choicesOf fiveConfig)[0]? = some fiveRule := rfl
  obtain ⟨stored, hstored, hmatches⟩ := hbyValue.matchesByValue .fromCaller hat fiveRule_isEquals
  cases (getElem?_storedChoices hat).symm.trans hstored
  rw [(fiveRule_isEquals.throughStruct _).matches_eq, Except.ok.injEq] at hmatches
  have hequal := hmatches.mpr rfl
  cases hequal

end Example

end PlexSpaces.Workflow
