import Mathlib.Algebra.GroupWithZero.Nat
/-!
# JSON values

Values over an arbitrary type of numbers.  An object lists its fields in key
order, as a sorted map does, so equal objects are equal lists.  Recursive
functions go through values, lists of values and lists of fields;
`Json.induction` is the induction over values.
-/

namespace PlexSpaces.Lib

/-- A JSON value with numbers in `N`. -/
inductive Json (N : Type) where
  | null
  | bool (b : Bool)
  | number (n : N)
  | string (s : String)
  | array (items : List (Json N))
  | object (fields : List (String × Json N))
deriving Repr

namespace Json

variable {N : Type}

section Equality

variable [BEq N]

mutual

/-- Equality of the structure, with the numbers compared as `N` compares them. -/
def beq : Json N → Json N → Bool
  | null, null => true
  | bool b, bool b' => b == b'
  | number n, number n' => n == n'
  | string s, string s' => s == s'
  | array items, array items' => beqItems items items'
  | object fields, object fields' => beqFields fields fields'
  | _, _ => false

def beqItems : List (Json N) → List (Json N) → Bool
  | [], [] => true
  | v :: items, v' :: items' => beq v v' && beqItems items items'
  | _, _ => false

def beqFields : List (String × Json N) → List (String × Json N) → Bool
  | [], [] => true
  | (key, v) :: fields, (key', v') :: fields' =>
      key == key' && beq v v' && beqFields fields fields'
  | _, _ => false

end

instance : BEq (Json N) := ⟨beq⟩

end Equality

/-- The value under a key; only an object has any. -/
def get (v : Json N) (key : String) : Option (Json N) :=
  match v with
  | object fields => fields.lookup key
  | _ => none

def asStr : Json N → Option String
  | string s => some s
  | _ => none

def asArray : Json N → Option (List (Json N))
  | array items => some items
  | _ => none

def asNumber : Json N → Option N
  | number n => some n
  | _ => none

def insertField (key : String) (v : Json N) : List (String × Json N) → List (String × Json N)
  | [] => [(key, v)]
  | field :: rest =>
      if key = field.1 then (key, v) :: rest
      else if key < field.1 then (key, v) :: field :: rest
      else field :: insertField key v rest

theorem lookup_cons (key key' : String) (v : Json N) (fields : List (String × Json N)) :
    ((key, v) :: fields).lookup key' = if key' = key then some v else fields.lookup key' := by
  rw [List.lookup_cons]
  by_cases hkey : key' = key
  · rw [beq_iff_eq.mpr hkey, if_pos hkey]
  · rw [beq_eq_false_iff_ne.mpr hkey, if_neg hkey]

/-! ## Recursion -/

@[elab_as_elim]
theorem induction {motive : Json N → Prop} (null : motive null) (bool : ∀ b, motive (bool b))
    (number : ∀ n, motive (number n)) (string : ∀ s, motive (string s))
    (array : ∀ items, (∀ v ∈ items, motive v) → motive (array items))
    (object : ∀ fields, (∀ field ∈ fields, motive field.2) → motive (object fields))
    (v : Json N) : motive v := by
  refine @Json.rec N motive (fun items => ∀ v ∈ items, motive v)
    (fun fields => ∀ field ∈ fields, motive field.2) (fun field => motive field.2)
    null bool number string array object ?_ ?_ ?_ ?_ ?_ v
  · intro v hv
    cases hv
  · intro v items hv hitems w hw
    rcases List.mem_cons.mp hw with rfl | hw
    · exact hv
    · exact hitems w hw
  · intro field hfield
    cases hfield
  · intro field fields hv hfields other hother
    rcases List.mem_cons.mp hother with rfl | hother
    · exact hv
    · exact hfields other hother
  · exact fun key v hv => hv

/-- A function on lists that goes through the elements is a map. -/
theorem eq_map {α β : Type} {f : α → β} {g : List α → List β} (hnil : g [] = [])
    (hcons : ∀ a as, g (a :: as) = f a :: g as) (as : List α) : g as = as.map f := by
  induction as with
  | nil => exact hnil
  | cons a as ih => rw [hcons, ih, List.map_cons]

section Numbers

variable {M : Type} (f : N → M)

mutual

def mapNumbers : Json N → Json M
  | null => null
  | bool b => bool b
  | number n => number (f n)
  | string s => string s
  | array items => array (mapItems items)
  | object fields => object (mapFields fields)

def mapItems : List (Json N) → List (Json M)
  | [] => []
  | v :: items => mapNumbers v :: mapItems items

def mapFields : List (String × Json N) → List (String × Json M)
  | [] => []
  | (key, v) :: fields => (key, mapNumbers v) :: mapFields fields

end

mutual

def numbers : Json N → List N
  | number n => [n]
  | array items => numbersOfItems items
  | object fields => numbersOfFields fields
  | null | bool _ | string _ => []

def numbersOfItems : List (Json N) → List N
  | [] => []
  | v :: items => numbers v ++ numbersOfItems items

def numbersOfFields : List (String × Json N) → List N
  | [] => []
  | (_, v) :: fields => numbers v ++ numbersOfFields fields

end

mutual

def size : Json N → Nat
  | array items => 1 + sizeOfItems items
  | object fields => 1 + sizeOfFields fields
  | null | bool _ | number _ | string _ => 1

def sizeOfItems : List (Json N) → Nat
  | [] => 0
  | v :: items => size v + sizeOfItems items

def sizeOfFields : List (String × Json N) → Nat
  | [] => 0
  | (_, v) :: fields => size v + sizeOfFields fields

end

theorem mapItems_eq_map (items : List (Json N)) :
    mapItems f items = items.map (mapNumbers f) :=
  eq_map rfl (fun _ _ => rfl) items

theorem mapFields_eq_map (fields : List (String × Json N)) :
    mapFields f fields = fields.map fun field => (field.1, mapNumbers f field.2) :=
  eq_map rfl (fun _ _ => rfl) fields

section Equality

variable [BEq N]

theorem beqItems_iff {items : List (Json N)}
    (h : ∀ v ∈ items, ∀ w, beq v w = true ↔ v.mapNumbers f = w.mapNumbers f)
    (items' : List (Json N)) :
    beqItems items items' = true ↔ mapItems f items = mapItems f items' := by
  induction items generalizing items' with
  | nil => cases items' <;> simp [beqItems, mapItems]
  | cons v items ih =>
      cases items' with
      | nil => simp [beqItems, mapItems]
      | cons w items' =>
          rw [beqItems, mapItems, mapItems, Bool.and_eq_true, List.cons.injEq,
            h v List.mem_cons_self w, ih fun u hu => h u (List.mem_cons_of_mem v hu)]

theorem beqFields_iff {fields : List (String × Json N)}
    (h : ∀ field ∈ fields, ∀ w, beq field.2 w = true ↔ field.2.mapNumbers f = w.mapNumbers f)
    (fields' : List (String × Json N)) :
    beqFields fields fields' = true ↔ mapFields f fields = mapFields f fields' := by
  induction fields generalizing fields' with
  | nil => cases fields' <;> simp [beqFields, mapFields]
  | cons field fields ih =>
      obtain ⟨key, v⟩ := field
      cases fields' with
      | nil => simp [beqFields, mapFields]
      | cons field' fields' =>
          obtain ⟨key', w⟩ := field'
          rw [beqFields, mapFields, mapFields, Bool.and_eq_true, Bool.and_eq_true, beq_iff_eq,
            List.cons.injEq, Prod.mk.injEq, h (key, v) List.mem_cons_self w,
            ih fun u hu => h u (List.mem_cons_of_mem _ hu)]

theorem beq_iff_mapNumbers_eq (hbeq : ∀ m n : N, (m == n) = true ↔ f m = f n) (v w : Json N) :
    (v == w) = true ↔ v.mapNumbers f = w.mapNumbers f := by
  change beq v w = true ↔ _
  induction v using induction generalizing w with
  | null | bool | string => cases w <;> simp [beq, mapNumbers]
  | number n => cases w <;> simp [beq, mapNumbers, hbeq]
  | array items ih =>
      cases w with
      | array items' => rw [beq, mapNumbers, mapNumbers, array.injEq, beqItems_iff f ih]
      | null | bool | number | string | object => simp [beq, mapNumbers]
  | object fields ih =>
      cases w with
      | object fields' => rw [beq, mapNumbers, mapNumbers, object.injEq, beqFields_iff f ih]
      | null | bool | number | string | array => simp [beq, mapNumbers]

end Equality

theorem numbersOfItems_eq (items : List (Json N)) :
    numbersOfItems items = items.flatMap numbers := by
  induction items with
  | nil => rfl
  | cons v items ih => rw [numbersOfItems, ih, List.flatMap_cons]

theorem numbersOfFields_eq (fields : List (String × Json N)) :
    numbersOfFields fields = fields.flatMap fun field => numbers field.2 := by
  induction fields with
  | nil => rfl
  | cons field fields ih => rw [numbersOfFields, ih, List.flatMap_cons]

theorem sizeOfItems_eq (items : List (Json N)) : sizeOfItems items = (items.map size).sum := by
  induction items with
  | nil => rfl
  | cons v items ih => rw [sizeOfItems, ih, List.map_cons, List.sum_cons]

theorem sizeOfFields_eq (fields : List (String × Json N)) :
    sizeOfFields fields = (fields.map fun field => size field.2).sum := by
  induction fields with
  | nil => rfl
  | cons field fields ih => rw [sizeOfFields, ih, List.map_cons, List.sum_cons]

theorem numbers_mapNumbers (v : Json N) : (v.mapNumbers f).numbers = v.numbers.map f := by
  induction v using induction with
  | null | bool | number | string => rfl
  | array items ih =>
      rw [mapNumbers, numbers, numbers, mapItems_eq_map, numbersOfItems_eq, numbersOfItems_eq,
        List.flatMap_map, List.map_flatMap]
      rw [List.flatMap_def, List.flatMap_def, List.map_congr_left ih]
  | object fields ih =>
      rw [mapNumbers, numbers, numbers, mapFields_eq_map, numbersOfFields_eq, numbersOfFields_eq,
        List.flatMap_map, List.map_flatMap]
      rw [List.flatMap_def, List.flatMap_def, List.map_congr_left ih]

theorem mapNumbers_mapNumbers {L : Type} (g : M → L) (v : Json N) :
    (v.mapNumbers f).mapNumbers g = v.mapNumbers (g ∘ f) := by
  induction v using induction with
  | null | bool | number | string => rfl
  | array items ih =>
      rw [mapNumbers, mapNumbers, mapNumbers, mapItems_eq_map, mapItems_eq_map, mapItems_eq_map,
        List.map_map]
      exact congrArg array (List.map_congr_left ih)
  | object fields ih =>
      rw [mapNumbers, mapNumbers, mapNumbers, mapFields_eq_map, mapFields_eq_map,
        mapFields_eq_map, List.map_map]
      exact congrArg object (List.map_congr_left fun field hfield =>
        congrArg (Prod.mk field.1) (ih field hfield))

theorem mapNumbers_id (v : Json N) : v.mapNumbers id = v := by
  induction v using induction with
  | null | bool | number | string => rfl
  | array items ih =>
      rw [mapNumbers, mapItems_eq_map, List.map_congr_left ih, List.map_id']
  | object fields ih =>
      have hfields : fields.map (fun field => (field.1, field.2.mapNumbers id)) =
          fields.map fun field => field :=
        List.map_congr_left fun field hfield => congrArg (Prod.mk field.1) (ih field hfield)
      rw [mapNumbers, mapFields_eq_map, hfields, List.map_id']

theorem mapNumbers_congr {f g : N → M} {v : Json N} (h : ∀ n ∈ v.numbers, f n = g n) :
    v.mapNumbers f = v.mapNumbers g := by
  induction v using induction with
  | null | bool | string => rfl
  | number n => exact congrArg number (h n List.mem_cons_self)
  | array items ih =>
      rw [numbers, numbersOfItems_eq] at h
      rw [mapNumbers, mapNumbers, mapItems_eq_map, mapItems_eq_map]
      exact congrArg array (List.map_congr_left fun w hw =>
        ih w hw fun n hn => h n (List.mem_flatMap.mpr ⟨w, hw, hn⟩))
  | object fields ih =>
      rw [numbers, numbersOfFields_eq] at h
      rw [mapNumbers, mapNumbers, mapFields_eq_map, mapFields_eq_map]
      exact congrArg object (List.map_congr_left fun field hfield =>
        congrArg (Prod.mk field.1)
          (ih field hfield fun n hn => h n (List.mem_flatMap.mpr ⟨field, hfield, hn⟩)))

theorem size_mapNumbers (v : Json N) : (v.mapNumbers f).size = v.size := by
  induction v using induction with
  | null | bool | number | string => rfl
  | array items ih =>
      rw [mapNumbers, size, size, mapItems_eq_map, sizeOfItems_eq, sizeOfItems_eq, List.map_map]
      exact congrArg (1 + ·) (congrArg List.sum (List.map_congr_left ih))
  | object fields ih =>
      rw [mapNumbers, size, size, mapFields_eq_map, sizeOfFields_eq, sizeOfFields_eq,
        List.map_map]
      exact congrArg (1 + ·) (congrArg List.sum (List.map_congr_left ih))

end Numbers

end Json

end PlexSpaces.Lib
