import PlexSpaces.Lib.Binary64
import PlexSpaces.Tuples.Tuple
/-!
# The order of tuples

Equality of tuples is derived: it looks at the fields, the lease and the metadata, and at a
float by its bits.  The order is written by hand over the fields and the lease, compares the
values of floats and puts every NaN behind all numbers.  It is a total order up to what it
cannot see: the metadata, the sign of a zero and the bits of a NaN (`cmp_agrees_iff`).
-/

namespace PlexSpaces.Tuples

open PlexSpaces.Lib Std

namespace OrderedFloat

def isNan (x : OrderedFloat) : Bool := Binary64.isNan x.bits

def isZero (x : OrderedFloat) : Bool := Binary64.isZero x.bits

def cmp (x y : OrderedFloat) : Ordering :=
  match x.isNan, y.isNan with
  | true, true => .eq
  | true, false => .gt
  | false, true => .lt
  -- between numbers `partial_cmp` compares the values
  | false, false => compare (Binary64.value x.bits) (Binary64.value y.bits)

instance : Ord OrderedFloat := ⟨cmp⟩

end OrderedFloat

namespace TupleField

/-- The position of the variant; the derived order compares it first. -/
def index : TupleField → Nat
  | .integer _ => 0
  | .string _ => 1
  | .boolean _ => 2
  | .binary _ => 3
  | .float _ => 4
  | .null => 5

def cmp : TupleField → TupleField → Ordering
  | .integer x, .integer y => compare x y
  | .string x, .string y => compare x y
  | .boolean x, .boolean y => compare x y
  | .binary x, .binary y => compare x y
  | .float x, .float y => compare x y
  | .null, .null => .eq
  | x, y => compare x.index y.index

instance : Ord TupleField := ⟨cmp⟩

end TupleField

def Lease.cmp (l l' : Lease) : Ordering :=
  (compare l.expiresAt l'.expiresAt).then
    ((compare l.owner l'.owner).then (compare l.renewable l'.renewable))

instance : Ord Lease := ⟨Lease.cmp⟩

def Tuple.cmp (a b : Tuple) : Ordering :=
  (compare a.fields b.fields).then (compare a.lease b.lease)

/-! ## The orders of the parts -/

/-- Two floats that are equal or differ only in the sign of a zero or in the bits of a NaN. -/
def OrderedFloat.SameNumber (x y : OrderedFloat) : Prop :=
  x = y ∨ x.isNan = true ∧ y.isNan = true ∨ x.isZero = true ∧ y.isZero = true

instance (x y : OrderedFloat) : Decidable (x.SameNumber y) :=
  inferInstanceAs (Decidable (_ ∨ _ ∧ _ ∨ _ ∧ _))

namespace OrderedFloat

theorem cmp_eq (x y : OrderedFloat) :
    cmp x y = compareLex (compareOn isNan)
      (compareOn fun x => if x.isNan then 0 else Binary64.value x.bits) x y := by
  unfold cmp compareLex compareOn
  cases hx : x.isNan <;> cases hy : y.isNan <;> simp [hx, hy] <;> rfl

instance : TransOrd OrderedFloat where
  eq_swap {x y} := by
    change cmp x y = (cmp y x).swap
    rw [cmp_eq, cmp_eq]
    exact OrientedCmp.eq_swap
  isLE_trans {x y z} := by
    change (cmp x y).isLE → (cmp y z).isLE → (cmp x z).isLE
    rw [cmp_eq, cmp_eq, cmp_eq]
    exact TransCmp.isLE_trans

theorem isNan_eq_false_of_isZero {x : OrderedFloat} (h : x.isZero = true) : x.isNan = false := by
  obtain ⟨hexponent, -⟩ := Binary64.isZero_iff.mp h
  simp [isNan, Binary64.isNan, hexponent]

theorem compare_eq_iff {x y : OrderedFloat} : compare x y = .eq ↔ x.SameNumber y := by
  change cmp x y = .eq ↔ _
  unfold cmp SameNumber
  have hzero : x.isZero = true → x.isNan = false := isNan_eq_false_of_isZero
  have hzero' : y.isZero = true → y.isNan = false := isNan_eq_false_of_isZero
  cases hx : x.isNan <;> cases hy : y.isNan
  case true.true => simp
  case false.false =>
      rw [Std.compare_eq_iff_eq, Binary64.value_eq_iff]
      obtain ⟨bits⟩ := x
      obtain ⟨bits'⟩ := y
      simp [isZero]
  all_goals
    -- a NaN and a number differ, and a NaN is no zero
    refine iff_of_false (by simp) ?_
    rintro (rfl | h | h)
    · simp [hx] at hy
    · simp at h
    · simp [hzero h.1, hzero' h.2] at hx hy

end OrderedFloat

/-- Two fields that are equal or hold floats that stand for the same number. -/
inductive TupleField.SameNumber : TupleField → TupleField → Prop
  | refl (field : TupleField) : TupleField.SameNumber field field
  | float {x y : OrderedFloat} : x.SameNumber y → TupleField.SameNumber (.float x) (.float y)

namespace TupleField

def integer? : TupleField → Option Int64
  | .integer x => some x
  | _ => none

def string? : TupleField → Option String
  | .string x => some x
  | _ => none

def boolean? : TupleField → Option Bool
  | .boolean x => some x
  | _ => none

def binary? : TupleField → Option (List UInt8)
  | .binary x => some x
  | _ => none

def float? : TupleField → Option OrderedFloat
  | .float x => some x
  | _ => none

/-- The order as a chain of orders of which only the one of the common kind decides. -/
theorem cmp_eq (f g : TupleField) :
    cmp f g = compareLex (compareOn index) (compareLex (compareOn integer?)
      (compareLex (compareOn string?) (compareLex (compareOn boolean?)
        (compareLex (compareOn binary?) (compareOn float?))))) f g := by
  cases f with
  | integer x =>
      cases g with
      | integer y => exact (Ordering.then_eq).symm
      | _ => rfl
  | string x =>
      cases g with
      | string y => exact (Ordering.then_eq).symm
      | _ => rfl
  | boolean x =>
      cases g with
      | boolean y => exact (Ordering.then_eq).symm
      | _ => rfl
  | binary x =>
      cases g with
      | binary y => exact (Ordering.then_eq).symm
      | _ => rfl
  | float x => cases g <;> rfl
  | null => cases g <;> rfl

instance : TransOrd TupleField where
  eq_swap {f g} := by
    change cmp f g = (cmp g f).swap
    rw [cmp_eq, cmp_eq]
    exact OrientedCmp.eq_swap
  isLE_trans {f g h} := by
    change (cmp f g).isLE → (cmp g h).isLE → (cmp f h).isLE
    rw [cmp_eq, cmp_eq, cmp_eq]
    exact TransCmp.isLE_trans

theorem compare_eq_iff {f g : TupleField} : compare f g = .eq ↔ f.SameNumber g := by
  change cmp f g = .eq ↔ _
  constructor
  · intro h
    cases f with
    | float x =>
        cases g with
        | float y => exact .float (OrderedFloat.compare_eq_iff.mp h)
        | _ => cases h
    | null =>
        cases g with
        | null => exact .refl _
        | _ => cases h
    | _ =>
        cases g <;> first | cases h | exact Std.compare_eq_iff_eq.mp h ▸ .refl _
  · rintro (_ | hsame)
    · exact (ReflCmp.compare_self : compare f f = .eq)
    · exact OrderedFloat.compare_eq_iff.mpr hsame

end TupleField

namespace Lease

theorem cmp_eq (l l' : Lease) :
    cmp l l' = compareLex (compareOn expiresAt)
      (compareLex (compareOn owner) (compareOn renewable)) l l' := rfl

instance : TransOrd Lease where
  eq_swap {l l'} := by
    change cmp l l' = (cmp l' l).swap
    rw [cmp_eq, cmp_eq]
    exact OrientedCmp.eq_swap
  isLE_trans {l l' l''} := by
    change (cmp l l').isLE → (cmp l' l'').isLE → (cmp l l'').isLE
    rw [cmp_eq, cmp_eq, cmp_eq]
    exact TransCmp.isLE_trans

instance : LawfulEqOrd Lease where
  eq_of_compare {l l'} h := by
    change cmp l l' = .eq at h
    obtain ⟨expiresAt, owner, renewable⟩ := l
    obtain ⟨expiresAt', owner', renewable'⟩ := l'
    simpa only [cmp, Ordering.then_eq_eq, Std.compare_eq_iff_eq, Lease.mk.injEq] using h

end Lease

/-! ## Tuples -/

namespace Tuple

/-- The tuples differ, but only in the metadata, in the signs of zeros and in the bits of
NaNs. -/
def DifferUnseen (a b : Tuple) : Prop :=
  a ≠ b ∧ List.Forall₂ TupleField.SameNumber a.fields b.fields ∧ a.lease = b.lease

theorem cmp_eq (a b : Tuple) :
    cmp a b = compareLex (compareOn fields) (compareOn lease) a b := rfl

instance : TransCmp cmp where
  eq_swap {a b} := by
    rw [cmp_eq, cmp_eq]
    exact OrientedCmp.eq_swap
  isLE_trans {a b c} := by
    rw [cmp_eq, cmp_eq, cmp_eq]
    exact TransCmp.isLE_trans

theorem compare_fields_eq_iff {fs gs : List TupleField} :
    compare fs gs = .eq ↔ List.Forall₂ TupleField.SameNumber fs gs := by
  induction fs generalizing gs with
  | nil => simp
  | cons f fs ih =>
      cases gs with
      | nil => simp
      | cons g gs =>
          rw [List.compare_cons_cons, Ordering.then_eq_eq, TupleField.compare_eq_iff, ih,
            List.forall₂_cons]

theorem cmp_eq_iff {a b : Tuple} :
    cmp a b = .eq ↔ List.Forall₂ TupleField.SameNumber a.fields b.fields ∧ a.lease = b.lease := by
  rw [cmp, Ordering.then_eq_eq, compare_fields_eq_iff, Std.compare_eq_iff_eq]

/-- The order takes the two tuples for equal exactly when they are, and so neither comes before
the other only if they are equal. -/
structure Agrees (a b : Tuple) : Prop where
  eq_iff : cmp a b = .eq ↔ a = b
  antisymm : (cmp a b).isLE → (cmp b a).isLE → a = b

theorem agrees_iff (a b : Tuple) : a.Agrees b ↔ ¬a.DifferUnseen b := by
  constructor
  · rintro h ⟨hne, hsame⟩
    exact hne (h.eq_iff.mp (cmp_eq_iff.mpr hsame))
  · intro h
    have heq : cmp a b = .eq → a = b := by
      intro hcmp
      by_contra hne
      exact h ⟨hne, cmp_eq_iff.mp hcmp⟩
    refine ⟨⟨heq, ?_⟩, ?_⟩
    · rintro rfl
      exact ReflCmp.compare_self
    · intro hle hge
      exact heq (OrientedCmp.isLE_antisymm hle hge)

/-- The order of tuples is total and transitive, and two tuples agree with their equality unless
they differ only in what the order does not see. -/
theorem cmp_agrees_iff (a b c : Tuple) :
    (a.Agrees b ↔ ¬a.DifferUnseen b) ∧ cmp b a = (cmp a b).swap ∧
      ((cmp a b).isLE → (cmp b c).isLE → (cmp a c).isLE) :=
  ⟨agrees_iff a b, OrientedCmp.eq_swap, TransCmp.isLE_trans⟩

/-- A zero and a negative zero: the order takes them for equal. -/
theorem not_cmp_agrees : ¬∀ a b : Tuple, a.Agrees b := by
  intro h
  have heq := (h (new [.float ⟨0⟩]) (new [.float ⟨0x8000000000000000⟩])).eq_iff.mp
    (cmp_eq_iff.mpr ⟨by simpa [new] using .float (.inr (.inr (by decide))), rfl⟩)
  have hfields := congrArg fields heq
  revert hfields
  decide

end Tuple

end PlexSpaces.Tuples
