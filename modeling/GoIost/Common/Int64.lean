import Mathlib.Tactic.Lift
import Mathlib.Tactic.NormNum.Basic

namespace GoIost

-- Go's `int64`. A value is an integer in `[-2^63, 2^63)`, and every operation reduces its exact
-- result back into that range the way Go's two's complement arithmetic does, so an overflow in
-- the code is an overflow in the model.
@[ext]
structure Int64 where
  toInt : Int
  min_le : -2 ^ 63 ≤ toInt
  lt_max : toInt < 2 ^ 63
deriving DecidableEq

namespace Int64

instance : Repr Int64 := ⟨fun a _ => repr a.toInt⟩

def InRange (x : Int) : Prop :=
  -2 ^ 63 ≤ x ∧ x < 2 ^ 63

instance (x : Int) : Decidable (InRange x) :=
  inferInstanceAs (Decidable (_ ∧ _))

def ofInt (x : Int) : Int64 where
  toInt := (x + 2 ^ 63) % 2 ^ 64 - 2 ^ 63
  min_le := by omega
  lt_max := by omega

instance : OfNat Int64 n := ⟨ofInt n⟩
instance : Neg Int64 := ⟨fun a => ofInt (-a.toInt)⟩
instance : Add Int64 := ⟨fun a b => ofInt (a.toInt + b.toInt)⟩
instance : Sub Int64 := ⟨fun a b => ofInt (a.toInt - b.toInt)⟩
instance : Mul Int64 := ⟨fun a b => ofInt (a.toInt * b.toInt)⟩

-- Go's `/` and `%` truncate toward zero. A zero divisor panics in Go; the callers modelled here
-- either divide by a positive constant or check the divisor themselves.
instance : Div Int64 := ⟨fun a b => ofInt (a.toInt.tdiv b.toInt)⟩
instance : Mod Int64 := ⟨fun a b => ofInt (a.toInt.tmod b.toInt)⟩

instance : LT Int64 := ⟨fun a b => a.toInt < b.toInt⟩
instance : LE Int64 := ⟨fun a b => a.toInt ≤ b.toInt⟩
instance (a b : Int64) : Decidable (a < b) := inferInstanceAs (Decidable (a.toInt < b.toInt))
instance (a b : Int64) : Decidable (a ≤ b) := inferInstanceAs (Decidable (a.toInt ≤ b.toInt))

-- `math.MaxInt64`.
def maxInt64 : Int64 :=
  ⟨2 ^ 63 - 1, by decide, by decide⟩

theorem inRange_toInt (a : Int64) : InRange a.toInt :=
  ⟨a.min_le, a.lt_max⟩

theorem toInt_ofInt (x : Int) : (ofInt x).toInt = (x + 2 ^ 63) % 2 ^ 64 - 2 ^ 63 :=
  rfl

@[simp]
theorem toInt_ofInt_of_inRange {x : Int} (h : InRange x) : (ofInt x).toInt = x := by
  rw [toInt_ofInt]
  unfold InRange at h
  omega

@[simp]
theorem ofInt_toInt (a : Int64) : ofInt a.toInt = a :=
  Int64.ext (toInt_ofInt_of_inRange a.inRange_toInt)

@[simp] theorem lt_iff {a b : Int64} : a < b ↔ a.toInt < b.toInt := Iff.rfl
@[simp] theorem le_iff {a b : Int64} : a ≤ b ↔ a.toInt ≤ b.toInt := Iff.rfl
@[simp] theorem toInt_maxInt64 : maxInt64.toInt = 2 ^ 63 - 1 := rfl
@[simp] theorem toInt_zero : (0 : Int64).toInt = 0 := rfl
@[simp] theorem toInt_one : (1 : Int64).toInt = 1 := rfl

theorem toInt_add (a b : Int64) : (a + b).toInt = (ofInt (a.toInt + b.toInt)).toInt := rfl
theorem toInt_sub (a b : Int64) : (a - b).toInt = (ofInt (a.toInt - b.toInt)).toInt := rfl
theorem toInt_mul (a b : Int64) : (a * b).toInt = (ofInt (a.toInt * b.toInt)).toInt := rfl
theorem toInt_div (a b : Int64) : (a / b).toInt = (ofInt (a.toInt.tdiv b.toInt)).toInt := rfl
theorem toInt_mod (a b : Int64) : (a % b).toInt = (ofInt (a.toInt.tmod b.toInt)).toInt := rfl

@[simp]
theorem zero_mul (a : Int64) : 0 * a = 0 :=
  Int64.ext (by rw [toInt_mul, toInt_zero, Int.zero_mul]; rfl)

section NoOverflow

variable {a b : Int64}

theorem toInt_add_of_inRange (h : InRange (a.toInt + b.toInt)) :
    (a + b).toInt = a.toInt + b.toInt := by
  rw [toInt_add, toInt_ofInt_of_inRange h]

theorem toInt_sub_of_inRange (h : InRange (a.toInt - b.toInt)) :
    (a - b).toInt = a.toInt - b.toInt := by
  rw [toInt_sub, toInt_ofInt_of_inRange h]

theorem toInt_mul_of_inRange (h : InRange (a.toInt * b.toInt)) :
    (a * b).toInt = a.toInt * b.toInt := by
  rw [toInt_mul, toInt_ofInt_of_inRange h]

-- On non-negative operands truncating division is floor division, and it cannot overflow.
theorem toInt_div_of_nonneg (ha : 0 ≤ a.toInt) (hb : 0 ≤ b.toInt) :
    (a / b).toInt = a.toInt / b.toInt := by
  have := a.lt_max
  have := Int.ediv_nonneg ha hb
  have := Int.ediv_le_self b.toInt ha
  rw [toInt_div, Int.tdiv_eq_ediv ha hb, toInt_ofInt_of_inRange]
  constructor <;> omega

theorem toInt_mod_of_nonneg (ha : 0 ≤ a.toInt) (hb : 0 < b.toInt) :
    (a % b).toInt = a.toInt % b.toInt := by
  have := b.lt_max
  have := Int.emod_lt_of_pos a.toInt hb
  have := Int.emod_nonneg a.toInt (Int.ne_of_gt hb)
  rw [toInt_mod, Int.tmod_eq_emod ha (Int.le_of_lt hb), toInt_ofInt_of_inRange]
  constructor <;> omega

end NoOverflow

@[simp]
theorem toInt_ofNat_of_lt {n : Nat} (h : n < 2 ^ 63) : (OfNat.ofNat n : Int64).toInt = n :=
  toInt_ofInt_of_inRange ⟨by omega, by omega⟩

-- Wrapping `+` is addition modulo `2^64`: sums of `int64` amounts may be regrouped and reordered.
protected theorem add_assoc (a b c : Int64) : a + b + c = a + (b + c) :=
  Int64.ext (by simp only [toInt_add, toInt_ofInt]; omega)

protected theorem zero_add (a : Int64) : 0 + a = a :=
  Int64.ext (by rw [toInt_add, toInt_zero, Int.zero_add, ofInt_toInt])

protected theorem add_zero (a : Int64) : a + 0 = a :=
  Int64.ext (by rw [toInt_add, toInt_zero, Int.add_zero, ofInt_toInt])

protected theorem add_comm (a b : Int64) : a + b = b + a :=
  Int64.ext (by rw [toInt_add, toInt_add, Int.add_comm])

instance : AddCommMonoid Int64 where
  zero := 0
  add_assoc := Int64.add_assoc
  zero_add := Int64.zero_add
  add_zero := Int64.add_zero
  add_comm := Int64.add_comm
  nsmul := nsmulRec

end Int64

end GoIost
