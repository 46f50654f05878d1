import GoIost.Common.Int64

namespace GoIost.Pob

open Int64

def second2nanosecond : Int64 := 1000000000

section Schedule

-- `common.SlotLength` (seconds per slot) and `staticProperty.NumberOfWitnesses`.
variable (slotLength numberOfWitnesses : Int64)

-- A `% 0` and an index outside `witnessList` are run-time panics in Go; both are `none` here.
def witnessOfSlot (slot : Int64) (witnessList : List String) : Option String :=
  if numberOfWitnesses = 0 then none
  else
    let index := slot % numberOfWitnesses
    if index.toInt < 0 then none else witnessList[index.toInt.toNat]?

def witnessOfSec (sec : Int64) (witnessList : List String) : Option String :=
  witnessOfSlot numberOfWitnesses (sec / slotLength) witnessList

def witnessOfNanoSec (nanosec : Int64) (witnessList : List String) : Option String :=
  witnessOfSec slotLength numberOfWitnesses (nanosec / second2nanosecond) witnessList

def slotOfSec (sec : Int64) : Int64 :=
  sec / slotLength

def timeUntilNextSchedule (timeSec : Int64) : Int64 :=
  let currentSlot := timeSec / (second2nanosecond * slotLength)
  (currentSlot + 1) * second2nanosecond * slotLength - timeSec

theorem witnessOfSec_eq (sec : Int64) (witnessList : List String) :
    witnessOfSec slotLength numberOfWitnesses sec witnessList =
      witnessOfSlot numberOfWitnesses (slotOfSec slotLength sec) witnessList :=
  rfl

end Schedule

-- `StaticProperty.isWitness`, whose receiver is not read; `strings.Compare(v, w) == 0` is `v = w`.
def isWitness (w : String) (witnessList : List String) : Bool :=
  witnessList.any fun v => v == w

@[simp] theorem toInt_second2nanosecond : second2nanosecond.toInt = 1000000000 := rfl

theorem ne_zero_of_pos {a : Int64} (h : 0 < a.toInt) : a ≠ 0 := by
  rintro rfl
  exact absurd h (by decide)

-- With a positive witness count and a non-negative slot the index is `slot mod N`, in range of
-- any list of `N` witnesses.
theorem witnessOfSlot_eq {numberOfWitnesses slot : Int64} {witnessList : List String}
    (hN : 0 < numberOfWitnesses.toInt) (hs : 0 ≤ slot.toInt) :
    witnessOfSlot numberOfWitnesses slot witnessList =
      witnessList[(slot.toInt % numberOfWitnesses.toInt).toNat]? := by
  have hi := Int.emod_nonneg slot.toInt (Int.ne_of_gt hN)
  simp only [witnessOfSlot, ne_zero_of_pos hN, if_false, toInt_mod_of_nonneg hs hN]
  rw [if_neg (by omega)]

theorem witnessIndex_lt {numberOfWitnesses : Int64} {witnessList : List String} (slot : Int)
    (hN : 0 < numberOfWitnesses.toInt)
    (hlen : (witnessList.length : Int) = numberOfWitnesses.toInt) :
    (slot % numberOfWitnesses.toInt).toNat < witnessList.length := by
  have := Int.emod_lt_of_pos slot hN
  have := Int.emod_nonneg slot (Int.ne_of_gt hN)
  omega

theorem ediv_ediv_of_nonneg {a b c : Int} (ha : 0 ≤ a) (hb : 0 ≤ b) (hc : 0 ≤ c) :
    a / b / c = a / (b * c) := by
  lift a to Nat using ha
  lift b to Nat using hb
  lift c to Nat using hc
  exact_mod_cast Nat.div_div_eq_div_mul a b c

end GoIost.Pob
