import GoIost.Consensus.Schedule
import Mathlib.Tactic.Ring

namespace GoIost.Pob

open Int64

-- The length of a slot in nanoseconds, `1e9 * SlotLength`, computed without overflow.
def slotNanos (slotLength : Int64) : Int :=
  1000000000 * slotLength.toInt

section NextSlot

variable {slotLength numberOfWitnesses t : Int64} {witnessList : List String}

theorem slotNanos_pos (hS : 0 < slotLength.toInt) : 0 < slotNanos slotLength := by
  unfold slotNanos; omega

theorem slot_of_nanosec (hS : 0 < slotLength.toInt) (ht : 0 ≤ t.toInt) :
    (t / second2nanosecond / slotLength).toInt = t.toInt / slotNanos slotLength := by
  have hsec : (t / second2nanosecond).toInt = t.toInt / 1000000000 :=
    toInt_div_of_nonneg ht (by decide)
  rw [toInt_div_of_nonneg (hsec ▸ Int.ediv_nonneg ht (by decide)) (Int.le_of_lt hS), hsec,
    ediv_ediv_of_nonneg ht (by decide) (Int.le_of_lt hS), slotNanos]

theorem witnessOfNanoSec_eq (hS : 0 < slotLength.toInt) (hN : 0 < numberOfWitnesses.toInt)
    (ht : 0 ≤ t.toInt) :
    witnessOfNanoSec slotLength numberOfWitnesses t witnessList =
      witnessList[(t.toInt / slotNanos slotLength % numberOfWitnesses.toInt).toNat]? := by
  have hslot := slot_of_nanosec hS ht
  rw [witnessOfNanoSec, witnessOfSec, witnessOfSlot_eq hN (hslot ▸ Int.ediv_nonneg ht
    (Int.le_of_lt (slotNanos_pos hS))), hslot]

theorem timeUntilNextSchedule_toInt (hS : 0 < slotLength.toInt) (ht0 : 0 ≤ t.toInt)
    (ht : t.toInt ≤ 2 ^ 63 - 1 - slotNanos slotLength) :
    (timeUntilNextSchedule slotLength t).toInt =
      (t.toInt / slotNanos slotLength + 1) * slotNanos slotLength - t.toInt := by
  have hP := slotNanos_pos hS
  have hq0 := Int.ediv_nonneg ht0 (Int.le_of_lt hP)
  have hq := Int.ediv_mul_le t.toInt (Int.ne_of_gt hP)
  generalize hqd : t.toInt / slotNanos slotLength = q at hq0 hq ⊢
  have hmono : (q + 1) * 1000000000 ≤ (q + 1) * 1000000000 * slotLength.toInt := by
    have := Int.mul_le_mul_of_nonneg_left (show 1 ≤ slotLength.toInt by omega)
      (show 0 ≤ (q + 1) * 1000000000 by omega)
    rwa [Int.mul_one] at this
  have hexp : (q + 1) * 1000000000 * slotLength.toInt =
      q * slotNanos slotLength + slotNanos slotLength := by
    unfold slotNanos; ring
  have hsl : (second2nanosecond * slotLength).toInt = slotNanos slotLength := by
    unfold slotNanos at hP ht ⊢
    rw [toInt_mul_of_inRange] <;> simp only [toInt_second2nanosecond]
    exact ⟨by omega, by omega⟩
  have hcs : (t / (second2nanosecond * slotLength)).toInt = q := by
    rw [toInt_div_of_nonneg ht0 (hsl ▸ Int.le_of_lt hP), hsl, hqd]
  have h1 : (t / (second2nanosecond * slotLength) + 1).toInt = q + 1 := by
    rw [toInt_add_of_inRange] <;> simp only [hcs, toInt_one]
    exact ⟨by omega, by omega⟩
  have h2 : ((t / (second2nanosecond * slotLength) + 1) * second2nanosecond).toInt =
      (q + 1) * 1000000000 := by
    rw [toInt_mul_of_inRange] <;> simp only [h1, toInt_second2nanosecond]
    exact ⟨by omega, by omega⟩
  have h3 : ((t / (second2nanosecond * slotLength) + 1) * second2nanosecond * slotLength).toInt =
      q * slotNanos slotLength + slotNanos slotLength := by
    rw [toInt_mul_of_inRange] <;> simp only [h2, hexp]
    exact ⟨by omega, by omega⟩
  rw [timeUntilNextSchedule, toInt_sub_of_inRange] <;> simp only [h3]
  · ring
  · exact ⟨by omega, by omega⟩

theorem witness_round_robin (hS : 0 < slotLength.toInt) (hN : 0 < numberOfWitnesses.toInt)
    (hlen : (witnessList.length : Int) = numberOfWitnesses.toInt) (ht0 : 0 ≤ t.toInt)
    (ht : t.toInt ≤ 2 ^ 63 - 1 - slotNanos slotLength) :
    let slot := t.toInt / slotNanos slotLength
    let d := timeUntilNextSchedule slotLength t
    (t / second2nanosecond / slotLength).toInt = slot ∧
      (slot % numberOfWitnesses.toInt).toNat < witnessList.length ∧
      witnessOfNanoSec slotLength numberOfWitnesses t witnessList =
        witnessList[(slot % numberOfWitnesses.toInt).toNat]? ∧
      0 < d.toInt ∧ d.toInt ≤ slotNanos slotLength ∧
      (t + d).toInt = (slot + 1) * slotNanos slotLength ∧
      witnessOfNanoSec slotLength numberOfWitnesses (t + d) witnessList =
        witnessList[((slot + 1) % numberOfWitnesses.toInt).toNat]? := by
  intro slot d
  have hP := slotNanos_pos hS
  have hd : d.toInt = slot * slotNanos slotLength + slotNanos slotLength - t.toInt := by
    rw [timeUntilNextSchedule_toInt hS ht0 ht, Int.add_mul, Int.one_mul]
  have hlo : slot * slotNanos slotLength ≤ t.toInt := Int.ediv_mul_le t.toInt (Int.ne_of_gt hP)
  have hhi : t.toInt < slot * slotNanos slotLength + slotNanos slotLength := by
    have := Int.lt_ediv_add_one_mul_self t.toInt hP
    rwa [Int.add_mul, Int.one_mul] at this
  have hend : (t + d).toInt = (slot + 1) * slotNanos slotLength := by
    rw [toInt_add_of_inRange (by rw [hd]; exact ⟨by omega, by omega⟩), hd, Int.add_mul, Int.one_mul]
    omega
  refine ⟨slot_of_nanosec hS ht0, witnessIndex_lt slot hN hlen, witnessOfNanoSec_eq hS hN ht0,
    by omega, by omega, hend, ?_⟩
  have hslot : 0 ≤ slot := Int.ediv_nonneg ht0 (Int.le_of_lt hP)
  rw [witnessOfNanoSec_eq hS hN (by rw [hend]; exact Int.mul_nonneg (by omega) (by omega)), hend,
    Int.mul_ediv_cancel _ (Int.ne_of_gt hP)]

theorem witness_round_robin_three_second_slots :
    let slot := (0 : Int64).toInt / slotNanos 3
    let d := timeUntilNextSchedule 3 0
    ((0 : Int64) / second2nanosecond / 3).toInt = slot ∧
      (slot % (2 : Int64).toInt).toNat < ["a", "b"].length ∧
      witnessOfNanoSec 3 2 0 ["a", "b"] = ["a", "b"][(slot % (2 : Int64).toInt).toNat]? ∧
      0 < d.toInt ∧ d.toInt ≤ slotNanos 3 ∧
      ((0 : Int64) + d).toInt = (slot + 1) * slotNanos 3 ∧
      witnessOfNanoSec 3 2 (0 + d) ["a", "b"] =
        ["a", "b"][((slot + 1) % (2 : Int64).toInt).toNat]? :=
  witness_round_robin (by decide) (by decide) (by decide) (by decide) (by decide)

end NextSlot

end GoIost.Pob
