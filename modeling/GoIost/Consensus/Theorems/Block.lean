import GoIost.Common.Except
import GoIost.Consensus.Block
import GoIost.Consensus.Theorems.Schedule

namespace GoIost.Pob

section

variable {Tx : Type} (slotLength numberOfWitnesses : Int64) (witnessList : List String)
  (verifyBlockHead : Block Tx → Except String Unit) (existTxs : Tx → FRet)
  (verifySelf : Tx → Except String Unit) (isDefer : Tx → Bool) (referredTx : Tx → Hash)
  (getTx : Hash → Except String Tx) (verifyDefer : Tx → Tx → Except String Unit)
  (verify : Block Tx → Except String Unit)

theorem verifyTx_eq_ok_iff {t : Tx} :
    verifyTx existTxs verifySelf isDefer referredTx getTx verifyDefer t = .ok () ↔
      existTxs t ≠ .foundChain ∧ (existTxs t = .notFound → verifySelf t = .ok () ∧
        (isDefer t → ∃ r, getTx (referredTx t) = .ok r ∧ verifyDefer t r = .ok ())) := by
  unfold verifyTx
  cases existTxs t with
  | foundChain => simp [throw_eq_error]
  | foundPending => simp [pure_eq_ok]
  | notFound =>
    cases isDefer t <;> cases verifySelf t <;>
      simp [bind_eq_ok_iff, mapError_eq_ok_iff, pure_eq_ok]

theorem verifyWitness_eq_ok_iff {blk : Block Tx} :
    verifyWitness slotLength numberOfWitnesses witnessList blk = .ok () ↔
      witnessOfNanoSec slotLength numberOfWitnesses blk.time witnessList =
        some blk.head.witness := by
  unfold verifyWitness
  split <;> simp_all [throw_eq_error, pure_eq_ok]

theorem verifyBlock_eq_ok_iff {blk : Block Tx} :
    verifyBlock slotLength numberOfWitnesses witnessList verifyBlockHead existTxs verifySelf isDefer
        referredTx getTx verifyDefer verify blk = .ok () ↔
      verifyBlockHead blk = .ok () ∧
      witnessOfNanoSec slotLength numberOfWitnesses blk.time witnessList = some blk.head.witness ∧
      (∀ t ∈ blk.txs.drop 1,
        verifyTx existTxs verifySelf isDefer referredTx getTx verifyDefer t = .ok ()) ∧
      verify blk = .ok () := by
  simp only [verifyBlock, bind_unit_eq_ok_iff, mapError_eq_ok_iff, forM_eq_ok_iff,
    ← verifyWitness_eq_ok_iff]

-- A block `verifyBlock` accepts, stamped at any time from the epoch on, was signed by the
-- witness the round robin schedules for its slot.
theorem verifyBlock_scheduled_witness {blk : Block Tx} (hS : 0 < slotLength.toInt)
    (hN : 0 < numberOfWitnesses.toInt) (ht : 0 ≤ blk.time.toInt)
    (h : verifyBlock slotLength numberOfWitnesses witnessList verifyBlockHead existTxs verifySelf
      isDefer referredTx getTx verifyDefer verify blk = .ok ()) :
    witnessList[(blk.time.toInt / slotNanos slotLength % numberOfWitnesses.toInt).toNat]? =
      some blk.head.witness := by
  rw [← witnessOfNanoSec_eq hS hN ht]
  exact ((verifyBlock_eq_ok_iff slotLength numberOfWitnesses witnessList verifyBlockHead existTxs
    verifySelf isDefer referredTx getTx verifyDefer verify).1 h).2.1

end

theorem verifyBlock_scheduled_witness_first_slot :
    let blk : Block Unit := ⟨⟨[], 1, "a"⟩, 0, []⟩
    ["a", "b"][(blk.time.toInt / slotNanos 3 % (2 : Int64).toInt).toNat]? = some blk.head.witness :=
  verifyBlock_scheduled_witness 3 2 ["a", "b"] (fun _ => .ok ()) (fun _ => .notFound)
    (fun _ => .ok ()) (fun _ => false) (fun _ => []) (fun _ => .ok ()) (fun _ _ => .ok ())
    (fun _ => .ok ()) (by decide) (by decide) (by decide) rfl

end GoIost.Pob
