import GoIost.Consensus.Schedule
import GoIost.BlockCache.Node

namespace GoIost

-- The fields of a new `block.BlockHead` that `generateBlock` and `ExecTx` fill in (`Info` and
-- `GasUsage` are left empty by both).
structure HeadTemplate where
  version : Int64
  parentHash : Hash
  number : Int
  witness : String
  time : Int64
deriving DecidableEq, Repr

namespace Pob

-- The head `generateBlock` builds for the witness `accID` on the head block `topBlock` of the tx
-- pool's iterator at `now` (`time.Now().UnixNano()`), and the snapshot it checks out in the state
-- db before executing on it: the top block's.
def generateBlockHead (accID : String) (topBlock : BlockHead) (now : Int64) :
    HeadTemplate × Hash :=
  (⟨0, topBlock.hash, topBlock.number + 1, accID, now⟩, topBlock.hash)

-- The fields of `block.Block` that `verifyBlock` reads; `time` is its `Head.Time`, in Unix
-- nanoseconds.
structure Block (Tx : Type) where
  head : BlockHead
  time : Int64
  txs : List Tx

-- What `txPool.ExistTxs` answers.
inductive FRet
  | notFound
  | foundPending
  | foundChain
deriving DecidableEq, Repr

-- The errors of `verifyBlock`: its own, with their texts, and those it passes on.
inductive VerifyError
  | blockHead (err : String)   -- from `cverifier.VerifyBlockHead`
  | witnessOutOfRange          -- `witnessOfNanoSec` indexes outside the witness list and panics
  | witness                    -- `errWitness`, "wrong witness"
  | txDup                      -- `errTxDup`, "duplicate tx"
  | txSignature                -- `errTxSignature`, "tx wrong signature"
  | referredTx (err : String)  -- "get referred tx error, %v"
  | defer (err : String)       -- from `t.VerifyDefer`
  | verifier (err : String)    -- from `Verifier.Verify`
deriving DecidableEq, Repr

section

-- The checks `verifyBlock` asks of its context (the parent and LIB blocks, the tx pool, the
-- state db and the chain), none of them declared in this file.
variable {Tx : Type} (slotLength numberOfWitnesses : Int64) (witnessList : List String)
  (verifyBlockHead : Block Tx → Except String Unit) (existTxs : Tx → FRet)
  (verifySelf : Tx → Except String Unit) (isDefer : Tx → Bool) (referredTx : Tx → Hash)
  (getTx : Hash → Except String Tx) (verifyDefer : Tx → Tx → Except String Unit)
  (verify : Block Tx → Except String Unit)

-- The body of `verifyBlock`'s loop for a tx after the base tx. A tx already in the pending pool
-- was checked when it was admitted.
def verifyTx (t : Tx) : Except VerifyError Unit :=
  match existTxs t with
  | .foundChain => throw .txDup
  | .foundPending => pure ()
  | .notFound => do
    (verifySelf t).mapError fun _ => VerifyError.txSignature
    if isDefer t then
      let referred ← (getTx (referredTx t)).mapError VerifyError.referredTx
      (verifyDefer t referred).mapError VerifyError.defer

-- The witness check of `verifyBlock`: the block's witness is the one scheduled for its time.
def verifyWitness (blk : Block Tx) : Except VerifyError Unit :=
  match witnessOfNanoSec slotLength numberOfWitnesses blk.time witnessList with
  | none => throw .witnessOutOfRange
  | some w => if w ≠ blk.head.witness then throw .witness else pure ()

-- `verifyBlock`. The loop skips the block's first tx, the base tx.
def verifyBlock (blk : Block Tx) : Except VerifyError Unit := do
  (verifyBlockHead blk).mapError VerifyError.blockHead
  verifyWitness slotLength numberOfWitnesses witnessList blk
  (blk.txs.drop 1).forM (verifyTx existTxs verifySelf isDefer referredTx getTx verifyDefer)
  (verify blk).mapError VerifyError.verifier

end

end Pob

end GoIost
