import GoIost.BlockCache.Node
import GoIost.Common.Int64

namespace GoIost.TxPool

open Int64

-- The fields of `tx.Tx` the defer server reads or sets. `Tx.Hash()` digests the whole
-- transaction; it is the parameter `txHash` below.
structure Tx where
  time : Int64
  delay : Int64
  referredTx : Hash
deriving DecidableEq, Repr

-- `bytes.Compare`: lexicographic order on byte strings, as `-1`, `0` or `1`.
def bytesCompare : List UInt8 → List UInt8 → Int
  | [], [] => 0
  | [], _ :: _ => -1
  | _ :: _, [] => 1
  | a :: as, b :: bs => if a < b then -1 else if b < a then 1 else bytesCompare as bs

-- What `txpool.AddDefertx` returns: `nil`, one of the three errors the ticker tests for, or any
-- other error.
inductive AddDeferResult
  | ok
  | errCacheFull
  | errDupChainTx
  | errDupPendingTx
  | other (err : String)
deriving DecidableEq, Repr

section

variable (txHash : Tx → Hash)

def compareDeferTx (a b : Tx) : Int :=
  if a.time = b.time then bytesCompare (txHash a) (txHash b) else (a.time - b.time).toInt

def toIndex (delayTx : Tx) : Tx :=
  ⟨delayTx.time + delayTx.delay, 0, txHash delayTx⟩

@[simp] theorem toIndex_time (delayTx : Tx) :
    (toIndex txHash delayTx).time = delayTx.time + delayTx.delay := rfl

-- The pool is `redblacktree.Tree` from the gods library under `compareDeferTx`. It is modelled by
-- its in-order sequence: `Put` places a key before the first entry that compares greater, or in
-- place of one that compares equal, and `Remove` takes out the entry that compares equal. This is
-- the tree's in-order sequence whenever the comparator orders the keys.
def put (x : Tx) : List Tx → List Tx
  | [] => [x]
  | e :: l =>
    if compareDeferTx txHash x e < 0 then x :: e :: l
    else if compareDeferTx txHash x e = 0 then x :: l
    else e :: put x l

def remove (x : Tx) : List Tx → List Tx
  | [] => []
  | e :: l => if compareDeferTx txHash x e = 0 then l else e :: remove x l

structure DeferServer where
  pool : List Tx
  nextScheduleTime : Int64

-- `NewDeferServer`: an empty tree and a zero `nextScheduleTime`, then `buildIndex` over the delay
-- transactions `BlockChain().AllDelaytx()` returns.
def newDeferServer (txs : List Tx) : DeferServer :=
  ⟨txs.foldl (fun pool t => put txHash (toIndex txHash t) pool) [], 0⟩

namespace DeferServer

-- Restarting the ticker only makes the next pass wait until the new `nextScheduleTime`; passes
-- run at any clock value in this model, so the restart changes no state.
def storeDeferTx (d : DeferServer) (delayTx : Tx) : DeferServer :=
  let idx := toIndex txHash delayTx
  let pool := put txHash idx d.pool
  if idx.time < d.nextScheduleTime then ⟨pool, idx.time⟩ else { d with pool }

def delDeferTx (d : DeferServer) (deferTx : Tx) : DeferServer :=
  { d with pool := remove txHash ⟨deferTx.time, 0, deferTx.referredTx⟩ d.pool }

end DeferServer

-- The body of `deferTicker` after its timer fires, at clock `now`, with `addDefertx` the answers of
-- the transaction pool. The tree's iterator walks the entries as they were when the pass began:
-- removing the entry it stands on does not move it. The result is the pool and
-- `nextScheduleTime`.
def deferTicker.pass (now : Int64) (addDefertx : Hash → AddDeferResult) :
    List Tx → List Tx → List Tx × Int64
  | [], pool => (pool, maxInt64)
  | deferTx :: rest, pool =>
    if deferTx.time > now then (pool, deferTx.time)
    else
      match addDefertx deferTx.referredTx with
      | .errCacheFull => (pool, deferTx.time)
      | .ok | .errDupChainTx | .errDupPendingTx =>
        pass now addDefertx rest (remove txHash deferTx pool)
      | .other _ => pass now addDefertx rest pool

def DeferServer.deferTicker (d : DeferServer) (now : Int64) (addDefertx : Hash → AddDeferResult) :
    DeferServer :=
  let (pool, nextScheduleTime) := deferTicker.pass txHash now addDefertx d.pool d.pool
  ⟨pool, nextScheduleTime⟩

@[simp] theorem newDeferServer_pool (txs : List Tx) :
    (newDeferServer txHash txs).pool =
      txs.foldl (fun pool t => put txHash (toIndex txHash t) pool) [] :=
  rfl

@[simp] theorem storeDeferTx_pool (d : DeferServer) (delayTx : Tx) :
    (d.storeDeferTx txHash delayTx).pool = put txHash (toIndex txHash delayTx) d.pool := by
  unfold DeferServer.storeDeferTx; dsimp only; split <;> rfl

@[simp] theorem delDeferTx_pool (d : DeferServer) (deferTx : Tx) :
    (d.delDeferTx txHash deferTx).pool =
      remove txHash ⟨deferTx.time, 0, deferTx.referredTx⟩ d.pool :=
  rfl

@[simp] theorem deferTicker_pool (d : DeferServer) (now : Int64)
    (addDefertx : Hash → AddDeferResult) :
    (d.deferTicker txHash now addDefertx).pool =
      (deferTicker.pass txHash now addDefertx d.pool d.pool).1 :=
  rfl

-- A run of the server: `NewDeferServer` over the delay transactions the chain holds, then
-- `StoreDeferTx`, `DelDeferTx` and ticker passes in any order, at any clock value and with any
-- answers of the transaction pool. `allowed` says which delay transactions may be stored.
inductive Run (allowed : Tx → Prop) : DeferServer → Prop
  | build (txs : List Tx) : (∀ t ∈ txs, allowed t) → Run allowed (newDeferServer txHash txs)
  | store {d : DeferServer} (t : Tx) :
      Run allowed d → allowed t → Run allowed (d.storeDeferTx txHash t)
  | del {d : DeferServer} (t : Tx) : Run allowed d → Run allowed (d.delDeferTx txHash t)
  | tick {d : DeferServer} (now : Int64) (addDefertx : Hash → AddDeferResult) :
      Run allowed d → Run allowed (d.deferTicker txHash now addDefertx)

end

end GoIost.TxPool
