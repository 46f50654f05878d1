import GoIost.Consensus.Block

namespace GoIost.Rpc

-- What the server reads and never changes: the block cache's head and linked root, the head
-- block of `s.txpool.TxIterator()`, and the clock, as `time.Now().UnixNano()`.
structure ChainView where
  head : BlockHead
  linkedRoot : BlockHead
  txpoolHead : BlockHead
  now : Int64

-- `GRPCServer`, reduced to its shared `forkDB` and the snapshot it has checked out. The visitor
-- reads the state db through the same fork.
structure GRPCServer where
  forkDB : Hash

-- The errors of the calls modelled here, each with the text its `fmt.Errorf` gives.
inductive RpcError
  | nilArgument              -- "argument cannot be nil pointer"
  | emptyContractID          -- "contract id cannot be empty"
  | decode (err : String)    -- the error of `trx.Decode`
  | execTxFailed (err : String) -- "exec tx failed: %v"
deriving DecidableEq, Repr

-- The request fields that decide which snapshot a call checks out.
structure GetBalanceReq where
  useLongestChain : Bool

structure GetContractStorageReq where
  contractID : String

-- The calls of a history; `nil` requests are `none`.
inductive Call
  | getBalance (req : Option GetBalanceReq)
  | getContractStorage (req : Option GetContractStorageReq)
  | execTx (rawTx : Option (List UInt8))

section

variable {Tx Receipt : Type} (slotLength : Int64)
  (decode : List UInt8 → Except String Tx)
  (verifierTry : HeadTemplate → Hash → Tx → Except String Receipt)

namespace GRPCServer

-- The server after `GetBalance`, which checks out a snapshot; its answer,
-- `s.visitor.Balance(key.ID)` at that snapshot, changes nothing.
def getBalance (v : ChainView) : Option GetBalanceReq → Except RpcError GRPCServer
  | none => .error .nilArgument
  | some key =>
    if key.useLongestChain then .ok ⟨v.head.hash⟩ -- long
    else .ok ⟨v.linkedRoot.hash⟩ -- confirm

-- The server after `GetContractStorage`, which reads the storage at the snapshot it checks out.
def getContractStorage (v : ChainView) : Option GetContractStorageReq → Except RpcError GRPCServer
  | none => .error .nilArgument
  | some req => if req.contractID = "" then .error .emptyContractID else .ok ⟨v.linkedRoot.hash⟩

-- The head `ExecTx` builds: `Time` is `time.Now().Unix() / common.SlotLength`, in slots.
def execTxHead (v : ChainView) : HeadTemplate :=
  ⟨0, v.txpoolHead.hash, v.txpoolHead.number + 1, "",
    v.now / Pob.second2nanosecond / slotLength⟩

-- `ExecTx`: `v.Try` runs the tx on `s.forkDB` as it stands; no snapshot is checked out first.
def execTx (s : GRPCServer) (v : ChainView) : Option (List UInt8) → Except RpcError Receipt
  | none => .error .nilArgument
  | some data => do
    let trx ← (decode data).mapError RpcError.decode
    (verifierTry (execTxHead slotLength v) s.forkDB trx).mapError RpcError.execTxFailed

-- The server after one call; a call that fails leaves it as it was.
def call (v : ChainView) (s : GRPCServer) : Call → GRPCServer
  | .getBalance req => ((getBalance v req).toOption).getD s
  | .getContractStorage req => ((getContractStorage v req).toOption).getD s
  | .execTx _ => s

-- The server after a history of calls, all made while the chain showed `v`.
def run (v : ChainView) (s : GRPCServer) (history : List Call) : GRPCServer :=
  history.foldl (call v) s

end GRPCServer

end

end GoIost.Rpc
