import GoIost.Rpc.Server

namespace GoIost.Rpc

-- The errors of the lookup calls and of `SendRawTx`, each with the text its `fmt.Errorf` gives,
-- and the errors they pass on.
inductive QueryError
  | nilArgument          -- "argument cannot be nil pointer"
  | emptyArgument        -- "argument cannot be empty string"
  | contractPrefix       -- "Contract id should start with \"Contract\""
  | notSetCode           -- "Not a SetCode or Update transaction"
  | cantFindBlock        -- "cant find the block"
  | txErr (name : String) -- "tx err:%v", with the name of what `AddTx` answered
  | passed (err : String) -- an error of the chain, the JSON reader, the base64 decoder or `Decode`
deriving DecidableEq, Repr

-- How a call ends: with an answer, with an error, or in a panic, which the gRPC server does not
-- recover and which stops the node.
inductive Reply (α : Type)
  | ok (a : α)
  | error (e : QueryError)
  | panic
deriving DecidableEq, Repr

-- The fields of `tx.Action`.
structure Action where
  contract : String
  actionName : String
  data : String
deriving DecidableEq, Repr

-- What `txpool.AddTx` answers; its constants are declared outside this file.
inductive TAddTx
  | success
  | timeError
  | verifyError
  | dupError
  | gasPriceError
  | cacheFullError
deriving DecidableEq, Repr

structure BlockByHashReq where
  hash : String
  complete : Bool

structure BlockByNumReq where
  num : Int64
  complete : Bool

section

-- The parts of a block `toBlockInfo` reads.
structure ChainBlock (Tx Receipt : Type) where
  headHash : Hash
  txs : List Tx
  receipts : List Receipt

-- `BlockInfo`; `Head` is copied from the block and left out here.
structure BlockInfo (TxRaw ReceiptRaw : Type) where
  hash : String
  txs : List TxRaw
  txhash : List String
  receipts : List ReceiptRaw
  receiptHash : List String
deriving DecidableEq, Repr

-- The codecs and the chain and cache lookups are declared outside this file.
variable {Tx Receipt TxRaw ReceiptRaw Contract : Type}
  (base58Encode : Hash → String) (base58Decode : String → Hash)
  (txHash : Tx → Hash) (toTxRaw : Tx → TxRaw)
  (receiptHash : Receipt → Hash) (toTxReceiptRaw : Receipt → ReceiptRaw)

-- `toBlockInfo`: the hashes of every tx and receipt, and the txs and receipts themselves when
-- `complete`.
def toBlockInfo (blk : ChainBlock Tx Receipt) (complete : Bool) : BlockInfo TxRaw ReceiptRaw where
  hash := base58Encode blk.headHash
  txs := if complete then blk.txs.map toTxRaw else []
  txhash := blk.txs.map fun trx => base58Encode (txHash trx)
  receipts := if complete then blk.receipts.map toTxReceiptRaw else []
  receiptHash := blk.receipts.map fun receipt => base58Encode (receiptHash receipt)

-- `GetBlockByHash` and `GetBlockByNum` share their body: the chain first, then the block cache,
-- with the errors of both lookups dropped.
def getBlockBy {Key : Type} (chainGet cacheGet : Key → Option (ChainBlock Tx Receipt))
    (key : Key) (complete : Bool) : Except QueryError (BlockInfo TxRaw ReceiptRaw) :=
  match (chainGet key).orElse fun _ => cacheGet key with
  | none => .error .cantFindBlock
  | some blk =>
    .ok (toBlockInfo base58Encode txHash toTxRaw receiptHash toTxReceiptRaw blk complete)

def getBlockByHash (chainGet cacheGet : Hash → Option (ChainBlock Tx Receipt)) :
    Option BlockByHashReq → Except QueryError (BlockInfo TxRaw ReceiptRaw)
  | none => .error .nilArgument
  | some req =>
    getBlockBy base58Encode txHash toTxRaw receiptHash toTxReceiptRaw chainGet cacheGet
      (base58Decode req.hash) req.complete

def getBlockByNum (chainGet cacheGet : Int64 → Option (ChainBlock Tx Receipt)) :
    Option BlockByNumReq → Except QueryError (BlockInfo TxRaw ReceiptRaw)
  | none => .error .nilArgument
  | some req =>
    getBlockBy base58Encode txHash toTxRaw receiptHash toTxReceiptRaw chainGet cacheGet req.num
      req.complete

-- The answer of the lookups by hash, `TxRes` and `TxReceiptRes`: the object raw and a hash.
structure HashRes (Raw : Type) where
  raw : Raw
  hash : String
deriving DecidableEq, Repr

-- The body `GetTxByHash`, `GetTxReceiptByHash` and `GetTxReceiptByTxHash` share: the request's
-- hash, base58-decoded, is looked up on the chain, whose error is returned as it is; the answer
-- carries the object raw and, base58-encoded, the hash `answerHash` picks from the decoded request
-- hash and the object.
def getByHash {Obj Raw : Type} (lookup : Hash → Except String Obj) (toRaw : Obj → Raw)
    (answerHash : Hash → Obj → Hash) : Option String → Except QueryError (HashRes Raw)
  | none => .error .nilArgument
  | some hash =>
    match lookup (base58Decode hash) with
    | .error err => .error (.passed err)
    | .ok obj => .ok ⟨toRaw obj, base58Encode (answerHash (base58Decode hash) obj)⟩

def getTxByHash (getTx : Hash → Except String Tx) :
    Option String → Except QueryError (HashRes TxRaw) :=
  getByHash base58Encode base58Decode getTx toTxRaw fun _ trx => txHash trx

-- The answer's hash is the request's, decoded and encoded again, not the receipt's.
def getTxReceiptByHash (getReceipt : Hash → Except String Receipt) :
    Option String → Except QueryError (HashRes ReceiptRaw) :=
  getByHash base58Encode base58Decode getReceipt toTxReceiptRaw fun receiptHashBytes _ =>
    receiptHashBytes

def getTxReceiptByTxHash (getReceiptByTxHash : Hash → Except String Receipt) :
    Option String → Except QueryError (HashRes ReceiptRaw) :=
  getByHash base58Encode base58Decode getReceiptByTxHash toTxReceiptRaw fun _ receipt =>
    receiptHash receipt

-- The transaction a contract id names: the id after its `Contract` prefix, base58-decoded.
def contractTx (contractID : String) : Hash :=
  base58Decode (contractID.drop "Contract".length)

-- `GetContract`, with `chainGetTx` the actions of the transaction `bchain.GetTx` finds,
-- `firstString` the reading `js.GetIndex(0).String()` of `simplejson.NewJson` on the action's
-- data, and `b64Decode` `Contract.B64Decode`. `Actions[0]` of a transaction without actions
-- panics.
def getContract (chainGetTx : Hash → Except String (List Action))
    (firstString : String → Except String String) (b64Decode : String → Except String Contract) :
    Option String → Reply Contract
  | none => .error .nilArgument
  | some contractID =>
    if contractID = "" then .error .emptyArgument
    else if ¬contractID.startsWith "Contract" then .error .contractPrefix
    else match chainGetTx (contractTx base58Decode contractID) with
      | .error err => .error (.passed err)
      | .ok [] => .panic
      | .ok (action :: _) =>
        if action.contract ≠ "iost.system" ∨
            action.actionName ≠ "SetCode" ∧ action.actionName ≠ "UpdateCode" then
          .error .notSetCode
        else match firstString action.data with
          | .error err => .error (.passed err)
          | .ok contractStr => match b64Decode contractStr with
            | .error err => .error (.passed err)
            | .ok contract => .ok contract

-- The name `SendRawTx` reports for an answer of `AddTx`, if it is an error.
def TAddTx.errName : TAddTx → Option String
  | .timeError => some "TimeError"
  | .verifyError => some "VerifyError"
  | .dupError => some "DupError"
  | .gasPriceError => some "GasPriceError"
  | .cacheFullError => some "CacheFullError"
  | .success => none

-- `SendRawTx`: the answer is the raw bytes of the tx hash, `string(trx.Hash())`.
def sendRawTx (decode : List UInt8 → Except String Tx) (addTx : Tx → TAddTx) :
    Option (List UInt8) → Except QueryError Hash
  | none => .error .nilArgument
  | some data =>
    match decode data with
    | .error err => .error (.passed err)
    | .ok trx =>
      match (addTx trx).errName with
      | some name => .error (.txErr name)
      | none => .ok (txHash trx)

end

end GoIost.Rpc
