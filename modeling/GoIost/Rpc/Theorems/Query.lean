import GoIost.Rpc.Query

namespace GoIost.Rpc

variable {Tx Receipt TxRaw ReceiptRaw Contract : Type}
  (base58Encode : Hash → String) (base58Decode : String → Hash)
  (txHash : Tx → Hash) (toTxRaw : Tx → TxRaw)
  (receiptHash : Receipt → Hash) (toTxReceiptRaw : Receipt → ReceiptRaw)

section Contract

variable (chainGetTx : Hash → Except String (List Action))
  (firstString : String → Except String String) (b64Decode : String → Except String Contract)

theorem ne_empty_of_startsWith {s : String} (h : s.startsWith "Contract" = true) : s ≠ "" := by
  rintro rfl; exact absurd h (by decide)

variable {base58Decode chainGetTx firstString b64Decode}

theorem getContract_eq_ok_iff {req : Option String} {c : Contract} :
    getContract base58Decode chainGetTx firstString b64Decode req = .ok c ↔
      ∃ contractID action rest contractStr, req = some contractID ∧
        contractID.startsWith "Contract" = true ∧
        chainGetTx (contractTx base58Decode contractID) = .ok (action :: rest) ∧
        action.contract = "iost.system" ∧
        (action.actionName = "SetCode" ∨ action.actionName = "UpdateCode") ∧
        firstString action.data = .ok contractStr ∧ b64Decode contractStr = .ok c := by
  constructor
  · intro h
    unfold getContract at h
    split at h
    · cases h
    · next contractID =>
      split_ifs at h with he hp
      split at h
      · cases h
      · cases h
      · next action rest htx =>
        split_ifs at h with hs
        split at h
        · cases h
        · next contractStr hstr =>
          split at h
          · cases h
          · next hc =>
            cases h
            push_neg at hs
            exact ⟨contractID, action, rest, contractStr, rfl, hp, htx, hs.1,
              (em _).imp_right hs.2, hstr, hc⟩
  · rintro ⟨contractID, action, rest, contractStr, rfl, hp, htx, hsys, hname, hstr, hc⟩
    have hs : ¬(action.contract ≠ "iost.system" ∨
        action.actionName ≠ "SetCode" ∧ action.actionName ≠ "UpdateCode") := by
      rcases hname with h | h <;> simp [hsys, h]
    simp [getContract, ne_empty_of_startsWith hp, hp, htx, hs, hstr, hc]

theorem getContract_eq_panic_iff {req : Option String} :
    getContract base58Decode chainGetTx firstString b64Decode req = .panic ↔
      ∃ contractID, req = some contractID ∧ contractID.startsWith "Contract" = true ∧
        chainGetTx (contractTx base58Decode contractID) = .ok [] := by
  constructor
  · intro h
    unfold getContract at h
    split at h
    · cases h
    · next contractID =>
      split_ifs at h with he hp
      split at h
      · cases h
      · next htx => exact ⟨contractID, rfl, hp, htx⟩
      · split_ifs at h
        split at h
        · cases h
        · split at h <;> cases h
  · rintro ⟨contractID, rfl, hp, htx⟩
    simp [getContract, ne_empty_of_startsWith hp, hp, htx]

end Contract

section ByHash

variable {Obj Raw : Type} {base58Encode base58Decode toTxReceiptRaw}
  {lookup : Hash → Except String Obj} {toRaw : Obj → Raw} {answerHash : Hash → Obj → Hash}
  {req : Option String}

-- The body the three lookups by hash share answers exactly when the chain finds the object.
theorem getByHash_eq_ok_iff {r : HashRes Raw} :
    getByHash base58Encode base58Decode lookup toRaw answerHash req = .ok r ↔
      ∃ hash obj, req = some hash ∧ lookup (base58Decode hash) = .ok obj ∧
        r = ⟨toRaw obj, base58Encode (answerHash (base58Decode hash) obj)⟩ := by
  cases req with
  | none => simp [getByHash]
  | some hash =>
    rcases hl : lookup (base58Decode hash) with err | obj <;> simp [getByHash, hl, eq_comm]

theorem getByHash_eq_error_iff {e : QueryError} :
    getByHash base58Encode base58Decode lookup toRaw answerHash req = .error e ↔
      req = none ∧ e = .nilArgument ∨
        ∃ hash err, req = some hash ∧ lookup (base58Decode hash) = .error err ∧
          e = .passed err := by
  cases req with
  | none => simp [getByHash, eq_comm]
  | some hash =>
    rcases hl : lookup (base58Decode hash) with err | obj <;> simp [getByHash, hl, eq_comm]

end ByHash

theorem TAddTx.errName_eq_none {t : TAddTx} : t.errName = none ↔ t = .success := by
  cases t <;> simp [TAddTx.errName]

theorem sendRawTx_eq_ok_iff (decode : List UInt8 → Except String Tx) (addTx : Tx → TAddTx)
    (rawTx : Option (List UInt8)) (h : Hash) :
    sendRawTx txHash decode addTx rawTx = .ok h ↔
      ∃ data trx, rawTx = some data ∧ decode data = .ok trx ∧ addTx trx = .success ∧
        txHash trx = h := by
  cases rawTx with
  | none => simp [sendRawTx]
  | some data =>
    rcases hd : decode data with err | trx
    · simp [sendRawTx, hd]
    · rcases hr : (addTx trx).errName <;> simp [sendRawTx, hd, hr, ← TAddTx.errName_eq_none]

end GoIost.Rpc
