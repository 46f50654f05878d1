import GoIost.Rpc.Server

namespace GoIost.Rpc

open Int64

namespace GRPCServer

variable {Tx Receipt : Type} (slotLength : Int64) (decode : List UInt8 → Except String Tx)
  (verifierTry : HeadTemplate → Hash → Tx → Except String Receipt)

theorem run_getBalance (v : ChainView) (s : GRPCServer) (history : List Call) (b : Bool) :
    (run v s (history ++ [.getBalance (some ⟨b⟩)])).forkDB =
      if b then v.head.hash else v.linkedRoot.hash := by
  cases b <;> simp [run, call, getBalance, Except.toOption]

theorem execTx_some (s : GRPCServer) (v : ChainView) {data : List UInt8} {trx : Tx}
    (hdec : decode data = .ok trx) :
    s.execTx slotLength decode verifierTry v (some data) =
      (verifierTry (execTxHead slotLength v) s.forkDB trx).mapError RpcError.execTxFailed := by
  simp [execTx, hdec, Except.mapError]
  rfl

-- `ExecTx`'s head counts time in slots, `generateBlock`'s in nanoseconds.
theorem execTxHead_time_lt {v : ChainView} (hnow : 0 < v.now.toInt) (hslot : 0 < slotLength.toInt)
    (accID : String) :
    (execTxHead slotLength v).time.toInt <
      (Pob.generateBlockHead accID v.txpoolHead v.now).1.time.toInt := by
  have hsec : (v.now / Pob.second2nanosecond).toInt = v.now.toInt / 1000000000 := by
    rw [toInt_div_of_nonneg (Int.le_of_lt hnow) (by decide), Pob.toInt_second2nanosecond]
  have hsec_nonneg : 0 ≤ v.now.toInt / 1000000000 :=
    Int.ediv_nonneg (Int.le_of_lt hnow) (by decide)
  show (v.now / Pob.second2nanosecond / slotLength).toInt < v.now.toInt
  rw [toInt_div_of_nonneg (hsec ▸ hsec_nonneg) (Int.le_of_lt hslot), hsec]
  calc v.now.toInt / 1000000000 / slotLength.toInt
      ≤ v.now.toInt / 1000000000 := Int.ediv_le_self _ hsec_nonneg
    _ < v.now.toInt := Int.ediv_lt_of_lt_mul (by decide) (by omega)

theorem mapError_execTxFailed_inj {e₁ e₂ : Except String Receipt}
    (h : e₁.mapError RpcError.execTxFailed = e₂.mapError RpcError.execTxFailed) :
    e₁ = e₂ := by
  cases e₁ <;> cases e₂ <;> simp_all [Except.mapError]

-- Two histories that leave the fork on different snapshots get different answers from `ExecTx`
-- for a tx whose trial run tells the snapshots apart.
theorem execTx_depends_on_history (s : GRPCServer) (v : ChainView) (h₁ h₂ : List Call)
    {data : List UInt8} {trx : Tx} (hdec : decode data = .ok trx)
    (hdiff : verifierTry (execTxHead slotLength v) v.head.hash trx ≠
      verifierTry (execTxHead slotLength v) v.linkedRoot.hash trx)
    (hnow : 0 < v.now.toInt) (hslot : 0 < slotLength.toInt) (accID : String) :
    (run v s (h₁ ++ [.getBalance (some ⟨true⟩)])).execTx slotLength decode verifierTry v
        (some data) ≠
      (run v s (h₂ ++ [.getBalance (some ⟨false⟩)])).execTx slotLength decode verifierTry v
        (some data) ∧
    (execTxHead slotLength v).time ≠ (Pob.generateBlockHead accID v.txpoolHead v.now).1.time := by
  constructor
  · rw [execTx_some slotLength decode verifierTry _ v hdec,
      execTx_some slotLength decode verifierTry _ v hdec,
      run_getBalance, run_getBalance]
    exact fun h => hdiff (mapError_execTxFailed_inj h)
  · intro h
    have := execTxHead_time_lt slotLength hnow hslot accID
    rw [h] at this
    exact Int.lt_irrefl _ this

theorem execTx_depends_on_history_one_block_apart :
    let v : ChainView := ⟨⟨[1], 1, "w"⟩, ⟨[0], 0, "w"⟩, ⟨[1], 1, "w"⟩, 1000000000⟩
    let decode : List UInt8 → Except String (List UInt8) := .ok
    let verifierTry : HeadTemplate → Hash → List UInt8 → Except String Hash :=
      fun _ tag _ => .ok tag
    (run v ⟨[]⟩ [.getBalance (some ⟨true⟩)]).execTx 3 decode verifierTry v (some []) ≠
        (run v ⟨[]⟩ [.getBalance (some ⟨false⟩)]).execTx 3 decode verifierTry v (some []) ∧
      (execTxHead 3 v).time ≠ (Pob.generateBlockHead "w" v.txpoolHead v.now).1.time :=
  execTx_depends_on_history 3 .ok (fun _ tag _ => .ok tag) ⟨[]⟩ _ [] [] rfl (by simp)
    (by decide)
    (by decide) "w"

end GRPCServer

end GoIost.Rpc
