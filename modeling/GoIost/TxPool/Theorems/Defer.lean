import GoIost.TxPool.Defer

namespace GoIost.TxPool

open Int64

variable {txHash : Tx → Hash}

section Order

variable {a b : Tx}

theorem compareDeferTx_of_inRange (hne : a.time ≠ b.time)
    (h : InRange (a.time.toInt - b.time.toInt)) :
    compareDeferTx txHash a b = a.time.toInt - b.time.toInt := by
  rw [compareDeferTx, if_neg hne, toInt_sub_of_inRange h]

theorem toIndex_time_of_inRange (h : InRange (a.time.toInt + a.delay.toInt)) :
    (toIndex txHash a).time.toInt = a.time.toInt + a.delay.toInt :=
  toInt_add_of_inRange h

end Order

section Pass

variable {now : Int64} {addDefertx : Hash → AddDeferResult}

-- The entries a pass gets past: due, and not refused with `ErrCacheFull`.
def Passed (now : Int64) (addDefertx : Hash → AddDeferResult) (e : Tx) : Bool :=
  decide (e.time ≤ now) && addDefertx e.referredTx != .errCacheFull

-- The answers on which the ticker removes the entry.
def Removes : AddDeferResult → Bool
  | .ok | .errDupChainTx | .errDupPendingTx => true
  | _ => false

-- A pass walks the entries while due and not refused with `ErrCacheFull`, and removes those taken.
theorem pass_eq (visit pool : List Tx) :
    deferTicker.pass txHash now addDefertx visit pool =
      (((visit.takeWhile (Passed now addDefertx)).filter
          fun e => Removes (addDefertx e.referredTx)).foldl (fun p e => remove txHash e p) pool,
        match visit.dropWhile (Passed now addDefertx) with
        | [] => maxInt64
        | e :: _ => e.time) := by
  induction visit generalizing pool with
  | nil => rfl
  | cons e rest ih =>
    by_cases hdue : now < e.time
    · have : Passed now addDefertx e = false := by
        simp [Passed, Int.not_le.mpr (lt_iff.mp hdue)]
      simp [deferTicker.pass, hdue, List.takeWhile_cons, List.dropWhile_cons, this]
    · have hle : e.time ≤ now := Int.not_lt.mp hdue
      cases hr : addDefertx e.referredTx <;>
        simp [deferTicker.pass, hdue, hle, hr, ih, Passed, Removes, List.takeWhile_cons,
          List.dropWhile_cons]

end Pass

section Overflow

-- `b` asks for the largest `int64` delay: its trigger time wraps to before 1800, and
-- `compareDeferTx` still sorts it after `a` by the wrapped subtraction.
theorem compareDeferTx_wraps (txHash : Tx → Hash) :
    let a : Tx := ⟨1541000000000000000, 1, []⟩
    let b : Tx := ⟨1541000000000000003, maxInt64, []⟩
    a.time.toInt + a.delay.toInt < b.time.toInt + b.delay.toInt ∧
      (toIndex txHash b).time.toInt ≠ b.time.toInt + b.delay.toInt ∧
      0 < compareDeferTx txHash (toIndex txHash a) (toIndex txHash b) := by
  intro a b
  refine ⟨by decide, by simp only [toIndex_time]; decide, ?_⟩
  rw [compareDeferTx, if_neg (by simp only [toIndex_time]; decide)]
  simp only [toIndex_time]; decide

-- A delay transaction stored after `b` with a trigger time `2^62` on compares below `b`'s wrapped
-- time: the ticker stops at it and never reaches `b`, although `b` is due.
theorem deferTicker_stops_before_due_entry (txHash : Tx → Hash) :
    let b : Tx := ⟨1541000000000000000, maxInt64, []⟩
    let a : Tx := ⟨1541000000000000000, 4611686018427387904, []⟩
    let d := ((newDeferServer txHash []).storeDeferTx txHash b).storeDeferTx txHash a
    let d' := d.deferTicker txHash 1541000001000000000 fun _ => .ok
    (toIndex txHash b).time < 1541000001000000000 ∧
      (toIndex txHash b).time < (toIndex txHash a).time ∧
      d.pool = [toIndex txHash a, toIndex txHash b] ∧
      d'.pool = [toIndex txHash a, toIndex txHash b] ∧
      d'.nextScheduleTime = (toIndex txHash a).time := by
  intro b a d d'
  have hcmp : compareDeferTx txHash (toIndex txHash a) (toIndex txHash b) < 0 := by
    rw [compareDeferTx, if_neg (by simp only [toIndex_time]; decide)]
    simp only [toIndex_time]; decide
  have hpool : d.pool = [toIndex txHash a, toIndex txHash b] := by
    show put txHash (toIndex txHash a) (put txHash (toIndex txHash b) []) = _
    rw [put, put, if_pos hcmp]
  refine ⟨by simp only [toIndex_time]; decide, by simp only [toIndex_time]; decide, hpool, ?_,
    ?_⟩ <;>
  · simp only [d', DeferServer.deferTicker, hpool, deferTicker.pass]
    rw [if_pos (by simp only [toIndex_time]; decide)]

end Overflow

-- An entry refused with another error stays in the pool, but the pass runs past it and sets
-- `nextScheduleTime` to `MaxInt64`.
theorem deferTicker_unscheduled_entry (txHash : Tx → Hash) :
    let t : Tx := ⟨1541000000000000000, 1000000000, []⟩
    let d' := (newDeferServer txHash [t]).deferTicker txHash 1541000002000000000
      fun _ => .other "tx not found"
    d'.pool = [toIndex txHash t] ∧ d'.nextScheduleTime = maxInt64 ∧
      (toIndex txHash t).time < maxInt64 := by
  intro t d'
  refine ⟨?_, ?_, by simp only [toIndex_time]; decide⟩ <;>
  · simp only [d', DeferServer.deferTicker, newDeferServer, List.foldl, put, deferTicker.pass]
    rw [if_neg (by simp only [toIndex_time]; decide)]

end GoIost.TxPool
