import GoIost.BlockCache.Node
import GoIost.Common.Int64

namespace GoIost.Pob

open BlockCache

-- `confirmUntilMap[k]++` on a Go map, whose missing keys read as zero.
def bump (m : Int → Int) (k : Int) : Int → Int :=
  fun v => if v = k then m v + 1 else m v

-- `NumberOfWitnesses*2/3 + 1`, in `int64` arithmetic.
def confirmLimit (numberOfWitnesses : Int64) : Int :=
  (numberOfWitnesses * 2 / 3 + 1).toInt

-- Below `2^62` witnesses nothing wraps: the limit is the two-thirds majority `⌊2N/3⌋ + 1`.
theorem confirmLimit_eq {N : Int64} (h0 : 0 ≤ N.toInt) (h : N.toInt < 2 ^ 62) :
    confirmLimit N = N.toInt * 2 / 3 + 1 := by
  have h2 : (2 : Int64).toInt = 2 := Int64.toInt_ofNat_of_lt (by decide)
  have h3 : (3 : Int64).toInt = 3 := Int64.toInt_ofNat_of_lt (by decide)
  have hmul : (N * 2).toInt = N.toInt * 2 :=
    Int64.toInt_mul_of_inRange (by rw [h2]; constructor <;> omega)
  have hdiv : (N * 2 / 3).toInt = N.toInt * 2 / 3 := by
    rw [Int64.toInt_div_of_nonneg (by omega) (by rw [h3]; decide), hmul, h3]
  have := Int.ediv_le_self 3 (show 0 ≤ N.toInt * 2 by omega)
  rw [confirmLimit,
    Int64.toInt_add_of_inRange (by rw [hdiv, Int64.toInt_one]; constructor <;> omega), hdiv,
    Int64.toInt_one]

section

variable (nodes : List BlockCacheNode) (limit : Int) (root : Hash)

-- One iteration of `for node != root` per unit of fuel. `confirmNum` and `confirmUntilMap` are
-- counters over the nodes of one path, which stay far below `2^63`, so they are kept as `Int`.
def calculateConfirm.loop : Nat → Hash → Int → (Int → Int) → Except WalkError (Option Hash)
  | 0, _, _, _ => .error .outOfFuel
  | fuel + 1, node, confirmNum, confirmUntilMap =>
    if node = root then .ok none
    else
      match findNode nodes node with
      | none => .error .nilDeref
      | some n =>
        let counted := decide (n.confirmUntil ≤ n.head.number)
        let confirmNum := if counted then confirmNum + 1 else confirmNum
        let confirmUntilMap :=
          if counted then bump confirmUntilMap n.confirmUntil else confirmUntilMap
        if limit ≤ confirmNum then .ok (some node)
        else
          match n.parent with
          | none => .error .nilDeref
          | some p => loop fuel p (confirmNum - confirmUntilMap n.head.number) confirmUntilMap

end

def calculateConfirm (nodes : List BlockCacheNode) (numberOfWitnesses : Int64) (fuel : Nat)
    (node root : Hash) : Except WalkError (Option Hash) :=
  calculateConfirm.loop nodes (confirmLimit numberOfWitnesses) root fuel node 0 fun _ => 0

-- What the walk is meant to find, stated over the path from `node` down to `root`: the blocks
-- at or above `x` whose `ConfirmUntil` is at most `x`'s number ...
def confirmCount (path : List BlockCacheNode) (x : BlockCacheNode) : Nat :=
  path.countP fun b => decide (x.head.number ≤ b.head.number ∧ b.confirmUntil ≤ x.head.number)

-- ... and the highest node of the path that `limit` of them confirm.
def confirmedNode (limit : Int) (path : List BlockCacheNode) : Option BlockCacheNode :=
  path.find? fun x => decide (limit ≤ confirmCount path x)

end GoIost.Pob
