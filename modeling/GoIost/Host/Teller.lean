import GoIost.Common.Int64
import Mathlib.Logic.Function.Basic
import Mathlib.Data.List.AList

namespace GoIost.Host

open Int64

-- One RAM charge of a `contract.Cost`: the account that pays it and the amount.
structure DataItem where
  payer : String
  val : Int64
deriving DecidableEq, Repr

-- `contract.Cost`, with the fields the teller reads. The type is declared outside this file.
structure Cost where
  data : Int64
  net : Int64
  cpu : Int64
  dataList : List DataItem
deriving DecidableEq, Repr

-- The token balances of the state store, by token name and then account: what
-- `db.TokenBalance(token, who)` reads and `db.SetTokenBalance` writes.
abbrev TokenBalances := String → String → Int64

def setTokenBalance (db : TokenBalances) (token who : String) (v : Int64) : TokenBalances :=
  Function.update db token (Function.update (db token) who v)

@[simp]
theorem setTokenBalance_apply (db : TokenBalances) (token who : String) (v : Int64) (t a : String) :
    setTokenBalance db token who v t a = if t = token ∧ a = who then v else db t a := by
  unfold setTokenBalance
  by_cases ht : t = token
  · subst ht; by_cases ha : a = who <;> simp [ha]
  · simp [ht]

@[simp]
theorem setTokenBalance_setTokenBalance (db : TokenBalances) (token who : String) (v w : Int64) :
    setTokenBalance (setTokenBalance db token who v) token who w =
      setTokenBalance db token who w := by
  funext t a
  simp only [setTokenBalance_apply]
  split_ifs <;> rfl

theorem setTokenBalance_comm (db : TokenBalances) (token : String) {who who' : String}
    (hne : who ≠ who') (v w : Int64) :
    setTokenBalance (setTokenBalance db token who v) token who' w =
      setTokenBalance (setTokenBalance db token who' w) token who v := by
  funext t a
  simp only [setTokenBalance_apply]
  split_ifs <;> simp_all

-- The errors `DoPay` returns, each with the values its `fmt.Errorf` prints:
-- "pay cost failed: %v, %v", "DoPay failed: contract %v has no owner" and
-- "pay ram failed. id: %v need %v, actual %v".
inductive PayError
  | payCostFailed (k err : String)
  | noOwner (k : String)
  | payRamFailed (id : String) (need actual : Int64)
deriving DecidableEq, Repr

section DoPay

-- What `DoPay` asks the host, none of it declared in this file: `Cost.ToGas`, `Host.CostGas`
-- (which charges the fee, in hundredths, to the account's gas), `Host.IsContract`, and the
-- `contract_owner` entry of the `system.iost` global map when it holds a string.
variable (toGas : Cost → Int64)
  (costGas : String → Int64 → TokenBalances → Except String TokenBalances)
  (isContract : String → Bool) (contractOwner : String → Option String) (gasRatio : Int64)

-- One iteration of `DoPay`'s loop, for the entry `(k, c)` of `h.cost`.
def payEntry (db : TokenBalances) : String × Cost → Except PayError TokenBalances
  | (k, c) => do
    let fee := gasRatio * toGas c
    let db ← if fee ≠ 0 then (costGas k fee db).mapError (PayError.payCostFailed k) else pure db
    -- contracts in the `iost` domain do not pay for RAM
    if k.endsWith ".iost" then pure db
    else
      let payer ← if isContract k then
          match contractOwner k with
          | some p => pure p
          | none => throw (PayError.noOwner k)
        else pure k
      let ram := c.data
      let currentRAM := db "ram" payer
      if currentRAM - ram < 0 then throw (PayError.payRamFailed payer ram currentRAM)
      else pure (setTokenBalance db "ram" payer (currentRAM - ram))

-- `DoPay`. Its loop ranges over the Go map `h.cost`, whose enumeration order is chosen at random
-- on every run: `cost` is the map's entries in the order of one enumeration.
def doPay (cost : List (String × Cost)) (db : TokenBalances) : Except PayError TokenBalances :=
  cost.foldlM (payEntry toGas costGas isContract contractOwner gasRatio) db

end DoPay

-- `contract.Cost.AddAssign` and `contract.Cost0`, which `PayCost` and the cost cache use.

/-- Modelled from the spec: `Cost.AddAssign`, whose code is not in the repository, adds the three
amounts with Go's `+` and appends the data items of `a` after those of `c`. -/
def Cost.addAssign (c a : Cost) : Cost :=
  ⟨c.data + a.data, c.net + a.net, c.cpu + a.cpu, c.dataList ++ a.dataList⟩

/-- Modelled from the spec: `contract.Cost0`, whose code is not in the repository, is the cost
with nothing charged, the zero value of `contract.Cost`. -/
def cost0 : Cost :=
  ⟨0, 0, 0, []⟩

attribute [ext] Cost

instance : Add Cost := ⟨Cost.addAssign⟩
instance : Zero Cost := ⟨cost0⟩

namespace Cost

@[simp] theorem addAssign_eq_add (c a : Cost) : c.addAssign a = c + a := rfl
@[simp] theorem add_data (c a : Cost) : (c + a).data = c.data + a.data := rfl
@[simp] theorem add_net (c a : Cost) : (c + a).net = c.net + a.net := rfl
@[simp] theorem add_cpu (c a : Cost) : (c + a).cpu = c.cpu + a.cpu := rfl
@[simp] theorem add_dataList (c a : Cost) : (c + a).dataList = c.dataList ++ a.dataList := rfl
@[simp] theorem zero_data : (0 : Cost).data = 0 := rfl
@[simp] theorem zero_net : (0 : Cost).net = 0 := rfl
@[simp] theorem zero_cpu : (0 : Cost).cpu = 0 := rfl
@[simp] theorem zero_dataList : (0 : Cost).dataList = [] := rfl

end Cost

@[simp] theorem cost0_eq_zero : cost0 = 0 := rfl

-- Costs under `AddAssign` form a monoid. It is not commutative: the data items keep their order.
instance : AddMonoid Cost where
  add_assoc a b c := Cost.ext (add_assoc ..) (add_assoc ..) (add_assoc ..) (List.append_assoc ..)
  zero_add a := Cost.ext (zero_add _) (zero_add _) (zero_add _) (List.nil_append _)
  add_zero a := Cost.ext (add_zero _) (add_zero _) (add_zero _) (List.append_nil _)
  nsmul := nsmulRec

/-- Modelled from the spec: `contract.NewCost`, whose code is not in the repository, is the cost
with the three amounts given and no data items. -/
def newCost (data net cpu : Int64) : Cost :=
  ⟨data, net, cpu, []⟩

-- A Go `map[string]contract.Cost`: at most one cost per account, in no particular order.
abbrev CostMap :=
  AList fun _ : String => Cost

-- `m[k]`: the cost of account `k`, the zero value where the map has no entry.
def costOf (m : CostMap) (k : String) : Cost :=
  (m.lookup k).getD cost0

-- `if oc, ok := m[k]; ok { oc.AddAssign(v); m[k] = oc } else { m[k] = v }`, the step of both
-- loops of `PayCost`.
def addCost (m : CostMap) (k : String) (v : Cost) : CostMap :=
  match m.lookup k with
  | some oc => m.insert k (oc.addAssign v)
  | none => m.insert k v

-- `costMap` in `PayCost`: the cost `c` split by account, its CPU and Net to `who` and each data
-- item to its payer.
def splitCost (c : Cost) (who : String) : CostMap :=
  c.dataList.foldl (fun costMap item => addCost costMap item.payer ⟨item.val, 0, 0, [item]⟩)
    (if 0 < c.cpu ∨ 0 < c.net then (∅ : CostMap).insert who ⟨0, c.net, c.cpu, []⟩ else ∅)

-- One iteration of the loop of `ClearRAMCosts`, for the entry `(k, c)` of `h.cost`: an account
-- whose Net or CPU is not zero keeps them in the new map, without its RAM.
def clearRAMEntry (newCostMap : CostMap) (e : Σ _ : String, Cost) : CostMap :=
  if e.2.net ≠ 0 ∨ e.2.cpu ≠ 0 then newCostMap.insert e.1 (newCost 0 e.2.net e.2.cpu)
  else newCostMap

-- `Teller`, without its host: the costs charged so far by account, and the cost held back in
-- `cacheCost` until it is flushed.
structure Teller where
  cost : CostMap
  cacheCost : Cost

-- `NewTeller`: an empty cost map, and `cacheCost` at its zero value.
def newTeller : Teller :=
  ⟨∅, cost0⟩

namespace Teller

-- `PayCost`. Its last loop ranges over the Go map `costMap`: `entries` is one enumeration, and as
-- the keys of a map are distinct the order does not change the result.
def payCost (t : Teller) (c : Cost) (who : String) : Teller :=
  { t with cost := (splitCost c who).entries.foldl (fun cost e => addCost cost e.1 e.2) t.cost }

-- `AddCacheCost`.
def addCacheCost (t : Teller) (c : Cost) : Teller :=
  { t with cacheCost := t.cacheCost.addAssign c }

-- `FlushCacheCost`: the cached cost is paid with no `who`, then the cache is reset.
def flushCacheCost (t : Teller) : Teller :=
  { t.payCost t.cacheCost "" with cacheCost := cost0 }

@[simp] theorem payCost_cacheCost (t : Teller) (c : Cost) (who : String) :
    (t.payCost c who).cacheCost = t.cacheCost := rfl
@[simp] theorem addCacheCost_cost (t : Teller) (c : Cost) : (t.addCacheCost c).cost = t.cost := rfl
@[simp] theorem addCacheCost_cacheCost (t : Teller) (c : Cost) :
    (t.addCacheCost c).cacheCost = t.cacheCost + c := rfl
@[simp] theorem flushCacheCost_cost (t : Teller) :
    t.flushCacheCost.cost = (t.payCost t.cacheCost "").cost := rfl
@[simp] theorem flushCacheCost_cacheCost (t : Teller) : t.flushCacheCost.cacheCost = 0 := rfl

-- `ClearCacheCost`.
def clearCacheCost (t : Teller) : Teller :=
  { t with cacheCost := cost0 }

-- `ClearRAMCosts`. The loop ranges over `h.cost` in one enumeration order, `entries`.
def clearRAMCosts (t : Teller) : Teller :=
  { t with cost := t.cost.entries.foldl clearRAMEntry ∅ }

-- `ClearCosts`.
def clearCosts (t : Teller) : Teller :=
  { t with cost := ∅ }

end Teller

end GoIost.Host
