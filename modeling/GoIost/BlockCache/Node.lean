import Mathlib.Data.List.Basic

namespace GoIost

-- Head hashes identify blocks, and the block cache keys its nodes by them.
abbrev Hash := List UInt8

-- The fields of `block.BlockHead` that consensus reads. Block numbers are kept as `Int`: they start
-- at genesis and grow by one per block, far from the bounds of `int64`.
structure BlockHead where
  hash : Hash
  number : Int
  witness : String
deriving DecidableEq, Repr

-- `blockcache.BlockCacheNode`: a block, the link to its parent (`nil` is `none`) and the
-- `ConfirmUntil` that `updateWaterMark` gives it when it is linked.
structure BlockCacheNode where
  head : BlockHead
  parent : Option Hash
  confirmUntil : Int
deriving DecidableEq, Repr

-- How a walk over parent links can end without returning: a nil `Parent` is dereferenced, or the
-- model's step budget is spent (the Go loop itself has none).
inductive WalkError
  | nilDeref
  | outOfFuel
deriving DecidableEq, Repr

namespace BlockCache

-- The allocated nodes, found by head hash. A pointer of the Go code is the hash of the node it
-- points to; a hash that finds nothing stands for `nil`.
def findNode (nodes : List BlockCacheNode) (h : Hash) : Option BlockCacheNode :=
  nodes.find? fun n => decide (n.head.hash = h)

variable {nodes : List BlockCacheNode} {h : Hash} {n : BlockCacheNode}

theorem findNode_hash (hf : findNode nodes h = some n) : n.head.hash = h := by
  simpa using List.find?_some hf

theorem findNode_cons (m : BlockCacheNode) :
    findNode (m :: nodes) h = if m.head.hash = h then some m else findNode nodes h := by
  by_cases hm : m.head.hash = h <;> simp [findNode, List.find?_cons, hm]

theorem findNode_cons_of_ne {m : BlockCacheNode} (hm : m.head.hash ≠ h) :
    findNode (m :: nodes) h = findNode nodes h := by
  rw [findNode_cons, if_neg hm]

-- `Chain nodes h r path`: following `Parent` from `h` reaches `r`, passing the nodes of `path`
-- (`r` excluded), each numbered one above its parent.
inductive Chain (nodes : List BlockCacheNode) : Hash → Hash → List BlockCacheNode → Prop
  | root (r : Hash) : Chain nodes r r []
  | cons {h p r : Hash} {n pn : BlockCacheNode} {path : List BlockCacheNode} :
      h ≠ r → findNode nodes h = some n → n.parent = some p → findNode nodes p = some pn →
      n.head.number = pn.head.number + 1 → Chain nodes p r path → Chain nodes h r (n :: path)

namespace Chain

variable {r : Hash} {path : List BlockCacheNode}

theorem find_mem (hc : Chain nodes h r path) {b : BlockCacheNode} (hb : b ∈ path) :
    findNode nodes b.head.hash = some b := by
  induction hc with
  | root => cases hb
  | cons _ hn _ _ _ _ ih =>
    rcases List.mem_cons.mp hb with rfl | hb
    · rwa [findNode_hash hn]
    · exact ih hb

theorem hash_ne_root (hc : Chain nodes h r path) {b : BlockCacheNode} (hb : b ∈ path) :
    b.head.hash ≠ r := by
  induction hc with
  | root => cases hb
  | cons hne hn _ _ _ _ ih =>
    rcases List.mem_cons.mp hb with rfl | hb
    · rwa [findNode_hash hn]
    · exact ih hb

theorem head_find (hc : Chain nodes h r (n :: path)) : findNode nodes h = some n := by
  cases hc with
  | cons _ hn => exact hn

theorem root_find (hc : Chain nodes h r (n :: path)) : ∃ rn, findNode nodes r = some rn := by
  generalize hl : n :: path = l at hc
  induction hc generalizing n path with
  | root => cases hl
  | cons _ _ _ hp _ hc' ih =>
    cases hc' with
    | root => exact ⟨_, hp⟩
    | cons => exact ih rfl

theorem number_le_head (hc : Chain nodes h r path) {hn : BlockCacheNode}
    (hh : findNode nodes h = some hn) : ∀ b ∈ path, b.head.number ≤ hn.head.number := by
  induction hc generalizing hn with
  | root => simp
  | cons _ hn' _ hp hnum _ ih =>
    cases hh.symm.trans hn'
    intro b hb
    rcases List.mem_cons.mp hb with rfl | hb
    · exact Int.le_refl _
    · have := ih hp b hb; omega

theorem root_lt (hc : Chain nodes h r path) {rn : BlockCacheNode}
    (hr : findNode nodes r = some rn) : ∀ b ∈ path, rn.head.number < b.head.number := by
  induction hc with
  | root => simp
  | @cons h p r n pn path' _ _ _ hp hnum hc' ih =>
    have hpn : rn.head.number ≤ pn.head.number := by
      cases path' with
      | nil => cases hc'; cases hr.symm.trans hp; exact Int.le_refl _
      | cons =>
        cases hp.symm.trans hc'.head_find
        exact Int.le_of_lt (ih hr _ (List.mem_cons_self _ _))
    intro b hb
    rcases List.mem_cons.mp hb with rfl | hb
    · omega
    · exact ih hr b hb

-- Numbers strictly decrease along a chain, so its nodes are pairwise distinct.
theorem pairwise_number (hc : Chain nodes h r path) :
    path.Pairwise fun a b => b.head.number < a.head.number := by
  induction hc with
  | root => exact List.Pairwise.nil
  | cons _ _ _ hp hnum hc' ih =>
    refine List.Pairwise.cons (fun b hb => ?_) ih
    have := hc'.number_le_head hp b hb
    omega

-- Allocating a node under a fresh hash keeps every existing chain.
theorem cons_fresh (hc : Chain nodes h r path) {m : BlockCacheNode}
    (hm : findNode nodes m.head.hash = none) : Chain (m :: nodes) h r path := by
  have fresh : ∀ {x b}, findNode nodes x = some b → m.head.hash ≠ x := by
    rintro x b hx rfl; simp [hm] at hx
  induction hc with
  | root => exact .root _
  | cons hne hn hpar hp hnum _ ih =>
    exact .cons hne (by rwa [findNode_cons_of_ne (fresh hn)]) hpar
      (by rwa [findNode_cons_of_ne (fresh hp)]) hnum ih

end Chain

end BlockCache

end GoIost
