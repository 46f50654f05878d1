import GoIost.Consensus.Confirm
import Mathlib.Logic.Function.Basic

namespace GoIost.Pob

open BlockCache

-- What the PoB loop keeps from one block to the next: the nodes of the block cache, its linked
-- root (the LIB) and `staticProperty.Watermark`. A node that `Flush` prunes stays allocated here
-- but no longer descends from the linked root, so no later block can be linked under it.
structure PobState where
  nodes : List BlockCacheNode
  linkedRoot : Hash
  watermark : String → Int

namespace PobState

-- The loop starts from one linked root, and from any watermark map.
def start (root : BlockCacheNode) (watermark : String → Int) : PobState :=
  ⟨[root], root.head.hash, watermark⟩

end PobState

-- `updateWaterMark`: the node takes its witness's watermark as `ConfirmUntil`, and the
-- watermark moves past the node's number if it is not already past it.
def updateWaterMark (watermark : String → Int) (node : BlockCacheNode) :
    BlockCacheNode × (String → Int) :=
  ({ node with confirmUntil := watermark node.head.witness },
    if node.head.number ≥ watermark node.head.witness then
      Function.update watermark node.head.witness (node.head.number + 1)
    else watermark)

/-- Modelled from the spec: `BlockCache.Flush`, whose code is not in the repository, moves the
linked root to `node` (and prunes the branches that do not descend from it). -/
def flush (s : PobState) (node : Hash) : PobState :=
  { s with linkedRoot := node }

def updateLib (numberOfWitnesses : Int64) (fuel : Nat) (s : PobState) (node : Hash) :
    Except WalkError PobState :=
  (calculateConfirm s.nodes numberOfWitnesses fuel node s.linkedRoot).map fun
    | some confirmedNode => flush s confirmedNode
    | none => s

/-- Modelled from the spec: the block cache's insertion of a block whose parent is linked, with
a zero `ConfirmUntil`, followed by `updateWaterMark` on the new node. -/
def PobState.addNode (s : PobState) (head : BlockHead) (parent : Hash) : PobState :=
  let (node, watermark) := updateWaterMark s.watermark ⟨head, some parent, 0⟩
  { s with nodes := node :: s.nodes, watermark }

-- One turn of the linking loop.
def linkBlock (numberOfWitnesses : Int64) (fuel : Nat) (s : PobState) (head : BlockHead)
    (parent : Hash) : Except WalkError PobState :=
  updateLib numberOfWitnesses fuel (s.addNode head parent) head.hash

-- A block is linked only after its parent, which descends from the linked root, with the number
-- after its parent's; `fuel` is any budget on which `calculateConfirm` returns.
inductive Link (numberOfWitnesses : Int64) (s : PobState) (head : BlockHead) (parent : Hash) :
    PobState → Prop
  | mk {pn : BlockCacheNode} {path : List BlockCacheNode} {fuel : Nat} {s' : PobState} :
      findNode s.nodes head.hash = none → findNode s.nodes parent = some pn →
      Chain s.nodes parent s.linkedRoot path → head.number = pn.head.number + 1 →
      linkBlock numberOfWitnesses fuel s head parent = .ok s' →
      Link numberOfWitnesses s head parent s'

inductive Reachable (numberOfWitnesses : Int64) (init : PobState) : PobState → Prop
  | init : Reachable numberOfWitnesses init init
  | link {s s' : PobState} {head : BlockHead} {parent : Hash} :
      Reachable numberOfWitnesses init s → Link numberOfWitnesses s head parent s' →
      Reachable numberOfWitnesses init s'

section Lemmas

variable {s : PobState} {head : BlockHead} {parent : Hash}

-- The node `addNode` links.
def PobState.linkedNode (s : PobState) (head : BlockHead) (parent : Hash) : BlockCacheNode :=
  ⟨head, some parent, s.watermark head.witness⟩

@[simp] theorem addNode_nodes :
    (s.addNode head parent).nodes = s.linkedNode head parent :: s.nodes := rfl

@[simp] theorem addNode_linkedRoot : (s.addNode head parent).linkedRoot = s.linkedRoot := rfl

theorem addNode_watermark :
    (s.addNode head parent).watermark =
      if head.number ≥ s.watermark head.witness then
        Function.update s.watermark head.witness (head.number + 1)
      else s.watermark := rfl

@[simp] theorem linkedNode_head : (s.linkedNode head parent).head = head := rfl

@[simp] theorem linkedNode_confirmUntil :
    (s.linkedNode head parent).confirmUntil = s.watermark head.witness := rfl

theorem watermark_le_addNode (w : String) :
    s.watermark w ≤ (s.addNode head parent).watermark w := by
  rw [addNode_watermark]
  split_ifs with h
  · by_cases hw : w = head.witness
    · subst hw; simp; omega
    · simp [hw]
  · exact Int.le_refl _

-- The watermark of the new node's witness is past the new node.
theorem number_lt_addNode_watermark :
    head.number < (s.addNode head parent).watermark head.witness := by
  rw [addNode_watermark]
  split_ifs with h
  · simp only [Function.update_same]; omega
  · omega

theorem linkBlock_ok {numberOfWitnesses : Int64} {fuel : Nat} {s' : PobState}
    (h : linkBlock numberOfWitnesses fuel s head parent = .ok s') :
    ∃ r, calculateConfirm (s.addNode head parent).nodes numberOfWitnesses fuel head.hash
        s.linkedRoot = .ok r ∧
      s' = { s.addNode head parent with linkedRoot := r.getD s.linkedRoot } := by
  unfold linkBlock updateLib at h
  cases hc : calculateConfirm (s.addNode head parent).nodes numberOfWitnesses fuel head.hash
    (s.addNode head parent).linkedRoot with
  | error e => rw [hc] at h; cases h
  | ok r =>
    rw [hc] at h
    refine ⟨r, hc, ?_⟩
    cases r <;> cases h <;> rfl

end Lemmas

end GoIost.Pob
