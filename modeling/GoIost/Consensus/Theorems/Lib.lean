import GoIost.Consensus.Lib
import GoIost.Consensus.Theorems.Confirm
import Mathlib.Data.List.Nodup

namespace GoIost.Pob

open BlockCache

-- The invariant of the linking loop from the linked root `g`: every block linked since is below
-- its witness's watermark, and a witness's later block confirms past its earlier one.
structure LinkInv (g : BlockCacheNode) (s : PobState) : Prop where
  start : findNode s.nodes g.head.hash = some g
  root : ∃ rn, findNode s.nodes s.linkedRoot = some rn ∧ g.head.number ≤ rn.head.number
  below : ∀ b ∈ s.nodes, b.head.hash ≠ g.head.hash → b.head.number < s.watermark b.head.witness
  apart : ∀ b₁ ∈ s.nodes, ∀ b₂ ∈ s.nodes, b₁.head.hash ≠ g.head.hash →
    b₂.head.hash ≠ g.head.hash → b₁.head.hash ≠ b₂.head.hash →
    b₁.head.witness = b₂.head.witness →
    b₁.head.number < b₂.confirmUntil ∨ b₂.head.number < b₁.confirmUntil

-- `limit` distinct witnesses signed blocks of `path` at or above `x` confirming up to `x`.
def ConfirmedBy (limit : Int) (path : List BlockCacheNode) (x : BlockCacheNode) : Prop :=
  ∃ ws : List String, ws.Nodup ∧ limit ≤ ws.length ∧
    ∀ w ∈ ws, ∃ b ∈ path, b.head.witness = w ∧ x.head.number ≤ b.head.number ∧
      b.confirmUntil ≤ x.head.number

theorem mem_of_find {nodes : List BlockCacheNode} {h root : Hash} {path : List BlockCacheNode}
    {b : BlockCacheNode} (hc : Chain nodes h root path) (hb : b ∈ path) : b ∈ nodes :=
  List.mem_of_find?_eq_some (hc.find_mem hb)

namespace LinkInv

variable {g : BlockCacheNode} {s : PobState} {head : BlockHead} {parent : Hash}

theorem init (watermark : String → Int) : LinkInv g (PobState.start g watermark) where
  start := by simp [PobState.start, findNode]
  root := ⟨g, by simp [PobState.start, findNode], Int.le_refl _⟩
  below b hb hg := by simp [PobState.start] at hb; exact absurd (congrArg (·.head.hash) hb) hg
  apart b₁ hb₁ _ _ hg _ _ _ := by
    simp [PobState.start] at hb₁; exact absurd (congrArg (·.head.hash) hb₁) hg

theorem addNode (hi : LinkInv g s) (hfresh : findNode s.nodes head.hash = none) :
    LinkInv g (s.addNode head parent) := by
  have fresh : ∀ {x b}, findNode s.nodes x = some b → head.hash ≠ x := by
    rintro x b hx rfl; simp [hfresh] at hx
  have wm := @watermark_le_addNode s head parent
  obtain ⟨rn, hrn, hle⟩ := hi.root
  refine ⟨?_, ⟨rn, ?_, hle⟩, ?_, ?_⟩
  · rw [addNode_nodes, findNode_cons_of_ne (by simpa using fresh hi.start)]; exact hi.start
  · rw [addNode_nodes, addNode_linkedRoot, findNode_cons_of_ne (by simpa using fresh hrn)]
    exact hrn
  · intro b hb hg
    rcases List.mem_cons.mp (addNode_nodes ▸ hb) with rfl | hb
    · exact number_lt_addNode_watermark
    · exact Int.lt_of_lt_of_le (hi.below b hb hg) (wm _)
  · have old : ∀ b ∈ s.nodes, b.head.hash ≠ g.head.hash → b.head.witness = head.witness →
        b.head.number < (s.linkedNode head parent).confirmUntil := fun b hb hg hw => by
      simpa [hw] using hi.below b hb hg
    intro b₁ hb₁ b₂ hb₂ hg₁ hg₂ hne hw
    rcases List.mem_cons.mp (addNode_nodes ▸ hb₁) with rfl | hb₁ <;>
      rcases List.mem_cons.mp (addNode_nodes ▸ hb₂) with rfl | hb₂
    · exact absurd rfl hne
    · exact .inr (old b₂ hb₂ hg₂ hw.symm)
    · exact .inl (old b₁ hb₁ hg₁ hw)
    · exact hi.apart b₁ hb₁ b₂ hb₂ hg₁ hg₂ hne hw

theorem flush (hi : LinkInv g s) {x : Hash} {xn : BlockCacheNode}
    (hx : findNode s.nodes x = some xn) (hxn : g.head.number ≤ xn.head.number) :
    LinkInv g (flush s x) :=
  ⟨hi.start, ⟨xn, hx, hxn⟩, hi.below, hi.apart⟩

theorem confirmedBy_of_count {h root : Hash} {path : List BlockCacheNode} {rn x : BlockCacheNode}
    {limit : Int} (hi : LinkInv g s) (hc : Chain s.nodes h root path)
    (hrn : findNode s.nodes root = some rn) (hg : g.head.number ≤ rn.head.number)
    (hcount : limit ≤ confirmCount path x) : ConfirmedBy limit path x := by
  have not_start : ∀ b ∈ path, b.head.hash ≠ g.head.hash := fun b hb he => by
    have := hc.root_lt hrn b hb
    cases (he ▸ hc.find_mem hb).symm.trans hi.start
    omega
  have hnodup : path.Nodup := hc.pairwise_number.imp fun hab e => by subst e; omega
  refine ⟨(path.filter fun b => decide (x.head.number ≤ b.head.number ∧
      b.confirmUntil ≤ x.head.number)).map (·.head.witness),
    (hnodup.filter _).map_on fun a ha b hb hw => ?_, ?_, fun w hw => ?_⟩
  · simp only [List.mem_filter, decide_eq_true_eq] at ha hb
    by_contra hab
    have hne : a.head.hash ≠ b.head.hash := fun he =>
      hab (Option.some.inj ((hc.find_mem ha.1).symm.trans (he ▸ hc.find_mem hb.1)))
    rcases hi.apart a (mem_of_find hc ha.1) b (mem_of_find hc hb.1) (not_start a ha.1)
      (not_start b hb.1) hne hw with h | h <;> omega
  · rwa [List.length_map, ← List.countP_eq_length_filter]
  · obtain ⟨b, hb, rfl⟩ := List.mem_map.mp hw
    simp only [List.mem_filter, decide_eq_true_eq] at hb
    exact ⟨b, hb.1, rfl, hb.2⟩

end LinkInv

namespace Link

variable {numberOfWitnesses : Int64} {s s' : PobState} {head : BlockHead} {parent : Hash}

theorem spec (hl : Link numberOfWitnesses s head parent s') :
    ∃ path, findNode s.nodes head.hash = none ∧
      Chain (s.addNode head parent).nodes head.hash s.linkedRoot
        (s.linkedNode head parent :: path) ∧
      s' = { s.addNode head parent with
        linkedRoot := ((confirmedNode (confirmLimit numberOfWitnesses)
          (s.linkedNode head parent :: path)).map (·.head.hash)).getD s.linkedRoot } := by
  obtain @⟨pn, path, fuel, _, hfresh, hp, hc, hnum, hok⟩ := hl
  obtain ⟨r, hr, rfl⟩ := linkBlock_ok hok
  have fresh : ∀ {x b}, findNode s.nodes x = some b → head.hash ≠ x := by
    rintro x b hx rfl; simp [hfresh] at hx
  have ⟨rn, hrn⟩ : ∃ rn, findNode s.nodes s.linkedRoot = some rn := by
    cases hc with
    | root => exact ⟨pn, hp⟩
    | cons _ _ _ _ _ hc' => exact (Chain.cons ‹_› ‹_› ‹_› ‹_› ‹_› hc').root_find
  have hchain : Chain (s.addNode head parent).nodes head.hash s.linkedRoot
      (s.linkedNode head parent :: path) :=
    .cons (fresh hrn) (by simp [findNode_cons]) rfl
      (by rw [addNode_nodes, findNode_cons_of_ne (fresh hp)]; exact hp) hnum
      (hc.cons_fresh hfresh)
  exact ⟨path, hfresh, hchain, by rw [← calculateConfirm_of_ok hchain hr]⟩

end Link


section Run

variable {numberOfWitnesses : Int64} {g : BlockCacheNode} {s s' : PobState} {head : BlockHead}
  {parent : Hash}

theorem LinkInv.link (hi : LinkInv g s) (hl : Link numberOfWitnesses s head parent s') :
    LinkInv g s' := by
  obtain ⟨path, hfresh, hc, rfl⟩ := hl.spec
  have hi1 : LinkInv g (s.addNode head parent) := hi.addNode hfresh
  cases hx : confirmedNode (confirmLimit numberOfWitnesses) (s.linkedNode head parent :: path) with
  | none => exact hi1
  | some xn =>
    obtain ⟨hmem, -, -⟩ := confirmedNode_some hc.pairwise_number hx
    obtain ⟨rn, hrn, hg⟩ := hi1.root
    have := hc.root_lt hrn xn hmem
    exact hi1.flush (hc.find_mem hmem) (by omega)

theorem LinkInv.reachable {watermark : String → Int}
    (hs : Reachable numberOfWitnesses (PobState.start g watermark) s) : LinkInv g s := by
  induction hs with
  | init => exact LinkInv.init watermark
  | link _ hl ih => exact ih.link hl

-- Each turn of the linking loop: watermarks never decrease, and `updateLib` moves the linked root
-- only to a node of the new block's chain that `confirmLimit` distinct witnesses confirmed.
theorem link_confirms {watermark : String → Int}
    (hs : Reachable numberOfWitnesses (PobState.start g watermark) s)
    (hl : Link numberOfWitnesses s head parent s') :
    (∀ w, s.watermark w ≤ s'.watermark w) ∧
    (∃ n, findNode s'.nodes head.hash = some n ∧
      ∀ b ∈ s.nodes, b.head.hash ≠ g.head.hash → b.head.witness = head.witness →
        b.head.number < n.confirmUntil) ∧
    (s'.linkedRoot ≠ s.linkedRoot →
      ∃ path xn rn, Chain s'.nodes head.hash s.linkedRoot path ∧ xn ∈ path ∧
        findNode s'.nodes s'.linkedRoot = some xn ∧ findNode s'.nodes s.linkedRoot = some rn ∧
        rn.head.number < xn.head.number ∧
        ConfirmedBy (confirmLimit numberOfWitnesses) path xn) := by
  have hi := LinkInv.reachable hs
  obtain ⟨path, hfresh, hc, rfl⟩ := hl.spec
  have hi1 : LinkInv g (s.addNode head parent) := hi.addNode hfresh
  refine ⟨watermark_le_addNode, ⟨_, hc.head_find, fun b hb hg hw => ?_⟩, fun hmove => ?_⟩
  · simpa [hw] using hi.below b hb hg
  · cases hx :
      confirmedNode (confirmLimit numberOfWitnesses) (s.linkedNode head parent :: path) with
    | none => simp [hx] at hmove
    | some xn =>
      obtain ⟨hmem, hcount, -⟩ := confirmedNode_some hc.pairwise_number hx
      obtain ⟨rn, hrn, hg⟩ := hi1.root
      exact ⟨_, xn, rn, hc, hmem, by simpa [hx] using hc.find_mem hmem, hrn,
        hc.root_lt hrn xn hmem, hi1.confirmedBy_of_count hc hrn hg hcount⟩

set_option maxRecDepth 2000 in
theorem link_confirms_first_block :
    let g : BlockCacheNode := ⟨⟨[0], 0, "g"⟩, none, 0⟩
    let head : BlockHead := ⟨[1], 1, "w"⟩
    let s := PobState.start g fun _ => 0
    let s' : PobState := { s.addNode head [0] with linkedRoot := [1] }
    (∀ w, s.watermark w ≤ s'.watermark w) ∧
    (∃ n, findNode s'.nodes head.hash = some n ∧
      ∀ b ∈ s.nodes, b.head.hash ≠ g.head.hash → b.head.witness = head.witness →
        b.head.number < n.confirmUntil) ∧
    (s'.linkedRoot ≠ s.linkedRoot →
      ∃ path xn rn, Chain s'.nodes head.hash s.linkedRoot path ∧ xn ∈ path ∧
        findNode s'.nodes s'.linkedRoot = some xn ∧ findNode s'.nodes s.linkedRoot = some rn ∧
        rn.head.number < xn.head.number ∧ ConfirmedBy (confirmLimit 1) path xn) :=
  by
  intro g head s s'
  exact link_confirms .init (@Link.mk 1 s head [0] g [] 2 s' rfl rfl (.root _) (by decide) rfl)

end Run

end GoIost.Pob
