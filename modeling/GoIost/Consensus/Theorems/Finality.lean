import GoIost.Consensus.Theorems.Lib

namespace GoIost.BlockCache

variable {nodes : List BlockCacheNode} {h r : Hash} {path : List BlockCacheNode}

-- `p` is the `Parent` of the node allocated under `h`.
def ParentLink (nodes : List BlockCacheNode) (h p : Hash) : Prop :=
  ∃ n, findNode nodes h = some n ∧ n.parent = some p

theorem ParentLink.cons_fresh {m : BlockCacheNode} (hm : findNode nodes m.head.hash = none)
    {x p : Hash} (hl : ParentLink nodes x p) : ParentLink (m :: nodes) x p :=
  let ⟨n, hn, hp⟩ := hl
  ⟨n, by rw [findNode_cons_of_ne (by rintro rfl; simp [hm] at hn)]; exact hn, hp⟩

theorem Chain.descends (hc : Chain nodes h r path) :
    Relation.ReflTransGen (ParentLink nodes) h r := by
  induction hc with
  | root => exact .refl
  | cons _ hn hp _ _ _ ih => exact .head ⟨_, hn, hp⟩ ih

theorem Chain.descends_of_mem (hc : Chain nodes h r path) {b : BlockCacheNode} (hb : b ∈ path) :
    Relation.ReflTransGen (ParentLink nodes) b.head.hash r := by
  induction hc with
  | root => cases hb
  | cons _ hn hp _ _ hc' ih =>
    rcases List.mem_cons.mp hb with rfl | hb
    · rw [findNode_hash hn]; exact .head ⟨_, hn, hp⟩ hc'.descends
    · exact ih hb

end GoIost.BlockCache

namespace GoIost.Pob

open BlockCache

variable {numberOfWitnesses : Int64} {s s' : PobState} {head : BlockHead} {parent : Hash}

theorem Link.descends (hl : Link numberOfWitnesses s head parent s') :
    (∀ {x p}, ParentLink s.nodes x p → ParentLink s'.nodes x p) ∧
      Relation.ReflTransGen (ParentLink s'.nodes) s'.linkedRoot s.linkedRoot := by
  obtain ⟨path, hfresh, hc, rfl⟩ := hl.spec
  refine ⟨fun hl => hl.cons_fresh hfresh, ?_⟩
  cases hx : confirmedNode (confirmLimit numberOfWitnesses) (s.linkedNode head parent :: path) with
  | none => exact .refl
  | some xn => exact hc.descends_of_mem (confirmedNode_some hc.pairwise_number hx).1

theorem Link.root_number_le (hl : Link numberOfWitnesses s head parent s') {rn : BlockCacheNode}
    (hrn : findNode s.nodes s.linkedRoot = some rn) :
    ∃ rn', findNode s'.nodes s'.linkedRoot = some rn' ∧ rn.head.number ≤ rn'.head.number := by
  obtain ⟨path, hfresh, hc, rfl⟩ := hl.spec
  have hrn' : findNode (s.addNode head parent).nodes s.linkedRoot = some rn := by
    rw [addNode_nodes, findNode_cons_of_ne fun he => by simp [← he, hfresh] at hrn]
    exact hrn
  cases hx : confirmedNode (confirmLimit numberOfWitnesses) (s.linkedNode head parent :: path) with
  | none => exact ⟨rn, hrn', Int.le_refl _⟩
  | some xn =>
    have hmem := (confirmedNode_some hc.pairwise_number hx).1
    exact ⟨xn, hc.find_mem hmem, Int.le_of_lt (hc.root_lt hrn' xn hmem)⟩

-- Over every run of the linking loop, `updateLib` moves the LIB only up the chain it is on.
theorem run_linkedRoot_descends {s₀ : PobState} (hs : Reachable numberOfWitnesses s₀ s) :
    Relation.ReflTransGen (ParentLink s.nodes) s.linkedRoot s₀.linkedRoot := by
  induction hs with
  | init => exact .refl
  | link _ hl ih =>
    have ⟨keep, moved⟩ := hl.descends
    exact moved.trans (ih.mono fun _ _ => keep)

set_option maxRecDepth 2000 in
theorem run_linkedRoot_descends_first_block :
    let g : BlockCacheNode := ⟨⟨[0], 0, "g"⟩, none, 0⟩
    let head : BlockHead := ⟨[1], 1, "w"⟩
    let s := PobState.start g fun _ => 0
    let s' : PobState := { s.addNode head [0] with linkedRoot := [1] }
    Relation.ReflTransGen (ParentLink s'.nodes) s'.linkedRoot s.linkedRoot := by
  intro g head s s'
  exact run_linkedRoot_descends
    (.link .init (@Link.mk 1 s head [0] g [] 2 s' rfl rfl (.root _) (by decide) rfl))

-- Over every run of the linking loop, the linked root stays in the cache and its number never
-- decreases.
theorem run_linkedRoot_number_mono {s₀ : PobState} (hs : Reachable numberOfWitnesses s₀ s)
    {r₀ : BlockCacheNode} (h₀ : findNode s₀.nodes s₀.linkedRoot = some r₀) :
    ∃ r, findNode s.nodes s.linkedRoot = some r ∧ r₀.head.number ≤ r.head.number := by
  induction hs with
  | init => exact ⟨r₀, h₀, Int.le_refl _⟩
  | link _ hl ih =>
    obtain ⟨r, hr, hle⟩ := ih
    obtain ⟨r', hr', hle'⟩ := hl.root_number_le hr
    exact ⟨r', hr', Int.le_trans hle hle'⟩

set_option maxRecDepth 2000 in
theorem run_linkedRoot_number_mono_first_block :
    let g : BlockCacheNode := ⟨⟨[0], 0, "g"⟩, none, 0⟩
    let head : BlockHead := ⟨[1], 1, "w"⟩
    let s := PobState.start g fun _ => 0
    let s' : PobState := { s.addNode head [0] with linkedRoot := [1] }
    findNode s.nodes s.linkedRoot = some g ∧
      ∃ r, findNode s'.nodes s'.linkedRoot = some r ∧ g.head.number ≤ r.head.number := by
  intro g head s s'
  exact ⟨by decide, run_linkedRoot_number_mono
    (.link .init (@Link.mk 1 s head [0] g [] 2 s' rfl rfl (.root _) (by decide) rfl)) (by decide)⟩

end GoIost.Pob
