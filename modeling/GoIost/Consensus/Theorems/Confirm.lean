import GoIost.Consensus.Confirm

namespace GoIost.Pob

open BlockCache

theorem countP_confirmUntil_le (l : List BlockCacheNode) (k : Int) :
    l.countP (fun b => decide (b.confirmUntil ≤ k)) =
      l.countP (fun b => decide (b.confirmUntil ≤ k - 1)) +
        l.countP (fun b => decide (b.confirmUntil = k)) := by
  induction l with
  | nil => rfl
  | cons b l ih => simp only [List.countP_cons, ih, decide_eq_true_eq]; split_ifs <;> omega

-- The counters of `calculateConfirm` on arriving at a node numbered `k`, the nodes `done` walked.
structure WalkInv (done : List BlockCacheNode) (k confirmNum : Int) (confirmUntilMap : Int → Int) :
    Prop where
  num : confirmNum = done.countP fun b => decide (b.confirmUntil ≤ k)
  map : ∀ v ≤ k, confirmUntilMap v = done.countP fun b => decide (b.confirmUntil = v)
  above : ∀ b ∈ done, k < b.head.number

namespace WalkInv

variable {done rest : List BlockCacheNode} {n : BlockCacheNode} {c : Int} {m : Int → Int}

theorem nil : WalkInv [] k 0 fun _ => 0 :=
  ⟨rfl, fun _ _ => rfl, fun _ h => nomatch h⟩

theorem confirmNum_eq (hw : WalkInv done n.head.number c m)
    (hrest : ∀ b ∈ rest, b.head.number < n.head.number) :
    (if n.confirmUntil ≤ n.head.number then c + 1 else c) =
      confirmCount (done ++ n :: rest) n := by
  have hdone : confirmCount done n = done.countP fun b => decide (b.confirmUntil ≤ n.head.number) :=
    List.countP_congr fun b hb => by simp [Int.le_of_lt (hw.above b hb)]
  have hrest : confirmCount rest n = 0 :=
    List.countP_eq_zero.mpr fun b hb => by simp [Int.not_le.mpr (hrest b hb)]
  simp only [confirmCount] at hdone hrest
  simp only [confirmCount, List.countP_append, List.countP_cons, hdone, hrest, hw.num]
  by_cases hc : n.confirmUntil ≤ n.head.number <;> simp [hc]

theorem step (hw : WalkInv done n.head.number c m) :
    WalkInv (done ++ [n]) (n.head.number - 1)
      ((if n.confirmUntil ≤ n.head.number then c + 1 else c) -
        (if n.confirmUntil ≤ n.head.number then bump m n.confirmUntil else m) n.head.number)
      (if n.confirmUntil ≤ n.head.number then bump m n.confirmUntil else m) where
  num := by
    have hsplit := countP_confirmUntil_le done n.head.number
    have hk := hw.map n.head.number (Int.le_refl _)
    simp only [List.countP_append, List.countP_singleton, hw.num, bump, decide_eq_true_eq]
    by_cases hc : n.confirmUntil ≤ n.head.number
    · by_cases he : n.head.number = n.confirmUntil
      · simp only [if_pos hc, bump, if_pos he,
          if_neg (show ¬n.confirmUntil ≤ n.head.number - 1 by omega)]
        omega
      · simp only [if_pos hc, bump, if_neg he,
          if_pos (show n.confirmUntil ≤ n.head.number - 1 by omega)]
        omega
    · simp only [if_neg hc, if_neg (show ¬n.confirmUntil ≤ n.head.number - 1 by omega)]
      omega
  map v hv := by
    have := hw.map v (by omega)
    simp only [List.countP_append, List.countP_singleton, decide_eq_true_eq]
    by_cases hc : n.confirmUntil ≤ n.head.number
    · simp only [if_pos hc, bump]
      split_ifs <;> omega
    · simp only [if_neg hc, if_neg (show n.confirmUntil ≠ v by omega)]
      omega
  above b hb := by
    rcases List.mem_append.mp hb with hb | hb
    · have := hw.above b hb; omega
    · simp only [List.mem_singleton] at hb; subst hb; omega

end WalkInv

section Walk

variable {nodes : List BlockCacheNode} {limit : Int} {root : Hash}

theorem loop_eq {h : Hash} {rest done : List BlockCacheNode} {c : Int} {m : Int → Int}
    {fuel : Nat} (hc : Chain nodes h root rest) (hf : rest.length < fuel)
    (hdone : ∀ x ∈ done, ¬limit ≤ confirmCount (done ++ rest) x)
    (hw : ∀ n ∈ rest.head?, WalkInv done n.head.number c m) :
    calculateConfirm.loop nodes limit root fuel h c m =
      .ok ((rest.find? fun x => decide (limit ≤ confirmCount (done ++ rest) x)).map
        (·.head.hash)) := by
  obtain ⟨fuel, rfl⟩ : ∃ f, fuel = f + 1 := ⟨fuel - 1, by omega⟩
  induction hc generalizing done c m fuel with
  | root => simp [calculateConfirm.loop]
  | @cons h p _ n pn path hne hn hpar hp hnum hc' ih =>
    have hwn := hw n rfl
    have hbelow : ∀ b ∈ path, b.head.number < n.head.number := fun b hb => by
      have := hc'.number_le_head hp b hb; omega
    have hcount := hwn.confirmNum_eq hbelow
    simp only [calculateConfirm.loop, if_neg hne, hn, decide_eq_true_eq]
    by_cases hl : limit ≤ (if n.confirmUntil ≤ n.head.number then c + 1 else c)
    · rw [if_pos hl, List.find?_cons_of_pos _ (by simpa [← hcount] using hl), Option.map_some',
        findNode_hash hn]
    · rw [if_neg hl, hpar, List.find?_cons_of_neg _ (by simpa [← hcount] using hl)]
      obtain ⟨fuel, rfl⟩ : ∃ f, fuel = f + 1 := ⟨fuel - 1, by simp at hf; omega⟩
      have happ : done ++ [n] ++ path = done ++ n :: path := by simp
      have hstep := hwn.step
      rw [show n.head.number - 1 = pn.head.number by omega] at hstep
      have := @ih (done ++ [n]) _ _
        (fun x hx => by
          rw [happ]
          rcases List.mem_append.mp hx with hx | hx
          · exact hdone x hx
          · simp only [List.mem_singleton] at hx; subst hx; simpa [← hcount] using hl)
        (fun n' hn' => by
          cases path with
          | nil => cases hn'
          | cons b _ =>
            cases Option.mem_some_iff.mp hn'
            cases hp.symm.trans hc'.head_find
            exact hstep)
        fuel (by simp at hf ⊢; omega)
      rwa [happ] at this

theorem loop_succ_of_ok : ∀ {fuel : Nat} {node : Hash} {c : Int} {m : Int → Int}
    {r : Option Hash}, calculateConfirm.loop nodes limit root fuel node c m = .ok r →
    calculateConfirm.loop nodes limit root (fuel + 1) node c m = .ok r
  | 0, _, _, _, _, h => by simp [calculateConfirm.loop] at h
  | fuel + 1, node, c, m, r, h => by
    rw [calculateConfirm.loop.eq_2] at h ⊢
    split_ifs at h ⊢
    · exact h
    · cases hn : findNode nodes node with
      | none => simp [hn] at h
      | some n =>
        simp only [hn] at h ⊢
        split_ifs at h ⊢ <;> try exact h
        all_goals
          cases hp : n.parent with
          | none => simp [hp] at h
          | some p => simp only [hp] at h ⊢; exact loop_succ_of_ok h

theorem loop_le_of_ok {fuel fuel' : Nat} {node : Hash} {c : Int} {m : Int → Int}
    {r : Option Hash} (h : calculateConfirm.loop nodes limit root fuel node c m = .ok r)
    (hle : fuel ≤ fuel') : calculateConfirm.loop nodes limit root fuel' node c m = .ok r := by
  induction hle with
  | refl => exact h
  | step _ ih => exact loop_succ_of_ok ih

theorem calculateConfirm_eq {node : Hash} {path : List BlockCacheNode} {fuel : Nat}
    (numberOfWitnesses : Int64) (hc : Chain nodes node root path) (hf : path.length < fuel) :
    calculateConfirm nodes numberOfWitnesses fuel node root =
      .ok ((confirmedNode (confirmLimit numberOfWitnesses) path).map (·.head.hash)) := by
  have := @loop_eq nodes (confirmLimit numberOfWitnesses) root node path [] 0 (fun _ => 0) fuel hc
    hf (fun _ h => (List.not_mem_nil _ h).elim) fun _ _ => WalkInv.nil
  rwa [List.nil_append] at this

theorem calculateConfirm_of_ok {node : Hash} {path : List BlockCacheNode} {fuel : Nat}
    {numberOfWitnesses : Int64} {r : Option Hash} (hc : Chain nodes node root path)
    (h : calculateConfirm nodes numberOfWitnesses fuel node root = .ok r) :
    r = (confirmedNode (confirmLimit numberOfWitnesses) path).map (·.head.hash) := by
  have hbig :=
    calculateConfirm_eq numberOfWitnesses hc (by omega : path.length < fuel + path.length + 1)
  rw [calculateConfirm, loop_le_of_ok h (by omega : fuel ≤ fuel + path.length + 1)] at hbig
  exact Except.ok.inj hbig

end Walk

section Spec

variable {limit : Int} {path : List BlockCacheNode} {x : BlockCacheNode}

theorem confirmedNode_some (hpw : path.Pairwise fun a b => b.head.number < a.head.number)
    (h : confirmedNode limit path = some x) :
    x ∈ path ∧ limit ≤ confirmCount path x ∧
      ∀ y ∈ path, x.head.number < y.head.number → confirmCount path y < limit := by
  obtain ⟨hx, before, after, rfl, hbefore⟩ := List.find?_eq_some.mp h
  refine ⟨by simp, by simpa using hx, fun y hy hxy => ?_⟩
  have hpw' := (List.pairwise_append.mp hpw).2.1
  rcases List.mem_append.mp hy with hy | hy
  · exact Int.not_le.mp (by simpa using hbefore y hy)
  · rcases List.mem_cons.mp hy with rfl | hy
    · omega
    · have := List.rel_of_pairwise_cons hpw' hy; omega

theorem confirmedNode_none :
    confirmedNode limit path = none ↔ ∀ y ∈ path, confirmCount path y < limit := by
  simp [confirmedNode, Int.not_le]

end Spec

-- On a chain of consecutively numbered blocks down to the linked root, the walk returns the
-- highest node that `confirmLimit` blocks above it confirm (`confirmLimit_eq`), or `nil`.
theorem calculateConfirm_highest_confirmed {nodes : List BlockCacheNode} {node root : Hash}
    {path : List BlockCacheNode} {fuel : Nat} (numberOfWitnesses : Int64)
    (hc : Chain nodes node root path) (hf : path.length < fuel) :
    ∃ r, calculateConfirm nodes numberOfWitnesses fuel node root = .ok r ∧
      (r = none ↔ ∀ y ∈ path, confirmCount path y < confirmLimit numberOfWitnesses) ∧
      ∀ x, r = some x → ∃ xn ∈ path, xn.head.hash = x ∧ x ≠ root ∧
        confirmLimit numberOfWitnesses ≤ confirmCount path xn ∧
        ∀ y ∈ path, xn.head.number < y.head.number →
          confirmCount path y < confirmLimit numberOfWitnesses := by
  refine ⟨_, calculateConfirm_eq numberOfWitnesses hc hf, by simp [← confirmedNode_none], ?_⟩
  intro x hx
  obtain ⟨xn, hxn, rfl⟩ := Option.map_eq_some'.mp hx
  obtain ⟨hmem, hle, hhigh⟩ := confirmedNode_some hc.pairwise_number hxn
  exact ⟨xn, hmem, rfl, hc.hash_ne_root hmem, hle, hhigh⟩

theorem calculateConfirm_highest_confirmed_one_block :
    ∃ r, calculateConfirm [⟨⟨[1], 1, "w"⟩, some [0], 0⟩, ⟨⟨[0], 0, "g"⟩, none, 0⟩] 1 2 [1] [0] =
        .ok r ∧
      (r = none ↔ ∀ y ∈ [⟨⟨[1], 1, "w"⟩, some [0], 0⟩],
        confirmCount [⟨⟨[1], 1, "w"⟩, some [0], 0⟩] y < confirmLimit 1) ∧
      ∀ x, r = some x → ∃ xn ∈ [⟨⟨[1], 1, "w"⟩, some [0], 0⟩], xn.head.hash = x ∧ x ≠ [0] ∧
        confirmLimit 1 ≤ confirmCount [⟨⟨[1], 1, "w"⟩, some [0], 0⟩] xn ∧
        ∀ y ∈ [⟨⟨[1], 1, "w"⟩, some [0], 0⟩], xn.head.number < y.head.number →
          confirmCount [⟨⟨[1], 1, "w"⟩, some [0], 0⟩] y < confirmLimit 1 :=
  calculateConfirm_highest_confirmed 1 (.cons (by decide) rfl rfl rfl rfl (.root _)) (by decide)

end GoIost.Pob
