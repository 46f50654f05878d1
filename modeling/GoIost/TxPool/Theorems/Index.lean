import GoIost.TxPool.Theorems.Defer
import Mathlib.Data.List.Pairwise

namespace GoIost.TxPool

open Int64

section Bytes

theorem uint8_lt_iff {a b : UInt8} : a < b ↔ a.toNat < b.toNat := Iff.rfl

theorem uint8_eq_of_not_lt {a b : UInt8} (h : ¬a < b) (h' : ¬b < a) : a = b :=
  UInt8.toNat.inj (by rw [uint8_lt_iff] at h h'; omega)

@[simp] theorem bytesCompare_self : ∀ a : List UInt8, bytesCompare a a = 0
  | [] => rfl
  | x :: a => by simp [bytesCompare, UInt8.lt_irrefl, bytesCompare_self a]

theorem bytesCompare_eq_zero : ∀ {a b : List UInt8}, bytesCompare a b = 0 ↔ a = b
  | [], [] | [], _ :: _ | _ :: _, [] => by simp [bytesCompare]
  | x :: a, y :: b => by
    unfold bytesCompare
    split_ifs with h h'
    · simp only [Int.reduceNeg, Int.reduceEq, List.cons.injEq, false_iff, not_and]
      exact fun hxy => absurd (hxy ▸ h) (UInt8.lt_irrefl x)
    · simp only [one_ne_zero, List.cons.injEq, false_iff, not_and]
      exact fun hxy => absurd (hxy ▸ h') (UInt8.lt_irrefl x)
    · rw [bytesCompare_eq_zero, List.cons.injEq, and_iff_right (uint8_eq_of_not_lt h h')]

theorem bytesCompare_swap : ∀ a b : List UInt8, bytesCompare b a = -bytesCompare a b
  | [], [] | [], _ :: _ | _ :: _, [] => rfl
  | x :: a, y :: b => by
    unfold bytesCompare
    split_ifs <;> simp only [uint8_lt_iff] at * <;> first | omega | exact bytesCompare_swap a b

theorem bytesCompare_cons_lt_zero {x y : UInt8} {a b : List UInt8} :
    bytesCompare (x :: a) (y :: b) < 0 ↔ x < y ∨ x = y ∧ bytesCompare a b < 0 := by
  simp only [bytesCompare]
  split_ifs with h h'
  · simp [h]
  · exact iff_of_false (by decide) fun hx => hx.elim h fun ⟨he, _⟩ => by
      subst he; exact UInt8.lt_irrefl _ h'
  · rw [uint8_eq_of_not_lt h h']; simp [UInt8.lt_irrefl]

theorem bytesCompare_trans : ∀ {a b c : List UInt8},
    bytesCompare a b < 0 → bytesCompare b c < 0 → bytesCompare a c < 0
  | x :: a, y :: b, z :: c, hab, hbc => by
    rw [bytesCompare_cons_lt_zero] at hab hbc ⊢
    rcases hab with hab | ⟨rfl, hab⟩ <;> rcases hbc with hbc | ⟨rfl, hbc⟩
    · exact .inl (by rw [uint8_lt_iff] at *; omega)
    · exact .inl hab
    · exact .inl hbc
    · exact .inr ⟨rfl, bytesCompare_trans hab hbc⟩
  | [], _, _ :: _, _, _ => by simp [bytesCompare]
  | _, b, [], _, h => by cases b <;> simp [bytesCompare] at h
  | _ :: _, [], _ :: _, h, _ => by simp [bytesCompare] at h

end Bytes

variable {txHash : Tx → Hash}

-- A delay transaction whose `Time`, `Delay` and `Time + Delay` are in range and not negative.
def NoOverflow (t : Tx) : Prop :=
  0 ≤ t.time.toInt ∧ 0 ≤ t.delay.toInt ∧ InRange (t.time.toInt + t.delay.toInt)

instance : DecidablePred NoOverflow :=
  fun _ => inferInstanceAs (Decidable (_ ∧ _ ∧ _))

theorem time_eq_or_compareDeferTx {a b : Tx} (ha : 0 ≤ a.time.toInt) (hb : 0 ≤ b.time.toInt) :
    a.time.toInt = b.time.toInt ∨
      compareDeferTx txHash a b = a.time.toInt - b.time.toInt := by
  by_cases heq : a.time = b.time
  · exact .inl (congrArg Int64.toInt heq)
  · have := a.time.lt_max
    have := b.time.lt_max
    exact .inr (compareDeferTx_of_inRange heq ⟨by omega, by omega⟩)

theorem mem_put {x y : Tx} : ∀ {l : List Tx}, y ∈ put txHash x l → y = x ∨ y ∈ l
  | [], h => by simpa [put] using h
  | e :: l, h => by
    unfold put at h
    split_ifs at h
    · simpa using h
    · rcases List.mem_cons.mp h with rfl | h
      · exact .inl rfl
      · exact .inr (List.mem_cons_of_mem e h)
    · rcases List.mem_cons.mp h with rfl | h
      · exact .inr (List.mem_cons_self _ _)
      · exact (mem_put h).imp_right (List.mem_cons_of_mem e)

theorem remove_sublist (x : Tx) : ∀ l : List Tx, (remove txHash x l).Sublist l
  | [] => .slnil
  | e :: l => by
    unfold remove
    split_ifs
    · exact List.sublist_cons_self e l
    · exact (remove_sublist x l).cons₂ e

theorem pass_sublist (now : Int64) (addDefertx : Hash → AddDeferResult) :
    ∀ (visit pool : List Tx), (deferTicker.pass txHash now addDefertx visit pool).1.Sublist pool
  | [], _ => List.Sublist.refl _
  | e :: rest, pool => by
    unfold deferTicker.pass
    split_ifs
    · exact List.Sublist.refl _
    · split
      · exact List.Sublist.refl _
      all_goals first
        | exact (pass_sublist now addDefertx rest _).trans (remove_sublist e pool)
        | exact pass_sublist now addDefertx rest pool

section Key

variable {a b c : Tx}

@[simp] theorem compareDeferTx_self (a : Tx) : compareDeferTx txHash a a = 0 := by
  simp [compareDeferTx]

theorem compareDeferTx_eq_zero :
    compareDeferTx txHash a b = 0 ↔ a.time = b.time ∧ txHash a = txHash b := by
  unfold compareDeferTx
  split_ifs with h
  · rw [bytesCompare_eq_zero, and_iff_right h]
  · have hne : a.time.toInt ≠ b.time.toInt := fun he => h (Int64.ext he)
    have := a.time.inRange_toInt
    have := b.time.inRange_toInt
    rw [toInt_sub, toInt_ofInt, iff_false_intro (not_and_of_not_left _ h), iff_false]
    unfold InRange at *
    omega

theorem compareDeferTx_congr_left (h : compareDeferTx txHash a b = 0) (c : Tx) :
    compareDeferTx txHash a c = compareDeferTx txHash b c := by
  obtain ⟨ht, hh⟩ := compareDeferTx_eq_zero.mp h
  simp only [compareDeferTx, ht, hh]

section Nonneg

variable (ha : 0 ≤ a.time.toInt) (hb : 0 ≤ b.time.toInt) (hc : 0 ≤ c.time.toInt)
include ha hb

theorem compareDeferTx_lt_zero :
    compareDeferTx txHash a b < 0 ↔
      a.time.toInt < b.time.toInt ∨ a.time = b.time ∧ bytesCompare (txHash a) (txHash b) < 0 := by
  by_cases heq : a.time = b.time
  · simp [compareDeferTx, heq]
  · rcases @time_eq_or_compareDeferTx txHash a b ha hb with h | h
    · exact absurd (Int64.ext h) heq
    · rw [h, or_iff_left (not_and_of_not_left _ heq)]; omega

theorem compareDeferTx_swap : compareDeferTx txHash b a = -compareDeferTx txHash a b := by
  by_cases heq : a.time = b.time
  · simp only [compareDeferTx, heq, if_true]; exact bytesCompare_swap _ _
  · rcases @time_eq_or_compareDeferTx txHash a b ha hb with h | h
    · exact absurd (Int64.ext h) heq
    · rcases @time_eq_or_compareDeferTx txHash b a hb ha with h' | h'
      · exact absurd (Int64.ext h'.symm) heq
      · rw [h, h']; omega

include hc in
theorem compareDeferTx_trans (hab : compareDeferTx txHash a b < 0)
    (hbc : compareDeferTx txHash b c < 0) : compareDeferTx txHash a c < 0 := by
  rw [compareDeferTx_lt_zero ha hb] at hab
  rw [compareDeferTx_lt_zero hb hc] at hbc
  rw [compareDeferTx_lt_zero ha hc]
  rcases hab with hab | ⟨hab, hab'⟩ <;> rcases hbc with hbc | ⟨hbc, hbc'⟩
  · exact .inl (by omega)
  · exact .inl (by rw [← hbc]; exact hab)
  · exact .inl (by rw [hab]; exact hbc)
  · exact .inr ⟨hab.trans hbc, bytesCompare_trans hab' hbc'⟩

end Nonneg

end Key

section OrderedPool

variable {x y : Tx} {l l' : List Tx}

-- The tree's in-order sequence: times from the epoch on, strictly ascending under `compareDeferTx`.
structure OrderedPool (txHash : Tx → Hash) (pool : List Tx) : Prop where
  nonneg : ∀ e ∈ pool, 0 ≤ e.time.toInt
  ordered : pool.Pairwise fun a b => compareDeferTx txHash a b < 0

theorem OrderedPool.sublist (hl : OrderedPool txHash l) (h : l'.Sublist l) :
    OrderedPool txHash l' :=
  ⟨fun e he => hl.nonneg e (h.subset he), hl.ordered.sublist h⟩

theorem OrderedPool.tail {e : Tx} (hl : OrderedPool txHash (e :: l)) : OrderedPool txHash l :=
  hl.sublist (List.sublist_cons_self e l)

theorem OrderedPool.eq_of_compare_eq_zero (hl : OrderedPool txHash l) (hx : x ∈ l) (hy : y ∈ l)
    (h : compareDeferTx txHash x y = 0) : x = y := by
  by_contra hne
  have hsymm : Symmetric fun a b => compareDeferTx txHash a b ≠ 0 ∧ compareDeferTx txHash b a ≠ 0 :=
    fun _ _ h => h.symm
  have hapart := hl.ordered.imp_of_mem (S := fun a b => compareDeferTx txHash a b ≠ 0 ∧
    compareDeferTx txHash b a ≠ 0) fun {a b} ha hb hab => by
      have := @compareDeferTx_swap txHash a b (hl.nonneg a ha) (hl.nonneg b hb)
      exact ⟨by omega, by omega⟩
  exact (hapart.forall hsymm hx hy hne).1 h

theorem put_eq (hx : 0 ≤ x.time.toInt) : ∀ {l : List Tx}, OrderedPool txHash l →
    put txHash x l = l.filter (fun e => 0 < compareDeferTx txHash x e) ++
      x :: l.filter (fun e => compareDeferTx txHash x e < 0)
  | [], _ => rfl
  | e :: l, hl => by
    have he := hl.nonneg e (List.mem_cons_self e l)
    have hel := (List.pairwise_cons.mp hl.ordered).1
    have above (h : compareDeferTx txHash x e ≤ 0) : ∀ y ∈ l, compareDeferTx txHash x y < 0 := by
      intro y hy
      by_cases h0 : compareDeferTx txHash x e = 0
      · rw [compareDeferTx_congr_left h0]; exact hel y hy
      · exact compareDeferTx_trans hx he (hl.nonneg y (List.mem_cons_of_mem e hy)) (by omega)
          (hel y hy)
    unfold put
    split_ifs with hlt heq
    · rw [List.filter_cons_of_neg (by simp; omega), List.filter_cons_of_pos (by simpa using hlt),
        List.filter_eq_nil_iff.mpr fun y hy => by
          have := above (Int.le_of_lt hlt) y hy; simp; omega,
        List.filter_eq_self.mpr fun y hy => by simpa using above (Int.le_of_lt hlt) y hy]
      rfl
    · rw [List.filter_cons_of_neg (by simp; omega), List.filter_cons_of_neg (by simp; omega),
        List.filter_eq_nil_iff.mpr fun y hy => by
          have := above (Int.le_of_eq heq) y hy; simp; omega,
        List.filter_eq_self.mpr fun y hy => by simpa using above (Int.le_of_eq heq) y hy]
      rfl
    · rw [List.filter_cons_of_pos (by simp; omega), List.filter_cons_of_neg (by simp; omega),
        put_eq hx hl.tail]
      rfl

theorem remove_eq (x : Tx) : ∀ {l : List Tx}, OrderedPool txHash l →
    remove txHash x l = l.filter (fun e => compareDeferTx txHash x e ≠ 0)
  | [], _ => rfl
  | e :: l, hl => by
    unfold remove
    split_ifs with heq
    · have hel := (List.pairwise_cons.mp hl.ordered).1
      rw [List.filter_cons_of_neg (by simpa using heq), List.filter_eq_self.mpr fun y hy => by
        simpa [compareDeferTx_congr_left heq] using Int.ne_of_lt (hel y hy)]
    · rw [List.filter_cons_of_pos (by simpa using heq), remove_eq x hl.tail]

theorem OrderedPool.put (hx : 0 ≤ x.time.toInt) (hl : OrderedPool txHash l) :
    OrderedPool txHash (put txHash x l) where
  nonneg y hy := (mem_put hy).elim (fun h => h ▸ hx) (hl.nonneg y)
  ordered := by
    rw [put_eq hx hl]
    have hmem {p : Tx → Bool} {y : Tx} (hy : y ∈ l.filter p) : y ∈ l := (List.mem_filter.mp hy).1
    refine List.pairwise_append.mpr ⟨hl.ordered.filter _, List.pairwise_cons.mpr
      ⟨fun y hy => by simpa using (List.mem_filter.mp hy).2, hl.ordered.filter _⟩, ?_⟩
    intro a ha b hb
    have hax : compareDeferTx txHash a x < 0 := by
      rw [compareDeferTx_swap hx (hl.nonneg a (hmem ha))]
      simpa using (List.mem_filter.mp ha).2
    rcases List.mem_cons.mp hb with rfl | hb
    · exact hax
    · exact compareDeferTx_trans (hl.nonneg a (hmem ha)) hx (hl.nonneg b (hmem hb)) hax
        (by simpa using (List.mem_filter.mp hb).2)

theorem NoOverflow.toIndex_nonneg {t : Tx} (ht : NoOverflow t) :
    0 ≤ (toIndex txHash t).time.toInt := by
  have ⟨h0, hd, hr⟩ := ht
  rw [toIndex_time_of_inRange hr]; omega

theorem OrderedPool.build {txs : List Tx} (htxs : ∀ t ∈ txs, NoOverflow t) :
    ∀ {pool : List Tx}, OrderedPool txHash pool →
      OrderedPool txHash
        (txs.foldl (fun pool t => TxPool.put txHash (toIndex txHash t) pool) pool) := by
  induction txs with
  | nil => exact id
  | cons t txs ih =>
    intro pool hp
    exact ih (fun t' ht' => htxs t' (List.mem_cons_of_mem t ht'))
      (hp.put (htxs t (List.mem_cons_self _ _)).toIndex_nonneg)

theorem Run.orderedPool {d : DeferServer} (h : Run txHash NoOverflow d) :
    OrderedPool txHash d.pool := by
  induction h with
  | build txs htxs =>
    rw [newDeferServer_pool]
    exact OrderedPool.build htxs ⟨fun _ h => (List.not_mem_nil _ h).elim, .nil⟩
  | store t _ ht ih => rw [storeDeferTx_pool]; exact ih.put ht.toIndex_nonneg
  | del t _ ih => exact ih.sublist (remove_sublist _ _)
  | tick now addDefertx _ ih => exact ih.sublist (pass_sublist _ _ _ _)

theorem mem_foldl_remove (F : List Tx) : ∀ {l : List Tx}, OrderedPool txHash l →
    (y ∈ F.foldl (fun p e => remove txHash e p) l ↔
      y ∈ l ∧ ∀ f ∈ F, compareDeferTx txHash f y ≠ 0) := by
  induction F with
  | nil => simp
  | cons f F ih =>
    intro l hl
    rw [List.foldl_cons, ih (hl.sublist (remove_sublist f l)), remove_eq f hl, List.mem_filter,
      List.forall_mem_cons, decide_eq_true_iff, and_assoc]

end OrderedPool

section Operations

-- Over every run without overflow, the pool is the ordered sequence of a set of keys, which
-- `StoreDeferTx` and `DelDeferTx` change at one key.
theorem run_pool_ordered_set {d : DeferServer} (h : Run txHash NoOverflow d) :
    d.pool.Pairwise (fun a b => compareDeferTx txHash a b < 0) ∧
      (∀ t, NoOverflow t → (d.storeDeferTx txHash t).pool =
        d.pool.filter (fun e => 0 < compareDeferTx txHash (toIndex txHash t) e) ++
          toIndex txHash t ::
            d.pool.filter (fun e => compareDeferTx txHash (toIndex txHash t) e < 0)) ∧
      ∀ deferTx, (d.delDeferTx txHash deferTx).pool =
        d.pool.filter fun e =>
          compareDeferTx txHash ⟨deferTx.time, 0, deferTx.referredTx⟩ e ≠ 0 :=
  have hl := h.orderedPool
  ⟨hl.ordered, fun t ht => by rw [storeDeferTx_pool, put_eq ht.toIndex_nonneg hl],
    fun deferTx => by rw [delDeferTx_pool, remove_eq _ hl]⟩

theorem run_pool_ordered_set_two_txs :
    let txHash : Tx → Hash := fun t => [t.referredTx.length.toUInt8]
    let d := newDeferServer txHash [⟨3, 2, [7]⟩, ⟨4, 1, []⟩]
    d.pool.Pairwise (fun a b => compareDeferTx txHash a b < 0) ∧
      (∀ t, NoOverflow t → (d.storeDeferTx txHash t).pool =
        d.pool.filter (fun e => 0 < compareDeferTx txHash (toIndex txHash t) e) ++
          toIndex txHash t ::
            d.pool.filter (fun e => compareDeferTx txHash (toIndex txHash t) e < 0)) ∧
      ∀ deferTx, (d.delDeferTx txHash deferTx).pool =
        d.pool.filter fun e =>
          compareDeferTx txHash ⟨deferTx.time, 0, deferTx.referredTx⟩ e ≠ 0 :=
  run_pool_ordered_set (.build _ (by decide))

-- A pass removes exactly the entries it handed to `AddDefertx` that the pool took or holds.
theorem run_pass_removes_exactly_accepted {d : DeferServer} (h : Run txHash NoOverflow d)
    (now : Int64) (addDefertx : Hash → AddDeferResult) (y : Tx) :
    y ∈ (d.deferTicker txHash now addDefertx).pool ↔
      y ∈ d.pool ∧ ¬(y ∈ d.pool.takeWhile (Passed now addDefertx) ∧
        Removes (addDefertx y.referredTx) = true) := by
  have hl := h.orderedPool
  rw [deferTicker_pool, pass_eq, mem_foldl_remove _ hl]
  refine and_congr_right fun hy => ⟨fun hall ⟨htw, hrem⟩ => ?_, fun hn f hf h0 => ?_⟩
  · exact hall y (List.mem_filter.mpr ⟨htw, hrem⟩) (compareDeferTx_self y)
  · have ⟨htw, hrem⟩ := List.mem_filter.mp hf
    have hfy := hl.eq_of_compare_eq_zero (List.takeWhile_subset _ htw) hy h0
    exact hn ⟨hfy ▸ htw, hfy ▸ hrem⟩

theorem run_pass_removes_exactly_accepted_due_entry :
    let d := newDeferServer (fun _ => []) [⟨1, 2, []⟩, ⟨1, 6, []⟩]
    ∀ y, y ∈ (d.deferTicker (fun _ => []) 5 fun _ => .ok).pool ↔
      y ∈ d.pool ∧ ¬(y ∈ d.pool.takeWhile (Passed 5 fun _ => .ok) ∧
        Removes (AddDeferResult.ok) = true) :=
  run_pass_removes_exactly_accepted (.build _ (by decide)) 5 _

theorem remove_put_of_forall_ne {x : Tx} :
    ∀ {l : List Tx}, (∀ e ∈ l, compareDeferTx txHash x e ≠ 0) →
      remove txHash x (put txHash x l) = l
  | [], _ => by simp [put, remove]
  | e :: l, hl => by
    have he := hl e (List.mem_cons_self e l)
    unfold put
    split_ifs with hlt
    · simp [remove]
    · simp only [remove, if_neg he]
      rw [remove_put_of_forall_ne fun y hy => hl y (List.mem_cons_of_mem e hy)]

-- `DelDeferTx` of the deferred transaction undoes `StoreDeferTx` of its delay transaction.
theorem delDeferTx_undoes_storeDeferTx {d : DeferServer} {t deferTx : Tx}
    (htime : deferTx.time = t.time + t.delay) (href : deferTx.referredTx = txHash t)
    (hfresh : ∀ e ∈ d.pool, compareDeferTx txHash (toIndex txHash t) e ≠ 0) :
    ((d.storeDeferTx txHash t).delDeferTx txHash deferTx).pool = d.pool := by
  have hidx : (⟨deferTx.time, 0, deferTx.referredTx⟩ : Tx) = toIndex txHash t := by
    rw [htime, href]; rfl
  rw [delDeferTx_pool, storeDeferTx_pool, hidx, remove_put_of_forall_ne hfresh]

theorem delDeferTx_undoes_storeDeferTx_beside :
    let d := newDeferServer (fun _ => []) [⟨1, 2, []⟩]
    let t : Tx := ⟨2, 3, []⟩
    let deferTx : Tx := ⟨5, 0, []⟩
    deferTx.time = t.time + t.delay ∧ deferTx.referredTx = (fun _ => []) t ∧
      (∀ e ∈ d.pool, compareDeferTx (fun _ => []) (toIndex (fun _ => []) t) e ≠ 0) ∧
      ((d.storeDeferTx (fun _ => []) t).delDeferTx (fun _ => []) deferTx).pool = d.pool :=
  ⟨by decide, rfl, by decide, delDeferTx_undoes_storeDeferTx (by decide) rfl (by decide)⟩

end Operations

end GoIost.TxPool
