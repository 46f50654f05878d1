import GoIost.Host.Teller
import Mathlib.Algebra.BigOperators.Group.List
import Mathlib.Data.Multiset.OrderedMonoid

namespace GoIost.Host

def Cost.dataHom : Cost →+ Int64 := ⟨⟨Cost.data, rfl⟩, fun _ _ => rfl⟩
def Cost.netHom : Cost →+ Int64 := ⟨⟨Cost.net, rfl⟩, fun _ _ => rfl⟩
def Cost.cpuHom : Cost →+ Int64 := ⟨⟨Cost.cpu, rfl⟩, fun _ _ => rfl⟩

def Cost.itemsHom : Cost →+ Multiset DataItem :=
  ⟨⟨fun c => c.dataList, rfl⟩, fun a b => (Multiset.coe_add a.dataList b.dataList).symm⟩

@[simp] theorem Cost.coe_dataHom : ⇑Cost.dataHom = Cost.data := rfl
@[simp] theorem Cost.coe_netHom : ⇑Cost.netHom = Cost.net := rfl
@[simp] theorem Cost.coe_cpuHom : ⇑Cost.cpuHom = Cost.cpu := rfl
@[simp] theorem Cost.coe_itemsHom :
    ⇑Cost.itemsHom = fun c => (c.dataList : Multiset DataItem) := rfl

@[simp]
theorem Cost.dataList_sum : ∀ l : List Cost, l.sum.dataList = l.flatMap Cost.dataList
  | [] => rfl
  | c :: l => by rw [List.sum_cons, add_dataList, dataList_sum l, List.flatMap_cons]

-- The sum of one amount over all accounts of a cost map.
def total {M : Type} [AddCommMonoid M] (f : Cost → M) (m : CostMap) : M :=
  (m.entries.map fun e => f e.2).sum

variable {M : Type} [AddCommMonoid M]

section AddCost

variable {m : CostMap} {k a : String} {v : Cost}

theorem addCost_eq_insert : addCost m k v = m.insert k (costOf m k + v) := by
  unfold addCost costOf
  cases m.lookup k <;> simp

theorem lookup_addCost :
    (addCost m k v).lookup a = if a = k then some (costOf m k + v) else m.lookup a := by
  rw [addCost_eq_insert]
  split_ifs with h
  · subst h; exact AList.lookup_insert m
  · exact AList.lookup_insert_ne h

theorem costOf_addCost :
    costOf (addCost m k v) a = if a = k then costOf m k + v else costOf m a := by
  rw [costOf, lookup_addCost]
  split_ifs <;> rfl

theorem sum_kerase (f : Cost →+ M) (k : String) :
    ∀ l : List (Σ _ : String, Cost),
      ((l.kerase k).map fun e => f e.2).sum + f ((l.dlookup k).getD 0) =
        (l.map fun e => f e.2).sum
  | [] => by simp
  | ⟨k', v'⟩ :: l => by
    by_cases h : k = k'
    · subst h
      rw [@List.kerase_cons_eq _ _ _ k ⟨k, v'⟩ l rfl, List.dlookup_cons_eq, Option.getD_some,
        List.map_cons, List.sum_cons, add_comm]
    · rw [List.kerase_cons_ne h, List.dlookup_cons_ne l _ h, List.map_cons, List.sum_cons,
        add_assoc, sum_kerase f k l, List.map_cons, List.sum_cons]

theorem total_addCost (f : Cost →+ M) : total f (addCost m k v) = total f m + f v := by
  rw [addCost_eq_insert, total, AList.insert_entries, List.map_cons, List.sum_cons, map_add,
    total, ← sum_kerase f k m.entries]
  simp only [costOf, cost0_eq_zero, AList.lookup]
  ac_rfl

end AddCost

section Loop

-- Both loops of `PayCost` fold `addCost` over a list, keyed and valued by `key` and `val`.
variable {α : Type} (key : α → String) (val : α → Cost)

theorem costOf_foldl_addCost (a : String) :
    ∀ (l : List α) (m : CostMap),
      costOf (l.foldl (fun m x => addCost m (key x) (val x)) m) a =
        costOf m a + ((l.filter fun x => key x = a).map val).sum
  | [], m => by simp
  | x :: l, m => by
    rw [List.foldl_cons, costOf_foldl_addCost a l, costOf_addCost]
    by_cases h : a = key x
    · simp [h, add_assoc]
    · simp [h, Ne.symm h]

theorem lookup_foldl_addCost_of_forall_ne {a : String} :
    ∀ {l : List α} (m : CostMap), (∀ x ∈ l, key x ≠ a) →
      (l.foldl (fun m x => addCost m (key x) (val x)) m).lookup a = m.lookup a
  | [], _, _ => rfl
  | x :: l, m, h => by
    rw [List.foldl_cons, lookup_foldl_addCost_of_forall_ne _ fun y hy => h y (.tail x hy),
      lookup_addCost, if_neg (Ne.symm (h x (.head l)))]

theorem isSome_lookup_foldl_addCost {a : String} :
    ∀ {l : List α} (m : CostMap), (m.lookup a).isSome ∨ (∃ x ∈ l, key x = a) →
      ((l.foldl (fun m x => addCost m (key x) (val x)) m).lookup a).isSome
  | [], _, h => h.resolve_right (by simp)
  | x :: l, m, h => by
    rw [List.foldl_cons]
    refine isSome_lookup_foldl_addCost _ ?_
    rw [lookup_addCost]
    by_cases hx : a = key x
    · simp [hx]
    · rw [if_neg hx]
      rcases h with h | ⟨y, hy, hya⟩
      · exact .inl h
      · rcases List.mem_cons.mp hy with rfl | hy
        · exact absurd hya.symm hx
        · exact .inr ⟨y, hy, hya⟩

theorem lookup_foldl_addCost (l : List α) (m : CostMap) (a : String) :
    (l.foldl (fun m x => addCost m (key x) (val x)) m).lookup a =
      if ∃ x ∈ l, key x = a then some (costOf m a + ((l.filter fun x => key x = a).map val).sum)
      else m.lookup a := by
  split_ifs with h
  · obtain ⟨v, hv⟩ := Option.isSome_iff_exists.mp (isSome_lookup_foldl_addCost key val m (.inr h))
    rw [← costOf_foldl_addCost, costOf, hv]
    rfl
  · exact lookup_foldl_addCost_of_forall_ne key val m fun x hx hxa => h ⟨x, hx, hxa⟩

theorem total_foldl_addCost (f : Cost →+ M) :
    ∀ (l : List α) (m : CostMap),
      total f (l.foldl (fun m x => addCost m (key x) (val x)) m) =
        total f m + (l.map fun x => f (val x)).sum
  | [], m => by simp
  | x :: l, m => by
    rw [List.foldl_cons, total_foldl_addCost f l, total_addCost, List.map_cons, List.sum_cons,
      add_assoc]

end Loop

theorem sum_filter_eq_dlookup {a : String} :
    ∀ {l : List (Σ _ : String, Cost)}, l.NodupKeys →
      ((l.filter fun e => e.1 = a).map Sigma.snd).sum = (l.dlookup a).getD 0
  | [], _ => rfl
  | ⟨k, v⟩ :: l, h => by
    have ⟨hk, hl⟩ := List.nodupKeys_cons.mp h
    by_cases hka : k = a
    · subst hka
      have none : l.filter (fun e => e.1 = k) = [] :=
        List.filter_eq_nil_iff.mpr fun e he hek =>
          hk (by simpa [of_decide_eq_true hek] using List.mem_keys_of_mem he)
      simp [none]
    · simp [hka, List.dlookup_cons_ne l ⟨k, v⟩ (Ne.symm hka), sum_filter_eq_dlookup hl]

section Split

variable (c : Cost) (who : String)

theorem costOf_splitCost (a : String) :
    costOf (splitCost c who) a =
      (if a = who ∧ (0 < c.cpu ∨ 0 < c.net) then ⟨0, c.net, c.cpu, []⟩ else 0) +
        ((c.dataList.filter fun i => i.payer = a).map fun i => ⟨i.val, 0, 0, [i]⟩).sum := by
  rw [splitCost, costOf_foldl_addCost]
  congr 1
  split_ifs with hp h h
  · obtain ⟨rfl, -⟩ := h
    simp only [costOf, AList.lookup_insert, Option.getD_some]
  · simp only [costOf, AList.lookup_insert_ne fun e => h ⟨e, hp⟩, AList.lookup_empty]
    rfl
  · exact absurd h.2 hp
  · rfl

theorem lookup_splitCost_of_forall_ne {a : String} (hw : ¬(a = who ∧ (0 < c.cpu ∨ 0 < c.net)))
    (hi : ∀ i ∈ c.dataList, i.payer ≠ a) : (splitCost c who).lookup a = none := by
  rw [splitCost, lookup_foldl_addCost_of_forall_ne _ _ _ hi]
  split_ifs with hp
  · exact (AList.lookup_insert_ne fun h => hw ⟨h, hp⟩).trans (AList.lookup_empty a)
  · exact AList.lookup_empty a

theorem total_splitCost (f : Cost →+ M) :
    total f (splitCost c who) =
      (if 0 < c.cpu ∨ 0 < c.net then f ⟨0, c.net, c.cpu, []⟩ else 0) +
        (c.dataList.map fun i => f ⟨i.val, 0, 0, [i]⟩).sum := by
  rw [splitCost, total_foldl_addCost]
  congr 1
  split_ifs
  · exact add_zero _
  · rfl

end Split

section PayCost

variable (t : Teller) (c : Cost) (who : String)

theorem costOf_payCost (a : String) :
    costOf (t.payCost c who).cost a = costOf t.cost a + costOf (splitCost c who) a := by
  rw [Teller.payCost, costOf_foldl_addCost, sum_filter_eq_dlookup (splitCost c who).nodupKeys]
  rfl

theorem total_payCost (f : Cost →+ M) :
    total f (t.payCost c who).cost = total f t.cost + total f (splitCost c who) :=
  total_foldl_addCost _ _ f _ _

theorem lookup_payCost_of_lookup_eq_none {a : String} (h : (splitCost c who).lookup a = none) :
    (t.payCost c who).cost.lookup a = t.cost.lookup a :=
  lookup_foldl_addCost_of_forall_ne _ _ _ fun _ he hea =>
    AList.lookup_eq_none.mp h (AList.mem_keys.mpr (hea ▸ List.mem_keys_of_mem he))

-- The last loop of `PayCost` ranges over the Go map `costMap`, whose order is random: every
-- enumeration order leaves the same cost at every account.
theorem payCost_enumeration_irrelevant {l : List (Σ _ : String, Cost)}
    (hl : l.Perm (splitCost c who).entries) (a : String) :
    (l.foldl (fun cost e => addCost cost e.1 e.2) t.cost).lookup a =
      (t.payCost c who).cost.lookup a := by
  have hnd := (splitCost c who).nodupKeys
  have hnd' : l.NodupKeys := ((hl.map Sigma.fst).nodup_iff).mpr hnd
  have hex : (∃ e ∈ l, e.1 = a) ↔ ∃ e ∈ (splitCost c who).entries, e.1 = a :=
    exists_congr fun _ => and_congr_left fun _ => hl.mem_iff
  simp only [Teller.payCost, lookup_foldl_addCost, hex, sum_filter_eq_dlookup hnd,
    sum_filter_eq_dlookup hnd', List.perm_dlookup a hnd' hnd hl]

end PayCost

theorem payCost_enumeration_irrelevant_reversed :
    let c : Cost := ⟨5, 1, 2, [⟨"a", 2⟩, ⟨"b", 3⟩]⟩
    (splitCost c "a").entries.reverse.Perm (splitCost c "a").entries ∧
      ((splitCost c "a").entries.reverse.foldl (fun cost e => addCost cost e.1 e.2)
          newTeller.cost).lookup "b" = (newTeller.payCost c "a").cost.lookup "b" :=
  ⟨List.reverse_perm _, payCost_enumeration_irrelevant newTeller _ "a" (List.reverse_perm _) "b"⟩

theorem sum_itemCosts (l : List DataItem) :
    (l.map fun i => (⟨i.val, 0, 0, [i]⟩ : Cost)).sum = ⟨(l.map DataItem.val).sum, 0, 0, l⟩ := by
  induction l with
  | nil => rfl
  | cons i l ih =>
    rw [List.map_cons, List.sum_cons, ih]
    ext <;> simp

theorem Cost.eq_add_items {c : Cost} (hdata : c.data = (c.dataList.map DataItem.val).sum) :
    c = ⟨0, c.net, c.cpu, []⟩ + (c.dataList.map fun i => ⟨i.val, 0, 0, [i]⟩).sum := by
  rw [sum_itemCosts]
  ext <;> simp [hdata]

section Nonneg

variable {c : Cost} (hcpu : 0 ≤ c.cpu) (hnet : 0 ≤ c.net)
include hcpu hnet

theorem eq_zero_of_not_guard (hp : ¬(0 < c.cpu ∨ 0 < c.net)) : c.cpu = 0 ∧ c.net = 0 := by
  simp only [not_or, Int64.lt_iff, Int64.le_iff, Int64.toInt_zero] at hp hcpu hnet
  exact ⟨Int64.ext (by rw [Int64.toInt_zero]; omega), Int64.ext (by rw [Int64.toInt_zero]; omega)⟩

theorem costOf_payCost_of_nonneg (t : Teller) (who a : String) :
    costOf (t.payCost c who).cost a = costOf t.cost a +
      ((if a = who then ⟨0, c.net, c.cpu, []⟩ else 0) +
        ((c.dataList.filter fun i => i.payer = a).map fun i => ⟨i.val, 0, 0, [i]⟩).sum) := by
  rw [costOf_payCost, costOf_splitCost]
  by_cases hp : 0 < c.cpu ∨ 0 < c.net
  · simp only [hp, and_true]
  · obtain ⟨hc, hn⟩ := eq_zero_of_not_guard hcpu hnet hp
    simp only [hp, and_false, if_false, hc, hn]
    split_ifs <;> rfl

theorem total_payCost_of_nonneg (t : Teller) (who : String) (f : Cost →+ M) :
    total f (t.payCost c who).cost = total f t.cost +
      (f ⟨0, c.net, c.cpu, []⟩ + (c.dataList.map fun i => f ⟨i.val, 0, 0, [i]⟩).sum) := by
  rw [total_payCost, total_splitCost]
  by_cases hp : 0 < c.cpu ∨ 0 < c.net
  · simp only [hp, if_true]
  · obtain ⟨hc, hn⟩ := eq_zero_of_not_guard hcpu hnet hp
    simp only [hp, if_false, hc, hn]
    exact congrArg (total f t.cost + ·) (congrArg (· + _) (map_zero f).symm)

theorem total_payCost_eq_add (hdata : c.data = (c.dataList.map DataItem.val).sum) (t : Teller)
    (who : String) (f : Cost →+ M) :
    total f (t.payCost c who).cost = total f t.cost + f c := by
  conv_rhs => rw [Cost.eq_add_items hdata]
  rw [total_payCost_of_nonneg hcpu hnet, map_add, map_list_sum, List.map_map]
  rfl

end Nonneg

-- `PayCost` adds to each account its share of `c` and leaves every other account as it was;
-- `FlushCacheCost` pays the cache the same way and empties it.
theorem payCost_adds_each_share (t : Teller) (c : Cost) (who : String) (hcpu : 0 ≤ c.cpu)
    (hnet : 0 ≤ c.net) (hdata : c.data = (c.dataList.map DataItem.val).sum) :
    let m := t.cost
    let m' := (t.payCost c who).cost
    let t' := { t with cacheCost := c }.flushCacheCost
    (∀ a, (costOf m' a).cpu = (costOf m a).cpu + (if a = who then c.cpu else 0) ∧
        (costOf m' a).net = (costOf m a).net + (if a = who then c.net else 0) ∧
        (costOf m' a).data = (costOf m a).data +
          ((c.dataList.filter fun i => i.payer = a).map DataItem.val).sum ∧
        (costOf m' a).dataList = (costOf m a).dataList ++ c.dataList.filter fun i => i.payer = a) ∧
      (∀ a, (a = who → c.cpu = 0 ∧ c.net = 0) → (∀ i ∈ c.dataList, i.payer ≠ a) →
        m'.lookup a = m.lookup a) ∧
      total Cost.cpu m' = total Cost.cpu m + c.cpu ∧
      total Cost.net m' = total Cost.net m + c.net ∧
      total Cost.data m' = total Cost.data m + c.data ∧
      t'.cacheCost = cost0 ∧
      total Cost.cpu t'.cost = total Cost.cpu m + c.cpu ∧
      total Cost.net t'.cost = total Cost.net m + c.net ∧
      total Cost.data t'.cost = total Cost.data m + c.data := by
  have hpay (f : Cost →+ Int64) := total_payCost_eq_add hcpu hnet hdata t who f
  have hflush (f : Cost →+ Int64) := total_payCost_eq_add hcpu hnet hdata t "" f
  refine ⟨fun a => ?_, fun a hw hi => ?_, hpay Cost.cpuHom, hpay Cost.netHom, hpay Cost.dataHom,
    rfl, hflush Cost.cpuHom, hflush Cost.netHom, hflush Cost.dataHom⟩
  case refine_1 =>
    rw [costOf_payCost_of_nonneg hcpu hnet, sum_itemCosts]
    split_ifs <;> simp
  case refine_2 =>
    refine lookup_payCost_of_lookup_eq_none t c who (lookup_splitCost_of_forall_ne c who ?_ hi)
    rintro ⟨rfl, hp⟩
    simp [(hw rfl).1, (hw rfl).2] at hp

theorem payCost_adds_each_share_own_item :
    let c : Cost := ⟨5, 1, 2, [⟨"a", 2⟩, ⟨"b", 3⟩]⟩
    let m := newTeller.cost
    let m' := (newTeller.payCost c "a").cost
    let t' := { newTeller with cacheCost := c }.flushCacheCost
    (∀ a, (costOf m' a).cpu = (costOf m a).cpu + (if a = "a" then c.cpu else 0) ∧
        (costOf m' a).net = (costOf m a).net + (if a = "a" then c.net else 0) ∧
        (costOf m' a).data = (costOf m a).data +
          ((c.dataList.filter fun i => i.payer = a).map DataItem.val).sum ∧
        (costOf m' a).dataList = (costOf m a).dataList ++ c.dataList.filter fun i => i.payer = a) ∧
      (∀ a, (a = "a" → c.cpu = 0 ∧ c.net = 0) → (∀ i ∈ c.dataList, i.payer ≠ a) →
        m'.lookup a = m.lookup a) ∧
      total Cost.cpu m' = total Cost.cpu m + c.cpu ∧
      total Cost.net m' = total Cost.net m + c.net ∧
      total Cost.data m' = total Cost.data m + c.data ∧
      t'.cacheCost = cost0 ∧
      total Cost.cpu t'.cost = total Cost.cpu m + c.cpu ∧
      total Cost.net t'.cost = total Cost.net m + c.net ∧
      total Cost.data t'.cost = total Cost.data m + c.data :=
  payCost_adds_each_share newTeller ⟨5, 1, 2, [⟨"a", 2⟩, ⟨"b", 3⟩]⟩ "a" (by decide) (by decide)
    (by decide)

section ClearRAM

theorem total_insert_of_not_mem {m : CostMap} {k : String} (hk : k ∉ m) (v : Cost)
    (f : Cost →+ M) : total f (m.insert k v) = total f m + f v := by
  have hm : costOf m k = 0 := by rw [costOf, AList.lookup_eq_none.mpr hk]; rfl
  rw [show m.insert k v = addCost m k v by rw [addCost_eq_insert, hm, zero_add], total_addCost]

theorem lookup_foldl_clearRAMEntry {a : String} :
    ∀ {l : List (Σ _ : String, Cost)} (m : CostMap), l.NodupKeys →
      (l.foldl clearRAMEntry m).lookup a =
        match l.dlookup a with
        | some c => if c.net ≠ 0 ∨ c.cpu ≠ 0 then some (newCost 0 c.net c.cpu) else m.lookup a
        | none => m.lookup a
  | [], _, _ => rfl
  | ⟨k, c⟩ :: l, m, h => by
    have ⟨hk, hl⟩ := List.nodupKeys_cons.mp h
    rw [List.foldl_cons, lookup_foldl_clearRAMEntry _ hl]
    by_cases hka : k = a
    · subst hka
      rw [List.dlookup_eq_none.mpr hk, List.dlookup_cons_eq]
      dsimp only [clearRAMEntry]
      split_ifs with hkeep <;> simp [AList.lookup_insert, hkeep]
    · rw [List.dlookup_cons_ne l ⟨k, c⟩ (Ne.symm hka)]
      dsimp only [clearRAMEntry]
      split_ifs <;> simp only [AList.lookup_insert_ne (Ne.symm hka)]

theorem total_foldl_clearRAMEntry (f : Cost →+ M) :
    ∀ {l : List (Σ _ : String, Cost)} (m : CostMap), l.NodupKeys → (∀ e ∈ l, e.1 ∉ m) →
      total f (l.foldl clearRAMEntry m) =
        total f m + (l.map fun e => f (newCost 0 e.2.net e.2.cpu)).sum
  | [], _, _, _ => by simp
  | ⟨k, c⟩ :: l, m, h, hm => by
    have ⟨hk, hl⟩ := List.nodupKeys_cons.mp h
    have hfresh : ∀ e ∈ l, e.1 ∉ clearRAMEntry m ⟨k, c⟩ := fun e he => by
      have hne : e.1 ≠ k := fun hek => hk (hek ▸ @List.mem_keys_of_mem _ _ e l he)
      unfold clearRAMEntry
      split_ifs
      · exact fun hin => hm e (.tail _ he) (((AList.mem_insert _).mp hin).resolve_left hne)
      · exact hm e (.tail _ he)
    rw [List.foldl_cons, total_foldl_clearRAMEntry f _ hl hfresh, List.map_cons, List.sum_cons,
      ← add_assoc]
    congr 1
    unfold clearRAMEntry
    split_ifs with hkeep
    · exact total_insert_of_not_mem (hm _ (.head l)) _ f
    · obtain ⟨hn, hc⟩ := not_or.mp hkeep
      rw [not_not.mp hn, not_not.mp hc]
      exact (add_zero _).symm.trans (congrArg _ (map_zero f).symm)

end ClearRAM

-- `ClearRAMCosts` drops every RAM charge and keeps the gas.
theorem clearRAMCosts_keeps_gas (t : Teller) :
    (∀ a, t.clearRAMCosts.cost.lookup a = (t.cost.lookup a).bind fun c =>
        if c.net ≠ 0 ∨ c.cpu ≠ 0 then some ⟨0, c.net, c.cpu, []⟩ else none) ∧
      total Cost.net t.clearRAMCosts.cost = total Cost.net t.cost ∧
      total Cost.cpu t.clearRAMCosts.cost = total Cost.cpu t.cost ∧
      total Cost.data t.clearRAMCosts.cost = 0 := by
  have htotal (f : Cost →+ Int64) := total_foldl_clearRAMEntry f ∅ t.cost.nodupKeys
    fun _ _ h => AList.not_mem_empty _ h
  refine ⟨fun a => ?_, ?_, ?_, ?_⟩
  · rw [Teller.clearRAMCosts, lookup_foldl_clearRAMEntry _ t.cost.nodupKeys]
    show _ = (t.cost.entries.dlookup a).bind _
    cases t.cost.entries.dlookup a <;> rfl
  · simpa [total, newCost] using htotal Cost.netHom
  · simpa [total, newCost] using htotal Cost.cpuHom
  · simpa [total, newCost, nsmul_zero] using htotal Cost.dataHom

end GoIost.Host
