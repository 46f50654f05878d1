import GoIost.Host.Theorems.CostMap

namespace GoIost.Host

-- What `PayCost` asks of a cost it pays.
structure Cost.Payable (c : Cost) : Prop where
  cpu_nonneg : 0 ≤ c.cpu
  net_nonneg : 0 ≤ c.net
  data_eq : c.data = (c.dataList.map DataItem.val).sum

namespace Teller

-- A run of the teller from `NewTeller`; `charged` lists the costs charged so far, in order.
inductive Run : List Cost → Teller → Prop
  | newTeller : Run [] newTeller
  | payCost {charged t} (c : Cost) (who : String) (hc : c.Payable) :
      Run charged t → Run (charged ++ [c]) (t.payCost c who)
  | addCacheCost {charged t} (c : Cost) (hc : c.data = (c.dataList.map DataItem.val).sum) :
      Run charged t → Run (charged ++ [c]) (t.addCacheCost c)
  | flushCacheCost {charged t} (hcpu : 0 ≤ t.cacheCost.cpu) (hnet : 0 ≤ t.cacheCost.net) :
      Run charged t → Run charged t.flushCacheCost

structure Conserves (charged : List Cost) (t : Teller) : Prop where
  cache_data : t.cacheCost.data = (t.cacheCost.dataList.map DataItem.val).sum
  total_add_cache : ∀ {M : Type} [AddCommMonoid M] (f : Cost →+ M),
    total f t.cost + f t.cacheCost = (charged.map f).sum

variable {charged : List Cost} {t : Teller}

theorem Conserves.newTeller : Conserves [] newTeller where
  cache_data := rfl
  total_add_cache f := by simp [total, Host.newTeller]

theorem Conserves.payCost (h : Conserves charged t) {c : Cost} (hc : c.Payable) (who : String) :
    Conserves (charged ++ [c]) (t.payCost c who) where
  cache_data := h.cache_data
  total_add_cache f := by
    rw [total_payCost_eq_add hc.cpu_nonneg hc.net_nonneg hc.data_eq, List.map_append,
      List.sum_append, ← h.total_add_cache f]
    simp only [List.map_cons, List.map_nil, List.sum_cons, List.sum_nil, add_zero]
    exact add_right_comm _ _ _

theorem Conserves.addCacheCost (h : Conserves charged t) {c : Cost}
    (hc : c.data = (c.dataList.map DataItem.val).sum) :
    Conserves (charged ++ [c]) (t.addCacheCost c) where
  cache_data := by simp [h.cache_data, hc]
  total_add_cache f := by
    simp only [addCacheCost_cost, addCacheCost_cacheCost, map_add, List.map_append,
      List.sum_append, ← h.total_add_cache f, List.map_cons, List.map_nil, List.sum_cons,
      List.sum_nil, add_zero]
    exact (add_assoc _ _ _).symm

theorem Conserves.flushCacheCost (h : Conserves charged t) (hcpu : 0 ≤ t.cacheCost.cpu)
    (hnet : 0 ≤ t.cacheCost.net) : Conserves charged t.flushCacheCost where
  cache_data := rfl
  total_add_cache f := by
    rw [← h.total_add_cache f, ← total_payCost_eq_add hcpu hnet h.cache_data t "",
      flushCacheCost_cost, flushCacheCost_cacheCost, map_zero, add_zero]

theorem Run.conserves (h : Run charged t) : Conserves charged t := by
  induction h with
  | newTeller => exact .newTeller
  | payCost c who hc _ ih => exact ih.payCost hc who
  | addCacheCost c hc _ ih => exact ih.addCacheCost hc
  | flushCacheCost hcpu hnet _ ih => exact ih.flushCacheCost hcpu hnet

end Teller

-- Over every run of the teller, each amount charged is held exactly once, in the cost map or in
-- the cache.
theorem run_keeps_every_charge {charged : List Cost} {t : Teller} (h : t.Run charged) :
    total Cost.cpu t.cost + t.cacheCost.cpu = (charged.map Cost.cpu).sum ∧
      total Cost.net t.cost + t.cacheCost.net = (charged.map Cost.net).sum ∧
      total Cost.data t.cost + t.cacheCost.data = (charged.map Cost.data).sum ∧
      total (fun c => (c.dataList : Multiset DataItem)) t.cost + t.cacheCost.dataList =
        (charged.flatMap Cost.dataList : Multiset DataItem) :=
  have hc := h.conserves
  ⟨hc.total_add_cache Cost.cpuHom, hc.total_add_cache Cost.netHom,
    hc.total_add_cache Cost.dataHom, by
      have items := hc.total_add_cache Cost.itemsHom
      rw [← map_list_sum] at items
      simpa [Cost.dataList_sum] using items⟩

theorem run_keeps_every_charge_flushed :
    let c₁ : Cost := ⟨2, 1, 1, [⟨"a", 2⟩]⟩
    let c₂ : Cost := ⟨3, 0, 4, [⟨"b", 3⟩]⟩
    let t := ((newTeller.addCacheCost c₁).payCost c₂ "a").flushCacheCost
    total Cost.cpu t.cost + t.cacheCost.cpu = ([c₁, c₂].map Cost.cpu).sum ∧
      total Cost.net t.cost + t.cacheCost.net = ([c₁, c₂].map Cost.net).sum ∧
      total Cost.data t.cost + t.cacheCost.data = ([c₁, c₂].map Cost.data).sum ∧
      total (fun c => (c.dataList : Multiset DataItem)) t.cost + t.cacheCost.dataList =
        ([c₁, c₂].flatMap Cost.dataList : Multiset DataItem) :=
  run_keeps_every_charge (.flushCacheCost (by decide) (by decide)
    (.payCost _ "a" ⟨by decide, by decide, by decide⟩ (.addCacheCost _ (by decide) .newTeller)))

end GoIost.Host
