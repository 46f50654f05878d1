import GoIost.TxPool.Ticker
import GoIost.TxPool.Theorems.Index

namespace GoIost.TxPool

open Int64

variable {txHash : Tx → Hash}

section Around

variable {pre rest : List Tx} {e : Tx}

end Around

-- The entry the ticker's iterator stands on.
def TickerPc.held : TickerPc → Option Tx
  | .visit e | .removing e | .advancing e => some e
  | _ => none

@[simp] theorem held_afterNext (o : Option Tx) : (afterNext o).held = o := by
  cases o <;> rfl

-- Every key the server holds has delay zero, so the ticker's `Remove` is `DelDeferTx`'s.
structure IndexKeys (s : Server) : Prop where
  pool : ∀ x ∈ s.pool, x.delay = 0
  held : ∀ x, s.ticker.held = some x → x.delay = 0

theorem foldl_put_delay (txs : List Tx) : ∀ {pool : List Tx}, (∀ x ∈ pool, x.delay = 0) →
    ∀ x ∈ txs.foldl (fun pool t => put txHash (toIndex txHash t) pool) pool, x.delay = 0 := by
  induction txs with
  | nil => exact id
  | cons t txs ih => exact fun hp => ih fun x hx => (mem_put hx).elim (· ▸ rfl) (hp x)

theorem Server.Step.indexKeys {s s' : Server} {ev : Event} (h : s.Step txHash ev s')
    (hs : IndexKeys s) : IndexKeys s' := by
  have none_held {t : TickerPc} (ht : t.held = none) : ∀ x, t.held = some x → x.delay = 0 :=
    fun _ h => by simp [ht] at h
  have pool_sub {l : List Tx} (hl : l.Sublist s.pool) : ∀ x ∈ l, x.delay = 0 :=
    fun x hx => hs.pool x (hl.subset hx)
  cases h with
  | store t _ => exact ⟨fun x hx => (mem_put hx).elim (· ▸ rfl) (hs.pool x), hs.held⟩
  | stop | reply | spawn | schedule | notDue | storeNext => exact ⟨hs.pool, none_held rfl⟩
  | del t _ => exact ⟨pool_sub (remove_sublist _ _), hs.held⟩
  | fire =>
    refine ⟨hs.pool, fun x hx => hs.pool x ?_⟩
    simp only [held_afterNext] at hx
    exact List.mem_of_mem_head? hx
  | @add e r ht _ =>
    refine ⟨hs.pool, fun x hx => hs.held x ?_⟩
    cases r <;> simp_all [afterAdd, TickerPc.held]
  | remove ht =>
    exact ⟨pool_sub (remove_sublist _ _), fun x hx => hs.held x (by simpa [ht] using hx)⟩
  | next =>
    refine ⟨hs.pool, fun x hx => hs.pool x ?_⟩
    simp only [held_afterNext] at hx
    exact List.mem_of_find?_eq_some hx
  | _ => exact ⟨hs.pool, hs.held⟩

theorem Tx.eq_of_delay_eq_zero {x : Tx} (h : x.delay = 0) :
    (⟨x.time, 0, x.referredTx⟩ : Tx) = x := by
  cases x; cases h; rfl

theorem Server.Reachable.refines {allowed : Tx → Prop} {s : Server}
    (h : s.Reachable txHash allowed) :
    IndexKeys s ∧ ∃ d, Run txHash allowed d ∧ d.pool = s.pool := by
  induction h with
  | init txs clock htxs =>
    exact ⟨⟨foldl_put_delay txs (by simp), fun _ h => by cases h⟩, _, .build txs htxs, rfl⟩
  | step _ hst hstore ih =>
    obtain ⟨hk, d, hd, hp⟩ := ih
    refine ⟨hst.indexKeys hk, ?_⟩
    cases hst with
    | store t _ => exact ⟨_, .store t hd (hstore t rfl), by rw [storeDeferTx_pool, hp]⟩
    | del t _ => exact ⟨_, .del t hd, by rw [delDeferTx_pool, hp]⟩
    | @remove deferTx ht =>
      have h0 := hk.held deferTx (by rw [ht]; rfl)
      exact ⟨_, .del deferTx hd, by rw [delDeferTx_pool, hp, Tx.eq_of_delay_eq_zero h0]⟩
    | _ => exact ⟨d, hd, hp⟩

theorem Server.Reachable.orderedPool {s : Server} (h : s.Reachable txHash NoOverflow) :
    OrderedPool txHash s.pool :=
  let ⟨_, _, hd, hp⟩ := h.refines
  hp ▸ hd.orderedPool

section Solo

variable (txHash) (add : Hash → AddDeferResult)

-- The due entries `AddDefertx` is called on: up to the first answered `ErrCacheFull`.
def untilCacheFull : List Tx → List Tx
  | [] => []
  | e :: l => if add e.referredTx = .errCacheFull then [e] else e :: untilCacheFull l

-- From `s`, the ticker alone walks `visit` and gets back to its loop head as the atomic pass.
def SoloPass (s : Server) (visit : List Tx) : Prop :=
  ∃ es s', s.Steps txHash es s' ∧ (∀ ev ∈ es, ev.byTicker) ∧
    calls es = (untilCacheFull add (visit.filter fun x => x.time ≤ s.clock)).map
      (fun x => (x, add x.referredTx)) ∧
    s' = { s with pool := (deferTicker.pass txHash s.clock add visit s.pool).1,
                  nextScheduleTime := (deferTicker.pass txHash s.clock add visit s.pool).2,
                  ticker := .top }

variable {txHash add}

theorem SoloPass.ticker {s : Server} {t : TickerPc} {visit : List Tx}
    (h : s.Step txHash .ticker { s with ticker := t })
    (hs : SoloPass txHash add { s with ticker := t } visit) : SoloPass txHash add s visit :=
  let ⟨es, s', hrun, hby, hcalls, hs'⟩ := hs
  ⟨.ticker :: es, s', .head h hrun, List.forall_mem_cons.mpr ⟨rfl, hby⟩, hcalls, hs'⟩

end Solo

section Race

theorem Server.Step.clock_le {s s' : Server} {ev : Event} (h : s.Step txHash ev s') :
    s.clock ≤ s'.clock := by
  cases h with
  | clock hle => exact hle
  | _ => exact Int.le_refl _

theorem Server.Steps.clock_le {s s' : Server} {es : List Event} (h : s.Steps txHash es s') :
    s.clock ≤ s'.clock := by
  induction h with
  | refl => exact Int.le_refl _
  | head hs _ ih => exact Int.le_trans hs.clock_le ih

theorem maxInt64_le_wakeAt {now : Int64} (h : 0 ≤ now.toInt) :
    maxInt64.toInt ≤ wakeAt maxInt64 now := by
  have := now.lt_max
  have hsub : (maxInt64 - now).toInt = 2 ^ 63 - 1 - now.toInt :=
    toInt_sub_of_inRange ⟨by simp; omega, by simp; omega⟩
  have hmin : minTickerTime.toInt = 1000000000 := rfl
  simp only [wakeAt, lt_iff, hsub, hmin, toInt_maxInt64]
  split_ifs <;> simp only [hsub, hmin] <;> omega

-- No `StoreDeferTx` under way, and the ticker waiting for `nextScheduleTime = MaxInt64`.
structure Stalled (s : Server) : Prop where
  next : s.nextScheduleTime = maxInt64
  caller : s.caller = .idle
  ticker : s.ticker = .top ∨ ∃ wake, s.ticker = .waiting wake ∧ maxInt64.toInt ≤ wake
  clock : 0 ≤ s.clock.toInt

theorem Stalled.step {s s' : Server} {ev : Event} (hs : Stalled s) (h : s.Step txHash ev s')
    (hev : ∀ t, ev ≠ .store t) (hc : s.clock < maxInt64) : Stalled s' ∧ ev.call = none := by
  have ⟨hn, hi, ht, h0⟩ := hs
  cases h with
  | clock hle => exact ⟨⟨hn, hi, ht, Int.le_trans h0 hle⟩, rfl⟩
  | store t _ => exact absurd rfl (hev t)
  | lower hcl _ | notLower hcl _ | storeLower hcl | stop hcl _ | reply hcl _ | spawn hcl =>
    simp [hi] at hcl
  | del t _ => exact ⟨⟨hn, hi, ht, h0⟩, rfl⟩
  | schedule _ => exact ⟨⟨hn, hi, .inr ⟨_, rfl, by rw [hn]; exact maxInt64_le_wakeAt h0⟩, h0⟩, rfl⟩
  | fire hw hle =>
    rcases ht with ht | ⟨w, ht, hmax⟩ <;> rw [ht] at hw <;> cases hw
    exact absurd (Int.lt_of_le_of_lt (Int.le_trans hmax hle) hc) (Int.lt_irrefl _)
  | notDue h' _ | add _ h' _ | remove h' | next h' | storeNext h' =>
    rcases ht with ht | ⟨_, ht, _⟩ <;> rw [ht] at h' <;> cases h'

theorem Stalled.steps {s s' : Server} {es : List Event} (h : s.Steps txHash es s') :
    Stalled s → (∀ t, .store t ∉ es) → s'.clock < maxInt64 → calls es = [] := by
  induction h with
  | refl => exact fun _ _ _ => rfl
  | head hstep hrest ih =>
    intro hs hno hc
    have ⟨hs', hcall⟩ := hs.step hstep (fun t h => hno t (h ▸ List.mem_cons_self _ _))
      (Int.lt_of_le_of_lt (Int.le_trans hstep.clock_le hrest.clock_le) hc)
    simp only [calls, List.filterMap_cons, hcall]
    exact ih hs' (fun t h => hno t (List.mem_cons_of_mem _ h)) hc

-- `StoreDeferTx` between the ticker's last `iter.Next()` and its `Store(math.MaxInt64)` loses its
-- wake-up: until the next `StoreDeferTx` the ticker calls `AddDefertx` on nothing.
theorem storeDeferTx_lost_at_pass_end {s : Server} (ht : s.ticker = .storing maxInt64)
    (hc : s.caller = .idle) (h0 : 0 ≤ s.clock.toInt) (delayTx : Tx) :
    let s' := { s with pool := put txHash (toIndex txHash delayTx) s.pool,
                       nextScheduleTime := maxInt64, ticker := .top, caller := .idle }
    (∃ es, s.Steps txHash es s' ∧ es.head? = some (.store delayTx)) ∧
      ∀ es s'', s'.Steps txHash es s'' → (∀ t, .store t ∉ es) → s''.clock < maxInt64 →
        calls es = [] := by
  intro s'
  refine ⟨?_, fun es s'' h hno hlt => Stalled.steps h ⟨rfl, rfl, .inl rfl, h0⟩ hno hlt⟩
  by_cases hlow : (toIndex txHash delayTx).time < s.nextScheduleTime
  · case pos =>
    exact ⟨_, .head (.store delayTx hc) (.head (.lower rfl hlow) (.head (.storeLower rfl)
      (.head (.storeNext ht) (.head (.schedule rfl) (.head (.stop rfl rfl) (.head (.reply rfl rfl)
        (.head (.spawn rfl) (.refl _)))))))), rfl⟩
  · case neg =>
    exact ⟨_, .head (.store delayTx hc) (.head (.notLower rfl hlow) (.head (.storeNext ht)
      (.refl _))), rfl⟩

theorem storeDeferTx_lost_at_pass_end_empty_tree :
    let s : Server := ⟨[], 0, 1000000000, .storing maxInt64, .idle⟩
    s.Reachable (fun _ => []) NoOverflow ∧ s.ticker = .storing maxInt64 ∧ s.caller = .idle ∧
      0 ≤ s.clock.toInt ∧
      let s' := { s with pool := put (fun _ => []) (toIndex (fun _ => []) ⟨0, 5, []⟩) s.pool,
                         nextScheduleTime := maxInt64, ticker := .top, caller := .idle }
      (∃ es, s.Steps (fun _ => []) es s' ∧ es.head? = some (.store ⟨0, 5, []⟩)) ∧
        ∀ es s'', s'.Steps (fun _ => []) es s'' → (∀ t, .store t ∉ es) →
          s''.clock < maxInt64 → calls es = [] :=
  have h : Server.Reachable (fun _ => []) NoOverflow
      ⟨[], 0, 1000000000, .storing maxInt64, .idle⟩ :=
    .step (.step (.step (.init [] 0 (by decide)) (.schedule rfl) (by simp)) (.clock (by decide))
      (by simp)) (.fire rfl (by decide)) (by simp)
  ⟨h, rfl, rfl, by decide, storeDeferTx_lost_at_pass_end rfl rfl (by decide) ⟨0, 5, []⟩⟩

end Race

end GoIost.TxPool
