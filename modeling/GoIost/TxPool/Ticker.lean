import GoIost.TxPool.Defer

namespace GoIost.TxPool

open Int64

-- `minTickerTime`, `time.Second` in nanoseconds.
def minTickerTime : Int64 := 1000000000

-- Where the goroutine running `deferTicker` stands, between two operations on shared state.
inductive TickerPc
  | top                      -- the head of the `for` loop
  | waiting (wake : Int)     -- in the `select`, its timer firing when the clock reaches `wake`
  | visit (deferTx : Tx)     -- the iterator on `deferTx`; the check against the clock comes next
  | removing (deferTx : Tx)  -- `AddDefertx` took `deferTx`; `d.pool.Remove(deferTx)` comes next
  | advancing (deferTx : Tx) -- `ok = iter.Next()` comes next
  | storing (t : Int64)      -- `d.nextScheduleTime.Store(t)` comes next, then the loop head
  | replying                 -- took `<-d.quitCh`; the reply `d.quitCh <- struct{}{}` comes next
  | returned
deriving DecidableEq, Repr

-- Where the goroutine calling `StoreDeferTx` and `DelDeferTx` stands.
inductive CallerPc
  | idle
  | comparing (idx : Tx) -- `Put` done; `idx.Time < d.nextScheduleTime.Load()` comes next
  | storing (idx : Tx)   -- `d.nextScheduleTime.Store(idx.Time)` comes next
  | stopping             -- `restartDeferTicker`: `d.quitCh <- struct{}{}` comes next
  | awaiting             -- `<-d.quitCh` comes next
  | spawning             -- `go d.deferTicker()` comes next
deriving DecidableEq, Repr

-- The `DeferServer` with its goroutines: the tree, `nextScheduleTime`, the clock
-- `time.Now().UnixNano()`, the running ticker, and one goroutine that calls `StoreDeferTx` and
-- `DelDeferTx`, one call after the other.
structure Server where
  pool : List Tx
  nextScheduleTime : Int64
  clock : Int64
  ticker : TickerPc
  caller : CallerPc

-- What a step does, as it is seen from outside the server.
inductive Event
  | clock                                   -- time passes
  | store (delayTx : Tx)                    -- `StoreDeferTx(delayTx)` puts the index
  | del (deferTx : Tx)                      -- `DelDeferTx(deferTx)`
  | caller                                  -- a later step of `StoreDeferTx`
  | quit                                    -- the two ends of `quitCh` meet
  | ticker                                  -- a step of the ticker that calls no one
  | add (deferTx : Tx) (r : AddDeferResult) -- `AddDefertx(deferTx.ReferredTx)` answers `r`
deriving DecidableEq, Repr

-- The timer of the `select`: `scheduled` is `nextScheduleTime - now` in `int64`, at least
-- `minTickerTime`, and the timer fires once the clock has moved on by `scheduled`.
def wakeAt (next now : Int64) : Int :=
  let scheduled := next - now
  now.toInt + (if scheduled < minTickerTime then minTickerTime else scheduled).toInt

-- Where the ticker goes once the iterator moved: on to the entry it found, or, with `ok` false,
-- to `d.nextScheduleTime.Store(math.MaxInt64)`.
def afterNext : Option Tx → TickerPc
  | none => .storing maxInt64
  | some e => .visit e

-- Where the ticker goes after `AddDefertx` answered `r` on `deferTx`.
def afterAdd (deferTx : Tx) : AddDeferResult → TickerPc
  | .errCacheFull => .storing deferTx.time
  | .ok | .errDupChainTx | .errDupPendingTx => .removing deferTx
  | .other _ => .advancing deferTx

section

variable (txHash : Tx → Hash)

-- `iter.Next()` from `deferTx`: the first entry of the tree's order above `deferTx`'s key. The
-- iterator moves on from the key it stands on, which may have left the tree meanwhile.
def succ (deferTx : Tx) (pool : List Tx) : Option Tx :=
  pool.find? fun e => compareDeferTx txHash deferTx e < 0

-- `NewDeferServer` and then `Start`.
def Server.init (txs : List Tx) (clock : Int64) : Server :=
  ⟨(newDeferServer txHash txs).pool, 0, clock, .top, .idle⟩

-- The steps of the server. Each tree operation holds `d.rw` and is one step, each operation on
-- the atomic `nextScheduleTime` is one step, and `AddDefertx`, whose answer is free, is one step
-- together with the clock check before it, which reads nothing shared. A send or receive on the
-- unbuffered `quitCh` is a step of both of its ends.
inductive Server.Step : Server → Event → Server → Prop
  | clock {s : Server} {t : Int64} : s.clock ≤ t → Step s .clock { s with clock := t }
  | store {s : Server} (delayTx : Tx) : s.caller = .idle →
      Step s (.store delayTx)
        { s with pool := put txHash (toIndex txHash delayTx) s.pool,
                 caller := .comparing (toIndex txHash delayTx) }
  | lower {s : Server} {idx : Tx} : s.caller = .comparing idx → idx.time < s.nextScheduleTime →
      Step s .caller { s with caller := .storing idx }
  | notLower {s : Server} {idx : Tx} : s.caller = .comparing idx →
      ¬idx.time < s.nextScheduleTime → Step s .caller { s with caller := .idle }
  | storeLower {s : Server} {idx : Tx} : s.caller = .storing idx →
      Step s .caller { s with nextScheduleTime := idx.time, caller := .stopping }
  | stop {s : Server} {wake : Int} : s.caller = .stopping → s.ticker = .waiting wake →
      Step s .quit { s with caller := .awaiting, ticker := .replying }
  | reply {s : Server} : s.caller = .awaiting → s.ticker = .replying →
      Step s .quit { s with caller := .spawning, ticker := .returned }
  | spawn {s : Server} : s.caller = .spawning →
      Step s .caller { s with caller := .idle, ticker := .top }
  | del {s : Server} (deferTx : Tx) : s.caller = .idle →
      Step s (.del deferTx)
        { s with pool := remove txHash ⟨deferTx.time, 0, deferTx.referredTx⟩ s.pool }
  | schedule {s : Server} : s.ticker = .top →
      Step s .ticker { s with ticker := .waiting (wakeAt s.nextScheduleTime s.clock) }
  -- the timer fires; `iter.Next()` on a new iterator finds the first entry
  | fire {s : Server} {wake : Int} : s.ticker = .waiting wake → wake ≤ s.clock.toInt →
      Step s .ticker { s with ticker := afterNext s.pool.head? }
  | notDue {s : Server} {deferTx : Tx} : s.ticker = .visit deferTx → s.clock < deferTx.time →
      Step s .ticker { s with ticker := .storing deferTx.time }
  | add {s : Server} {deferTx : Tx} (r : AddDeferResult) : s.ticker = .visit deferTx →
      deferTx.time ≤ s.clock → Step s (.add deferTx r) { s with ticker := afterAdd deferTx r }
  | remove {s : Server} {deferTx : Tx} : s.ticker = .removing deferTx →
      Step s .ticker { s with pool := remove txHash deferTx s.pool, ticker := .advancing deferTx }
  | next {s : Server} {deferTx : Tx} : s.ticker = .advancing deferTx →
      Step s .ticker { s with ticker := afterNext (succ txHash deferTx s.pool) }
  | storeNext {s : Server} {t : Int64} : s.ticker = .storing t →
      Step s .ticker { s with nextScheduleTime := t, ticker := .top }

-- A run of the server, with the events of its steps in order.
inductive Server.Steps : Server → List Event → Server → Prop
  | refl (s : Server) : Steps s [] s
  | head {s s' s'' : Server} {e : Event} {es : List Event} :
      Server.Step txHash s e s' → Steps s' es s'' → Steps s (e :: es) s''

-- The states a server reaches from `Server.init`; `allowed` says which delay transactions the
-- chain may hold and `StoreDeferTx` may be called with.
inductive Server.Reachable (allowed : Tx → Prop) : Server → Prop
  | init (txs : List Tx) (clock : Int64) : (∀ t ∈ txs, allowed t) →
      Reachable allowed (Server.init txHash txs clock)
  | step {s s' : Server} {e : Event} : Reachable allowed s → Server.Step txHash s e s' →
      (∀ t, e = .store t → allowed t) → Reachable allowed s'

end

-- The ticker's own steps.
def Event.byTicker : Event → Bool
  | .ticker | .add .. => true
  | _ => false

-- The calls of `AddDefertx` a run makes, with their answers, in order.
def Event.call : Event → Option (Tx × AddDeferResult)
  | .add deferTx r => some (deferTx, r)
  | _ => none

def calls (es : List Event) : List (Tx × AddDeferResult) :=
  es.filterMap Event.call

end GoIost.TxPool
