import GoIost.P2p.Peer
import GoIost.P2p.WriteLoop

namespace GoIost.P2p

-- A peer with all its goroutines: the outbox that `SendMessage`, `Stop` and `writeLoop` share, the
-- stream pool, and whether `writeLoop` is inside a call of `write`, which runs on the pool.
structure Node (Msg : Type) where
  outbox : Outbox Msg
  peer : Peer
  writing : Bool

namespace Node

variable {Msg : Type}

-- What `NewPeer` allocates; its own `AddStream` is the first step of a run.
def empty : Node Msg :=
  ⟨.empty, .empty, false⟩

end Node

namespace Event

variable {Msg : Type}

-- The steps of `SendMessage` and `Stop`, which any goroutine may take at any time; the others are
-- `writeLoop`'s.
def byCaller : Event Msg → Bool
  | .send .. | .sendFailed .. | .stop => true
  | .write .. | .skip | .quit => false

-- `writeLoop` received a message and calls `write` with it.
def isWrite : Event Msg → Bool
  | .write .. => true
  | _ => false

end Event

-- A pool step that brings the writer back to `idle` ends the call of `write`.
def endsWrite (p p' : Peer) : Bool :=
  p.writer != .idle && p'.writer == .idle

-- What a step of the node does: a step of the outbox, with its event, or a step on the pool.
inductive NodeEvent (Msg : Type)
  | outbox (e : Event Msg)
  | pool

-- The steps of a peer: `SendMessage` and `Stop` at any time; `writeLoop`'s selects only between two
-- calls of `write`; `AddStream` from a stream handler at any time, and the steps of `write` only
-- while a call runs. `writeLoop` reaches its next select when `write` returns.
inductive Node.Step {Msg : Type} : Node Msg → NodeEvent Msg → Node Msg → Prop
  | caller {n : Node Msg} {e : Event Msg} {o' : Outbox Msg} :
      e.byCaller → n.outbox.Step e o' → Step n (.outbox e) { n with outbox := o' }
  | loop {n : Node Msg} {e : Event Msg} {o' : Outbox Msg} :
      e.byCaller = false → n.writing = false → n.outbox.Step e o' →
      Step n (.outbox e) { n with outbox := o', writing := e.isWrite }
  | pool {n : Node Msg} {p' : Peer} :
      P2p.Step n.peer p' → (n.writing = false → p'.writer = n.peer.writer) →
      Step n .pool { n with peer := p', writing := n.writing && !endsWrite n.peer p' }

-- A run of the peer, with the events of its steps in order.
inductive Node.Steps {Msg : Type} : Node Msg → List (NodeEvent Msg) → Node Msg → Prop
  | refl (n : Node Msg) : Steps n [] n
  | head {n n' n'' : Node Msg} {e : NodeEvent Msg} {es : List (NodeEvent Msg)} :
      Step n e n' → Steps n' es n'' → Steps n (e :: es) n''

-- The outbox events of a run of the peer.
def NodeEvent.outboxEvents {Msg : Type} : NodeEvent Msg → List (Event Msg)
  | .outbox e => [e]
  | .pool => []

end GoIost.P2p
