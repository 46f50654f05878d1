import Mathlib.Data.List.Basic

namespace GoIost.P2p

-- `msgChanSize`, the capacity of `urgentMsgCh` and of `normalMsgCh`.
def msgChanSize : Nat := 1024

-- `MessagePriority` is declared outside this file. `SendMessage` tells its two constants
-- `UrgentMessage` and `NormalMessage` apart from every other value.
inductive MessagePriority
  | urgentMessage
  | normalMessage
  | other (mp : Int)
deriving DecidableEq, Repr

-- The two message channels of a peer.
inductive MsgCh
  | urgent
  | normal
deriving DecidableEq, Repr

-- The channel `SendMessage` puts a message of priority `mp` into, if any.
def MessagePriority.msgCh : MessagePriority → Option MsgCh
  | .urgentMessage => some .urgent
  | .normalMessage => some .normal
  | .other _ => none

-- Where the `writeLoop` goroutine stands.
inductive WriteLoop
  | first    -- at the first select, over `quitWriteCh`, `urgentMsgCh` and `default`
  | second   -- at the second select, over `quitWriteCh`, `urgentMsgCh` and `normalMsgCh`
  | returned -- `writeLoop` returned after `quitWriteCh` was closed
deriving DecidableEq, Repr

-- The fields of `Peer` that `SendMessage`, `Stop` and `writeLoop` share: the buffers of the two
-- message channels, oldest first, and whether `quitWriteCh` is closed. `write` does not touch
-- them, so a call of it is one step here; its stream handling is `Step` of `Peer.lean`.
structure Outbox (Msg : Type) where
  urgentMsgCh : List Msg
  normalMsgCh : List Msg
  quitWriteCh : Bool
  loop : WriteLoop

namespace Outbox

variable {Msg : Type}

-- What `NewPeer` allocates, with the loop that `Start` runs at its first select.
def empty : Outbox Msg :=
  ⟨[], [], false, .first⟩

-- The buffer of channel `ch`.
def buffer (o : Outbox Msg) : MsgCh → List Msg
  | .urgent => o.urgentMsgCh
  | .normal => o.normalMsgCh

-- The buffer of channel `ch` set to `l`.
def setBuffer (o : Outbox Msg) : MsgCh → List Msg → Outbox Msg
  | .urgent, l => { o with urgentMsgCh := l }
  | .normal, l => { o with normalMsgCh := l }

-- The loop moves to `l`.
def goto (o : Outbox Msg) (l : WriteLoop) : Outbox Msg :=
  { o with loop := l }

@[simp] theorem empty_buffer (ch : MsgCh) : (empty : Outbox Msg).buffer ch = [] := by
  cases ch <;> rfl

@[simp] theorem goto_buffer (o : Outbox Msg) (l : WriteLoop) (ch : MsgCh) :
    (o.goto l).buffer ch = o.buffer ch := by
  cases ch <;> rfl

@[simp] theorem goto_loop (o : Outbox Msg) (l : WriteLoop) : (o.goto l).loop = l := rfl

@[simp] theorem goto_quitWriteCh (o : Outbox Msg) (l : WriteLoop) :
    (o.goto l).quitWriteCh = o.quitWriteCh := rfl

@[simp] theorem buffer_setBuffer_self (o : Outbox Msg) (ch : MsgCh) (l : List Msg) :
    (o.setBuffer ch l).buffer ch = l := by
  cases ch <;> rfl

@[simp] theorem buffer_setBuffer_of_ne (o : Outbox Msg) {ch ch' : MsgCh} (h : ch' ≠ ch)
    (l : List Msg) : (o.setBuffer ch l).buffer ch' = o.buffer ch' := by
  cases ch <;> cases ch' <;> first | rfl | exact absurd rfl h

@[simp] theorem setBuffer_loop (o : Outbox Msg) (ch : MsgCh) (l : List Msg) :
    (o.setBuffer ch l).loop = o.loop := by
  cases ch <;> rfl

@[simp] theorem setBuffer_quitWriteCh (o : Outbox Msg) (ch : MsgCh) (l : List Msg) :
    (o.setBuffer ch l).quitWriteCh = o.quitWriteCh := by
  cases ch <;> rfl

end Outbox

-- What a step does, as it is seen from outside the peer.
inductive Event (Msg : Type)
  | send (ch : MsgCh) (msg : Msg)              -- `SendMessage` put `msg` into channel `ch`
  | sendFailed (mp : MessagePriority) (msg : Msg) -- `SendMessage` returned `ErrMessageChannelFull`
  | stop                                       -- `Stop` closed `quitWriteCh`
  | write (ch : MsgCh) (msg : Msg)             -- `writeLoop` received `msg` from `ch` and called
                                               -- `write`, which drops it if it fails
  | skip                                       -- the first select took `default`
  | quit                                       -- `writeLoop` returned
deriving DecidableEq, Repr

-- The steps of a peer's outbox: calls of `SendMessage` and `Stop` from any goroutine, and the
-- cases of `writeLoop`'s two selects. A select picks any of its ready cases, and takes `default`
-- only when none is ready; a send on a full channel is not a step, the sender being blocked.
-- `Stop` on a closed `quitWriteCh` panics and is not a step either.
inductive Outbox.Step {Msg : Type} : Outbox Msg → Event Msg → Outbox Msg → Prop
  | send {o : Outbox Msg} {mp : MessagePriority} {ch : MsgCh} (msg : Msg) :
      mp.msgCh = some ch → (o.buffer ch).length < msgChanSize →
      Step o (.send ch msg) (o.setBuffer ch (o.buffer ch ++ [msg]))
  | sendFailed {o : Outbox Msg} {mp : MessagePriority} (msg : Msg) :
      mp.msgCh = none → Step o (.sendFailed mp msg) o
  | stop {o : Outbox Msg} : o.quitWriteCh = false → Step o .stop { o with quitWriteCh := true }
  | firstQuit {o : Outbox Msg} : o.loop = .first → o.quitWriteCh = true →
      Step o .quit (o.goto .returned)
  | firstUrgent {o : Outbox Msg} {msg : Msg} {rest : List Msg} : o.loop = .first →
      o.buffer .urgent = msg :: rest → Step o (.write .urgent msg) (o.setBuffer .urgent rest)
  | firstDefault {o : Outbox Msg} : o.loop = .first → o.quitWriteCh = false →
      o.buffer .urgent = [] → Step o .skip (o.goto .second)
  | secondQuit {o : Outbox Msg} : o.loop = .second → o.quitWriteCh = true →
      Step o .quit (o.goto .returned)
  | secondReceive {o : Outbox Msg} {ch : MsgCh} {msg : Msg} {rest : List Msg} :
      o.loop = .second → o.buffer ch = msg :: rest →
      Step o (.write ch msg) ((o.setBuffer ch rest).goto .first)

-- A run of the outbox, with the events of its steps in order.
inductive Outbox.Steps {Msg : Type} : Outbox Msg → List (Event Msg) → Outbox Msg → Prop
  | refl (o : Outbox Msg) : Steps o [] o
  | head {o o' o'' : Outbox Msg} {e : Event Msg} {es : List (Event Msg)} :
      Step o e o' → Steps o' es o'' → Steps o (e :: es) o''

end GoIost.P2p
