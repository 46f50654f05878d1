import Mathlib.Logic.Relation
import Mathlib.Data.List.Basic

namespace GoIost.P2p

-- `maxStreamCount`, which is also the capacity of the `streams` channel.
def maxStreamCount : Int := 4

-- A `libnet.Stream`; the pool only moves streams around, so an id is enough.
abbrev Stream := Nat

-- Where the single `writeLoop` goroutine stands inside `write`.
inductive Writer
  | idle                   -- between two messages
  | creating               -- `getStream`'s select took `default`; `newStream` comes next
  | waiting                -- `newStream` said `ErrStreamCountExceed`; blocked in `<-p.streams`
  | holding (s : Stream)   -- got `s`; `SetWriteDeadline` and `Write` come next
  | returning (s : Stream) -- the write succeeded; `p.streams <- stream` comes next
deriving DecidableEq, Repr

-- The streams the writer has taken out of the pool.
def Writer.held : Writer → Nat
  | .holding _ | .returning _ => 1
  | _ => 0

-- The fields of `Peer` that the stream pool reads and writes, and the writer's position.
structure Peer where
  streams : List Stream -- the buffer of the `streams` channel, oldest first
  streamCount : Int
  writer : Writer

-- The peer `NewPeer` allocates; its own call of `AddStream` is the first step of a run.
def Peer.empty : Peer :=
  ⟨[], 0, .idle⟩

inductive StreamError
  | streamCountExceed -- `ErrStreamCountExceed`
  | newStreamFailed   -- the error of `conn.NewStream()`
deriving DecidableEq, Repr

-- A send on the buffered channel completes only while the buffer has room.
def CanSend (p : Peer) : Prop :=
  (p.streams.length : Int) < maxStreamCount

instance (p : Peer) : Decidable (CanSend p) :=
  inferInstanceAs (Decidable (_ < _))

namespace Peer

-- `AddStream`, whose send `p.streams <- stream` is done under `streamMutex`.
def addStream (p : Peer) (stream : Stream) : Except StreamError Peer :=
  if p.streamCount ≥ maxStreamCount then .error .streamCountExceed
  else .ok { p with streams := p.streams ++ [stream], streamCount := p.streamCount + 1 }

-- `CloseStream`.
def closeStream (p : Peer) : Peer :=
  { p with streamCount := p.streamCount - 1 }

-- `newStream`; `opened` is what `p.conn.NewStream()` gives, a stream or an error.
def newStream (p : Peer) (opened : Option Stream) : Except StreamError (Peer × Stream) :=
  if p.streamCount ≥ maxStreamCount then .error .streamCountExceed
  else match opened with
    | none => .error .newStreamFailed
    | some stream => .ok ({ p with streamCount := p.streamCount + 1 }, stream)

-- The writer moves to `w`.
def goto (p : Peer) (w : Writer) : Peer :=
  { p with writer := w }

@[simp] theorem goto_streams (p : Peer) (w : Writer) : (p.goto w).streams = p.streams := rfl
@[simp] theorem goto_streamCount (p : Peer) (w : Writer) :
    (p.goto w).streamCount = p.streamCount := rfl
@[simp] theorem goto_writer (p : Peer) (w : Writer) : (p.goto w).writer = w := rfl
@[simp] theorem closeStream_streams (p : Peer) : p.closeStream.streams = p.streams := rfl
@[simp] theorem closeStream_streamCount (p : Peer) :
    p.closeStream.streamCount = p.streamCount - 1 := rfl
@[simp] theorem closeStream_writer (p : Peer) : p.closeStream.writer = p.writer := rfl

theorem addStream_eq_ok {p p' : Peer} {s : Stream} :
    p.addStream s = .ok p' ↔ p.streamCount < maxStreamCount ∧
      p' = { p with streams := p.streams ++ [s], streamCount := p.streamCount + 1 } := by
  unfold addStream
  split
  · simp only [reduceCtorEq, false_iff]; omega
  · simp only [Except.ok.injEq, eq_comm, iff_and_self]; omega

theorem newStream_eq_ok {p p' : Peer} {o : Option Stream} {s : Stream} :
    p.newStream o = .ok (p', s) ↔ p.streamCount < maxStreamCount ∧ o = some s ∧
      p' = { p with streamCount := p.streamCount + 1 } := by
  unfold newStream
  split
  · simp only [reduceCtorEq, false_iff]; omega
  · cases o <;> simp [*, and_comm, eq_comm]; omega

theorem newStream_eq_exceed {p : Peer} {o : Option Stream} :
    p.newStream o = .error .streamCountExceed ↔ maxStreamCount ≤ p.streamCount := by
  unfold newStream
  split
  · simp only [true_iff]; omega
  · cases o <;> simp <;> omega

end Peer

-- The steps of a run: each `AddStream` call from an incoming-stream handler, whole since it
-- holds `streamMutex` throughout, and the steps of `write` between two operations on shared
-- state. The outcomes of `conn.NewStream`, `SetWriteDeadline` and `Write` are free. A channel
-- operation that cannot complete is not a step: the goroutine is blocked there.
inductive Step : Peer → Peer → Prop
  | addStream {p p' : Peer} (s : Stream) : p.addStream s = .ok p' → CanSend p → Step p p'
  -- `case stream := <-p.streams` of `getStream`'s select
  | take {p : Peer} {s : Stream} {rest : List Stream} :
      p.writer = .idle → p.streams = s :: rest →
      Step p ({ p with streams := rest }.goto (.holding s))
  -- the select's `default`, taken when the pool is empty
  | default {p : Peer} : p.writer = .idle → p.streams = [] → Step p (p.goto .creating)
  | newStream {p p' : Peer} {o : Option Stream} {s : Stream} : p.writer = .creating →
      p.newStream o = .ok (p', s) → Step p (p'.goto (.holding s))
  -- any other error of `newStream` is returned by `write`
  | newStreamFailed {p : Peer} {o : Option Stream} : p.writer = .creating →
      p.newStream o = .error .newStreamFailed → Step p (p.goto .idle)
  | exceeded {p : Peer} {o : Option Stream} : p.writer = .creating →
      p.newStream o = .error .streamCountExceed → Step p (p.goto .waiting)
  -- the receive `<-p.streams` after the select
  | receive {p : Peer} {s : Stream} {rest : List Stream} : p.writer = .waiting →
      p.streams = s :: rest → Step p ({ p with streams := rest }.goto (.holding s))
  | written {p : Peer} {s : Stream} : p.writer = .holding s → Step p (p.goto (.returning s))
  -- `SetWriteDeadline` or `Write` failed: `CloseStream`
  | writeFailed {p : Peer} {s : Stream} : p.writer = .holding s →
      Step p (p.closeStream.goto .idle)
  | putBack {p : Peer} {s : Stream} : p.writer = .returning s → CanSend p →
      Step p ({ p with streams := p.streams ++ [s] }.goto .idle)

-- `AddStream` gets past its count check, and then its send finds the channel full while it
-- holds `streamMutex`.
def AddStreamBlocks (p : Peer) : Prop :=
  p.streamCount < maxStreamCount ∧ ¬CanSend p

-- `write` returns its stream to a full channel.
def PutBackBlocks (p : Peer) : Prop :=
  (∃ s, p.writer = .returning s) ∧ ¬CanSend p

-- The receive after `ErrStreamCountExceed` finds the channel empty.
def ReceiveBlocks (p : Peer) : Prop :=
  p.writer = .waiting ∧ p.streams = []

section ReadLoop

-- The frame layout constants `dataBegin`, `dataLengthBegin` and `dataLengthEnd` and
-- `parseP2PMessage` are declared outside this file; the model takes them as parameters.
variable {Msg : Type} (dataBegin : UInt32) (dataLengthBegin dataLengthEnd : Nat)
  (parseP2PMessage : List UInt8 → Option Msg)

-- `binary.BigEndian.Uint32`: the first four bytes, most significant first. A shorter slice
-- fails its bounds check (`none`).
def bigEndianUint32 : List UInt8 → Option UInt32
  | b0 :: b1 :: b2 :: b3 :: _ =>
    some (UInt32.ofNat (((b0.toNat * 256 + b1.toNat) * 256 + b2.toNat) * 256 + b3.toNat))
  | _ => none

-- `binary.BigEndian.Uint32(header[dataLengthBegin:dataLengthEnd])`, once the slice bounds hold.
def lengthField (header : List UInt8) : Option UInt32 :=
  bigEndianUint32 ((header.take dataLengthEnd).drop dataLengthBegin)

-- How one iteration of `readLoop` ends.
inductive ReadStep (Msg : Type)
  | stop                                  -- a read or parse error: `readLoop` returns
  | outOfRange                            -- a slice expression panics
  | next (msg : Msg) (rest : List UInt8)  -- `msg` goes to `handleMessage`; `rest` is unread
deriving DecidableEq, Repr

-- `parseP2PMessage(data)`: a parse error ends the loop, a message goes to `handleMessage`.
def parseFrame (data rest : List UInt8) : ReadStep Msg :=
  match parseP2PMessage data with
  | none => .stop
  | some msg => .next msg rest

-- One iteration of `readLoop` on what is left of the stream. `io.ReadFull` fails when fewer bytes
-- remain than it asks for. `dataBegin+length` is a `uint32` sum, as in the source.
def readFrame (stream : List UInt8) : ReadStep Msg :=
  if stream.length < dataBegin.toNat then .stop
  else
    let header := stream.take dataBegin.toNat
    let stream := stream.drop dataBegin.toNat
    if ¬(dataLengthBegin ≤ dataLengthEnd ∧ dataLengthEnd ≤ dataBegin.toNat) then .outOfRange
    else match lengthField dataLengthBegin dataLengthEnd header with
      | none => .outOfRange
      | some length =>
        let size := dataBegin + length
        -- `data[dataBegin:]` on a buffer of `size` bytes
        if size.toNat < dataBegin.toNat then .outOfRange
        else
          let payload := size.toNat - dataBegin.toNat
          if stream.length < payload then .stop
          else parseFrame parseP2PMessage (header ++ stream.take payload) (stream.drop payload)

-- How `readLoop` ends: it returns, having handed these messages to `handleMessage` in order, or it
-- panics; `running` when `fuel` iterations did not reach the end.
inductive ReadExit (Msg : Type)
  | returned (handled : List Msg)
  | panicked
  | running
deriving DecidableEq, Repr

-- `handleMessage(msg)` ran before the rest of the loop.
def ReadExit.handle {Msg : Type} (msg : Msg) : ReadExit Msg → ReadExit Msg
  | .returned handled => .returned (msg :: handled)
  | e => e

-- `readLoop` for at most `fuel` iterations; `handleMessage` does not touch the stream.
def readLoop : Nat → List UInt8 → ReadExit Msg
  | 0, _ => .running
  | fuel + 1, stream =>
    match readFrame dataBegin dataLengthBegin dataLengthEnd parseP2PMessage stream with
    | .stop => .returned []
    | .outOfRange => .panicked
    | .next msg rest => (readLoop fuel rest).handle msg

end ReadLoop

end GoIost.P2p
