import GoIost.P2p.Node
import GoIost.P2p.Theorems.Peer

namespace GoIost.P2p

open Relation

variable {Msg : Type} {n n' : Node Msg} {e : NodeEvent Msg} {es : List (NodeEvent Msg)}

-- Between two calls of `write` the pool's writer is `idle`.
def Node.WriterIdle (n : Node Msg) : Prop :=
  n.writing = false → n.peer.writer = .idle

theorem Node.Step.writerIdle (h : n.Step e n') (hi : n.WriterIdle) : n'.WriterIdle := by
  cases h with
  | caller => exact hi
  | loop _ hw => exact fun _ => hi hw
  | pool _ hkeep =>
    intro hw'
    rcases Bool.and_eq_false_iff.mp hw' with hw | hend
    · rw [hkeep hw]; exact hi hw
    · simp only [Bool.not_eq_false', endsWrite, Bool.and_eq_true, beq_iff_eq] at hend
      exact hend.2

theorem Node.Steps.refines (h : n.Steps es n') :
    n.outbox.Steps (es.flatMap NodeEvent.outboxEvents) n'.outbox ∧
      ReflTransGen P2p.Step n.peer n'.peer ∧ (n.WriterIdle → n'.WriterIdle) := by
  induction h with
  | refl => exact ⟨.refl _, .refl, id⟩
  | head hs _ ih =>
    have ⟨ho, hp, hi⟩ := ih
    have hidle := fun h => hi (hs.writerIdle h)
    rw [List.flatMap_cons]
    cases hs with
    | caller _ ho' => exact ⟨.head ho' ho, hp, hidle⟩
    | loop _ _ ho' => exact ⟨.head ho' ho, hp, hidle⟩
    | pool hp' _ => exact ⟨ho, .head hp' hp, hidle⟩

theorem Node.loop_step (hw : n.writing = false) :
    n.outbox.loop = .returned ∨
      (n.outbox.loop = .second ∧ n.outbox.buffer .urgent = [] ∧ n.outbox.buffer .normal = [] ∧
        n.outbox.quitWriteCh = false) ∨
      ∃ e n', e.byCaller = false ∧ n.Step (.outbox e) n' := by
  have loop {e : Event Msg} {o' : Outbox Msg} (ho : n.outbox.Step e o') (he : e.byCaller = false) :
      ∃ e n', e.byCaller = false ∧ n.Step (.outbox e) n' := ⟨e, _, he, .loop he hw ho⟩
  cases hl : n.outbox.loop with
  | returned => exact .inl rfl
  | first =>
    refine .inr (.inr ?_)
    cases hq : n.outbox.quitWriteCh
    · cases hu : n.outbox.buffer .urgent with
      | nil => exact loop (.firstDefault hl hq hu) rfl
      | cons msg rest => exact loop (.firstUrgent hl hu) rfl
    · exact loop (.firstQuit hl hq) rfl
  | second =>
    cases hq : n.outbox.quitWriteCh
    · cases hu : n.outbox.buffer .urgent with
      | cons msg rest => exact .inr (.inr (loop (.secondReceive hl hu) rfl))
      | nil =>
        cases hn : n.outbox.buffer .normal with
        | nil => exact .inr (.inl ⟨rfl, rfl, rfl, rfl⟩)
        | cons msg rest => exact .inr (.inr (loop (.secondReceive hl hn) rfl))
    · exact .inr (.inr (loop (.secondQuit hl hq) rfl))

-- The peer's writing side never deadlocks: `writeLoop` has returned, waits at its second select
-- for a message, or has a step of its own.
theorem writeLoop_waits_only_for_messages {n : Node Msg} (h : Node.empty.Steps es n) :
    n.outbox.loop = .returned ∨
      (n.outbox.loop = .second ∧ n.outbox.buffer .urgent = [] ∧ n.outbox.buffer .normal = [] ∧
        n.outbox.quitWriteCh = false ∧ n.writing = false ∧ n.peer.writer = .idle) ∨
      ∃ n', (∃ e, e.byCaller = false ∧ n.Step (.outbox e) n') ∨
        (n.Step .pool n' ∧ n'.peer.writer ≠ n.peer.writer) := by
  have ⟨_, hp, hi⟩ := h.refines
  cases hw : n.writing
  · rcases Node.loop_step hw with hr | ⟨hl, hu, hn, hq⟩ | ⟨e, n', he, hs⟩
    · exact .inl hr
    · exact .inr (.inl ⟨hl, hu, hn, hq, rfl, hi (fun _ => rfl) hw⟩)
    · exact .inr (.inr ⟨n', .inl ⟨e, he, hs⟩⟩)
  · have ⟨p', hs, hne⟩ := (PoolInv.reachable hp).writer_step
    exact .inr (.inr ⟨_, .inr ⟨.pool hs fun hf => absurd hf (by simp [hw]), hne⟩⟩)

theorem writeLoop_waits_only_for_messages_new_peer :
    let n : Node String := Node.empty
    n.outbox.loop = .returned ∨
      (n.outbox.loop = .second ∧ n.outbox.buffer .urgent = [] ∧ n.outbox.buffer .normal = [] ∧
        n.outbox.quitWriteCh = false ∧ n.writing = false ∧ n.peer.writer = .idle) ∨
      ∃ n', (∃ e, e.byCaller = false ∧ n.Step (.outbox e) n') ∨
        (n.Step .pool n' ∧ n'.peer.writer ≠ n.peer.writer) :=
  writeLoop_waits_only_for_messages (.refl _)

end GoIost.P2p
