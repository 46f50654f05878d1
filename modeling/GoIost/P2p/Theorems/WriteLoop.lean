import GoIost.P2p.WriteLoop

namespace GoIost.P2p

variable {Msg : Type}

namespace Event

-- The message an event put into channel `ch`, and the one it received from `ch` and wrote.
def sentTo (ch : MsgCh) : Event Msg → List Msg
  | .send ch' msg => if ch' = ch then [msg] else []
  | _ => []

def writtenFrom (ch : MsgCh) : Event Msg → List Msg
  | .write ch' msg => if ch' = ch then [msg] else []
  | _ => []

-- The first select took `default`.
def isSkip : Event Msg → Bool
  | .skip => true
  | _ => false

end Event

-- The messages a run wrote from channel `ch`, in order.
def written (ch : MsgCh) (es : List (Event Msg)) : List Msg := es.flatMap (Event.writtenFrom ch)

@[simp] theorem written_nil (ch : MsgCh) : written ch ([] : List (Event Msg)) = [] := rfl

@[simp] theorem written_cons (ch : MsgCh) (e : Event Msg) (es : List (Event Msg)) :
    written ch (e :: es) = e.writtenFrom ch ++ written ch es :=
  List.flatMap_cons _ _ _

namespace Outbox.Step

variable {o o' : Outbox Msg} {e : Event Msg}

theorem buffer_eq (h : o.Step e o') (ch : MsgCh) :
    e.writtenFrom ch ++ o'.buffer ch = o.buffer ch ++ e.sentTo ch := by
  cases h with
  | @send _ ch' msg _ _ =>
    by_cases hc : ch' = ch
    · subst hc; simp [Event.sentTo, Event.writtenFrom]
    · simp [Event.sentTo, Event.writtenFrom, hc, Ne.symm hc]
  | @firstUrgent msg rest _ hb =>
    by_cases hc : ch = .urgent
    · subst hc; simp [Event.sentTo, Event.writtenFrom, hb]
    · simp [Event.sentTo, Event.writtenFrom, hc, Ne.symm hc]
  | @secondReceive ch' msg rest _ hb =>
    by_cases hc : ch' = ch
    · subst hc; simp [Event.sentTo, Event.writtenFrom, hb]
    · simp [Event.sentTo, Event.writtenFrom, hc, Ne.symm hc]
  | stop => cases ch <;> simp [Event.sentTo, Event.writtenFrom, Outbox.buffer]
  | sendFailed | firstQuit | firstDefault | secondQuit => simp [Event.sentTo, Event.writtenFrom]

theorem normal_le_skip (h : o.Step e o') :
    (e.writtenFrom .normal).length + (if o'.loop = .second then 1 else 0) ≤
      (if e.isSkip then 1 else 0) + if o.loop = .second then 1 else 0 := by
  cases h with
  | send | sendFailed | stop => simp [Event.writtenFrom, Event.isSkip]
  | firstQuit hl _ | firstUrgent hl _ | firstDefault hl _ _ | secondQuit hl _ =>
    simp [Event.writtenFrom, Event.isSkip, hl]
  | @secondReceive ch _ _ hl _ => cases ch <;> simp [Event.writtenFrom, Event.isSkip, hl]

theorem not_skip (h : o.Step e o') (hu : o.buffer .urgent ≠ []) : e.isSkip = false := by
  cases h with
  | firstDefault _ _ hb => exact absurd hb hu
  | _ => rfl

theorem normal_le (h : o.Step e o') (hu : o.buffer .urgent ≠ []) :
    (e.writtenFrom .normal).length + (if o'.loop = .second then 1 else 0) ≤
      if o.loop = .second then 1 else 0 := by
  simpa [h.not_skip hu] using h.normal_le_skip

end Outbox.Step

-- A message `SendMessage` queues as urgent is overtaken by at most one normal message.
theorem urgent_overtaken_at_most_once {o o' : Outbox Msg} {es : List (Event Msg)}
    (h : o.Steps es o') (hu : (written .urgent es).length < (o.buffer .urgent).length) :
    (written .normal es).length ≤ if o.loop = .second then 1 else 0 := by
  induction h with
  | refl => exact Nat.zero_le _
  | head hs _ ih =>
    have hlen := congrArg List.length (hs.buffer_eq .urgent)
    simp only [List.length_append, written_cons] at hlen hu ⊢
    have hstep := hs.normal_le (List.ne_nil_of_length_pos (by omega))
    have hrest := ih (by omega)
    omega

theorem urgent_overtaken_at_most_once_second :
    (written .urgent [Event.write .normal "n"]).length <
        ((⟨["u"], ["n"], false, .second⟩ : Outbox String).buffer .urgent).length ∧
      (written .normal [Event.write .normal "n"]).length ≤
        if (⟨["u"], ["n"], false, .second⟩ : Outbox String).loop = .second then 1 else 0 :=
  ⟨by decide, urgent_overtaken_at_most_once
    (.head (@Outbox.Step.secondReceive _ _ .normal _ _ rfl rfl) (.refl _)) (by decide)⟩

end GoIost.P2p
