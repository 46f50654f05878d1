import GoIost.P2p.Peer

namespace GoIost.P2p

open Relation

-- Each stream the pool counts is in the channel or with the writer, and the writer waits only
-- when the count is full.
structure PoolInv (p : Peer) : Prop where
  count : (p.streams.length : Int) + p.writer.held = p.streamCount
  le_max : p.streamCount ≤ maxStreamCount
  waiting : p.writer = .waiting → p.streamCount = maxStreamCount

namespace PoolInv

variable {p p' : Peer}

theorem empty : PoolInv Peer.empty :=
  ⟨rfl, by decide, nofun⟩

theorem step (hi : PoolInv p) : Step p p' → PoolInv p' := by
  have ⟨hc, hm, hw⟩ := hi
  intro h
  cases h with
  | addStream s hok _ =>
    obtain ⟨hlt, rfl⟩ := Peer.addStream_eq_ok.1 hok
    exact ⟨by simp; omega, by simp; omega, fun h' => absurd (hw h') (by omega)⟩
  | take hidle hs =>
    simp only [hidle, hs, Writer.held, List.length_cons] at hc
    exact ⟨by simp [Writer.held]; omega, hm, nofun⟩
  | default hidle _ => exact ⟨by simpa [hidle, Writer.held] using hc, hm, nofun⟩
  | newStream hcr hok =>
    obtain ⟨hlt, -, rfl⟩ := Peer.newStream_eq_ok.1 hok
    simp only [hcr, Writer.held] at hc
    exact ⟨by simp [Writer.held]; omega, by simp; omega, nofun⟩
  | newStreamFailed hcr _ => exact ⟨by simpa [hcr, Writer.held] using hc, hm, nofun⟩
  | exceeded hcr hex =>
    have := Peer.newStream_eq_exceed.1 hex
    exact ⟨by simpa [hcr, Writer.held] using hc, hm, fun _ => by simp; omega⟩
  | receive hwt hs =>
    simp only [hwt, hs, Writer.held, List.length_cons] at hc
    exact ⟨by simp [Writer.held]; omega, hm, nofun⟩
  | written hh => exact ⟨by simpa [hh, Writer.held] using hc, hm, nofun⟩
  | writeFailed hh =>
    simp only [hh, Writer.held] at hc
    exact ⟨by simp [Writer.held]; omega, by simp; omega, nofun⟩
  | putBack hr _ =>
    simp only [hr, Writer.held] at hc
    exact ⟨by simp [Writer.held]; omega, hm, nofun⟩

theorem reachable (h : ReflTransGen Step Peer.empty p) : PoolInv p := by
  induction h with
  | refl => exact empty
  | tail _ hs ih => exact ih.step hs

theorem not_addStreamBlocks (hi : PoolInv p) : ¬AddStreamBlocks p := fun ⟨_, hfull⟩ => by
  have := hi.count
  unfold CanSend at hfull
  omega

theorem not_putBackBlocks (hi : PoolInv p) : ¬PutBackBlocks p := fun ⟨⟨s, hr⟩, hfull⟩ => by
  have hc := hi.count
  have := hi.le_max
  simp only [hr, Writer.held] at hc
  unfold CanSend at hfull
  omega

theorem not_receiveBlocks (hi : PoolInv p) : ¬ReceiveBlocks p := fun ⟨hwt, hs⟩ => by
  have hc := hi.count
  have hfull : p.streamCount = 4 := hi.waiting hwt
  simp only [hwt, hs, Writer.held, List.length_nil, Int.ofNat_zero] at hc
  omega

end PoolInv

-- Over every interleaving of `AddStream` with the writer, no channel operation of the pool blocks.
theorem stream_pool_never_blocks {p : Peer} (h : ReflTransGen Step Peer.empty p) :
    (p.streams.length : Int) + p.writer.held = p.streamCount ∧ p.streamCount ≤ maxStreamCount ∧
      ¬AddStreamBlocks p ∧ ¬PutBackBlocks p ∧ ¬ReceiveBlocks p :=
  have hi := PoolInv.reachable h
  ⟨hi.count, hi.le_max, hi.not_addStreamBlocks, hi.not_putBackBlocks, hi.not_receiveBlocks⟩

theorem stream_pool_never_blocks_new_peer :
    let p : Peer := ⟨[7], 1, .idle⟩
    (p.streams.length : Int) + p.writer.held = p.streamCount ∧ p.streamCount ≤ maxStreamCount ∧
      ¬AddStreamBlocks p ∧ ¬PutBackBlocks p ∧ ¬ReceiveBlocks p :=
  stream_pool_never_blocks (.single (.addStream 7 rfl (by decide)))

theorem PoolInv.writer_step {p : Peer} (hi : PoolInv p) :
    ∃ p', Step p p' ∧ p'.writer ≠ p.writer := by
  cases hw : p.writer with
  | idle =>
    cases hs : p.streams with
    | nil => exact ⟨_, .default hw hs, by simp [hw]⟩
    | cons s rest => exact ⟨_, .take hw hs, by simp [hw]⟩
  | creating =>
    by_cases hc : p.streamCount < maxStreamCount
    · exact ⟨_, @Step.newStream p _ (some 0) 0 hw (Peer.newStream_eq_ok.mpr ⟨hc, rfl, rfl⟩),
        by simp⟩
    · exact ⟨_, @Step.exceeded p none hw (Peer.newStream_eq_exceed.mpr (by omega)), by simp⟩
  | waiting =>
    cases hs : p.streams with
    | nil => exact absurd ⟨hw, hs⟩ hi.not_receiveBlocks
    | cons s rest => exact ⟨_, .receive hw hs, by simp⟩
  | holding s => exact ⟨_, .written hw, by simp⟩
  | returning s =>
    have hsend : CanSend p := by_contra fun hfull => hi.not_putBackBlocks ⟨⟨s, hw⟩, hfull⟩
    exact ⟨_, .putBack hw hsend, by simp⟩

-- Whatever the handlers do, the writer always has a step whose blocking operation can complete.
theorem writer_never_stuck {p : Peer} (h : ReflTransGen Step Peer.empty p) :
    ∃ p', Step p p' ∧ p'.writer ≠ p.writer :=
  (PoolInv.reachable h).writer_step

theorem writer_never_stuck_new_peer : ∃ p', Step Peer.empty p' ∧ p'.writer ≠ Peer.empty.writer :=
  writer_never_stuck .refl

section ReadLoop

variable {Msg : Type} (dataBegin : UInt32) (dataLengthBegin dataLengthEnd : Nat)
  (parseP2PMessage : List UInt8 → Option Msg)

theorem uint32_toNat_add_lt_iff (a b : UInt32) :
    (a + b).toNat < a.toNat ↔ UInt32.size ≤ a.toNat + b.toNat := by
  have := a.toNat_lt_size
  have := b.toNat_lt_size
  show (a.toNat + b.toNat) % UInt32.size < _ ↔ _
  simp only [UInt32.size] at *
  omega

theorem parseFrame_ne_outOfRange (data rest : List UInt8) :
    parseFrame parseP2PMessage data rest ≠ .outOfRange := by
  unfold parseFrame
  split <;> nofun

variable {dataBegin dataLengthBegin dataLengthEnd} {stream : List UInt8} {L : UInt32}

theorem lengthField_take (he : dataLengthEnd ≤ dataBegin.toNat) :
    lengthField dataLengthBegin dataLengthEnd (stream.take dataBegin.toNat) =
      lengthField dataLengthBegin dataLengthEnd stream := by
  rw [lengthField, List.take_take, Nat.min_eq_left he, lengthField]

theorem readFrame_eq_outOfRange_iff (hs : dataBegin.toNat ≤ stream.length)
    (hb : dataLengthBegin ≤ dataLengthEnd) (he : dataLengthEnd ≤ dataBegin.toNat)
    (hL : lengthField dataLengthBegin dataLengthEnd stream = some L) :
    readFrame dataBegin dataLengthBegin dataLengthEnd parseP2PMessage stream = .outOfRange ↔
      UInt32.size ≤ dataBegin.toNat + L.toNat := by
  rw [← uint32_toNat_add_lt_iff]
  simp only [readFrame, if_neg (Nat.not_lt.2 hs), hb, he, and_self, not_true_eq_false, if_false,
    lengthField_take he, hL]
  split
  · simp only [*]
  · simp only [iff_false, *]
    split
    · nofun
    · exact parseFrame_ne_outOfRange _ _ _

theorem readFrame_of_no_wrap (hs : dataBegin.toNat + L.toNat ≤ stream.length)
    (hb : dataLengthBegin ≤ dataLengthEnd) (he : dataLengthEnd ≤ dataBegin.toNat)
    (hL : lengthField dataLengthBegin dataLengthEnd stream = some L)
    (hno : dataBegin.toNat + L.toNat < UInt32.size) :
    readFrame dataBegin dataLengthBegin dataLengthEnd parseP2PMessage stream =
      parseFrame parseP2PMessage (stream.take (dataBegin.toNat + L.toNat))
        (stream.drop (dataBegin.toNat + L.toNat)) := by
  have hsize : (dataBegin + L).toNat = dataBegin.toNat + L.toNat := Nat.mod_eq_of_lt hno
  simp only [readFrame, if_neg (show ¬stream.length < dataBegin.toNat by omega), hb, he, and_self,
    not_true_eq_false, if_false, lengthField_take he, hL, hsize, List.length_drop,
    Nat.add_sub_cancel_left, ← List.take_add, List.drop_drop,
    if_neg (show ¬dataBegin.toNat + L.toNat < dataBegin.toNat by omega),
    if_neg (show ¬stream.length - dataBegin.toNat < L.toNat by omega)]

-- A frame as an honest peer sends it: a header of `dataBegin` bytes whose length field is the
-- length of the payload after it, with `dataBegin+length` in `uint32`.
structure HonestFrame (dataBegin : UInt32) (dataLengthBegin dataLengthEnd : Nat)
    (header payload : List UInt8) : Prop where
  header_length : header.length = dataBegin.toNat
  length_field :
    lengthField dataLengthBegin dataLengthEnd header = some (UInt32.ofNat payload.length)
  no_wrap : dataBegin.toNat + payload.length < UInt32.size

theorem readFrame_honest {header payload : List UInt8} (hb : dataLengthBegin ≤ dataLengthEnd)
    (he : dataLengthEnd ≤ dataBegin.toNat)
    (hf : HonestFrame dataBegin dataLengthBegin dataLengthEnd header payload) (rest : List UInt8) :
    readFrame dataBegin dataLengthBegin dataLengthEnd parseP2PMessage (header ++ payload ++ rest) =
      parseFrame parseP2PMessage (header ++ payload) rest := by
  have hL : (UInt32.ofNat payload.length).toNat = payload.length :=
    UInt32.toNat_ofNat_of_lt (by have := hf.no_wrap; omega)
  have hlen :
      (header ++ payload).length = dataBegin.toNat + (UInt32.ofNat payload.length).toNat := by
    rw [List.length_append, hf.header_length, hL]
  have hfield : lengthField dataLengthBegin dataLengthEnd (header ++ payload ++ rest) =
      some (UInt32.ofNat payload.length) := by
    rw [← hf.length_field, lengthField, lengthField, List.append_assoc,
      List.take_append_of_le_length (hf.header_length ▸ he)]
  have hs : dataBegin.toNat + (UInt32.ofNat payload.length).toNat ≤
      (header ++ payload ++ rest).length := by
    rw [List.length_append, ← hlen]; omega
  rw [readFrame_of_no_wrap parseP2PMessage hs hb he hfield (by rw [hL]; exact hf.no_wrap),
    List.take_left' hlen, List.drop_left' hlen]

-- On a stream of honest frames that parse, `readLoop` hands every message to `handleMessage`, in
-- order, and returns at the end of the stream.
theorem readLoop_honest (hb : dataLengthBegin ≤ dataLengthEnd)
    (he : dataLengthEnd ≤ dataBegin.toNat) (h0 : 0 < dataBegin.toNat)
    (frames : List (List UInt8 × List UInt8))
    (hf : ∀ f ∈ frames, HonestFrame dataBegin dataLengthBegin dataLengthEnd f.1 f.2 ∧
      (parseP2PMessage (f.1 ++ f.2)).isSome) :
    readLoop dataBegin dataLengthBegin dataLengthEnd parseP2PMessage (frames.length + 1)
      (frames.flatMap fun f => f.1 ++ f.2) =
      .returned (frames.filterMap fun f => parseP2PMessage (f.1 ++ f.2)) := by
  induction frames with
  | nil => simp [readLoop, readFrame, h0]
  | cons f frames ih =>
    obtain ⟨hfr, hparse⟩ := hf f (List.mem_cons_self _ _)
    obtain ⟨msg, hmsg⟩ := Option.isSome_iff_exists.mp hparse
    rw [List.flatMap_cons, List.length_cons, readLoop, readFrame_honest parseP2PMessage hb he hfr]
    simp only [parseFrame, hmsg, ih fun f' hf' => hf f' (List.mem_cons_of_mem f hf'),
      List.filterMap_cons, ReadExit.handle]

theorem readLoop_honest_one_frame :
    readLoop 20 8 12 (fun _ => some ()) 2
      ([(List.replicate 11 0 ++ [1] ++ List.replicate 8 0, [42])].flatMap fun f => f.1 ++ f.2) =
      .returned ([(List.replicate 11 0 ++ [1] ++ List.replicate 8 0, [42])].filterMap
        fun f => (fun _ => some ()) (f.1 ++ f.2)) :=
  @readLoop_honest Unit 20 8 12 (fun _ => some ()) (by decide) (by decide) (by decide)
    [(List.replicate 11 0 ++ [1] ++ List.replicate 8 0, [42])] fun f hf => by
      rw [List.mem_singleton] at hf
      subst hf
      exact ⟨⟨rfl, rfl, by decide⟩, rfl⟩

-- A length field that wraps `dataBegin+length` makes `readLoop` panic at once.
theorem readLoop_panics_of_length_wraps (hb : dataLengthBegin ≤ dataLengthEnd)
    (he : dataLengthEnd ≤ dataBegin.toNat) (hs : dataBegin.toNat ≤ stream.length)
    (hL : lengthField dataLengthBegin dataLengthEnd stream = some L)
    (hwrap : UInt32.size ≤ dataBegin.toNat + L.toNat) (fuel : Nat) :
    readLoop dataBegin dataLengthBegin dataLengthEnd parseP2PMessage (fuel + 1) stream =
      .panicked := by
  simp only [readLoop, (readFrame_eq_outOfRange_iff parseP2PMessage hs hb he hL).2 hwrap]

-- A header of `0xff` bytes: the length `2^32 - 1` wraps the buffer size to 19 bytes.
theorem readLoop_panics_on_all_ones_header :
    readLoop 20 8 12 (fun _ => (none : Option Unit)) 1 (List.replicate 20 0xff) = .panicked :=
  @readLoop_panics_of_length_wraps Unit 20 8 12 _ _ 0xffffffff (by decide) (by decide) (by decide)
    (by decide) (by decide) 0

end ReadLoop

end GoIost.P2p
