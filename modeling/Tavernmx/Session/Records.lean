/-
# `Tavernmx.Session.Records` — the connection, read by read

`Delivery` takes it that the transport delivers whole blocks.  Below that there are
records: `BIO_write` makes records of at most 2^14 bytes out of a block, and a
`BIO_read` gives at most 1500 bytes, all of one record, or nothing.  `receive_message`
puts the block together again over several reads, and other threads go on in between.

    begin       the first read of a call, and the header in it
    again       a read in the loop that gives nothing
    round       a read in the loop that gives bytes
    finish      the call returns

`records_refine` is that the workers over records do nothing that the workers over
blocks do not.  The first read of a block always has its header, because a record
begins where the block does.  And the loop, which does not sleep, never turns for want
of something that is not written yet: what is missing is there (`rounds_go_on`).
-/
import Tavernmx.Session.Delivery
import Tavernmx.Shared.Reassembly

namespace Tavernmx.Session

open Messaging MessageBlock Client

/-! ## Records -/

/-- The most that a record holds. -/
def maxRecord : Nat := 2 ^ 14

/-- `BUFFER_SIZE`. -/
def bufferSize : Nat := 1500

/-- The records that `BIO_write` makes of these bytes. -/
def toRecords (bytes : Bytes) : List Bytes :=
  if _h : bytes = [] then [] else bytes.take maxRecord :: toRecords (bytes.drop maxRecord)
termination_by bytes.length
decreasing_by
  have hpos := List.length_pos_iff.mpr _h
  rw [List.length_drop, maxRecord]
  omega

/-- A `BIO_read` that gives something, and what it leaves. -/
def readRecord : List Bytes → Bytes × List Bytes
  | [] => ([], [])
  | record :: rest =>
    (record.take bufferSize,
      if record.length ≤ bufferSize then rest else record.drop bufferSize :: rest)

/-- The two ends of a connection, and the records between them. -/
structure RecordLink where
  endpoint : Side → Endpoint
  /-- What a side wrote and the other has not read, of the first record perhaps the end. -/
  records : Side → List Bytes
  /-- `applied` and `block`, while the side is in the loop of `receive_message`. -/
  call : Side → Option (Nat × MessageBlock)

namespace RecordLink

def setEndpoint (s : RecordLink) (side : Side) (e : Endpoint) : RecordLink :=
  { s with endpoint := Function.update s.endpoint side e }

/-- The side has read, and is at the condition of the loop. -/
def setCall (s : RecordLink) (side : Side) (records : List Bytes) (call : Nat × MessageBlock) :
    RecordLink :=
  { s with
    records := Function.update s.records side.other records
    call := Function.update s.call side (some call) }

/-- The call returns, and the worker goes on. -/
def endCall (s : RecordLink) (side : Side) (e : Endpoint) : RecordLink :=
  { s with
    endpoint := Function.update s.endpoint side e
    call := Function.update s.call side none }

end RecordLink

/-- The condition of the loop. -/
def GoesOn (applied : Nat) (block : MessageBlock) : Prop :=
  0 < applied ∧ applied < block.payloadSize.toNat

/-- The steps of the worker on `side`, and of the threads that fill its queue. -/
inductive RecordStep (codec : MsgPack) : RecordLink → Side → RecordLink → Prop where
  | push {s : RecordLink} {side : Side} (message : Message) :
      RecordStep codec s side (s.setEndpoint side ((s.endpoint side).push message))
  | receiveNothing {s : RecordLink} {side : Side} (hphase : (s.endpoint side).phase = .receiving)
      (hcall : s.call side = none) :
      RecordStep codec s side (s.setEndpoint side (s.endpoint side).receiveNothing)
  | begin {s : RecordLink} {side : Side} (hphase : (s.endpoint side).phase = .receiving)
      (hcall : s.call side = none) (hrecords : s.records side.other ≠ []) :
      RecordStep codec s side (s.setCall side (readRecord (s.records side.other)).2
        (applyBufferToBlock (readRecord (s.records side.other)).1 .new 0))
  | again {s : RecordLink} {side : Side} {applied : Nat} {block : MessageBlock}
      (hcall : s.call side = some (applied, block)) (hgoes : GoesOn applied block) :
      RecordStep codec s side s
  | round {s : RecordLink} {side : Side} {applied : Nat} {block : MessageBlock}
      (hcall : s.call side = some (applied, block)) (hgoes : GoesOn applied block)
      (hrecords : s.records side.other ≠ []) :
      RecordStep codec s side (s.setCall side (readRecord (s.records side.other)).2
        (applied + (applyBufferToBlock (readRecord (s.records side.other)).1 block applied).1,
          (applyBufferToBlock (readRecord (s.records side.other)).1 block applied).2))
  | finishNothing {s : RecordLink} {side : Side} {applied : Nat} {block : MessageBlock}
      (hcall : s.call side = some (applied, block)) (hdone : ¬ GoesOn applied block)
      (hsize : block.payloadSize = 0) :
      RecordStep codec s side (s.endCall side (s.endpoint side).receiveNothing)
  | finish {s : RecordLink} {side : Side} {applied : Nat} {block : MessageBlock}
      {messages : List Message} {received : Received} (now : Int)
      (hcall : s.call side = some (applied, block)) (hdone : ¬ GoesOn applied block)
      (hsize : block.payloadSize ≠ 0) (hunpack : unpackMessages codec block = .ok messages)
      (hdispatch : messages.foldlM dispatchMessage ⟨[], []⟩ = .ok received) :
      RecordStep codec s side
        (s.endCall side ((s.endpoint side).receive messages received now))
  | check {s : RecordLink} {side : Side} (now now' : Int)
      (hphase : (s.endpoint side).phase = .checking) :
      RecordStep codec s side (s.setEndpoint side ((s.endpoint side).check now now'))
  | pop {s : RecordLink} {side : Side} {message : Message} {rest : List Message}
      (hphase : (s.endpoint side).phase = .draining)
      (hqueue : (s.endpoint side).messagesOut = message :: rest) :
      RecordStep codec s side (s.setEndpoint side ((s.endpoint side).pop message rest))
  | popNothing {s : RecordLink} {side : Side} (hphase : (s.endpoint side).phase = .draining)
      (hqueue : (s.endpoint side).messagesOut = []) :
      RecordStep codec s side (s.setEndpoint side { s.endpoint side with phase := .sending })
  | sendNothing {s : RecordLink} {side : Side} (hphase : (s.endpoint side).phase = .sending)
      (hbatch : (s.endpoint side).batch = []) :
      RecordStep codec s side (s.setEndpoint side (s.endpoint side).sendBatch)
  | send {s : RecordLink} {side : Side} (hphase : (s.endpoint side).phase = .sending)
      (hbatch : (s.endpoint side).batch ≠ [])
      (hlen : (packBlock (packMessages codec (s.endpoint side).batch)).length < 2 ^ 31) :
      RecordStep codec s side { s with
        endpoint := Function.update s.endpoint side (s.endpoint side).sendBatch
        records := Function.update s.records side (s.records side
          ++ toRecords (packBlock (packMessages codec (s.endpoint side).batch))) }

/-- After the handshake, with the client's request for the rooms in records. -/
def RecordLink.Starts (codec : MsgPack) (s : RecordLink) : Prop :=
  ∃ (serverOut clientOut : List Message) (now : Int),
    s.endpoint .server = .start serverOut none [] ∧
    s.endpoint .client = .start clientOut (some (.heard now)) [createRoomListRequest] ∧
    s.records .server = [] ∧
    s.records .client = toRecords (packBlock (packMessages codec [createRoomListRequest])) ∧
    s.call .server = none ∧ s.call .client = none ∧
    (packBlock (packMessages codec [createRoomListRequest])).length < 2 ^ 31

/-- The two workers over records. -/
def recordConnection (codec : MsgPack) : LabelledSystem RecordLink Side where
  init := RecordLink.Starts codec
  step := RecordStep codec

/-! ## One read -/

theorem flatten_toRecords (bytes : Bytes) : (toRecords bytes).flatten = bytes := by
  fun_induction toRecords bytes with
  | case1 => rfl
  | case2 bytes _ ih => rw [List.flatten_cons, ih, List.take_append_drop]

theorem ne_nil_of_toRecords {bytes record : Bytes} (h : record ∈ toRecords bytes) :
    record ≠ [] := by
  fun_induction toRecords bytes with
  | case1 => exact (List.not_mem_nil h).elim
  | case2 bytes _ ih =>
      rcases List.mem_cons.mp h with rfl | hrest
      · have hpos := List.length_pos_iff.mpr ‹bytes ≠ []›
        refine List.ne_nil_of_length_pos ?_
        rw [List.length_take, maxRecord]
        omega
      · exact ih hrest

/-- What a read takes from the first record, and what it leaves of it. -/
theorem readRecord_cons (record : Bytes) (rest : List Bytes) :
    ∃ left, (readRecord (record :: rest)).2 = left ++ rest ∧
      (readRecord (record :: rest)).1 ++ left.flatten = record ∧
      (∀ r ∈ left, r ≠ []) ∧
      (readRecord (record :: rest)).1.length = min bufferSize record.length := by
  rw [readRecord]
  by_cases hshort : record.length ≤ bufferSize
  · refine ⟨[], ?_, ?_, ?_, List.length_take⟩
    · simp only [if_pos hshort, List.nil_append]
    · simp only [List.flatten_nil, List.append_nil]
      exact List.take_of_length_le hshort
    · exact fun r h => (List.not_mem_nil h).elim
  · refine ⟨[record.drop bufferSize], ?_, ?_, ?_, List.length_take⟩
    · simp only [if_neg hshort, List.singleton_append]
    · simp only [List.flatten_singleton, List.take_append_drop]
    · intro r h
      rw [List.mem_singleton.mp h]
      refine List.ne_nil_of_length_pos ?_
      rw [List.length_drop]
      omega

/-! ## What is on the wire -/

def recordsOf (blocks : List MessageBlock) : List Bytes :=
  blocks.flatMap fun block => toRecords (packBlock block)

/-- The records, and the call of the reader, are these blocks. -/
inductive Stream : List MessageBlock → List Bytes → Option (Nat × MessageBlock) → Prop where
  | between (blocks : List MessageBlock) : Stream blocks (recordsOf blocks) none
  /-- Of the first block, the header and a part of the payload have been read. -/
  | within {block : MessageBlock} {blocks : List MessageBlock} {part : Bytes}
      {records : List Bytes} (hpart : part ≠ []) (hrecords : ∀ record ∈ records, record ≠ [])
      (hpayload : part ++ records.flatten = block.payload) :
      Stream (block :: blocks) (records ++ recordsOf blocks)
        (some (part.length, ⟨block.payloadSize, part⟩))

theorem Stream.append {blocks : List MessageBlock} {records : List Bytes}
    {call : Option (Nat × MessageBlock)} (h : Stream blocks records call) (block : MessageBlock) :
    Stream (blocks ++ [block]) (records ++ toRecords (packBlock block)) call := by
  have happend : ∀ blocks, recordsOf blocks ++ toRecords (packBlock block)
      = recordsOf (blocks ++ [block]) := by
    intro blocks
    rw [recordsOf, recordsOf, List.flatMap_append, List.flatMap_singleton]
  cases h with
  | between =>
      rw [happend]
      exact .between _
  | within hpart hrecords hpayload =>
      rw [List.append_assoc, happend]
      exact .within hpart hrecords hpayload

/-- The first read of a block has its header and some of its payload. -/
theorem Stream.begin {blocks : List MessageBlock} {records : List Bytes}
    (h : Stream blocks records none) (hsealed : ∀ block ∈ blocks, Sealed block)
    (hne : records ≠ []) :
    Stream blocks (readRecord records).2
      (some (applyBufferToBlock (readRecord records).1 .new 0)) := by
  cases h
  cases blocks with
  | nil => exact (hne rfl).elim
  | cons block blocks =>
      have hpos := List.length_pos_iff.mpr (hsealed block List.mem_cons_self).ne_nil
      have hlen := length_packBlock block
      have hbytes : packBlock block ≠ [] := List.ne_nil_of_length_pos (by omega)
      obtain ⟨first, more, hrecords⟩ : ∃ first more, toRecords (packBlock block) = first :: more :=
        ⟨_, _, by rw [toRecords, dif_neg hbytes]⟩
      have hflat := flatten_toRecords (packBlock block)
      have hfirst : first.length = min maxRecord (packBlock block).length := by
        rw [toRecords, dif_neg hbytes] at hrecords
        rw [← (List.cons.inj hrecords).1, List.length_take]
      have hmore : ∀ record ∈ first :: more, record ≠ [] := fun record hrecord =>
        ne_nil_of_toRecords (hrecords ▸ hrecord)
      rw [hrecords] at hflat
      have hstream : recordsOf (block :: blocks) = first :: (more ++ recordsOf blocks) := by
        rw [recordsOf, List.flatMap_cons, hrecords]
        rfl
      rw [hstream]
      obtain ⟨left, hrest, hread, hleft, hcount⟩ :=
        readRecord_cons first (more ++ recordsOf blocks)
      have hcut : CutOf block ((readRecord (first :: (more ++ recordsOf blocks))).1
          :: (left ++ more)) := by
        refine ⟨?_, _, _, rfl, ?_⟩
        · rw [List.flatten_cons, List.flatten_append, ← List.append_assoc, hread, ← hflat,
            List.flatten_cons]
        · rw [hcount, hfirst, hlen, bufferSize, maxRecord]
          omega
      obtain ⟨part, rest, hgroup, hpart, hpayload⟩ := hcut.split
      obtain ⟨hbuffer, rfl⟩ := List.cons.inj hgroup
      rw [hbuffer, applyBuffer_header (length_toBytes _), fromBytes_toBytes, htonl_ntohl, hrest,
        ← List.append_assoc]
      refine .within hpart (fun record hrecord => ?_) hpayload
      rcases List.mem_append.mp hrecord with hold | hnew
      · exact hleft record hold
      · exact hmore record (List.mem_cons_of_mem _ hnew)

/-- Whether the loop goes on is whether records of the block are left. -/
theorem goesOn_iff {block : MessageBlock} {part : Bytes} {records : List Bytes}
    (hsealed : Sealed block) (hpart : part ≠ []) (hrecords : ∀ record ∈ records, record ≠ [])
    (hpayload : part ++ records.flatten = block.payload) :
    GoesOn part.length ⟨block.payloadSize, part⟩ ↔ records ≠ [] := by
  have hpos := List.length_pos_iff.mpr hpart
  have hlen := congrArg List.length hpayload
  rw [List.length_append, ← hsealed.size] at hlen
  have hflat : 0 < records.flatten.length ↔ records ≠ [] := by
    rw [List.length_pos_iff, not_iff_not]
    refine ⟨fun hnil => ?_, fun hnil => by rw [hnil]; rfl⟩
    rw [List.flatten_eq_nil_iff] at hnil
    cases records with
    | nil => rfl
    | cons record records =>
        exact (hrecords record List.mem_cons_self (hnil record List.mem_cons_self)).elim
  rw [← hflat, GoesOn]
  simp only
  omega

/-- In the loop, what is missing is there. -/
theorem Stream.goes_on {blocks : List MessageBlock} {records : List Bytes} {applied : Nat}
    {block : MessageBlock} (h : Stream blocks records (some (applied, block)))
    (hsealed : ∀ block ∈ blocks, Sealed block) (hgoes : GoesOn applied block) : records ≠ [] := by
  cases h with
  | within hpart hrecords hpayload =>
      have hne := (goesOn_iff (hsealed _ List.mem_cons_self) hpart hrecords hpayload).mp hgoes
      exact List.append_ne_nil_of_left_ne_nil hne _

theorem Stream.round {blocks : List MessageBlock} {records : List Bytes} {applied : Nat}
    {block : MessageBlock} (h : Stream blocks records (some (applied, block)))
    (hsealed : ∀ block ∈ blocks, Sealed block) (hgoes : GoesOn applied block) :
    Stream blocks (readRecord records).2
      (some (applied + (applyBufferToBlock (readRecord records).1 block applied).1,
        (applyBufferToBlock (readRecord records).1 block applied).2)) := by
  cases h with
  | @within block blocks part records hpart hrecords hpayload =>
      have hne := (goesOn_iff (hsealed _ List.mem_cons_self) hpart hrecords hpayload).mp hgoes
      cases records with
      | nil => exact (hne rfl).elim
      | cons record records =>
          have hrecord := hrecords record List.mem_cons_self
          obtain ⟨left, hrest, hread, hleft, hcount⟩ :=
            readRecord_cons record (records ++ recordsOf blocks)
          have hbuffer : (readRecord (record :: (records ++ recordsOf blocks))).1 ≠ [] := by
            have hpos := List.length_pos_iff.mpr hrecord
            refine List.ne_nil_of_length_pos ?_
            rw [hcount, bufferSize]
            omega
          rw [List.cons_append, applyBuffer_more hbuffer hgoes.1 hgoes.2, hrest,
            ← List.append_assoc]
          simp only
          rw [← List.length_append]
          refine .within (List.append_ne_nil_of_left_ne_nil hpart _) (fun r hr => ?_) ?_
          · rcases List.mem_append.mp hr with hold | hnew
            · exact hleft r hold
            · exact hrecords r (List.mem_cons_of_mem _ hnew)
          · have hbytes : (readRecord (record :: (records ++ recordsOf blocks))).1
                ++ (left ++ records).flatten = (record :: records).flatten := by
              rw [List.flatten_append, ← List.append_assoc, hread, List.flatten_cons]
            rw [List.append_assoc, hbytes, hpayload]

/-- When the call returns, it returns the first block. -/
theorem Stream.finish {blocks : List MessageBlock} {records : List Bytes} {applied : Nat}
    {block : MessageBlock} (h : Stream blocks records (some (applied, block)))
    (hsealed : ∀ block ∈ blocks, Sealed block) (hdone : ¬ GoesOn applied block) :
    ∃ rest, blocks = block :: rest ∧ Stream rest records none := by
  cases h with
  | @within first rest part left hpart hrecords hpayload =>
      have hiff := goesOn_iff (hsealed _ List.mem_cons_self) hpart hrecords hpayload
      obtain rfl : left = [] := by
        by_contra hne
        exact hdone (hiff.mpr hne)
      rw [List.flatten_nil, List.append_nil] at hpayload
      refine ⟨rest, ?_, .between rest⟩
      rw [hpayload]

/-! ## The refinement -/

/-- The connection as `Delivery` has it. -/
structure RecordLink.Abstracts (s : RecordLink) (t : Link) : Prop where
  endpoint : t.endpoint = s.endpoint
  receiving : ∀ side, s.call side ≠ none → (s.endpoint side).phase = .receiving
  stream : ∀ side, Stream (t.wire side) (s.records side) (s.call side.other)
  blocks : ∀ side, ∀ block ∈ t.wire side, Sealed block

theorem sealed_packMessages {codec : MsgPack} (hcodec : codec.Lossless) {messages : List Message}
    (hlen : (packBlock (packMessages codec messages)).length < 2 ^ 31) :
    Sealed (packMessages codec messages) := by
  rw [length_packBlock] at hlen
  exact sealed_setPayload (hcodec.to_ne_nil _) (Nat.lt_of_le_of_lt (Nat.le_add_left _ _) hlen)

namespace RecordLink

variable {codec : MsgPack} {s s' : RecordLink} {t : Link} {side : Side}

/-- One worker moves, and nothing is read or written. -/
theorem Abstracts.setEndpoint (h : s.Abstracts t) {e : Endpoint}
    (he : s.call side ≠ none → e.phase = .receiving) :
    (s.setEndpoint side e).Abstracts (t.setEndpoint side e) := by
  refine ⟨by rw [Link.setEndpoint, h.endpoint]; rfl, fun actor hcall => ?_, h.stream, h.blocks⟩
  by_cases hactor : actor = side
  · subst hactor
    simp only [RecordLink.setEndpoint, Function.update_self]
    exact he hcall
  · simp only [RecordLink.setEndpoint, Function.update_of_ne hactor]
    exact h.receiving actor hcall

/-- Outside step 1 there is no call. -/
theorem Abstracts.call_eq_none (h : s.Abstracts t) {phase : Phase}
    (hphase : (s.endpoint side).phase = phase) (hne : phase ≠ .receiving) {P : Prop}
    (hcall : s.call side ≠ none) : P :=
  (hne (hphase.symm.trans (h.receiving side hcall))).elim

/-- A side has read, in the middle of a call. -/
theorem Abstracts.setCall (h : s.Abstracts t) {records : List Bytes} {call : Nat × MessageBlock}
    (hphase : (s.endpoint side).phase = .receiving)
    (hstream : Stream (t.wire side.other) records (some call)) :
    (s.setCall side records call).Abstracts t := by
  refine ⟨h.endpoint, fun actor hcall => ?_, fun actor => ?_, h.blocks⟩
  · by_cases hactor : actor = side
    · rw [hactor]
      exact hphase
    · simp only [RecordLink.setCall, Function.update_of_ne hactor] at hcall
      exact h.receiving actor hcall
  by_cases hactor : actor = side.other
  · subst hactor
    simp only [RecordLink.setCall, Side.other_other, Function.update_self]
    exact hstream
  · have hother : actor.other ≠ side := by
      rintro rfl
      exact hactor (Side.other_other actor).symm
    simp only [RecordLink.setCall, Function.update_of_ne hactor, Function.update_of_ne hother]
    exact h.stream actor

/-- The call returns the first block that is on the wire. -/
theorem Abstracts.finish (h : s.Abstracts t) {applied : Nat} {block : MessageBlock}
    (hcall : s.call side = some (applied, block)) (hdone : ¬ GoesOn applied block) (e : Endpoint) :
    ∃ rest, t.wire side.other = block :: rest ∧ (s.endCall side e).Abstracts
      ⟨Function.update t.endpoint side e, Function.update t.wire side.other rest⟩ := by
  have hstream := h.stream side.other
  rw [Side.other_other, hcall] at hstream
  obtain ⟨rest, hwire, hrest⟩ := hstream.finish (h.blocks side.other) hdone
  refine ⟨rest, hwire, by rw [h.endpoint]; rfl, fun actor hcall => ?_, fun actor => ?_,
    fun actor b hb => ?_⟩
  · by_cases hactor : actor = side
    · subst hactor
      simp only [endCall, Function.update_self] at hcall
      exact (hcall rfl).elim
    · simp only [endCall, Function.update_of_ne hactor] at hcall ⊢
      exact h.receiving actor hcall
  · by_cases hactor : actor = side.other
    · subst hactor
      simp only [endCall, Side.other_other, Function.update_self]
      exact hrest
    · have hother : actor.other ≠ side := by
        rintro rfl
        exact hactor (Side.other_other actor).symm
      simp only [endCall, Function.update_of_ne hactor, Function.update_of_ne hother]
      exact h.stream actor
  · by_cases hactor : actor = side.other
    · subst hactor
      simp only [Function.update_self] at hb
      exact h.blocks side.other b (hwire ▸ List.mem_cons_of_mem _ hb)
    · simp only [Function.update_of_ne hactor] at hb
      exact h.blocks actor b hb

/-- What is written is at the end. -/
theorem Abstracts.send (hcodec : codec.Lossless) (h : s.Abstracts t) {messages : List Message}
    (hlen : (packBlock (packMessages codec messages)).length < 2 ^ 31) {e : Endpoint}
    (he : e.phase = .receiving) :
    Abstracts
      { s with
        endpoint := Function.update s.endpoint side e
        records := Function.update s.records side
          (s.records side ++ toRecords (packBlock (packMessages codec messages))) }
      ⟨Function.update t.endpoint side e,
        Function.update t.wire side (t.wire side ++ [packMessages codec messages])⟩ := by
  refine ⟨by rw [h.endpoint], fun actor hcall => ?_, fun actor => ?_, fun actor b hb => ?_⟩
  · by_cases hactor : actor = side
    · subst hactor
      simp only [Function.update_self]
      exact he
    · simp only [Function.update_of_ne hactor]
      exact h.receiving actor hcall
  · by_cases hactor : actor = side
    · subst hactor
      simp only [Function.update_self]
      exact (h.stream actor).append _
    · simp only [Function.update_of_ne hactor]
      exact h.stream actor
  · by_cases hactor : actor = side
    · subst hactor
      simp only [Function.update_self] at hb
      rcases List.mem_append.mp hb with hold | hnew
      · exact h.blocks actor b hold
      · rw [List.mem_singleton.mp hnew]
        exact sealed_packMessages hcodec hlen
    · simp only [Function.update_of_ne hactor] at hb
      exact h.blocks actor b hb

theorem Abstracts.step (hcodec : codec.Lossless) (h : s.Abstracts t)
    (hstep : RecordStep codec s side s') :
    s'.Abstracts t ∨ ∃ t', s'.Abstracts t' ∧ Step codec t side t' := by
  have hendpoint := congrFun h.endpoint side
  have hstream := h.stream side.other
  rw [Side.other_other] at hstream
  cases hstep with
  | push message =>
      refine .inr ⟨_, h.setEndpoint (h.receiving side), ?_⟩
      rw [← hendpoint]
      exact .push message
  | receiveNothing hphase hcall =>
      refine .inr ⟨_, h.setEndpoint fun hsome => (hsome hcall).elim, ?_⟩
      rw [← hendpoint] at hphase ⊢
      exact .receiveNothing hphase
  | begin hphase hcall hrecords =>
      rw [hcall] at hstream
      exact .inl (h.setCall hphase (hstream.begin (h.blocks _) hrecords))
  | again _ _ => exact .inl h
  | round hcall hgoes hrecords =>
      have hphase := h.receiving side (by rw [hcall]; exact Option.some_ne_none _)
      rw [hcall] at hstream
      exact .inl (h.setCall hphase (hstream.round (h.blocks _) hgoes))
  | finishNothing hcall hdone hsize =>
      obtain ⟨rest, hwire, -⟩ := h.finish hcall hdone (s.endpoint side)
      have hsealed := h.blocks side.other _ (hwire ▸ List.mem_cons_self)
      have hpos := List.length_pos_iff.mpr hsealed.ne_nil
      rw [← hsealed.size, hsize] at hpos
      exact (Nat.lt_irrefl 0 hpos).elim
  | finish now hcall hdone hsize hunpack hdispatch =>
      have hphase := h.receiving side (by rw [hcall]; exact Option.some_ne_none _)
      obtain ⟨rest, hwire, hnext⟩ := h.finish hcall hdone _
      refine .inr ⟨_, hnext, ?_⟩
      rw [← hendpoint] at hphase ⊢
      exact .receive now hphase hwire hunpack hdispatch
  | check now now' hphase =>
      refine .inr ⟨_, h.setEndpoint (h.call_eq_none hphase (by decide)), ?_⟩
      rw [← hendpoint] at hphase ⊢
      exact .check now now' hphase
  | pop hphase hqueue =>
      refine .inr ⟨_, h.setEndpoint (h.call_eq_none hphase (by decide)), ?_⟩
      rw [← hendpoint] at hphase hqueue ⊢
      exact .pop hphase hqueue
  | popNothing hphase hqueue =>
      refine .inr ⟨_, h.setEndpoint (h.call_eq_none hphase (by decide)), ?_⟩
      rw [← hendpoint] at hphase hqueue ⊢
      exact .popNothing hphase hqueue
  | sendNothing hphase hbatch =>
      refine .inr ⟨_, h.setEndpoint (h.call_eq_none hphase (by decide)), ?_⟩
      rw [← hendpoint] at hphase hbatch ⊢
      exact .sendNothing hphase hbatch
  | send hphase hbatch hlen =>
      refine .inr ⟨_, h.send hcodec hlen rfl, ?_⟩
      rw [← hendpoint] at hphase hbatch hlen ⊢
      exact .send hphase hbatch hlen

theorem Starts.abstracts (hcodec : codec.Lossless) (h : s.Starts codec) :
    ∃ t : Link, s.Abstracts t ∧ t.Starts codec := by
  obtain ⟨serverOut, clientOut, now, hserver, hclient, hfromServer, hfromClient, hcallServer,
    hcallClient, hlen⟩ := h
  refine ⟨⟨s.endpoint,
      fun side => if side = .server then [] else [packMessages codec [createRoomListRequest]]⟩,
    ⟨rfl, ?_, ?_, ?_⟩, serverOut, clientOut, now, hserver, hclient, rfl, rfl, hlen⟩
  · rintro (_ | _) hcall
    · exact (hcall hcallServer).elim
    · exact (hcall hcallClient).elim
  · rintro (_ | _)
    · rw [hfromServer, show Side.server.other = .client from rfl, hcallClient]
      exact .between []
    · rw [hfromClient, show Side.client.other = .server from rfl, hcallServer]
      have hrecords : toRecords (packBlock (packMessages codec [createRoomListRequest]))
          = recordsOf [packMessages codec [createRoomListRequest]] := by
        rw [recordsOf, List.flatMap_singleton]
      rw [hrecords]
      exact .between _
  · rintro (_ | _) block hblock
    · exact (List.not_mem_nil hblock).elim
    · rw [List.mem_singleton.mp hblock]
      exact sealed_packMessages hcodec hlen

end RecordLink

variable {codec : MsgPack} {s : RecordLink}

theorem records_simulate (hcodec : codec.Lossless)
    (h : (recordConnection codec).Reachable LabelledSystem.anyStep s) :
    ∃ t, s.Abstracts t ∧ (connection codec).Reachable LabelledSystem.anyStep t := by
  refine h.simulate ?_ ?_
  · intro s hstarts
    exact RecordLink.Starts.abstracts hcodec hstarts
  · intro s side s' t _ hrel _ hstep
    refine (hrel.step hcodec hstep).imp id fun ⟨t', hrel', hstep'⟩ => ?_
    exact ⟨side, t', hrel', trivial, hstep'⟩

/-- **The workers over records do nothing that the workers over blocks do not**: at any
time, what is in flight is some blocks in the order in which they were written, of which
the first may have been read in part.  And a call that is in the loop finds records. -/
theorem records_refine (hcodec : codec.Lossless)
    (h : (recordConnection codec).Reachable LabelledSystem.anyStep s) :
    (∃ t, (connection codec).Reachable LabelledSystem.anyStep t ∧ t.endpoint = s.endpoint ∧
      ∀ side, Stream (t.wire side) (s.records side) (s.call side.other)) ∧
    ∀ side applied block, s.call side = some (applied, block) → GoesOn applied block →
      s.records side.other ≠ [] := by
  obtain ⟨t, hrel, ht⟩ := records_simulate hcodec h
  refine ⟨⟨t, ht, hrel.endpoint, hrel.stream⟩, fun side applied block hcall hgoes => ?_⟩
  have hstream := hrel.stream side.other
  rw [Side.other_other, hcall] at hstream
  exact hstream.goes_on (hrel.blocks side.other) hgoes

/-- After the handshake, with the request for the rooms in its records. -/
noncomputable def openedRecords : RecordLink where
  endpoint := openedLink.endpoint
  records
    | .server => []
    | .client => toRecords (packBlock (packMessages sampleCodec [createRoomListRequest]))
  call _ := none

/-- The server has begun to read the request. -/
theorem records_refine_opening : ∃ (s : RecordLink) (t : Link), s.call .server ≠ none ∧
    t.endpoint = s.endpoint ∧ Stream (t.wire .client) (s.records .client) (s.call .server) := by
  have hstart : (recordConnection sampleCodec).Reachable LabelledSystem.anyStep openedRecords :=
    .init ⟨[], [], 0, rfl, rfl, rfl, rfl, rfl, rfl, openedLink_length⟩
  have hrecords : openedRecords.records .client ≠ [] := by
    intro hnil
    have hflat := flatten_toRecords (packBlock (packMessages sampleCodec [createRoomListRequest]))
    rw [show toRecords _ = [] from hnil] at hflat
    have hlen := length_packBlock (packMessages sampleCodec [createRoomListRequest])
    rw [← hflat, List.flatten_nil, List.length_nil] at hlen
    omega
  have hreach := hstart.step Side.server trivial (.begin rfl rfl hrecords)
  obtain ⟨⟨t, -, hendpoint, hstream⟩, -⟩ := records_refine sampleCodec_lossless hreach
  refine ⟨_, t, ?_, hendpoint, hstream .client⟩
  simp only [RecordLink.setCall, Function.update_self]
  exact Option.some_ne_none _

end Tavernmx.Session
