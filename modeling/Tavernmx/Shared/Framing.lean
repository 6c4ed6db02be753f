/-
# `Tavernmx.Shared.Framing` — blocks out of a stream of reads

`receiveMessage` is `ssl::receive_message` over the results of its successive
reads; a read of no bytes is a retry.  Repeated calls are `receiveMessages`.

The reader has one piece of state, the block it is in the middle of.  `feed`
makes it explicit, one read at a time, and `receiveMessages_eq_feed` says that it
is the program's two loops.  Two things can be read off it:

* a block takes every byte of the read in which it begins and of those that
  follow, until it has enough: what comes after a block in a read is lost;
* a read that ends with the eight bytes before the payload makes the reader
  return at once, with a block that has no payload.

So a well-cut stream is read back block by block (`feed_aligned`).  Conversely,
every block returned has used up at least its own length in bytes; when they are
all the blocks there were, nothing is left over for any other cut
(`feed_cost`).  `receiveMessages_eq_iff` puts the two together.
-/
import Tavernmx.Shared.Block

namespace Tavernmx.Messaging

open MessageBlock

/-! ## The program -/

/-- The loop of `receive_message`, over the reads it makes; `none` when it is
still waiting for bytes after the last of them. -/
def receiveRest : Nat → MessageBlock → List Bytes → Option (MessageBlock × List Bytes)
  | applied, block, [] =>
    if 0 < applied ∧ applied < block.payloadSize.toNat then none else some (block, [])
  | applied, block, buffer :: reads =>
    if 0 < applied ∧ applied < block.payloadSize.toNat then
      let (count, block) := applyBufferToBlock buffer block applied
      receiveRest (applied + count) block reads
    else some (block, buffer :: reads)

/-- `receive_message`: what it returns, and the reads it left. -/
def receiveMessage : List Bytes → Option (Option MessageBlock × List Bytes)
  | [] => none
  | buffer :: reads =>
    if buffer.length = 0 then some (none, reads)
    else
      let (applied, block) := applyBufferToBlock buffer .new 0
      (receiveRest applied block reads).map fun (block, reads) =>
        (if block.payloadSize = 0 then none else some block, reads)

/-- At most `calls` calls, until one of them waits; the blocks they return. -/
def receiveCalls : Nat → List Bytes → List MessageBlock
  | 0, _ => []
  | calls + 1, reads =>
    match receiveMessage reads with
    | none => []
    | some (returned, reads) => returned.toList ++ receiveCalls calls reads

/-- Calls until the stream is consumed.  Every call makes a read, so as many
calls as there are reads are enough. -/
def receiveMessages (reads : List Bytes) : List MessageBlock := receiveCalls reads.length reads

/-! ## One read at a time -/

/-- The block in the middle of which the reader is, if it is in one. -/
def unfinished (block : MessageBlock) : Prop :=
  0 < block.payload.length ∧ block.payload.length < block.payloadSize.toNat

instance (block : MessageBlock) : Decidable (unfinished block) :=
  inferInstanceAs (Decidable (_ ∧ _))

/-- What a finished block makes `receive_message` return. -/
def returned (block : MessageBlock) : List MessageBlock :=
  if block.payloadSize = 0 then [] else [block]

/-- The blocks that come out of `reads`, from the middle of a block or not. -/
def feed : Option MessageBlock → List Bytes → List MessageBlock
  | _, [] => []
  | partly, buffer :: reads =>
    if buffer = [] then feed partly reads
    else
      let block := match partly with
        | none => (applyBufferToBlock buffer .new 0).2
        | some block => { block with payload := block.payload ++ buffer }
      if unfinished block then feed (some block) reads else returned block ++ feed none reads

/-- What comes out once a block has its first bytes. -/
def resume (block : MessageBlock) (reads : List Bytes) : List MessageBlock :=
  if unfinished block then feed (some block) reads else returned block ++ feed none reads

theorem feed_nil_cons (partly : Option MessageBlock) (reads : List Bytes) :
    feed partly ([] :: reads) = feed partly reads := by
  simp [feed]

theorem feed_none_cons {buffer : Bytes} (h : buffer ≠ []) (reads : List Bytes) :
    feed none (buffer :: reads) = resume (applyBufferToBlock buffer .new 0).2 reads := by
  simp [feed, h, resume]

theorem feed_some_cons {buffer : Bytes} (h : buffer ≠ []) (block : MessageBlock)
    (reads : List Bytes) :
    feed (some block) (buffer :: reads)
      = resume { block with payload := block.payload ++ buffer } reads := by
  simp [feed, h, resume]

/-- Retries make no difference. -/
theorem feed_filter : ∀ (reads : List Bytes) (partly : Option MessageBlock),
    feed partly (reads.filter (· ≠ [])) = feed partly reads
  | [], _ => rfl
  | buffer :: reads, partly => by
      by_cases h : buffer = []
      · subst h
        rw [feed_nil_cons, ← feed_filter reads partly]
        simp
      · have hcons : (buffer :: reads).filter (· ≠ [])
          = buffer :: reads.filter (· ≠ []) := by simp [h]
        rw [hcons]
        simp only [feed, if_neg h, feed_filter reads]

/-- The inner loop is `resume`, up to the call's return. -/
theorem resume_eq_receiveRest : ∀ (reads : List Bytes) (block : MessageBlock),
    (receiveRest block.payload.length block reads = none ∧ resume block reads = []) ∨
    ∃ block' reads', receiveRest block.payload.length block reads = some (block', reads') ∧
      reads'.length ≤ reads.length ∧ resume block reads = returned block' ++ feed none reads'
  | [], block => by
      by_cases h : unfinished block
      · exact Or.inl ⟨if_pos h, by simp [resume, h, feed]⟩
      · exact Or.inr ⟨block, [], if_neg h, le_refl _, if_neg h⟩
  | buffer :: reads, block => by
      by_cases h : unfinished block
      · have hrest : receiveRest block.payload.length block (buffer :: reads)
            = receiveRest (block.payload.length +
              (applyBufferToBlock buffer block block.payload.length).1)
                (applyBufferToBlock buffer block block.payload.length).2 reads := if_pos h
        rw [hrest, resume, if_pos h]
        by_cases hbuffer : buffer = []
        · -- a retry
          subst hbuffer
          have hsame : applyBufferToBlock [] block block.payload.length = (0, block) := rfl
          rw [hsame, feed_nil_cons, Nat.add_zero]
          have ih := resume_eq_receiveRest reads block
          rw [resume, if_pos h] at ih
          rcases ih with ih | ⟨block', reads', hok, hlen, hout⟩
          · exact Or.inl ih
          · exact Or.inr ⟨block', reads', hok, Nat.le_succ_of_le hlen, hout⟩
        · rw [applyBuffer_more hbuffer h.1 h.2, feed_some_cons hbuffer]
          have ih := resume_eq_receiveRest reads { block with payload := block.payload ++ buffer }
          rw [show (block.payload ++ buffer).length = block.payload.length + buffer.length from
            List.length_append] at ih
          rcases ih with ih | ⟨block', reads', hok, hlen, hout⟩
          · exact Or.inl ih
          · exact Or.inr ⟨block', reads', hok, Nat.le_succ_of_le hlen, hout⟩
      · exact Or.inr ⟨block, buffer :: reads, if_neg h, le_refl _, if_neg h⟩

/-- The first call leaves the count of the payload bytes it has. -/
theorem applyBuffer_new_count (buffer : Bytes) :
    (applyBufferToBlock buffer .new 0).1 = (applyBufferToBlock buffer .new 0).2.payload.length := by
  rcases applyBuffer_start buffer with h | ⟨_, _, _, _, _, h⟩ <;> rw [h]
  rfl

theorem receiveCalls_eq_feed : ∀ (calls : Nat) (reads : List Bytes), reads.length ≤ calls →
    receiveCalls calls reads = feed none reads
  | 0, reads, h => by
      obtain rfl := List.length_eq_zero_iff.mp (Nat.le_zero.mp h)
      rfl
  | calls + 1, [], _ => rfl
  | calls + 1, buffer :: reads, h => by
      have hlen : reads.length ≤ calls := Nat.le_of_succ_le_succ h
      by_cases hbuffer : buffer = []
      · subst hbuffer
        rw [feed_nil_cons, ← receiveCalls_eq_feed calls reads hlen]
        rfl
      · have hne : ¬ buffer.length = 0 := by simpa using hbuffer
        rw [feed_none_cons hbuffer, receiveCalls, receiveMessage, if_neg hne]
        simp only [applyBuffer_new_count buffer]
        rcases resume_eq_receiveRest reads (applyBufferToBlock buffer .new 0).2 with
          ⟨hwait, hout⟩ | ⟨block, reads', hok, hshort, hout⟩
        · rw [hwait, hout]
          rfl
        · rw [hok, hout]
          simp only [Option.map_some]
          rw [receiveCalls_eq_feed calls reads' (by omega), returned]
          split <;> rfl

/-- **The program's loops read the stream as `feed` does.** -/
theorem receiveMessages_eq_feed (reads : List Bytes) : receiveMessages reads = feed none reads :=
  receiveCalls_eq_feed reads.length reads (le_refl _)

/-! ## Reads that are well cut -/

/-- The reads that carry one block: none of them goes past its end, and the first
of them goes past the header and the size. -/
def CutOf (block : MessageBlock) (group : List Bytes) : Prop :=
  group.flatten = packBlock block ∧ ∃ first rest, group = first :: rest ∧ 9 ≤ first.length

/-- The reads, retries aside, fall into groups that carry one block each. -/
def Aligned (blocks : List MessageBlock) (reads : List Bytes) : Prop :=
  ∃ groups : List (List Bytes), reads.filter (· ≠ []) = groups.flatten ∧
    List.Forall₂ CutOf blocks groups

/-- A block as `set_payload` makes it, of a payload that is neither empty nor too long. -/
structure Sealed (block : MessageBlock) : Prop where
  ne_nil : block.payload ≠ []
  size : block.payloadSize.toNat = block.payload.length

theorem sealed_setPayload {payload : Bytes} (hne : payload ≠ []) (hlen : payload.length < 2 ^ 31) :
    Sealed (setPayload payload) :=
  ⟨hne, by simp only [setPayload, UInt32.toNat_ofNat']; omega⟩

theorem Sealed.returned_eq {block : MessageBlock} (h : Sealed block) :
    returned block = [block] := by
  have hpos := List.length_pos_iff.mpr h.ne_nil
  refine if_neg fun hzero => ?_
  have := h.size
  rw [hzero] at this
  exact absurd this (by show ¬ 0 = _; omega)

/-- From its first payload byte on, a block is read to its end. -/
theorem resume_block {block : MessageBlock} (h : Sealed block) (more : List Bytes) :
    ∀ (rest : List Bytes) (payload : Bytes), (∀ buffer ∈ rest, buffer ≠ []) → payload ≠ [] →
      payload ++ rest.flatten = block.payload →
      resume ⟨block.payloadSize, payload⟩ (rest ++ more) = block :: feed none more
  | [], payload, _, _, hpayload => by
      obtain rfl : payload = block.payload := by simpa using hpayload
      have hdone : ¬ unfinished block := fun hmissing => by
        have := h.size
        exact absurd hmissing.2 (by omega)
      rw [List.nil_append, resume, if_neg hdone, h.returned_eq]
      rfl
  | buffer :: rest, payload, hne, hpos, hpayload => by
      have hbuffer : buffer ≠ [] := hne buffer List.mem_cons_self
      have hlen := congrArg List.length hpayload
      have hbufferPos := List.length_pos_iff.mpr hbuffer
      rw [List.flatten_cons, List.length_append, List.length_append] at hlen
      have hmissing : unfinished ⟨block.payloadSize, payload⟩ := by
        refine ⟨List.length_pos_iff.mpr hpos, ?_⟩
        show payload.length < block.payloadSize.toNat
        rw [h.size]
        omega
      rw [List.cons_append, resume, if_pos hmissing, feed_some_cons hbuffer]
      exact resume_block h more rest (payload ++ buffer)
        (fun b hb => hne b (List.mem_cons_of_mem _ hb)) (by simp [hpos])
        (by rw [← hpayload, List.flatten_cons, List.append_assoc])

/-- The first read of a group is the header, the size, and some of the payload. -/
theorem CutOf.split {block : MessageBlock} {group : List Bytes} (h : CutOf block group) :
    ∃ part rest, group = (header ++ toBytes (ntohl block.payloadSize) ++ part) :: rest ∧
      part ≠ [] ∧ part ++ rest.flatten = block.payload := by
  obtain ⟨hflat, first, rest, rfl, hlong⟩ := h
  have hlen : (header ++ toBytes (ntohl block.payloadSize)).length = 8 := rfl
  have hhead : first.take 8 = header ++ toBytes (ntohl block.payloadSize) := by
    have htake := congrArg (List.take 8) hflat
    rwa [List.flatten_cons, List.take_append_of_le_length (by omega), packBlock,
      List.take_left' hlen] at htake
  have htail : first.drop 8 ++ rest.flatten = block.payload := by
    have hdrop := congrArg (List.drop 8) hflat
    rwa [List.flatten_cons, List.drop_append_of_le_length (by omega), packBlock,
      List.drop_left' hlen] at hdrop
  refine ⟨first.drop 8, rest, ?_, ?_, htail⟩
  · rw [← hhead, List.take_append_drop]
  · intro hnil
    have := congrArg List.length hnil
    rw [List.length_drop, List.length_nil] at this
    omega

/-- A group of reads that carry a block gives the block. -/
theorem feed_cutOf {block : MessageBlock} (h : Sealed block) {group : List Bytes}
    (hcut : CutOf block group) (hne : ∀ buffer ∈ group, buffer ≠ []) (more : List Bytes) :
    feed none (group ++ more) = block :: feed none more := by
  obtain ⟨part, rest, rfl, hpart, hpayload⟩ := hcut.split
  have hsize := length_toBytes (ntohl block.payloadSize)
  rw [List.cons_append, feed_none_cons (hne _ List.mem_cons_self), applyBuffer_header hsize,
    fromBytes_toBytes, htonl_ntohl]
  exact resume_block h more rest part (fun b hb => hne b (List.mem_cons_of_mem _ hb)) hpart hpayload

theorem feed_aligned : ∀ {blocks : List MessageBlock} {groups : List (List Bytes)},
    (∀ block ∈ blocks, Sealed block) → List.Forall₂ CutOf blocks groups →
    (∀ buffer ∈ groups.flatten, buffer ≠ []) → feed none groups.flatten = blocks
  | _, _, _, .nil, _ => rfl
  | block :: blocks, group :: groups, hsealed, .cons hcut hrest, hne => by
      rw [List.flatten_cons] at hne ⊢
      rw [feed_cutOf (hsealed block List.mem_cons_self) hcut
        (fun b hb => hne b (List.mem_append_left _ hb)),
        feed_aligned (fun b hb => hsealed b (List.mem_cons_of_mem _ hb)) hrest
          (fun b hb => hne b (List.mem_append_right _ hb))]

/-! ## What a block costs -/

/-- The bytes of the blocks that came out. -/
def cost (blocks : List MessageBlock) : Nat := (blocks.flatMap packBlock).length

theorem cost_cons (block : MessageBlock) (blocks : List MessageBlock) :
    cost (block :: blocks) = 8 + block.payload.length + cost blocks := by
  rw [cost, List.flatMap_cons, List.length_append, length_packBlock]
  rfl

/-- What comes out of `reads` has at most as many bytes; and with exactly as many,
the reads were well cut. -/
structure FeedCost (reads : List Bytes) : Prop where
  le : cost (feed none reads) ≤ reads.flatten.length
  tight : cost (feed none reads) = reads.flatten.length →
    (∀ block ∈ feed none reads, block.payload ≠ []) →
    ∃ groups : List (List Bytes), reads = groups.flatten ∧
      List.Forall₂ CutOf (feed none reads) groups

/-- The same from the middle of a block, whose first bytes were read before. -/
structure ResumeCost (block : MessageBlock) (reads : List Bytes) : Prop where
  le : cost (resume block reads) ≤ 8 + block.payload.length + reads.flatten.length
  tight : cost (resume block reads) = 8 + block.payload.length + reads.flatten.length →
    (∀ out ∈ resume block reads, out.payload ≠ []) →
    ∃ (tail : List Bytes) (blocks : List MessageBlock) (groups : List (List Bytes)),
      resume block reads = ⟨block.payloadSize, block.payload ++ tail.flatten⟩ :: blocks ∧
      reads = tail ++ groups.flatten ∧ List.Forall₂ CutOf blocks groups ∧
      (block.payload = [] → tail = [])

theorem ResumeCost.of_finished {block : MessageBlock} {reads : List Bytes} (h : ¬ unfinished block)
    (hreads : FeedCost reads) : ResumeCost block reads := by
  have hresume : resume block reads = returned block ++ feed none reads := if_neg h
  unfold returned at hresume
  split at hresume
  next =>
    rw [List.nil_append] at hresume
    exact ⟨by rw [hresume]; have := hreads.le; omega,
      fun heq => absurd heq (by rw [hresume]; have := hreads.le; omega)⟩
  next =>
    rw [List.singleton_append] at hresume
    refine ⟨by rw [hresume, cost_cons]; have := hreads.le; omega, fun heq hpayload => ?_⟩
    rw [hresume, cost_cons] at heq
    obtain ⟨groups, hgroups, hcut⟩ := hreads.tight (by omega)
      fun b hb => hpayload b (by rw [hresume]; exact List.mem_cons_of_mem _ hb)
    exact ⟨[], feed none reads, groups, by simp [hresume], hgroups, hcut, fun _ => rfl⟩

theorem FeedCost.cons {buffer : Bytes} (hbuffer : buffer ≠ []) {reads : List Bytes}
    (hfeed : FeedCost reads) (hresume : ∀ block, ResumeCost block reads) :
    FeedCost (buffer :: reads) := by
  have hpos := List.length_pos_iff.mpr hbuffer
  have hstep := feed_none_cons hbuffer reads
  have hlen : (buffer :: reads).flatten.length = buffer.length + reads.flatten.length := by simp
  rcases applyBuffer_start buffer with hnone | ⟨before, size, rest, hsplit, hsize, happly⟩
  · -- no header: the read is lost
    have hlost : feed none (buffer :: reads) = feed none reads := by
      rw [hstep, hnone]
      rfl
    have hle := hfeed.le
    exact ⟨by rw [hlost]; omega, fun heq => absurd heq (by rw [hlost]; omega)⟩
  · have hcost := hresume ⟨htonl (fromBytes size), rest⟩
    have hle := hcost.le
    have hbytes : buffer.length = before.length + 8 + rest.length := by
      rw [hsplit]
      simp only [List.length_append, hsize]
      rfl
    rw [happly] at hstep
    simp only at hstep hle
    refine ⟨by rw [hstep]; omega, fun heq hpayload => ?_⟩
    rw [hstep] at heq hpayload ⊢
    obtain ⟨tail, blocks, groups, hout, hrest, hcut, hempty⟩ :=
      hcost.tight (by simp only; omega) hpayload
    simp only at hout hempty
    -- there is nothing before the header
    have hbefore : before = [] := List.length_eq_zero_iff.mp (by omega)
    subst hbefore
    have hne : rest ++ tail.flatten ≠ [] := hpayload _ (by rw [hout]; exact List.mem_cons_self)
    have hrestNe : rest ≠ [] := by
      rintro rfl
      rw [hempty rfl] at hne
      exact hne rfl
    have hrestPos := List.length_pos_iff.mpr hrestNe
    rw [hout]
    refine ⟨(buffer :: tail) :: groups, by rw [hrest]; simp, .cons ⟨?_, buffer, tail, rfl, ?_⟩ hcut⟩
    · rw [packBlock, ntohl_htonl, toBytes_fromBytes hsize, List.flatten_cons, hsplit]
      simp
    · rw [List.length_nil] at hbytes
      omega

theorem ResumeCost.of_unfinished {block : MessageBlock} (h : unfinished block) {buffer : Bytes}
    (hbuffer : buffer ≠ []) {reads : List Bytes}
    (hreads : ResumeCost { block with payload := block.payload ++ buffer } reads) :
    ResumeCost block (buffer :: reads) := by
  have hstep : resume block (buffer :: reads)
      = resume { block with payload := block.payload ++ buffer } reads := by
    rw [resume, if_pos h, feed_some_cons hbuffer]
  have hle := hreads.le
  have hlen : (buffer :: reads).flatten.length = buffer.length + reads.flatten.length := by simp
  simp only [List.length_append] at hle
  refine ⟨by rw [hstep]; omega, fun heq hpayload => ?_⟩
  rw [hstep] at heq hpayload ⊢
  obtain ⟨tail, blocks, groups, hout, hrest, hcut, -⟩ :=
    hreads.tight (by simp only [List.length_append]; omega) hpayload
  refine ⟨buffer :: tail, blocks, groups, ?_, by rw [hrest]; rfl, hcut, ?_⟩
  · rw [hout, List.flatten_cons, List.append_assoc]
  · intro hnil
    exact absurd h.1 (by simp [hnil])

theorem ResumeCost.nil {block : MessageBlock} (h : unfinished block) : ResumeCost block [] := by
  have hnone : resume block [] = [] := if_pos h
  have hzero : cost (resume block []) = 0 := by rw [hnone]; rfl
  exact ⟨by omega, fun heq => absurd heq (by omega)⟩

theorem feed_cost : ∀ reads : List Bytes, (∀ buffer ∈ reads, buffer ≠ []) →
    FeedCost reads ∧ ∀ block, ResumeCost block reads
  | [], _ => by
      have hnil : FeedCost [] := ⟨le_refl _, fun _ _ => ⟨[], rfl, .nil⟩⟩
      refine ⟨hnil, fun block => ?_⟩
      by_cases h : unfinished block
      · exact .nil h
      · exact .of_finished h hnil
  | buffer :: reads, hne => by
      have hbuffer := hne buffer List.mem_cons_self
      have ih := feed_cost reads fun b hb => hne b (List.mem_cons_of_mem _ hb)
      have hcons : FeedCost (buffer :: reads) := .cons hbuffer ih.1 ih.2
      refine ⟨hcons, fun block => ?_⟩
      by_cases h : unfinished block
      · exact .of_unfinished h hbuffer (ih.2 _)
      · exact .of_finished h hcons

/-! ## When the stream is read back -/

theorem flatten_filter_ne_nil : ∀ reads : List Bytes,
    (reads.filter (· ≠ [])).flatten = reads.flatten
  | [] => rfl
  | buffer :: reads => by
      have ih := flatten_filter_ne_nil reads
      by_cases h : buffer = []
      · subst h
        simpa using ih
      · simp only [ne_eq, h, not_false_eq_true, decide_true, List.filter_cons_of_pos,
          List.flatten_cons]
        rw [← ih]

/-- **The blocks come back exactly when the stream was cut at their ends**, and
the first read of each reaches into its payload. -/
theorem receiveMessages_eq_iff {payloads : List Bytes} (hne : ∀ payload ∈ payloads, payload ≠ [])
    (hsize : ((payloads.map setPayload).flatMap packBlock).length < 2 ^ 31) {reads : List Bytes}
    (hcut : reads.flatten = (payloads.map setPayload).flatMap packBlock) :
    receiveMessages reads = payloads.map setPayload ↔ Aligned (payloads.map setPayload) reads := by
  rw [receiveMessages_eq_feed, ← feed_filter]
  have hreads : ∀ buffer ∈ reads.filter (· ≠ []), buffer ≠ [] := fun b hb => by
    simpa using (List.mem_filter.mp hb).2
  have hsealed : ∀ block ∈ payloads.map setPayload, Sealed block := by
    intro block hblock
    obtain ⟨payload, hpayload, rfl⟩ := List.mem_map.mp hblock
    have hlen : (packBlock (setPayload payload)).length
        ≤ ((payloads.map setPayload).flatMap packBlock).length := by
      rw [List.flatMap_def]
      exact (List.sublist_flatten_of_mem (List.mem_map_of_mem hblock)).length_le
    rw [length_packBlock] at hlen
    exact sealed_setPayload (hne payload hpayload) (by simp only [setPayload] at hlen; omega)
  constructor
  · intro hback
    obtain ⟨groups, hgroups, hforall⟩ := (feed_cost _ hreads).1.tight
      (by rw [hback, flatten_filter_ne_nil, hcut, cost])
      (by rw [hback]; exact fun block hblock => (hsealed block hblock).ne_nil)
    exact ⟨groups, hgroups, hback ▸ hforall⟩
  · rintro ⟨groups, hgroups, hforall⟩
    rw [hgroups] at hreads ⊢
    exact feed_aligned hsealed hforall hreads

/-- A block in two reads, with a retry between them. -/
theorem receiveMessages_two_reads :
    receiveMessages [[0x74, 0x6d, 0x78, 0x02, 0, 0, 0, 2, 7], [], [8]] = [setPayload [7, 8]] := by
  have hne : ∀ payload ∈ [([7, 8] : Bytes)], payload ≠ [] := by decide
  exact (receiveMessages_eq_iff hne (by decide) (by decide)).mpr
    ⟨[[[0x74, 0x6d, 0x78, 0x02, 0, 0, 0, 2, 7], [8]]], by decide,
      .cons ⟨by decide, _, _, rfl, by decide⟩ .nil⟩

/-- Two blocks that arrive in one read are merged. -/
theorem receiveMessages_merged : ∃ payloads reads : List Bytes,
    (∀ payload ∈ payloads, payload ≠ []) ∧
    ((payloads.map setPayload).flatMap packBlock).length < 2 ^ 31 ∧
    (∀ buffer ∈ reads, buffer ≠ [] ∧ buffer.length ≤ 1500) ∧
    reads.flatten = (payloads.map setPayload).flatMap packBlock ∧
    receiveMessages reads ≠ payloads.map setPayload :=
  ⟨[[1], [2]], [packBlock (setPayload [1]) ++ packBlock (setPayload [2])], by decide, by decide,
    by decide, by decide, by decide⟩

end Tavernmx.Messaging
