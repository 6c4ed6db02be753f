/-
# `Tavernmx.Shared.Reception` — one call of `receive_message`, whatever the peer sends

A call makes a first read.  If there is a complete header with a size in it, the
bytes behind the size are the first of the payload (`announced`), and the loop
makes more reads until it has as many as were announced.  `receiveRest_spec` says
where the loop stops: at the first read that completes the payload, if there is
one, and nowhere otherwise.

Both calls of `apply_buffer_to_block` append the whole rest of the buffer, and the
loop is not entered when the first read had no payload byte.  So the block that is
returned is well formed exactly when the payload ends where a read ends
(`receiveMessage_wellFormed_iff`).

A read of no bytes is a retry, and it is also what every read gives after the peer
has closed.  In the middle of a payload the loop cannot tell the difference: it
ends exactly when the peer does not close there (`receiveMessage_ends_iff`).
-/
import Mathlib.Data.List.Flatten
import Tavernmx.Shared.Framing

namespace Tavernmx.Messaging

open MessageBlock

/-! ## The first read -/

/-- The size behind a header, and the bytes that follow it. -/
def sizeAndRest (found : Bytes) : Option (UInt32 × Bytes) :=
  if found.take 4 = header ∧ 8 ≤ found.length then
    some (htonl (fromBytes ((found.drop 4).take 4)), found.drop 8)
  else none

/-- What a read announces; only the first byte of a header is searched for. -/
def announced (buffer : Bytes) : Option (UInt32 × Bytes) :=
  sizeAndRest (buffer.dropWhile (· ≠ 0x74))

/-- The bytes of the block are in the read. -/
theorem announced_split {buffer rest : Bytes} {size : UInt32}
    (h : announced buffer = some (size, rest)) :
    ∃ before, buffer = before ++ header ++ toBytes (ntohl size) ++ rest := by
  have hsplit := (List.takeWhile_append_dropWhile (p := (· ≠ 0x74)) (l := buffer)).symm
  rw [announced, sizeAndRest] at h
  revert h hsplit
  generalize buffer.dropWhile (· ≠ 0x74) = found
  generalize buffer.takeWhile (· ≠ 0x74) = before
  intro h hsplit
  by_cases hfound : found.take 4 = header ∧ 8 ≤ found.length
  · rw [if_pos hfound] at h
    cases h
    have hsize : ((found.drop 4).take 4).length = 4 := by
      rw [List.length_take, List.length_drop]
      omega
    have hdrop : found.drop 8 = (found.drop 4).drop 4 := by rw [List.drop_drop]
    refine ⟨before, ?_⟩
    rw [ntohl_htonl, toBytes_fromBytes hsize, List.append_assoc, List.append_assoc, ← hfound.1,
      hdrop, List.take_append_drop, List.take_append_drop]
    exact hsplit
  · rw [if_neg hfound] at h
    cases h

/-- The first call of `apply_buffer_to_block` reads what is announced. -/
theorem applyBuffer_new (buffer : Bytes) : applyBufferToBlock buffer .new 0
    = ((announced buffer).map fun a => (a.2.length, MessageBlock.mk a.1 a.2)).getD (0, .new) := by
  cases buffer with
  | nil => rfl
  | cons b bs =>
      rw [announced, sizeAndRest, applyBufferToBlock, if_neg (by simp), if_pos rfl]
      generalize (b :: bs).dropWhile (· ≠ 0x74) = found
      by_cases hfound : found.take 4 = header ∧ 8 ≤ found.length
      · have hheader : ¬ (found.length < 4 ∨ found.take 4 ≠ header) := by
          rw [not_or, not_not]
          exact ⟨by omega, hfound.1⟩
        have hsize : ¬ (found.drop 4).length < 4 := by
          rw [List.length_drop]
          omega
        rw [if_pos hfound, if_neg hheader]
        simp only [if_neg hsize, List.drop_drop]
        rfl
      · rw [if_neg hfound]
        by_cases hheader : found.length < 4 ∨ found.take 4 ≠ header
        · rw [if_pos hheader]
          rfl
        · rw [not_or, not_not] at hheader
          have hsize : (found.drop 4).length < 4 := by
            have hshort : ¬ 8 ≤ found.length := fun hlen => hfound ⟨hheader.2, hlen⟩
            rw [List.length_drop]
            omega
          rw [if_neg (by rw [not_or, not_not]; exact hheader)]
          simp only [if_pos hsize]
          rfl

/-! ## Where the loop stops -/

/-- The block after some of the reads. -/
def extend (block : MessageBlock) (reads : List Bytes) : MessageBlock :=
  { block with payload := block.payload ++ reads.flatten }

@[simp] theorem extend_nil (block : MessageBlock) : extend block [] = block := by simp [extend]

theorem length_extend (block : MessageBlock) (reads : List Bytes) :
    (extend block reads).payload.length = block.payload.length + reads.flatten.length :=
  List.length_append

theorem unfinished_extend (size : UInt32) (rest : Bytes) (reads : List Bytes) :
    unfinished (extend ⟨size, rest⟩ reads) ↔ 0 < rest.length + reads.flatten.length ∧
      rest.length + reads.flatten.length < size.toNat := by
  rw [unfinished, length_extend]
  rfl

theorem applyBuffer_size {buffer : Bytes} {block : MessageBlock} {offset : Nat} (h : 0 < offset) :
    (applyBufferToBlock buffer block offset).2.payloadSize = block.payloadSize := by
  rw [applyBufferToBlock]
  by_cases hbuffer : buffer.isEmpty = true
  · rw [if_pos hbuffer]
  · rw [if_neg hbuffer, if_neg (Nat.pos_iff_ne_zero.mp h)]
    by_cases hmissing : offset < block.payloadSize.toNat
    · rw [if_pos hmissing]
    · rw [if_neg hmissing]

/-- The loop keeps the announced size. -/
theorem receiveRest_size {reads left : List Bytes} {applied : Nat} {block stopped : MessageBlock}
    (h : receiveRest applied block reads = some (stopped, left)) :
    stopped.payloadSize = block.payloadSize := by
  induction reads generalizing applied block with
  | nil =>
      rw [receiveRest] at h
      split at h
      · cases h
      · cases h
        rfl
  | cons buffer reads ih =>
      rw [receiveRest] at h
      split at h
      next hmissing => exact (ih h).trans (applyBuffer_size hmissing.1)
      next =>
        cases h
        rfl

/-- A call in the middle of a payload appends the whole read, and counts it. -/
theorem applyBuffer_unfinished {block : MessageBlock} (h : unfinished block) (buffer : Bytes) :
    applyBufferToBlock buffer block block.payload.length
      = (buffer.length, extend block [buffer]) := by
  by_cases hbuffer : buffer = []
  · subst hbuffer
    have hsame : extend block [[]] = block := by simp [extend]
    rw [hsame]
    rfl
  · have hmore : extend block [buffer] = { block with payload := block.payload ++ buffer } := by
      simp [extend]
    rw [applyBuffer_more hbuffer h.1 h.2, hmore]

/-- One round of the loop; a read of no bytes changes nothing. -/
theorem receiveRest_cons {block : MessageBlock} (h : unfinished block) (buffer : Bytes)
    (reads : List Bytes) :
    receiveRest block.payload.length block (buffer :: reads)
      = receiveRest (extend block [buffer]).payload.length (extend block [buffer]) reads := by
  have hround : receiveRest block.payload.length block (buffer :: reads)
      = receiveRest (block.payload.length
          + (applyBufferToBlock buffer block block.payload.length).1)
        (applyBufferToBlock buffer block block.payload.length).2 reads := if_pos h
  have hcount : (extend block [buffer]).payload.length = block.payload.length + buffer.length := by
    rw [length_extend, List.flatten_singleton]
  rw [hround, applyBuffer_unfinished h, hcount]

/-- **The loop stops at the first read that completes the payload**, if there is one. -/
theorem receiveRest_spec (reads : List Bytes) (block : MessageBlock)
    (hstarted : 0 < block.payload.length) :
    (receiveRest block.payload.length block reads = none ∧ unfinished (extend block reads)) ∨
    ∃ k ≤ reads.length, receiveRest block.payload.length block reads
        = some (extend block (reads.take k), reads.drop k) ∧
      ¬ unfinished (extend block (reads.take k)) ∧
      ∀ j < k, unfinished (extend block (reads.take j)) := by
  induction reads generalizing block with
  | nil =>
      by_cases h : unfinished block
      · exact Or.inl ⟨if_pos h, by rwa [extend_nil]⟩
      · refine Or.inr ⟨0, le_refl _, ?_, ?_, fun j hj => absurd hj (Nat.not_lt_zero j)⟩
        · rw [List.take_nil, extend_nil]
          exact if_neg h
        · rwa [List.take_nil, extend_nil]
  | cons buffer reads ih =>
      by_cases h : unfinished block
      · have hmore : 0 < (extend block [buffer]).payload.length := by
          rw [length_extend]
          omega
        have hcons : ∀ rs, extend (extend block [buffer]) rs = extend block (buffer :: rs) := by
          simp [extend]
        rw [receiveRest_cons h]
        rcases ih _ hmore with ⟨hwait, hopen⟩ | ⟨k, hk, hstop, hdone, hbefore⟩
        · exact Or.inl ⟨hwait, by rwa [hcons] at hopen⟩
        · rw [hcons] at hdone hstop
          refine Or.inr ⟨k + 1, Nat.succ_le_succ hk, hstop, hdone, fun j hj => ?_⟩
          cases j with
          | zero => rwa [List.take_zero, extend_nil]
          | succ j =>
              have hj' := hbefore j (Nat.lt_of_succ_lt_succ hj)
              rwa [hcons] at hj'
      · refine Or.inr ⟨0, Nat.zero_le _, ?_, ?_, fun j hj => absurd hj (Nat.not_lt_zero j)⟩
        · rw [List.take_zero, extend_nil]
          exact if_neg h
        · rwa [List.take_zero, extend_nil]

/-- A call whose first read announces no block returns nothing. -/
theorem receiveMessage_not_announced {buffer : Bytes} (h : announced buffer = none)
    (reads : List Bytes) : ∃ left, receiveMessage (buffer :: reads) = some (none, left) := by
  by_cases hbuffer : buffer.length = 0
  · exact ⟨reads, if_pos hbuffer⟩
  · have hstop : receiveRest 0 .new reads = some (.new, reads) := by
      cases reads <;> rfl
    refine ⟨reads, ?_⟩
    rw [receiveMessage, if_neg hbuffer, applyBuffer_new, h]
    simp only [Option.map_none, Option.getD_none, hstop, Option.map_some]
    rfl

/-- Otherwise it returns what the loop leaves, unless the announced size is zero. -/
theorem receiveMessage_announced {buffer rest : Bytes} {size : UInt32}
    (h : announced buffer = some (size, rest)) (reads : List Bytes) :
    receiveMessage (buffer :: reads) = (receiveRest rest.length ⟨size, rest⟩ reads).map
      fun r => (if r.1.payloadSize = 0 then none else some r.1, r.2) := by
  have hbuffer : ¬ buffer.length = 0 := by
    intro hnil
    rw [List.length_eq_zero_iff.mp hnil] at h
    cases h
  rw [receiveMessage, if_neg hbuffer, applyBuffer_new, h]
  rfl

/-! ## Well-formed blocks -/

/-- The block is a piece of the stream, with as many payload bytes as its size says. -/
def WellFormedIn (reads : List Bytes) (block : MessageBlock) : Prop :=
  block.payload.length = block.payloadSize.toNat ∧
    ∃ before after, reads.flatten = before ++ packBlock block ++ after

/-- If the first read of the call announces a payload, its first byte came with that
read, and the payload ends where one of the reads ends, or is never complete. -/
def CutAtEnd : List Bytes → Prop
  | [] => True
  | buffer :: reads => ∀ size rest, announced buffer = some (size, rest) → size ≠ 0 →
      rest ≠ [] ∧ (rest.length + reads.flatten.length < size.toNat ∨
        ∃ k ≤ reads.length, rest.length + (reads.take k).flatten.length = size.toNat)

theorem length_take_flatten_le (reads : List Bytes) {j k : Nat} (h : j ≤ k) :
    (reads.take j).flatten.length ≤ (reads.take k).flatten.length :=
  (List.take_prefix_take_left h).sublist.flatten.length_le

/-- What `receive_message` returns is a piece of the stream. -/
theorem flatten_of_returned {buffer rest : Bytes} {size : UInt32}
    (h : announced buffer = some (size, rest)) (reads : List Bytes) (k : Nat) :
    ∃ before after, (buffer :: reads).flatten
      = before ++ packBlock (extend ⟨size, rest⟩ (reads.take k)) ++ after := by
  obtain ⟨before, hbuffer⟩ := announced_split h
  refine ⟨before, (reads.drop k).flatten, ?_⟩
  have hreads : reads.flatten = (reads.take k).flatten ++ (reads.drop k).flatten := by
    rw [← List.flatten_append, List.take_append_drop]
  rw [List.flatten_cons, hreads, hbuffer, packBlock, extend]
  simp only [List.append_assoc]

/-- The block that the loop leaves: the first that is long enough. -/
theorem receiveRest_some {size : UInt32} {rest : Bytes} (hne : rest ≠ []) {reads : List Bytes}
    {stopped : MessageBlock} {left : List Bytes}
    (h : receiveRest rest.length ⟨size, rest⟩ reads = some (stopped, left)) :
    ∃ k ≤ reads.length, stopped = extend ⟨size, rest⟩ (reads.take k) ∧
      size.toNat ≤ rest.length + (reads.take k).flatten.length ∧
      ∀ j < k, rest.length + (reads.take j).flatten.length < size.toNat := by
  have hpos := List.length_pos_iff.mpr hne
  rcases receiveRest_spec reads ⟨size, rest⟩ hpos with
    ⟨hwait, -⟩ | ⟨k, hk, hstop, hdone, hbefore⟩
  · rw [hwait] at h
    cases h
  · rw [hstop] at h
    cases h
    refine ⟨k, hk, rfl, ?_, fun j hj => ((unfinished_extend size rest _).mp (hbefore j hj)).2⟩
    rw [unfinished_extend] at hdone
    omega

/-- What is returned has the announced size, which is not zero. -/
theorem receiveMessage_some {buffer : Bytes} {reads left : List Bytes} {block : MessageBlock}
    (h : receiveMessage (buffer :: reads) = some (some block, left)) :
    ∃ size rest, announced buffer = some (size, rest) ∧ size ≠ 0 ∧
      receiveRest rest.length ⟨size, rest⟩ reads = some (block, left) := by
  cases hannounced : announced buffer with
  | none =>
      obtain ⟨left', hnone⟩ := receiveMessage_not_announced hannounced reads
      rw [hnone] at h
      cases h
  | some a =>
      obtain ⟨size, rest⟩ := a
      rw [receiveMessage_announced hannounced] at h
      obtain ⟨⟨stopped, left'⟩, hrest, hreturned⟩ := Option.map_eq_some_iff.mp h
      by_cases hzero : stopped.payloadSize = 0
      · simp only [if_pos hzero] at hreturned
        cases hreturned
      · simp only [if_neg hzero] at hreturned
        cases hreturned
        refine ⟨size, rest, rfl, ?_, hrest⟩
        rwa [receiveRest_size hrest] at hzero

theorem wellFormed_of_cutAtEnd {reads left : List Bytes} {block : MessageBlock}
    (hcut : CutAtEnd reads) (h : receiveMessage reads = some (some block, left)) :
    WellFormedIn reads block := by
  cases reads with
  | nil => cases h
  | cons buffer reads =>
      obtain ⟨size, rest, hannounced, hsize, hrest⟩ := receiveMessage_some h
      obtain ⟨hne, hends⟩ := hcut size rest hannounced hsize
      obtain ⟨k, hk, rfl, henough, hbefore⟩ := receiveRest_some hne hrest
      refine ⟨?_, flatten_of_returned hannounced reads k⟩
      rw [length_extend]
      show rest.length + (reads.take k).flatten.length = size.toNat
      rcases hends with hshort | ⟨j, -, hexact⟩
      · have htake := length_take_flatten_le reads hk
        rw [List.take_length] at htake
        omega
      · have hkj : k ≤ j := by
          by_contra hlt
          have := hbefore j (by omega)
          omega
        have htake := length_take_flatten_le reads hkj
        omega

theorem cutAtEnd_of_wellFormed {reads : List Bytes}
    (h : ∀ block left, receiveMessage reads = some (some block, left) → WellFormedIn reads block) :
    CutAtEnd reads := by
  cases reads with
  | nil => exact trivial
  | cons buffer reads =>
      intro size rest hannounced hsize
      have hlength : ∀ stopped left,
          receiveRest rest.length ⟨size, rest⟩ reads = some (stopped, left) →
          stopped.payload.length = size.toNat := by
        intro stopped left hrest
        have hstopped := receiveRest_size hrest
        have hreturned : receiveMessage (buffer :: reads) = some (some stopped, left) := by
          rw [receiveMessage_announced hannounced, hrest, Option.map_some]
          simp only [hstopped, if_neg hsize]
        have := (h stopped left hreturned).1
        rwa [hstopped] at this
      have hne : rest ≠ [] := by
        rintro rfl
        have hstop : receiveRest 0 ⟨size, []⟩ reads = some (⟨size, []⟩, reads) := by
          cases reads <;> rfl
        have hzero : 0 = size.toNat := hlength _ _ hstop
        exact hsize (UInt32.toNat_inj.mp hzero.symm)
      refine ⟨hne, ?_⟩
      rcases receiveRest_spec reads ⟨size, rest⟩ (List.length_pos_iff.mpr hne) with
        ⟨-, hopen⟩ | ⟨k, hk, hstop, -, -⟩
      · exact Or.inl ((unfinished_extend size rest reads).mp hopen).2
      · have hexact := hlength _ _ hstop
        rw [length_extend] at hexact
        exact Or.inr ⟨k, hk, hexact⟩

/-- **What is returned is well formed exactly when the payload ends where a read ends.** -/
theorem receiveMessage_wellFormed_iff (reads : List Bytes) :
    (∀ block left, receiveMessage reads = some (some block, left) → WellFormedIn reads block) ↔
      CutAtEnd reads :=
  ⟨cutAtEnd_of_wellFormed, fun hcut _ _ h => wellFormed_of_cutAtEnd hcut h⟩

/-- Two blocks in one read come back as one that is too long, and a read that stops
before the payload gives a block that is too short. -/
theorem receiveMessage_not_wellFormed : ∃ reads block left reads' block' left',
    receiveMessage reads = some (some block, left) ∧
      block.payloadSize.toNat < block.payload.length ∧
    receiveMessage reads' = some (some block', left') ∧
      block'.payload.length < block'.payloadSize.toNat :=
  ⟨[packBlock (setPayload [1]) ++ packBlock (setPayload [2])],
    ⟨1, [1] ++ packBlock (setPayload [2])⟩, [],
    [header ++ [0, 0, 0, 2], [7, 8]], ⟨2, []⟩, [[7, 8]],
    by decide, by decide, by decide, by decide⟩

/-! ## When the call ends -/

/-- The peer's bytes end inside a payload whose first byte came with the header. -/
def EndsInPayload (reads : List Bytes) : Prop :=
  ∃ buffer reads' size rest, reads = buffer :: reads' ∧ announced buffer = some (size, rest) ∧
    rest ≠ [] ∧ rest.length + reads'.flatten.length < size.toNat

theorem receiveMessage_isSome_iff (buffer : Bytes) (reads : List Bytes) :
    (receiveMessage (buffer :: reads)).isSome ↔ ¬ EndsInPayload (buffer :: reads) := by
  cases hannounced : announced buffer with
  | none =>
      obtain ⟨left, hreturn⟩ := receiveMessage_not_announced hannounced reads
      rw [hreturn]
      simp only [Option.isSome_some, true_iff]
      rintro ⟨_, _, size, rest, hcons, hsome, -⟩
      cases hcons
      rw [hannounced] at hsome
      cases hsome
  | some a =>
      obtain ⟨size, rest⟩ := a
      have hiff : EndsInPayload (buffer :: reads) ↔
          rest ≠ [] ∧ rest.length + reads.flatten.length < size.toNat := by
        constructor
        · rintro ⟨_, _, size', rest', hcons, hsome, hne, hlen⟩
          cases hcons
          rw [hannounced] at hsome
          cases hsome
          exact ⟨hne, hlen⟩
        · rintro ⟨hne, hlen⟩
          exact ⟨buffer, reads, size, rest, rfl, hannounced, hne, hlen⟩
      rw [receiveMessage_announced hannounced, Option.isSome_map, hiff]
      by_cases hne : rest = []
      · subst hne
        have hstop : receiveRest 0 ⟨size, []⟩ reads = some (⟨size, []⟩, reads) := by
          cases reads <;> rfl
        simp [hstop]
      · rcases receiveRest_spec reads ⟨size, rest⟩ (List.length_pos_iff.mpr hne) with
          ⟨hwait, hopen⟩ | ⟨k, hk, hstop, hdone, -⟩
        · have hless := ((unfinished_extend size rest reads).mp hopen).2
          rw [hwait]
          exact ⟨fun h => absurd h (by simp), fun h => absurd ⟨hne, hless⟩ h⟩
        · have henough : ¬ rest.length + reads.flatten.length < size.toNat := by
            have htake := length_take_flatten_le reads hk
            rw [unfinished_extend] at hdone
            rw [List.take_length] at htake
            have hpos := List.length_pos_iff.mpr hne
            omega
          rw [hstop]
          exact ⟨fun _ h => henough h.2, fun _ => rfl⟩

/-- **When the peer closes after `reads`, the call ends exactly when it was not in the
middle of a payload.**  From then on every read gives no bytes. -/
theorem receiveMessage_ends_iff (reads : List Bytes) :
    (∃ k, (receiveMessage (reads ++ List.replicate k [])).isSome) ↔ ¬ EndsInPayload reads := by
  cases reads with
  | nil =>
      constructor
      · rintro - ⟨_, _, _, _, hcons, -⟩
        cases hcons
      · exact fun _ => ⟨1, rfl⟩
  | cons buffer reads =>
      have hsame : ∀ k, EndsInPayload (buffer :: (reads ++ List.replicate k []))
          ↔ EndsInPayload (buffer :: reads) := by
        intro k
        have hflatten : (reads ++ List.replicate k []).flatten = reads.flatten := by simp
        constructor
        · rintro ⟨_, _, size, rest, hcons, hannounced, hne, hlen⟩
          cases hcons
          rw [hflatten] at hlen
          exact ⟨buffer, reads, size, rest, rfl, hannounced, hne, hlen⟩
        · rintro ⟨_, _, size, rest, hcons, hannounced, hne, hlen⟩
          cases hcons
          rw [← hflatten] at hlen
          exact ⟨buffer, _, size, rest, rfl, hannounced, hne, hlen⟩
      constructor
      · rintro ⟨k, hk⟩
        rw [List.cons_append, receiveMessage_isSome_iff, hsame] at hk
        exact hk
      · intro h
        exact ⟨0, by rwa [List.cons_append, receiveMessage_isSome_iff, hsame]⟩

/-- One payload byte of two, and then the peer closes. -/
theorem receiveMessage_spins : ∃ reads, ∀ k,
    receiveMessage (reads ++ List.replicate k []) = none := by
  refine ⟨[header ++ [0, 0, 0, 2] ++ [7]], fun k => ?_⟩
  have hends : EndsInPayload ([header ++ [0, 0, 0, 2] ++ [7]] ++ List.replicate k []) :=
    ⟨header ++ [0, 0, 0, 2] ++ [7], List.replicate k [], 2, [7], rfl, by decide, by decide,
      by simp⟩
  have hwait := (receiveMessage_isSome_iff _ _).not_left.mpr hends
  exact Option.not_isSome_iff_eq_none.mp hwait

end Tavernmx.Messaging
