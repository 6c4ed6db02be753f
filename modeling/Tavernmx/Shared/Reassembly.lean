/-
# `Tavernmx.Shared.Reassembly` — blocks that have their reads to themselves

One `BIO_write` a block, over TLS records: a read then never goes past the end of
a block, and as long as the first read of each block reaches into its payload,
`receive_message` gives back one block after the other, whatever the retries
between the reads (`receiveMessage_cutOf` is one call of it).  `appliedCalls`
keeps the sum of the counts that `apply_buffer_to_block` returned, next to the
block, after every call of it.

A block whose first read stops short of the payload is lost: it would have to come
out of fewer bytes than it has (`not_mem_receiveMessages`).

At the end, what a first read may have in front of the block.  Of the header, only
the first byte is searched for, and only its first occurrence is looked at
(`applyBuffer_resynchronises_iff`).
-/
import Tavernmx.Shared.Reception

namespace Tavernmx.Messaging

open MessageBlock

/-! ## The counts -/

/-- The loop of `receive_message`: `applied`, and the block, at its beginning and after
each round. -/
def appliedRest : Nat → MessageBlock → List Bytes → List (Nat × MessageBlock)
  | applied, block, [] => [(applied, block)]
  | applied, block, buffer :: reads =>
    (applied, block) ::
      if 0 < applied ∧ applied < block.payloadSize.toNat then
        let (count, block) := applyBufferToBlock buffer block applied
        appliedRest (applied + count) block reads
      else []

/-- The same for one call of `receive_message`; nothing if its first read has no bytes. -/
def appliedMessage : List Bytes → List (Nat × MessageBlock)
  | [] => []
  | buffer :: reads =>
    if buffer.length = 0 then []
    else
      let (applied, block) := applyBufferToBlock buffer .new 0
      appliedRest applied block reads

/-- The same for `receiveCalls`, call by call. -/
def appliedCalls : Nat → List Bytes → List (List (Nat × MessageBlock))
  | 0, _ => []
  | calls + 1, reads =>
    appliedMessage reads ::
      match receiveMessage reads with
      | none => []
      | some (_, reads) => appliedCalls calls reads

theorem appliedRest_cons {block : MessageBlock} (h : unfinished block) (buffer : Bytes)
    (reads : List Bytes) :
    appliedRest block.payload.length block (buffer :: reads) = (block.payload.length, block) ::
      appliedRest (extend block [buffer]).payload.length (extend block [buffer]) reads := by
  have hround : appliedRest block.payload.length block (buffer :: reads)
      = (block.payload.length, block) :: appliedRest (block.payload.length
          + (applyBufferToBlock buffer block block.payload.length).1)
        (applyBufferToBlock buffer block block.payload.length).2 reads :=
    congrArg (_ :: ·) (if_pos h)
  have hcount : (extend block [buffer]).payload.length = block.payload.length + buffer.length := by
    rw [length_extend, List.flatten_singleton]
  rw [hround, applyBuffer_unfinished h, hcount]

/-- The sum of the counts is the length of the payload, at every moment. -/
theorem appliedRest_counts (reads : List Bytes) (block : MessageBlock) :
    ∀ step ∈ appliedRest block.payload.length block reads, step.1 = step.2.payload.length := by
  induction reads generalizing block with
  | nil =>
      intro step hstep
      rw [List.mem_singleton.mp hstep]
  | cons buffer reads ih =>
      by_cases h : unfinished block
      · rw [appliedRest_cons h]
        intro step hstep
        rcases List.mem_cons.mp hstep with rfl | hstep
        · rfl
        · exact ih _ step hstep
      · have hstop : appliedRest block.payload.length block (buffer :: reads)
            = [(block.payload.length, block)] := congrArg (_ :: ·) (if_neg h)
        rw [hstop]
        intro step hstep
        rw [List.mem_singleton.mp hstep]

theorem appliedMessage_counts (reads : List Bytes) :
    ∀ step ∈ appliedMessage reads, step.1 = step.2.payload.length := by
  cases reads with
  | nil => exact fun step hstep => absurd hstep List.not_mem_nil
  | cons buffer reads =>
      rw [appliedMessage]
      split
      · exact fun step hstep => absurd hstep List.not_mem_nil
      · simp only [applyBuffer_new_count]
        exact appliedRest_counts reads _

theorem appliedCalls_counts (calls : Nat) (reads : List Bytes) :
    ∀ steps ∈ appliedCalls calls reads, ∀ step ∈ steps, step.1 = step.2.payload.length := by
  induction calls generalizing reads with
  | zero => exact fun steps hsteps => absurd hsteps List.not_mem_nil
  | succ calls ih =>
      intro steps hsteps
      rw [appliedCalls] at hsteps
      rcases List.mem_cons.mp hsteps with rfl | hsteps
      · exact appliedMessage_counts reads
      · cases hcall : receiveMessage reads with
        | none =>
            rw [hcall] at hsteps
            cases hsteps
        | some result =>
            rw [hcall] at hsteps
            exact ih result.2 steps hsteps

/-- The last of them is the block that the loop leaves. -/
theorem getLast?_appliedRest {reads left : List Bytes} {block stopped : MessageBlock}
    (h : receiveRest block.payload.length block reads = some (stopped, left)) :
    (appliedRest block.payload.length block reads).getLast?
      = some (stopped.payload.length, stopped) := by
  induction reads generalizing block with
  | nil =>
      rw [receiveRest] at h
      split at h
      · cases h
      · cases h
        rfl
  | cons buffer reads ih =>
      by_cases hmissing : unfinished block
      · rw [receiveRest_cons hmissing] at h
        rw [appliedRest_cons hmissing, List.getLast?_cons, ih h, Option.getD_some]
      · have hstop : receiveRest block.payload.length block (buffer :: reads)
            = some (block, buffer :: reads) := if_neg hmissing
        have happlied : appliedRest block.payload.length block (buffer :: reads)
            = [(block.payload.length, block)] := congrArg (_ :: ·) (if_neg hmissing)
        rw [hstop] at h
        cases h
        rw [happlied]
        rfl

/-! ## One call -/

theorem announced_header {size : Bytes} (hsize : size.length = 4) (rest : Bytes) :
    announced (header ++ size ++ rest) = some (htonl (fromBytes size), rest) := by
  have hfound : (header ++ size ++ rest).dropWhile (· ≠ 0x74) = header ++ size ++ rest := rfl
  have htake : (header ++ size ++ rest).take 4 = header := rfl
  have hbytes : ((header ++ size ++ rest).drop 4).take 4 = size := by
    have hdrop : (header ++ size ++ rest).drop 4 = size ++ rest := rfl
    rw [hdrop, List.take_left' hsize]
  have hdrop : (header ++ size ++ rest).drop 8 = rest :=
    List.drop_left' (by rw [List.length_append, hsize]; rfl)
  have hlong : 8 ≤ (header ++ size ++ rest).length := by
    rw [List.length_append, List.length_append, hsize]
    exact Nat.le_add_right 8 _
  rw [announced, hfound, sizeAndRest, if_pos ⟨htake, hlong⟩, hbytes, hdrop]

/-- **One call returns the block that the next reads carry**, and leaves the others. -/
theorem receiveMessage_cutOf {block : MessageBlock} (hsealed : Sealed block) {first : Bytes}
    {rest more reads : List Bytes} (hcut : CutOf block (first :: rest))
    (hreads : reads.filter (· ≠ []) = rest ++ more) :
    ∃ left, receiveMessage (first :: reads) = some (some block, left) ∧
      left.filter (· ≠ []) = more ∧ left.length ≤ reads.length ∧
      (appliedMessage (first :: reads)).getLast? = some (block.payload.length, block) := by
  obtain ⟨part, rest', hgroup, hpart, hpayload⟩ := hcut.split
  obtain ⟨rfl, rfl⟩ := List.cons.inj hgroup
  have hannounced := announced_header (length_toBytes (ntohl block.payloadSize)) part
  rw [fromBytes_toBytes, htonl_ntohl] at hannounced
  obtain ⟨pre, post, rfl, hpre, hpost⟩ := List.filter_eq_append_iff.mp hreads
  -- the reads up to the end of the block, retries among them
  have hbytes : pre.flatten = rest.flatten := by rw [← hpre, flatten_filter_ne_nil]
  have htotal : part.length + pre.flatten.length = block.payloadSize.toNat := by
    rw [hsealed.size, ← hpayload, hbytes, List.length_append]
  have hpartPos := List.length_pos_iff.mpr hpart
  rcases receiveRest_spec (pre ++ post) ⟨block.payloadSize, part⟩ hpartPos with
    ⟨-, hopen⟩ | ⟨k, hk, hstop, hdone, hbefore⟩
  · have hlt := ((unfinished_extend _ _ _).mp hopen).2
    rw [List.flatten_append, List.length_append] at hlt
    omega
  · have henough : block.payloadSize.toNat
        ≤ part.length + ((pre ++ post).take k).flatten.length := by
      rw [unfinished_extend] at hdone
      omega
    have hkpre : k ≤ pre.length := by
      by_contra hlt
      have hlong := ((unfinished_extend _ _ _).mp (hbefore pre.length (by omega))).2
      rw [List.take_left] at hlong
      omega
    rw [List.take_append_of_le_length hkpre] at hstop henough
    rw [List.drop_append_of_le_length hkpre] at hstop
    have hsplit : (pre.take k).flatten ++ (pre.drop k).flatten = pre.flatten := by
      rw [← List.flatten_append, List.take_append_drop]
    have hlengths := congrArg List.length hsplit
    rw [List.length_append] at hlengths
    -- what is left of them are retries
    have hnil : (pre.drop k).flatten = [] := List.length_eq_zero_iff.mp (by omega)
    have hblock : extend ⟨block.payloadSize, part⟩ (pre.take k) = block := by
      rw [hnil, List.append_nil, hbytes] at hsplit
      rw [extend]
      simp only [hsplit, hpayload]
    rw [hblock] at hstop
    have hsize : ¬ block.payloadSize = 0 := by
      intro hzero
      rw [hzero] at htotal
      have hzero' : part.length + pre.flatten.length = 0 := htotal
      omega
    refine ⟨pre.drop k ++ post, ?_, ?_, ?_, ?_⟩
    · rw [receiveMessage_announced hannounced, hstop, Option.map_some]
      simp only [if_neg hsize]
    · have hretries : (pre.drop k).filter (· ≠ []) = [] := by
        rw [List.filter_eq_nil_iff]
        intro buffer hbuffer
        simpa using List.flatten_eq_nil_iff.mp hnil buffer hbuffer
      rw [List.filter_append, hretries, hpost, List.nil_append]
    · rw [List.length_append, List.length_append, List.length_drop]
      omega
    · have hnotNil : ¬ (header ++ toBytes (ntohl block.payloadSize) ++ part).length = 0 := by
        rw [List.length_append, List.length_append]
        omega
      rw [appliedMessage, if_neg hnotNil, applyBuffer_new, hannounced]
      exact getLast?_appliedRest hstop

/-! ## All calls -/

theorem appliedCalls_aligned {calls : Nat} {blocks : List MessageBlock} {reads : List Bytes}
    (hsealed : ∀ block ∈ blocks, Sealed block) (haligned : Aligned blocks reads)
    (hcalls : reads.length ≤ calls) :
    (appliedCalls calls reads).filterMap List.getLast?
      = blocks.map fun block => (block.payload.length, block) := by
  induction calls generalizing blocks reads with
  | zero =>
      obtain rfl := List.length_eq_zero_iff.mp (Nat.le_zero.mp hcalls)
      obtain ⟨groups, hgroups, hcuts⟩ := haligned
      cases hcuts with
      | nil => rfl
      | cons hcut _ =>
          obtain ⟨-, first, rest, rfl, -⟩ := hcut
          cases hgroups
  | succ calls ih =>
      obtain ⟨groups, hgroups, hcuts⟩ := haligned
      cases reads with
      | nil =>
          cases hcuts with
          | nil => rfl
          | cons hcut _ =>
              obtain ⟨-, first, rest, rfl, -⟩ := hcut
              cases hgroups
      | cons buffer reads =>
          have hlen : reads.length ≤ calls := Nat.le_of_succ_le_succ hcalls
          by_cases hbuffer : buffer = []
          · -- a retry before the next block
            subst hbuffer
            exact ih hsealed ⟨groups, hgroups, hcuts⟩ hlen
          · have hkept : (buffer :: reads).filter (· ≠ []) = buffer :: reads.filter (· ≠ []) :=
              List.filter_cons_of_pos (by simpa using hbuffer)
            rw [hkept] at hgroups
            cases hcuts with
            | nil => cases hgroups
            | @cons block group blocks groups hcut hrest =>
                obtain ⟨-, first, rest, rfl, -⟩ := id hcut
                obtain ⟨rfl, hmore⟩ := List.cons.inj hgroups
                obtain ⟨left, hcall, hleft, hshort, hlast⟩ :=
                  receiveMessage_cutOf (hsealed block List.mem_cons_self) hcut hmore
                rw [appliedCalls, hcall, List.filterMap_cons, hlast, List.map_cons]
                exact congrArg (_ :: ·) (ih (fun b hb => hsealed b (List.mem_cons_of_mem _ hb))
                  ⟨groups, hleft, hrest⟩ (hshort.trans hlen))

theorem receiveMessages_aligned {blocks : List MessageBlock} {reads : List Bytes}
    (hsealed : ∀ block ∈ blocks, Sealed block) (haligned : Aligned blocks reads) :
    receiveMessages reads = blocks := by
  obtain ⟨groups, hgroups, hcuts⟩ := haligned
  have hreads : ∀ buffer ∈ groups.flatten, buffer ≠ [] := by
    intro buffer hbuffer
    rw [← hgroups] at hbuffer
    simpa using (List.mem_filter.mp hbuffer).2
  rw [receiveMessages_eq_feed, ← feed_filter, hgroups]
  exact feed_aligned hsealed hcuts hreads

/-! ## A first read that stops short of the payload -/

theorem cost_append (blocks blocks' : List MessageBlock) :
    cost (blocks ++ blocks') = cost blocks + cost blocks' := by
  rw [cost, List.flatMap_append, List.length_append]
  rfl

theorem eq_nil_of_cost {blocks : List MessageBlock} (h : cost blocks = 0) : blocks = [] := by
  cases blocks with
  | nil => rfl
  | cons block blocks =>
      rw [cost_cons] at h
      omega

/-- **The bound of nine bytes is sharp**: with a shorter first read the block does not
come out, however the rest is cut. -/
theorem not_mem_receiveMessages {block : MessageBlock} (hpayload : block.payload ≠ [])
    {reads rest : List Bytes} {first : Bytes} (hreads : reads.filter (· ≠ []) = first :: rest)
    (hshort : first.length < 9) (hbytes : reads.flatten = packBlock block) :
    block ∉ receiveMessages reads := by
  rw [receiveMessages_eq_feed, ← feed_filter, hreads]
  intro hmem
  have hne : ∀ buffer ∈ first :: rest, buffer ≠ [] := by
    intro buffer hbuffer
    rw [← hreads] at hbuffer
    simpa using (List.mem_filter.mp hbuffer).2
  obtain ⟨hle, htight⟩ := (feed_cost _ hne).1
  have htotal : (first :: rest).flatten.length = 8 + block.payload.length := by
    rw [← hreads, flatten_filter_ne_nil, hbytes, length_packBlock]
  -- there are only enough bytes for this one block
  obtain ⟨pre, post, hout⟩ := List.append_of_mem hmem
  have hcost : cost (feed none (first :: rest))
      = cost pre + (8 + block.payload.length + cost post) := by
    rw [hout, cost_append, cost_cons]
  obtain rfl : pre = [] := eq_nil_of_cost (by omega)
  obtain rfl : post = [] := eq_nil_of_cost (by omega)
  rw [List.nil_append] at hout
  rw [hout] at htight hcost
  obtain ⟨groups, hgroups, hcuts⟩ := htight (by rw [htotal, hcost]; exact Nat.zero_add _)
    (by simpa using hpayload)
  cases hcuts with
  | cons hcut _ =>
      obtain ⟨-, first', rest', rfl, hlong⟩ := hcut
      obtain ⟨rfl, -⟩ := List.cons.inj hgroups
      omega

/-- **Blocks are put together again**, with the counts adding up to the size of each; the
size itself survives the wire; and a first read has to be nine bytes long. -/
theorem reassembly {payloads : List Bytes}
    (hpayloads : ∀ payload ∈ payloads, payload ≠ [] ∧ payload.length < 2 ^ 31 - 8) :
    (∀ reads, Aligned (payloads.map setPayload) reads →
      receiveMessages reads = payloads.map setPayload ∧
      (∀ steps ∈ appliedCalls reads.length reads, ∀ step ∈ steps,
        step.1 = step.2.payload.length) ∧
      (appliedCalls reads.length reads).filterMap List.getLast?
        = (payloads.map setPayload).map fun block => (block.payloadSize.toNat, block)) ∧
    (∀ size : UInt32, htonl (fromBytes (toBytes (ntohl size))) = size) ∧
    ∀ payload ∈ payloads, ∀ reads first rest, reads.filter (· ≠ []) = first :: rest →
      first.length < 9 → reads.flatten = packBlock (setPayload payload) →
        setPayload payload ∉ receiveMessages reads := by
  have hsealed : ∀ block ∈ payloads.map setPayload, Sealed block := by
    intro block hblock
    obtain ⟨payload, hpayload, rfl⟩ := List.mem_map.mp hblock
    obtain ⟨hne, hlen⟩ := hpayloads payload hpayload
    exact sealed_setPayload hne (by omega)
  refine ⟨fun reads haligned => ⟨receiveMessages_aligned hsealed haligned,
    appliedCalls_counts _ _, ?_⟩, fun size => ?_, ?_⟩
  · rw [appliedCalls_aligned hsealed haligned (le_refl _)]
    exact List.map_congr_left fun block hblock => by rw [(hsealed block hblock).size]
  · rw [fromBytes_toBytes, htonl_ntohl]
  · intro payload hpayload reads first rest hreads hshort hbytes
    exact not_mem_receiveMessages (hpayloads payload hpayload).1 hreads hshort hbytes

/-- A block in two reads and one in one, with retries before, between and after. -/
theorem reassembly_retries :
    receiveMessages [[], [0x74, 0x6d, 0x78, 0x02, 0, 0, 0, 2, 7], [], [8], [],
      [0x74, 0x6d, 0x78, 0x02, 0, 0, 0, 1, 9], []] = [setPayload [7, 8], setPayload [9]] := by
  have hpayloads : ∀ payload ∈ ([[7, 8], [9]] : List Bytes),
      payload ≠ [] ∧ payload.length < 2 ^ 31 - 8 := by decide
  refine ((reassembly hpayloads).1 _ ⟨[[[0x74, 0x6d, 0x78, 0x02, 0, 0, 0, 2, 7], [8]],
    [[0x74, 0x6d, 0x78, 0x02, 0, 0, 0, 1, 9]]], by decide, ?_⟩).1
  exact .cons ⟨by decide, _, _, rfl, by decide⟩ (.cons ⟨by decide, _, _, rfl, by decide⟩ .nil)

/-! ## What may be in front of the header -/

/-- The first place where the header occurs is behind `n` bytes. -/
def FirstHeaderAt (n : Nat) (bytes : Bytes) : Prop :=
  header <+: bytes.drop n ∧ ∀ k < n, ¬ header <+: bytes.drop k

instance (n : Nat) (bytes : Bytes) : Decidable (FirstHeaderAt n bytes) :=
  inferInstanceAs (Decidable (_ ∧ _))

theorem applyBuffer_skips {before : Bytes} (h : 0x74 ∉ before) (block : MessageBlock) :
    applyBufferToBlock (before ++ packBlock block) .new 0 = (block.payload.length, block) := by
  have hskip : (before ++ packBlock block).dropWhile (· ≠ 0x74)
      = (packBlock block).dropWhile (· ≠ 0x74) := by
    refine List.dropWhile_append_of_pos fun b hb => ?_
    rw [decide_eq_true_eq]
    rintro rfl
    exact h hb
  have hannounced : announced (before ++ packBlock block)
      = some (block.payloadSize, block.payload) := by
    have hheader := announced_header (length_toBytes (ntohl block.payloadSize)) block.payload
    rw [fromBytes_toBytes, htonl_ntohl] at hheader
    rw [announced, hskip]
    exact hheader
  rw [applyBuffer_new, hannounced]
  rfl

/-- The search stops at the first byte that could begin a header, and looks no further. -/
theorem applyBuffer_stops {before bytes : Bytes} (h : 0x74 ∈ before)
    (hfirst : FirstHeaderAt before.length (before ++ bytes)) :
    applyBufferToBlock (before ++ bytes) .new 0 = (0, .new) := by
  have hsplit := List.takeWhile_append_dropWhile (p := (· ≠ 0x74)) (l := before)
  have hne : before.dropWhile (· ≠ 0x74) ≠ [] := by
    intro hnil
    rw [List.dropWhile_eq_nil_iff] at hnil
    exact absurd (hnil _ h) (by decide)
  have hfound : (before ++ bytes).dropWhile (· ≠ 0x74)
      = before.dropWhile (· ≠ 0x74) ++ bytes := by
    rw [List.dropWhile_append, if_neg (by simpa [List.isEmpty_iff] using hne)]
  have hearly : (before.takeWhile (· ≠ 0x74)).length < before.length := by
    have hpos := List.length_pos_iff.mpr hne
    have hlen := congrArg List.length hsplit
    rw [List.length_append] at hlen
    omega
  have hnot := hfirst.2 _ hearly
  have hdrop : (before ++ bytes).drop (before.takeWhile (· ≠ 0x74)).length
      = before.dropWhile (· ≠ 0x74) ++ bytes := by
    have hlong : (before.takeWhile (· ≠ 0x74) ++ (before.dropWhile (· ≠ 0x74) ++ bytes)).drop
        (before.takeWhile (· ≠ 0x74)).length = before.dropWhile (· ≠ 0x74) ++ bytes :=
      List.drop_left
    rwa [← List.append_assoc, hsplit] at hlong
  rw [hdrop] at hnot
  have hannounced : announced (before ++ bytes) = none := by
    rw [announced, hfound, sizeAndRest, if_neg]
    rintro ⟨htake, -⟩
    exact hnot (htake ▸ List.take_prefix 4 _)
  rw [applyBuffer_new, hannounced]
  rfl

/-- **The header behind other bytes is found exactly when none of them is its first
byte.** -/
theorem applyBuffer_resynchronises_iff {before : Bytes} {block : MessageBlock}
    (hpayload : block.payload ≠ [])
    (hfirst : FirstHeaderAt before.length (before ++ packBlock block)) :
    applyBufferToBlock (before ++ packBlock block) .new 0 = (block.payload.length, block) ↔
      0x74 ∉ before := by
  constructor
  · intro hfinds hmem
    rw [applyBuffer_stops hmem hfirst] at hfinds
    have hzero := congrArg Prod.fst hfinds
    exact hpayload (List.length_eq_zero_iff.mp hzero.symm)
  · intro h
    exact applyBuffer_skips h block

/-- Behind the rest of a header, without its first byte. -/
theorem applyBuffer_resynchronises_partial :
    applyBufferToBlock ([0x6d, 0x78, 0x02] ++ packBlock (setPayload [7, 8])) .new 0
      = (2, setPayload [7, 8]) :=
  (applyBuffer_resynchronises_iff (by decide) (by decide)).mpr (by decide)

/-- Behind one byte that is the first of the header. -/
theorem applyBuffer_loses_header : (setPayload [7]).payload ≠ [] ∧
    FirstHeaderAt [0x74].length ([0x74] ++ packBlock (setPayload [7])) ∧
    applyBufferToBlock ([0x74] ++ packBlock (setPayload [7])) .new 0 = (0, .new) := by decide

end Tavernmx.Messaging
