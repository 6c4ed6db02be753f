/-
# `Tavernmx.Shared.Block` — message blocks and their bytes

A block on the wire is the four bytes `t m x 2`, the payload size in network byte
order, and the payload.  `packBlock` writes that; `applyBufferToBlock` reads it
back from whatever one read from the connection returned.

The machine is little-endian: `bit_cast` of a `uint32_t` puts the low byte first,
and `htonl` and `ntohl` both reverse the bytes.
-/
import Mathlib.Algebra.Group.Nat.Defs
import Mathlib.Data.List.Basic
import Mathlib.Data.List.TakeDrop
import Mathlib.Data.List.TakeWhile

namespace Tavernmx.Messaging

abbrev Bytes := List UInt8

structure MessageBlock where
  payloadSize : UInt32
  payload : Bytes
  deriving DecidableEq, Repr

namespace MessageBlock

/-- `MessageBlock{}`. -/
def new : MessageBlock := ⟨0, []⟩

/-- `HEADER`. -/
def header : Bytes := [0x74, 0x6d, 0x78, 0x02]

/-- The block that `set_payload` makes. -/
def setPayload (value : Bytes) : MessageBlock := ⟨UInt32.ofNat value.length, value⟩

end MessageBlock

open MessageBlock

/-! ## Byte order -/

/-- `bit_cast` of a `uint32_t` to its bytes. -/
def toBytes (n : UInt32) : Bytes :=
  [.ofNat n.toNat, .ofNat (n.toNat / 2 ^ 8), .ofNat (n.toNat / 2 ^ 16), .ofNat (n.toNat / 2 ^ 24)]

/-- `bit_cast` of four bytes to a `uint32_t`. -/
def fromBytes : Bytes → UInt32
  | [a, b, c, d] => .ofNat (a.toNat + b.toNat * 2 ^ 8 + c.toNat * 2 ^ 16 + d.toNat * 2 ^ 24)
  | _ => 0

def htonl (n : UInt32) : UInt32 := fromBytes (toBytes n).reverse

def ntohl (n : UInt32) : UInt32 := htonl n

theorem length_toBytes (n : UInt32) : (toBytes n).length = 4 := rfl

theorem toBytes_fromBytes : ∀ {bs : Bytes}, bs.length = 4 → toBytes (fromBytes bs) = bs
  | [a, b, c, d], _ => by
      have ha := a.toNat_lt
      have hb := b.toNat_lt
      have hc := c.toNat_lt
      have hd := d.toNat_lt
      simp only [toBytes, fromBytes, UInt32.toNat_ofNat', List.cons.injEq, ← UInt8.toNat_inj,
        UInt8.toNat_ofNat']
      refine ⟨?_, ?_, ?_, ?_, trivial⟩ <;> omega

theorem fromBytes_toBytes (n : UInt32) : fromBytes (toBytes n) = n := by
  have hn := n.toNat_lt
  simp only [toBytes, fromBytes, ← UInt32.toNat_inj, UInt32.toNat_ofNat', UInt8.toNat_ofNat']
  omega

theorem htonl_ntohl (n : UInt32) : htonl (ntohl n) = n := by
  rw [ntohl, htonl, htonl, toBytes_fromBytes (by rw [List.length_reverse, length_toBytes]),
    List.reverse_reverse, fromBytes_toBytes]

theorem ntohl_htonl (n : UInt32) : ntohl (htonl n) = n := htonl_ntohl n

/-! ## Writing and reading -/

def packBlock (block : MessageBlock) : Bytes :=
  header ++ toBytes (ntohl block.payloadSize) ++ block.payload

theorem length_packBlock (block : MessageBlock) :
    (packBlock block).length = 8 + block.payload.length := by
  simp only [packBlock, List.length_append, length_toBytes]
  rfl

/-- `apply_buffer_to_block`: the returned count, and the block. -/
def applyBufferToBlock (buffer : Bytes) (block : MessageBlock) (payloadOffset : Nat) :
    Nat × MessageBlock :=
  if buffer.isEmpty then (0, block)
  else if payloadOffset = 0 then
    -- `std::find` of the first header byte
    let found := buffer.dropWhile (· ≠ 0x74)
    if found.length < 4 ∨ found.take 4 ≠ header then (0, block)
    else
      let found := found.drop 4
      if found.length < 4 then (0, block)
      else
        let block : MessageBlock := ⟨htonl (fromBytes (found.take 4)),
          block.payload ++ found.drop 4⟩
        (block.payload.length, block)
  else if payloadOffset < block.payloadSize.toNat then
    let block := { block with payload := block.payload ++ buffer }
    (block.payload.length - payloadOffset, block)
  else (0, block)

/-- What the first call does: it finds no header, or all of it, the size and
every byte behind it. -/
theorem applyBuffer_start (buffer : Bytes) :
    applyBufferToBlock buffer .new 0 = (0, .new) ∨
    ∃ before size rest, buffer = before ++ header ++ size ++ rest ∧ size.length = 4 ∧
      applyBufferToBlock buffer .new 0 = (rest.length, ⟨htonl (fromBytes size), rest⟩) := by
  unfold applyBufferToBlock
  by_cases hempty : buffer.isEmpty = true
  · exact Or.inl (if_pos hempty)
  rw [if_neg hempty, if_pos rfl]
  have hsplit := (List.takeWhile_append_dropWhile (p := (· ≠ 0x74)) (l := buffer)).symm
  revert hsplit
  generalize buffer.dropWhile (· ≠ 0x74) = found
  generalize buffer.takeWhile (· ≠ 0x74) = before
  intro hsplit
  by_cases hheader : found.length < 4 ∨ found.take 4 ≠ header
  · exact Or.inl (if_pos hheader)
  simp only [if_neg hheader]
  by_cases hsize : (found.drop 4).length < 4
  · exact Or.inl (if_pos hsize)
  rw [if_neg hsize]
  rw [not_or, not_not] at hheader
  refine Or.inr ⟨before, (found.drop 4).take 4, (found.drop 4).drop 4, ?_, ?_, rfl⟩
  · rw [List.append_assoc, List.append_assoc, List.take_append_drop, ← hheader.2,
      List.take_append_drop]
    exact hsplit
  · rw [List.length_take]
    omega

/-- The first call on a buffer that begins with a header and a size. -/
theorem applyBuffer_header {size rest : Bytes} (hsize : size.length = 4) :
    applyBufferToBlock (header ++ size ++ rest) .new 0
      = (rest.length, ⟨htonl (fromBytes size), rest⟩) := by
  have hfound : (header ++ size ++ rest).dropWhile (· ≠ 0x74) = header ++ size ++ rest := rfl
  have hdrop : (header ++ size ++ rest).drop 4 = size ++ rest := rfl
  have htake : (header ++ size ++ rest).take 4 = header := rfl
  unfold applyBufferToBlock
  rw [if_neg (by simp [header]), if_pos rfl]
  simp only [hfound, htake, hdrop]
  rw [if_neg (by simp [header]), if_neg (by simp [hsize])]
  simp [hsize, MessageBlock.new]

/-- A later call appends the whole buffer. -/
theorem applyBuffer_more {buffer : Bytes} (hbuffer : buffer ≠ []) {block : MessageBlock}
    (hstarted : 0 < block.payload.length)
    (hmissing : block.payload.length < block.payloadSize.toNat) :
    applyBufferToBlock buffer block block.payload.length
      = (buffer.length, { block with payload := block.payload ++ buffer }) := by
  unfold applyBufferToBlock
  rw [if_neg (by simp [hbuffer]), if_neg (by omega), if_pos hmissing]
  simp

end Tavernmx.Messaging
