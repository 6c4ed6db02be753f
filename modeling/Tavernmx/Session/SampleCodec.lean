/-
# `Tavernmx.Session.SampleCodec` — a codec that loses nothing

The results on delivery assume that the MessagePack codec is lossless.  This
module shows that the assumption can be met, by a codec which writes one value, such
as the request for the rooms, as MessagePack does.  Every other value is written
behind the byte `0xC1`, which MessagePack never uses, as a number that tells it:
`numbers v` is a sequence of numbers from which `v` can be read back, and sequences
of numbers can be counted.
-/
import Mathlib.Logic.Encodable.Basic
import Mathlib.Logic.Equiv.List
import Tavernmx.Shared.Packing

namespace Tavernmx.Session

open Messaging

/-! ## Values as sequences of numbers -/

mutual
/-- Numbers that tell a value, each one telling how many follow. -/
def numbers : Json → List Nat
  | .null => [0]
  | .boolean b => [1, Encodable.encode b]
  | .integer n => [2, Encodable.encode n]
  | .float bits => [3, bits.toNat]
  | .string s => [4, Encodable.encode (s.toList.map Char.toNat)]
  | .binary bytes => [5, Encodable.encode (bytes.map UInt8.toNat)]
  | .array items => 6 :: items.length :: numbersOfItems items
  | .object members => 7 :: members.length :: numbersOfMembers members

def numbersOfItems : List Json → List Nat
  | [] => []
  | v :: vs => numbers v ++ numbersOfItems vs

def numbersOfMembers : List (String × Json) → List Nat
  | [] => []
  | (key, v) :: ms =>
    Encodable.encode (key.toList.map Char.toNat) :: (numbers v ++ numbersOfMembers ms)
end

theorem text_injective {s t : String}
    (h : Encodable.encode (s.toList.map Char.toNat) = Encodable.encode (t.toList.map Char.toNat)) :
    s = t := by
  have h := Encodable.encode_injective h
  have hinj : Function.Injective Char.toNat := fun a b hab => Char.toNat_inj.mp hab
  exact String.ext (List.map_injective_iff.mpr hinj h)

mutual
/-- **The numbers of a value end where they end**, whatever follows. -/
theorem numbers_cancel : ∀ (v w : Json) {xs ys : List Nat},
    numbers v ++ xs = numbers w ++ ys → v = w ∧ xs = ys
  | .null, w, _, _, h => by cases w <;> simp [numbers] at h ⊢; exact h
  | .boolean b, w, _, _, h => by
      cases w <;> simp [numbers] at h ⊢
      exact h
  | .integer n, w, _, _, h => by
      cases w <;> simp [numbers] at h ⊢
      exact h
  | .float bits, w, _, _, h => by
      cases w <;> simp [numbers] at h ⊢
      exact ⟨BitVec.eq_of_toNat_eq h.1, h.2⟩
  | .string s, w, _, _, h => by
      cases w <;> simp [numbers, -Encodable.encode_inj] at h ⊢
      exact ⟨text_injective h.1, h.2⟩
  | .binary bs, w, _, _, h => by
      cases w <;> simp [numbers, -Encodable.encode_inj] at h ⊢
      refine ⟨?_, h.2⟩
      have hinj : Function.Injective UInt8.toNat := fun a b hab => UInt8.toNat_inj.mp hab
      exact List.map_injective_iff.mpr hinj (Encodable.encode_injective h.1)
  | .array items, w, _, _, h => by
      cases w <;> simp [numbers] at h ⊢
      exact numbersOfItems_cancel items _ h.1 h.2
  | .object members, w, _, _, h => by
      cases w <;> simp [numbers] at h ⊢
      exact numbersOfMembers_cancel members _ h.1 h.2

theorem numbersOfItems_cancel : ∀ (vs ws : List Json) {xs ys : List Nat}, vs.length = ws.length →
    numbersOfItems vs ++ xs = numbersOfItems ws ++ ys → vs = ws ∧ xs = ys
  | [], [], _, _, _, h => ⟨rfl, h⟩
  | v :: vs, w :: ws, _, _, hlen, h => by
      simp only [numbersOfItems, List.append_assoc] at h
      obtain ⟨rfl, hrest⟩ := numbers_cancel v w h
      obtain ⟨rfl, hxs⟩ := numbersOfItems_cancel vs ws (by simpa using hlen) hrest
      exact ⟨rfl, hxs⟩

theorem numbersOfMembers_cancel : ∀ (vs ws : List (String × Json)) {xs ys : List Nat},
    vs.length = ws.length → numbersOfMembers vs ++ xs = numbersOfMembers ws ++ ys →
      vs = ws ∧ xs = ys
  | [], [], _, _, _, h => ⟨rfl, h⟩
  | (k, v) :: vs, (l, w) :: ws, _, _, hlen, h => by
      simp only [numbersOfMembers, List.cons_append, List.append_assoc, List.cons.injEq] at h
      obtain rfl := text_injective h.1
      obtain ⟨rfl, hrest⟩ := numbers_cancel v w h.2
      obtain ⟨rfl, hxs⟩ := numbersOfMembers_cancel vs ws (by simpa using hlen) hrest
      exact ⟨rfl, hxs⟩
end
theorem numbers_injective {v w : Json} (h : numbers v = numbers w) : v = w :=
  (numbers_cancel v w (congrArg (· ++ []) h)).1

/-! ## The codecs -/

open Classical in
/-- The bytes of a value, when those of `special` are given. -/
noncomputable def patchedBytes (special : Json) (bytes : Bytes) (v : Json) : Bytes :=
  if v = special then bytes
  else 0xc1 :: List.replicate (Encodable.encode (numbers v)) 0

theorem patchedBytes_self (special : Json) (bytes : Bytes) :
    patchedBytes special bytes special = bytes := if_pos rfl

/-- The given bytes begin with a byte that MessagePack uses. -/
theorem patchedBytes_injective {special : Json} {bytes : Bytes} (hfirst : bytes.head? ≠ some 0xc1)
    {v w : Json} (h : patchedBytes special bytes v = patchedBytes special bytes w) : v = w := by
  unfold patchedBytes at h
  split at h
  next hv =>
    split at h
    next hw => rw [hv, hw]
    next => exact absurd (congrArg List.head? h) hfirst
  next =>
    split at h
    next => exact absurd (congrArg List.head? h).symm hfirst
    next =>
      have hlen := congrArg List.length h
      simp only [List.length_cons, List.length_replicate, Nat.add_right_cancel_iff] at hlen
      exact numbers_injective (Encodable.encode_injective hlen)

open Classical in
noncomputable def patchedCodec (special : Json) (bytes : Bytes) : MsgPack where
  toMsgpack := patchedBytes special bytes
  fromMsgpack read :=
    if h : ∃ v, patchedBytes special bytes v = read then .ok h.choose
    else .error (.thrown .parseError)

theorem patchedCodec_lossless {special : Json} {bytes : Bytes} (hne : bytes ≠ [])
    (hfirst : bytes.head? ≠ some 0xc1) : (patchedCodec special bytes).Lossless where
  from_to v := by
    have h : ∃ w, patchedBytes special bytes w = patchedBytes special bytes v := ⟨v, rfl⟩
    simp only [patchedCodec]
    rw [dif_pos h, patchedBytes_injective hfirst h.choose_spec]
  to_ne_nil v := by
    show patchedBytes special bytes v ≠ []
    unfold patchedBytes
    split
    · exact hne
    · exact List.cons_ne_nil _ _

/-- The array with one request for the rooms. -/
def roomListArray : Json := .array ([createRoomListRequest].map messageToJson)

/-- Its MessagePack. -/
def roomListBytes : Bytes :=
  [0x91, 0x82, 0xac, 0x6d, 0x65, 0x73, 0x73, 0x61, 0x67, 0x65, 0x5f,
    0x74, 0x79, 0x70, 0x65, 0xcd, 0x30, 0x00, 0xa6, 0x76, 0x61, 0x6c, 0x75, 0x65, 0x73, 0xc0]

open Classical in
/-- The bytes of a value. -/
noncomputable def sampleBytes (v : Json) : Bytes :=
  if v = roomListArray then roomListBytes
  else 0xc1 :: List.replicate (Encodable.encode (numbers v)) 0

theorem sampleBytes_roomListArray : sampleBytes roomListArray = roomListBytes := if_pos rfl

open Classical in
noncomputable def sampleCodec : MsgPack where
  toMsgpack := sampleBytes
  fromMsgpack bytes :=
    if h : ∃ v, sampleBytes v = bytes then .ok h.choose else .error (.thrown .parseError)

theorem sampleCodec_lossless : sampleCodec.Lossless := by
  show (patchedCodec roomListArray roomListBytes).Lossless
  exact patchedCodec_lossless (by decide) (by decide)

/-! ## Several messages -/

open Classical in
/-- The bytes of a value, when those of some values are given. -/
noncomputable def tabledBytes (table : List (Json × Bytes)) (v : Json) : Bytes :=
  (table.lookup v).getD (0xc1 :: List.replicate (Encodable.encode (numbers v)) 0)

/-- Different values in a table have different bytes, which begin as MessagePack does. -/
structure Tabled (table : List (Json × Bytes)) : Prop where
  keys : (table.map Prod.fst).Nodup
  bytes : (table.map Prod.snd).Nodup
  begins : ∀ entry ∈ table, entry.2 ≠ [] ∧ entry.2.head? ≠ some 0xc1

theorem lookup_eq_some_iff {α β : Type} [BEq α] [LawfulBEq α] {table : List (α × β)}
    (hkeys : (table.map Prod.fst).Nodup) {a : α} {b : β} :
    table.lookup a = some b ↔ (a, b) ∈ table := by
  induction table with
  | nil => simp
  | cons entry table ih =>
      obtain ⟨key, value⟩ := entry
      obtain ⟨hfresh, hkeys'⟩ := List.nodup_cons.mp hkeys
      rw [List.lookup_cons]
      by_cases ha : a = key
      · subst ha
        have hnone : (a, b) ∉ table := fun hmem => hfresh (List.mem_map.mpr ⟨_, hmem, rfl⟩)
        simp [hnone, eq_comm]
      · have hne : (a == key) = false := beq_eq_false_iff_ne.mpr ha
        simp [hne, ha, ih hkeys']

open Classical in
theorem tabledBytes_of_mem {table : List (Json × Bytes)} (h : Tabled table) {v : Json}
    {bytes : Bytes} (hmem : (v, bytes) ∈ table) : tabledBytes table v = bytes := by
  rw [tabledBytes, (lookup_eq_some_iff h.keys).mpr hmem]
  rfl

open Classical in
theorem tabledBytes_cases {table : List (Json × Bytes)} (h : Tabled table) (v : Json) :
    (v, tabledBytes table v) ∈ table ∨
      tabledBytes table v = 0xc1 :: List.replicate (Encodable.encode (numbers v)) 0 := by
  cases hlookup : table.lookup v with
  | none => exact .inr (by rw [tabledBytes, hlookup]; rfl)
  | some bytes =>
      have hmem := (lookup_eq_some_iff h.keys).mp hlookup
      exact .inl (by rw [tabledBytes_of_mem h hmem]; exact hmem)

theorem tabledBytes_injective {table : List (Json × Bytes)} (h : Tabled table) {v w : Json}
    (heq : tabledBytes table v = tabledBytes table w) : v = w := by
  rcases tabledBytes_cases h v with hv | hv
  · rcases tabledBytes_cases h w with hw | hw
    · rw [heq] at hv
      exact congrArg Prod.fst (List.inj_on_of_nodup_map h.bytes hv hw rfl)
    · exact absurd (by rw [heq, hw]; rfl) (h.begins _ hv).2
  · rcases tabledBytes_cases h w with hw | hw
    · exact absurd (by rw [← heq, hv]; rfl) (h.begins _ hw).2
    · have hlen := congrArg List.length (hv.symm.trans (heq.trans hw))
      simp only [List.length_cons, List.length_replicate, Nat.add_right_cancel_iff] at hlen
      exact numbers_injective (Encodable.encode_injective hlen)

open Classical in
noncomputable def tabledCodec (table : List (Json × Bytes)) : MsgPack where
  toMsgpack := tabledBytes table
  fromMsgpack read :=
    if h : ∃ v, tabledBytes table v = read then .ok h.choose else .error (.thrown .parseError)

theorem tabledCodec_lossless {table : List (Json × Bytes)} (h : Tabled table) :
    (tabledCodec table).Lossless where
  from_to v := by
    have hread : ∃ w, tabledBytes table w = tabledBytes table v := ⟨v, rfl⟩
    simp only [tabledCodec]
    rw [dif_pos hread, tabledBytes_injective h hread.choose_spec]
  to_ne_nil v := by
    show tabledBytes table v ≠ []
    rcases tabledBytes_cases h v with hv | hv
    · exact (h.begins _ hv).1
    · rw [hv]
      exact List.cons_ne_nil _ _

/-- Arrays of messages. -/
def messageTable (entries : List (List Message × Bytes)) : List (Json × Bytes) :=
  entries.map fun entry => (.array (entry.1.map messageToJson), entry.2)

def typeOf (item : Json) : Option MessageType :=
  match messageOfJson item with
  | .ok message => some message.messageType
  | .error _ => none

/-- The types of the messages in an array. -/
def typesOf : Json → List (Option MessageType)
  | .array items => items.map typeOf
  | _ => []

theorem typesOf_messages (messages : List Message) :
    typesOf (.array (messages.map messageToJson)) = messages.map fun m => some m.messageType := by
  rw [typesOf, List.map_map]
  refine List.map_congr_left fun message _ => ?_
  show typeOf (messageToJson message) = _
  rw [typeOf, messageOfJson_messageToJson]

/-- Messages of different types have different arrays. -/
theorem tabled_messageTable {entries : List (List Message × Bytes)}
    (htypes : (entries.map fun entry => entry.1.map fun m => some m.messageType).Nodup)
    (hbytes : (entries.map Prod.snd).Nodup)
    (hbegins : ∀ entry ∈ entries, entry.2 ≠ [] ∧ entry.2.head? ≠ some 0xc1) :
    Tabled (messageTable entries) where
  keys := by
    have htypes' : ((messageTable entries).map Prod.fst).map typesOf
        = entries.map fun entry => entry.1.map fun m => some m.messageType := by
      simp only [messageTable, List.map_map]
      exact List.map_congr_left fun entry _ => typesOf_messages entry.1
    refine List.Nodup.of_map typesOf ?_
    rw [htypes']
    exact htypes
  bytes := by
    rw [messageTable, List.map_map]
    exact hbytes
  begins := by
    intro entry hentry
    obtain ⟨original, horiginal, rfl⟩ := List.mem_map.mp hentry
    exact hbegins original horiginal

/-- Messages of the table fit into a block. -/
theorem length_packBlock_messageTable {entries : List (List Message × Bytes)}
    (htabled : Tabled (messageTable entries)) {messages : List Message} {bytes : Bytes}
    (hmem : (messages, bytes) ∈ entries) (hshort : bytes.length < 2 ^ 30) :
    (packBlock (packMessages (tabledCodec (messageTable entries)) messages)).length < 2 ^ 31 := by
  have hbytes : tabledBytes (messageTable entries) (.array (messages.map messageToJson)) = bytes :=
    tabledBytes_of_mem htabled (List.mem_map.mpr ⟨_, hmem, rfl⟩)
  rw [length_packBlock]
  show 8 + (tabledBytes _ _).length < 2 ^ 31
  rw [hbytes]
  omega

end Tavernmx.Session
