/-
# `Tavernmx.Shared.RoomRuns` — a room manager after any calls

A room name comes off the wire as a `std::string`, that is, as any sequence of
bytes.  `byteString` writes it as a `String`, one character a byte; different
bytes give different strings, and `is_valid_room_name` accepts exactly the bytes
that match `[A-Za-z0-9]([A-Za-z0-9-]{0,23}[A-Za-z0-9])?`
(`isValidRoomName_byteString_iff`).  `nameBytes` goes back.

`ManagerCall` are the calls that change a manager, or a room it owns.  Each keeps
`Consistent`, whatever the names and whichever room is marked; `runManager` makes
them on a new manager.
-/
import Tavernmx.Shared.Block
import Tavernmx.Shared.Room

namespace Tavernmx.Rooms

open Messaging (Bytes)

/-! ## Names as bytes -/

/-- `isalnum` of the C locale. -/
def isalnum (c : UInt8) : Bool :=
  (0x30 ≤ c.toNat && c.toNat ≤ 0x39) || (0x41 ≤ c.toNat && c.toNat ≤ 0x5a) ||
    (0x61 ≤ c.toNat && c.toNat ≤ 0x7a)

/-- The character with this code. -/
def byteChar (c : UInt8) : Char := Char.ofNat c.toNat

/-- The bytes of a `std::string`, one character each. -/
def byteString (name : Bytes) : String := String.ofList (name.map byteChar)

/-- `[A-Za-z0-9]([A-Za-z0-9-]{0,23}[A-Za-z0-9])?` -/
inductive RoomNamePattern : Bytes → Prop where
  | one {c : UInt8} (h : isalnum c = true) : RoomNamePattern [c]
  | more {first last : UInt8} {middle : Bytes} (hfirst : isalnum first = true)
      (hmiddle : ∀ c ∈ middle, isalnum c = true ∨ c = 0x2d) (hlen : middle.length ≤ 23)
      (hlast : isalnum last = true) : RoomNamePattern (first :: middle ++ [last])

theorem isAlphanum_byteChar (c : UInt8) : (byteChar c).isAlphanum = isalnum c := by
  have hall : ∀ n : Fin 256, (Char.ofNat n).isAlphanum
      = ((0x30 ≤ n.val && n.val ≤ 0x39) || (0x41 ≤ n.val && n.val ≤ 0x5a) ||
        (0x61 ≤ n.val && n.val ≤ 0x7a)) := by decide +kernel
  exact hall ⟨c.toNat, c.toNat_lt⟩

theorem byteChar_injective : Function.Injective byteChar := by
  intro c d h
  have hall : ∀ n : Fin 256, (Char.ofNat n).toNat = n.val := by decide +kernel
  have hc : (byteChar c).toNat = c.toNat := hall ⟨c.toNat, c.toNat_lt⟩
  have hd : (byteChar d).toNat = d.toNat := hall ⟨d.toNat, d.toNat_lt⟩
  exact UInt8.toNat_inj.mp (hc.symm.trans ((congrArg Char.toNat h).trans hd))

theorem byteChar_eq_hyphen (c : UInt8) : byteChar c = '-' ↔ c = 0x2d :=
  byteChar_injective.eq_iff' rfl

theorem byteString_injective : Function.Injective byteString := by
  intro name other h
  exact byteChar_injective.list_map (String.ofList_inj.mp h)

/-- `is_valid_room_name` on bytes. -/
theorem isValidRoomName_byteString (name : Bytes) :
    isValidRoomName (byteString name) = true ↔
      name ≠ [] ∧ name.length ≤ maxRoomNameSize ∧ name.head? ≠ some 0x2d ∧
        name.getLast? ≠ some 0x2d ∧ ∀ c ∈ name, isalnum c = true ∨ c = 0x2d := by
  have hhyphen : ∀ o : Option UInt8, o.map byteChar = some '-' ↔ o = some 0x2d := by
    intro o
    cases o with
    | none => simp
    | some c => simp [byteChar_eq_hyphen]
  have hempty : (byteString name).isEmpty = true ↔ name = [] := by
    rw [String.isEmpty_iff, byteString, ← String.ofList_nil, String.ofList_inj, List.map_eq_nil_iff]
  have hlen : (byteString name).length = name.length := by simp [byteString]
  have hlist : (byteString name).toList = name.map byteChar := by simp [byteString]
  unfold isValidRoomName
  rw [hlen, hlist, List.head?_map, List.getLast?_map]
  simp only [Bool.if_false_left, Bool.and_eq_true, Bool.not_eq_true', decide_eq_true_eq,
    List.all_eq_true, List.mem_map, forall_exists_index, and_imp, forall_apply_eq_imp_iff₂,
    Bool.or_eq_true, isAlphanum_byteChar, byteChar_eq_hyphen, hhyphen, not_lt, gt_iff_lt, not_or,
    ← Bool.not_eq_true, hempty, and_assoc, ne_eq]

/-- **The names that are accepted.** -/
theorem isValidRoomName_byteString_iff (name : Bytes) :
    isValidRoomName (byteString name) = true ↔ RoomNamePattern name := by
  rw [isValidRoomName_byteString]
  constructor
  · rintro ⟨hne, hlen, hhead, hlast, hall⟩
    have hends : ∀ c ∈ name, ¬ c = 0x2d → isalnum c = true := fun c hc hhyphen =>
      (hall c hc).resolve_right hhyphen
    cases name with
    | nil => exact absurd rfl hne
    | cons first rest =>
        have hfirst := hends first List.mem_cons_self fun h => hhead (congrArg some h)
        rcases List.eq_nil_or_concat' rest with rfl | ⟨middle, last, rfl⟩
        · exact .one hfirst
        · have hlast' : (first :: (middle ++ [last])).getLast? = some last := by
            rw [← List.cons_append, List.getLast?_concat]
          refine .more hfirst ?_ ?_ (hends last (by simp) ?_)
          · exact fun c hc => hall c (by simp [hc])
          · simp only [List.length_cons, List.length_append, List.length_nil, maxRoomNameSize]
              at hlen
            omega
          · intro h
            exact hlast (hlast'.trans (congrArg some h))
  · have halnum : ∀ c : UInt8, isalnum c = true → ¬ c = 0x2d := by
      rintro c hc rfl
      exact absurd hc (by decide)
    intro h
    cases h with
    | one h =>
        refine ⟨List.cons_ne_nil _ _, by simp [maxRoomNameSize], ?_, ?_, by simp [h]⟩
        · simpa using halnum _ h
        · simpa using halnum _ h
    | more hfirst hmiddle hlen hlast =>
        refine ⟨List.cons_ne_nil _ _, ?_, ?_, ?_, ?_⟩
        · simp only [List.length_cons, List.length_append, List.length_nil, maxRoomNameSize]
          omega
        · simpa using halnum _ hfirst
        · rw [List.getLast?_concat]
          simpa using halnum _ hlast
        · intro c hc
          simp only [List.cons_append, List.mem_cons, List.mem_append, List.not_mem_nil,
            or_false] at hc
          rcases hc with rfl | hc | rfl
          · exact Or.inl hfirst
          · exact hmiddle c hc
          · exact Or.inl hlast

/-- The bytes of a name whose characters are bytes. -/
def nameBytes (name : String) : Bytes := name.toList.map fun c => UInt8.ofNat c.toNat

theorem lt_of_isAlphanum {c : Char} (h : c.isAlphanum = true) : c.toNat < 256 := by
  have hle : ∀ {n : UInt32}, c.val ≤ n → n.toNat < 256 → c.toNat < 256 := fun hle =>
    Nat.lt_of_le_of_lt (UInt32.le_iff_toNat_le.mp hle)
  have hcases : ((c.isUpper || c.isLower) || c.isDigit) = true := h
  rw [Bool.or_eq_true, Bool.or_eq_true] at hcases
  rcases hcases with (hupper | hlower) | hdigit
  · exact hle (of_decide_eq_true hupper).2 (by decide)
  · have hlower' := (Bool.and_eq_true_iff.mp hlower).2
    exact hle (of_decide_eq_true hlower') (by decide)
  · have hdigit' := (Bool.and_eq_true_iff.mp hdigit).2
    exact hle (of_decide_eq_true hdigit') (by decide)

theorem byteChar_ofNat {c : Char} (h : c.toNat < 256) : byteChar (UInt8.ofNat c.toNat) = c := by
  rw [byteChar, UInt8.toNat_ofNat_of_lt' h, Char.ofNat_toNat]

/-- A name that is accepted is its bytes. -/
theorem byteString_nameBytes {name : String} (h : isValidRoomName name = true) :
    byteString (nameBytes name) = name := by
  have hchars : ∀ c ∈ name.toList, (byteChar ∘ fun c => UInt8.ofNat c.toNat) c = id c := by
    intro c hc
    have hall := h
    simp only [isValidRoomName, Bool.if_false_left, Bool.and_eq_true, List.all_eq_true,
      Bool.or_eq_true, decide_eq_true_eq] at hall
    rcases hall.2.2 c hc with halnum | rfl
    · exact byteChar_ofNat (lt_of_isAlphanum halnum)
    · rfl
  rw [byteString, nameBytes, List.map_map, List.map_congr_left hchars, List.map_id,
    String.ofList_toList]

/-- No accepted name holds a terminator. -/
theorem zero_not_mem_nameBytes {name : String} (h : isValidRoomName name = true) :
    0 ∉ nameBytes name := by
  intro hzero
  rw [← byteString_nameBytes h, isValidRoomName_byteString] at h
  rcases h.2.2.2.2 0 hzero with halnum | hhyphen
  · exact absurd halnum (by decide)
  · exact absurd hhyphen (by decide)

/-! ## Calls -/

namespace RoomManager

variable {T : Type} [IsRoom T]

/-- `rooms()[index]->request_destroy()`, for an index that is in range. -/
def requestDestroyAt (m : RoomManager T) (index : Nat) : RoomManager T :=
  { m with activeRooms := m.activeRooms.modify index IsRoom.requestDestroy }

inductive ManagerCall where
  | createRoom (roomName : Bytes)
  | requestDestroy (index : Nat)
  | removeDestroyedRooms
  | clear

/-- What a call leaves of the manager; a name that is refused leaves it as it is. -/
def call (m : RoomManager T) : ManagerCall → RoomManager T
  | .createRoom roomName => (m.createRoom (byteString roomName)).getD m
  | .requestDestroy index => m.requestDestroyAt index
  | .removeDestroyedRooms => m.removeDestroyedRooms
  | .clear => .new

/-- A new manager after these calls. -/
def runManager (calls : List ManagerCall) : RoomManager T := calls.foldl call new

/-- The two vectors agree, no name occurs twice, and every name matches the pattern. -/
structure Consistent (m : RoomManager T) : Prop where
  names : m.roomNames = m.activeRooms.map nameOf
  nodup : m.roomNames.Nodup
  pattern : ∀ name ∈ m.roomNames, ∃ bytes, name = byteString bytes ∧ RoomNamePattern bytes

theorem Consistent.wf {m : RoomManager T} (h : m.Consistent) : m.WF := by
  refine ⟨h.names, h.nodup, ?_⟩
  intro name hname
  obtain ⟨bytes, rfl, hpattern⟩ := h.pattern name hname
  exact (isValidRoomName_byteString_iff bytes).mpr hpattern

theorem WF.consistent {m : RoomManager T} (h : m.WF)
    (hbytes : ∀ name ∈ m.roomNames, ∃ bytes, name = byteString bytes) : m.Consistent := by
  refine ⟨h.names, h.nodup, ?_⟩
  intro name hname
  obtain ⟨bytes, rfl⟩ := hbytes name hname
  exact ⟨bytes, rfl, (isValidRoomName_byteString_iff bytes).mp (h.valid _ hname)⟩

theorem Consistent.bytes {m : RoomManager T} (h : m.Consistent) :
    ∀ name ∈ m.roomNames, ∃ bytes, name = byteString bytes := by
  intro name hname
  obtain ⟨bytes, heq, -⟩ := h.pattern name hname
  exact ⟨bytes, heq⟩

theorem WF.requestDestroyAt {m : RoomManager T} (h : m.WF) (index : Nat) :
    (m.requestDestroyAt index).WF := by
  have hmap : ∀ (rooms : List T) (i : Nat),
      (rooms.modify i IsRoom.requestDestroy).map nameOf = rooms.map nameOf := by
    intro rooms
    induction rooms with
    | nil => intro i; cases i <;> rfl
    | cons room rooms ih =>
        intro i
        cases i with
        | zero => simp [List.modify_zero_cons]
        | succ i => rw [List.modify_succ_cons, List.map_cons, ih, List.map_cons]
  exact ⟨h.names.trans (hmap _ _).symm, h.nodup, h.valid⟩

/-- **One call keeps the manager consistent.** -/
theorem Consistent.call {m : RoomManager T} (h : m.Consistent) (c : ManagerCall) :
    (m.call c).Consistent := by
  cases c with
  | createRoom roomName =>
      show ((m.createRoom (byteString roomName)).getD m).Consistent
      cases hcreate : m.createRoom (byteString roomName) with
      | none => exact h
      | some m' =>
          refine (h.wf.createRoom hcreate).consistent ?_
          obtain ⟨-, -, rfl⟩ := createRoom_eq_some hcreate
          intro name hname
          rcases List.mem_append.mp hname with hold | hnew
          · exact h.bytes name hold
          · exact ⟨roomName, List.mem_singleton.mp hnew⟩
  | requestDestroy index => exact (h.wf.requestDestroyAt index).consistent h.bytes
  | removeDestroyedRooms =>
      refine h.wf.removeDestroyedRooms.consistent ?_
      intro name hname
      refine h.bytes name ?_
      have hname' : name ∈ m.removeDestroyedRooms.roomNames := hname
      rw [h.wf.removeDestroyedRooms_eq] at hname'
      rw [h.names]
      exact (List.filter_sublist.map nameOf).subset hname'
  | clear => exact wf_new.consistent fun name hname => absurd hname List.not_mem_nil

theorem consistent_runManager (calls : List ManagerCall) :
    (runManager calls : RoomManager T).Consistent := by
  have hrun : ∀ m : RoomManager T, m.Consistent → (calls.foldl RoomManager.call m).Consistent := by
    induction calls with
    | nil => exact fun m hm => hm
    | cons c calls ih => exact fun m hm => ih (m.call c) (hm.call c)
  exact hrun new (wf_new.consistent fun name hname => absurd hname List.not_mem_nil)

/-! ## What the operations do to a consistent manager -/

/-- A name that is in use names one room, and `operator[]` finds it. -/
theorem Consistent.find?_of_mem {m : RoomManager T} (h : m.Consistent) {name : String}
    (hname : name ∈ m.roomNames) :
    ∃ room, m.find? name = some room ∧
      m.activeRooms.filter (fun other => nameOf other = name) = [room] := by
  obtain ⟨room, hfind⟩ := Option.isSome_iff_exists.mp ((h.wf.mem_roomNames_iff name).mp hname)
  refine ⟨room, hfind, ?_⟩
  have hnodup : (m.activeRooms.map nameOf).Nodup := h.names ▸ h.nodup
  have hfilter := hnodup.of_map.filter (fun other => decide (nameOf other = name))
  have honly : ∀ other, other ∈ m.activeRooms.filter (fun other => nameOf other = name) ↔
      other ∈ [room] := by
    intro other
    rw [List.mem_filter, decide_eq_true_eq, ← h.wf.find?_eq_some_iff name other, hfind,
      Option.some.injEq, List.mem_singleton]
    exact eq_comm
  exact List.perm_singleton.mp
    ((List.perm_ext_iff_of_nodup hfilter (List.nodup_singleton room)).mpr honly)

theorem createRoom_isSome_iff {m : RoomManager T} (name : Bytes) :
    (m.createRoom (byteString name)).isSome ↔
      RoomNamePattern name ∧ byteString name ∉ m.roomNames := by
  rw [← isValidRoomName_byteString_iff, Option.isSome_iff_ne_none, Ne, createRoom_eq_none_iff,
    not_or, Bool.not_eq_false]

/-- **A room manager after any calls.** -/
theorem roomManager_invariant (calls : List ManagerCall) :
    (runManager calls : RoomManager T).Consistent ∧
    (∀ name : Bytes, byteString name ∈ (runManager calls : RoomManager T).roomNames →
      ∃ room, (runManager calls : RoomManager T).find? (byteString name) = some room ∧
        (runManager calls : RoomManager T).activeRooms.filter
          (fun other => nameOf other = byteString name) = [room]) ∧
    (∀ name : Bytes, byteString name ∉ (runManager calls : RoomManager T).roomNames →
      (runManager calls : RoomManager T).find? (byteString name) = none) ∧
    (∀ name : Bytes, ((runManager calls : RoomManager T).createRoom (byteString name)).isSome ↔
      RoomNamePattern name ∧ byteString name ∉ (runManager calls : RoomManager T).roomNames) ∧
    (∀ name m', (runManager calls : RoomManager T).createRoom name = some m' →
      m' = ⟨(runManager calls : RoomManager T).activeRooms ++ [IsRoom.make name],
        (runManager calls : RoomManager T).roomNames ++ [name]⟩) ∧
    (∀ name, (runManager calls : RoomManager T).createRoom (byteString name) = none →
      (runManager calls : RoomManager T).call (.createRoom name) = runManager calls) ∧
    (runManager calls : RoomManager T).removeDestroyedRooms.activeRooms
      = (runManager calls : RoomManager T).activeRooms.filter
          fun room => !isDestroyRequested room := by
  have hm : (runManager calls : RoomManager T).Consistent := consistent_runManager calls
  refine ⟨hm, fun _ hname => hm.find?_of_mem hname, ?_, createRoom_isSome_iff, ?_, ?_, ?_⟩
  · intro name hname
    exact (hm.wf.find?_eq_none_iff _).mpr hname
  · intro name m' hcreate
    exact (createRoom_eq_some hcreate).2.2
  · intro name hcreate
    show ((runManager calls).createRoom (byteString name)).getD _ = _
    rw [hcreate, Option.getD_none]
  · rw [hm.wf.removeDestroyedRooms_eq]

end RoomManager

end Tavernmx.Rooms
