/-
# `Tavernmx.Shared.Room` — rooms and the room manager

`Room` is the base class, `IsRoom` the concept that lets `RoomManager<T>` own the
rooms of the server and of the client alike.  The manager keeps two vectors, the
rooms and their names; `WF` is what ties them together, and every operation keeps
it.

`operator[]` returns a shared pointer, through which callers write.  Here it is
`find?` for reading and `modify` for writing: both act on the first room of that
name.  The lemmas that follow say what each operation does to `find? r` for a
fixed name `r`, because that is how the rest of the development looks at a
manager: one name at a time.
-/
import Mathlib.Data.List.Basic
import Mathlib.Data.List.Nodup
import Mathlib.Tactic.Tauto
import Mathlib.Data.String.Basic

namespace Tavernmx.Rooms

def maxRoomNameSize : Nat := 25

/-- `is_valid_room_name`, with `isalnum` of the C locale. -/
def isValidRoomName (roomName : String) : Bool :=
  if roomName.isEmpty || decide (roomName.length > maxRoomNameSize) then false
  else if roomName.toList.head? = some '-' || roomName.toList.getLast? = some '-' then false
  else roomName.toList.all fun c => c.isAlphanum || c = '-'

/-- An event that occurred in a room; the timestamp is in seconds. -/
structure RoomEvent where
  timestamp : Int64
  originUserName : String
  eventText : String
  deriving DecidableEq, Repr

structure Room where
  roomName : String
  destroyRequested : Bool
  deriving Repr

/-- A class derived from `Room`, as the concept `IsRoom` asks for. -/
class IsRoom (T : Type) where
  base : T → Room
  make : String → T
  requestDestroy : T → T
  base_make : ∀ name, base (make name) = ⟨name, false⟩
  base_requestDestroy : ∀ room, base (requestDestroy room)
    = { base room with destroyRequested := true }

section Manager
variable {T : Type} [IsRoom T]

/-- `room_name()`. -/
def nameOf (room : T) : String := (IsRoom.base room).roomName

/-- `is_destroy_requested()`. -/
def isDestroyRequested (room : T) : Bool := (IsRoom.base room).destroyRequested

@[simp] theorem nameOf_make (name : String) : nameOf (IsRoom.make name : T) = name := by
  rw [nameOf, IsRoom.base_make]

@[simp] theorem isDestroyRequested_make (name : String) :
    isDestroyRequested (IsRoom.make name : T) = false := by
  rw [isDestroyRequested, IsRoom.base_make]

@[simp] theorem nameOf_requestDestroy (room : T) :
    nameOf (IsRoom.requestDestroy room) = nameOf room := by
  rw [nameOf, IsRoom.base_requestDestroy]
  rfl

@[simp] theorem isDestroyRequested_requestDestroy (room : T) :
    isDestroyRequested (IsRoom.requestDestroy room) = true := by
  rw [isDestroyRequested, IsRoom.base_requestDestroy]

/-- Writing through a pointer to the first room named `name`. -/
def modifyFirst (name : String) (f : T → T) : List T → List T
  | [] => []
  | room :: rooms =>
    if nameOf room = name then f room :: rooms else room :: modifyFirst name f rooms

end Manager

structure RoomManager (T : Type) where
  activeRooms : List T
  roomNames : List String

namespace RoomManager

variable {T : Type}

/-- `RoomManager()`, and what `clear()` leaves behind. -/
def new : RoomManager T := ⟨[], []⟩

variable [IsRoom T]

/-- `create_room`: the manager with the new room, unless the name is refused. -/
def createRoom (m : RoomManager T) (roomName : String) : Option (RoomManager T) :=
  if !isValidRoomName roomName then none
  else if roomName ∈ m.roomNames then none
  else some ⟨m.activeRooms ++ [IsRoom.make roomName], m.roomNames ++ [roomName]⟩

/-- `operator[]`. -/
def find? (m : RoomManager T) (roomName : String) : Option T :=
  m.activeRooms.find? fun room => nameOf room = roomName

/-- A write through the pointer `operator[]` returned. -/
def modify (m : RoomManager T) (roomName : String) (f : T → T) : RoomManager T :=
  { m with activeRooms := modifyFirst roomName f m.activeRooms }

/-- `remove_destroyed_rooms`. -/
def removeDestroyedRooms (m : RoomManager T) : RoomManager T :=
  let kept := m.activeRooms.filter fun room => !isDestroyRequested room
  if m.activeRooms.length - kept.length > 0 then ⟨kept, kept.map nameOf⟩
  else { m with activeRooms := kept }

/-- The two vectors agree, no name occurs twice, and every name is valid. -/
structure WF (m : RoomManager T) : Prop where
  names : m.roomNames = m.activeRooms.map nameOf
  nodup : m.roomNames.Nodup
  valid : ∀ name ∈ m.roomNames, isValidRoomName name = true

/-! ## The invariant -/

theorem wf_new : (new : RoomManager T).WF := ⟨rfl, List.nodup_nil, by simp [new]⟩

theorem createRoom_eq_some {m m' : RoomManager T} {name : String}
    (h : m.createRoom name = some m') :
    isValidRoomName name = true ∧ name ∉ m.roomNames ∧
      m' = ⟨m.activeRooms ++ [IsRoom.make name], m.roomNames ++ [name]⟩ := by
  unfold createRoom at h
  split at h
  · cases h
  · split at h
    · cases h
    · exact ⟨by simp_all, by assumption, by simpa using h.symm⟩

theorem createRoom_eq_none_iff {m : RoomManager T} {name : String} :
    m.createRoom name = none ↔ isValidRoomName name = false ∨ name ∈ m.roomNames := by
  unfold createRoom
  by_cases hv : isValidRoomName name = true <;> by_cases hm : name ∈ m.roomNames <;> simp [hv, hm]

theorem WF.createRoom {m m' : RoomManager T} {name : String} (hm : m.WF)
    (h : m.createRoom name = some m') : m'.WF := by
  obtain ⟨hvalid, hfresh, rfl⟩ := createRoom_eq_some h
  refine ⟨by simp [hm.names], ?_, ?_⟩
  · exact hm.nodup.append (List.nodup_singleton name) (List.disjoint_singleton.mpr hfresh)
  · intro r hr
    rcases List.mem_append.mp hr with hr | hr
    · exact hm.valid r hr
    · rwa [List.mem_singleton.mp hr]

theorem map_nameOf_modifyFirst {name : String} {f : T → T}
    (hf : ∀ room, nameOf (f room) = nameOf room) :
    ∀ rooms : List T, (modifyFirst name f rooms).map nameOf = rooms.map nameOf
  | [] => rfl
  | room :: rooms => by
      rw [modifyFirst]
      split
      · simp [hf]
      · simp [map_nameOf_modifyFirst hf rooms]

theorem WF.modify {m : RoomManager T} (hm : m.WF) (name : String) {f : T → T}
    (hf : ∀ room, nameOf (f room) = nameOf room) : (m.modify name f).WF :=
  ⟨hm.names.trans (map_nameOf_modifyFirst hf _).symm, hm.nodup, hm.valid⟩

/-- `remove_destroyed_rooms` keeps the rooms that are not marked, and names them. -/
theorem WF.removeDestroyedRooms_eq {m : RoomManager T} (hm : m.WF) :
    m.removeDestroyedRooms =
      ⟨m.activeRooms.filter fun room => !isDestroyRequested room,
        (m.activeRooms.filter fun room => !isDestroyRequested room).map nameOf⟩ := by
  have hle := List.length_filter_le (fun room => !isDestroyRequested room) m.activeRooms
  rw [removeDestroyedRooms]
  by_cases hsome : m.activeRooms.length
      - (m.activeRooms.filter fun room => !isDestroyRequested room).length > 0
  · rw [if_pos hsome]
  · -- nothing was erased, so the old names are still right
    have hall : m.activeRooms.filter (fun room => !isDestroyRequested room) = m.activeRooms :=
      List.filter_sublist.eq_of_length (by omega)
    rw [if_neg hsome, hall, hm.names]

theorem WF.removeDestroyedRooms {m : RoomManager T} (hm : m.WF) : m.removeDestroyedRooms.WF := by
  rw [hm.removeDestroyedRooms_eq]
  have hsub : ((m.activeRooms.filter fun room => !isDestroyRequested room).map nameOf).Sublist
      m.roomNames := hm.names ▸ List.filter_sublist.map nameOf
  exact ⟨rfl, hm.nodup.sublist hsub, fun name h => hm.valid name (hsub.subset h)⟩

/-! ## One name at a time -/

theorem find?_eq_some_name {m : RoomManager T} {r : String} {room : T} (h : m.find? r = some room) :
    nameOf room = r := by
  simpa using List.find?_some h

theorem WF.mem_roomNames_iff {m : RoomManager T} (hm : m.WF) (r : String) :
    r ∈ m.roomNames ↔ (m.find? r).isSome := by
  rw [hm.names, find?, List.find?_isSome]
  simp

theorem WF.find?_eq_none_iff {m : RoomManager T} (hm : m.WF) (r : String) :
    m.find? r = none ↔ r ∉ m.roomNames := by
  rw [hm.mem_roomNames_iff]
  cases m.find? r <;> simp

/-- In a well-formed manager a room is what its name finds. -/
theorem WF.find?_eq_some_iff {m : RoomManager T} (hm : m.WF) (r : String) (room : T) :
    m.find? r = some room ↔ room ∈ m.activeRooms ∧ nameOf room = r := by
  constructor
  · intro h
    exact ⟨List.mem_of_find?_eq_some h, find?_eq_some_name h⟩
  · rintro ⟨hmem, rfl⟩
    have hnodup : (m.activeRooms.map nameOf).Nodup := hm.names ▸ hm.nodup
    obtain ⟨other, hother⟩ : ∃ other, m.find? (nameOf room) = some other :=
      Option.isSome_iff_exists.mp (List.find?_isSome.mpr ⟨room, hmem, by simp⟩)
    have hsame : nameOf other = nameOf room := find?_eq_some_name hother
    rw [hother, List.inj_on_of_nodup_map hnodup (List.mem_of_find?_eq_some hother) hmem hsame]

@[simp] theorem find?_new (r : String) : (new : RoomManager T).find? r = none := rfl

theorem find?_createRoom {m m' : RoomManager T} {name : String} (hm : m.WF)
    (h : m.createRoom name = some m') (r : String) :
    m'.find? r = if r = name then some (IsRoom.make name) else m.find? r := by
  obtain ⟨-, hfresh, rfl⟩ := createRoom_eq_some h
  unfold find?
  rw [List.find?_append]
  by_cases hr : r = name
  · subst hr
    have hnone : m.activeRooms.find? (fun room => nameOf room = r) = none :=
      (hm.find?_eq_none_iff r).mpr hfresh
    simp [hnone]
  · have hr' : ¬ name = r := fun h => hr h.symm
    simp [hr, hr']

theorem find?_modify {m : RoomManager T} (name : String) {f : T → T}
    (hf : ∀ room, nameOf (f room) = nameOf room) (r : String) :
    (m.modify name f).find? r = if r = name then (m.find? r).map f else m.find? r := by
  unfold find? modify
  simp only
  induction m.activeRooms with
  | nil => simp [modifyFirst]
  | cons room rooms ih =>
      rw [modifyFirst]
      by_cases hroom : nameOf room = name
      · rw [if_pos hroom]
        by_cases hr : r = name
        · subst hr
          simp [hf, hroom]
        · have hne : ¬ nameOf room = r := fun h => hr (h ▸ hroom)
          simp [hf, hne, hr]
      · rw [if_neg hroom]
        by_cases hr : nameOf room = r
        · have hne : ¬ r = name := fun h => hroom (hr.trans h)
          simp [hr, hne]
        · simp only [List.find?_cons, hr, decide_false]
          exact ih

theorem find?_removeDestroyedRooms {m : RoomManager T} (hm : m.WF) (r : String) :
    m.removeDestroyedRooms.find? r = (m.find? r).filter fun room => !isDestroyRequested room := by
  refine Option.ext fun room => ?_
  rw [Option.filter_eq_some_iff, hm.find?_eq_some_iff, hm.removeDestroyedRooms.find?_eq_some_iff,
    hm.removeDestroyedRooms_eq]
  simp only [List.mem_filter]
  tauto

/-- Where no room was marked, destroying one room removes that one. -/
theorem find?_destroy {m : RoomManager T} (hm : m.WF)
    (hunmarked : ∀ r room, m.find? r = some room → isDestroyRequested room = false)
    (name r : String) :
    (m.modify name IsRoom.requestDestroy).removeDestroyedRooms.find? r
      = if r = name then none else m.find? r := by
  rw [find?_removeDestroyedRooms (hm.modify name nameOf_requestDestroy),
    find?_modify name nameOf_requestDestroy]
  by_cases hr : r = name
  · rw [if_pos hr, if_pos hr]
    cases m.find? r with
    | none => rfl
    | some room => simp
  · rw [if_neg hr, if_neg hr]
    cases hroom : m.find? r with
    | none => rfl
    | some room => simp [hunmarked r room hroom]

/-- A room that was created is not marked. -/
theorem unmarked_createRoom {m m' : RoomManager T} {name : String} (hm : m.WF)
    (hunmarked : ∀ r room, m.find? r = some room → isDestroyRequested room = false)
    (h : m.createRoom name = some m') :
    ∀ r room, m'.find? r = some room → isDestroyRequested room = false := by
  intro r room hroom
  rw [find?_createRoom hm h] at hroom
  split at hroom
  · obtain rfl := Option.some.inj hroom
    exact isDestroyRequested_make name
  · exact hunmarked r room hroom

/-- What is left after a room was destroyed is not marked. -/
theorem unmarked_destroy {m : RoomManager T} (hm : m.WF)
    (hunmarked : ∀ r room, m.find? r = some room → isDestroyRequested room = false)
    (name : String) : ∀ r room,
      (m.modify name IsRoom.requestDestroy).removeDestroyedRooms.find? r = some room →
        isDestroyRequested room = false := by
  intro r room hroom
  rw [find?_destroy hm hunmarked] at hroom
  split at hroom
  · cases hroom
  · exact hunmarked r room hroom

/-- Creating a room, whether the name is refused or not. -/
theorem createRoom_spec {m : RoomManager T} (hm : m.WF) (name : String) :
    ((m.createRoom name).getD m).WF ∧ ∀ r, ((m.createRoom name).getD m).find? r =
      (m.find? r).or (if r = name ∧ isValidRoomName r = true then
        some (IsRoom.make r) else none) := by
  cases hcreate : m.createRoom name with
  | none =>
      refine ⟨hm, ?_⟩
      intro r
      rcases createRoom_eq_none_iff.mp hcreate with hinvalid | htaken
      · have hno : ¬ (r = name ∧ isValidRoomName r = true) := by
          rintro ⟨rfl, hvalid⟩
          cases hinvalid.symm.trans hvalid
        simp [hno]
      · obtain ⟨room, hroom⟩ := Option.isSome_iff_exists.mp ((hm.mem_roomNames_iff name).mp htaken)
        by_cases hr : r = name
        · subst hr
          simp [hroom]
        · simp [hr]
  | some m' =>
      obtain ⟨hvalid, hfresh, -⟩ := createRoom_eq_some hcreate
      have hnone : m.find? name = none := (hm.find?_eq_none_iff name).mpr hfresh
      refine ⟨hm.createRoom hcreate, ?_⟩
      intro r
      rw [Option.getD_some, find?_createRoom hm hcreate]
      by_cases hr : r = name
      · subst hr
        simp [hnone, hvalid]
      · simp [hr]

/-- Creating the rooms of a list, skipping the names that are refused. -/
theorem createRooms_spec : ∀ (names : List String) {m : RoomManager T}, m.WF →
    let m' := names.foldl (fun rooms name => (rooms.createRoom name).getD rooms) m
    m'.WF ∧ ∀ r, m'.find? r = (m.find? r).or
      (if r ∈ names ∧ isValidRoomName r = true then some (IsRoom.make r) else none)
  | [], m, hm => by simp [hm]
  | name :: names, m, hm => by
      obtain ⟨hnext, hnextFind⟩ := createRoom_spec hm name
      obtain ⟨hwf, hfind⟩ := createRooms_spec names hnext
      refine ⟨hwf, ?_⟩
      intro r
      rw [List.foldl_cons, hfind, hnextFind, Option.or_assoc]
      congr 1
      by_cases hr : r = name
      · subst hr
        by_cases hvalid : isValidRoomName r = true <;> simp [hvalid]
      · simp [hr]

/-- When the names are valid and all different, they are listed as they are. -/
theorem roomNames_createRooms : ∀ (names : List String) (m : RoomManager T),
    (∀ name ∈ names, isValidRoomName name = true) → (m.roomNames ++ names).Nodup →
    (names.foldl (fun rooms name => (rooms.createRoom name).getD rooms) m).roomNames
      = m.roomNames ++ names
  | [], m, _, _ => (List.append_nil _).symm
  | name :: names, m, hvalid, hnodup => by
      have hfresh : name ∉ m.roomNames := by
        intro hmem
        exact (List.nodup_append.mp hnodup).2.2 name hmem name List.mem_cons_self rfl
      have hcreate : m.createRoom name
          = some ⟨m.activeRooms ++ [IsRoom.make name], m.roomNames ++ [name]⟩ := by
        rw [createRoom, hvalid name List.mem_cons_self, if_neg (by simp), if_neg hfresh]
      rw [List.foldl_cons, hcreate, Option.getD_some, roomNames_createRooms names _
        (fun r hr => hvalid r (List.mem_cons_of_mem _ hr)) (by simpa using hnodup)]
      simp

end RoomManager

end Tavernmx.Rooms
