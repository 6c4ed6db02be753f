/-
# `Tavernmx.Client.RoomBuffers` — the arrays behind the list box

The list box is given an array of C strings.  `update_rooms` allocates one for each
room, writes a `#`, and copies the name and its terminator behind it;
`select_room_by_name` compares the names with what it reads behind the `#`:

    allocated     length + 1
    written       length + 2      '#', the name, and the terminator

So each copy writes one place beyond its allocation, and only the empty list is
shown without (`displaysRooms_iff_nil`).

`usable` is what an allocation of a given size can really hold.  With one place more
the arrays hold what they are meant to (`displaysRooms_iff`), and both functions do on
them what they do on the names in `Tavernmx.Client.ChatWindow` (`updateRooms_refines`,
`selectRoomByName_refines`); so a handler of the window returns exactly when there is such a
place for each of the rooms that it lists (`handleMessageShown_ok_iff`).
-/
import Tavernmx.Client.ChatWindow
import Tavernmx.Lib.CString
import Tavernmx.Lib.Fallible
import Tavernmx.Shared.RoomRuns

namespace Tavernmx.Client

open CString Messaging Rooms

/-- A place that is not there, or was not written, is an error. -/
def checked {T : Type} : Option T → Exec T
  | some x => pure x
  | none => throw .assertion

/-- `room_names`, whose length is `room_names_size`, and the selection. -/
structure RoomDisplay where
  roomNames : List (Chars UInt8)
  currentRoomIndex : Int32
  currentRoomName : Bytes

namespace RoomDisplay

/-- What `update_rooms` makes of one name, in an array of this size. -/
def writeRoomName (size : Nat) (roomName : Bytes) : Exec (Chars UInt8) := do
  let array ← checked (write (alloc size) 0 '#'.toUInt8)
  checked (strcpy 0 array 1 roomName)

/-- `update_rooms`, without the history. -/
def updateRooms (usable : Nat → Nat) (roomNameList : List Bytes) : Exec RoomDisplay := do
  let roomNames ← roomNameList.mapM fun roomName =>
    writeRoomName (usable (roomName.length + 1)) roomName
  let currentRoomName ← match roomNames.head? with
    | some first => checked (scanAt 0 first 1)
    | none => pure []
  pure ⟨roomNames, 0, currentRoomName⟩

/-- The loop of `select_room_by_name`, from the `i`-th room on. -/
def findRoom (roomName : Bytes) : List (Chars UInt8) → Nat → Exec (Option Nat)
  | [], _ => pure none
  | array :: rest, i => do
    let shown ← checked (scanAt 0 array 1)
    if roomName = shown then pure (some i) else findRoom roomName rest (i + 1)

/-- `select_room_by_name`. -/
def selectRoomByName (roomName : Bytes) (display : RoomDisplay) : Exec RoomDisplay := do
  match ← findRoom roomName display.roomNames 0 with
  | some i =>
    pure { display with currentRoomIndex := Int32.ofNat i, currentRoomName := roomName }
  | none => pure display

/-- Everything stays inside the arrays; each shows its name, and each name is found. -/
def DisplaysRooms (usable : Nat → Nat) (roomNameList : List Bytes) : Prop :=
  ∃ display, updateRooms usable roomNameList = .ok display ∧
    display.roomNames.map (scanAt 0 · 0)
      = roomNameList.map (fun name => some ('#'.toUInt8 :: name)) ∧
    ∀ roomName, ∃ selected, display.selectRoomByName roomName = .ok selected ∧
      (∀ i, roomNameList[i]? = some roomName →
        selected.currentRoomIndex = Int32.ofNat i ∧ selected.currentRoomName = roomName) ∧
      (roomName ∉ roomNameList → selected = display)

/-! ## One name -/

variable {size : Nat} {roomName : Bytes} {roomNameList : List Bytes} {usable : Nat → Nat}

/-- The array for a name. -/
def layout (size : Nat) (roomName : Bytes) : Chars UInt8 :=
  terminated 0 ('#'.toUInt8 :: roomName) ++ alloc (size - (roomName.length + 2))

/-- With the `#` in its place, the name is copied behind it. -/
theorem writeRoomName_succ (size : Nat) (roomName : Bytes) :
    writeRoomName (size + 1) roomName
      = checked (strcpy 0 ([some '#'.toUInt8] ++ alloc size) [some '#'.toUInt8].length
          roomName) := by
  rw [writeRoomName, write_alloc]
  rfl

theorem writeRoomName_fits (hnul : 0 ∉ roomName) (hfits : roomName.length + 2 ≤ size) :
    writeRoomName size roomName = .ok (layout size roomName) := by
  obtain ⟨left, rfl⟩ := Nat.exists_eq_add_of_le hfits
  have hsize : roomName.length + 2 + left = roomName.length + 1 + left + 1 := by omega
  have hroom : roomName.length < (alloc (roomName.length + 1 + left) : Chars UInt8).length := by
    rw [alloc, List.length_replicate]
    omega
  rw [hsize, writeRoomName_succ, strcpy_fits _ _ hnul hroom, layout]
  have hleft : roomName.length + 1 + left - (roomName.length + 1) = left := by omega
  have hleft' : roomName.length + 1 + left + 1 - (roomName.length + 2) = left := by omega
  rw [hleft', alloc, alloc, List.drop_replicate, hleft]
  rfl

theorem writeRoomName_overflows (hnul : 0 ∉ roomName) (hover : size < roomName.length + 2) :
    writeRoomName size roomName = .error .assertion := by
  cases size with
  | zero => rfl
  | succ size =>
      have hroom : (alloc size : Chars UInt8).length ≤ roomName.length := by
        rw [alloc, List.length_replicate]
        omega
      rw [writeRoomName_succ, strcpy_overflows _ _ hnul hroom]
      rfl

/-- The whole string, and what is behind the `#`. -/
theorem scanAt_layout (size : Nat) (hnul : 0 ∉ roomName) :
    scanAt 0 (layout size roomName) 0 = some ('#'.toUInt8 :: roomName) ∧
      scanAt 0 (layout size roomName) 1 = some roomName := by
  have hhash : 0 ∉ '#'.toUInt8 :: roomName :=
    List.mem_cons.not.mpr (not_or.mpr ⟨by decide, hnul⟩)
  exact ⟨scan_terminated hhash _, scan_terminated hnul _⟩

theorem scanAt_layouts (hnul : ∀ roomName ∈ roomNameList, 0 ∉ roomName) :
    (roomNameList.map fun roomName => layout (usable (roomName.length + 1)) roomName).map
      (scanAt 0 · 1) = roomNameList.map some := by
  rw [List.map_map]
  exact List.map_congr_left fun name hname => (scanAt_layout _ (hnul name hname)).2

/-! ## The list of rooms -/

/-- Each name fits into its array, with the `#` and the terminator. -/
def Fits (usable : Nat → Nat) (roomNameList : List Bytes) : Prop :=
  ∀ roomName ∈ roomNameList, roomName.length + 2 ≤ usable (roomName.length + 1)

/-- What `update_rooms` leaves. -/
theorem updateRooms_fits (hnul : ∀ roomName ∈ roomNameList, 0 ∉ roomName)
    (hfits : Fits usable roomNameList) :
    updateRooms usable roomNameList = .ok
      ⟨roomNameList.map fun roomName => layout (usable (roomName.length + 1)) roomName, 0,
        roomNameList.head?.getD []⟩ := by
  have hwrite : roomNameList.mapM (fun roomName =>
      writeRoomName (usable (roomName.length + 1)) roomName)
        = .ok (roomNameList.map fun roomName => layout (usable (roomName.length + 1)) roomName) :=
    Fallible.mapM_eq_map fun roomName hmem =>
      writeRoomName_fits (hnul roomName hmem) (hfits roomName hmem)
  rw [updateRooms, hwrite]
  cases roomNameList with
  | nil => rfl
  | cons first rest =>
      have hfirst := (scanAt_layout (usable (first.length + 1))
        (hnul first List.mem_cons_self)).2
      simp only [bind, Except.bind, List.map_cons, List.head?_cons, hfirst]
      rfl

/-- Without room for a name there is no result. -/
theorem fits_of_updateRooms (hnul : ∀ roomName ∈ roomNameList, 0 ∉ roomName)
    {display : RoomDisplay} (h : updateRooms usable roomNameList = .ok display) :
    Fits usable roomNameList := by
  obtain ⟨arrays, harrays, -⟩ := Fallible.bind_ok.mp h
  intro roomName hmem
  obtain ⟨array, harray⟩ := Fallible.mapM_ok_iff.mp ⟨arrays, harrays⟩ roomName hmem
  by_contra hover
  rw [writeRoomName_overflows (hnul roomName hmem) (Nat.lt_of_not_le hover)] at harray
  cases harray

/-- The search finds the first room of the name. -/
theorem findRoom_eq {arrays : List (Chars UInt8)}
    (h : arrays.map (scanAt 0 · 1) = roomNameList.map some) (i : Nat) :
    findRoom roomName arrays i
      = .ok ((roomNameList.findIdx? fun name => name = roomName).map (· + i)) := by
  induction arrays generalizing roomNameList i with
  | nil =>
      obtain rfl : roomNameList = [] := List.map_eq_nil_iff.mp h.symm
      rfl
  | cons array arrays ih =>
      cases roomNameList with
      | nil => cases h
      | cons name roomNameList =>
          obtain ⟨hshown, hrest⟩ := List.cons.inj h
          replace hshown : scanAt 0 array 1 = some name := hshown
          rw [findRoom, hshown, List.findIdx?_cons]
          show (if roomName = name then _ else _) = _
          by_cases hname : name = roomName
          · simp [hname, pure, Except.pure]
          · have hplace : ∀ j, j + (i + 1) = j + 1 + i := by omega
            rw [if_neg (Ne.symm hname), ih hrest, decide_eq_false hname]
            simp [Option.map_map, Function.comp_def, hplace]

theorem selectRoomByName_eq {display : RoomDisplay}
    (h : display.roomNames.map (scanAt 0 · 1) = roomNameList.map some) (roomName : Bytes) :
    display.selectRoomByName roomName
      = .ok (match roomNameList.findIdx? fun name => name = roomName with
        | some i =>
          { display with currentRoomIndex := Int32.ofNat i, currentRoomName := roomName }
        | none => display) := by
  rw [selectRoomByName, findRoom_eq h]
  cases roomNameList.findIdx? fun name => name = roomName with
  | some i => rfl
  | none => rfl

theorem findIdx?_of_nodup (hnodup : roomNameList.Nodup) {i : Nat}
    (hi : roomNameList[i]? = some roomName) :
    (roomNameList.findIdx? fun name => name = roomName) = some i := by
  cases hfind : roomNameList.findIdx? fun name => name = roomName with
  | none =>
      have hnone := List.findIdx?_eq_none_iff.mp hfind roomName (List.mem_of_getElem? hi)
      simp at hnone
  | some j =>
      obtain ⟨hlt, hj, -⟩ := List.findIdx?_eq_some_iff_getElem.mp hfind
      have hj' : roomNameList[j]? = roomNameList[i]? := by
        rw [hi, List.getElem?_eq_getElem hlt, of_decide_eq_true hj]
      rw [(List.getElem?_inj hlt hnodup).mp hj']

/-- **The arrays show the rooms exactly when each name has a place more than it asks for.** -/
theorem displaysRooms_iff (hnodup : roomNameList.Nodup)
    (hnul : ∀ roomName ∈ roomNameList, 0 ∉ roomName) :
    DisplaysRooms usable roomNameList ↔ Fits usable roomNameList := by
  constructor
  · rintro ⟨display, hupdate, -⟩
    exact fits_of_updateRooms hnul hupdate
  · intro hfits
    refine ⟨_, updateRooms_fits hnul hfits, ?_, fun roomName => ?_⟩
    · rw [List.map_map]
      exact List.map_congr_left fun name hname => (scanAt_layout _ (hnul name hname)).1
    · refine ⟨_, selectRoomByName_eq (scanAt_layouts hnul) roomName, fun i hi => ?_, fun hout => ?_⟩
      · rw [findIdx?_of_nodup hnodup hi]
        exact ⟨rfl, rfl⟩
      · have hnone : (roomNameList.findIdx? fun name => name = roomName) = none := by
          rw [List.findIdx?_eq_none_iff]
          intro name hname
          exact decide_eq_false fun heq => hout (heq ▸ hname)
        rw [hnone]

/-- **With arrays of the size that is asked for, only the list without rooms is shown.** -/
theorem displaysRooms_iff_nil (roomNameList : List Bytes) (hnodup : roomNameList.Nodup)
    (hnul : ∀ roomName ∈ roomNameList, 0 ∉ roomName) :
    DisplaysRooms id roomNameList ↔ roomNameList = [] := by
  rw [displaysRooms_iff hnodup hnul]
  constructor
  · intro hfits
    rw [List.eq_nil_iff_forall_not_mem]
    intro roomName hmem
    exact absurd (hfits roomName hmem) (Nat.not_succ_le_self _)
  · rintro rfl roomName hmem
    cases hmem

/-- The bytes of `den` and `inn`. -/
def denBytes : Bytes := [0x64, 0x65, 0x6e]

def innBytes : Bytes := [0x69, 0x6e, 0x6e]

/-- No room is shown, but two rooms are not. -/
theorem displaysRooms_iff_nil_empty :
    DisplaysRooms id [] ∧ ¬ DisplaysRooms id [denBytes, innBytes] := by
  refine ⟨(displaysRooms_iff_nil [] List.nodup_nil fun _ hmem => absurd hmem
    List.not_mem_nil).mpr rfl, fun hshown => ?_⟩
  have hnone := (displaysRooms_iff_nil [denBytes, innBytes] (by decide) (by decide)).mp hshown
  cases hnone

/-- The terminator of `#den` is written behind the array. -/
theorem updateRooms_overflows :
    updateRooms id [denBytes] = .error .assertion ∧ ¬ DisplaysRooms id [denBytes] := by
  have hupdate : updateRooms id [denBytes] = .error .assertion := rfl
  refine ⟨hupdate, ?_⟩
  rintro ⟨display, hok, -⟩
  cases hupdate.symm.trans hok

/-! ## The names in the window -/

/-- The arrays and the selection are those of a screen. -/
structure Represents (display : RoomDisplay) (roomNameList : List Bytes)
    (screen : ChatWindowScreen) : Prop where
  arrays : display.roomNames.map (scanAt 0 · 1) = roomNameList.map some
  names : screen.roomNames = roomNameList.map byteString
  index : display.currentRoomIndex = Int32.ofNat screen.currentRoomIndex
  name : byteString display.currentRoomName = screen.currentRoomName

theorem updateRooms_refines (screen : ChatWindowScreen)
    (hnul : ∀ roomName ∈ roomNameList, 0 ∉ roomName) (hfits : Fits usable roomNameList) :
    ∃ display, updateRooms usable roomNameList = .ok display ∧
      display.Represents roomNameList (screen.updateRooms (roomNameList.map byteString)) := by
  refine ⟨_, updateRooms_fits hnul hfits, scanAt_layouts hnul, rfl, rfl, ?_⟩
  cases roomNameList with
  | nil => rfl
  | cons first rest => rfl

theorem selectRoomByName_refines {display : RoomDisplay} {screen : ChatWindowScreen}
    (h : display.Represents roomNameList screen) (roomName : Bytes) :
    ∃ selected, display.selectRoomByName roomName = .ok selected ∧
      selected.Represents roomNameList (screen.selectRoomByName (byteString roomName)) := by
  refine ⟨_, selectRoomByName_eq h.arrays roomName, ?_⟩
  have hfind : (screen.roomNames.findIdx? fun name => name = byteString roomName)
      = roomNameList.findIdx? fun name => name = roomName := by
    rw [h.names, List.findIdx?_map]
    congr 1
    funext name
    exact decide_eq_decide.mpr (byteString_injective.eq_iff)
  rw [ChatWindowScreen.selectRoomByName, hfind]
  cases roomNameList.findIdx? fun name => name = roomName with
  | some i => exact ⟨h.arrays, h.names, rfl, rfl⟩
  | none => exact h

end RoomDisplay

/-! ## The handlers of the window -/

namespace ChatWindow

/-- The handler of this message gets to `update_rooms`. -/
def updatesRooms (chat : ChatWindow) (msg : Message) : Bool :=
  match msg.messageType with
  | .roomList => true
  | .roomCreate =>
    match messageValueOr String msg "room_name" "" with
    | .ok roomName => (chat.clientRooms.createRoom roomName).isSome
    | .error _ => false
  | .roomDestroy =>
    match messageValueOr String msg "room_name" "" with
    | .ok roomName => (chat.clientRooms.find? roomName).isSome
    | .error _ => false
  | _ => false

/-- `handleMessage` with the arrays.  They are written for the rooms that the handler leaves;
the join that follows changes no name, and a room that was destroyed is not found. -/
def handleMessageShown (usable : Nat → Nat) (chat : ChatWindow) (display : RoomDisplay)
    (msg : Message) : Exec (ChatWindow × RoomDisplay × List Message) := do
  let (chat', pushed) ← chat.handleMessage msg
  if chat.updatesRooms msg then
    let display ← RoomDisplay.updateRooms usable (chat'.clientRooms.roomNames.map nameBytes)
    let display ← display.selectRoomByName (nameBytes chat.screen.currentRoomName)
    pure (chat', display, pushed)
  else pure (chat', display, pushed)

variable {usable : Nat → Nat} {chat chat' : ChatWindow} {msg : Message} {pushed : List Message}

/-- **A handler that lists rooms returns exactly when there is room for their names.** -/
theorem handleMessageShown_ok_iff (hok : chat.handleMessage msg = .ok (chat', pushed))
    (hchat : chat'.WF) (display : RoomDisplay) :
    (∃ shown, chat.handleMessageShown usable display msg = .ok shown) ↔
      (chat.updatesRooms msg = true →
        RoomDisplay.Fits usable (chat'.clientRooms.roomNames.map nameBytes)) := by
  have hnul : ∀ roomName ∈ chat'.clientRooms.roomNames.map nameBytes, 0 ∉ roomName := by
    intro roomName hmem
    obtain ⟨name, hname, rfl⟩ := List.mem_map.mp hmem
    exact zero_not_mem_nameBytes (hchat.rooms.valid name hname)
  simp only [handleMessageShown, hok, bind, Except.bind]
  cases hupdates : chat.updatesRooms msg with
  | false =>
      refine iff_of_true ⟨(chat', display, pushed), rfl⟩ fun h => ?_
      cases h
  | true =>
      simp only [if_true, forall_const]
      constructor
      · rintro ⟨shown, hshown⟩
        obtain ⟨written, hwritten, -⟩ := Fallible.bind_ok.mp hshown
        exact RoomDisplay.fits_of_updateRooms hnul hwritten
      · intro hfits
        obtain ⟨written, hwritten, hrepresents⟩ :=
          RoomDisplay.updateRooms_refines chat.screen hnul hfits
        have hselected := RoomDisplay.selectRoomByName_eq hrepresents.arrays
          (nameBytes chat.screen.currentRoomName)
        rw [hwritten]
        simp only [hselected]
        exact ⟨_, rfl⟩

end ChatWindow

end Tavernmx.Client
