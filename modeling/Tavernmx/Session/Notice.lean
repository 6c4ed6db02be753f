/-
# `Tavernmx.Session.Notice` — what a message from the server says of one room

`server_worker` sends five kinds of messages (`FromServer`).  Of one fixed room
`r` each says one of five things, or nothing (`noticeOf r`):

    listed     a ROOM_LIST, with `r` in it or not
    created    a ROOM_CREATE for `r`
    destroyed  a ROOM_DESTROY for `r`
    history    a ROOM_HISTORY for `r`, with the events in it
    echo       a CHAT_ECHO for `r`, with its event

The rest of the session follows one client and one room through these notices.
The functions on `Notice` say what a notice means to somebody who believes what
he is told.
-/
import Tavernmx.Client.ChatWindow
import Tavernmx.Server.FinishTick

namespace Tavernmx.Session

open Messaging Rooms Server Client

/-! ## Notices -/

inductive Notice where
  | listed (present : Bool)
  | created
  | destroyed
  | history (events : List RoomEvent)
  | echo (event : RoomEvent)
  deriving DecidableEq, Repr

namespace Notice

/-- Is the room there? -/
def knows (known : Bool) : Notice → Bool
  | listed present => present
  | created => true
  | destroyed => false
  | history _ | echo _ => known

/-- What was said in the room, if anything is known of it. -/
def shows (shown : Option (List RoomEvent)) : Notice → Option (List RoomEvent)
  | history events => some events
  | echo event => some (shown.getD [] ++ [event])
  | listed _ | created | destroyed => shown

/-- The room is announced as gone, and not announced as there since. -/
def closes (closed : Bool) : Notice → Bool
  | listed present => closed && !present
  | created => false
  | destroyed => true
  | history _ | echo _ => closed

/-- The client's room object does not survive the notice. -/
def resets : Notice → Bool
  | listed _ | destroyed => true
  | created | history _ | echo _ => false

end Notice

/-- Notices that say nothing about a matter. -/
theorem foldl_of_neutral {β : Type} {f : β → Notice → β} : ∀ {ns : List Notice},
    (∀ n ∈ ns, ∀ x, f x n = x) → ∀ x, ns.foldl f x = x
  | [], _, _ => rfl
  | n :: ns, h, x => by
      rw [List.foldl_cons, h n List.mem_cons_self]
      exact foldl_of_neutral (fun m hm => h m (List.mem_cons_of_mem _ hm)) x

/-- A notice that settles a matter, said at least once. -/
theorem foldl_replicate_of_settles {β : Type} {f : β → Notice → β} {n : Notice} {y : β}
    (h : ∀ x, f x n = y) (x : β) : ∀ k : Nat, 0 < k → (List.replicate k n).foldl f x = y
  | 0, hk => absurd hk (Nat.lt_irrefl 0)
  | 1, _ => h x
  | k + 2, _ => by
      rw [List.replicate_succ, List.foldl_cons]
      exact foldl_replicate_of_settles h (f x n) (k + 1) (Nat.succ_pos k)

def stringOf : Json → Option String
  | .string s => some s
  | _ => none

/-- The room names in the values of a message. -/
def listedNames (message : Message) : List String :=
  (message.values.items.map Prod.snd).filterMap stringOf

/-- The event of a CHAT_ECHO, as the client reads it. -/
def echoedEvents (message : Message) : List RoomEvent :=
  match eventJsonToRoomEvent message.values with
  | .ok event => [event]
  | .error _ => []

/-- The events of a ROOM_HISTORY, as the client reads them. -/
def historyEvents (message : Message) : List RoomEvent :=
  match roomHistoryMessageToEvents message with
  | .ok events => events
  | .error _ => []

/-- What a message says of the room `r`. -/
def noticeOf (r : String) (message : Message) : Option Notice :=
  match message.messageType with
  | .roomList => some (.listed (r ∈ listedNames message))
  | .roomCreate => if message.text "room_name" = r then some .created else none
  | .roomDestroy => if message.text "room_name" = r then some .destroyed else none
  | .roomHistory =>
      if message.text "room_name" = r then some (.history (historyEvents message)) else none
  | .chatEcho =>
      if message.text "room_name" = r then (echoedEvents message).head?.map .echo else none
  | _ => none

/-- What the messages say of the room, in order. -/
def noticesOf (r : String) (messages : List Message) : List Notice :=
  messages.filterMap (noticeOf r)

@[simp] theorem noticesOf_nil (r : String) : noticesOf r [] = [] := rfl

@[simp] theorem noticesOf_append (r : String) (ms ns : List Message) :
    noticesOf r (ms ++ ns) = noticesOf r ms ++ noticesOf r ns :=
  List.filterMap_append

theorem noticesOf_cons (r : String) (m : Message) (ms : List Message) :
    noticesOf r (m :: ms) = (noticeOf r m).toList ++ noticesOf r ms := by
  rw [noticesOf, List.filterMap_cons]
  cases noticeOf r m <;> rfl

/-! ## The messages of the server -/

inductive FromServer : Message → Prop where
  | roomList (names : List String) (hnodup : names.Nodup)
      (hvalid : ∀ name ∈ names, isValidRoomName name = true) : FromServer (createRoomList names)
  | roomCreate (name : String) (hvalid : isValidRoomName name = true) :
      FromServer (createRoomCreate name)
  | roomDestroy (name : String) : FromServer (createRoomDestroy name)
  | roomHistory (name : String) (events : List RoomEvent) :
      FromServer (historyMessage name (events.map historyJson))
  | chatEcho (name : String) (event : RoomEvent) : FromServer (echoOf name event)

/-- An event after its time went through a message. -/
def asShown (event : RoomEvent) : RoomEvent :=
  ⟨event.timestamp.toInt32.toInt64, event.originUserName, event.eventText⟩

/-! ### ROOM_LIST -/

/-- Decimal numerals, the keys of a ROOM_LIST, are different for different numbers. -/
theorem toString_injective {a b : Nat} (h : toString a = toString b) : a = b := by
  have hdigits : Nat.toDigits 10 a = Nat.toDigits 10 b := by
    rw [← Nat.toList_repr, ← Nat.toList_repr]
    exact congrArg String.toList h
  calc a = Nat.ofDigitChars 10 (Nat.toDigits 10 a) 0 := Nat.ofDigitChars_ten_toDigits.symm
    _ = Nat.ofDigitChars 10 (Nat.toDigits 10 b) 0 := by rw [hdigits]
    _ = b := Nat.ofDigitChars_ten_toDigits

/-- Writing members under fresh keys, none of them twice, keeps all of them, in order. -/
theorem foldl_set_perm : ∀ (members written : List (String × Json)),
    (members.map Prod.fst).Nodup → (∀ m ∈ members, m.1 ∉ written.map Prod.fst) →
    Json.Sorted written → ∃ all : List (String × Json),
      members.foldl (fun v m => Json.set v m.1 m.2) (Json.object written) = Json.object all ∧
        all.Perm (members ++ written) ∧ Json.Sorted all
  | [], written, _, _, hsorted => ⟨written, rfl, List.Perm.refl _, hsorted⟩
  | m :: members, written, hnodup, hfresh, hsorted => by
      obtain ⟨hm, hmembers⟩ := List.nodup_cons.mp hnodup
      have hinsert := Json.insertMember_perm m.1 m.2 written (hfresh m List.mem_cons_self)
      have hkeys : ∀ m' ∈ members, m'.1 ∉ (Json.insertMember m.1 m.2 written).map Prod.fst := by
        intro m' hm' hmem
        rw [(hinsert.map Prod.fst).mem_iff] at hmem
        rcases List.mem_cons.mp hmem with heq | hmem
        · exact hm (List.mem_map.mpr ⟨m', hm', heq⟩)
        · exact hfresh m' (List.mem_cons_of_mem _ hm') hmem
      obtain ⟨all, hall, hperm, hinorder⟩ :=
        foldl_set_perm members _ hmembers hkeys (Json.insertMember_sorted m.1 m.2 hsorted)
      exact ⟨all, hall, (hperm.trans (hinsert.append_left members)).trans List.perm_middle,
        hinorder⟩

/-- The members of a ROOM_LIST in the order in which they are written. -/
def writtenMembers (names : List String) : List (String × Json) :=
  names.zipIdx.map fun e => (toString e.2, .string e.1)

theorem keys_writtenMembers (names : List String) :
    (writtenMembers names).map Prod.fst = (List.range names.length).map toString := by
  have hcomp : (writtenMembers names).map Prod.fst
      = (names.zipIdx.map Prod.snd).map toString := by
    rw [writtenMembers, List.map_map, List.map_map]
    rfl
  rw [hcomp, List.zipIdx_map_snd, List.range_eq_range']

theorem values_writtenMembers (names : List String) :
    (writtenMembers names).map Prod.snd = names.map Json.string := by
  have hcomp : (writtenMembers names).map Prod.snd
      = (names.zipIdx.map Prod.fst).map Json.string := by
    rw [writtenMembers, List.map_map, List.map_map]
    rfl
  rw [hcomp, List.zipIdx_map_fst]

/-- They are read in the order of their keys. -/
theorem items_createRoomList (names : List String) :
    (createRoomList names).values.items.Perm (writtenMembers names) ∧
      Json.Sorted (createRoomList names).values.items := by
  have hvalues : (createRoomList names).values
      = (writtenMembers names).foldl (fun v m => Json.set v m.1 m.2) .null := by
    rw [writtenMembers, List.foldl_map]
    rfl
  have hnodup : ((writtenMembers names).map Prod.fst).Nodup := by
    rw [keys_writtenMembers]
    exact List.nodup_range.map fun _ _ => toString_injective
  rw [hvalues]
  cases hmembers : writtenMembers names with
  | nil => exact ⟨List.Perm.refl _, List.Pairwise.nil⟩
  | cons m rest =>
      -- the first member turns the null value into an object
      obtain ⟨all, hall, hperm, hsorted⟩ :=
        foldl_set_perm (writtenMembers names) [] hnodup (by simp) List.Pairwise.nil
      rw [hmembers] at hall hperm
      have hfirst : (m :: rest).foldl (fun v m => Json.set v m.1 m.2) Json.null
        = .object all := hall
      rw [hfirst]
      rw [List.append_nil] at hperm
      exact ⟨hperm, hsorted⟩

/-- The values of a ROOM_LIST are its names, in some order. -/
theorem values_perm_createRoomList (names : List String) :
    ((createRoomList names).values.items.map Prod.snd).Perm (names.map Json.string) := by
  rw [← values_writtenMembers]
  exact (items_createRoomList names).1.map Prod.snd

theorem listedNames_createRoomList (names : List String) :
    (listedNames (createRoomList names)).Perm names := by
  have hstrings : (names.map Json.string).filterMap stringOf = names := by
    rw [List.filterMap_map]
    exact List.filterMap_some
  have hperm := (values_perm_createRoomList names).filterMap stringOf
  rwa [hstrings] at hperm

theorem map_string_filterMap : ∀ values : List Json, (∀ v ∈ values, ∃ name, v = .string name) →
    (values.filterMap stringOf).map Json.string = values
  | [], _ => rfl
  | v :: values, h => by
      obtain ⟨name, rfl⟩ := h v List.mem_cons_self
      have ih := map_string_filterMap values fun v hv => h v (List.mem_cons_of_mem _ hv)
      rw [List.filterMap_cons]
      exact congrArg (Json.string name :: ·) ih

/-- A ROOM_LIST holds nothing but its names. -/
theorem values_createRoomList (names : List String) :
    (createRoomList names).values.items.map Prod.snd
      = (listedNames (createRoomList names)).map Json.string := by
  refine (map_string_filterMap _ ?_).symm
  intro v hv
  rw [(values_perm_createRoomList names).mem_iff] at hv
  obtain ⟨name, -, rfl⟩ := List.mem_map.mp hv
  exact ⟨name, rfl⟩

/-! ### Events -/

theorem eventJsonToRoomEvent_historyJson (event : RoomEvent) :
    eventJsonToRoomEvent (historyJson event) = .ok (asShown event) := by
  rw [historyJson, asShown]
  generalize event.timestamp.toInt32 = timestamp
  simp [eventJsonToRoomEvent, eventJson, Json.contains, Json.valueOr, Json.getInt32,
    Json.getString, assertThat, bind, Except.bind, pure, Except.pure]

theorem eventJsonToRoomEvent_echoOf (r : String) (event : RoomEvent) :
    eventJsonToRoomEvent (echoOf r event).values = .ok (asShown event) := by
  rw [echoOf, asShown]
  generalize event.timestamp.toInt32 = timestamp
  simp [eventJsonToRoomEvent, createChatEcho, Json.ofPairs, Json.contains, Json.valueOr,
    Json.getInt32, Json.getString, assertThat, bind, Except.bind, pure, Except.pure]

theorem mapM_historyJson (start : Nat) : ∀ events : List RoomEvent,
    (((events.map historyJson).zipIdx start).map fun e => (toString e.2, e.1)).mapM
      (fun item => eventJsonToRoomEvent item.2) = .ok (events.map asShown)
  | [] => rfl
  | event :: events => by
      simp only [List.map_cons, List.zipIdx_cons, List.mapM_cons, eventJsonToRoomEvent_historyJson,
        mapM_historyJson (start + 1) events, bind, Except.bind, pure, Except.pure]

theorem roomHistoryMessageToEvents_historyMessage (r : String) (events : List RoomEvent) :
    roomHistoryMessageToEvents (historyMessage r (events.map historyJson))
      = .ok (events.map asShown) := by
  have hcount : messageValueOr Int32 (historyMessage r (events.map historyJson)) "event_count" 0
      = .ok (Int32.ofInt (events.map historyJson).length) := by
    simp [messageValueOr, historyMessage, Json.isPrimitive, Json.isNull,
      JsonGet.get, Json.getInt32, pure, Except.pure]
  rw [roomHistoryMessageToEvents, hcount]
  simp only [bind, Except.bind]
  cases events with
  | nil => rfl
  | cons event events =>
      have hfind : (historyMessage r ((event :: events).map historyJson)).values.find? "events"
          = some (.array ((event :: events).map historyJson)) := by
        simp [historyMessage, Json.lookup_cons]
      rw [hfind]
      exact mapM_historyJson 0 (event :: events)

/-! ### The notices of the server's messages -/

theorem noticeOf_createRoomList (r : String) (names : List String) :
    noticeOf r (createRoomList names) = some (.listed (r ∈ names)) := by
  have hmem : r ∈ listedNames (createRoomList names) ↔ r ∈ names :=
    (listedNames_createRoomList names).mem_iff
  show some (Notice.listed (decide (r ∈ listedNames (createRoomList names)))) = _
  rw [decide_eq_decide.mpr hmem]

theorem noticeOf_createRoomCreate (r name : String) :
    noticeOf r (createRoomCreate name) = if name = r then some .created else none := by
  show (if (createRoomCreate name).text "room_name" = r then _ else _) = _
  rw [createRoomCreate, text_roomMessage]

theorem noticeOf_createRoomDestroy (r name : String) :
    noticeOf r (createRoomDestroy name) = if name = r then some .destroyed else none := by
  show (if (createRoomDestroy name).text "room_name" = r then _ else _) = _
  rw [createRoomDestroy, text_roomMessage]

theorem noticeOf_historyMessage (r name : String) (events : List RoomEvent) :
    noticeOf r (historyMessage name (events.map historyJson)) =
      if name = r then some (.history (events.map asShown)) else none := by
  show (if (historyMessage name (events.map historyJson)).text "room_name" = r then
    some (Notice.history (historyEvents _)) else none) = _
  rw [text_of_find? (find?_historyMessage ..), historyEvents,
    roomHistoryMessageToEvents_historyMessage]

theorem noticeOf_echoOf (r name : String) (event : RoomEvent) :
    noticeOf r (echoOf name event) = if name = r then some (.echo (asShown event)) else none := by
  show (if (echoOf name event).text "room_name" = r then
    (echoedEvents (echoOf name event)).head?.map Notice.echo else none) = _
  rw [echoedEvents, eventJsonToRoomEvent_echoOf, echoOf, roomName_createChatEcho]
  rfl

end Tavernmx.Session
