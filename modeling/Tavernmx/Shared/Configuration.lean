/-
# `Tavernmx.Shared.Configuration` — the two configuration files

Server and client read a JSON file in their constructors, and are documented to throw
one exception, `ServerError` and `ClientError`.  Each key is read in one of three ways:

| access | key absent | value of another type |
| :-- | :-- | :-- |
| `value(key, default)` | the default | `type_error` |
| `config_data[key].is_string()` and a `throw` | assertion | the documented exception |
| `config_data[key].is_array()`, the elements as strings | assertion | ignored, or `type_error` |

The `catch` clause turns `parse_error` into the documented exception, and nothing
else: not the `type_error` of `value`, nor that of a root that is no object, nor the
`out_of_range` with which the parser refuses a number that is too large.

A constructor `Settles` when it returns or throws what is documented.  Which documents
make it settle is read off step by step, in the order in which the keys are read: what
follows a required key that is refused is not looked at (`ServerReadable`,
`ClientReadable`).
-/
import Tavernmx.Lib.Fallible
import Tavernmx.Shared.Json

namespace Tavernmx.Configuration

/-! ## Loading -/

/-- What a constructor throws, or a failed assertion. -/
inductive LoadFault where
  /-- `ServerError`, or `ClientError`. -/
  | reported (what : String)
  | parseError (what : String)
  | outOfRange
  | json (fault : Fault)
  deriving DecidableEq, Repr

abbrev Load (α : Type) := Except LoadFault α

/-- What `json::parse` makes of the file. -/
inductive Parsed where
  | document (config : Json)
  | parseError (what : String)
  /-- A number that no double can hold. -/
  | outOfRange

def Parsed.get : Parsed → Load Json
  | .document config => pure config
  | .parseError what => throw (.parseError what)
  | .outOfRange => throw .outOfRange

/-- `catch (json::parse_error& ex)`. -/
def catchParseError {α : Type} : Load α → Load α
  | .error (.parseError what) =>
    .error (.reported ("Unable to parse config file" ++ ", caused by: " ++ what))
  | result => result

/-- A constructor: opening the file, parsing it, and reading the keys. -/
def load {α : Type} (read : Json → Load α) : Option Parsed → Load α
  | none => throw (.reported "Unable to open config file")
  | some parsed => catchParseError (parsed.get >>= read)

/-- An operation of the JSON library. -/
def lift {α : Type} : Exec α → Load α
  | .ok x => .ok x
  | .error fault => .error (.json fault)

/-- A key that is required to be a string. -/
def requiredString (config : Json) (key : String) : Load String := do
  match ← lift (config.subscript key) with
  | .string s => pure s
  | _ => throw (.reported (key ++ " is required"))

/-- Whether `uint32_t` has the integer part of a double. -/
def fitsUInt32 (bits : BitVec 64) : Bool :=
  decide (0 ≤ Json.truncDouble bits ∧ Json.truncDouble bits < 2 ^ 32)

/-- `get<uint32_t>()`. -/
def getUInt32 : Json → Exec UInt32
  | .integer n => pure (UInt32.ofInt n)
  | .float bits =>
    if fitsUInt32 bits then pure (UInt32.ofInt (Json.truncDouble bits)) else throw .assertion
  | .boolean b => pure (if b then 1 else 0)
  | _ => throw (.thrown .typeError)

/-- The log file, if its name is not empty. -/
def logFileOf (logFile : String) : Option String := if logFile = "" then none else some logFile

/-! ## The server -/

structure ServerConfiguration where
  hostPort : Int32
  logLevel : String
  logFile : Option String
  hostCertificatePath : String
  hostPrivateKeyPath : String
  maxClients : Int32
  initialRooms : List String

/-- The names of the rooms, when they are given as an array. -/
def readInitialRooms (config : Json) : Exec (List String) := do
  match ← config.subscript "initial_rooms" with
  | .array rooms => rooms.mapM Json.getString
  | _ => pure []

def readServer (config : Json) : Load ServerConfiguration := do
  let hostPort ← lift (config.valueOr Json.getInt32 "host_port" 8080)
  let logLevel ← lift (config.valueOr Json.getString "log_level" "warn")
  let logFile ← lift (config.valueOr Json.getString "log_file" "")
  let hostCertificatePath ← requiredString config "host_certificate"
  let hostPrivateKeyPath ← requiredString config "host_private_key"
  let maxClients ← lift (config.valueOr Json.getInt32 "max_clients" 10)
  let initialRooms ← lift (readInitialRooms config)
  pure ⟨hostPort, logLevel, logFileOf logFile, hostCertificatePath, hostPrivateKeyPath,
    maxClients, initialRooms⟩

/-- `ServerConfiguration(config_path)`, on the file at that path. -/
def serverConfiguration (configFile : Option Parsed) : Load ServerConfiguration :=
  load readServer configFile

/-! ## The client -/

structure CustomFontConfiguration where
  fontSize : UInt32
  en : String
  jp : String
  kr : String
  cn : String

structure ClientConfiguration where
  hostName : String
  hostPort : Int32
  logLevel : String
  logFile : Option String
  customCertificates : List String
  customFont : CustomFontConfiguration

/-- The certificates, given as an array or as one string. -/
def readCustomCertificates (config : Json) : Exec (List String) := do
  match ← config.subscript "custom_certificates" with
  | .array certs => certs.mapM Json.getString
  | .string cert => pure [cert]
  | _ => pure []

/-- The fonts, when they are given as an object. -/
def readFont (fontData : Json) : Exec CustomFontConfiguration := do
  let fontSize ← fontData.valueOr getUInt32 "font_size" 12
  let en ← fontData.valueOr Json.getString "en" ""
  let jp ← fontData.valueOr Json.getString "jp" ""
  let kr ← fontData.valueOr Json.getString "kr" ""
  let cn ← fontData.valueOr Json.getString "cn" ""
  pure ⟨fontSize, en, jp, kr, cn⟩

def readCustomFont (config : Json) : Exec CustomFontConfiguration := do
  match ← config.subscript "custom_font" with
  | .object members => readFont (.object members)
  | _ => pure ⟨0, "", "", "", ""⟩

def readClient (config : Json) : Load ClientConfiguration := do
  let hostName ← requiredString config "server_host_name"
  let hostPort ← lift (config.valueOr Json.getInt32 "server_host_port" 8080)
  let logLevel ← lift (config.valueOr Json.getString "log_level" "warn")
  let logFile ← lift (config.valueOr Json.getString "log_file" "")
  let customCertificates ← lift (readCustomCertificates config)
  let customFont ← lift (readCustomFont config)
  pure ⟨hostName, hostPort, logLevel, logFileOf logFile, customCertificates, customFont⟩

/-- `ClientConfiguration(config_path)`, on the file at that path. -/
def clientConfiguration (configFile : Option Parsed) : Load ClientConfiguration :=
  load readClient configFile

/-! ## What a document has to be -/

/-- A number or a boolean, where a double has to fit. -/
def isNumeric (fits : BitVec 64 → Bool) : Json → Bool
  | .integer _ | .boolean _ => true
  | .float bits => fits bits
  | _ => false

def isInt32 : Json → Bool := isNumeric Json.fitsInt32

def isUInt32 : Json → Bool := isNumeric fitsUInt32

def isString : Json → Bool
  | .string _ => true
  | _ => false

def isObject : Json → Bool
  | .object _ => true
  | _ => false

/-- The key is absent, or its value passes. -/
def OptionalAt (passes : Json → Bool) (config : Json) (key : String) : Prop :=
  ∀ value, config.find? key = some value → passes value = true

/-- The key is there; if its value is an array, then one of strings. -/
def StringsAt (config : Json) (key : String) : Prop :=
  ∃ value, config.find? key = some value ∧
    ∀ items, value = .array items → ∀ item ∈ items, isString item = true

/-- The value is a string. -/
def HasString (config : Json) (key : String) : Prop :=
  ∃ s, config.find? key = some (.string s)

/-- The key is there, and what follows holds if its value is a string. -/
def RequiredAt (config : Json) (key : String) (followed : Prop) : Prop :=
  (config.find? key).isSome = true ∧ (HasString config key → followed)

/-- The documents for which the server's constructor settles. -/
def ServerReadable (config : Json) : Prop :=
  isObject config = true ∧ OptionalAt isInt32 config "host_port" ∧
    OptionalAt isString config "log_level" ∧ OptionalAt isString config "log_file" ∧
    RequiredAt config "host_certificate" (RequiredAt config "host_private_key"
      (OptionalAt isInt32 config "max_clients" ∧ StringsAt config "initial_rooms"))

/-- Each entry is absent or of the right type. -/
def FontReadable (fontData : Json) : Prop :=
  OptionalAt isUInt32 fontData "font_size" ∧ OptionalAt isString fontData "en" ∧
    OptionalAt isString fontData "jp" ∧ OptionalAt isString fontData "kr" ∧
    OptionalAt isString fontData "cn"

/-- The documents for which the client's constructor settles. -/
def ClientReadable (config : Json) : Prop :=
  isObject config = true ∧ RequiredAt config "server_host_name"
    (OptionalAt isInt32 config "server_host_port" ∧ OptionalAt isString config "log_level" ∧
      OptionalAt isString config "log_file" ∧ StringsAt config "custom_certificates" ∧
      ∃ fontData, config.find? "custom_font" = some fontData ∧
        (isObject fontData = true → FontReadable fontData))

/-- What the file has to be, if a document has to be `readable`. -/
def Tolerated (readable : Json → Prop) : Option Parsed → Prop
  | some (.document config) => readable config
  | some .outOfRange => False
  | _ => True

/-! ## Settling -/

variable {α β : Type} {P Q : Prop} {members : List (String × Json)} {key : String}

/-- The constructor returns, or throws what it is documented to throw. -/
def Settles (result : Load α) : Prop :=
  (∃ x, result = .ok x) ∨ ∃ what, result = .error (.reported what)

theorem settles_pure (x : α) : Settles (pure x) := Or.inl ⟨x, rfl⟩

theorem settles_error {fault : LoadFault} :
    Settles (throw fault : Load α) ↔ ∃ what, fault = .reported what := by
  constructor
  · rintro (⟨x, hx⟩ | ⟨what, hwhat⟩)
    · cases hx
    · exact ⟨what, Except.error.inj hwhat⟩
  · rintro ⟨what, rfl⟩
    exact Or.inr ⟨what, rfl⟩

theorem not_settles_json {fault : Fault} : ¬ Settles (throw (.json fault) : Load α) := by
  intro h
  obtain ⟨what, hwhat⟩ := settles_error.mp h
  cases hwhat

/-- What follows a step matters if the step returns. -/
theorem settles_bind {first : Load α} {second : α → Load β}
    (h : ∀ x, first = .ok x → (Settles (second x) ↔ Q)) :
    Settles (first >>= second) ↔ Settles first ∧ ((∃ x, first = .ok x) → Q) := by
  cases first with
  | ok x =>
      have hfirst : Settles (Except.ok x : Load α) := settles_pure x
      rw [and_iff_right hfirst, forall_prop_of_true ⟨x, rfl⟩]
      exact h x rfl
  | error fault =>
      have hnone : ¬ ∃ x, (Except.error fault : Load α) = .ok x := by
        rintro ⟨x, hx⟩
        cases hx
      rw [and_iff_left fun hreturns => absurd hreturns hnone]
      exact settles_error.trans settles_error.symm

theorem lift_eq_ok {action : Exec α} {x : α} : lift action = .ok x ↔ action = .ok x := by
  cases action with
  | ok y => rw [lift, Except.ok.injEq, Except.ok.injEq]
  | error fault => exact iff_of_false (fun h => by cases h) (fun h => by cases h)

theorem settles_lift {action : Exec α} : Settles (lift action) ↔ ∃ x, action = .ok x := by
  cases action with
  | ok x => exact iff_of_true (settles_pure x) ⟨x, rfl⟩
  | error fault =>
      exact iff_of_false not_settles_json fun ⟨x, hx⟩ => by cases hx

/-- An operation of the library, and then the rest. -/
theorem settles_lift_bind {action : Exec α} {second : α → Load β}
    (hok : (∃ x, action = .ok x) ↔ P) (h : ∀ x, Settles (second x) ↔ Q) :
    Settles (lift action >>= second) ↔ P ∧ Q := by
  rw [settles_bind fun x _ => h x, settles_lift, hok]
  simp only [lift_eq_ok, hok]
  exact and_congr_right fun hP => forall_prop_of_true hP

/-- The last operation. -/
theorem settles_lift_map {action : Exec α} {f : α → β} (hok : (∃ x, action = .ok x) ↔ P) :
    Settles (lift action >>= fun x => pure (f x)) ↔ P := by
  rw [settles_lift_bind hok fun x => iff_true_intro (settles_pure (f x)), and_true]

/-! ## The three ways to read a key -/

theorem requiredString_eq_ok {config : Json} {s : String} :
    requiredString config key = .ok s ↔ config.find? key = some (.string s) := by
  cases config with
  | object members =>
      rw [requiredString, Json.subscript, Json.find?_object]
      cases members.lookup key with
      | none => exact iff_of_false (fun h => by cases h) (fun h => by cases h)
      | some value =>
          cases value with
          | string t =>
              show (Except.ok t : Load String) = _ ↔ _
              simp
          | _ => exact iff_of_false (fun h => by cases h) (fun h => by cases h)
  | _ => exact iff_of_false (fun h => by cases h) (fun h => by cases h)

/-- A required string, and then the rest. -/
theorem settles_required_bind {second : String → Load β} (h : ∀ s, Settles (second s) ↔ Q) :
    Settles (requiredString (.object members) key >>= second) ↔
      RequiredAt (.object members) key Q := by
  rw [settles_bind fun s _ => h s]
  simp only [requiredString_eq_ok]
  refine and_congr_left fun _ => ?_
  rw [requiredString, Json.subscript, Json.find?_object]
  cases members.lookup key with
  | none => exact iff_of_false not_settles_json Bool.false_ne_true
  | some value =>
      refine iff_of_true ?_ rfl
      cases value with
      | string s => exact Or.inl ⟨s, rfl⟩
      | _ => exact Or.inr ⟨key ++ " is required", rfl⟩

/-- A value of the right type is converted, if it fits, and any other is refused. -/
theorem getInt32_ok (value : Json) : (∃ x, value.getInt32 = .ok x) ↔ isInt32 value = true := by
  cases value with
  | float bits =>
      rw [Json.getInt32, Json.castDouble, isInt32, isNumeric]
      cases Json.fitsInt32 bits <;> simp [pure, Except.pure, throw, throwThe, MonadExceptOf.throw]
  | _ => simp [Json.getInt32, isInt32, isNumeric, pure, Except.pure, throw, throwThe,
      MonadExceptOf.throw]

theorem getUInt32_ok (value : Json) : (∃ x, getUInt32 value = .ok x) ↔ isUInt32 value = true := by
  cases value with
  | float bits =>
      rw [getUInt32, isUInt32, isNumeric]
      cases fitsUInt32 bits <;> simp [pure, Except.pure, throw, throwThe, MonadExceptOf.throw]
  | _ => simp [getUInt32, isUInt32, isNumeric, pure, Except.pure, throw, throwThe,
      MonadExceptOf.throw]

theorem getString_ok (value : Json) : (∃ x, value.getString = .ok x) ↔ isString value = true := by
  cases value <;> simp [Json.getString, isString, pure, Except.pure, throw, throwThe,
    MonadExceptOf.throw]

/-- `value(key, default)` of an object. -/
theorem valueOr_ok {get : Json → Exec α} {passes : Json → Bool}
    (hget : ∀ value, (∃ x, get value = .ok x) ↔ passes value = true) (dflt : α) :
    (∃ x, (Json.object members).valueOr get key dflt = .ok x) ↔
      OptionalAt passes (.object members) key := by
  rw [Json.valueOr, OptionalAt, Json.find?_object]
  cases members.lookup key with
  | none => exact iff_of_true ⟨dflt, rfl⟩ fun value hvalue => by cases hvalue
  | some value =>
      rw [hget]
      constructor
      · intro hpasses other hother
        obtain rfl := Option.some.inj hother
        exact hpasses
      · intro hpasses
        exact hpasses value rfl

/-- The strings of an array. -/
theorem mapM_getString_ok (items : List Json) :
    (∃ strings, items.mapM Json.getString = .ok strings) ↔
      ∀ item ∈ items, isString item = true := by
  rw [Fallible.mapM_ok_iff]
  exact forall₂_congr fun item _ => getString_ok item

/-- Reading a key of an object, whatever is made of its value. -/
theorem subscript_bind_ok {read : Json → Exec α} {readable : Json → Prop}
    (hread : ∀ value, (∃ x, read value = .ok x) ↔ readable value) :
    (∃ x, ((Json.object members).subscript key >>= read) = .ok x) ↔
      ∃ value, (Json.object members).find? key = some value ∧ readable value := by
  rw [Json.subscript, Json.find?_object]
  cases members.lookup key with
  | none =>
      refine iff_of_false ?_ ?_
      · rintro ⟨x, hx⟩
        cases hx
      · rintro ⟨value, hvalue, -⟩
        cases hvalue
  | some value =>
      show (∃ x, read value = .ok x) ↔ _
      rw [hread]
      simp

theorem readInitialRooms_ok :
    (∃ x, readInitialRooms (.object members) = .ok x) ↔
      StringsAt (.object members) "initial_rooms" := by
  refine subscript_bind_ok fun value => ?_
  cases value with
  | array items =>
      rw [mapM_getString_ok]
      simp
  | _ => exact iff_of_true ⟨[], rfl⟩ fun items hitems => by cases hitems

theorem readCustomCertificates_ok :
    (∃ x, readCustomCertificates (.object members) = .ok x) ↔
      StringsAt (.object members) "custom_certificates" := by
  refine subscript_bind_ok fun value => ?_
  cases value with
  | array items =>
      rw [mapM_getString_ok]
      simp
  | _ => exact iff_of_true ⟨_, rfl⟩ fun items hitems => by cases hitems

theorem readFont_ok :
    (∃ x, readFont (.object members) = .ok x) ↔ FontReadable (.object members) :=
  Fallible.exists_bind_ok (valueOr_ok getUInt32_ok 12) fun _ =>
    Fallible.exists_bind_ok (valueOr_ok getString_ok "") fun _ =>
      Fallible.exists_bind_ok (valueOr_ok getString_ok "") fun _ =>
        Fallible.exists_bind_ok (valueOr_ok getString_ok "") fun _ =>
          (Fallible.exists_bind_ok (valueOr_ok getString_ok "") fun _ =>
            iff_true_intro ⟨_, rfl⟩).trans (and_iff_left trivial)

theorem readCustomFont_ok :
    (∃ x, readCustomFont (.object members) = .ok x) ↔
      ∃ fontData, (Json.object members).find? "custom_font" = some fontData ∧
        (isObject fontData = true → FontReadable fontData) := by
  refine subscript_bind_ok fun fontData => ?_
  cases fontData with
  | object fonts =>
      exact ⟨fun hread _ => readFont_ok.mp hread, fun hfont => readFont_ok.mpr (hfont rfl)⟩
  | _ => exact iff_of_true ⟨_, rfl⟩ fun hobject => by cases hobject

/-! ## The constructors -/

theorem readServer_settles (config : Json) :
    Settles (readServer config) ↔ ServerReadable config := by
  cases config with
  | object members =>
      rw [ServerReadable, and_iff_right (by rfl)]
      exact settles_lift_bind (valueOr_ok getInt32_ok 8080) fun _ =>
        settles_lift_bind (valueOr_ok getString_ok "warn") fun _ =>
          settles_lift_bind (valueOr_ok getString_ok "") fun _ =>
            settles_required_bind fun _ => settles_required_bind fun _ =>
              settles_lift_bind (valueOr_ok getInt32_ok 10) fun _ =>
                settles_lift_map readInitialRooms_ok
  | _ => exact iff_of_false not_settles_json fun h => Bool.false_ne_true h.1

theorem readClient_settles (config : Json) :
    Settles (readClient config) ↔ ClientReadable config := by
  cases config with
  | object members =>
      rw [ClientReadable, and_iff_right (by rfl)]
      exact settles_required_bind fun _ =>
        settles_lift_bind (valueOr_ok getInt32_ok 8080) fun _ =>
          settles_lift_bind (valueOr_ok getString_ok "warn") fun _ =>
            settles_lift_bind (valueOr_ok getString_ok "") fun _ =>
              settles_lift_bind readCustomCertificates_ok fun _ =>
                settles_lift_map readCustomFont_ok
  | _ => exact iff_of_false not_settles_json fun h => Bool.false_ne_true h.1

/-! ### Only the parser throws `parse_error` -/

def NeverParses (result : Load α) : Prop := ∀ what, result ≠ .error (.parseError what)

theorem neverParses_pure (x : α) : NeverParses (pure x) := fun _ h => by cases h

theorem neverParses_lift (action : Exec α) : NeverParses (lift action) := by
  intro what h
  cases action with
  | ok x => cases h
  | error fault => cases h

theorem neverParses_bind {first : Load α} {second : α → Load β} (hfirst : NeverParses first)
    (h : ∀ x, NeverParses (second x)) : NeverParses (first >>= second) := by
  intro what hwhat
  cases first with
  | ok x => exact h x what hwhat
  | error fault =>
      cases hwhat
      exact hfirst what rfl

theorem neverParses_required (config : Json) (key : String) :
    NeverParses (requiredString config key) := by
  refine neverParses_bind (neverParses_lift _) fun value => ?_
  cases value with
  | string s => exact neverParses_pure s
  | _ => exact fun what h => by cases h

theorem neverParses_readServer (config : Json) : NeverParses (readServer config) :=
  neverParses_bind (neverParses_lift _) fun _ => neverParses_bind (neverParses_lift _) fun _ =>
    neverParses_bind (neverParses_lift _) fun _ =>
      neverParses_bind (neverParses_required _ _) fun _ =>
        neverParses_bind (neverParses_required _ _) fun _ =>
          neverParses_bind (neverParses_lift _) fun _ =>
            neverParses_bind (neverParses_lift _) fun _ => neverParses_pure _

theorem neverParses_readClient (config : Json) : NeverParses (readClient config) :=
  neverParses_bind (neverParses_required _ _) fun _ =>
    neverParses_bind (neverParses_lift _) fun _ => neverParses_bind (neverParses_lift _) fun _ =>
      neverParses_bind (neverParses_lift _) fun _ => neverParses_bind (neverParses_lift _) fun _ =>
        neverParses_bind (neverParses_lift _) fun _ => neverParses_pure _

/-- The catch clause finds nothing in what is thrown while the keys are read. -/
theorem load_document {read : Json → Load α} {config : Json} (h : NeverParses (read config)) :
    load read (some (.document config)) = read config := by
  show catchParseError (read config) = read config
  cases hread : read config with
  | ok x => rfl
  | error fault =>
      cases fault with
      | parseError what => exact absurd hread (h what)
      | _ => rfl

/-- From the document to the file. -/
theorem load_settles {read : Json → Load α} {readable : Json → Prop}
    (hparse : ∀ config, NeverParses (read config))
    (hread : ∀ config, Settles (read config) ↔ readable config) (configFile : Option Parsed) :
    Settles (load read configFile) ↔ Tolerated readable configFile := by
  match configFile with
  | none => exact iff_of_true (Or.inr ⟨_, rfl⟩) trivial
  | some (.parseError what) => exact iff_of_true (Or.inr ⟨_, rfl⟩) trivial
  | some .outOfRange =>
      refine iff_of_false (fun hsettles => ?_) id
      obtain ⟨what, hwhat⟩ := settles_error.mp hsettles
      cases hwhat
  | some (.document config) =>
      rw [load_document (hparse config)]
      exact hread config

/-- What is returned was read from a document. -/
theorem load_eq_ok {read : Json → Load α} (hparse : ∀ config, NeverParses (read config))
    {configFile : Option Parsed} {x : α} (h : load read configFile = .ok x) :
    ∃ config, configFile = some (.document config) ∧ read config = .ok x := by
  match configFile with
  | none => cases h
  | some (.parseError what) => cases h
  | some .outOfRange => cases h
  | some (.document config) =>
      rw [load_document (hparse config)] at h
      exact ⟨config, rfl, h⟩

/-! ### The required fields -/

/-- What is returned has the strings of the document. -/
theorem readServer_fields {config : Json} {result : ServerConfiguration}
    (h : readServer config = .ok result) :
    config.find? "host_certificate" = some (.string result.hostCertificatePath) ∧
      config.find? "host_private_key" = some (.string result.hostPrivateKeyPath) := by
  obtain ⟨_, -, h⟩ := Fallible.bind_ok.mp h
  obtain ⟨_, -, h⟩ := Fallible.bind_ok.mp h
  obtain ⟨_, -, h⟩ := Fallible.bind_ok.mp h
  obtain ⟨certificate, hcertificate, h⟩ := Fallible.bind_ok.mp h
  obtain ⟨privateKey, hprivateKey, h⟩ := Fallible.bind_ok.mp h
  obtain ⟨_, -, h⟩ := Fallible.bind_ok.mp h
  obtain ⟨_, -, h⟩ := Fallible.bind_ok.mp h
  cases h
  exact ⟨requiredString_eq_ok.mp hcertificate, requiredString_eq_ok.mp hprivateKey⟩

theorem readClient_fields {config : Json} {result : ClientConfiguration}
    (h : readClient config = .ok result) :
    config.find? "server_host_name" = some (.string result.hostName) := by
  obtain ⟨hostName, hhostName, h⟩ := Fallible.bind_ok.mp h
  obtain ⟨_, -, h⟩ := Fallible.bind_ok.mp h
  obtain ⟨_, -, h⟩ := Fallible.bind_ok.mp h
  obtain ⟨_, -, h⟩ := Fallible.bind_ok.mp h
  obtain ⟨_, -, h⟩ := Fallible.bind_ok.mp h
  obtain ⟨_, -, h⟩ := Fallible.bind_ok.mp h
  cases h
  exact requiredString_eq_ok.mp hhostName

/-- The constructor returns with the required fields of the document, or throws what is
documented. -/
def Reports (construct : Option Parsed → Load α) (required : Json → α → Prop)
    (configFile : Option Parsed) : Prop :=
  (∃ result, construct configFile = .ok result ∧
    ∃ config, configFile = some (.document config) ∧ required config result) ∨
  ∃ what, construct configFile = .error (.reported what)

def ServerReports : Option Parsed → Prop :=
  Reports serverConfiguration fun config result =>
    config.find? "host_certificate" = some (.string result.hostCertificatePath) ∧
      config.find? "host_private_key" = some (.string result.hostPrivateKeyPath)

def ClientReports : Option Parsed → Prop :=
  Reports clientConfiguration fun config result =>
    config.find? "server_host_name" = some (.string result.hostName)

theorem Reports.settles {construct : Option Parsed → Load α} {required : Json → α → Prop}
    {configFile : Option Parsed} (h : Reports construct required configFile) :
    Settles (construct configFile) := by
  rcases h with ⟨result, hresult, -⟩ | hreported
  · exact Or.inl ⟨result, hresult⟩
  · exact Or.inr hreported

/-- A constructor that settles has the required fields right. -/
theorem reports_iff {read : Json → Load α} {required : Json → α → Prop} {readable : Json → Prop}
    (hparse : ∀ config, NeverParses (read config))
    (hread : ∀ config, Settles (read config) ↔ readable config)
    (hrequired : ∀ config result, read config = .ok result → required config result)
    (configFile : Option Parsed) :
    Reports (load read) required configFile ↔ Tolerated readable configFile := by
  rw [← load_settles hparse hread]
  refine ⟨Reports.settles, ?_⟩
  rintro (⟨result, hresult⟩ | hreported)
  · obtain ⟨config, hconfig, hok⟩ := load_eq_ok hparse hresult
    exact Or.inl ⟨result, hresult, config, hconfig, hrequired config result hok⟩
  · exact Or.inr hreported

/-- **The files for which the constructors do what they are documented to do.** -/
theorem configuration_reports_iff (configFile : Option Parsed) :
    (ServerReports configFile ↔ Tolerated ServerReadable configFile) ∧
      (ClientReports configFile ↔ Tolerated ClientReadable configFile) := by
  constructor
  · exact reports_iff neverParses_readServer readServer_settles
      (fun _ _ => readServer_fields) configFile
  · exact reports_iff neverParses_readClient readClient_settles
      (fun _ _ => readClient_fields) configFile

/-- A server without `initial_rooms` and a client without certificates of its own look up a key
in a constant document that does not have it; a port that is a string is refused by `value`. -/
theorem configuration_asserts :
    let server := some (Parsed.document (.object [("host_certificate", .string "server.crt"),
      ("host_private_key", .string "server.key")]))
    let client := some (Parsed.document (.object [("server_host_name", .string "localhost")]))
    let badPort := some (Parsed.document (.object [("host_port", .string "8080")]))
    serverConfiguration server = .error (.json .assertion) ∧
      clientConfiguration client = .error (.json .assertion) ∧
      serverConfiguration badPort = .error (.json (.thrown .typeError)) ∧
      ¬ ServerReports server ∧ ¬ ClientReports client ∧ ¬ ServerReports badPort := by
  refine ⟨rfl, rfl, rfl, fun hserver => ?_, fun hclient => ?_, fun hport => ?_⟩
  · exact not_settles_json hserver.settles
  · exact not_settles_json hclient.settles
  · exact not_settles_json hport.settles

end Tavernmx.Configuration
