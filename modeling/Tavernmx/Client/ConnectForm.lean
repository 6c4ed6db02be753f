/-
# `Tavernmx.Client.ConnectForm` — from the form to the address

The form has three fields.  It is filled from the configuration; pressing Enter in a
field, or the button, checks all of them and calls the handler when they pass:

    config ──to_string──▸ fields ──try_submit──▸ stoi ──▸ ServerConnection ──▸ "host:port"

The port goes through a string and back.  On what passes the check `stoi` reads a
number and never complains that there is none; what it can still say is that the number
is too large.  So which presses start an attempt, and at which address, can be said
about the texts alone (`connectForm_attempts`): no text in the field for the host gets
into the port, and an untouched form connects where the configuration says, unless
that has a port below zero or a host that the form does not accept.  A frame in which the
form is submitted in one place at most keeps attempts apart, as `Tavernmx.Client.Attempts`
asks for.

What OpenSSL and the threads answer is given with the `Environment`.
-/
import Mathlib.Data.List.TakeWhile
import Tavernmx.Client.Attempts
import Tavernmx.Shared.Configuration

namespace Tavernmx.Client

open Tavernmx.Configuration

/-! ## `std::stoi` -/

inductive StoiError where
  | invalidArgument
  | outOfRange
  deriving DecidableEq, Repr

/-- `isspace` of the C locale. -/
def isspace (c : Char) : Bool :=
  c = ' ' || c = '\t' || c = '\n' || c = '\r' || c = '\x0b' || c = '\x0c'

/-- The digits after the sign, and whether it is a minus. -/
def splitSign : List Char → Bool × List Char
  | '-' :: rest => (true, rest)
  | '+' :: rest => (false, rest)
  | rest => (false, rest)

/-- White space, a sign, and as many digits as there are; what follows is ignored. -/
def stoi (text : String) : Except StoiError Int32 :=
  let (negative, rest) := splitSign (text.toList.dropWhile isspace)
  let digits := rest.takeWhile Char.isDigit
  let number := Nat.ofDigitChars 10 digits 0
  let value : Int := if negative then -number else number
  if digits = [] then throw .invalidArgument
  else if -2 ^ 31 ≤ value ∧ value < 2 ^ 31 then pure (Int32.ofInt value)
  else throw .outOfRange

/-! ## The form -/

structure ConnectForm where
  userName : String
  hostName : String
  hostPort : String
  userNameInvalid : Bool
  hostNameInvalid : Bool
  hostPortInvalid : Bool
  deriving DecidableEq, Repr

/-- A `ServerConnection`, as far as it is made from the form. -/
structure Target where
  hostName : String
  hostPort : Int32
  userName : String
  deriving DecidableEq, Repr

/-- What `connect` asks OpenSSL for. -/
def Target.address (target : Target) : String :=
  target.hostName ++ ":" ++ toString target.hostPort.toInt

/-- What is answered from outside; a text is that of an exception. -/
structure Environment where
  stoiWhat : StoiError → String
  trustStore : Option String
  certificate : String → Option String
  thread : Option String

/-- An exception, if there is one. -/
def raise : Option String → Except String Unit
  | some what => .error what
  | none => .ok ()

/-- `generate_random_username`, at this time. -/
def generateRandomUsername (time : Nat) : String := "jdoe" ++ toString (time &&& 0xfff)

/-- `connect_screen_worker`: the form before anything is typed. -/
def connectScreenWorker (time : Nat) (config : ClientConfiguration) : ConnectForm :=
  ⟨generateRandomUsername time, config.hostName, toString config.hostPort.toInt,
    false, false, false⟩

/-- The handler of `MSG_CONNECT_BUTTON`. -/
def handleConnectButton (env : Environment) (config : ClientConfiguration) (form : ConnectForm) :
    Except String Target := do
  let hostPort ← (stoi form.hostPort).mapError env.stoiWhat
  raise env.trustStore
  config.customCertificates.forM fun cert => raise (env.certificate cert)
  raise env.thread
  pure ⟨form.hostName, hostPort, form.userName⟩

/-- A field that is empty or has another character. -/
def fieldInvalid (allowed : Char → Bool) (text : String) : Bool :=
  text.isEmpty || !text.toList.all allowed

def isHostChar (c : Char) : Bool := c.isAlphanum || c = '.' || c = '-'

namespace ConnectForm

/-- The fields that `try_submit` marks. -/
def checked (form : ConnectForm) : ConnectForm :=
  { form with
    userNameInvalid := fieldInvalid Char.isAlphanum form.userName
    hostNameInvalid := fieldInvalid isHostChar form.hostName
    hostPortInvalid := fieldInvalid Char.isDigit form.hostPort }

/-- `try_submit`: what the handler does, if it is called. -/
def trySubmit (env : Environment) (config : ClientConfiguration) (form : ConnectForm) :
    ConnectForm × Option (Except String Target) :=
  if form.checked.userNameInvalid || form.checked.hostNameInvalid || form.checked.hostPortInvalid
  then (form.checked, none)
  else (form.checked, some (handleConnectButton env config form.checked))

end ConnectForm

/-- What the user does with the form in a frame: the texts, and where Enter was pressed. -/
structure FormInput where
  userName : String
  userNameEntered : Bool
  hostName : String
  hostNameEntered : Bool
  hostPort : String
  hostPortEntered : Bool
  button : Bool

/-- What comes of a call of the handler. -/
def submissionOf : Except String Target → Submission
  | .ok _ => .started
  | .error what => .failed what

namespace ConnectForm

/-- One place where the form may be submitted. -/
def press (env : Environment) (config : ClientConfiguration) (pressed : Bool)
    (frame : ConnectForm × List Submission) : ConnectForm × List Submission :=
  if pressed then
    let (form, outcome) := frame.1.trySubmit env config
    (form, frame.2 ++ (outcome.map submissionOf).toList)
  else frame

/-- `render`: the fields from above, and the button. -/
def render (env : Environment) (config : ClientConfiguration) (input : FormInput)
    (form : ConnectForm) : ConnectForm × List Submission :=
  let frame := press env config input.userNameEntered
    ({ form with userName := input.userName }, [])
  let frame := press env config input.hostNameEntered
    ({ frame.1 with hostName := input.hostName }, frame.2)
  let frame := press env config input.hostPortEntered
    ({ frame.1 with hostPort := input.hostPort }, frame.2)
  press env config input.button frame

end ConnectForm

/-! ## Numerals -/

/-- A numeral, as the field for the port accepts it. -/
def IsNumeral (text : String) : Prop := text ≠ "" ∧ ∀ c ∈ text.toList, c.isDigit = true

/-- The number that it stands for. -/
def numeralValue (text : String) : Nat := Nat.ofDigitChars 10 text.toList 0

theorem fieldInvalid_eq_false_iff {allowed : Char → Bool} {text : String} :
    fieldInvalid allowed text = false ↔ text ≠ "" ∧ ∀ c ∈ text.toList, allowed c = true := by
  rw [fieldInvalid, Bool.or_eq_false_iff, Bool.not_eq_false', List.all_eq_true]
  simp

theorem isspace_of_isDigit {c : Char} (h : c.isDigit = true) : isspace c = false := by
  by_contra hspace
  simp only [isspace, Bool.not_eq_false, Bool.or_eq_true, decide_eq_true_eq] at hspace
  rcases hspace with ((((rfl | rfl) | rfl) | rfl) | rfl) | rfl <;> revert h <;> decide

theorem splitSign_of_isDigit : ∀ {cs : List Char}, (∀ c ∈ cs, c.isDigit = true) →
    splitSign cs = (false, cs)
  | [], _ => rfl
  | c :: cs, h => by
      have hc := h c List.mem_cons_self
      have hminus : c ≠ '-' := by
        rintro rfl
        revert hc
        decide
      have hplus : c ≠ '+' := by
        rintro rfl
        revert hc
        decide
      rw [splitSign.eq_def]
      split
      · next heq => exact absurd (List.cons.inj heq).1 hminus
      · next heq => exact absurd (List.cons.inj heq).1 hplus
      · rfl

/-- **On a numeral, `stoi` reads the number or says that it is too large.** -/
theorem stoi_numeral {text : String} (h : IsNumeral text) :
    stoi text = if numeralValue text < 2 ^ 31 then .ok (Int32.ofInt (numeralValue text))
      else .error .outOfRange := by
  obtain ⟨hne, hdigits⟩ := h
  have hlist : text.toList ≠ [] := fun hnil => hne (String.toList_eq_nil_iff.mp hnil)
  have hspace : text.toList.dropWhile isspace = text.toList := by
    cases hcs : text.toList with
    | nil => rfl
    | cons c cs =>
        rw [List.dropWhile_cons_of_neg]
        rw [isspace_of_isDigit (hdigits c (hcs ▸ List.mem_cons_self))]
        decide
  have htake : text.toList.takeWhile Char.isDigit = text.toList :=
    List.takeWhile_eq_self_iff.mpr hdigits
  rw [stoi, hspace, splitSign_of_isDigit hdigits]
  have hvalue : Nat.ofDigitChars 10 text.toList 0 = numeralValue text := rfl
  simp only [htake, hvalue, if_neg hlist, Bool.false_eq_true, if_false]
  by_cases hsmall : numeralValue text < 2 ^ 31
  · rw [if_pos hsmall, if_pos (by omega)]
    rfl
  · rw [if_neg hsmall, if_neg (by omega)]
    rfl

/-- The numeral of a number stands for it. -/
theorem numeralValue_repr (n : Nat) : numeralValue n.repr = n := by
  rw [numeralValue, Nat.toList_repr, Nat.ofDigitChars_ten_toDigits]

theorem isNumeral_repr (n : Nat) : IsNumeral n.repr := by
  refine ⟨Nat.repr_ne_empty, fun c hc => ?_⟩
  rw [Nat.toList_repr] at hc
  exact Nat.isDigit_of_mem_toDigits (by decide) (by decide) hc

/-- The numeral of an integer has no minus exactly if it is not negative. -/
theorem isNumeral_toString {n : Int} : IsNumeral (toString n) ↔ 0 ≤ n := by
  cases n with
  | ofNat n => exact iff_of_true (isNumeral_repr n) (Int.natCast_nonneg n)
  | negSucc n =>
      refine iff_of_false (fun h => ?_) (Int.not_le.mpr (Int.negSucc_lt_zero n))
      have hminus := h.2 '-' (by
        show '-' ∈ ("-" ++ (n + 1).repr).toList
        simp)
      revert hminus
      decide

/-! ## What a press does -/

/-- Every field passes its check. -/
structure ConnectForm.WellFormed (form : ConnectForm) : Prop where
  userName : form.userName ≠ "" ∧ ∀ c ∈ form.userName.toList, c.isAlphanum = true
  hostName : form.hostName ≠ "" ∧ ∀ c ∈ form.hostName.toList, isHostChar c = true
  hostPort : IsNumeral form.hostPort

/-- What the form says. -/
def ConnectForm.target (form : ConnectForm) : Target :=
  ⟨form.hostName, Int32.ofInt (numeralValue form.hostPort), form.userName⟩

/-- Nothing from outside throws. -/
structure Environment.Accepts (env : Environment) (config : ClientConfiguration) : Prop where
  trustStore : env.trustStore = none
  certificates : ∀ cert ∈ config.customCertificates, env.certificate cert = none
  thread : env.thread = none

variable {env : Environment} {config : ClientConfiguration} {form form' : ConnectForm}
  {target target' : Target}

theorem raise_ok_iff {what : Option String} : raise what = .ok () ↔ what = none := by
  cases what with
  | none => exact iff_of_true rfl rfl
  | some what =>
      refine iff_of_false (fun h => ?_) (fun h => ?_)
      · cases h
      · cases h

theorem forM_raise_ok_iff {certs : List String} :
    (certs.forM fun cert => raise (env.certificate cert)) = .ok () ↔
      ∀ cert ∈ certs, env.certificate cert = none := by
  induction certs with
  | nil => simp [pure, Except.pure]
  | cons cert certs ih =>
      rw [List.forall_mem_cons, ← ih, ← raise_ok_iff]
      show (raise (env.certificate cert) >>= fun _ => certs.forM fun cert =>
        raise (env.certificate cert)) = .ok () ↔ _
      rw [Fallible.bind_ok]
      exact ⟨fun ⟨_, hcert, hcerts⟩ => ⟨hcert, hcerts⟩, fun ⟨hcert, hcerts⟩ => ⟨_, hcert, hcerts⟩⟩

/-- The handler makes what the form says, if the port is one and nothing throws. -/
theorem handleConnectButton_ok_iff (hport : IsNumeral form.hostPort) :
    handleConnectButton env config form = .ok target ↔
      numeralValue form.hostPort < 2 ^ 31 ∧ env.Accepts config ∧ target = form.target := by
  rw [handleConnectButton, stoi_numeral hport]
  constructor
  · intro h
    obtain ⟨hostPort, hread, h⟩ := Fallible.bind_ok.mp h
    obtain ⟨_, htrust, h⟩ := Fallible.bind_ok.mp h
    obtain ⟨_, hcerts, h⟩ := Fallible.bind_ok.mp h
    obtain ⟨_, hthread, h⟩ := Fallible.bind_ok.mp h
    obtain rfl := Except.ok.inj h
    split at hread
    · next hsmall =>
        obtain rfl := Except.ok.inj hread
        exact ⟨hsmall, ⟨raise_ok_iff.mp htrust, forM_raise_ok_iff.mp hcerts,
          raise_ok_iff.mp hthread⟩, rfl⟩
    · cases hread
  · rintro ⟨hsmall, haccepts, rfl⟩
    rw [if_pos hsmall, haccepts.trustStore, haccepts.thread]
    refine Fallible.bind_ok.mpr ⟨_, rfl, Fallible.bind_ok.mpr ⟨_, rfl, Fallible.bind_ok.mpr ?_⟩⟩
    exact ⟨_, forM_raise_ok_iff.mpr haccepts.certificates, rfl⟩

/-- **A press starts an attempt exactly if the texts are right and nothing throws.** -/
theorem trySubmit_started_iff : (form.trySubmit env config).2 = some (.ok target) ↔
    form.WellFormed ∧ numeralValue form.hostPort < 2 ^ 31 ∧ env.Accepts config ∧
      target = form.target := by
  rw [ConnectForm.trySubmit]
  by_cases hformed : form.WellFormed
  · have huser := fieldInvalid_eq_false_iff.mpr hformed.userName
    have hhost := fieldInvalid_eq_false_iff.mpr hformed.hostName
    have hport := fieldInvalid_eq_false_iff.mpr hformed.hostPort
    have hsame : handleConnectButton env config form.checked
        = handleConnectButton env config form := rfl
    rw [if_neg (by simp [ConnectForm.checked, huser, hhost, hport]), Option.some.injEq, hsame,
      handleConnectButton_ok_iff hformed.hostPort]
    exact ⟨fun h => ⟨hformed, h⟩, fun h => h.2⟩
  · rw [if_pos]
    · exact iff_of_false (fun h => by cases h) fun h => hformed h.1
    · by_contra hpasses
      simp only [Bool.not_eq_true, Bool.or_eq_false_iff, ConnectForm.checked,
        fieldInvalid_eq_false_iff] at hpasses
      exact hformed ⟨hpasses.1.1, hpasses.1.2, hpasses.2⟩

/-! ## Addresses -/

theorem toInt_hostPort_target (hsmall : numeralValue form.hostPort < 2 ^ 31) :
    form.target.hostPort.toInt = numeralValue form.hostPort :=
  Int32.toInt_ofInt_of_le (by omega) (by omega)

/-- The address is the host, a colon, and the port as a numeral without leading zeros. -/
theorem toList_address (hsmall : numeralValue form.hostPort < 2 ^ 31) :
    form.target.address.toList
      = form.hostName.toList ++ ':' :: (numeralValue form.hostPort).repr.toList := by
  rw [Target.address, toInt_hostPort_target hsmall, String.toList_append, String.toList_append,
    List.append_assoc]
  rfl

theorem ConnectForm.WellFormed.noColon (h : form.WellFormed) : ':' ∉ form.hostName.toList := by
  intro hmem
  have hcolon := h.hostName.2 ':' hmem
  revert hcolon
  decide

/-- **No text in the field for the host gets into the port.** -/
theorem address_inj (hformed : form.WellFormed) (hsmall : numeralValue form.hostPort < 2 ^ 31)
    (hsmall' : numeralValue form'.hostPort < 2 ^ 31) :
    form.target.address = form'.target.address ↔
      form.target.hostName = form'.target.hostName ∧
        form.target.hostPort = form'.target.hostPort := by
  have hnumeral : ':' ∉ (numeralValue form.hostPort).repr.toList := by
    intro hmem
    have hcolon := (isNumeral_repr _).2 ':' hmem
    revert hcolon
    decide
  rw [← String.toList_inj, toList_address hsmall, toList_address hsmall',
    List.append_cons_inj_of_notMem hformed.noColon hnumeral]
  refine and_congr String.toList_inj ⟨fun h => ?_, fun h => ⟨rfl, ?_⟩⟩
  · have hvalue : numeralValue form.hostPort = numeralValue form'.hostPort := by
      rw [← numeralValue_repr (numeralValue form.hostPort), String.toList_inj.mp h.2,
        numeralValue_repr]
    show Int32.ofInt _ = Int32.ofInt _
    rw [hvalue]
  · have hvalue := congrArg Int32.toInt h
    rw [toInt_hostPort_target hsmall, toInt_hostPort_target hsmall', Int.natCast_inj] at hvalue
    rw [hvalue]

/-! ## The untouched form -/

theorem isAlphanum_of_isDigit {c : Char} (h : c.isDigit = true) : c.isAlphanum = true := by
  rw [Char.isAlphanum, h, Bool.or_true]

theorem userName_connectScreenWorker (time : Nat) (config : ClientConfiguration) :
    (connectScreenWorker time config).userName ≠ "" ∧
      ∀ c ∈ (connectScreenWorker time config).userName.toList, c.isAlphanum = true := by
  have hlist : (generateRandomUsername time).toList
      = ['j', 'd', 'o', 'e'] ++ (time &&& 0xfff).repr.toList := by
    rw [generateRandomUsername, String.toList_append]
    rfl
  refine ⟨fun hempty => ?_, fun c hc => ?_⟩
  · have hnil := congrArg String.toList hempty
    rw [show (connectScreenWorker time config).userName.toList
      = (generateRandomUsername time).toList from rfl, hlist] at hnil
    cases hnil
  · rw [show (connectScreenWorker time config).userName.toList
      = (generateRandomUsername time).toList from rfl, hlist] at hc
    rcases List.mem_append.mp hc with hname | hnumber
    · simp only [List.mem_cons, List.not_mem_nil, or_false] at hname
      rcases hname with rfl | rfl | rfl | rfl <;> rfl
    · exact isAlphanum_of_isDigit ((isNumeral_repr _).2 c hnumber)

/-- The port of the configuration comes back from its string. -/
theorem hostPort_connectScreenWorker (time : Nat) (hport : 0 ≤ config.hostPort.toInt) :
    (numeralValue (connectScreenWorker time config).hostPort : Int) = config.hostPort.toInt := by
  have hnumeral : (connectScreenWorker time config).hostPort
      = config.hostPort.toInt.toNat.repr := by
    show config.hostPort.toInt.repr = _
    rw [Int.repr_eq_if, if_pos hport]
  rw [hnumeral, numeralValue_repr, Int.toNat_of_nonneg hport]

/-- A host that the form accepts. -/
def IsHost (text : String) : Prop := text ≠ "" ∧ ∀ c ∈ text.toList, isHostChar c = true

theorem wellFormed_connectScreenWorker {time : Nat} :
    (connectScreenWorker time config).WellFormed ↔
      IsHost config.hostName ∧ 0 ≤ config.hostPort.toInt := by
  refine ⟨fun h => ⟨h.hostName, isNumeral_toString.mp h.hostPort⟩, fun h => ?_⟩
  exact ⟨userName_connectScreenWorker time config, h.1, isNumeral_toString.mpr h.2⟩

/-- **The untouched form connects where the configuration says.** -/
theorem connectScreenWorker_started_iff {time : Nat} :
    ((connectScreenWorker time config).trySubmit env config).2 = some (.ok target) ↔
      IsHost config.hostName ∧ 0 ≤ config.hostPort.toInt ∧ env.Accepts config ∧
        target = ⟨config.hostName, config.hostPort, generateRandomUsername time⟩ := by
  rw [trySubmit_started_iff, wellFormed_connectScreenWorker, and_assoc]
  refine and_congr_right fun _ => and_congr_right fun hport => ?_
  have hvalue := hostPort_connectScreenWorker time hport
  have hsmall := config.hostPort.toInt_lt
  have htarget : (connectScreenWorker time config).target
      = ⟨config.hostName, config.hostPort, generateRandomUsername time⟩ := by
    rw [ConnectForm.target, hvalue, Int32.ofInt_toInt]
    rfl
  rw [htarget]
  exact and_iff_right (by omega)

/-! ## A frame -/

/-- In how many places the form is submitted. -/
def FormInput.presses (input : FormInput) : Nat :=
  input.userNameEntered.toNat + input.hostNameEntered.toNat + input.hostPortEntered.toNat +
    input.button.toNat

theorem length_press (pressed : Bool) (frame : ConnectForm × List Submission) :
    (ConnectForm.press env config pressed frame).2.length ≤ frame.2.length + pressed.toNat := by
  cases pressed with
  | false => exact Nat.le_refl _
  | true =>
      simp only [ConnectForm.press, if_true, List.length_append]
      exact Nat.add_le_add_left Option.length_toList_le _

theorem length_render (input : FormInput) :
    (form.render env config input).2.length ≤ input.presses := by
  simp only [ConnectForm.render, FormInput.presses]
  refine Nat.le_trans (length_press _ _) (Nat.add_le_add_right ?_ _)
  refine Nat.le_trans (length_press _ _) (Nat.add_le_add_right ?_ _)
  refine Nat.le_trans (length_press _ _) (Nat.add_le_add_right ?_ _)
  exact Nat.le_trans (length_press _ _) (Nat.le_of_eq (Nat.zero_add _))

/-- **A form that is submitted in one place does not disturb an attempt.** -/
theorem startsLast_render {input : FormInput} (honce : input.presses ≤ 1) :
    ClientApp.StartsLast (form.render env config input).2 := by
  have hlength : (form.render env config input).2.length ≤ 1 :=
    Nat.le_trans (length_render input) honce
  match hsubmissions : (form.render env config input).2 with
  | [] => trivial
  | [.started] => rfl
  | [.failed _] => trivial
  | _ :: _ :: _ =>
      rw [hsubmissions] at hlength
      simp at hlength

/-- **The form, from the texts to the addresses.** -/
theorem connectForm_attempts (env : Environment) (config : ClientConfiguration) :
    (∀ (form : ConnectForm) target, (form.trySubmit env config).2 = some (.ok target) ↔
      form.WellFormed ∧ numeralValue form.hostPort < 2 ^ 31 ∧ env.Accepts config ∧
        target = form.target) ∧
    (∀ (form form' : ConnectForm) target target',
      (form.trySubmit env config).2 = some (.ok target) →
      (form'.trySubmit env config).2 = some (.ok target') →
      (target.address = target'.address ↔
        target.hostName = target'.hostName ∧ target.hostPort = target'.hostPort)) ∧
    (∀ time target,
      ((connectScreenWorker time config).trySubmit env config).2 = some (.ok target) ↔
        IsHost config.hostName ∧ 0 ≤ config.hostPort.toInt ∧ env.Accepts config ∧
          target = ⟨config.hostName, config.hostPort, generateRandomUsername time⟩) ∧
    ∀ (form : ConnectForm) input, input.presses ≤ 1 →
      ClientApp.StartsLast (form.render env config input).2 := by
  refine ⟨fun form target => trySubmit_started_iff, ?_, fun time target =>
    connectScreenWorker_started_iff, fun form input => startsLast_render⟩
  intro form form' target target' h h'
  obtain ⟨hformed, hsmall, -, rfl⟩ := trySubmit_started_iff.mp h
  obtain ⟨-, hsmall', -, rfl⟩ := trySubmit_started_iff.mp h'
  exact address_inj hformed hsmall hsmall'

/-- A configuration without certificates and fonts. -/
def localConfiguration : ClientConfiguration :=
  ⟨"localhost", 8080, "warn", none, [], ⟨0, "", "", "", ""⟩⟩

/-- Nothing throws, and `what` of `stoi` is as one library has it. -/
def quietEnvironment : Environment := ⟨fun _ => "stoi", none, fun _ => none, none⟩

/-- The first user of the day. -/
theorem connectForm_attempts_localhost : ∃ target : Target,
    ((connectScreenWorker 0 localConfiguration).trySubmit quietEnvironment localConfiguration).2
      = some (.ok target) ∧
    target.userName = "jdoe0" ∧ target.address = "localhost:8080" := by
  refine ⟨⟨"localhost", 8080, generateRandomUsername 0⟩, ?_, by decide +kernel, by decide +kernel⟩
  refine ((connectForm_attempts quietEnvironment localConfiguration).2.2.1 0 _).mpr ?_
  have hhost : "localhost".toList.all isHostChar = true := by decide +kernel
  refine ⟨⟨by decide, List.all_eq_true.mp hhost⟩, by decide, ⟨rfl, fun cert hcert => ?_, rfl⟩, rfl⟩
  cases hcert

end Tavernmx.Client
