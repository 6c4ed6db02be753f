/-
# `Tavernmx.Client.Dialogue` — an attempt to connect, as the user sees it

The connect button starts a thread, and a screen on top of the form waits for it.  It
is meant to go like this:

    idle ──begin──▸ trying ──finish──▸ finished ──answer──▸ idle

There is one attempt at a time; it can be cancelled until it is answered; and the
answer is its own: a chat screen, or an error dialog that says why there is none.

So the attempts that begin end once each (`Dialogue.begun_of_path`), and what ends is told
of in its order, once each, a denial with its own reason (`Dialogue.told_of_path`).
-/
import Tavernmx.Client.Ui

namespace Tavernmx.Client

/-! ## The dialogue -/

inductive AttemptStage where
  | idle
  | trying (cancelled : Bool)
  | finished (cancelled : Bool) (outcome : ConnectOutcome)

structure Dialogue where
  stage : AttemptStage
  /-- What the error dialog shows. -/
  error : String
  /-- How many chat screens were opened. -/
  sessions : Nat

/-- What the user hears of an attempt. -/
inductive Answer where
  /-- A chat screen. -/
  | session
  | error (what : String)
  deriving DecidableEq

inductive DialogueEvent where
  | begin
  /-- The form is submitted, but no attempt comes of it. -/
  | refuse (what : String)
  | cancel
  | finish (outcome : ConnectOutcome)
  /-- The peer closes a connection that was acknowledged. -/
  | lose
  | answer (answer : Answer)
  | sessionLost
  | dismiss
  deriving DecidableEq

/-- What becomes of it when the peer closes the connection. -/
def ConnectOutcome.lost : ConnectOutcome → ConnectOutcome
  | .acknowledged => .failed
  | outcome => outcome

def ConnectOutcome.isAcknowledged : ConnectOutcome → Bool
  | .acknowledged => true
  | _ => false

/-- The server's reason. -/
def ConnectOutcome.error : ConnectOutcome → String
  | .denied error => error
  | _ => ""

theorem ConnectOutcome.error_of_acknowledged {outcome : ConnectOutcome}
    (h : outcome.isAcknowledged = true) : outcome.error = "" := by
  cases outcome with
  | acknowledged => rfl
  | denied error => cases h
  | failed => cases h

/-- A chat screen, or the reason why there is none. -/
def ConnectOutcome.answer (cancelled : Bool) (outcome : ConnectOutcome) : Answer :=
  if cancelled then .error "Connection cancelled."
  else if outcome.isAcknowledged then .session
  else if outcome.error = "" then .error "Unable to connect to server."
  else .error outcome.error

namespace Dialogue

def start : Dialogue := ⟨.idle, "", 0⟩

def hear (d : Dialogue) : Answer → Dialogue
  | .session => { d with stage := .idle, sessions := d.sessions + 1 }
  | .error what => { d with stage := .idle, error := what }

theorem stage_hear (d : Dialogue) (answer : Answer) : (d.hear answer).stage = .idle := by
  cases answer <;> rfl

def exec (d : Dialogue) : DialogueEvent → Option Dialogue
  | .begin =>
    match d.stage with
    | .idle => some { d with stage := .trying false }
    | _ => none
  | .refuse what =>
    match d.stage with
    | .idle => some { d with error := what }
    | _ => none
  | .cancel =>
    match d.stage with
    | .idle => none
    | .trying _ => some { d with stage := .trying true }
    | .finished _ outcome => some { d with stage := .finished true outcome }
  | .finish outcome =>
    match d.stage with
    | .trying cancelled => some { d with stage := .finished cancelled outcome }
    | _ => none
  | .lose =>
    match d.stage with
    | .finished cancelled outcome => some { d with stage := .finished cancelled outcome.lost }
    | _ => none
  | .answer answer =>
    match d.stage with
    | .finished cancelled outcome =>
      if answer = outcome.answer cancelled then some (d.hear answer) else none
    | _ => none
  | .sessionLost =>
    if 0 < d.sessions then some { d with error := "Connection to server lost." } else none
  | .dismiss => some { d with error := "" }

/-- No attempt that was denied is told as cancelled. -/
def Orderly (d : Dialogue) : DialogueEvent → Prop
  | .answer _ => ∀ outcome, d.stage = .finished true outcome → outcome.error = ""
  | _ => True

end Dialogue

def dialogueSystem : LabelledSystem Dialogue DialogueEvent where
  init d := d = .start
  step d l d' := d.exec l = some d'

abbrev Dialogue.Path : Dialogue → List DialogueEvent → Dialogue → Prop :=
  dialogueSystem.Path Dialogue.Orderly

theorem Dialogue.path_singleton {d d' : Dialogue} {l : DialogueEvent} (horderly : d.Orderly l)
    (h : d.exec l = some d') : d.Path [l] d' :=
  .cons horderly h (.nil d')

/-! ## What it comes to -/

namespace DialogueEvent

def begins : DialogueEvent → Bool
  | .begin => true
  | _ => false

def ended : DialogueEvent → Option ConnectOutcome
  | .finish outcome => some outcome
  | _ => none

def answered : DialogueEvent → Option Answer
  | .answer heard => some heard
  | _ => none

end DialogueEvent

theorem filterMap_cons_toList {T U : Type} (f : T → Option U) (x : T) (xs : List T) :
    (x :: xs).filterMap f = (f x).toList ++ xs.filterMap f := by
  rw [List.filterMap_eq_flatMap_toList, List.flatMap_cons, ← List.filterMap_eq_flatMap_toList]

/-- What may be told of an attempt that has ended like this.  A denial comes with its own
reason, unless it has none. -/
inductive ConnectOutcome.IsTold : ConnectOutcome → Answer → Prop where
  | session : IsTold .acknowledged .session
  | lost : IsTold .acknowledged (.error "Unable to connect to server.")
  | denied {reason : String} (h : reason ≠ "") : IsTold (.denied reason) (.error reason)
  | unread : IsTold (.denied "") (.error "Unable to connect to server.")
  | failed : IsTold .failed (.error "Unable to connect to server.")
  | cancelled {outcome : ConnectOutcome} (h : outcome.error = "") :
      IsTold outcome (.error "Connection cancelled.")

/-- The answer to an attempt, whose connection may have been lost while it waited. -/
theorem ConnectOutcome.isTold_answer {ended outcome : ConnectOutcome} {cancelled : Bool}
    (hlost : outcome = ended ∨ outcome = ended.lost)
    (hnone : cancelled = true → outcome.error = "") : ended.IsTold (outcome.answer cancelled) := by
  cases cancelled with
  | true =>
      refine .cancelled ?_
      rcases hlost with rfl | rfl
      · exact hnone rfl
      · cases ended with
        | denied reason => exact hnone rfl
        | _ => rfl
  | false =>
      cases ended with
      | acknowledged =>
          rcases hlost with rfl | rfl
          · exact .session
          · exact .lost
      | failed =>
          obtain rfl : outcome = .failed := hlost.elim id id
          exact .failed
      | denied reason =>
          obtain rfl : outcome = .denied reason := hlost.elim id id
          by_cases hread : reason = ""
          · subst hread
            exact .unread
          · have hreason : (ConnectOutcome.denied reason).answer false = .error reason :=
              if_neg hread
            rw [hreason]
            exact .denied hread

def AttemptStage.threads : AttemptStage → Nat
  | .trying _ => 1
  | _ => 0

/-- How the attempt that waits for its answer has ended. -/
def AttemptStage.Awaits (waiting : List ConnectOutcome) : AttemptStage → Prop
  | .finished _ outcome => ∃ ended, waiting = [ended] ∧ (outcome = ended ∨ outcome = ended.lost)
  | _ => waiting = []

namespace Dialogue

variable {d d' : Dialogue} {waiting : List ConnectOutcome}

/-- A step answers what waits, or another attempt comes to wait. -/
theorem told_step {l : DialogueEvent} (horderly : d.Orderly l) (hexec : d.exec l = some d')
    (h : d.stage.Awaits waiting) :
    (l.answered = none ∧ d'.stage.Awaits (waiting ++ l.ended.toList)) ∨
      ∃ outcome answer, waiting = [outcome] ∧ l.ended = none ∧ l.answered = some answer ∧
        outcome.IsTold answer ∧ d'.stage.Awaits [] := by
  obtain ⟨stage, error, sessions⟩ := d
  -- most steps leave what waits
  have hkept : ∀ {stage : AttemptStage}, stage.Awaits waiting → stage.Awaits (waiting ++ []) :=
    fun hstage => (List.append_nil waiting).symm ▸ hstage
  cases l with
  | begin =>
      cases stage with
      | idle =>
          obtain rfl := Option.some.inj hexec
          exact .inl ⟨rfl, hkept h⟩
      | _ => cases hexec
  | refuse what =>
      cases stage with
      | idle =>
          obtain rfl := Option.some.inj hexec
          exact .inl ⟨rfl, hkept h⟩
      | _ => cases hexec
  | cancel =>
      cases stage with
      | idle => cases hexec
      | _ =>
          obtain rfl := Option.some.inj hexec
          exact .inl ⟨rfl, hkept h⟩
  | finish outcome =>
      cases stage with
      | trying cancelled =>
          obtain rfl := Option.some.inj hexec
          obtain rfl : waiting = [] := h
          exact .inl ⟨rfl, outcome, rfl, .inl rfl⟩
      | _ => cases hexec
  | lose =>
      cases stage with
      | finished cancelled outcome =>
          obtain rfl := Option.some.inj hexec
          obtain ⟨ended, rfl, hlost⟩ := h
          refine .inl ⟨rfl, ended, rfl, .inr ?_⟩
          rcases hlost with rfl | rfl
          · rfl
          · cases ended <;> rfl
      | _ => cases hexec
  | answer answer =>
      cases stage with
      | finished cancelled outcome =>
          obtain ⟨rfl, hheard⟩ := Option.ite_none_right_eq_some.mp hexec
          obtain rfl := Option.some.inj hheard
          obtain ⟨ended, rfl, hlost⟩ := h
          refine .inr ⟨ended, _, rfl, rfl, rfl, ConnectOutcome.isTold_answer hlost ?_, ?_⟩
          · rintro rfl
            exact horderly outcome rfl
          · rw [stage_hear]
            rfl
      | _ => cases hexec
  | sessionLost =>
      obtain ⟨-, hlost⟩ := Option.ite_none_right_eq_some.mp hexec
      obtain rfl := Option.some.inj hlost
      exact .inl ⟨rfl, hkept h⟩
  | dismiss =>
      obtain rfl := Option.some.inj hexec
      exact .inl ⟨rfl, hkept h⟩

/-- **Every attempt is told of once**, in turn, except one that still waits. -/
theorem told_of_path {ls : List DialogueEvent} (h : d.Path ls d') :
    ∀ {before}, d.stage.Awaits before → ∃ told waiting,
      before ++ ls.filterMap DialogueEvent.ended = told ++ waiting ∧
      List.Forall₂ ConnectOutcome.IsTold told (ls.filterMap DialogueEvent.answered) ∧
      d'.stage.Awaits waiting := by
  induction h with
  | nil d => exact fun {before} hbefore => ⟨[], before, List.append_nil before, .nil, hbefore⟩
  | @cons d mid d' l ls horderly hexec _ ih =>
      intro before hbefore
      rcases told_step horderly hexec hbefore with ⟨hanswered, hmid⟩ |
        ⟨outcome, answer, rfl, hended, hanswered, htold, hmid⟩
      · obtain ⟨told, waiting, hall, hanswers, hwaiting⟩ := ih hmid
        refine ⟨told, waiting, ?_, ?_, hwaiting⟩
        · rw [filterMap_cons_toList, ← List.append_assoc]
          exact hall
        · rw [List.filterMap_cons_none hanswered]
          exact hanswers
      · obtain ⟨told, waiting, hall, hanswers, hwaiting⟩ := ih hmid
        refine ⟨outcome :: told, waiting, ?_, ?_, hwaiting⟩
        · rw [List.filterMap_cons_none hended, List.singleton_append, List.cons_append, ← hall]
          rfl
        · rw [List.filterMap_cons_some hanswered]
          exact .cons htold hanswers

/-- A step begins an attempt, or ends it, or leaves the thread alone. -/
theorem begun_step {l : DialogueEvent} (hexec : d.exec l = some d') :
    d.stage.threads + (if l.begins then 1 else 0)
      = l.ended.toList.length + d'.stage.threads := by
  obtain ⟨stage, error, sessions⟩ := d
  cases l with
  | sessionLost =>
      obtain ⟨-, hlost⟩ := Option.ite_none_right_eq_some.mp hexec
      obtain rfl := Option.some.inj hlost
      exact (Nat.zero_add _).symm
  | dismiss =>
      obtain rfl := Option.some.inj hexec
      exact (Nat.zero_add _).symm
  | answer answer =>
      cases stage with
      | finished cancelled outcome =>
          obtain ⟨-, hheard⟩ := Option.ite_none_right_eq_some.mp hexec
          obtain rfl := Option.some.inj hheard
          rw [stage_hear]
          rfl
      | _ => cases hexec
  | _ => cases stage <;> first | cases hexec; done | (obtain rfl := Option.some.inj hexec; rfl)

/-- **Every attempt ends once**, except one that goes on. -/
theorem begun_of_path {ls : List DialogueEvent} (h : d.Path ls d') :
    d.stage.threads + ls.countP DialogueEvent.begins
      = (ls.filterMap DialogueEvent.ended).length + d'.stage.threads := by
  induction h with
  | nil d => exact (Nat.zero_add _).symm
  | @cons d mid d' l ls _ hexec _ ih =>
      have hstep := begun_step hexec
      rw [List.countP_cons, filterMap_cons_toList, List.length_append]
      omega

end Dialogue

end Tavernmx.Client
