/-
# `Tavernmx.Client.Attempts` — what the user hears of an attempt to connect

The code has no stages like those of a `Dialogue`.  It has a connection, an error, a signal
and a count of threads that nobody keeps, all of them variables of the process, and screens
that are pushed and popped a frame later.  `moves` reads off each step what it is in the
dialogue: which thread has ended and how, and what the user is shown for it.

As long as no frame submits the form again after it has started an attempt, and nobody
cancels an attempt that the server denies (`Orderly`), the moves of a run are a dialogue, and
every attempt is told of once, with its own end (`attempts_refine`).  Any other step breaks
it, at once: two threads share the connection, or a thread has none, or the server's reason
is kept and told of a later attempt (`attempts_undisturbed`, `attempts_disturbed`).
-/
import Tavernmx.Client.Dialogue
import Tavernmx.Client.Signals

namespace Tavernmx.Client

/-! ## How the client keeps it -/

namespace AttemptStage

/-- Of the attempt that goes on, whether it was cancelled. -/
def cancelled : AttemptStage → Option Bool
  | .idle => none
  | .trying cancelled => some cancelled
  | .finished cancelled _ => some cancelled

def signals : AttemptStage → Nat
  | .finished _ _ => 1
  | _ => 0

def error : AttemptStage → String
  | .finished _ outcome => outcome.error
  | _ => ""

/-- What `connection` may be. -/
def Has (connection : Option Bool) : AttemptStage → Prop
  | .idle => True
  | .trying _ => connection.isSome = true
  | .finished _ outcome => connection = some outcome.isAcknowledged

variable {stage : AttemptStage}

/-- What waits has been signalled. -/
theorem Awaits.length {waiting : List ConnectOutcome} (h : stage.Awaits waiting) :
    waiting.length = stage.signals := by
  cases stage with
  | idle => exact congrArg List.length h
  | trying c => exact congrArg List.length h
  | finished c outcome =>
      obtain ⟨ended, rfl, -⟩ := h
      rfl

/-- An attempt that goes on has a thread or a signal, and a screen. -/
theorem goesOn_of_ne_idle (h : stage ≠ .idle) :
    stage.threads + stage.signals = 1 ∧ ∃ c, stage.cancelled = some c := by
  cases stage with
  | idle => exact absurd rfl h
  | trying c => exact ⟨rfl, c, rfl⟩
  | finished c outcome => exact ⟨rfl, c, rfl⟩

/-- As long as there is a thread, there is a connection. -/
theorem Has.isSome {connection : Option Bool} (h : stage.Has connection)
    (hthreads : 0 < stage.threads) : connection.isSome = true := by
  cases stage with
  | trying c => exact h
  | idle => cases hthreads
  | finished c outcome => cases hthreads

end AttemptStage

/-- The end of a connect thread. -/
def AppEvent.ended : AppEvent → Option ConnectOutcome
  | .connectThread outcome => some outcome
  | _ => none

def Submission.move : Submission → DialogueEvent
  | .started => .begin
  | .failed what => .refuse what

namespace ClientApp

/-- The screen of the attempt is on top, as soon as the requests are applied, and there is no
other one. -/
def Waits (ui : DeferredStack Screen) (cancelled : List Bool) : Option Bool → Prop
  | none => ∀ attempt, .connecting attempt ∉ ui.settled
  | some c => ∃ attempt rest, ui.settled = .connecting attempt :: rest ∧
      cancelled[attempt]? = some c ∧ ∀ other, .connecting other ∉ rest

/-- The client is in the middle of this dialogue. -/
structure Follows (app : ClientApp) (d : Dialogue) : Prop where
  shown : app.currentError = d.error
  sessions : app.sessions.length = d.sessions
  threads : app.connectThreads = d.stage.threads
  signals : app.connectThreadSignal.count = d.stage.signals
  once : app.connectThreadSignal.overReleased = false
  error : app.connectThreadError = d.stage.error
  connection : d.stage.Has app.connection
  screen : Waits app.ui app.cancelled d.stage.cancelled

/-- What is heard at the update of a connecting screen. -/
def heard (app : ClientApp) : Answer :=
  if app.sessions.length < app.update.sessions.length then .session
  else .error app.update.currentError

/-- The moves of what is done on the screen on top. -/
def screenMoves (app : ClientApp) (input : FrameInput) : List DialogueEvent :=
  match app.ui.stack with
  | .connect :: _ => input.submissions.map Submission.move
  | .connecting _ :: _ =>
    -- after its answer the screen is there for the rest of the frame
    if input.cancel ∧ 0 < app.connectThreads + app.connectThreadSignal.count then [.cancel] else []
  | _ => []

/-- The moves of a step in the dialogue. -/
def moves (app : ClientApp) : AppEvent → List DialogueEvent
  | .update =>
    match app.ui.stack with
    | .connecting _ :: _ =>
      if 0 < app.connectThreadSignal.count then [.answer app.heard] else []
    | .chat _ :: _ => if 0 < app.connectionEndedSignal.count then [.sessionLost] else []
    | _ => []
  | .render input => app.screenMoves input ++ if input.okError then [.dismiss] else []
  | .connectThread outcome => [.finish outcome]
  | .connectionLost => if 0 < app.connectThreadSignal.count then [.lose] else []
  | _ => []

/-- The moves of a run, one step after the other. -/
def conversation : List AppEvent → ClientApp → List DialogueEvent
  | [], _ => []
  | l :: ls, app => app.moves l ++ match app.exec l with
    | some app' => conversation ls app'
    | none => []

/-- While an attempt goes on, the update of a frame requests nothing. -/
def Steady (app : ClientApp) (d : Dialogue) : Prop :=
  app.phase = .rendering → d.stage ≠ .idle → app.ui.opQueue = []

def InDialogue (app : ClientApp) (d : Dialogue) : Prop := app.Follows d ∧ app.Steady d

/-- After an attempt was started, the form is not submitted again. -/
def StartsLast : List Submission → Prop
  | [] => True
  | .started :: later => later = []
  | .failed _ :: later => StartsLast later

/-- A frame starts an attempt with its last submission, and no cancelled attempt was denied. -/
def Orderly (app : ClientApp) : AppEvent → Prop
  | .render input =>
    match app.ui.stack with
    | .connect :: _ => StartsLast input.submissions
    | _ => True
  | .update =>
    match app.ui.stack with
    | .connecting attempt :: _ => 0 < app.connectThreadSignal.count →
        app.cancelled[attempt]? = some true → app.connectThreadError = ""
    | _ => True
  | _ => True

variable {app app' : ClientApp} {d : Dialogue}

theorem follows_start : start.Follows .start := by
  refine ⟨rfl, rfl, rfl, rfl, rfl, rfl, trivial, fun attempt hmem => ?_⟩
  simp [start, DeferredStack.settled, DeferredStack.perform] at hmem

theorem Waits.congr {ui ui' : DeferredStack Screen} {cancelled : List Bool} {c : Option Bool}
    (h : Waits ui cancelled c) (hui : ui'.settled = ui.settled) : Waits ui' cancelled c := by
  cases c with
  | none =>
      rw [Waits, hui]
      exact h
  | some c =>
      rw [Waits, hui]
      exact h

/-- Nothing that the dialogue looks at has changed. -/
theorem Follows.congr (h : app.Follows d) (hui : app'.ui.settled = app.ui.settled)
    (hshown : app'.currentError = app.currentError)
    (hsessions : app'.sessions.length = app.sessions.length)
    (hthreads : app'.connectThreads = app.connectThreads)
    (hsignal : app'.connectThreadSignal = app.connectThreadSignal)
    (herror : app'.connectThreadError = app.connectThreadError)
    (hconnection : app'.connection = app.connection)
    (hcancelled : app'.cancelled = app.cancelled) : app'.Follows d where
  shown := hshown.trans h.shown
  sessions := hsessions.trans h.sessions
  threads := hthreads.trans h.threads
  signals := hsignal ▸ h.signals
  once := hsignal ▸ h.once
  error := herror.trans h.error
  connection := hconnection ▸ h.connection
  screen := hcancelled ▸ h.screen.congr hui

/-- The screen of an attempt that goes on. -/
theorem Follows.waits (h : app.Follows d) (hbusy : d.stage ≠ .idle) :
    ∃ c, Waits app.ui app.cancelled (some c) := by
  obtain ⟨-, c, hc⟩ := AttemptStage.goesOn_of_ne_idle hbusy
  exact ⟨c, hc ▸ h.screen⟩

/-- With no request, a screen on top that waits for no attempt says that there is none. -/
theorem Follows.idle_of_top (h : app.Follows d) (hsteady : d.stage ≠ .idle → app.ui.opQueue = [])
    (htop : ∀ attempt rest, app.ui.stack ≠ .connecting attempt :: rest) : d.stage = .idle := by
  by_contra hbusy
  obtain ⟨c, attempt, rest, hui, -, -⟩ := h.waits hbusy
  exact htop attempt rest (DeferredStack.settled_of_empty (hsteady hbusy) ▸ hui)

/-! ## The other threads -/

/-- A thread that ends finishes the attempt. -/
theorem Follows.connectThread (h : app.Follows d) (hthreads : 0 < app.connectThreads)
    (outcome : ConnectOutcome) :
    ∃ d', d.exec (.finish outcome) = some d' ∧ (app.connectThread outcome).Follows d' := by
  obtain ⟨hshown, hsessions, hcount, hsignals, honce, herror, -, hscreen⟩ := h
  rw [hcount] at hthreads
  cases hstage : d.stage with
  | idle =>
      rw [hstage] at hthreads
      cases hthreads
  | finished c _ =>
      rw [hstage] at hthreads
      cases hthreads
  | trying c =>
      rw [hstage] at hcount hsignals herror hscreen
      have hsound := (BinarySemaphore.Sound.mk (hsignals ▸ Nat.zero_le 1) honce).release hsignals
      have hup : app.connectThreadSignal.release.count = 1 := by
        rw [BinarySemaphore.count_release, hsignals]
        rfl
      have hleft : app.connectThreads - 1 = 0 := by
        rw [hcount]
        rfl
      refine ⟨{ d with stage := .finished c outcome }, by simp [Dialogue.exec, hstage], ?_⟩
      cases outcome with
      | acknowledged => exact ⟨hshown, hsessions, hleft, hup, hsound.notOver, herror, rfl, hscreen⟩
      | denied error => exact ⟨hshown, hsessions, hleft, hup, hsound.notOver, rfl, rfl, hscreen⟩
      | failed => exact ⟨hshown, hsessions, hleft, hup, hsound.notOver, herror, rfl, hscreen⟩

/-- The peer closes the connection that waits for its session. -/
theorem Follows.connectionLost (h : app.Follows d) : ∃ d', d.Path (app.moves .connectionLost) d' ∧
    (d'.stage ≠ .idle → d.stage ≠ .idle) ∧
    ({ app with connection := some false } : ClientApp).Follows d' := by
  obtain ⟨hshown, hsessions, hcount, hsignals, honce, herror, -, hscreen⟩ := h
  rw [moves, hsignals]
  cases hstage : d.stage with
  | idle =>
      refine ⟨d, .nil d, fun hbusy _ => hbusy hstage,
        ⟨hshown, hsessions, hcount, hsignals, honce, herror, ?_, hscreen⟩⟩
      rw [hstage]
      trivial
  | trying c =>
      refine ⟨d, .nil d, fun _ hidle => AttemptStage.noConfusion hidle,
        ⟨hshown, hsessions, hcount, hsignals, honce, herror, ?_, hscreen⟩⟩
      rw [hstage]
      rfl
  | finished c outcome =>
      rw [hstage] at hcount hsignals herror hscreen
      refine ⟨{ d with stage := .finished c outcome.lost },
        Dialogue.path_singleton trivial (by simp [Dialogue.exec, hstage]),
        fun _ hidle => AttemptStage.noConfusion hidle,
        ⟨hshown, hsessions, hcount, hsignals, honce, ?_, ?_, hscreen⟩⟩
      · cases outcome <;> exact herror
      · cases outcome <;> rfl

theorem Follows.background (h : app.Follows d) {l : AppEvent} (hl : background l = true)
    (hexec : app.exec l = some app') : ∃ d', d.Path (app.moves l) d' ∧
      (d'.stage ≠ .idle → d.stage ≠ .idle) ∧ app'.Follows d' := by
  cases l with
  | connectThread outcome =>
      obtain ⟨⟨hthreads, -⟩, happ'⟩ := Option.ite_none_right_eq_some.mp hexec
      obtain rfl := Option.some.inj happ'
      obtain ⟨d', hd', hfollows⟩ := h.connectThread hthreads outcome
      refine ⟨d', Dialogue.path_singleton trivial hd', fun _ hidle => ?_, hfollows⟩
      rw [h.threads, hidle] at hthreads
      cases hthreads
  | connectionLost =>
      obtain ⟨_, -, rfl⟩ := Option.map_eq_some_iff.mp hexec
      exact h.connectionLost
  | worker session outcome =>
      obtain ⟨c, -, -, hcases⟩ := workerStep_cases hexec
      have hlength := fun f => List.length_modify f app.sessions session
      rcases hcases with ⟨stage, -, rfl⟩ | ⟨how, -, rfl⟩ | ⟨signal, -, rfl⟩
      · exact ⟨d, .nil d, id, h.congr rfl rfl (hlength _) rfl rfl rfl rfl rfl⟩
      · exact ⟨d, .nil d, id, h.congr rfl rfl (hlength _) rfl rfl rfl rfl rfl⟩
      · exact ⟨d, .nil d, id, h.congr rfl rfl (hlength _) rfl rfl rfl rfl rfl⟩
  | peerCloses session =>
      obtain rfl := Option.some.inj hexec
      exact ⟨d, .nil d, id,
        h.congr rfl rfl (List.length_modify _ app.sessions session) rfl rfl rfl rfl rfl⟩
  | _ => cases hl

/-! ## The main loop -/

/-- What the user hears of an attempt that is over is its answer. -/
theorem Follows.told (h : app.Follows d) {attempt : Nat} {rest : List Screen}
    (happlied : app.ui.opQueue = []) (hstack : app.ui.stack = .connecting attempt :: rest)
    {c : Bool} {outcome : ConnectOutcome} (hstage : d.stage = .finished c outcome)
    (hnone : c = true → outcome.error = "") :
    app.heard = outcome.answer c ∧
      (app.connectingScreenUpdate attempt).Follows (d.hear (outcome.answer c)) := by
  obtain ⟨hshown, hsessions, hcount, hsignals, honce, herror, hconnection, hscreen⟩ := h
  rw [hstage] at hcount hsignals herror hconnection hscreen
  obtain ⟨top, below, hui, hcancelled, hother⟩ := hscreen
  obtain ⟨rfl, rfl⟩ : attempt = top ∧ rest = below := by
    rw [DeferredStack.settled_of_empty happlied, hstack] at hui
    cases hui
    exact ⟨rfl, rfl⟩
  have hup : 0 < app.connectThreadSignal.count := by
    rw [hsignals]
    exact Nat.one_pos
  obtain ⟨signal, htaken⟩ := BinarySemaphore.exists_tryAcquire hup
  obtain ⟨hsound, -, hdown⟩ :=
    (BinarySemaphore.Sound.mk (Nat.le_of_eq hsignals) honce).tryAcquire htaken
  have hpop : ∀ other, .connecting other ∉ app.ui.pop.settled := by
    intro other
    rw [DeferredStack.settled_pop, hui]
    exact hother other
  have hupdate : app.update = app.connectingScreenUpdate attempt := by
    rw [ClientApp.update, hstack]
  rw [heard, hupdate]
  simp only [connectingScreenUpdate, htaken, hcancelled, Option.some.injEq, ConnectOutcome.answer]
  cases c with
  | true =>
      refine ⟨if_neg (Nat.lt_irrefl _), rfl, hsessions, hcount, hdown, hsound.notOver, ?_,
        trivial, hpop⟩
      -- otherwise the server's reason would be left over
      exact herror.trans (hnone rfl)
  | false =>
      simp only [Bool.false_eq_true, if_false]
      have hack : app.connection = some outcome.isAcknowledged := hconnection
      have hreason : app.connectThreadError = outcome.error := herror
      rw [hack]
      cases houtcome : outcome.isAcknowledged with
      | true =>
          have hnothing : app.connectThreadError = "" := by
            rw [hreason]
            exact ConnectOutcome.error_of_acknowledged houtcome
          have hlength : (app.sessions ++ [Session.start]).length = d.sessions + 1 := by
            rw [List.length_append, hsessions]
            rfl
          have hmore : app.sessions.length < (app.sessions ++ [Session.start]).length := by
            rw [hlength, hsessions]
            exact Nat.lt_succ_self _
          simp only [if_true]
          refine ⟨if_pos hmore, hshown, hlength, hcount, hdown, hsound.notOver, hnothing, trivial,
            ?_⟩
          intro other hmem
          rw [DeferredStack.settled_push] at hmem
          exact (List.mem_cons.mp hmem).elim (fun h => Screen.noConfusion h) (hpop other)
      | false =>
          simp only [Option.some.injEq, Bool.false_eq_true, if_false, hreason]
          by_cases hread : outcome.error = ""
          · simp only [if_pos hread]
            exact ⟨if_neg (Nat.lt_irrefl _), rfl, hsessions, hcount, hdown, hsound.notOver,
              hread, trivial, hpop⟩
          · simp only [if_neg hread]
            exact ⟨if_neg (Nat.lt_irrefl _), rfl, hsessions, hcount, hdown, hsound.notOver,
              rfl, trivial, hpop⟩

/-- The screen of an attempt is updated: the user hears of it, if it is over. -/
theorem Follows.answered (h : app.Follows d) {attempt : Nat} {rest : List Screen}
    (happlied : app.ui.opQueue = []) (hstack : app.ui.stack = .connecting attempt :: rest)
    (horderly : app.Orderly .update) : ∃ d', d.Path (app.moves .update) d' ∧
      (app.connectingScreenUpdate attempt).Follows d' ∧
      (d'.stage ≠ .idle → (app.connectingScreenUpdate attempt).ui = app.ui) := by
  have hsettled := DeferredStack.settled_of_empty happlied
  have hscreen := h.screen
  have hsignals := h.signals
  have hmoves : app.moves .update
      = if 0 < app.connectThreadSignal.count then [.answer app.heard] else [] := by
    rw [moves, hstack]
  cases hstage : d.stage with
  | idle =>
      rw [hstage] at hscreen
      refine absurd ?_ (hscreen attempt)
      rw [hsettled, hstack]
      exact List.mem_cons_self
  | trying c =>
      rw [hstage] at hsignals
      have hdown : app.connectThreadSignal.tryAcquire = none := by
        rw [BinarySemaphore.tryAcquire, hsignals]
        rfl
      have hsame : app.connectingScreenUpdate attempt = app := by
        rw [connectingScreenUpdate, hdown]
      rw [hmoves, hsignals]
      exact ⟨d, .nil d, hsame.symm ▸ h, fun _ => congrArg ui hsame⟩
  | finished c outcome =>
      have herror := h.error
      rw [hstage] at hsignals hscreen herror
      have hup : 0 < app.connectThreadSignal.count := by
        rw [hsignals]
        exact Nat.one_pos
      have hnone : c = true → outcome.error = "" := by
        rintro rfl
        obtain ⟨top, below, hui, hcancelled, -⟩ := hscreen
        rw [hsettled, hstack] at hui
        obtain rfl := Screen.connecting.inj (List.cons.inj hui).1
        rw [Orderly, hstack] at horderly
        exact herror.symm.trans (horderly hup hcancelled)
      obtain ⟨hheard, hfollows⟩ := h.told happlied hstack hstage hnone
      rw [hmoves, if_pos hup, hheard]
      refine ⟨d.hear (outcome.answer c), Dialogue.path_singleton ?_ ?_, hfollows,
        fun hbusy => absurd (Dialogue.stage_hear d _) hbusy⟩
      · rintro other hother
        obtain ⟨hc, rfl⟩ := AttemptStage.finished.inj (hstage.symm.trans hother)
        exact hnone hc
      · simp [Dialogue.exec, hstage]

/-- A chat screen comes and goes without an attempt. -/
theorem Follows.pop (h : app.Follows d) (hidle : d.stage = .idle)
    (hui : app'.ui = app.ui.pop) (hshown : app'.currentError = app.currentError)
    (hsessions : app'.sessions.length = app.sessions.length)
    (hthreads : app'.connectThreads = app.connectThreads)
    (hsignal : app'.connectThreadSignal = app.connectThreadSignal)
    (herror : app'.connectThreadError = app.connectThreadError) : app'.Follows d where
  shown := hshown.trans h.shown
  sessions := hsessions.trans h.sessions
  threads := hthreads.trans h.threads
  signals := hsignal ▸ h.signals
  once := hsignal ▸ h.once
  error := herror.trans h.error
  connection := hidle ▸ trivial
  screen := by
    have hscreen := h.screen
    rw [hidle] at hscreen ⊢
    intro attempt hmem
    rw [hui, DeferredStack.settled_pop] at hmem
    exact hscreen attempt (List.mem_of_mem_tail hmem)

theorem Follows.shows (h : app.Follows d) (error : String) :
    ({ app with currentError := error } : ClientApp).Follows { d with error } :=
  ⟨rfl, h.sessions, h.threads, h.signals, h.once, h.error, h.connection, h.screen⟩

theorem Follows.update (h : app.Follows d) (happlied : app.ui.opQueue = []) (hseated : app.Seated)
    (horderly : app.Orderly .update) : ∃ d', d.Path (app.moves .update) d' ∧ app.update.Follows d' ∧
      (d'.stage ≠ .idle → app.update.ui = app.ui) := by
  rw [ClientApp.update]
  split
  · next attempt rest hstack => exact h.answered happlied hstack horderly
  · next session rest hstack =>
      have hmoves : app.moves .update
          = if 0 < app.connectionEndedSignal.count then [.sessionLost] else [] := by
        rw [moves, hstack]
      have hidle : d.stage = .idle := by
        refine h.idle_of_top (fun _ => happlied) fun attempt below htop => ?_
        rw [hstack] at htop
        cases htop
      rw [chatUpdate, hmoves]
      cases htaken : app.connectionEndedSignal.tryAcquire with
      | some signal =>
          have hopened : 0 < d.sessions := by
            rw [← h.sessions, ← hseated.last session (hstack ▸ List.mem_cons_self)]
            exact Nat.succ_pos session
          rw [if_pos (BinarySemaphore.pos_of_tryAcquire htaken)]
          refine ⟨_, Dialogue.path_singleton trivial (if_pos hopened), ?_,
            fun hbusy => absurd hidle hbusy⟩
          refine (h.shows "Connection to server lost.").pop hidle rfl rfl ?_ rfl rfl rfl
          exact List.length_modify _ app.sessions session
      | none =>
          rw [if_neg (BinarySemaphore.not_pos_of_tryAcquire htaken)]
          exact ⟨d, .nil d, h, fun _ => rfl⟩
  · next hchat hconnecting =>
      refine ⟨d, ?_, h, fun _ => rfl⟩
      rw [moves]
      split
      · next attempt rest hstack => exact absurd hstack (hchat attempt rest)
      · next session rest hstack => exact absurd hstack (hconnecting session rest)
      · exact .nil d

/-- Every submission but one that starts an attempt is refused. -/
theorem Follows.submit {submissions : List Submission} (h : app.Follows d)
    (hidle : d.stage = .idle) (hlast : StartsLast submissions) :
    ∃ d', d.Path (submissions.map Submission.move) d' ∧
      (submissions.foldl connectButton app).Follows d' := by
  induction submissions generalizing app d with
  | nil => exact ⟨d, .nil d, h⟩
  | cons submission later ih =>
      cases submission with
      | failed what =>
          have hexec : d.exec (.refuse what) = some { d with error := what } := by
            simp [Dialogue.exec, hidle]
          have hrefused : (app.connectButton (.failed what)).Follows { d with error := what } :=
            ⟨rfl, h.sessions, h.threads, h.signals, h.once, h.error, hidle ▸ trivial, h.screen⟩
          obtain ⟨d', hpath, hfollows⟩ := ih hrefused hidle hlast
          exact ⟨d', .cons trivial hexec hpath, hfollows⟩
      | started =>
          obtain ⟨hshown, hsessions, hthreads, hsignals, honce, herror, -, hscreen⟩ := h
          rw [hidle] at hthreads hsignals herror hscreen
          obtain rfl : later = [] := hlast
          have hexec : d.exec .begin = some { d with stage := .trying false } := by
            simp [Dialogue.exec, hidle]
          refine ⟨_, Dialogue.path_singleton trivial hexec,
            ⟨hshown, hsessions, congrArg (· + 1) hthreads, hsignals, honce, herror, rfl, ?_⟩⟩
          refine ⟨app.cancelled.length, app.ui.settled, DeferredStack.settled_push _ _, ?_, hscreen⟩
          exact List.getElem?_concat_length

/-- The screen of an attempt is rendered, and the user may cancel. -/
theorem Follows.cancel (h : app.Follows d) (hsteady : d.stage ≠ .idle → app.ui.opQueue = [])
    {attempt : Nat} {rest : List Screen} (hstack : app.ui.stack = .connecting attempt :: rest) :
    ∃ d', d.Path (if 0 < app.connectThreads + app.connectThreadSignal.count then [.cancel] else [])
        d' ∧
      ({ app with cancelled := app.cancelled.set attempt true } : ClientApp).Follows d' := by
  obtain ⟨hshown, hsessions, hthreads, hsignals, honce, herror, hconnection, hscreen⟩ := id h
  -- the screen on top is that of the attempt that goes on
  have hwaits : ∀ {c : Bool}, d.stage ≠ .idle → Waits app.ui app.cancelled (some c) →
      Waits app.ui (app.cancelled.set attempt true) (some true) := by
    rintro c hbusy ⟨top, below, hui, hcancelled, hother⟩
    have htop := hui
    rw [DeferredStack.settled_of_empty (hsteady hbusy), hstack] at htop
    obtain ⟨htop, -⟩ := List.cons.inj htop
    obtain rfl := Screen.connecting.inj htop
    refine ⟨attempt, below, hui, ?_, hother⟩
    rw [List.getElem?_set_self (List.getElem?_eq_some_iff.mp hcancelled).1]
  cases hstage : d.stage with
  | idle =>
      have hover : ¬ 0 < app.connectThreads + app.connectThreadSignal.count := by
        rw [hthreads, hsignals, hstage]
        exact Nat.lt_irrefl 0
      rw [if_neg hover]
      refine ⟨d, .nil d, hshown, hsessions, hthreads, hsignals, honce, herror, hconnection, ?_⟩
      rw [hstage] at hscreen ⊢
      exact hscreen
  | trying c =>
      have hbusy : d.stage ≠ .idle :=
        fun hidle => AttemptStage.noConfusion (hstage.symm.trans hidle)
      rw [hstage] at hthreads hsignals herror hconnection hscreen
      have hgoes : 0 < app.connectThreads + app.connectThreadSignal.count := by
        rw [hthreads, hsignals]
        exact Nat.one_pos
      rw [if_pos hgoes]
      exact ⟨{ d with stage := .trying true },
        Dialogue.path_singleton trivial (by simp [Dialogue.exec, hstage]),
        hshown, hsessions, hthreads, hsignals, honce, herror, hconnection, hwaits hbusy hscreen⟩
  | finished c outcome =>
      have hbusy : d.stage ≠ .idle :=
        fun hidle => AttemptStage.noConfusion (hstage.symm.trans hidle)
      rw [hstage] at hthreads hsignals herror hconnection hscreen
      have hgoes : 0 < app.connectThreads + app.connectThreadSignal.count := by
        rw [hthreads, hsignals]
        exact Nat.one_pos
      rw [if_pos hgoes]
      exact ⟨{ d with stage := .finished true outcome },
        Dialogue.path_singleton trivial (by simp [Dialogue.exec, hstage]),
        hshown, hsessions, hthreads, hsignals, honce, herror, hconnection, hwaits hbusy hscreen⟩

theorem Follows.renderScreen (h : app.Follows d)
    (hsteady : d.stage ≠ .idle → app.ui.opQueue = []) {input : FrameInput}
    (horderly : app.Orderly (.render input)) :
    ∃ d', d.Path (app.screenMoves input) d' ∧ (app.renderScreen input).Follows d' := by
  rw [ClientApp.renderScreen, screenMoves]
  rw [Orderly] at horderly
  cases hstack : app.ui.stack with
  | nil => exact ⟨d, .nil d, h⟩
  | cons top rest =>
      cases top with
      | connect =>
          simp only [hstack] at horderly
          refine h.submit (h.idle_of_top hsteady fun attempt below htop => ?_) horderly
          rw [hstack] at htop
          cases htop
      | connecting attempt =>
          obtain ⟨d', hpath, hfollows⟩ := h.cancel hsteady hstack
          cases hcancel : input.cancel with
          | true =>
              simp only [true_and, if_true]
              exact ⟨d', hpath, hfollows⟩
          | false =>
              simp only [Bool.false_eq_true, false_and, if_false]
              exact ⟨d, .nil d, h⟩
      | chat session =>
          refine ⟨d, .nil d, ?_⟩
          simp only
          split
          · have hidle : d.stage = .idle := by
              refine h.idle_of_top hsteady fun attempt below htop => ?_
              rw [hstack] at htop
              cases htop
            exact h.pop hidle rfl rfl (List.length_modify _ app.sessions session) rfl rfl rfl
          · exact h

/-- **One step of the client makes its moves in the dialogue.** -/
theorem Follows.exec (h : app.Follows d) (hsteady : app.Steady d) (hframed : app.Framed)
    (hseated : app.Seated) {l : AppEvent} (horderly : app.Orderly l)
    (hexec : app.exec l = some app') :
    ∃ d', d.Path (app.moves l) d' ∧ app'.Follows d' ∧ app'.Steady d' := by
  rcases exec_cases hexec with hl | ⟨rfl, -, rfl⟩ | ⟨rfl, hphase, rfl⟩ |
    ⟨input, rfl, hphase, rfl⟩ | ⟨rfl, -, rfl⟩
  · obtain ⟨d', hpath, hbusy, hfollows⟩ := h.background hl hexec
    obtain ⟨hui, hphase⟩ := exec_background hl hexec
    refine ⟨d', hpath, hfollows, fun hrendering hbusy' => ?_⟩
    rw [hui]
    exact hsteady (hphase ▸ hrendering) (hbusy hbusy')
  · refine ⟨d, .nil d, h.congr rfl rfl rfl rfl rfl rfl rfl rfl, fun hphase => ?_⟩
    cases hphase
  · have happlied := hframed.applied hphase
    obtain ⟨d', hpath, hfollows, hsame⟩ := h.update happlied hseated horderly
    refine ⟨d', hpath, hfollows.congr rfl rfl rfl rfl rfl rfl rfl rfl, fun _ hbusy => ?_⟩
    show app.update.ui.opQueue = []
    rw [hsame hbusy]
    exact happlied
  · obtain ⟨d', hpath, hfollows⟩ := h.renderScreen (hsteady hphase) horderly
    rw [renderError, moves]
    split
    · refine ⟨{ d' with error := "" }, hpath.append (Dialogue.path_singleton trivial rfl),
        (hfollows.shows "").congr rfl rfl rfl rfl rfl rfl rfl rfl, fun hphase => ?_⟩
      cases hphase
    · refine ⟨d', (List.append_nil (app.screenMoves input)).symm ▸ hpath,
        hfollows.congr rfl rfl rfl rfl rfl rfl rfl rfl, fun hphase => ?_⟩
      cases hphase
  · refine ⟨d, .nil d, h.congr rfl rfl rfl rfl rfl rfl rfl rfl, fun hphase => ?_⟩
    cases hphase

/-! ## The steps that are not orderly -/

/-- One attempt at a time. -/
structure Undisturbed (app : ClientApp) : Prop where
  alone : app.connectThreads + app.connectThreadSignal.count ≤ 1
  /-- The thread uses `connection` without looking whether there is one. -/
  connection : 0 < app.connectThreads → app.connection.isSome = true
  once : app.connectThreadSignal.overReleased = false
  /-- A screen waits for the thread, or for what it has signalled. -/
  waiting : (∃ attempt, .connecting attempt ∈ app.ui.settled) ↔
    0 < app.connectThreads + app.connectThreadSignal.count
  /-- Between two attempts no reason is kept. -/
  forgotten : app.connectThreads + app.connectThreadSignal.count = 0 →
    app.connectThreadError = ""

theorem Follows.undisturbed (h : app.Follows d) : app.Undisturbed := by
  have hcount : app.connectThreads + app.connectThreadSignal.count
      = d.stage.threads + d.stage.signals := by
    rw [h.threads, h.signals]
  have hconnection : 0 < app.connectThreads → app.connection.isSome = true := by
    rw [h.threads]
    exact h.connection.isSome
  by_cases hidle : d.stage = .idle
  · have herror := h.error
    have hscreen := h.screen
    rw [hidle] at hcount herror hscreen
    refine ⟨?_, hconnection, h.once, ?_, fun _ => herror⟩
    · rw [hcount]
      exact Nat.zero_le 1
    · rw [hcount]
      exact iff_of_false (fun ⟨attempt, hmem⟩ => hscreen attempt hmem) (Nat.lt_irrefl 0)
  · obtain ⟨c, attempt, rest, hui, -, -⟩ := h.waits hidle
    rw [(AttemptStage.goesOn_of_ne_idle hidle).1] at hcount
    refine ⟨Nat.le_of_eq hcount, hconnection, h.once, ?_, fun hzero => ?_⟩
    · rw [hcount]
      exact iff_of_true ⟨attempt, hui ▸ List.mem_cons_self⟩ Nat.one_pos
    · cases hcount.symm.trans hzero

/-- After a second submission there are two threads, or the one has no connection. -/
theorem crowded_connectButton {later : List Submission} (hlater : later ≠ [])
    (hthreads : 0 < app.connectThreads) :
    2 ≤ (later.foldl connectButton app).connectThreads ∨
      (0 < (later.foldl connectButton app).connectThreads ∧
        (later.foldl connectButton app).connection = none) := by
  induction later generalizing app with
  | nil => exact absurd rfl hlater
  | cons submission later ih =>
      have hmore : 0 < (app.connectButton submission).connectThreads := by
        cases submission with
        | started => exact Nat.succ_pos _
        | failed what => exact hthreads
      cases later with
      | nil =>
          cases submission with
          | started => exact .inl (Nat.succ_le_succ hthreads)
          | failed what => exact .inr ⟨hthreads, rfl⟩
      | cons next later => exact ih (List.cons_ne_nil next later) hmore

theorem crowded_submissions (app : ClientApp) {submissions : List Submission}
    (hnot : ¬ StartsLast submissions) :
    2 ≤ (submissions.foldl connectButton app).connectThreads ∨
      (0 < (submissions.foldl connectButton app).connectThreads ∧
        (submissions.foldl connectButton app).connection = none) := by
  induction submissions generalizing app with
  | nil => exact absurd trivial hnot
  | cons submission later ih =>
      cases submission with
      | failed what => exact ih _ hnot
      | started =>
          have hlater : later ≠ [] := hnot
          rw [List.foldl_cons]
          exact crowded_connectButton hlater (Nat.succ_pos _)

theorem not_undisturbed_of_crowded (h : 2 ≤ app.connectThreads ∨
    (0 < app.connectThreads ∧ app.connection = none)) : ¬ app.Undisturbed := by
  intro hundisturbed
  rcases h with htwo | ⟨hthreads, hnone⟩
  · have halone := hundisturbed.alone
    omega
  · have hconnection := hundisturbed.connection hthreads
    rw [hnone] at hconnection
    cases hconnection

/-- What is left over of an attempt that was cancelled and denied. -/
theorem leftOver_of_update (h : app.Follows d) {attempt : Nat} {rest : List Screen}
    (hstack : app.ui.stack = .connecting attempt :: rest)
    (hup : 0 < app.connectThreadSignal.count) (hcancelled : app.cancelled[attempt]? = some true)
    (hreason : app.connectThreadError ≠ "") : ¬ app.update.Undisturbed := by
  intro hundisturbed
  have halone := h.undisturbed.alone
  obtain ⟨signal, htaken⟩ := BinarySemaphore.exists_tryAcquire hup
  obtain ⟨-, hone, hdown⟩ := (BinarySemaphore.Sound.mk (by omega) h.once).tryAcquire htaken
  have hupdate : app.update = { app with
      connectThreadSignal := signal
      ui := app.ui.pop
      connection := none
      currentError := "Connection cancelled." } := by
    rw [ClientApp.update, hstack]
    simp only [connectingScreenUpdate, htaken, if_pos hcancelled]
  rw [hupdate] at hundisturbed
  refine hreason (hundisturbed.forgotten ?_)
  show app.connectThreads + signal.count = 0
  omega

/-- **Every step that is not orderly disturbs an attempt.** -/
theorem disturbs_of_not_orderly (h : app.Follows d) {l : AppEvent} (hnot : ¬ app.Orderly l)
    (hexec : app.exec l = some app') : ¬ app'.Undisturbed := by
  cases l with
  | render input =>
      obtain ⟨-, happ'⟩ := Option.ite_none_right_eq_some.mp hexec
      obtain rfl := Option.some.inj happ'
      rw [Orderly] at hnot
      split at hnot
      · next rest hstack =>
          have hrender : app.renderScreen input = input.submissions.foldl connectButton app := by
            rw [renderScreen, hstack]
          have hcrowded := crowded_submissions app hnot
          rw [← hrender] at hcrowded
          refine not_undisturbed_of_crowded ?_
          rw [renderError]
          split <;> exact hcrowded
      · exact absurd trivial hnot
  | update =>
      obtain ⟨-, happ'⟩ := Option.ite_none_right_eq_some.mp hexec
      obtain rfl := Option.some.inj happ'
      rw [Orderly] at hnot
      split at hnot
      · next attempt rest hstack =>
          simp only [Classical.not_imp] at hnot
          obtain ⟨hup, hcancelled, hreason⟩ := hnot
          intro hundisturbed
          refine leftOver_of_update h hstack hup hcancelled hreason ?_
          exact ⟨hundisturbed.alone, hundisturbed.connection, hundisturbed.once,
            hundisturbed.waiting, hundisturbed.forgotten⟩
      · exact absurd trivial hnot
  | _ => exact absurd trivial hnot

end ClientApp

variable {app : ClientApp}

theorem inDialogue_start : ClientApp.start.InDialogue .start := by
  refine ⟨ClientApp.follows_start, fun hphase => ?_⟩
  cases hphase

theorem inDialogue_of_reachable (h : clientSystem.Reachable ClientApp.Orderly app) :
    ∃ d, app.InDialogue d := by
  refine h.invariant ?_ ?_
  · rintro app rfl
    exact ⟨.start, inDialogue_start⟩
  · rintro app l app' hreached ⟨d, hfollows, hsteady⟩ horderly hexec
    obtain ⟨d', -, hd'⟩ := hfollows.exec hsteady (framed_of_reachable hreached)
      (seated_of_reachable hreached) horderly hexec
    exact ⟨d', hd'⟩

/-- Only a thread that ends makes an attempt end. -/
theorem ended_moves (app : ClientApp) (l : AppEvent) :
    (app.moves l).filterMap DialogueEvent.ended = l.ended.toList := by
  cases l with
  | update =>
      rw [ClientApp.moves]
      split
      · split <;> rfl
      · split <;> rfl
      · rfl
  | render input =>
      have hsubmit : ∀ submissions : List Submission,
          (submissions.map Submission.move).filterMap DialogueEvent.ended = [] := by
        intro submissions
        rw [List.filterMap_map, List.filterMap_eq_nil_iff]
        rintro (_ | what) - <;> rfl
      have hscreen : (app.screenMoves input).filterMap DialogueEvent.ended = [] := by
        rw [ClientApp.screenMoves]
        split
        · exact hsubmit _
        · split <;> rfl
        · rfl
      rw [ClientApp.moves, List.filterMap_append, hscreen]
      split <;> rfl
  | connectionLost =>
      rw [ClientApp.moves]
      split <;> rfl
  | _ => rfl

/-- The attempts of the dialogue end as the threads do. -/
theorem ended_conversation {app' : ClientApp} {ls : List AppEvent}
    (h : clientSystem.Path ClientApp.Orderly app ls app') :
    (app.conversation ls).filterMap DialogueEvent.ended = ls.filterMap AppEvent.ended := by
  induction h with
  | nil app => rfl
  | @cons app mid app' l ls _ hexec _ ih =>
      rw [ClientApp.conversation, show app.exec l = some mid from hexec, List.filterMap_append, ih,
        ended_moves, filterMap_cons_toList]

/-- The moves of a run are a dialogue. -/
theorem conversation_of_path {app' : ClientApp} {ls : List AppEvent}
    (h : clientSystem.Path ClientApp.Orderly app ls app') :
    clientSystem.Reachable ClientApp.Orderly app → ∀ {d : Dialogue}, app.InDialogue d →
      ∃ d', d.Path (app.conversation ls) d' ∧ app'.InDialogue d' := by
  induction h with
  | nil app => exact fun _ {d} hd => ⟨d, .nil d, hd⟩
  | @cons app mid app' l ls horderly hexec _ ih =>
      rintro hreached d ⟨hfollows, hsteady⟩
      obtain ⟨middle, hpath, hmiddle⟩ := hfollows.exec hsteady (framed_of_reachable hreached)
        (seated_of_reachable hreached) horderly hexec
      obtain ⟨d', hrest, hd'⟩ := ih (hreached.step l horderly hexec) hmiddle
      refine ⟨d', ?_, hd'⟩
      rw [ClientApp.conversation, show app.exec l = some mid from hexec]
      exact hpath.append hrest

/-- **What the user hears of an attempt is how it has ended.**  In every run in which an
attempt is the last thing a frame submits and no attempt that the server denies is cancelled,
the moves of its steps are a dialogue that leads to what is shown.  Every attempt that was begun
ends once, unless its thread still runs; the ends are told of in their order, each once and
with its own reason, unless the last still waits for its screen. -/
theorem attempts_refine {ls : List AppEvent}
    (h : clientSystem.Path ClientApp.Orderly .start ls app) :
    ∃ d, Dialogue.start.Path (ClientApp.start.conversation ls) d ∧ app.Follows d ∧
      (ClientApp.start.conversation ls).countP DialogueEvent.begins
        = (ls.filterMap AppEvent.ended).length + app.connectThreads ∧
      ∃ told waiting, ls.filterMap AppEvent.ended = told ++ waiting ∧
        waiting.length = app.connectThreadSignal.count ∧
        List.Forall₂ ConnectOutcome.IsTold told
          ((ClientApp.start.conversation ls).filterMap DialogueEvent.answered) := by
  obtain ⟨d, hpath, hfollows, -⟩ := conversation_of_path h (.init rfl) inDialogue_start
  have hended := ended_conversation h
  refine ⟨d, hpath, hfollows, ?_, ?_⟩
  · have hbegun := Dialogue.begun_of_path hpath
    rw [hended] at hbegun
    rw [hfollows.threads, ← hbegun]
    exact (Nat.zero_add _).symm
  · have hnone : Dialogue.start.stage.Awaits [] := rfl
    obtain ⟨told, waiting, hall, htold, hwaiting⟩ := Dialogue.told_of_path hpath hnone
    rw [List.nil_append, hended] at hall
    exact ⟨told, waiting, hall, hwaiting.length.trans hfollows.signals.symm, htold⟩

/-- **Exactly the orderly steps keep attempts apart.** -/
theorem attempts_undisturbed (h : clientSystem.Reachable ClientApp.Orderly app) :
    app.Undisturbed ∧
      ∀ l app', app.exec l = some app' → (app'.Undisturbed ↔ app.Orderly l) := by
  obtain ⟨d, hfollows, hsteady⟩ := inDialogue_of_reachable h
  refine ⟨hfollows.undisturbed, fun l app' hexec => ⟨fun hundisturbed => ?_, fun horderly => ?_⟩⟩
  · by_contra hnot
    exact ClientApp.disturbs_of_not_orderly hfollows hnot hexec hundisturbed
  · obtain ⟨d', -, hfollows', -⟩ := hfollows.exec hsteady (framed_of_reachable h)
      (seated_of_reachable h) horderly hexec
    exact hfollows'.undisturbed

/-! ## Some runs -/

instance decStartsLast : (submissions : List Submission) →
    Decidable (ClientApp.StartsLast submissions)
  | [] => .isTrue trivial
  | .started :: later => inferInstanceAs (Decidable (later = []))
  | .failed _ :: later => decStartsLast later

instance (app : ClientApp) : (l : AppEvent) → Decidable (app.Orderly l)
  | .render input =>
    show Decidable (match app.ui.stack with | .connect :: _ => _ | _ => True) from
      match app.ui.stack with
      | .connect :: _ => decStartsLast input.submissions
      | [] | .connecting _ :: _ | .chat _ :: _ => .isTrue trivial
  | .update =>
    show Decidable (match app.ui.stack with | .connecting _ :: _ => _ | _ => True) from
      match app.ui.stack with
      | .connecting _ :: _ => inferInstanceAs (Decidable (_ → _ → _))
      | [] | .connect :: _ | .chat _ :: _ => .isTrue trivial
  | .applyRequests | .quit | .connectThread _ | .connectionLost | .worker _ _
  | .peerCloses _ => .isTrue trivial

/-- An attempt, from the connect button on. -/
def attemptOnce (outcome : ConnectOutcome) : List AppEvent :=
  [.applyRequests, .update, .render { FrameInput.idle with submissions := [.started] },
    .applyRequests, .update, .connectThread outcome]

/-- Its screen is left. -/
def leaveScreen (input : FrameInput) : List AppEvent :=
  [.render input, .applyRequests, .update, .render .idle]

/-- The server is full, and the user hears so. -/
theorem attempts_refine_denied : ∃ (app : ClientApp) (d : Dialogue),
    Dialogue.start.Path [.begin, .finish (.denied "Too many connections."),
      .answer (.error "Too many connections.")] d ∧
    app.Follows d ∧ app.currentError = "Too many connections." := by
  obtain ⟨app, hrun, htest⟩ := (Option.any_eq_true _ _).mp
    (show (LabelledSystem.execute ClientApp.Orderly ClientApp.exec
      (attemptOnce (.denied "Too many connections.") ++ leaveScreen .idle) .start).any
      (fun app => app.currentError = "Too many connections.") = true by decide +kernel)
  have hpath : clientSystem.Path ClientApp.Orderly .start
      (attemptOnce (.denied "Too many connections.") ++ leaveScreen .idle) app :=
    LabelledSystem.Path.of_execute (fun _ _ _ h => h) hrun
  obtain ⟨d, hd, hfollows, -⟩ := attempts_refine hpath
  have hmoves : ClientApp.start.conversation
      (attemptOnce (.denied "Too many connections.") ++ leaveScreen .idle)
        = [.begin, .finish (.denied "Too many connections."),
          .answer (.error "Too many connections.")] := by decide +kernel
  rw [hmoves] at hd
  exact ⟨app, d, hd, hfollows, of_decide_eq_true htest⟩

/-- The first attempt was cancelled, and the second is over. -/
theorem attempts_undisturbed_second : ∃ app : ClientApp,
    app.cancelled = [true, false] ∧ app.connectThreadSignal.count = 1 ∧ app.Undisturbed := by
  obtain ⟨app, happ, htest⟩ := clientSystem.exists_of_execute ClientApp.Orderly
    (fun _ _ _ h => h) rfl
    (attemptOnce .failed ++ leaveScreen { FrameInput.idle with cancel := true } ++
      attemptOnce .acknowledged)
    (fun app => app.cancelled = [true, false] ∧ app.connectThreadSignal.count = 1)
    (by decide +kernel)
  obtain ⟨hcancelled, hsignal⟩ := of_decide_eq_true htest
  exact ⟨app, hcancelled, hsignal, (attempts_undisturbed happ).1⟩

/-- **Attempts disturb each other.**  Two threads share a connection, or a thread has none, or
an attempt that nobody answered is said to have been denied. -/
theorem attempts_disturbed :
    (∃ app : ClientApp, clientSystem.Reachable LabelledSystem.anyStep app ∧
      app.connectThreads = 2) ∧
    (∃ app : ClientApp, clientSystem.Reachable LabelledSystem.anyStep app ∧
      app.connectThreads = 1 ∧ app.connection = none) ∧
    ∃ app : ClientApp, clientSystem.Reachable LabelledSystem.anyStep app ∧
      app.connectThreads = 1 ∧
      (app.connectThread .failed).update.currentError = "Too many connections." := by
  refine ⟨?_, ?_, ?_⟩
  · obtain ⟨app, happ, htest⟩ := clientSystem.exists_of_execute LabelledSystem.anyStep
      (fun _ _ _ h => h) rfl
      [.applyRequests, .update,
        .render { FrameInput.idle with submissions := [.started, .started] }]
      (fun app => app.connectThreads = 2) (by decide +kernel)
    exact ⟨app, happ, of_decide_eq_true htest⟩
  · obtain ⟨app, happ, htest⟩ := clientSystem.exists_of_execute LabelledSystem.anyStep
      (fun _ _ _ h => h) rfl
      [.applyRequests, .update,
        .render { FrameInput.idle with submissions := [.started, .failed "stoi"] }]
      (fun app => app.connectThreads = 1 ∧ app.connection = none) (by decide +kernel)
    exact ⟨app, happ, of_decide_eq_true htest⟩
  · obtain ⟨app, happ, htest⟩ := clientSystem.exists_of_execute LabelledSystem.anyStep
      (fun _ _ _ h => h) rfl
      (attemptOnce (.denied "Too many connections.") ++
        leaveScreen { FrameInput.idle with cancel := true } ++
        (attemptOnce .failed).take 4)
      (fun app => app.connectThreads = 1 ∧
        (app.connectThread .failed).update.currentError = "Too many connections.")
      (by decide +kernel)
    exact ⟨app, happ, of_decide_eq_true htest⟩

end Tavernmx.Client
