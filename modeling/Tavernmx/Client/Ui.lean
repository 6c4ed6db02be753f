/-
# `Tavernmx.Client.Ui` — screens, sessions and signals

The client as its threads see it.  The main loop draws one frame after another: a
frame applies the requests to push and pop screens, updates the screen on top, and
renders it.  Connect threads, the workers of the sessions and the peers act at any
moment between these three.

    starting ──applyRequests──▸ updating ──update──▸ rendering ──render──▸ rendered
                                   ▴                                        │   │
                                   └──────────────applyRequests─────────────┘  quit

The UI talks to the other threads through three semaphores.  They are variables of
the whole process, and nothing ever resets them.

A screen is known by its kind and its number; what it holds is kept with the state.
The messages a chat screen handles while nothing ends the connection are left to
`Tavernmx.Client.ChatWindow`: they push and pop no screen and touch no signal.
-/
import Tavernmx.Lib.DeferredStack
import Tavernmx.Lib.Runs
import Tavernmx.Lib.Semaphore

namespace Tavernmx.Client

inductive Screen where
  | connect
  /-- The `ConnectingUiScreen` of an attempt. -/
  | connecting (attempt : Nat)
  /-- The `ChatWindowScreen` of a session. -/
  | chat (session : Nat)
  deriving DecidableEq, Repr

def Screen.isChat : Screen → Bool
  | .chat _ => true
  | _ => false

/-- How `server_message_worker` ends. -/
inductive WorkerEnd where
  /-- "Connection worker shutting down by request." -/
  | byRequest
  | loopEnded
  | caught
  deriving DecidableEq, Repr

/-- Where `server_message_worker` is: before the request for the rooms, at the condition
of its loop, at `shutdown_connection_signal`, or at what comes after it. -/
inductive WorkerStage where
  | greeting
  | condition
  | polling
  | working
  | ended (how : WorkerEnd)
  deriving DecidableEq, Repr

/-- A chat screen and the worker that was started with it. -/
structure Session where
  windowOpen : Bool
  reportedLost : Bool
  connected : Bool
  worker : WorkerStage
  deriving DecidableEq, Repr

def Session.start : Session := ⟨true, false, true, .greeting⟩

/-- The chat screen has asked to be popped. -/
def Session.gone (session : Session) : Bool := !session.windowOpen || session.reportedLost

def Session.ended (session : Session) : Bool :=
  match session.worker with
  | .ended _ => true
  | _ => false

inductive Phase where
  | starting
  | updating
  | rendering
  | rendered
  /-- The main loop is over. -/
  | done
  deriving DecidableEq, Repr

structure ClientApp where
  /-- `screen_stack` and `op_queue`. -/
  ui : DeferredStack Screen
  phase : Phase
  currentError : String
  /-- Of each `ConnectingUiScreen`, whether it was cancelled. -/
  cancelled : List Bool
  /-- The connection that waits for its session, and whether it is connected. -/
  connection : Option Bool
  connectThreads : Nat
  connectThreadError : String
  connectThreadSignal : BinarySemaphore
  connectionEndedSignal : BinarySemaphore
  shutdownConnectionSignal : BinarySemaphore
  sessions : List Session

/-- What comes of a `MSG_CONNECT_BUTTON`: a thread is started, or an exception is caught. -/
inductive Submission where
  | started
  | failed (what : String)

/-- What the user does in a frame.  A field or the button may submit. -/
structure FrameInput where
  submissions : List Submission
  cancel : Bool
  close : Bool
  okError : Bool

/-- How a connect thread ends. -/
inductive ConnectOutcome where
  | acknowledged
  | denied (error : String)
  /-- No answer to the HELLO, or an exception. -/
  | failed
  deriving DecidableEq

/-- How the calls between two looks at the signal go. -/
inductive LoopOutcome where
  | succeeds
  /-- A heartbeat was not answered. -/
  | quiet
  | fails
  deriving DecidableEq

inductive AppEvent where
  | applyRequests
  | update
  | render (input : FrameInput)
  | quit
  | connectThread (outcome : ConnectOutcome)
  /-- The peer closes the connection that waits for its session. -/
  | connectionLost
  | worker (session : Nat) (outcome : LoopOutcome)
  /-- The peer closes a session's connection. -/
  | peerCloses (session : Nat)

namespace ClientApp

/-- `main` before its first frame. -/
def start : ClientApp :=
  ⟨⟨[], [.push .connect]⟩, .starting, "", [], none, 0, "", .create, .create, .create, []⟩

def isOpen (session : Nat) (app : ClientApp) : Bool :=
  app.sessions[session]?.any (·.windowOpen)

def setSession (session : Nat) (f : Session → Session) (app : ClientApp) : ClientApp :=
  { app with sessions := app.sessions.modify session f }

/-- The attempt of the connecting screen on top has led to a connection, and its update
is about to start a session. -/
def startsSession (app : ClientApp) : Bool :=
  match app.ui.stack with
  | .connecting attempt :: _ =>
    decide (0 < app.connectThreadSignal.count) && decide (app.cancelled[attempt]? ≠ some true) &&
      decide (app.connection = some true)
  | _ => false

/-! ## The UI thread -/

/-- The handler of `MSG_CONNECT_BUTTON`. -/
def connectButton (app : ClientApp) : Submission → ClientApp
  | .started =>
    { app with
      connection := some false
      connectThreads := app.connectThreads + 1
      cancelled := app.cancelled ++ [false]
      ui := app.ui.push (.connecting app.cancelled.length) }
  | .failed what => { app with connection := none, currentError := what }

/-- `connecting_screen_update`. -/
def connectingScreenUpdate (attempt : Nat) (app : ClientApp) : ClientApp :=
  match app.connectThreadSignal.tryAcquire with
  | none => app
  | some signal =>
    let app := { app with connectThreadSignal := signal, ui := app.ui.pop }
    if app.cancelled[attempt]? = some true then
      { app with connection := none, currentError := "Connection cancelled." }
    else if app.connection = some true then
      -- `chat_window_worker` takes the connection and starts the session's worker
      { app with
        connection := none
        sessions := app.sessions ++ [.start]
        ui := app.ui.push (.chat app.sessions.length) }
    else if app.connectThreadError = "" then
      { app with currentError := "Unable to connect to server." }
    else { app with currentError := app.connectThreadError, connectThreadError := "" }

/-- The handler of `MSG_UPDATE` of a chat screen. -/
def chatUpdate (session : Nat) (app : ClientApp) : ClientApp :=
  match app.connectionEndedSignal.tryAcquire with
  | some signal =>
    { app with
      connectionEndedSignal := signal
      ui := app.ui.pop
      currentError := "Connection to server lost."
      sessions := app.sessions.modify session fun c => { c with reportedLost := true } }
  | none => app

/-- The screen on top is updated. -/
def update (app : ClientApp) : ClientApp :=
  match app.ui.stack with
  | .connecting attempt :: _ => app.connectingScreenUpdate attempt
  | .chat session :: _ => app.chatUpdate session
  | _ => app

/-- The handler of `MSG_CHAT_CLOSED`, when the window was closed in this frame. -/
def chatClosed (session : Nat) (app : ClientApp) : ClientApp :=
  { app with
    ui := app.ui.pop
    shutdownConnectionSignal := app.shutdownConnectionSignal.release
    sessions := app.sessions.modify session fun c => { c with windowOpen := false } }

/-- The screen on top is rendered, and its handlers are called. -/
def renderScreen (input : FrameInput) (app : ClientApp) : ClientApp :=
  match app.ui.stack with
  | .connect :: _ => input.submissions.foldl connectButton app
  | .connecting attempt :: _ =>
    if input.cancel then { app with cancelled := app.cancelled.set attempt true } else app
  | .chat session :: _ =>
    if app.isOpen session && input.close then app.chatClosed session else app
  | [] => app

/-- The error dialog, if there is something to show. -/
def renderError (input : FrameInput) (app : ClientApp) : ClientApp :=
  if input.okError then { app with currentError := "" } else app

/-! ## The other threads -/

/-- What a connect thread does to `connection`, and the release of its signal. -/
def connectThread (app : ClientApp) : ConnectOutcome → ClientApp
  | .acknowledged =>
    { app with
      connection := some true
      connectThreads := app.connectThreads - 1
      connectThreadSignal := app.connectThreadSignal.release }
  | .denied error =>
    { app with
      connection := some false
      connectThreadError := error
      connectThreads := app.connectThreads - 1
      connectThreadSignal := app.connectThreadSignal.release }
  | .failed =>
    { app with
      connection := some false
      connectThreads := app.connectThreads - 1
      connectThreadSignal := app.connectThreadSignal.release }

def setWorker (session : Nat) (stage : WorkerStage) (app : ClientApp) : ClientApp :=
  app.setSession session fun c => { c with worker := stage }

/-- The worker ends by itself. -/
def endWorker (session : Nat) (how : WorkerEnd) (app : ClientApp) : ClientApp :=
  { app.setWorker session (.ended how) with
    connectionEndedSignal := app.connectionEndedSignal.release }

/-- The worker has taken `shutdown_connection_signal`. -/
def shutDownWorker (session : Nat) (signal : BinarySemaphore) (app : ClientApp) : ClientApp :=
  { app.setSession session fun c => { c with worker := .ended .byRequest, connected := false } with
    shutdownConnectionSignal := signal }

/-- `server_message_worker` goes on to its next stage. -/
def workerStep (session : Nat) (outcome : LoopOutcome) (app : ClientApp) : Option ClientApp :=
  app.sessions[session]?.bind fun c =>
    match c.worker with
    | .greeting =>
      if c.connected && outcome = .succeeds then some (app.setWorker session .condition)
      else some (app.endWorker session .caught)
    | .condition =>
      if c.connected then some (app.setWorker session .polling)
      else some (app.endWorker session .loopEnded)
    | .polling =>
      match app.shutdownConnectionSignal.tryAcquire with
      | some signal => some (app.shutDownWorker session signal)
      | none => some (app.setWorker session .working)
    | .working =>
      if c.connected && outcome = .succeeds then some (app.setWorker session .condition)
      else if c.connected && outcome = .quiet then some (app.endWorker session .loopEnded)
      else some (app.endWorker session .caught)
    | .ended _ => none

def exec (app : ClientApp) : AppEvent → Option ClientApp
  | .applyRequests =>
    if app.phase = .starting ∨ app.phase = .rendered then
      some { app with phase := .updating, ui := app.ui.apply }
    else none
  | .update => if app.phase = .updating then some { app.update with phase := .rendering } else none
  | .render input =>
    if app.phase = .rendering then
      some { (app.renderScreen input).renderError input with phase := .rendered }
    else none
  | .quit =>
    if app.phase = .rendered then
      some { app with
        phase := .done
        shutdownConnectionSignal := app.shutdownConnectionSignal.release }
    else none
  | .connectThread outcome =>
    -- the threads use `connection` without looking whether there is one
    if 0 < app.connectThreads ∧ app.connection.isSome then some (app.connectThread outcome)
    else none
  | .connectionLost => app.connection.map fun _ => { app with connection := some false }
  | .worker session outcome => app.workerStep session outcome
  | .peerCloses session => some (app.setSession session fun c => { c with connected := false })

end ClientApp

/-! ## What the steps can do -/

/-- A session after one session was changed. -/
theorem exists_of_getElem?_modify {sessions : List Session} {f : Session → Session}
    {session other : Nat} {c' : Session} (h : (sessions.modify session f)[other]? = some c') :
    ∃ c, sessions[other]? = some c ∧ c' = if session = other then f c else c := by
  rw [List.getElem?_modify] at h
  obtain ⟨c, hc, rfl⟩ := Option.map_eq_some_iff.mp h
  refine ⟨c, hc, ?_⟩
  split <;> rfl

namespace ClientApp

variable {app app' : ClientApp}

@[simp] theorem renderError_ui (input : FrameInput) (app : ClientApp) :
    (app.renderError input).ui = app.ui := by
  rw [renderError]
  split <;> rfl

@[simp] theorem renderError_sessions (input : FrameInput) (app : ClientApp) :
    (app.renderError input).sessions = app.sessions := by
  rw [renderError]
  split <;> rfl

@[simp] theorem renderError_signals (input : FrameInput) (app : ClientApp) :
    (app.renderError input).connectionEndedSignal = app.connectionEndedSignal ∧
      (app.renderError input).shutdownConnectionSignal = app.shutdownConnectionSignal := by
  rw [renderError]
  split <;> exact ⟨rfl, rfl⟩

/-- The update of a connecting screen does nothing, or pops it, or puts a session in
its place. -/
theorem connectingScreenUpdate_cases {attempt : Nat} {rest : List Screen} {app : ClientApp}
    (hstack : app.ui.stack = .connecting attempt :: rest) :
    let app' := app.connectingScreenUpdate attempt
    app'.connectionEndedSignal = app.connectionEndedSignal ∧
    app'.shutdownConnectionSignal = app.shutdownConnectionSignal ∧
    ((app'.ui = app.ui ∧ app'.sessions = app.sessions) ∨
      (app'.ui = app.ui.pop ∧ app'.sessions = app.sessions) ∨
      (app.startsSession = true ∧ app'.ui = app.ui.pop.push (.chat app.sessions.length) ∧
        app'.sessions = app.sessions ++ [.start])) := by
  simp only [connectingScreenUpdate]
  split
  · exact ⟨rfl, rfl, .inl ⟨rfl, rfl⟩⟩
  · next signal htaken =>
      split
      · exact ⟨rfl, rfl, .inr (.inl ⟨rfl, rfl⟩)⟩
      · next hcancelled =>
          split
          · next hconnected =>
              refine ⟨rfl, rfl, .inr (.inr ⟨?_, rfl, rfl⟩)⟩
              rw [BinarySemaphore.tryAcquire, Option.ite_none_right_eq_some] at htaken
              simp [startsSession, hstack, htaken.1, hcancelled, hconnected]
          · split
            · exact ⟨rfl, rfl, .inr (.inl ⟨rfl, rfl⟩)⟩
            · exact ⟨rfl, rfl, .inr (.inl ⟨rfl, rfl⟩)⟩

theorem update_phase (app : ClientApp) : app.update.phase = app.phase := by
  rw [update]
  split
  · rw [connectingScreenUpdate]
    split
    · rfl
    · simp only
      split <;> [rfl; skip]
      split <;> [rfl; skip]
      split <;> rfl
  · rw [chatUpdate]
    split <;> rfl
  · rfl

/-- Submitting leaves the sessions and their signals alone. -/
theorem connectButton_keeps (submissions : List Submission) (app : ClientApp) :
    (submissions.foldl connectButton app).sessions = app.sessions ∧
    (submissions.foldl connectButton app).connectionEndedSignal = app.connectionEndedSignal ∧
    (submissions.foldl connectButton app).shutdownConnectionSignal
      = app.shutdownConnectionSignal ∧
    (submissions.foldl connectButton app).phase = app.phase := by
  induction submissions generalizing app with
  | nil => exact ⟨rfl, rfl, rfl, rfl⟩
  | cons submission submissions ih =>
      cases submission with
      | started => exact ih _
      | failed what => exact ih _

theorem renderScreen_phase (input : FrameInput) (app : ClientApp) :
    (app.renderScreen input).phase = app.phase := by
  rw [renderScreen]
  split
  · exact (connectButton_keeps input.submissions app).2.2.2
  · split <;> rfl
  · split <;> rfl
  · rfl

/-- The worker goes on, or ends by itself, or takes the signal. -/
theorem workerStep_cases {session : Nat} {outcome : LoopOutcome}
    (hstep : app.workerStep session outcome = some app') :
    ∃ c, app.sessions[session]? = some c ∧ c.ended = false ∧
      ((∃ stage, (∀ how, stage ≠ .ended how) ∧ app' = app.setWorker session stage) ∨
        (∃ how, how ≠ .byRequest ∧ app' = app.endWorker session how) ∨
        ∃ signal, app.shutdownConnectionSignal.tryAcquire = some signal ∧
          app' = app.shutDownWorker session signal) := by
  obtain ⟨c, hc, hstep⟩ := Option.bind_eq_some_iff.mp hstep
  obtain ⟨windowOpen, reportedLost, connected, worker⟩ := c
  refine ⟨_, hc, ?_⟩
  cases worker with
  | greeting =>
      refine ⟨rfl, ?_⟩
      simp only at hstep
      split at hstep
      · cases hstep
        exact .inl ⟨.condition, fun _ h => WorkerStage.noConfusion h, rfl⟩
      · cases hstep
        exact .inr (.inl ⟨.caught, fun h => WorkerEnd.noConfusion h, rfl⟩)
  | condition =>
      refine ⟨rfl, ?_⟩
      simp only at hstep
      split at hstep
      · cases hstep
        exact .inl ⟨.polling, fun _ h => WorkerStage.noConfusion h, rfl⟩
      · cases hstep
        exact .inr (.inl ⟨.loopEnded, fun h => WorkerEnd.noConfusion h, rfl⟩)
  | polling =>
      refine ⟨rfl, ?_⟩
      simp only at hstep
      split at hstep
      · next signal htaken =>
          cases hstep
          exact .inr (.inr ⟨signal, htaken, rfl⟩)
      · cases hstep
        exact .inl ⟨.working, fun _ h => WorkerStage.noConfusion h, rfl⟩
  | working =>
      refine ⟨rfl, ?_⟩
      simp only at hstep
      split at hstep
      · cases hstep
        exact .inl ⟨.condition, fun _ h => WorkerStage.noConfusion h, rfl⟩
      · split at hstep
        · cases hstep
          exact .inr (.inl ⟨.loopEnded, fun h => WorkerEnd.noConfusion h, rfl⟩)
        · cases hstep
          exact .inr (.inl ⟨.caught, fun h => WorkerEnd.noConfusion h, rfl⟩)
  | ended how => cases hstep

/-- The events that are no part of the main loop. -/
def background : AppEvent → Bool
  | .connectThread _ | .connectionLost | .worker _ _ | .peerCloses _ => true
  | _ => false

/-- What an event does, as far as the main loop is concerned. -/
theorem exec_cases {l : AppEvent} (hexec : app.exec l = some app') :
    background l = true ∨
    (l = .applyRequests ∧ (app.phase = .starting ∨ app.phase = .rendered) ∧
      app' = { app with phase := .updating, ui := app.ui.apply }) ∨
    (l = .update ∧ app.phase = .updating ∧ app' = { app.update with phase := .rendering }) ∨
    (∃ input, l = .render input ∧ app.phase = .rendering ∧
      app' = { (app.renderScreen input).renderError input with phase := .rendered }) ∨
    (l = .quit ∧ app.phase = .rendered ∧
      app' = { app with
        phase := .done
        shutdownConnectionSignal := app.shutdownConnectionSignal.release }) := by
  cases l with
  | applyRequests =>
      obtain ⟨hphase, happ'⟩ := Option.ite_none_right_eq_some.mp hexec
      exact .inr (.inl ⟨rfl, hphase, (Option.some.inj happ').symm⟩)
  | update =>
      obtain ⟨hphase, happ'⟩ := Option.ite_none_right_eq_some.mp hexec
      exact .inr (.inr (.inl ⟨rfl, hphase, (Option.some.inj happ').symm⟩))
  | render input =>
      obtain ⟨hphase, happ'⟩ := Option.ite_none_right_eq_some.mp hexec
      exact .inr (.inr (.inr (.inl ⟨input, rfl, hphase, (Option.some.inj happ').symm⟩)))
  | quit =>
      obtain ⟨hphase, happ'⟩ := Option.ite_none_right_eq_some.mp hexec
      exact .inr (.inr (.inr (.inr ⟨rfl, hphase, (Option.some.inj happ').symm⟩)))
  | _ => exact .inl rfl

/-- Only the main loop touches the screens. -/
theorem exec_background {l : AppEvent} (hl : background l = true)
    (hexec : app.exec l = some app') : app'.ui = app.ui ∧ app'.phase = app.phase := by
  cases l with
  | connectThread outcome =>
      obtain ⟨-, happ'⟩ := Option.ite_none_right_eq_some.mp hexec
      obtain rfl := Option.some.inj happ'
      cases outcome <;> exact ⟨rfl, rfl⟩
  | connectionLost =>
      obtain ⟨_, -, rfl⟩ := Option.map_eq_some_iff.mp hexec
      exact ⟨rfl, rfl⟩
  | worker session outcome =>
      obtain ⟨c, -, -, hcases⟩ := workerStep_cases hexec
      rcases hcases with ⟨stage, -, rfl⟩ | ⟨how, -, rfl⟩ | ⟨signal, -, rfl⟩
      · exact ⟨rfl, rfl⟩
      · exact ⟨rfl, rfl⟩
      · exact ⟨rfl, rfl⟩
  | peerCloses session =>
      obtain rfl := Option.some.inj hexec
      exact ⟨rfl, rfl⟩
  | _ => cases hl

end ClientApp

/-- The client, whatever its user, the scheduler and the network do. -/
def clientSystem : LabelledSystem ClientApp AppEvent where
  init app := app = .start
  step app l app' := app.exec l = some app'

end Tavernmx.Client
