/-
# `Tavernmx.Client.Screens` — the screen at the bottom of the stack

`main` pushes a `ConnectUiScreen`, and everything else comes and goes on top of it.
A screen that asks to be popped stays on top until the next frame, so it is rendered
once more in the frame in which it was updated, and can ask again.  Only the chat
screen does: its update pops it when the connection has ended, and its render when
the user closes the window.  In one frame, both together pop the `ConnectUiScreen`
as well, and nothing is left to be shown (`connectUiScreen_lost`).

A frame is the only place where this can happen.  Outside of it the queue holds what
one screen has asked for, and the screens that ask are not the one at the bottom
(`Anchored`); so without such a frame the `ConnectUiScreen` stays
(`connectUiScreen_stays`).
-/
import Tavernmx.Client.Ui

namespace Tavernmx.Client

namespace ClientApp

/-- What the update of the screen on top may have requested when it is rendered. -/
def Requested (ui : DeferredStack Screen) : Prop :=
  ui.opQueue = [] ∨ (∃ attempt rest, ui.stack = .connecting attempt :: rest) ∨
    ∃ session rest, ui.stack = .chat session :: rest ∧ ui.opQueue = [.pop]

/-- How requests and phases go together. -/
structure Framed (app : ClientApp) : Prop where
  applied : app.phase = .updating → app.ui.opQueue = []
  requested : app.phase = .rendering → Requested app.ui

variable {app app' : ClientApp}

/-- What the update of a frame leaves in the queue. -/
theorem requested_update (happlied : app.ui.opQueue = []) : Requested app.update.ui := by
  rw [update]
  split
  · next attempt rest hstack =>
      refine .inr (.inl ⟨attempt, rest, ?_⟩)
      obtain ⟨-, -, h | h | h⟩ := connectingScreenUpdate_cases hstack
      · rw [h.1, hstack]
      · rw [h.1]
        exact hstack
      · rw [h.2.1]
        exact hstack
  · next session rest hstack =>
      rw [chatUpdate]
      split
      · refine .inr (.inr ⟨session, rest, hstack, ?_⟩)
        simp [DeferredStack.pop, happlied]
      · exact .inl happlied
  · exact .inl happlied

theorem Framed.exec (h : app.Framed) {l : AppEvent} (hexec : app.exec l = some app') :
    app'.Framed := by
  rcases exec_cases hexec with hl | ⟨rfl, -, rfl⟩ | ⟨rfl, hphase, rfl⟩ | ⟨input, rfl, -, rfl⟩ |
    ⟨rfl, -, rfl⟩
  · obtain ⟨hui, hphase⟩ := exec_background hl hexec
    refine ⟨?_, ?_⟩
    · intro hupdating
      rw [hui]
      exact h.applied (hphase ▸ hupdating)
    · intro hrendering
      rw [hui]
      exact h.requested (hphase ▸ hrendering)
  · exact ⟨fun _ => rfl, fun hphase => Phase.noConfusion hphase⟩
  · exact ⟨fun hphase => Phase.noConfusion hphase, fun _ => requested_update (h.applied hphase)⟩
  · exact ⟨fun hphase => Phase.noConfusion hphase, fun hphase => Phase.noConfusion hphase⟩
  · exact ⟨fun hphase => Phase.noConfusion hphase, fun hphase => Phase.noConfusion hphase⟩

theorem framed_start : start.Framed :=
  ⟨fun hphase => Phase.noConfusion hphase, fun hphase => Phase.noConfusion hphase⟩

/-! ## The bottom -/

/-- In this frame the update has asked to pop the chat screen, the window is closed as
well, and there is one screen below. -/
def popsTwice (app : ClientApp) : AppEvent → Bool
  | .render input =>
    match app.ui.stack with
    | [.chat session, _] =>
      app.isOpen session && input.close && decide (.pop ∈ app.ui.opQueue)
    | _ => false
  | _ => false

structure Anchored (app : ClientApp) : Prop where
  settled : app.ui.settled.getLast? = some .connect
  shown : app.phase = .updating ∨ app.phase = .rendering →
    app.ui.stack.getLast? = some .connect

/-- A screen other than the one at the bottom has another one below. -/
theorem length_ne_one {screen : Screen} {rest : List Screen} (hscreen : screen ≠ .connect)
    (hlast : (screen :: rest).getLast? = some .connect) : (screen :: rest).length ≠ 1 := by
  intro hlength
  cases rest with
  | nil => exact hscreen (Option.some.inj hlast)
  | cons _ _ => cases hlength

theorem getLast?_update (happlied : app.ui.opQueue = [])
    (hlast : app.ui.stack.getLast? = some .connect) :
    app.update.ui.settled.getLast? = some .connect ∧ app.update.ui.stack = app.ui.stack := by
  have hsettled := DeferredStack.settled_of_empty happlied
  rw [update]
  split
  · next attempt rest hstack =>
      have hlength : app.ui.settled.length ≠ 1 := by
        rw [hsettled, hstack]
        exact length_ne_one (fun h => Screen.noConfusion h) (hstack ▸ hlast)
      rw [← hsettled] at hlast
      have hpop := DeferredStack.getLast?_pop hlast hlength
      obtain ⟨-, -, h | h | h⟩ := connectingScreenUpdate_cases hstack
      · rw [h.1]
        exact ⟨hlast, rfl⟩
      · rw [h.1]
        exact ⟨hpop, rfl⟩
      · rw [h.2.1]
        exact ⟨DeferredStack.getLast?_push hpop, rfl⟩
  · next session rest hstack =>
      have hlength : app.ui.settled.length ≠ 1 := by
        rw [hsettled, hstack]
        exact length_ne_one (fun h => Screen.noConfusion h) (hstack ▸ hlast)
      rw [← hsettled] at hlast
      rw [chatUpdate]
      split
      · exact ⟨DeferredStack.getLast?_pop hlast hlength, rfl⟩
      · exact ⟨hlast, rfl⟩
  · exact ⟨hsettled ▸ hlast, rfl⟩

/-- Submitting pushes screens, and that is all it does to the stack. -/
theorem getLast?_connectButton (submissions : List Submission)
    (h : app.ui.settled.getLast? = some .connect) :
    (submissions.foldl connectButton app).ui.settled.getLast? = some .connect := by
  induction submissions generalizing app with
  | nil => exact h
  | cons submission submissions ih =>
      cases submission with
      | started => exact ih (DeferredStack.getLast?_push h)
      | failed what => exact ih h

theorem getLast?_renderScreen {input : FrameInput} (hrequested : Requested app.ui)
    (hsettled : app.ui.settled.getLast? = some .connect)
    (hshown : app.ui.stack.getLast? = some .connect)
    (honce : app.popsTwice (.render input) = false) :
    (app.renderScreen input).ui.settled.getLast? = some .connect := by
  rw [renderScreen]
  split
  · exact getLast?_connectButton input.submissions hsettled
  · split <;> exact hsettled
  · next session rest hstack =>
      split
      · next hclose =>
          refine DeferredStack.getLast?_pop hsettled ?_
          have hbelow : (Screen.chat session :: rest).length ≠ 1 :=
            length_ne_one (fun h => Screen.noConfusion h) (hstack ▸ hshown)
          rcases hrequested with hempty | ⟨attempt, _, hother⟩ | ⟨_, _, -, hpop⟩
          · rw [DeferredStack.settled_of_empty hempty, hstack]
            exact hbelow
          · rw [hstack] at hother
            cases hother
          · -- the update has asked already, so two screens go
            have hrest : app.ui.settled = rest := by
              rw [DeferredStack.settled, hpop, hstack]
              rfl
            rw [hrest]
            intro hone
            obtain ⟨below, rfl⟩ := List.length_eq_one_iff.mp hone
            rw [popsTwice, hstack] at honce
            simp [hclose, hpop] at honce
      · exact hsettled
  · exact hsettled

theorem Anchored.exec (h : app.Anchored) (hframed : app.Framed) {l : AppEvent}
    (honce : app.popsTwice l = false) (hexec : app.exec l = some app') : app'.Anchored := by
  rcases exec_cases hexec with hl | ⟨rfl, -, rfl⟩ | ⟨rfl, hphase, rfl⟩ | ⟨input, rfl, hphase, rfl⟩ |
    ⟨rfl, -, rfl⟩
  · obtain ⟨hui, hphase⟩ := exec_background hl hexec
    refine ⟨hui ▸ h.settled, fun hshown => ?_⟩
    rw [hui]
    exact h.shown (hphase ▸ hshown)
  · exact ⟨h.settled, fun _ => h.settled⟩
  · have hshown := h.shown (.inl hphase)
    obtain ⟨hsettled, hstack⟩ := getLast?_update (hframed.applied hphase) hshown
    exact ⟨hsettled, fun _ => hstack ▸ hshown⟩
  · refine ⟨?_, ?_⟩
    · simp only [renderError_ui]
      exact getLast?_renderScreen (hframed.requested hphase) h.settled (h.shown (.inr hphase)) honce
    · rintro (hphase | hphase)
      · cases hphase
      · cases hphase
  · refine ⟨h.settled, ?_⟩
    rintro (hphase | hphase)
    · cases hphase
    · cases hphase

/-- Such a frame asks for the whole stack to be popped. -/
theorem settled_of_popsTwice (hframed : app.Framed) {l : AppEvent}
    (htwice : app.popsTwice l = true) (hexec : app.exec l = some app') :
    app'.ui.settled = [] := by
  rcases exec_cases hexec with hl | ⟨rfl, -, -⟩ | ⟨rfl, -, -⟩ | ⟨input, rfl, hphase, rfl⟩ |
    ⟨rfl, -, -⟩
  · cases l with
    | render _ => cases hl
    | _ => cases htwice
  · cases htwice
  · cases htwice
  · rw [popsTwice] at htwice
    split at htwice
    · next session below hstack =>
        simp only [Bool.and_eq_true, decide_eq_true_eq] at htwice
        obtain ⟨⟨hopen, hclose⟩, hasked⟩ := htwice
        have hqueue : app.ui.opQueue = [.pop] := by
          rcases hframed.requested hphase with hempty | ⟨_, _, hother⟩ | ⟨_, _, -, hpop⟩
          · rw [hempty] at hasked
            cases hasked
          · rw [hstack] at hother
            cases hother
          · exact hpop
        have hrender : (app.renderScreen input).ui = app.ui.pop := by
          simp [renderScreen, hstack, hopen, hclose, chatClosed]
        simp only [renderError_ui, hrender, DeferredStack.settled_pop]
        rw [DeferredStack.settled, hqueue, hstack]
        rfl
    · cases htwice
  · cases htwice

theorem anchored_start : start.Anchored := by
  refine ⟨rfl, ?_⟩
  rintro (hphase | hphase)
  · cases hphase
  · cases hphase

end ClientApp

variable {app : ClientApp}

theorem framed_of_reachable {allowed : ClientApp → AppEvent → Prop}
    (h : clientSystem.Reachable allowed app) : app.Framed := by
  refine h.invariant ?_ ?_
  · rintro app rfl
    exact ClientApp.framed_start
  · rintro app l app' - hframed - hexec
    exact hframed.exec hexec

/-- **The last screen is never lost**, in every run without a frame in which the chat
screen above it is popped twice: whenever the requests of a frame have been applied,
there is a screen, and the one at the bottom is the `ConnectUiScreen`. -/
theorem connectUiScreen_stays
    (h : clientSystem.Reachable (fun app l => app.popsTwice l = false) app)
    (hphase : app.phase = .updating) :
    app.ui.stack ≠ [] ∧ app.ui.stack.getLast? = some .connect := by
  have hanchored : app.Anchored := by
    refine h.invariant ?_ ?_
    · rintro app rfl
      exact ClientApp.anchored_start
    · rintro app l app' hreached hanchored honce hexec
      exact hanchored.exec (framed_of_reachable hreached) honce hexec
  have hlast := hanchored.shown (.inl hphase)
  refine ⟨fun hempty => ?_, hlast⟩
  rw [hempty] at hlast
  cases hlast

/-- A frame in which the user does nothing. -/
def FrameInput.idle : FrameInput := ⟨[], false, false, false⟩

/-- The user closes the chat window. -/
def FrameInput.closeWindow : FrameInput := { FrameInput.idle with close := true }

/-- The events from the connect button to the update of the chat screen. -/
def connecting : List AppEvent :=
  [.applyRequests, .update, .render { FrameInput.idle with submissions := [.started] },
    .connectThread .acknowledged, .applyRequests, .update, .render .idle, .applyRequests]

/-- The connection is lost, and the user is back where the program began. -/
theorem connectUiScreen_stays_afterLoss : ∃ app : ClientApp,
    app.sessions = [⟨true, true, false, .ended .caught⟩] ∧
      app.ui.stack.getLast? = some .connect := by
  obtain ⟨app, happ, htest⟩ := clientSystem.exists_of_execute
    (fun app l => app.popsTwice l = false) (fun _ _ _ h => h) rfl
    (connecting ++ [.peerCloses 0, .worker 0 .succeeds, .update, .render .idle, .applyRequests])
    (fun app => app.phase = .updating ∧ app.sessions = [⟨true, true, false, .ended .caught⟩])
    (by decide +kernel)
  obtain ⟨hphase, hsessions⟩ := of_decide_eq_true htest
  exact ⟨app, hsessions, (connectUiScreen_stays happ hphase).2⟩

/-- The connection is lost and the window closed in one frame. -/
theorem connectUiScreen_lost : ∃ app : ClientApp,
    clientSystem.Reachable LabelledSystem.anyStep app ∧ app.phase = .updating ∧
      app.ui.stack = [] := by
  obtain ⟨app, happ, htest⟩ := clientSystem.exists_of_execute LabelledSystem.anyStep
    (fun _ _ _ h => h) rfl
    (connecting ++ [.peerCloses 0, .worker 0 .succeeds, .update,
      .render .closeWindow, .applyRequests])
    (fun app => app.phase = .updating ∧ app.ui.stack = []) (by decide +kernel)
  exact ⟨app, happ, of_decide_eq_true htest⟩

end Tavernmx.Client
