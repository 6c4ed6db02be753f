/-
# `Tavernmx.Client.Signals` — signals that outlive their session

A session's window and its worker tell each other that it is over: the window
releases `shutdown_connection_signal` when the user closes it, the worker
`connection_ended_signal` when it ends by itself.  When both happen, or when the
worker has not looked yet, a signal is left over, and the next session finds it.
Then its worker shuts down a connection whose window is open, or its window reports
a connection as lost that is there (`signals_leak`).

A session that starts while both signals are down gets its own signals only: the
window can be closed once, the worker can end once, and no worker of an earlier
session is left to take or release anything (`Signalled`).  So this is the condition
(`Fresh`), with its counterpart for the end of the program, which releases
`shutdown_connection_signal` once more (`signals_isolated`).  It cannot be weakened:
after any step that does not meet it, some order of the threads leads to a state in
which the signals have been mixed up (`mixed_up_of_not_fresh`).
-/
import Tavernmx.Client.Screens

namespace Tavernmx.Client

namespace ClientApp

variable {app app' : ClientApp}

/-! ## Which chat screens there are -/

/-- A chat screen is on top or nowhere, it is that of the last session, and a session
whose screen is not there any more has asked to be popped. -/
structure Seated (app : ClientApp) : Prop where
  below : ∀ session, .chat session ∉ app.ui.stack.tail
  belowSettled : ∀ session, .chat session ∉ app.ui.settled.tail
  last : ∀ session, .chat session ∈ app.ui.stack → session + 1 = app.sessions.length
  lastSettled : ∀ session, .chat session ∈ app.ui.settled → session + 1 = app.sessions.length
  here : ∀ (session : Nat) c, app.sessions[session]? = some c → c.gone = false →
    .chat session ∈ app.ui.settled

theorem seated_start : start.Seated := by
  refine ⟨?_, ?_, ?_, ?_, ?_⟩
  · intro session h
    cases h
  · intro session h
    cases h
  · intro session h
    cases h
  · intro session h
    simp [start, DeferredStack.settled, DeferredStack.perform] at h
  · intro session c h _
    cases h

/-- The other threads leave windows and screens alone. -/
theorem sessions_background {l : AppEvent} (hl : background l = true)
    (hexec : app.exec l = some app') :
    app'.sessions.length = app.sessions.length ∧
      ∀ (session : Nat) c', app'.sessions[session]? = some c' →
        ∃ c, app.sessions[session]? = some c ∧ c'.gone = c.gone := by
  -- a session is changed in a field that is not about its window
  have hmodify : ∀ {session : Nat} {f : Session → Session}, (∀ c, (f c).gone = c.gone) →
      (app.sessions.modify session f).length = app.sessions.length ∧
        ∀ (other : Nat) c', (app.sessions.modify session f)[other]? = some c' →
          ∃ c, app.sessions[other]? = some c ∧ c'.gone = c.gone := by
    intro session f hf
    refine ⟨List.length_modify f app.sessions session, fun other c' hc' => ?_⟩
    obtain ⟨c, hc, rfl⟩ := exists_of_getElem?_modify hc'
    refine ⟨c, hc, ?_⟩
    split
    · exact hf c
    · rfl
  cases l with
  | connectThread outcome =>
      obtain ⟨-, happ'⟩ := Option.ite_none_right_eq_some.mp hexec
      obtain rfl := Option.some.inj happ'
      cases outcome <;> exact ⟨rfl, fun session c hc => ⟨c, hc, rfl⟩⟩
  | connectionLost =>
      obtain ⟨_, -, rfl⟩ := Option.map_eq_some_iff.mp hexec
      exact ⟨rfl, fun session c hc => ⟨c, hc, rfl⟩⟩
  | worker session outcome =>
      obtain ⟨_, -, -, hcases⟩ := workerStep_cases hexec
      rcases hcases with ⟨stage, -, rfl⟩ | ⟨how, -, rfl⟩ | ⟨signal, -, rfl⟩
      · exact hmodify fun _ => rfl
      · exact hmodify fun _ => rfl
      · exact hmodify fun _ => rfl
  | peerCloses session =>
      cases hexec
      exact hmodify fun _ => rfl
  | _ => cases hl

/-- The chat screen on top asks to be popped. -/
theorem Seated.leave (h : app.Seated) {session : Nat} {rest : List Screen}
    {f : Session → Session} (hstack : app.ui.stack = .chat session :: rest)
    (hf : ∀ c, (f c).gone = true) (hui : app'.ui = app.ui.pop)
    (hsessions : app'.sessions = app.sessions.modify session f) : app'.Seated := by
  have hlength : app'.sessions.length = app.sessions.length := by
    rw [hsessions]
    exact List.length_modify f app.sessions session
  have hlast : session + 1 = app.sessions.length :=
    h.last session (hstack ▸ List.mem_cons_self)
  have hnone : ∀ other, .chat other ∉ app'.ui.settled := by
    intro other hmem
    rw [hui, DeferredStack.settled_pop] at hmem
    exact h.belowSettled other hmem
  refine ⟨?_, ?_, ?_, fun other hmem => absurd hmem (hnone other), ?_⟩
  · intro other hmem
    rw [hui] at hmem
    exact h.below other hmem
  · intro other hmem
    exact hnone other (List.mem_of_mem_tail hmem)
  · intro other hmem
    rw [hui] at hmem
    rw [hlength]
    exact h.last other hmem
  · intro other c' hc' hgone
    rw [hsessions] at hc'
    obtain ⟨c, hc, rfl⟩ := exists_of_getElem?_modify hc'
    by_cases hsame : session = other
    · rw [if_pos hsame, hf c] at hgone
      cases hgone
    · -- there is no other session whose screen is there
      rw [if_neg hsame] at hgone
      have hother := h.lastSettled other (h.here other c hc hgone)
      omega

/-- With another screen on top and nothing requested, no chat screen is there. -/
theorem Seated.absent (h : app.Seated) (happlied : app.ui.opQueue = []) {screen : Screen}
    {rest : List Screen} (hstack : app.ui.stack = screen :: rest)
    (hscreen : screen.isChat = false) :
    (∀ session, .chat session ∉ app.ui.stack) ∧
      ∀ (session : Nat) c, app.sessions[session]? = some c → c.gone = true := by
  have hnone : ∀ session, .chat session ∉ app.ui.stack := by
    intro session hmem
    rw [hstack] at hmem
    rcases List.mem_cons.mp hmem with heq | hmem
    · rw [← heq] at hscreen
      cases hscreen
    · refine h.below session ?_
      rw [hstack]
      exact hmem
  refine ⟨hnone, fun session c hc => eq_true_of_ne_false fun hhere => ?_⟩
  refine hnone session ?_
  rw [← DeferredStack.settled_of_empty happlied]
  exact h.here session c hc hhere

/-- No chat screen is there, and none comes. -/
theorem Seated.ofAbsent (hstack : ∀ session, .chat session ∉ app.ui.stack)
    (hsettled : ∀ session, .chat session ∉ app.ui.settled)
    (hgone : ∀ (session : Nat) c, app.sessions[session]? = some c → c.gone = true) :
    app.Seated where
  below session hmem := hstack session (List.mem_of_mem_tail hmem)
  belowSettled session hmem := hsettled session (List.mem_of_mem_tail hmem)
  last session hmem := absurd hmem (hstack session)
  lastSettled session hmem := absurd hmem (hsettled session)
  here session c hc hhere := by cases (hgone session c hc).symm.trans hhere

theorem Seated.connectingScreenUpdate (h : app.Seated) (happlied : app.ui.opQueue = [])
    {attempt : Nat} {rest : List Screen} (hstack : app.ui.stack = .connecting attempt :: rest) :
    (app.connectingScreenUpdate attempt).Seated := by
  obtain ⟨hnone, hgone⟩ := h.absent happlied hstack rfl
  have hpop : ∀ session, .chat session ∉ app.ui.pop.settled := by
    intro session hmem
    rw [DeferredStack.settled_pop, DeferredStack.settled_of_empty happlied] at hmem
    exact hnone session (List.mem_of_mem_tail hmem)
  obtain ⟨-, -, ⟨hui, hsessions⟩ | ⟨hui, hsessions⟩ | ⟨-, hui, hsessions⟩⟩ :=
    connectingScreenUpdate_cases hstack
  · refine .ofAbsent (hui ▸ hnone) ?_ (hsessions ▸ hgone)
    rw [hui, DeferredStack.settled_of_empty happlied]
    exact hnone
  · exact .ofAbsent (hui ▸ hnone) (hui ▸ hpop) (hsessions ▸ hgone)
  · refine ⟨?_, ?_, ?_, ?_, ?_⟩
    · intro session hmem
      rw [hui] at hmem
      exact hnone session (List.mem_of_mem_tail hmem)
    · intro session hmem
      rw [hui, DeferredStack.settled_push] at hmem
      exact hpop session hmem
    · intro session hmem
      rw [hui] at hmem
      exact absurd hmem (hnone session)
    · intro session hmem
      rw [hui, DeferredStack.settled_push] at hmem
      rw [hsessions, List.length_append, List.length_singleton]
      rcases List.mem_cons.mp hmem with heq | hmem
      · cases heq
        rfl
      · exact absurd hmem (hpop session)
    · intro session c hc hhere
      -- a session that is still there is the one that was started
      rw [hsessions] at hc
      rw [hui, DeferredStack.settled_push]
      by_cases hold : session < app.sessions.length
      · rw [List.getElem?_append_left hold] at hc
        cases (hgone session c hc).symm.trans hhere
      · have hlt := (List.getElem?_eq_some_iff.mp hc).1
        rw [List.length_append, List.length_singleton] at hlt
        have hnew : session = app.sessions.length := by omega
        rw [hnew]
        exact List.mem_cons_self

theorem Seated.update (h : app.Seated) (happlied : app.ui.opQueue = []) : app.update.Seated := by
  rw [ClientApp.update]
  cases hstack : app.ui.stack with
  | nil => exact h
  | cons screen rest =>
      cases screen with
      | connect => exact h
      | connecting attempt => exact h.connectingScreenUpdate happlied hstack
      | chat session =>
          simp only [chatUpdate]
          split
          · exact h.leave (f := fun c => { c with reportedLost := true }) hstack
              (fun c => Bool.or_true _) rfl rfl
          · exact h

theorem absent_connectButton (submissions : List Submission)
    (h : ∀ session, .chat session ∉ app.ui.settled) :
    (submissions.foldl connectButton app).ui.stack = app.ui.stack ∧
      ∀ session, .chat session ∉ (submissions.foldl connectButton app).ui.settled := by
  induction submissions generalizing app with
  | nil => exact ⟨rfl, h⟩
  | cons submission submissions ih =>
      cases submission with
      | started =>
          have hpush : ∀ session, .chat session ∉ (app.connectButton .started).ui.settled := by
            intro session hmem
            rw [connectButton, DeferredStack.settled_push] at hmem
            rcases List.mem_cons.mp hmem with heq | hmem
            · cases heq
            · exact h session hmem
          exact ih hpush
      | failed what => exact ih h

theorem Seated.renderScreen (h : app.Seated) (hrequested : Requested app.ui) (input : FrameInput) :
    (app.renderScreen input).Seated := by
  rw [ClientApp.renderScreen]
  cases hstack : app.ui.stack with
  | nil => exact h
  | cons screen rest =>
      cases screen with
      | connect =>
          have happlied : app.ui.opQueue = [] := by
            rcases hrequested with hempty | ⟨_, _, hother⟩ | ⟨_, _, hother, -⟩
            · exact hempty
            · rw [hstack] at hother
              cases hother
            · rw [hstack] at hother
              cases hother
          obtain ⟨hnone, hgone⟩ := h.absent happlied hstack rfl
          obtain ⟨hsame, hsettled⟩ := absent_connectButton input.submissions
            (DeferredStack.settled_of_empty happlied ▸ hnone)
          refine .ofAbsent (hsame ▸ hnone) hsettled ?_
          rw [(connectButton_keeps input.submissions app).1]
          exact hgone
      | connecting attempt =>
          simp only
          split
          · exact ⟨h.below, h.belowSettled, h.last, h.lastSettled, h.here⟩
          · exact h
      | chat session =>
          simp only
          split
          · exact h.leave (f := fun c => { c with windowOpen := false }) hstack
              (fun c => rfl) rfl rfl
          · exact h

theorem Seated.exec (h : app.Seated) (hframed : app.Framed) {l : AppEvent}
    (hexec : app.exec l = some app') : app'.Seated := by
  rcases exec_cases hexec with hl | ⟨rfl, -, rfl⟩ | ⟨rfl, hphase, rfl⟩ | ⟨input, rfl, hphase, rfl⟩ |
    ⟨rfl, -, rfl⟩
  · obtain ⟨hui, -⟩ := exec_background hl hexec
    obtain ⟨hlength, hsessions⟩ := sessions_background hl hexec
    refine ⟨hui ▸ h.below, hui ▸ h.belowSettled, ?_, ?_, ?_⟩
    · rw [hui, hlength]
      exact h.last
    · rw [hui, hlength]
      exact h.lastSettled
    · intro session c' hc' hhere
      obtain ⟨c, hc, hgone⟩ := hsessions session c' hc'
      rw [hui]
      exact h.here session c hc (hgone ▸ hhere)
  · exact ⟨h.belowSettled, h.belowSettled, h.lastSettled, h.lastSettled, h.here⟩
  · have hupdate := h.update (hframed.applied hphase)
    exact ⟨hupdate.below, hupdate.belowSettled, hupdate.last, hupdate.lastSettled, hupdate.here⟩
  · have hrender := h.renderScreen (hframed.requested hphase) input
    refine ⟨?_, ?_, ?_, ?_, ?_⟩
    · simpa only [renderError_ui] using hrender.below
    · simpa only [renderError_ui] using hrender.belowSettled
    · simpa only [renderError_ui, renderError_sessions] using hrender.last
    · simpa only [renderError_ui, renderError_sessions] using hrender.lastSettled
    · simpa only [renderError_ui, renderError_sessions] using hrender.here
  · exact ⟨h.below, h.belowSettled, h.last, h.lastSettled, h.here⟩

/-! ## The signals -/

/-- A session starts while both signals are down, and the program ends while
`shutdown_connection_signal` is down. -/
def Fresh (app : ClientApp) : AppEvent → Prop
  | .update => app.startsSession = true →
      app.connectionEndedSignal.count = 0 ∧ app.shutdownConnectionSignal.count = 0
  | .quit => app.shutdownConnectionSignal.count = 0
  | _ => True

/-- What the signals are for. -/
structure Isolated (app : ClientApp) : Prop where
  /-- A worker shuts down by request if its window was closed or the program ends. -/
  requested : ∀ (session : Nat) c, app.sessions[session]? = some c →
    c.worker = .ended .byRequest → c.windowOpen = false ∨ app.phase = .done
  /-- A connection is reported as lost if its worker has ended. -/
  lost : ∀ (session : Nat) c, app.sessions[session]? = some c → c.reportedLost = true →
    c.ended = true
  endedOnce : app.connectionEndedSignal.overReleased = false
  shutdownOnce : app.shutdownConnectionSignal.overReleased = false

/-- How a session's window and worker agree with the signals. -/
structure Agrees (app : ClientApp) (session : Nat) (c : Session) : Prop where
  requested : c.worker = .ended .byRequest → c.windowOpen = false ∨ app.phase = .done
  lost : c.reportedLost = true → c.ended = true
  running : c.ended = false → session + 1 = app.sessions.length
  endedUp : app.connectionEndedSignal.count ≠ 0 → c.ended = true
  shutdownUp : app.shutdownConnectionSignal.count ≠ 0 → app.phase ≠ .done →
    session + 1 = app.sessions.length → c.windowOpen = false
  /-- A request that was not heard yet. -/
  pending : c.windowOpen = false → c.ended = false → app.shutdownConnectionSignal.count ≠ 0

/-- The signals that are up are those of the last session. -/
structure Signalled (app : ClientApp) : Prop where
  ended : app.connectionEndedSignal.Sound
  shutdown : app.shutdownConnectionSignal.Sound
  agrees : ∀ (session : Nat) c, app.sessions[session]? = some c → app.Agrees session c

theorem Signalled.isolated (h : app.Signalled) : app.Isolated where
  requested session c hc := (h.agrees session c hc).requested
  lost session c hc := (h.agrees session c hc).lost
  endedOnce := h.ended.notOver
  shutdownOnce := h.shutdown.notOver

/-- Only the signals, the number of sessions and the phase matter to a session. -/
theorem Agrees.congr {session : Nat} {c : Session} (h : app.Agrees session c)
    (hended : app'.connectionEndedSignal = app.connectionEndedSignal)
    (hshutdown : app'.shutdownConnectionSignal = app.shutdownConnectionSignal)
    (hlength : app'.sessions.length = app.sessions.length)
    (hdone : app'.phase = .done ↔ app.phase = .done) : app'.Agrees session c := by
  obtain ⟨hrequested, hlost, hrunning, hendedUp, hshutdownUp, hpending⟩ := h
  refine ⟨?_, hlost, ?_, ?_, ?_, ?_⟩
  · rw [hdone]
    exact hrequested
  · rw [hlength]
    exact hrunning
  · rw [hended]
    exact hendedUp
  · rw [hshutdown, hlength, ne_eq app'.phase, hdone]
    exact hshutdownUp
  · rw [hshutdown]
    exact hpending

theorem Signalled.congr (h : app.Signalled) (hsessions : app'.sessions = app.sessions)
    (hended : app'.connectionEndedSignal = app.connectionEndedSignal)
    (hshutdown : app'.shutdownConnectionSignal = app.shutdownConnectionSignal)
    (hdone : app'.phase = .done ↔ app.phase = .done) : app'.Signalled := by
  refine ⟨hended ▸ h.ended, hshutdown ▸ h.shutdown, fun session c hc => ?_⟩
  rw [hsessions] at hc
  exact (h.agrees session c hc).congr hended hshutdown (congrArg List.length hsessions) hdone

/-- One session is changed. -/
theorem Signalled.ofModify {session : Nat} {f : Session → Session}
    (hsessions : app'.sessions = app.sessions.modify session f)
    (hended : app'.connectionEndedSignal.Sound) (hshutdown : app'.shutdownConnectionSignal.Sound)
    (hself : ∀ c, app.sessions[session]? = some c → app'.Agrees session (f c))
    (hothers : ∀ (other : Nat) c, other ≠ session → app.sessions[other]? = some c →
      app'.Agrees other c) : app'.Signalled := by
  refine ⟨hended, hshutdown, fun other c' hc' => ?_⟩
  rw [hsessions] at hc'
  obtain ⟨c, hc, rfl⟩ := exists_of_getElem?_modify hc'
  by_cases hsame : session = other
  · subst hsame
    rw [if_pos rfl]
    exact hself c hc
  · rw [if_neg hsame]
    exact hothers other c (Ne.symm hsame) hc

/-! ### The steps of a running worker -/

/-- Where there is a running worker, it is the only one, and `connection_ended_signal`
is down. -/
theorem Signalled.alone (h : app.Signalled) {session : Nat} {c : Session}
    (hc : app.sessions[session]? = some c) (hrunning : c.ended = false) :
    app.connectionEndedSignal.count = 0 ∧ c.reportedLost = false ∧
      ∀ (other : Nat) d, other ≠ session → app.sessions[other]? = some d → d.ended = true := by
  have hagrees := h.agrees session c hc
  refine ⟨?_, ?_, ?_⟩
  · by_contra hup
    cases hrunning.symm.trans (hagrees.endedUp hup)
  · by_contra hlost
    cases hrunning.symm.trans (hagrees.lost (eq_true_of_ne_false hlost))
  · intro other d hother hd
    by_contra hd'
    have hlast := hagrees.running hrunning
    have hlast' := (h.agrees other d hd).running (eq_false_of_ne_true hd')
    omega

theorem Signalled.setWorker (h : app.Signalled) {session : Nat} {c : Session}
    {stage : WorkerStage} (hc : app.sessions[session]? = some c) (hrunning : c.ended = false)
    (hstage : ∀ how, stage ≠ .ended how) : (app.setWorker session stage).Signalled := by
  have hlength : (app.setWorker session stage).sessions.length = app.sessions.length :=
    List.length_modify _ app.sessions session
  obtain ⟨hdown, hlost, -⟩ := h.alone hc hrunning
  have hagrees := h.agrees session c hc
  refine .ofModify rfl h.ended h.shutdown (fun c' hc' => ?_) fun other d _ hd =>
    (h.agrees other d hd).congr rfl rfl hlength Iff.rfl
  obtain rfl := Option.some.inj (hc.symm.trans hc')
  refine ⟨fun hended => absurd hended (hstage _), ?_, ?_, fun hup => absurd hdown hup, ?_, ?_⟩
  · intro hreported
    cases hlost.symm.trans hreported
  · intro _
    rw [hlength]
    exact hagrees.running hrunning
  · intro hup hphase hlast
    rw [hlength] at hlast
    exact hagrees.shutdownUp hup hphase hlast
  · intro hclosed _
    exact hagrees.pending hclosed hrunning

theorem Signalled.endWorker (h : app.Signalled) {session : Nat} {c : Session} {how : WorkerEnd}
    (hc : app.sessions[session]? = some c) (hrunning : c.ended = false)
    (hhow : how ≠ .byRequest) : (app.endWorker session how).Signalled := by
  have hlength : (app.endWorker session how).sessions.length = app.sessions.length :=
    List.length_modify _ app.sessions session
  obtain ⟨hdown, -, hothers⟩ := h.alone hc hrunning
  refine .ofModify rfl (h.ended.release hdown) h.shutdown (fun c' hc' => ?_)
    fun other d hother hd => ?_
  · have hagrees := h.agrees session c' hc'
    refine ⟨fun hended => absurd (WorkerStage.ended.inj hended) hhow, fun _ => rfl,
      fun hnot => Bool.noConfusion hnot, fun _ => rfl, fun hup hphase hlast => ?_,
      fun _ hnot => Bool.noConfusion hnot⟩
    rw [hlength] at hlast
    exact hagrees.shutdownUp hup hphase hlast
  · have hagrees := h.agrees other d hd
    have hended := hothers other d hother hd
    refine ⟨hagrees.requested, hagrees.lost, ?_, fun _ => hended, ?_, hagrees.pending⟩
    · intro hnot
      cases hended.symm.trans hnot
    · intro hup hphase hlast
      rw [hlength] at hlast
      exact hagrees.shutdownUp hup hphase hlast

/-- The worker that takes the signal is the one it was meant for. -/
theorem Signalled.shutDownWorker (h : app.Signalled) {session : Nat} {c : Session}
    {signal : BinarySemaphore} (hc : app.sessions[session]? = some c) (hrunning : c.ended = false)
    (htaken : app.shutdownConnectionSignal.tryAcquire = some signal) :
    (app.shutDownWorker session signal).Signalled := by
  obtain ⟨hsound, hup, hdown⟩ := h.shutdown.tryAcquire htaken
  obtain ⟨hendedDown, -, hothers⟩ := h.alone hc hrunning
  have hagrees := h.agrees session c hc
  refine .ofModify rfl h.ended hsound (fun c' hc' => ?_) fun other d hother hd => ?_
  · obtain rfl := Option.some.inj (hc.symm.trans hc')
    refine ⟨fun _ => ?_, fun _ => rfl, fun hnot => Bool.noConfusion hnot,
      fun _ => rfl, fun hnot => absurd hdown hnot, fun _ hnot => Bool.noConfusion hnot⟩
    by_cases hphase : app.phase = .done
    · exact .inr hphase
    · refine .inl (hagrees.shutdownUp ?_ hphase (hagrees.running hrunning))
      rw [hup]
      exact Nat.one_ne_zero
  · have hagrees := h.agrees other d hd
    have hended := hothers other d hother hd
    refine ⟨hagrees.requested, hagrees.lost, ?_, fun _ => hended, fun hnot => absurd hdown hnot, ?_⟩
    · intro hnot
      cases hended.symm.trans hnot
    · intro _ hnot
      cases hended.symm.trans hnot

theorem Signalled.background (h : app.Signalled) {l : AppEvent} (hl : background l = true)
    (hexec : app.exec l = some app') : app'.Signalled := by
  cases l with
  | connectThread outcome =>
      obtain ⟨-, happ'⟩ := Option.ite_none_right_eq_some.mp hexec
      obtain rfl := Option.some.inj happ'
      cases outcome <;> exact h.congr rfl rfl rfl Iff.rfl
  | connectionLost =>
      obtain ⟨_, -, rfl⟩ := Option.map_eq_some_iff.mp hexec
      exact h.congr rfl rfl rfl Iff.rfl
  | worker session outcome =>
      obtain ⟨c, hc, hrunning, hcases⟩ := workerStep_cases hexec
      rcases hcases with ⟨stage, hstage, rfl⟩ | ⟨how, hhow, rfl⟩ | ⟨signal, htaken, rfl⟩
      · exact h.setWorker hc hrunning hstage
      · exact h.endWorker hc hrunning hhow
      · exact h.shutDownWorker hc hrunning htaken
  | peerCloses session =>
      cases hexec
      have hlength := List.length_modify (fun c : Session => { c with connected := false })
        app.sessions session
      refine .ofModify rfl h.ended h.shutdown (fun c hc => ?_) fun other d _ hd =>
        (h.agrees other d hd).congr rfl rfl hlength Iff.rfl
      have hagrees : (app.setSession session fun c => { c with connected := false }).Agrees
          session c := (h.agrees session c hc).congr rfl rfl hlength Iff.rfl
      exact ⟨hagrees.requested, hagrees.lost, hagrees.running, hagrees.endedUp,
        hagrees.shutdownUp, hagrees.pending⟩
  | _ => cases hl

/-! ### The main loop -/

/-- A session that starts while the signals are down has no predecessor that is running. -/
theorem Signalled.startSession (h : app.Signalled)
    (hgone : ∀ (session : Nat) c, app.sessions[session]? = some c → c.gone = true)
    (hendedDown : app.connectionEndedSignal.count = 0)
    (hshutdownDown : app.shutdownConnectionSignal.count = 0)
    (hended : app'.connectionEndedSignal = app.connectionEndedSignal)
    (hshutdown : app'.shutdownConnectionSignal = app.shutdownConnectionSignal)
    (hphase : app'.phase = app.phase) (hsessions : app'.sessions = app.sessions ++ [.start]) :
    app'.Signalled := by
  refine ⟨hended ▸ h.ended, hshutdown ▸ h.shutdown, fun session c hc => ?_⟩
  rw [hsessions] at hc
  by_cases hold : session < app.sessions.length
  · rw [List.getElem?_append_left hold] at hc
    have hagrees := h.agrees session c hc
    have hover : c.ended = true := by
      by_contra hrunning
      rcases Bool.or_eq_true_iff.mp (hgone session c hc) with hclosed | hlost
      · exact hagrees.pending (Bool.not_eq_true' _ ▸ hclosed) (eq_false_of_ne_true hrunning)
          hshutdownDown
      · exact hrunning (hagrees.lost hlost)
    refine ⟨hphase ▸ hagrees.requested, hagrees.lost, ?_, fun _ => hover, ?_, ?_⟩
    · intro hnot
      cases hover.symm.trans hnot
    · intro hup
      rw [hshutdown] at hup
      exact absurd hshutdownDown hup
    · intro _ hnot
      cases hover.symm.trans hnot
  · have hlt := (List.getElem?_eq_some_iff.mp hc).1
    rw [List.length_append, List.length_singleton] at hlt
    have hnew : session = app.sessions.length := by omega
    subst hnew
    rw [List.getElem?_concat_length] at hc
    obtain rfl := Option.some.inj hc
    refine ⟨fun hnot => WorkerStage.noConfusion hnot, fun hnot => Bool.noConfusion hnot, ?_, ?_,
      ?_, fun hnot => Bool.noConfusion hnot⟩
    · intro _
      rw [hsessions, List.length_append, List.length_singleton]
    · intro hup
      rw [hended] at hup
      exact absurd hendedDown hup
    · intro hup
      rw [hshutdown] at hup
      exact absurd hshutdownDown hup

theorem Signalled.chatUpdate (h : app.Signalled) (session : Nat) :
    (app.chatUpdate session).Signalled := by
  rw [ClientApp.chatUpdate]
  split
  · next signal htaken =>
      obtain ⟨hsound, hup, hdown⟩ := h.ended.tryAcquire htaken
      have hlength := List.length_modify (fun c : Session => { c with reportedLost := true })
        app.sessions session
      have hover : ∀ (other : Nat) c, app.sessions[other]? = some c → c.ended = true := by
        intro other c hc
        refine (h.agrees other c hc).endedUp ?_
        rw [hup]
        exact Nat.one_ne_zero
      refine .ofModify rfl hsound h.shutdown (fun c hc => ?_) fun other d _ hd => ?_
      · have hagrees := h.agrees session c hc
        refine ⟨hagrees.requested, fun _ => hover session c hc, ?_, fun hnot => absurd hdown hnot,
          ?_, hagrees.pending⟩
        · intro hnot
          cases (hover session c hc).symm.trans hnot
        · intro hup hphase hlast
          rw [hlength] at hlast
          exact hagrees.shutdownUp hup hphase hlast
      · have hagrees := h.agrees other d hd
        refine ⟨hagrees.requested, hagrees.lost, ?_, fun hnot => absurd hdown hnot, ?_,
          hagrees.pending⟩
        · intro hnot
          cases (hover other d hd).symm.trans hnot
        · intro hup hphase hlast
          rw [hlength] at hlast
          exact hagrees.shutdownUp hup hphase hlast
  · exact h

/-- A window that is open has not been closed before, so the signal is down. -/
theorem Signalled.chatClosed (h : app.Signalled) {session : Nat}
    (hlast : session + 1 = app.sessions.length) (hopen : app.isOpen session = true)
    (hphase : app.phase ≠ .done) : (app.chatClosed session).Signalled := by
  obtain ⟨c, hc, hwindow⟩ := (Option.any_eq_true _ _).mp hopen
  have hdown : app.shutdownConnectionSignal.count = 0 := by
    by_contra hup
    cases hwindow.symm.trans ((h.agrees session c hc).shutdownUp hup hphase hlast)
  have hup : app.shutdownConnectionSignal.release.count ≠ 0 := Nat.succ_ne_zero _
  have hlength : (app.chatClosed session).sessions.length = app.sessions.length :=
    List.length_modify _ app.sessions session
  refine .ofModify rfl h.ended (h.shutdown.release hdown) (fun c hc => ?_) fun other d hother hd =>
    ?_
  · have hagrees := h.agrees session c hc
    refine ⟨fun _ => .inl rfl, hagrees.lost, fun hnot => ?_, hagrees.endedUp, fun _ _ _ => rfl,
      fun _ _ => hup⟩
    rw [hlength]
    exact hagrees.running hnot
  · have hagrees := h.agrees other d hd
    refine ⟨hagrees.requested, hagrees.lost, ?_, hagrees.endedUp, ?_, fun _ _ => hup⟩
    · intro hnot
      rw [hlength]
      exact hagrees.running hnot
    · intro _ _ hlast'
      rw [hlength] at hlast'
      omega

theorem Signalled.update (h : app.Signalled) (hseated : app.Seated)
    (happlied : app.ui.opQueue = []) (hfresh : app.Fresh .update) : app.update.Signalled := by
  have hphase := app.update_phase
  rw [ClientApp.update] at hphase ⊢
  cases hstack : app.ui.stack with
  | nil => exact h
  | cons screen rest =>
      cases screen with
      | connect => exact h
      | connecting attempt =>
          rw [hstack] at hphase
          obtain ⟨hended, hshutdown, hcase | hcase | ⟨hstarts, -, hsessions⟩⟩ :=
            connectingScreenUpdate_cases hstack
          · exact h.congr hcase.2 hended hshutdown (by rw [hphase])
          · exact h.congr hcase.2 hended hshutdown (by rw [hphase])
          · obtain ⟨hendedDown, hshutdownDown⟩ := hfresh hstarts
            exact h.startSession (hseated.absent happlied hstack rfl).2 hendedDown hshutdownDown
              hended hshutdown hphase hsessions
      | chat session => exact h.chatUpdate session

theorem Signalled.renderScreen (h : app.Signalled) (hseated : app.Seated)
    (hphase : app.phase ≠ .done) (input : FrameInput) : (app.renderScreen input).Signalled := by
  rw [ClientApp.renderScreen]
  cases hstack : app.ui.stack with
  | nil => exact h
  | cons screen rest =>
      cases screen with
      | connect =>
          obtain ⟨hsessions, hended, hshutdown, hsame⟩ :=
            connectButton_keeps input.submissions app
          exact h.congr hsessions hended hshutdown (by rw [hsame])
      | connecting attempt =>
          simp only
          split
          · exact h.congr rfl rfl rfl Iff.rfl
          · exact h
      | chat session =>
          simp only
          split
          · next hclose =>
              have hlast := hseated.last session (hstack ▸ List.mem_cons_self)
              exact h.chatClosed hlast (Bool.and_eq_true_iff.mp hclose).1 hphase
          · exact h

theorem Signalled.exec (h : app.Signalled) (hframed : app.Framed) (hseated : app.Seated)
    {l : AppEvent} (hfresh : app.Fresh l) (hexec : app.exec l = some app') : app'.Signalled := by
  rcases exec_cases hexec with hl | ⟨rfl, hphase, rfl⟩ | ⟨rfl, hphase, rfl⟩ |
    ⟨input, rfl, hphase, rfl⟩ | ⟨rfl, -, rfl⟩
  · exact h.background hl hexec
  · refine h.congr rfl rfl rfl ?_
    rcases hphase with hphase | hphase
    · simp [hphase]
    · simp [hphase]
  · refine (h.update hseated (hframed.applied hphase) hfresh).congr rfl rfl rfl ?_
    simp [update_phase, hphase]
  · have hrender := h.renderScreen hseated (by simp [hphase]) input
    obtain ⟨hended, hshutdown⟩ := renderError_signals input (app.renderScreen input)
    refine hrender.congr (renderError_sessions _ _) hended hshutdown ?_
    simp [renderScreen_phase, hphase]
  · have hup : app.shutdownConnectionSignal.release.count ≠ 0 := Nat.succ_ne_zero _
    refine ⟨h.ended, h.shutdown.release hfresh, fun session c hc => ?_⟩
    have hagrees := h.agrees session c hc
    exact ⟨fun _ => .inr rfl, hagrees.lost, hagrees.running, hagrees.endedUp,
      fun _ hnot => absurd rfl hnot, fun _ _ => hup⟩

/-! ## Where the condition is not met -/

/-- Some order of the threads mixes up the signals. -/
abbrev MixesUp : ClientApp → Prop := LabelledSystem.LeadsTo exec fun app => ¬ app.Isolated

theorem getElem?_setWorker {session : Nat} {c : Session} (stage : WorkerStage)
    (hc : app.sessions[session]? = some c) :
    (app.setWorker session stage).sessions[session]? = some { c with worker := stage } := by
  simp [setWorker, setSession, hc]

/-- A worker takes the signal that it finds up, whoever has released it. -/
theorem mixesUp_of_shutdown_up {session : Nat} (hsession : app.sessions[session]? = some .start)
    (hphase : app.phase ≠ .done) (hup : app.shutdownConnectionSignal.count ≠ 0) :
    app.MixesUp := by
  have hcondition := getElem?_setWorker .condition hsession
  have hpolling := getElem?_setWorker .polling hcondition
  have htaken : ∃ signal, app.shutdownConnectionSignal.tryAcquire = some signal :=
    ⟨_, if_pos (Nat.pos_of_ne_zero hup)⟩
  obtain ⟨signal, htaken⟩ := htaken
  refine .step (.worker session .succeeds) (app.setWorker session .condition) ?_ ?_
  · simp [exec, workerStep, hsession, Session.start]
  refine .step (.worker session .succeeds)
    ((app.setWorker session .condition).setWorker session .polling) ?_ ?_
  · simp [exec, workerStep, hcondition, Session.start]
  refine .step (.worker session .succeeds)
    (((app.setWorker session .condition).setWorker session .polling).shutDownWorker
      session signal) ?_ (.here fun hisolated => ?_)
  · simp only [exec, workerStep, hpolling, Option.bind_some]
    simp [setWorker, setSession, htaken]
  · have hended := hisolated.requested session
      { Session.start with worker := .ended .byRequest, connected := false } ?_ rfl
    · rcases hended with hclosed | hdone
      · cases hclosed
      · exact hphase hdone
    · simp [shutDownWorker, setSession, hpolling]

/-- A chat screen takes the signal that it finds up. -/
theorem mixesUp_of_ended_up {session : Nat} {attempt : Nat} {rest below : List Screen}
    (hsession : app.sessions[session]? = some .start) (hphase : app.phase = .rendering)
    (hstack : app.ui.stack = .connecting attempt :: rest)
    (hsettled : app.ui.settled = .chat session :: below)
    (hup : app.connectionEndedSignal.count ≠ 0) : app.MixesUp := by
  have htaken : ∃ signal, app.connectionEndedSignal.tryAcquire = some signal :=
    ⟨_, if_pos (Nat.pos_of_ne_zero hup)⟩
  obtain ⟨signal, htaken⟩ := htaken
  refine .step (.render .idle) { app with phase := .rendered } ?_ ?_
  · simp [exec, hphase, renderScreen, hstack, renderError, FrameInput.idle]
  refine .step .applyRequests { app with phase := .updating, ui := app.ui.apply } ?_ ?_
  · simp [exec]
  refine .step .update
    { ({ app with phase := .updating, ui := app.ui.apply } : ClientApp).chatUpdate session
      with phase := .rendering } ?_ (.here fun hisolated => ?_)
  · simp [exec, update, DeferredStack.apply, hsettled]
  · have hended := hisolated.lost session { Session.start with reportedLost := true } ?_ rfl
    · cases hended
    · simp [chatUpdate, htaken, hsession]

theorem update_of_startsSession (h : app.startsSession = true) :
    ∃ attempt rest, app.ui.stack = .connecting attempt :: rest ∧
      app.update.ui = app.ui.pop.push (.chat app.sessions.length) ∧
      app.update.sessions = app.sessions ++ [.start] ∧
      app.update.connectionEndedSignal = app.connectionEndedSignal ∧
      app.update.shutdownConnectionSignal = app.shutdownConnectionSignal := by
  rw [startsSession] at h
  split at h
  · next attempt rest hstack =>
      simp only [Bool.and_eq_true, decide_eq_true_eq] at h
      obtain ⟨⟨hsignal, hcancelled⟩, hconnected⟩ := h
      refine ⟨attempt, rest, hstack, ?_⟩
      simp [update, hstack, connectingScreenUpdate, BinarySemaphore.tryAcquire, hsignal,
        hcancelled, hconnected]
  · cases h

/-- **Every step that does not meet the condition can mix up the signals.** -/
theorem mixed_up_of_not_fresh {l : AppEvent} (hstale : ¬ app.Fresh l)
    (hexec : app.exec l = some app') : app'.MixesUp := by
  rcases exec_cases hexec with hl | ⟨rfl, -, -⟩ | ⟨rfl, -, rfl⟩ | ⟨input, rfl, -, -⟩ | ⟨rfl, -, rfl⟩
  · cases l with
    | quit => cases hl
    | update => cases hl
    | _ => exact absurd trivial hstale
  · exact absurd trivial hstale
  · rw [Fresh, Classical.not_imp] at hstale
    obtain ⟨hstarts, hup⟩ := hstale
    obtain ⟨attempt, rest, hstack, hui, hsessions, hended, hshutdown⟩ :=
      update_of_startsSession hstarts
    have hsession : app.update.sessions[app.sessions.length]? = some .start := by
      rw [hsessions, List.getElem?_concat_length]
    by_cases hdown : app.connectionEndedSignal.count = 0
    · refine mixesUp_of_shutdown_up hsession (fun hdone => Phase.noConfusion hdone) ?_
      rw [hshutdown]
      exact fun hdown' => hup ⟨hdown, hdown'⟩
    · have hstack' : app.update.ui.stack = .connecting attempt :: rest := by
        rw [hui]
        exact hstack
      have hsettled : app.update.ui.settled
          = .chat app.sessions.length :: app.ui.pop.settled := by
        rw [hui, DeferredStack.settled_push]
      refine mixesUp_of_ended_up hsession rfl hstack' hsettled ?_
      rw [hended]
      exact hdown
  · exact absurd trivial hstale
  · refine .here fun hisolated => ?_
    have hover := hisolated.shutdownOnce
    have hup : 0 < app.shutdownConnectionSignal.count := Nat.pos_of_ne_zero hstale
    simp [BinarySemaphore.release, hup] at hover

end ClientApp

variable {app : ClientApp}

theorem seated_of_reachable {allowed : ClientApp → AppEvent → Prop}
    (h : clientSystem.Reachable allowed app) : app.Seated := by
  refine h.invariant ?_ ?_
  · rintro app rfl
    exact ClientApp.seated_start
  · rintro app l app' hreached hseated - hexec
    exact hseated.exec (framed_of_reachable hreached) hexec

/-- **Sessions do not see each other's signals**, in every run in which a session starts
while both signals are down, and the program ends while `shutdown_connection_signal` is. -/
theorem signals_isolated (h : clientSystem.Reachable ClientApp.Fresh app) : app.Isolated := by
  have hsignalled : app.Signalled := by
    refine h.invariant ?_ ?_
    · rintro app rfl
      refine ⟨BinarySemaphore.sound_create, BinarySemaphore.sound_create, fun session c hc => ?_⟩
      cases hc
    · rintro app l app' hreached hsignalled hfresh hexec
      exact hsignalled.exec (framed_of_reachable hreached) (seated_of_reachable hreached) hfresh
        hexec
  exact hsignalled.isolated

instance (app : ClientApp) : (l : AppEvent) → Decidable (app.Fresh l)
  | .update => inferInstanceAs (Decidable (_ → _ ∧ _))
  | .quit => inferInstanceAs (Decidable (_ = _))
  | .applyRequests | .render _ | .connectThread _ | .connectionLost | .worker _ _
  | .peerCloses _ => .isTrue trivial

/-- A worker that has been told to shut down gets to know it. -/
def toShutdown (session : Nat) : List AppEvent :=
  [.worker session .succeeds, .worker session .succeeds, .worker session .succeeds]

/-- Two sessions, the first of which was closed, and its worker has heard of it. -/
theorem signals_isolated_twoSessions : ∃ app : ClientApp,
    app.sessions = [⟨false, false, false, .ended .byRequest⟩, .start] ∧ app.Isolated := by
  obtain ⟨app, happ, htest⟩ := clientSystem.exists_of_execute ClientApp.Fresh
    (fun _ _ _ h => h) rfl
    (connecting ++ [.update, .render .closeWindow] ++ toShutdown 0 ++ connecting)
    (fun app => app.sessions = [⟨false, false, false, .ended .byRequest⟩, .start])
    (by decide +kernel)
  exact ⟨app, of_decide_eq_true htest, signals_isolated happ⟩

/-- What is left over when a window was closed and its worker has ended by itself. -/
def leftOver : List AppEvent :=
  connecting ++ [.update, .render .closeWindow, .peerCloses 0, .worker 0 .succeeds]

/-- **The signals leak.**  The next session's worker shuts down by request although its
window is open, or its window reports the connection as lost although its worker is
running; and a program that ends before the worker has looked releases a signal that
is up. -/
theorem signals_leak :
    (∃ app : ClientApp, clientSystem.Reachable LabelledSystem.anyStep app ∧ app.phase ≠ .done ∧
      app.sessions[1]? = some ⟨true, false, false, .ended .byRequest⟩) ∧
    (∃ app : ClientApp, clientSystem.Reachable LabelledSystem.anyStep app ∧
      app.sessions[1]? = some ⟨true, true, true, .greeting⟩) ∧
    ∃ app : ClientApp, clientSystem.Reachable LabelledSystem.anyStep app ∧
      app.shutdownConnectionSignal.overReleased = true := by
  refine ⟨?_, ?_, ?_⟩
  · obtain ⟨app, happ, htest⟩ := clientSystem.exists_of_execute LabelledSystem.anyStep
      (fun _ _ _ h => h) rfl
      (leftOver ++ connecting ++ toShutdown 1)
      (fun app => app.phase ≠ .done ∧
        app.sessions[1]? = some ⟨true, false, false, .ended .byRequest⟩) (by decide +kernel)
    exact ⟨app, happ, of_decide_eq_true htest⟩
  · obtain ⟨app, happ, htest⟩ := clientSystem.exists_of_execute LabelledSystem.anyStep
      (fun _ _ _ h => h) rfl
      (leftOver ++ connecting ++ [.update])
      (fun app => app.sessions[1]? = some ⟨true, true, true, .greeting⟩) (by decide +kernel)
    exact ⟨app, happ, of_decide_eq_true htest⟩
  · obtain ⟨app, happ, htest⟩ := clientSystem.exists_of_execute LabelledSystem.anyStep
      (fun _ _ _ h => h) rfl
      (connecting ++ [.update, .render .closeWindow, .quit])
      (fun app => app.shutdownConnectionSignal.overReleased = true) (by decide +kernel)
    exact ⟨app, happ, of_decide_eq_true htest⟩

end Tavernmx.Client
