import Cuesheet.Proofs.Bridge.Attention
import Cuesheet.Proofs.Invocation.Refusal

/-!
# What a line does

A line that is read is blank, or is refused, or is carried out, and nothing lies between. A blank line
does nothing. A refused line is answered with one rejection, and the form and the runner stay as they
are. A line that is carried out does all that its operation stands for; `Effect` says for each operation
what that is, and none of the events that it sends is a rejection.

So the form in force has one origin only: it is the last one that an operation set while no run was
active, or else the saved one. And the form in force when a run is started is the one that it is launched
with, whatever is set later.
-/

namespace Cuesheet.Service

open Utf8

def send (s : Service) (e : Event) : Service := { s with bridge := s.bridge.send e }

/-- An operation that is carried out: what it sends, and what comes of it. -/
inductive Effect (s : Service) (around : Surroundings) : Operation → List Event → Step → Prop where
  | setConfiguration (c : Configuration) (hidle : s.isRunning = false) :
      Effect s around (.setConfiguration c) []
        { service := { s with bridge := { s.bridge with configuration := c } } }
  | previewArguments (command : List String)
      (hcommand : Invocation.preview around.host s.bridge.locator s.bridge.configuration
        = .ok command) :
      Effect s around .previewArguments [.argumentsPreview command]
        { service := s.send (.argumentsPreview command) }
  | start (command : Invocation.Command) (hidle : s.isRunning = false)
      (hcommand : Invocation.command around.host s.bridge.locator s.bridge.configuration
        = .ok command) :
      Effect s around .start
        [.runStarted around.birth.id around.birth.pid command.display around.birth.time,
          .statusChanged .inProgress RunStatus.inProgress.message]
        { service := { s with bridge := { s.bridge with controller :=
            { state :=
                { status := .inProgress
                  active := some (around.birth.run s.bridge.configuration)
                  lastRun := some around.birth.id }
              watchers := s.bridge.controller.watchers ++ [{ run := around.birth.id }]
              sent := s.sent ++
                [.runStarted around.birth.id around.birth.pid command.display around.birth.time,
                  .statusChanged .inProgress RunStatus.inProgress.message] } } }
          launched := some command }
  | cancel (run : ActiveRun) (k : Controller)
      (hrun : s.bridge.controller.state.active = some run)
      (hstate : k.state =
        { s.bridge.controller.state with active := some { run with cancelRequested := true } })
      (hwatchers : k.watchers.map (·.run) = s.bridge.controller.watchers.map (·.run))
      (hsent : k.sent = s.sent) :
      Effect s around .cancel [] { service := { s with bridge := { s.bridge with controller := k } } }
  | acknowledge (hidle : s.isRunning = false)
      (hdone : s.bridge.controller.state.status.isTerminal = true) :
      Effect s around .acknowledge [.statusChanged .idle RunStatus.idle.message]
        { service := { s with bridge := { s.bridge with controller :=
            { s.bridge.controller with
              state := { s.bridge.controller.state with status := .idle }
              sent := s.sent ++ [.statusChanged .idle RunStatus.idle.message] } } } }
  | getState :
      Effect s around .getState [.stateSnapshot s.bridge.controller.state.snapshot]
        { service := s.send (.stateSnapshot s.bridge.controller.state.snapshot) }
  | shutdown : Effect s around .shutdown [] { service := s.close }

/-- Why a line is refused: it is no operation, or the operation cannot be carried out. -/
inductive Refused (s : Service) (around : Surroundings) : Option Operation → Rejection → Prop where
  | nonsense (complaint : String) : Refused s around none (.malformed complaint)
  | formInUse (c : Configuration) (hrun : s.isRunning = true) :
      Refused s around (some (.setConfiguration c)) .formInUse
  | noCommand (fault : Invocation.Fault)
      (hcommand : Invocation.preview around.host s.bridge.locator s.bridge.configuration
        = .error fault) :
      Refused s around (some .previewArguments) (.fault fault)
  | notStarted (fault : Invocation.Fault)
      (hstart : s.bridge.controller.start around.host s.bridge.locator s.bridge.configuration
        around.birth = .error fault) :
      Refused s around (some .start) (.fault fault)
  | notRunning (hidle : s.isRunning = false) :
      Refused s around (some .cancel) (.fault .notRunning)
  | nothingToAcknowledge (hack : s.bridge.controller.acknowledge? = none) :
      Refused s around (some .acknowledge) .nothingToAcknowledge

section Lines

variable {s : Service} {around : Surroundings} {bytes : Bytes}

theorem sent_close (s : Service) : s.close.sent = s.sent := by
  rcases close_eq s with ⟨_, hclose⟩ | ⟨k, _, hcancel, hclose⟩
  · rw [hclose]
    rfl
  · obtain ⟨_, _, _, _, hsent⟩ := Controller.cancel?_eq_some hcancel
    rw [hclose]
    exact hsent

/-- The events of an effect are those by which the service has sent more than before. -/
theorem Effect.sent {op : Operation} {events : List Event} {step : Step}
    (h : Effect s around op events step) : step.service.sent = s.sent ++ events := by
  cases h with
  | setConfiguration c hidle => exact (List.append_nil _).symm
  | cancel run k hrun hstate hwatchers hsent => exact hsent.trans (List.append_nil _).symm
  | shutdown => exact (sent_close s).trans (List.append_nil _).symm
  | _ => rfl

/-- What is carried out is not rejected. -/
theorem Effect.not_rejected {op : Operation} {events : List Event} {step : Step}
    (h : Effect s around op events step) (error : String) : .commandRejected error ∉ events := by
  cases h <;> simp only [List.mem_cons, List.not_mem_nil, reduceCtorEq, or_self, not_false_eq_true]

/-- An operation is refused for a reason, or has its effect. -/
theorem apply_cases (s : Service) (around : Surroundings) {op : Operation} (hop : op ≠ .shutdown) :
    (∃ reason, Refused s around (some op) reason ∧
        s.bridge.apply around op = { bridge := s.bridge.reject reason }) ∨
      ∃ events, Effect s around op events
        { service := { s with bridge := (s.bridge.apply around op).bridge }
          launched := (s.bridge.apply around op).launched } := by
  cases op with
  | setConfiguration c =>
    by_cases hrun : s.bridge.controller.state.isRunning = true
    · exact .inl ⟨_, .formInUse c hrun, by simp only [Bridge.apply, if_pos hrun]⟩
    · simp only [Bridge.apply, if_neg hrun]
      exact .inr ⟨_, .setConfiguration c (Bool.eq_false_iff.mpr hrun)⟩
  | previewArguments =>
    rcases hpreview : Invocation.preview around.host s.bridge.locator s.bridge.configuration
      with fault | command
    · exact .inl ⟨_, .noCommand fault hpreview, by simp only [Bridge.apply, hpreview]⟩
    · simp only [Bridge.apply, hpreview]
      exact .inr ⟨_, .previewArguments command hpreview⟩
  | start =>
    rcases hstart : s.bridge.controller.start around.host s.bridge.locator s.bridge.configuration
      around.birth with fault | launched
    · exact .inl ⟨_, .notStarted fault hstart, by simp only [Bridge.apply, hstart]⟩
    · obtain ⟨hidle, hlaunched⟩ := Controller.start_eq_ok hstart
      simp only [Bridge.apply, hstart, hlaunched]
      exact .inr ⟨_, .start launched.command (RunState.isRunning_eq_false.mpr hidle)
        (Controller.command_of_start hstart).1⟩
  | cancel =>
    rcases hcancel : s.bridge.controller.cancel? with _ | k
    · exact .inl ⟨_, .notRunning (cancel?_eq_none.mp hcancel), by simp only [Bridge.apply, hcancel]⟩
    · obtain ⟨run, hrun, hstate, hwatchers, hsent⟩ := Controller.cancel?_eq_some hcancel
      simp only [Bridge.apply, hcancel]
      exact .inr ⟨_, .cancel run k hrun hstate hwatchers hsent⟩
  | acknowledge =>
    rcases hack : s.bridge.controller.acknowledge? with _ | k
    · exact .inl ⟨_, .nothingToAcknowledge hack, by simp only [Bridge.apply, hack]⟩
    · obtain ⟨hidle, hdone, rfl⟩ := Controller.acknowledge?_eq_some hack
      simp only [Bridge.apply, hack]
      exact .inr ⟨_, .acknowledge (RunState.isRunning_eq_false.mpr hidle) hdone⟩
  | getState => exact .inr ⟨_, .getState⟩
  | shutdown => exact absurd rfl hop

theorem step_blank (hreading : s.stage = .reading) (hblank : isBlank bytes = true) :
    s.step around (.line bytes) = { service := s } := by
  rcases hline : decode? bytes with _ | line
  · rw [isBlank, hline] at hblank
    cases hblank
  · rw [isBlank, hline, Option.any_some] at hblank
    simp only [step, take, if_pos hreading, hline, Bridge.take, if_pos hblank, reduceCtorEq,
      if_false]

/-- A line that is an operation has the bridge apply it. -/
theorem take_operation (b : Bridge) (around : Surroundings) {op : Operation}
    (hop : operation? bytes = some op) :
    ∃ line, decode? bytes = some line ∧ b.take around line = b.apply around op := by
  obtain ⟨line, hline, hread⟩ := Option.bind_eq_some_iff.mp hop
  refine ⟨line, hline, ?_⟩
  split at hread
  · cases hread
  rename_i hblank
  rcases hop' : Wire.operation.readJson line with reason | op'
  · rw [hop'] at hread
    cases hread
  · rw [hop'] at hread
    obtain rfl := Option.some.inj hread
    simp only [Bridge.take, if_neg hblank, hop']

theorem step_shutdown (hreading : s.stage = .reading) (hop : operation? bytes = some .shutdown) :
    s.step around (.line bytes) = { service := s.close } := by
  obtain ⟨line, hline, htake⟩ := take_operation s.bridge around hop
  simp only [step, take, if_pos hreading, hline, htake, Bridge.apply, if_true]

/-- **A line is blank, or refused, or carried out.** -/
theorem step_line (around : Surroundings) (hreading : s.stage = .reading) (htext : IsText bytes) :
    (isBlank bytes = true ∧ s.step around (.line bytes) = { service := s }) ∨
      isBlank bytes = false ∧
        ((∃ reason, Refused s around (operation? bytes) reason ∧
            s.step around (.line bytes) =
              { service := s.send (.commandRejected reason.message) }) ∨
          ∃ op events, operation? bytes = some op ∧
            Effect s around op events (s.step around (.line bytes))) := by
  by_cases hblank : isBlank bytes = true
  · exact .inl ⟨hblank, step_blank hreading hblank⟩
  rw [Bool.not_eq_true] at hblank
  refine .inr ⟨hblank, ?_⟩
  rcases hop : operation? bytes with _ | op
  · obtain ⟨complaint, hstep⟩ := @step_nonsense s around bytes hreading htext ⟨hblank, hop⟩
    exact .inl ⟨.malformed complaint, .nonsense complaint, hstep⟩
  by_cases hshutdown : op = .shutdown
  · subst hshutdown
    rw [step_shutdown hreading hop]
    exact .inr ⟨_, _, rfl, .shutdown⟩
  · rw [step_operation hreading hop hshutdown]
    rcases apply_cases s around hshutdown with ⟨reason, hrefused, happly⟩ | ⟨events, heffect⟩
    · rw [happly]
      exact .inl ⟨reason, hrefused, rfl⟩
    · exact .inr ⟨op, events, rfl, heffect⟩

end Lines

/-! ### The form in force -/

/-- The form that an occurrence sets: lines are read, no run is active, and it is an operation to set
    the form. -/
def form? (s : Service) : Occurrence → Option Configuration
  | .line bytes =>
    if s.stage = .reading ∧ s.isRunning = false then
      match operation? bytes with
      | some (.setConfiguration c) => some c
      | _ => none
    else none
  | _ => none

/-- The forms that are set in the course of a service, in order. -/
def forms (s : Service) : List Happening → List Configuration
  | [] => []
  | h :: rest => (s.form? h.2).toList ++ (s.step h.1 h.2).service.forms rest

/-- The form in force and the way to the tool, which nothing but an operation on the form changes. -/
theorem bridge_proceed (s : Service) (k : Controller) :
    (if s.watches then s.proceed k else s).bridge.configuration = s.bridge.configuration ∧
      (if s.watches then s.proceed k else s).bridge.locator = s.bridge.locator := by
  split <;> exact ⟨rfl, rfl⟩

theorem bridge_close (s : Service) :
    s.close.bridge.configuration = s.bridge.configuration ∧
      s.close.bridge.locator = s.bridge.locator := by
  rcases close_eq s with ⟨_, hclose⟩ | ⟨_, _, _, hclose⟩
  all_goals rw [hclose]; exact ⟨rfl, rfl⟩

/-- An effect sets the form if its operation is to set it, which then no run is in the way of. -/
theorem Effect.bridge {s : Service} {around : Surroundings} {bytes : Bytes} {op : Operation}
    {events : List Event} {step : Step} (hreading : s.stage = .reading)
    (hop : operation? bytes = some op) (h : Effect s around op events step) :
    step.service.bridge.configuration = (s.form? (.line bytes)).getD s.bridge.configuration ∧
      step.service.bridge.locator = s.bridge.locator := by
  cases h with
  | setConfiguration c hidle =>
    have hform : s.form? (.line bytes) = some c := by
      simp only [form?, hop, if_pos (And.intro hreading hidle)]
    rw [hform]
    exact ⟨rfl, rfl⟩
  | shutdown =>
    have hform : s.form? (.line bytes) = none := by simp only [form?, hop, ite_self]
    rw [hform]
    exact bridge_close s
  | _ =>
    have hform : s.form? (.line bytes) = none := by simp only [form?, hop, ite_self]
    rw [hform]
    exact ⟨rfl, rfl⟩

/-- A refused line sets no form. -/
theorem Refused.form? {s : Service} {around : Surroundings} {bytes : Bytes} {reason : Rejection}
    (h : Refused s around (operation? bytes) reason) : s.form? (.line bytes) = none := by
  dsimp only [Service.form?]
  generalize operation? bytes = op at h
  cases h with
  | formInUse c hrun =>
    have hnot : ¬ (s.stage = .reading ∧ s.isRunning = false) := by
      rw [hrun]
      exact fun h => nomatch h.2
    rw [if_neg hnot]
  | _ => exact ite_self _

theorem operation?_of_blank {bytes : Bytes} (hblank : isBlank bytes = true) :
    operation? bytes = none := by
  rcases hline : decode? bytes with _ | line
  · rw [operation?, hline, Option.bind_none]
  · rw [isBlank, hline, Option.any_some] at hblank
    rw [operation?, hline, Option.bind_some, if_pos hblank]

theorem form?_of_no_operation {s : Service} {bytes : Bytes} (hop : operation? bytes = none) :
    s.form? (.line bytes) = none := by
  simp only [Service.form?, hop, ite_self]

/-- **Only an operation that sets the form changes the form in force.** -/
theorem bridge_step (s : Service) (around : Surroundings) (o : Occurrence) :
    (s.step around o).service.bridge.configuration = (s.form? o).getD s.bridge.configuration ∧
      (s.step around o).service.bridge.locator = s.bridge.locator := by
  cases o with
  | line bytes =>
    by_cases hreading : s.stage = .reading
    · by_cases htext : IsText bytes
      · rcases step_line around hreading htext with
          ⟨hblank, hstep⟩ | ⟨_, ⟨reason, hrefused, hstep⟩ | ⟨op, events, hop, heffect⟩⟩
        · rw [hstep, form?_of_no_operation (operation?_of_blank hblank)]
          exact ⟨rfl, rfl⟩
        · rw [hstep, hrefused.form?]
          exact ⟨rfl, rfl⟩
        · exact heffect.bridge hreading hop
      · rw [step_noText hreading htext,
          form?_of_no_operation (nonsense_of_not_isText htext).2]
        exact ⟨rfl, rfl⟩
    · have hnot : ¬ (s.stage = .reading ∧ s.isRunning = false) := fun h => hreading h.1
      simp only [step, take, if_neg hreading, Service.form?, if_neg hnot, Option.getD_none, and_self]
  | endOfInput =>
    simp only [step]
    split
    · exact bridge_close s
    · exact ⟨rfl, rfl⟩
  | output id stream piece => exact bridge_proceed s _
  | exit id code => exact bridge_proceed s _

/-- **The form in force is the last one that was set.** -/
theorem bridge_after (s : Service) (happenings : List Happening) :
    (s.after happenings).bridge.configuration =
        (s.forms happenings).getLastD s.bridge.configuration ∧
      (s.after happenings).bridge.locator = s.bridge.locator := by
  induction happenings generalizing s with
  | nil => exact ⟨rfl, rfl⟩
  | cons h rest ih =>
    obtain ⟨hform, hlocator⟩ := bridge_step s h.1 h.2
    obtain ⟨hrest, hsame⟩ := ih (s.step h.1 h.2).service
    refine ⟨?_, hsame.trans hlocator⟩
    show ((s.step h.1 h.2).service.after rest).bridge.configuration = _
    rw [hrest, hform, forms]
    cases s.form? h.2 with
    | none => rfl
    | some c => exact (List.getLastD_cons ..).symm

/-! ### Lines and launches -/

/-- What is launched comes of a line that asks for a start, and is the command of the form in force. -/
theorem step_of_launched {s : Service} {around : Surroundings} {o : Occurrence}
    {command : Invocation.Command} (h : (s.step around o).launched = some command) :
    ∃ bytes, o = .line bytes ∧ operation? bytes = some .start ∧
      Invocation.command around.host s.bridge.locator s.bridge.configuration = .ok command ∧
      (s.step around o).service.bridge.controller.state.active =
        some (around.birth.run s.bridge.configuration) := by
  cases o with
  | line bytes =>
    refine ⟨bytes, rfl, ?_⟩
    by_cases hreading : s.stage = .reading
    · by_cases htext : IsText bytes
      · rcases step_line around hreading htext with
          ⟨_, hstep⟩ | ⟨_, ⟨reason, _, hstep⟩ | ⟨op, events, hop, heffect⟩⟩
        · rw [hstep] at h
          cases h
        · rw [hstep] at h
          cases h
        · generalize s.step around (.line bytes) = step at h heffect
          cases heffect with
          | start command' hidle hcommand =>
            obtain rfl := Option.some.inj h
            exact ⟨hop, hcommand, rfl⟩
          | _ => cases h
      · rw [step_noText hreading htext] at h
        cases h
    · simp only [step, take, if_neg hreading, reduceCtorEq] at h
  | _ => cases h

/-- What is known of a line that is read: the events that it is answered with, and all that comes of
    it. -/
structure Answered (s : Service) (around : Surroundings) (bytes : Bytes) (events : List Event) :
    Prop where
  sent : (s.step around (.line bytes)).service.sent = s.sent ++ events
  blank : isBlank bytes = true → events = [] ∧ s.step around (.line bytes) = { service := s }
  /-- A rejection is the only answer, and nothing else changes. -/
  rejected : ∀ error, .commandRejected error ∈ events →
    events = [.commandRejected error] ∧
      s.step around (.line bytes) = { service := s.send (.commandRejected error) } ∧
      (s.send (.commandRejected error)).bridge.configuration = s.bridge.configuration ∧
      (s.send (.commandRejected error)).bridge.controller.state = s.bridge.controller.state ∧
      ∃ reason, Refused s around (operation? bytes) reason ∧ error = reason.message
  /-- Any other line is an operation, and has its whole effect. -/
  carriedOut : isBlank bytes = false → (∀ error, .commandRejected error ∉ events) →
    ∃ op, operation? bytes = some op ∧ Effect s around op events (s.step around (.line bytes))

theorem answered_of_reading {s : Service} (around : Surroundings) {bytes : Bytes}
    (hreading : s.stage = .reading) (htext : IsText bytes) : ∃ events, Answered s around bytes events := by
  rcases step_line around hreading htext with
    ⟨hblank, hstep⟩ | ⟨hblank, ⟨reason, hrefused, hstep⟩ | ⟨op, events, hop, heffect⟩⟩
  · refine ⟨[], ?_, fun _ => ⟨rfl, hstep⟩, ?_, ?_⟩
    · rw [hstep, List.append_nil]
    · exact fun _ h => (List.not_mem_nil h).elim
    · intro hnot
      rw [hblank] at hnot
      cases hnot
  · refine ⟨[.commandRejected reason.message], ?_, ?_, ?_, ?_⟩
    · rw [hstep]
      rfl
    · intro hnot
      rw [hblank] at hnot
      cases hnot
    · intro error herror
      obtain rfl := Event.commandRejected.inj (List.mem_singleton.mp herror)
      exact ⟨rfl, hstep, rfl, rfl, reason, hrefused, rfl⟩
    · intro _ hnone
      exact absurd List.mem_cons_self (hnone reason.message)
  · refine ⟨events, heffect.sent, ?_, ?_, fun _ _ => ⟨op, hop, heffect⟩⟩
    · intro hnot
      rw [hblank] at hnot
      cases hnot
    · exact fun error herror => absurd herror (heffect.not_rejected error)

/-- **What lines do, from the first to the last.** Whatever form is saved, and whatever happens in which
    order: the form in force is the last one that an operation set while lines were read and no run was
    active, or the saved one; what is launched is its command, for a run that takes the file to open from it;
    and as long as no ending has come, a line that is text is blank and does nothing, or is answered with one
    rejection that changes nothing else, or is an operation that has its whole effect. -/
theorem lines_answered (b : CommandLine.Base) (happenings : List Happening) :
    let s := (CommandLine.service b).after happenings
    s.bridge.configuration = ((CommandLine.service b).forms happenings).getLastD b.defaults ∧
      (∀ around o command, (s.step around o).launched = some command →
        ∃ bytes, o = .line bytes ∧ operation? bytes = some .start ∧
          Invocation.command around.host b.locator s.bridge.configuration = .ok command ∧
          (s.step around o).service.bridge.controller.state.active =
            some (around.birth.run s.bridge.configuration)) ∧
      (firstEnding happenings = none → ∀ around bytes, IsText bytes →
        ∃ events, Answered s around bytes events) := by
  intro s
  obtain ⟨hform, hlocator⟩ := bridge_after (CommandLine.service b) happenings
  refine ⟨hform, ?_, ?_⟩
  · intro around o command hlaunched
    obtain ⟨bytes, ho, hop, hcommand, hactive⟩ := step_of_launched hlaunched
    rw [hlocator] at hcommand
    exact ⟨bytes, ho, hop, hcommand, hactive⟩
  · intro hnone around bytes htext
    have hreading : s.stage = .reading :=
      (reading_iff (s := CommandLine.service b) rfl happenings).mpr hnone
    exact answered_of_reading around hreading htext

/-- A form is set and a run of it is started. Then a form comes again, too early: it is rejected, and the first one
    stays in force. -/
theorem lines_answered_early_form :
    let b : CommandLine.Base := { locator := {}, defaults := {} }
    let around : Surroundings := ⟨.obliging, ⟨⟨7⟩, none, .epoch⟩, id⟩
    let happenings : List Happening := [(around, .line inputLine), (around, .line startLine)]
    let s := (CommandLine.service b).after happenings
    s.isRunning = true ∧ s.bridge.configuration = { inputPath := some [0x61] } ∧
      Answered s around inputLine [.commandRejected Rejection.formInUse.message] := by
  intro b around happenings s
  let set := (CommandLine.service b).bridge.apply around
    (.setConfiguration { inputPath := some [0x61] })
  have hs : s = { bridge := (set.bridge.apply around .start).bridge } := by
    simp only [s, happenings, after, List.foldl_cons, List.foldl_nil]
    rw [step_operation rfl operation?_inputLine (by decide),
      step_operation rfl operation?_startLine (by decide)]
    rfl
  have hrunning : s.isRunning = true := by
    rw [hs]
    decide
  have htext : IsText inputLine := isText_encode _
  have hreading : s.stage = .reading := by rw [hs]
  have hnone := (reading_iff (s := CommandLine.service b) rfl happenings).mp hreading
  obtain ⟨events, hanswered⟩ := (lines_answered b happenings).2.2 hnone around inputLine htext
  refine ⟨hrunning, by rw [hs]; rfl, ?_⟩
  by_cases hrejected : ∃ error, .commandRejected error ∈ events
  · obtain ⟨error, hmem⟩ := hrejected
    obtain ⟨hevents, _, _, _, reason, hrefused, rfl⟩ := hanswered.rejected error hmem
    rw [operation?_inputLine] at hrefused
    cases hrefused
    exact hevents ▸ hanswered
  · have hplain : isBlank inputLine = false := Bool.eq_false_iff.mpr fun hblank => by
      cases (operation?_of_blank hblank).symm.trans operation?_inputLine
    obtain ⟨op, hop, heffect⟩ := hanswered.carriedOut hplain fun error hmem => hrejected ⟨error, hmem⟩
    obtain rfl := Option.some.inj (operation?_inputLine.symm.trans hop)
    generalize s.step around (.line inputLine) = step at heffect
    cases heffect with
    | setConfiguration c hidle => cases hidle.symm.trans hrunning

end Cuesheet.Service
