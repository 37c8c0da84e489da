import Cuesheet.Proofs.Bridge.Lines

/-!
# The tasks of a service

A service is the work of several tasks. The main task reads lines and carries out operations; after the
ending it waits for the active run, drops its end of the channel, and waits for the writer. Each launched
tool has a watcher, which forwards what the tool writes and reports its exit some time after it. The
writer takes the events from the channel one by one; it stops when nothing is left in the channel and
nobody is left who could send. `Tasks` puts them side by side, and a `Move` is one turn of one of them, so
that a list of moves is an order in which they get their turns.

The main task waits for a limited time only, once for the run and once for the writer. Losing patience the
first time does no harm. Losing it the second time, `abandon`, leaves the writer behind.

`Turn` says once what a turn can do. However the turns come, the bridge goes through a course of the
service as it is described without tasks: the tasks refine it. So what was proved of courses holds of tasks.
-/

namespace Cuesheet

/-- How far the main task is. -/
inductive Tasks.Phase where
  | reading
  /-- The active run was told to end, and its end is waited for. -/
  | waiting
  /-- The main task sends nothing more, and waits for the writer. -/
  | flushing
  | returned
  /-- A line was no text. -/
  | broken
deriving DecidableEq, Repr

structure Tasks.Writer where
  /-- How many events it has taken from the channel. -/
  taken : Nat := 0
  lines : List String := []
  stopped : Bool := false
deriving DecidableEq, Repr

structure Tasks where
  bridge : Bridge
  phase : Tasks.Phase := .reading
  /-- The tools that have exited without a report, and their exit codes. -/
  exited : List (RunId × Int32) := []
  /-- What was handed to the operating system, the oldest first. -/
  launched : List Invocation.Command := []
  writer : Tasks.Writer := {}

namespace Tasks

/-- One turn of one task, or of a tool. -/
inductive Move where
  | line (around : Surroundings) (bytes : Bytes)
  | endOfInput
  | output (id : RunId) (stream : LogStream) (piece : Bytes)
  /-- A tool exits, by itself or because its watcher got the signal. -/
  | exit (id : RunId) (code : Int32)
  /-- The watcher of a tool that has exited reports it, and ends. -/
  | report (id : RunId)
  | look
  /-- The main task waits for the active run no longer. -/
  | hurry
  | write
  /-- The writer finds the channel empty, and nobody left who could send. -/
  | stop
  | join
  /-- The main task waits for the writer no longer. -/
  | abandon

variable {t : Tasks}

def sent (t : Tasks) : List Event := t.bridge.controller.sent

def isRunning (t : Tasks) : Bool := t.bridge.controller.state.isRunning

/-- The events in the channel. -/
def queue (t : Tasks) : List Event := t.sent.drop t.writer.taken

def isOver (t : Tasks) : Bool := t.phase = .returned || t.phase = .broken

def put (t : Tasks) (k : Controller) : Tasks := { t with bridge := { t.bridge with controller := k } }

/-- The reading ends: an active run is told to end. -/
def close (t : Tasks) : Tasks :=
  match t.bridge.controller.cancel? with
  | none => { t with phase := .flushing }
  | some k => { t.put k with phase := .waiting }

def take (t : Tasks) (around : Surroundings) (bytes : Bytes) : Tasks :=
  match Utf8.decode? bytes with
  | none => { t with phase := .broken }
  | some line =>
    let step := t.bridge.take around line
    let t := { t with bridge := step.bridge, launched := t.launched ++ step.launched.toList }
    if step.flow = .stops then t.close else t

/-- The writer takes an event. One that cannot be written ends it. -/
def writeNext (t : Tasks) : Tasks :=
  match t.queue with
  | [] => t
  | e :: _ =>
    match Wire.event.writeJson? e with
    | none => { t with writer := { t.writer with stopped := true } }
    | some line =>
      { t with writer :=
          { t.writer with taken := t.writer.taken + 1, lines := t.writer.lines ++ [line] } }

def step (t : Tasks) : Move → Tasks
  | .line around bytes => if t.phase = .reading then t.take around bytes else t
  | .endOfInput => if t.phase = .reading then t.close else t
  | .output id stream piece =>
    if t.isOver then t else t.put (t.bridge.controller.read id stream piece)
  | .exit id code =>
    if (t.bridge.controller.watcher? id).isSome ∧ t.exited.lookup id = none then
      { t with exited := (id, code) :: t.exited }
    else t
  | .report id =>
    if t.isOver then t
    else
      match t.exited.lookup id with
      | none => t
      | some code =>
        { t.put (t.bridge.controller.report id code) with
          exited := t.exited.filter (·.1 != id) }
  | .look => if t.phase = .waiting ∧ t.isRunning = false then { t with phase := .flushing } else t
  | .hurry => if t.phase = .waiting then { t with phase := .flushing } else t
  | .write => if t.isOver ∨ t.writer.stopped = true then t else t.writeNext
  | .stop =>
    if t.phase = .flushing ∧ t.bridge.controller.watchers = [] ∧ t.queue = [] then
      { t with writer := { t.writer with stopped := true } }
    else t
  | .join =>
    if t.phase = .flushing ∧ t.writer.stopped = true then { t with phase := .returned } else t
  | .abandon => if t.phase = .flushing then { t with phase := .returned } else t

inductive Turn (t : Tasks) : Move → Tasks → Prop where
  | idle (m : Move) : Turn t m t
  | line (around : Surroundings) (bytes : Bytes) (hreading : t.phase = .reading) :
      Turn t (.line around bytes) (t.take around bytes)
  | endOfInput (hreading : t.phase = .reading) : Turn t .endOfInput t.close
  | output (id : RunId) (stream : LogStream) (piece : Bytes) (hopen : t.isOver = false) :
      Turn t (.output id stream piece) (t.put (t.bridge.controller.read id stream piece))
  | exit (id : RunId) (code : Int32) :
      Turn t (.exit id code) { t with exited := (id, code) :: t.exited }
  | report (id : RunId) (code : Int32) (hopen : t.isOver = false) :
      Turn t (.report id)
        { t.put (t.bridge.controller.report id code) with exited := t.exited.filter (·.1 != id) }
  | flush (m : Move) (hm : m = .look ∨ m = .hurry) (hwaiting : t.phase = .waiting) :
      Turn t m { t with phase := .flushing }
  | write (hgoesOn : t.writer.stopped = false) : Turn t .write t.writeNext
  | stop (hflushing : t.phase = .flushing) (hnone : t.bridge.controller.watchers = [])
      (hempty : t.queue = []) : Turn t .stop { t with writer := { t.writer with stopped := true } }
  | leave (m : Move) (hm : m = .join ∧ t.writer.stopped = true ∨ m = .abandon)
      (hflushing : t.phase = .flushing) : Turn t m { t with phase := .returned }

theorem turn (t : Tasks) (m : Move) : Turn t m (t.step m) := by
  cases m with
  | line around bytes =>
    simp only [step]
    split
    · rename_i hreading
      exact .line around bytes hreading
    · exact .idle _
  | endOfInput =>
    simp only [step]
    split
    · rename_i hreading
      exact .endOfInput hreading
    · exact .idle _
  | output id stream piece =>
    simp only [step]
    split
    · exact .idle _
    · rename_i hopen
      exact .output id stream piece (Bool.eq_false_iff.mpr hopen)
  | exit id code =>
    simp only [step]
    split
    · exact .exit id code
    · exact .idle _
  | report id =>
    simp only [step]
    split
    · exact .idle _
    rename_i hopen
    split
    · exact .idle _
    · rename_i code _
      exact .report id code (Bool.eq_false_iff.mpr hopen)
  | look =>
    simp only [step]
    split
    · rename_i hlook
      exact .flush _ (.inl rfl) hlook.1
    · exact .idle _
  | hurry =>
    simp only [step]
    split
    · rename_i hwaiting
      exact .flush _ (.inr rfl) hwaiting
    · exact .idle _
  | write =>
    simp only [step]
    split
    · exact .idle _
    · rename_i hnot
      exact .write (Bool.eq_false_iff.mpr fun h => hnot (.inr h))
  | stop =>
    simp only [step]
    split
    · rename_i hstop
      exact .stop hstop.1 hstop.2.1 hstop.2.2
    · exact .idle _
  | join =>
    simp only [step]
    split
    · rename_i hjoin
      exact .leave _ (.inl ⟨rfl, hjoin.2⟩) hjoin.1
    · exact .idle _
  | abandon =>
    simp only [step]
    split
    · rename_i hflushing
      exact .leave _ (.inr rfl) hflushing
    · exact .idle _

def after (t : Tasks) (moves : List Move) : Tasks := moves.foldl step t

theorem after_append (t : Tasks) (ms ns : List Move) :
    t.after (ms ++ ns) = (t.after ms).after ns := List.foldl_append

theorem after_cons (t : Tasks) (m : Move) (ms : List Move) :
    t.after (m :: ms) = (t.step m).after ms := rfl

def first (b : CommandLine.Base) : Tasks := { bridge := (CommandLine.service b).bridge }

/-! ### The service behind the tasks -/

/-- The stage of the service: it is the bridge that counts, and not how long somebody waits. -/
def stage (t : Tasks) : Service.Stage :=
  match t.phase with
  | .reading => .reading
  | .broken => .broken
  | .waiting | .flushing | .returned => if t.isRunning then .closing else .finished

def service (t : Tasks) : Service := { bridge := t.bridge, stage := t.stage }

/-- Surroundings for what does not depend on any. -/
def nowhere : Surroundings := ⟨.obliging, ⟨⟨0⟩, none, .epoch⟩, id⟩

theorem service_close (t : Tasks) : t.close.service = t.service.close := by
  rcases hcancel : t.bridge.controller.cancel? with _ | k
  · have hidle := Service.cancel?_eq_none.mp hcancel
    have hcancel' : t.service.bridge.controller.cancel? = none := hcancel
    simp only [close, hcancel, service, stage, isRunning, hidle, Service.close, Bool.false_eq_true,
      if_false]
  · obtain ⟨run, _, hstate, _⟩ := Controller.cancel?_eq_some hcancel
    have hrunning : k.state.isRunning = true :=
      RunState.isRunning_eq_true.mpr ⟨_, by rw [hstate]⟩
    simp only [close, hcancel, Tasks.put, service, stage, isRunning, hrunning, Service.close,
      if_true]

theorem service_take (hreading : t.phase = .reading) (around : Surroundings) (bytes : Bytes) :
    (t.take around bytes).service = (t.service.step around (.line bytes)).service := by
  have hstage : t.service.stage = .reading := by simp only [service, stage, hreading]
  have hbridge : t.service.bridge = t.bridge := rfl
  simp only [Service.step, Service.take, if_pos hstage, take, hbridge]
  rcases Utf8.decode? bytes with _ | line
  · simp only [service, stage]
  · dsimp only
    by_cases hstops : (t.bridge.take around line).flow = .stops
    · rw [if_pos hstops, if_pos hstops, service_close]
      simp only [service, stage, hreading]
    · rw [if_neg hstops, if_neg hstops]
      simp only [service, stage, hreading]

/-- The main task reads no more, and the bridge is still there. -/
theorem stage_ended (hreading : t.phase ≠ .reading) (hbroken : t.phase ≠ .broken) :
    t.service.stage = if t.isRunning then .closing else .finished := by
  simp only [service, stage]
  cases hphase : t.phase
  case reading => exact absurd hphase hreading
  case broken => exact absurd hphase hbroken
  all_goals rfl

/-- While somebody is there, what a tool does to the controller it does in the service as well. Without
    an active run it does nothing. -/
theorem service_put (hopen : t.isOver = false) {k : Controller}
    (hidle : t.isRunning = false → k = t.bridge.controller) :
    (t.put k).service = if t.service.watches then t.service.proceed k else t.service := by
  simp only [isOver, Bool.or_eq_false_iff, decide_eq_false_iff_not] at hopen
  by_cases hreading : t.phase = .reading
  · have hstage : t.service.stage = .reading := by simp only [service, stage, hreading]
    have hwatches : t.service.watches = true := by simp only [Service.watches, hstage]; rfl
    have hafter : (t.put k).service.stage = .reading := by
      simp only [put, service, stage, hreading]
    have hsame : (t.service.proceed k).stage = (t.put k).service.stage := by
      rw [hafter, Service.proceed, hstage]
      rfl
    rw [if_pos hwatches]
    exact congrArg (Service.mk _) hsame.symm
  have hended := stage_ended hreading hopen.2
  have hafter : (t.put k).service.stage = if k.state.isRunning then .closing else .finished :=
    stage_ended (t := t.put k) hreading hopen.2
  rcases hrun : t.isRunning with _ | _
  · rw [hrun] at hended
    have hwatches : ¬ t.service.watches = true := by
      simp only [Service.watches, hended]
      decide
    rw [if_neg hwatches, hidle hrun]
    rfl
  · rw [hrun] at hended
    have hwatches : t.service.watches = true := by simp only [Service.watches, hended]; rfl
    have hstage : (t.service.proceed k).stage = (t.put k).service.stage := by
      rw [hafter, Service.proceed, hended]
      cases k.state.isRunning <;> rfl
    rw [if_pos hwatches]
    exact congrArg (Service.mk _) hstage.symm

theorem service_closeReading (hreading : t.phase = .reading) :
    t.close.service = (t.service.step nowhere .endOfInput).service := by
  have hstage : t.service.stage = .reading := by simp only [service, stage, hreading]
  rw [service_close, Service.step, if_pos hstage]

theorem watcher?_eq_none {k : Controller} (hnone : k.watchers = []) (id : RunId) :
    k.watcher? id = none := by
  rw [Controller.watcher?, hnone]
  rfl

theorem service_output (hsound : t.service.Sound) (hopen : t.isOver = false) (id : RunId)
    (stream : LogStream) (piece : Bytes) :
    (t.put (t.bridge.controller.read id stream piece)).service =
      (t.service.step nowhere (.output id stream piece)).service := by
  refine service_put hopen fun hidle => ?_
  have hnone : t.bridge.controller.watchers = [] :=
    hsound.bridge.controller.watchers_nil (RunState.isRunning_eq_false.mp hidle)
  simp only [Controller.read, watcher?_eq_none hnone]

theorem service_report (hsound : t.service.Sound) (hopen : t.isOver = false) (id : RunId)
    (code : Int32) :
    (t.put (t.bridge.controller.report id code)).service =
      (t.service.step nowhere (.exit id code)).service := by
  refine service_put hopen fun hidle => ?_
  have hnone := hsound.bridge.controller.watchers_nil (RunState.isRunning_eq_false.mp hidle)
  exact Controller.report_of_no_watcher (watcher?_eq_none hnone id) code

/-- Waiting, and the work of the writer, are no concern of the service. -/
theorem service_flush (hphase : t.phase = .waiting ∨ t.phase = .flushing) {next : Phase}
    (hnext : next = .flushing ∨ next = .returned) :
    { t with phase := next }.service = t.service := by
  have hbefore : t.service.stage = if t.isRunning then .closing else .finished := by
    apply stage_ended <;> intro h <;> rw [h] at hphase <;> simp at hphase
  have hafter : { t with phase := next }.service.stage = if t.isRunning then .closing else .finished := by
    apply stage_ended (t := { t with phase := next }) <;> rintro rfl <;> simp at hnext
  exact congrArg (Service.mk _) (hafter.trans hbefore.symm)

theorem service_writeNext (t : Tasks) : t.writeNext.service = t.service := by
  unfold writeNext
  split
  · rfl
  · split <;> rfl

/-- **A turn of a task is an occurrence in the service, or nothing that the service knows of.** -/
theorem service_step (hsound : t.service.Sound) (m : Move) :
    (t.step m).service = t.service ∨
      ∃ h : Service.Happening, (t.step m).service = (t.service.step h.1 h.2).service := by
  have hturn := t.turn m
  generalize t.step m = t' at hturn ⊢
  cases hturn with
  | idle => exact .inl rfl
  | line around bytes hreading =>
    exact .inr ⟨(around, .line bytes), service_take hreading around bytes⟩
  | endOfInput hreading => exact .inr ⟨(nowhere, .endOfInput), service_closeReading hreading⟩
  | output id stream piece hopen =>
    exact .inr ⟨(nowhere, .output id stream piece), service_output hsound hopen id stream piece⟩
  | exit id code => exact .inl rfl
  | report id code hopen =>
    exact .inr ⟨(nowhere, .exit id code), service_report hsound hopen id code⟩
  | flush m _ hwaiting => exact .inl (service_flush (.inl hwaiting) (.inl rfl))
  | write => exact .inl (service_writeNext t)
  | stop => exact .inl rfl
  | leave m _ hflushing => exact .inl (service_flush (.inr hflushing) (.inr rfl))

theorem Sound.step (hsound : t.service.Sound) (m : Move) : (t.step m).service.Sound := by
  rcases service_step hsound m with hsame | ⟨h, hstep⟩
  · rw [hsame]
    exact hsound
  · rw [hstep]
    exact Service.Sound.step hsound h.1 h.2

/-- **Tasks follow a course of the service**, whatever the order of their turns. -/
theorem exists_course (hsound : t.service.Sound) (moves : List Move) :
    ∃ happenings, (t.after moves).service = t.service.after happenings := by
  induction moves generalizing t with
  | nil => exact ⟨[], rfl⟩
  | cons m moves ih =>
    obtain ⟨happenings, hrest⟩ := ih (Sound.step hsound m)
    rcases service_step hsound m with hsame | ⟨h, hstep⟩
    · rw [hsame] at hrest
      exact ⟨happenings, hrest⟩
    · rw [hstep] at hrest
      exact ⟨h :: happenings, hrest⟩

end Tasks

end Cuesheet
