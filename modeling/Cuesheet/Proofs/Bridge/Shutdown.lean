import Cuesheet.Proofs.Bridge.Delivery

/-!
# The end of a service

A shutdown and the end of the input end the reading. From then on lines have no effect; the active run, if
there is one, has the signal, and whatever its tool does, all that is sent any more is what the tool still
writes, and then that the run was cancelled. The writer does not stop before the channel is empty and the
watcher of the run is gone. So it has written everything when it stops, and the main task, which waits for
it, returns with every run finished and every event written.

Whenever the reading has ended, the tasks can come to the end by themselves, as soon as a tool that has the
signal exits.
-/

namespace Cuesheet

namespace Tasks

open Utf8
open Service (inputLine startLine shutdownLine operation?_inputLine operation?_startLine
  operation?_shutdownLine)

variable {t : Tasks}

/-! ### The ending -/

def Move.Ends : Move → Prop
  | .line _ bytes => Service.operation? bytes = some .shutdown
  | .endOfInput => True
  | _ => False

/-- Lines, and the end of the input. -/
def Move.isInput : Move → Bool
  | .line _ _ | .endOfInput => true
  | _ => false

/-- Without input the main task only comes nearer to its return, and it waits for the writer. -/
theorem phase_step {m : Move} (hm : m.isInput = false) :
    (t.step m).phase = t.phase ∨ (t.phase = .waiting ∧ (t.step m).phase = .flushing) ∨
      (t.phase = .flushing ∧ (t.step m).phase = .returned ∧
        (t.writer.stopped = true ∨ m = .abandon)) := by
  have hturn := t.turn m
  generalize t.step m = t' at hturn ⊢
  cases hturn with
  | line => cases hm
  | endOfInput => cases hm
  | flush m _ hwaiting => exact .inr (.inl ⟨hwaiting, rfl⟩)
  | leave m hleave hflushing =>
    exact .inr (.inr ⟨hflushing, rfl, hleave.imp_left And.right⟩)
  | write =>
    refine .inl ?_
    unfold writeNext
    split
    · rfl
    · split <;> rfl
  | _ => exact .inl rfl

/-- Without input the reading does not end. -/
theorem reading_step_of_no_input (hreading : t.phase = .reading) {m : Move} (hm : m.isInput = false) :
    (t.step m).phase = .reading := by
  rcases phase_step (t := t) hm with hsame | ⟨hphase, _⟩ | ⟨hphase, _⟩
  · exact hsame.trans hreading
  · cases hreading.symm.trans hphase
  · cases hreading.symm.trans hphase

/-- A line that is an operation has it carried out. -/
theorem step_operation (hreading : t.phase = .reading) (around : Surroundings) {bytes : Bytes}
    {op : Operation} (hop : Service.operation? bytes = some op) :
    t.step (.line around bytes) =
      let step := t.bridge.apply around op
      let t := { t with bridge := step.bridge, launched := t.launched ++ step.launched.toList }
      if op = .shutdown then t.close else t := by
  obtain ⟨line, hline, htake⟩ := Service.take_operation t.bridge around hop
  simp only [step, if_pos hreading, take, hline, htake, Service.flow_apply]
  by_cases hends : op = .shutdown
  · simp only [if_pos hends, if_true]
  · simp only [if_neg hends, reduceCtorEq, if_false]

/-- After any other operation than a shutdown lines are still read. -/
theorem step_goesOn (hreading : t.phase = .reading) (around : Surroundings) {bytes : Bytes}
    {op : Operation} (hop : Service.operation? bytes = some op) (hgoesOn : op ≠ .shutdown) :
    t.step (.line around bytes) =
      { t with
        bridge := (t.bridge.apply around op).bridge
        launched := t.launched ++ (t.bridge.apply around op).launched.toList } :=
  (step_operation hreading around hop).trans (if_neg hgoesOn)

theorem step_ends (hreading : t.phase = .reading) {m : Move} (hends : m.Ends) :
    t.step m = t.close := by
  cases m with
  | line around bytes =>
    simp only [step_operation hreading around hends, if_true, Bridge.apply, Option.toList_none,
      List.append_nil]
  | endOfInput => exact if_pos hreading
  | _ => exact hends.elim

/-- Nothing else ends it, as long as lines are text. -/
theorem reading_step (hreading : t.phase = .reading) {m : Move} (hnot : ¬ m.Ends)
    (htext : ∀ around bytes, m = .line around bytes → IsText bytes) :
    (t.step m).phase = .reading := by
  rcases hm : m.isInput with _ | _
  · exact reading_step_of_no_input hreading hm
  cases m with
  | line around bytes =>
    obtain ⟨line, hline⟩ := Option.isSome_iff_exists.mp (htext around bytes rfl)
    have hflow : (t.bridge.take around line).flow = .goesOn :=
      (Service.flow_take hline).trans (if_neg hnot)
    simp only [step, hreading, if_true, take, hline, hflow, reduceCtorEq, if_false]
  | endOfInput => exact absurd trivial hnot
  | _ => cases hm

theorem reading_after (hreading : t.phase = .reading) {moves : List Move}
    (hnot : ∀ m ∈ moves, ¬ m.Ends)
    (htext : ∀ around bytes, .line around bytes ∈ moves → IsText bytes) :
    (t.after moves).phase = .reading := by
  induction moves generalizing t with
  | nil => exact hreading
  | cons m moves ih =>
    refine ih (reading_step hreading (hnot m List.mem_cons_self) ?_)
      (fun m' hm => hnot m' (List.mem_cons_of_mem _ hm))
      (fun around bytes hm => htext around bytes (List.mem_cons_of_mem _ hm))
    rintro around bytes rfl
    exact htext around bytes List.mem_cons_self

/-- The reading has ended as it should. -/
def Ended (t : Tasks) : Prop := t.phase = .waiting ∨ t.phase = .flushing ∨ t.phase = .returned

theorem phase_close (t : Tasks) : t.close.phase = .waiting ∨ t.close.phase = .flushing := by
  unfold close
  split
  · exact .inr rfl
  · exact .inl rfl

theorem ended_close (t : Tasks) : t.close.Ended := or_assoc.mp (.inl (phase_close t))

theorem Ended.not_reading (h : t.Ended) : t.phase ≠ .reading := by
  intro hreading
  simp only [Ended, hreading, reduceCtorEq, or_self] at h

theorem Ended.step_input (h : t.Ended) {m : Move} (hm : m.isInput = true) : t.step m = t := by
  cases m with
  | line around bytes => exact if_neg h.not_reading
  | endOfInput => exact if_neg h.not_reading
  | _ => cases hm

theorem Ended.step (h : t.Ended) (m : Move) : (t.step m).Ended := by
  rcases hm : m.isInput with _ | _
  · rcases phase_step (t := t) hm with hsame | ⟨_, hflushing⟩ | ⟨_, hreturned, _⟩
    · rw [Ended, hsame]
      exact h
    · exact .inr (.inl hflushing)
    · exact .inr (.inr hreturned)
  · rw [h.step_input hm]
    exact h

theorem Ended.after (h : t.Ended) (moves : List Move) : (t.after moves).Ended := by
  induction moves generalizing t with
  | nil => exact h
  | cons m moves ih => exact ih (h.step m)

/-- The main task does not return at a line. -/
theorem phase_take (hreading : t.phase = .reading) (around : Surroundings) (bytes : Bytes) :
    (t.take around bytes).phase ≠ .returned := by
  intro hreturned
  unfold take at hreturned
  split at hreturned
  · cases hreturned
  dsimp only at hreturned
  split at hreturned
  · rcases phase_close _ with hphase | hphase <;> cases hphase.symm.trans hreturned
  · cases hreading.symm.trans hreturned

/-- The main task has not lost patience: if it has returned, the writer had stopped. -/
def Waited (t : Tasks) : Prop := t.phase = .returned → t.writer.stopped = true

theorem waited_first (b : CommandLine.Base) : (first b).Waited := by
  intro hreturned
  cases hreturned

theorem Waited.step (ht : t.Kept) (hwaited : t.Waited) {m : Move} (hpatient : m ≠ .abandon) :
    (t.step m).Waited := by
  rcases hm : m.isInput with _ | _
  · intro hreturned
    have hstopped : t.writer.stopped = true := by
      rcases phase_step (t := t) hm with hsame | ⟨_, hflushing⟩ | ⟨_, _, hjoin⟩
      · exact hwaited (hsame.symm.trans hreturned)
      · cases hflushing.symm.trans hreturned
      · exact hjoin.resolve_right hpatient
    rw [(ht.step_of_stopped hstopped m).2.1]
    exact hstopped
  · have hturn := t.turn m
    generalize t.step m = t' at hturn ⊢
    cases hturn with
    | idle => exact hwaited
    | line around bytes hreading => exact fun hreturned => absurd hreturned (phase_take hreading around bytes)
    | endOfInput =>
      intro hreturned
      rcases phase_close t with hphase | hphase <;> cases hphase.symm.trans hreturned
    | flush _ hflush => rcases hflush with rfl | rfl <;> cases hm
    | leave _ hleave => rcases hleave with ⟨rfl, _⟩ | rfl <;> cases hm
    | _ => cases hm

theorem Waited.after (ht : t.Kept) (hwaited : t.Waited) {moves : List Move}
    (hpatient : .abandon ∉ moves) : (t.after moves).Waited := by
  induction moves generalizing t with
  | nil => exact hwaited
  | cons m moves ih =>
    have hm : m ≠ .abandon := fun h => hpatient (h ▸ List.mem_cons_self)
    exact ih (ht.step m) (hwaited.step ht hm) fun h => hpatient (List.mem_cons_of_mem m h)

/-- **After the ending, lines have no effect.** -/
theorem Ended.after_filter (h : t.Ended) (moves : List Move) :
    t.after moves = t.after (moves.filter fun m => !m.isInput) := by
  induction moves generalizing t with
  | nil => rfl
  | cons m moves ih =>
    rcases hm : m.isInput with _ | _
    · rw [List.filter_cons_of_pos (by rw [hm]; rfl), after_cons, after_cons]
      exact ih (h.step m)
    · rw [List.filter_cons_of_neg (by rw [hm]; decide), after_cons, h.step_input hm]
      exact ih h

/-! ### The active run -/

/-- After the ending only the watcher of a run moves the controller. -/
theorem Ended.controller_step (h : t.Ended) (m : Move) :
    (t.step m).bridge.controller = t.bridge.controller ∨
      (∃ id stream piece,
        (t.step m).bridge.controller = t.bridge.controller.read id stream piece) ∨
      ∃ id code, (t.step m).bridge.controller = t.bridge.controller.report id code := by
  have hturn := t.turn m
  generalize t.step m = t' at hturn ⊢
  cases hturn with
  | line _ _ hreading => exact absurd hreading h.not_reading
  | endOfInput hreading => exact absurd hreading h.not_reading
  | output id stream piece => exact .inr (.inl ⟨id, stream, piece, rfl⟩)
  | report id code => exact .inr (.inr ⟨id, code, rfl⟩)
  | write => exact .inl (congrArg (·.bridge.controller) (service_writeNext t))
  | _ => exact .inl rfl

def active (t : Tasks) : Option ActiveRun := t.bridge.controller.state.active

/-- What is said of a run that was told to end. -/
def farewell (id : RunId) : List Event :=
  [.statusChanged .cancelled RunStatus.cancelled.message, .runFinished id .cancelled]

/-- A run that was asked to end is cancelled, whatever the code. -/
theorem ending_of_requested {run : ActiveRun} (hrequested : run.cancelRequested = true)
    (code : Int32) : RunState.ending run (RunState.ActiveRun.outcome run code) = farewell run.id := by
  simp only [RunState.ActiveRun.outcome, hrequested, if_true]
  rfl

/-- How far the end of a run has come: what was sent since `base`, and whether the run is active. -/
inductive Closing (base : List Event) (run : ActiveRun) (t : Tasks) : Prop where
  | underWay (lines : List (LogStream × String)) (hrun : t.active = some run)
      (hsent : t.sent = base ++ Controller.logsOf run.id lines)
  | closed (lines : List (LogStream × String)) (hnone : t.active = none)
      (hsent : t.sent = base ++ (Controller.logsOf run.id lines ++ farewell run.id))

section Closing

variable {base : List Event} {run : ActiveRun} {t' : Tasks}

theorem Closing.congr (h : Closing base run t)
    (hcontroller : t'.bridge.controller = t.bridge.controller) : Closing base run t' := by
  have hactive : t'.active = t.active := congrArg (·.state.active) hcontroller
  have hsent : t'.sent = t.sent := congrArg (·.sent) hcontroller
  cases h with
  | underWay lines hrun hs => exact .underWay lines (hactive.trans hrun) (hsent.trans hs)
  | closed lines hnone hs => exact .closed lines (hactive.trans hnone) (hsent.trans hs)

theorem Closing.read (hsound : t.bridge.controller.Sound) (h : Closing base run t) {id : RunId}
    {stream : LogStream} {piece : Bytes}
    (hread : t'.bridge.controller = t.bridge.controller.read id stream piece) :
    Closing base run t' := by
  rcases hfind : t.bridge.controller.watcher? id with _ | w
  · refine h.congr (hread.trans ?_)
    simp only [Controller.read, hfind]
  obtain ⟨run', hrun', hid, _⟩ := hsound.active_of_watcher (List.mem_of_find?_eq_some hfind)
  obtain rfl : w.run = id := by simpa using List.find?_some hfind
  obtain ⟨more, hstate, _, hmore⟩ := Controller.read_eq t.bridge.controller w.run stream piece
  cases h with
  | underWay lines hrun hsent =>
    obtain rfl := Option.some.inj (hrun.symm.trans hrun')
    refine .underWay (lines ++ more) ?_ ?_
    · rw [active, hread, hstate]
      exact hrun
    · calc t'.sent = t.sent ++ Controller.logsOf w.run more := by rw [sent, hread, hmore]; rfl
        _ = base ++ Controller.logsOf run.id (lines ++ more) := by
          rw [hsent, ← hid, Controller.logsOf_append, List.append_assoc]
  | closed lines hnone hsent => exact absurd (hnone.symm.trans hrun') (by simp)

theorem Closing.report (hsound : t.bridge.controller.Sound) (hrequested : run.cancelRequested = true)
    (h : Closing base run t) {id : RunId} {code : Int32}
    (hreport : t'.bridge.controller = t.bridge.controller.report id code) : Closing base run t' := by
  rcases hfind : t.bridge.controller.watcher? id with _ | w
  · exact h.congr (hreport.trans (Controller.report_of_no_watcher hfind code))
  obtain rfl : w.run = id := by simpa using List.find?_some hfind
  obtain ⟨run', f, hrun', hid, hf, hreported⟩ :=
    hsound.report_of_watcher (List.mem_of_find?_eq_some hfind) code
  obtain ⟨_, _, _, rfl⟩ := RunState.finish?_eq_some.mp hf
  rw [hreported] at hreport
  cases h with
  | underWay lines hrun hsent =>
    obtain rfl := Option.some.inj (hrun.symm.trans hrun')
    refine .closed (lines ++ w.pending.rest) ?_ ?_
    · rw [active, hreport]
    · calc t'.sent = t.sent ++ (Controller.logsOf w.run w.pending.rest ++
            RunState.ending run (RunState.ActiveRun.outcome run code)) := by rw [sent, hreport]; rfl
        _ = base ++ (Controller.logsOf run.id (lines ++ w.pending.rest) ++ farewell run.id) := by
          rw [hsent, ending_of_requested hrequested, ← hid, Controller.logsOf_append, List.append_assoc,
            List.append_assoc]
  | closed lines hnone hsent => exact absurd (hnone.symm.trans hrun') (by simp)

theorem Closing.step (ht : t.Kept) (hended : t.Ended) (hrequested : run.cancelRequested = true)
    (h : Closing base run t) (m : Move) : Closing base run (t.step m) := by
  rcases hended.controller_step m with hsame | ⟨id, stream, piece, hread⟩ | ⟨id, code, hreport⟩
  · exact h.congr hsame
  · exact h.read ht.controller hread
  · exact h.report ht.controller hrequested hreport

/-- **A run that was told to end goes on sending what its tool writes, and then it is cancelled.** -/
theorem Closing.after (ht : t.Kept) (hended : t.Ended) (hrequested : run.cancelRequested = true)
    (h : Closing base run t) (moves : List Move) : Closing base run (t.after moves) := by
  induction moves generalizing t with
  | nil => exact h
  | cons m moves ih => exact ih (ht.step m) (hended.step m) (h.step ht hended hrequested m)

end Closing

/-- Without an active run nothing is left that could send. -/
theorem Ended.controller_of_idle (ht : t.Kept) (hended : t.Ended) (hidle : t.active = none)
    (moves : List Move) : (t.after moves).bridge.controller = t.bridge.controller := by
  induction moves generalizing t with
  | nil => rfl
  | cons m moves ih =>
    have hnone : t.bridge.controller.watchers = [] := ht.controller.watchers_nil hidle
    have hstep : (t.step m).bridge.controller = t.bridge.controller := by
      rcases hended.controller_step m with hsame | ⟨id, stream, piece, hread⟩ | ⟨id, code, hreport⟩
      · exact hsame
      · refine hread.trans ?_
        simp only [Controller.read, watcher?_eq_none hnone]
      · exact hreport.trans (Controller.report_of_no_watcher (watcher?_eq_none hnone id) code)
    have hidle' : (t.step m).active = none := (congrArg (·.state.active) hstep).trans hidle
    exact (ih (ht.step m) (hended.step m) hidle').trans hstep

/-! ### The way to the return -/

/-- A turn that comes by itself. The turn of a tool is its exit, after its watcher got the signal. -/
def Due (t : Tasks) : Move → Prop
  | .exit id _ => ∃ w, t.bridge.controller.watcher? id = some w ∧ w.signalled = true
  | .report _ | .look | .write | .stop | .join => True
  | _ => False

def AllDue (t : Tasks) : List Move → Prop
  | [] => True
  | m :: moves => t.Due m ∧ (t.step m).AllDue moves

theorem AllDue.append {moves more : List Move} (h : t.AllDue moves)
    (hmore : (t.after moves).AllDue more) : t.AllDue (moves ++ more) := by
  induction moves generalizing t with
  | nil => exact hmore
  | cons m moves ih => exact ⟨h.1, ih h.2 hmore⟩

theorem allDue_write (n : Nat) : t.AllDue (List.replicate n .write) := by
  induction n generalizing t with
  | zero => trivial
  | succ n ih => exact ⟨trivial, ih⟩

theorem AllDue.patient {moves : List Move} (h : t.AllDue moves) : .abandon ∉ moves := by
  induction moves generalizing t with
  | nil => exact List.not_mem_nil
  | cons m moves ih =>
    intro hmem
    rcases List.mem_cons.mp hmem with rfl | hmem
    · exact h.1
    · exact ih h.2 hmem

theorem isOver_eq_false (hopen : t.phase = .waiting ∨ t.phase = .flushing) : t.isOver = false := by
  rcases hopen with hphase | hphase <;> simp only [isOver, hphase] <;> rfl

theorem watcher?_of_mem (ht : t.Kept) {w : Watcher} (hw : w ∈ t.bridge.controller.watchers) :
    t.bridge.controller.watcher? w.run = some w := by
  obtain ⟨_, _, _, hws⟩ := ht.controller.active_of_watcher hw
  simp only [Controller.watcher?, hws, List.find?_singleton, beq_self_eq_true, if_true]

/-- The watcher of a tool that has exited reports it, and was the last one. -/
theorem Kept.report_exited (ht : t.Kept) (hopen : t.phase = .waiting ∨ t.phase = .flushing)
    {w : Watcher} (hw : w ∈ t.bridge.controller.watchers) {code : Int32}
    (hexited : t.exited.lookup w.run = some code) :
    (t.step (.report w.run)).phase = t.phase ∧
      (t.step (.report w.run)).bridge.controller.watchers = [] := by
  obtain ⟨_, _, _, _, _, hreport⟩ := ht.controller.report_of_watcher hw code
  have hstep : t.step (.report w.run) = { t.put (t.bridge.controller.report w.run code) with
      exited := t.exited.filter (·.1 != w.run) } := by
    simp only [Tasks.step, isOver_eq_false hopen, Bool.false_eq_true, if_false, hexited]
  rw [hstep]
  refine ⟨rfl, ?_⟩
  show (t.bridge.controller.report w.run code).watchers = []
  rw [hreport]

theorem Kept.exists_unwatched (ht : t.Kept) (hopen : t.phase = .waiting ∨ t.phase = .flushing)
    (hsignalled : ∀ w ∈ t.bridge.controller.watchers, w.signalled = true) :
    ∃ moves, t.AllDue moves ∧ (t.after moves).phase = t.phase ∧
      (t.after moves).bridge.controller.watchers = [] := by
  rcases hws : t.bridge.controller.watchers with _ | ⟨w, ws⟩
  · exact ⟨[], trivial, rfl, hws⟩
  have hw : w ∈ t.bridge.controller.watchers := by rw [hws]; exact List.mem_cons_self
  have hfind := watcher?_of_mem ht hw
  rcases hexited : t.exited.lookup w.run with _ | code
  · have hexit : t.step (.exit w.run 0) = { t with exited := (w.run, 0) :: t.exited } := by
      simp only [Tasks.step, hfind, hexited, Option.isSome_some, true_and, if_true]
    refine ⟨[.exit w.run 0, .report w.run], ⟨⟨w, hfind, hsignalled w hw⟩, trivial, trivial⟩, ?_⟩
    have ht' := ht.step (.exit w.run 0)
    rw [after_cons]
    rw [hexit] at ht' ⊢
    have hlookup : ((w.run, (0 : Int32)) :: t.exited).lookup w.run = some 0 := by
      simp only [List.lookup_cons, beq_self_eq_true]
    exact ht'.report_exited hopen hw hlookup
  · exact ⟨[.report w.run], ⟨trivial, trivial⟩, ht.report_exited hopen hw hexited⟩

/-- Nobody is watched any more, and the main task sees that. -/
theorem Kept.exists_flushing (ht : t.Kept) (hopen : t.phase = .waiting ∨ t.phase = .flushing)
    (hnone : t.bridge.controller.watchers = []) :
    ∃ moves, t.AllDue moves ∧ (t.after moves).phase = .flushing ∧
      (t.after moves).bridge.controller.watchers = [] := by
  rcases hopen with hwaiting | hflushing
  · have hidle : t.isRunning = false := RunState.isRunning_eq_false.mpr (ht.idle_of_unwatched hnone)
    have hlook : t.step .look = { t with phase := .flushing } := if_pos ⟨hwaiting, hidle⟩
    refine ⟨[.look], ⟨trivial, trivial⟩, ?_⟩
    rw [after_cons, hlook]
    exact ⟨rfl, hnone⟩
  · exact ⟨[], trivial, hflushing, hnone⟩

/-- With nobody left who could send, the writer stops, and the main task returns. -/
theorem Kept.exists_joined (ht : t.Kept) (hflushing : t.phase = .flushing)
    (hnone : t.bridge.controller.watchers = []) :
    ∃ moves, t.AllDue moves ∧ (t.after moves).phase = .returned := by
  have hjoin : ∀ {t : Tasks}, t.phase = .flushing → t.writer.stopped = true →
      (t.step .join).phase = .returned := by
    intro t hflushing hstopped
    rw [Tasks.step, if_pos ⟨hflushing, hstopped⟩]
  rcases hstopped : t.writer.stopped with _ | _
  · obtain ⟨n, w, hafter, hall⟩ := ht.exists_drained (isOver_eq_false (.inr hflushing)) hstopped
    have hqueue : { t with writer := w }.queue = [] := List.drop_eq_nil_of_le hall.ge
    have hlast : (t.after (List.replicate n .write)).AllDue [.stop, .join] := ⟨trivial, trivial, trivial⟩
    refine ⟨List.replicate n .write ++ [.stop, .join], (allDue_write n).append hlast, ?_⟩
    rw [after_append, hafter, after_cons, after_cons]
    refine hjoin ?_ ?_ <;> rw [Tasks.step, if_pos ⟨hflushing, hnone, hqueue⟩]
    exact hflushing
  · exact ⟨[.join], ⟨trivial, trivial⟩, hjoin hflushing hstopped⟩

/-- **After the ending the tasks can return**, as soon as tools with the signal exit. -/
theorem Kept.exists_returned (ht : t.Kept) (hended : t.Ended)
    (hsignalled : ∀ w ∈ t.bridge.controller.watchers, w.signalled = true) :
    ∃ moves, t.AllDue moves ∧ (t.after moves).phase = .returned := by
  rcases or_assoc.mpr hended with hopen | hreturned
  · obtain ⟨gone, hgone, hphase, hnone⟩ := ht.exists_unwatched hopen hsignalled
    rw [← hphase] at hopen
    obtain ⟨flush, hflush, hflushing, hnone⟩ := (ht.after gone).exists_flushing hopen hnone
    obtain ⟨join, hjoin, hreturned⟩ := ((ht.after gone).after flush).exists_joined hflushing hnone
    refine ⟨gone ++ (flush ++ join), hgone.append (hflush.append hjoin), ?_⟩
    rw [after_append, after_append]
    exact hreturned
  · exact ⟨[], trivial, hreturned⟩

/-! ### From the ending to the return -/

/-- What the ending of the reading does: nothing but telling an active run to end. -/
structure Closes (t t' : Tasks) : Prop where
  sent : t'.sent = t.sent
  launched : t'.launched = t.launched
  configuration : t'.bridge.configuration = t.bridge.configuration
  active : t'.active = t.active.map fun run => { run with cancelRequested := true }
  signalled : ∀ w ∈ t'.bridge.controller.watchers, w.signalled = true

theorem Kept.closes (ht : t.Kept) : Closes t t.close := by
  rcases hcancel : t.bridge.controller.cancel? with _ | k
  · have hidle : t.active = none := RunState.isRunning_eq_false.mp (Service.cancel?_eq_none.mp hcancel)
    have hnone : t.bridge.controller.watchers = [] := ht.controller.watchers_nil hidle
    have hclose : t.close = { t with phase := .flushing } := by simp only [close, hcancel]
    rw [hclose]
    refine ⟨rfl, rfl, rfl, ?_, fun w hw => ?_⟩
    · rw [hidle]
      exact hidle
    · cases hnone ▸ (hw : w ∈ t.bridge.controller.watchers)
  · obtain ⟨run, hrun, hstate, _, hsent⟩ := Controller.cancel?_eq_some hcancel
    have hclose : t.close = { t.put k with phase := .waiting } := by simp only [close, hcancel]
    rw [hclose]
    refine ⟨hsent, rfl, rfl, ?_, (ht.heeded.cancel ht.controller hcancel).2⟩
    have hactive : t.active = some run := hrun
    rw [hactive]
    exact congrArg (·.active) hstate

theorem Kept.eachFinished_iff (ht : t.Kept) : Event.EachFinished t.sent ↔ t.isRunning = false := by
  rw [sent, Event.eachFinished_iff ht.controller.ordered, RunState.activeId, Option.map_eq_none_iff,
    isRunning, RunState.isRunning_eq_false]

/-- A writer that has stopped leaves no run unfinished. -/
theorem Kept.isRunning_of_stopped (ht : t.Kept) (hstopped : t.writer.stopped = true) :
    t.isRunning = false :=
  RunState.isRunning_eq_false.mpr (ht.idle_of_unwatched (ht.stopped hstopped).2.1)

/-- What there is when the main task returns, with what there was when the reading ended. -/
structure Complete (t t' : Tasks) : Prop where
  written : t'.sent.map Wire.event.writeJson? = t'.writer.lines.map some
  finished : Event.EachFinished t'.sent
  idle : t.active = none → t'.sent = t.sent
  cancelled : ∀ run, t.active = some run →
    ∃ lines, t'.sent = t.sent ++ (Controller.logsOf run.id lines ++ farewell run.id)

section Complete

variable {t₁ t₀ : Tasks}

theorem Closes.closing (h : Closes t₁ t₀) {run : ActiveRun} (hrun : t₁.active = some run) :
    Closing t₁.sent { run with cancelRequested := true } t₀ := by
  refine .underWay [] ?_ ?_
  · rw [h.active, hrun]
    rfl
  · rw [h.sent]
    exact (List.append_nil _).symm

/-- Whatever happens later, a watcher that is still there has the signal. -/
theorem Closes.signalled_after (ht : t₀.Kept) (hended : t₀.Ended) (h : Closes t₁ t₀)
    (later : List Move) : ∀ w ∈ (t₀.after later).bridge.controller.watchers, w.signalled = true := by
  rcases hrun : t₁.active with _ | run
  · have hidle : t₀.active = none := by rw [h.active, hrun]; rfl
    rw [hended.controller_of_idle ht hidle]
    exact h.signalled
  · cases (h.closing hrun).after ht hended rfl later with
    | underWay lines hactive _ => exact (ht.after later).heeded.signalled _ hactive rfl
    | closed lines hnone _ =>
      have hnobody := (ht.after later).controller.watchers_nil hnone
      intro w hw
      cases hnobody ▸ hw

theorem Closes.complete (ht : t₀.Kept) (hended : t₀.Ended) (h : Closes t₁ t₀) {later : List Move}
    (hstopped : (t₀.after later).writer.stopped = true) : Complete t₁ (t₀.after later) := by
  have ht' := ht.after later
  have hidle := ht'.isRunning_of_stopped hstopped
  refine ⟨ht'.delivered hstopped, ht'.eachFinished_iff.mpr hidle, ?_, ?_⟩
  · intro hnone
    have hidle' : t₀.active = none := by rw [h.active, hnone]; rfl
    exact (congrArg (·.sent) (hended.controller_of_idle ht hidle' later)).trans h.sent
  · intro run hrun
    cases (h.closing hrun).after ht hended rfl later with
    | underWay lines hactive _ =>
      cases (RunState.isRunning_eq_false.mp hidle).symm.trans hactive
    | closed lines _ hsent => exact ⟨lines, hsent⟩

end Complete

/-- **From the ending to the return.** Whatever the settings and the surroundings, and in whichever order
    lines come, tools write and exit, and tasks get their turns: up to the first shutdown or the end of the
    input lines are read; this ending does nothing but tell an active run to end, and no line after it has any
    effect. If the main task returns without having lost patience with the writer, then every event that was
    sent is written, in order, every run is finished, and the run that was active is cancelled. That it keeps its
    patience is assumed: it waits for a limited time only, and nothing is said here of how long a killed tool
    takes to exit, or how fast the output is read. From wherever the tasks have come since the ending they can go
    on to return, when tools with the signal exit. -/
theorem ending_complete {host : Host} {l : CommandLine} {b : CommandLine.Base}
    (hb : CommandLine.base host l = .ok b) {before : List Move} {ending : Move}
    (hbefore : ∀ m ∈ before, ¬ m.Ends)
    (htext : ∀ around bytes, .line around bytes ∈ before → IsText bytes) (hends : ending.Ends) :
    let t₁ := (first b).after before
    let t₀ := t₁.step ending
    t₁.phase = .reading ∧ Closes t₁ t₀ ∧
      ∀ later, t₀.after later = t₀.after (later.filter fun m => !m.isInput) ∧
        (.abandon ∉ later →
          ((t₀.after later).phase = .returned → Complete t₁ (t₀.after later)) ∧
          ∃ more, (t₀.after later).AllDue more ∧ (t₀.after (later ++ more)).phase = .returned ∧
            Complete t₁ (t₀.after (later ++ more))) := by
  intro t₁ t₀
  have ht₁ : t₁.Kept := (kept_first hb).after before
  have hreading : t₁.phase = .reading := reading_after rfl hbefore htext
  have hclose : t₀ = t₁.close := step_ends hreading hends
  have ht₀ : t₀.Kept := ht₁.step ending
  have hended : t₀.Ended := hclose ▸ ended_close t₁
  have hcloses : Closes t₁ t₀ := hclose ▸ ht₁.closes
  -- the ending itself does not return
  have hwaited : t₀.Waited := by
    intro hreturned
    have hopen := phase_close t₁
    rw [← hclose, hreturned] at hopen
    rcases hopen with h | h <;> cases h
  have hcomplete : ∀ later, .abandon ∉ later → (t₀.after later).phase = .returned →
      Complete t₁ (t₀.after later) := fun later hpatient hreturned =>
    hcloses.complete ht₀ hended (hwaited.after ht₀ hpatient hreturned)
  refine ⟨hreading, hcloses, fun later => ⟨hended.after_filter later, fun hpatient =>
    ⟨hcomplete later hpatient, ?_⟩⟩⟩
  obtain ⟨more, hdue, hreturned⟩ := (ht₀.after later).exists_returned (hended.after later)
    (hcloses.signalled_after ht₀ hended later)
  rw [← after_append] at hreturned
  have hpatient' : .abandon ∉ later ++ more := by
    rw [List.mem_append]
    rintro (h | h)
    · exact hpatient h
    · exact hdue.patient h
  exact ⟨more, hdue, hreturned, hcomplete _ hpatient' hreturned⟩

set_option maxRecDepth 4000 in
/-- The tool has exited with code zero, but its watcher has not reported it when the shutdown comes. -/
theorem ending_complete_unreported :
    let b : CommandLine.Base := { locator := {}, defaults := {} }
    let around : Surroundings := ⟨.obliging, ⟨⟨7⟩, none, .epoch⟩, id⟩
    let before : List Move := [.line around inputLine, .line around startLine, .exit ⟨7⟩ 0]
    let ending : Move := .line around shutdownLine
    let t₀ := ((first b).after before).step ending
    CommandLine.base .obliging ⟨[], none, .serve⟩ = .ok b ∧
      (t₀.exited.lookup ⟨7⟩ = some 0 ∧ t₀.isRunning = true) ∧
      ∃ more, t₀.AllDue more ∧ (t₀.after more).phase = .returned ∧
        Event.runFinished ⟨7⟩ .cancelled ∈ (t₀.after more).sent ∧
        (t₀.after more).sent.map Wire.event.writeJson? = (t₀.after more).writer.lines.map some := by
  intro b around before ending t₀
  have hbase : CommandLine.base .obliging ⟨[], none, .serve⟩ = .ok b := rfl
  have hends : ending.Ends := operation?_shutdownLine
  have hbefore : ∀ m ∈ before, ¬ m.Ends := by
    refine List.forall_mem_cons.mpr ⟨fun h => ?_, List.forall_mem_cons.mpr ⟨fun h => ?_, ?_⟩⟩
    · cases operation?_inputLine.symm.trans h
    · cases operation?_startLine.symm.trans h
    · exact List.forall_mem_singleton.mpr id
  have htext : ∀ around bytes, .line around bytes ∈ before → IsText bytes := by
    intro around' bytes hmem
    simp only [before, List.mem_cons, Move.line.injEq, reduceCtorEq, List.not_mem_nil, or_false]
      at hmem
    rcases hmem with ⟨_, rfl⟩ | ⟨_, rfl⟩ <;> exact isText_encode _
  let set := (first b).bridge.apply around (.setConfiguration { inputPath := some [0x61] })
  let started := set.bridge.apply around .start
  have ht₁ : (first b).after before =
      { bridge := started.bridge, launched := started.launched.toList, exited := [(⟨7⟩, 0)] } := by
    simp only [before, after_cons]
    rw [step_goesOn rfl around operation?_inputLine (by decide),
      step_goesOn rfl around operation?_startLine (by decide)]
    rfl
  have hrun : ((first b).after before).active.map (·.id) = some ⟨7⟩ := by
    rw [ht₁]
    decide
  obtain ⟨run, hactive, hid⟩ := Option.map_eq_some_iff.mp hrun
  obtain ⟨hreading, _, hlater⟩ := ending_complete hbase hbefore htext hends
  obtain ⟨more, hdue, hreturned, hcomplete⟩ := ((hlater []).2 List.not_mem_nil).2
  obtain ⟨lines, hsent⟩ := hcomplete.cancelled run hactive
  have hclose : t₀ = ((first b).after before).close := step_ends hreading hends
  refine ⟨hbase, ?_, more, hdue, hreturned, ?_, hcomplete.written⟩
  · rw [hclose, ht₁]
    decide
  · rw [hid] at hsent
    show Event.runFinished ⟨7⟩ .cancelled ∈ (t₀.after ([] ++ more)).sent
    rw [hsent]
    simp only [farewell, List.mem_append, List.mem_cons, true_or, or_true]

end Tasks

end Cuesheet
