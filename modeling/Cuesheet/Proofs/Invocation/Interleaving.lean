import Cuesheet.Proofs.Invocation.Watchers

/-!
# Any number of callers

A controller may have any number of callers, and they share its state and its events; whose call it
is makes no difference to what the call does. Around the controller stand the tools that it
launched. A `Scene` is a controller with those of its tools whose watchers have not reported, and a
`Scene.Move` is the smallest thing that can happen: one section of a call that nothing interrupts, or
one thing that a tool or its watcher does. A list of moves is an order in which the callers, the tools
and the watchers get their turns, so that a statement about all lists is one about all orders.

A call to start gives the state back before it sets a watcher on the tool; `attend` is what it does
after that, and other moves may come in between. A tool may exit at any time, with any code, told to
or not; its watcher reports at any time after that.

Nothing of this matters to the outcome. `Scene.Kept` holds from the first scene on: while a run is
active there is exactly one watcher that has not reported, and one tool, and they are those of the
active run; otherwise there are none. The runs that were finished in the events are those whose
watchers have reported, in the same order, and the runs that were started are these and the active
one.
-/

namespace Cuesheet

/-- A launched tool whose watcher has not reported. -/
structure Tool where
  run : RunId
  /-- Whether its watcher has been set on it. -/
  attended : Bool := false
  /-- The code with which it exited, if it did. -/
  exitCode : Option Int32 := none
deriving DecidableEq, Repr

structure Scene where
  controller : Controller := {}
  /-- The tools whose watchers have not reported. -/
  tools : List Tool := []
  /-- The runs that were started so far, the oldest first. -/
  launched : List RunId := []
  /-- The runs whose watchers have reported, the oldest report first. -/
  reported : List RunId := []

namespace Scene

/-- One thing that happens. The first four are calls. -/
inductive Move where
  | start (host : Host) (locator : Locator) (form : Configuration) (birth : Invocation.Birth)
  | cancel
  | acknowledge
  | snapshot
  /-- The call that launched the tool of a run sets a watcher on it. -/
  | attend (id : RunId)
  | output (id : RunId) (stream : LogStream) (piece : Bytes)
  | exit (id : RunId) (code : Int32)
  /-- The watcher of a run reports, if its tool has exited. -/
  | report (id : RunId)

/-- The tools after something happened to that of run `id`. -/
def change (s : Scene) (id : RunId) (f : Tool → Tool) : Scene :=
  { s with tools := s.tools.map fun t => if t.run = id then { f t with run := t.run } else t }

/-- The code that the watcher of a run has to report. -/
def reportable? (s : Scene) (id : RunId) : Option Int32 :=
  (s.tools.find? fun t => t.run == id && t.attended).bind (·.exitCode)

def step (s : Scene) : Move → Scene
  | .start host locator form birth =>
    match s.controller.start host locator form birth with
    | .error _ => s
    | .ok launched =>
      { s with
        controller := launched.controller
        tools := s.tools ++ [{ run := birth.id }]
        launched := s.launched ++ [birth.id] }
  | .cancel =>
    match s.controller.cancel? with
    | none => s
    | some controller => { s with controller }
  | .acknowledge =>
    match s.controller.acknowledge? with
    | none => s
    | some controller => { s with controller }
  | .snapshot => s
  | .attend id => s.change id fun t => { t with attended := true }
  | .output id stream piece => { s with controller := s.controller.read id stream piece }
  | .exit id code => s.change id fun t => { t with exitCode := t.exitCode.or (some code) }
  | .report id =>
    match s.reportable? id with
    | none => s
    | some code =>
      { s with
        controller := s.controller.report id code
        tools := s.tools.filter (·.run != id)
        reported := s.reported ++ [id] }

def after (moves : List Move) : Scene := moves.foldl step {}

structure Kept (s : Scene) : Prop where
  sound : s.controller.Sound
  tools : s.tools.map (·.run) = s.controller.state.activeId.toList
  started : Event.startedIds s.controller.sent = s.launched
  finished : Event.finishedIds s.controller.sent = s.reported

theorem kept_first : Kept {} := ⟨Controller.sound_first, rfl, rfl, rfl⟩

section Steps

variable {s : Scene}

theorem Kept.start (hs : s.Kept) (host : Host) (locator : Locator) (form : Configuration)
    (birth : Invocation.Birth) : (s.step (.start host locator form birth)).Kept := by
  simp only [step]
  rcases hstart : s.controller.start host locator form birth with fault | launched
  · exact hs
  · obtain ⟨hidle, hlaunched⟩ := Controller.start_eq_ok hstart
    refine ⟨hs.sound.start hstart, ?_, ?_, ?_⟩
    · have hnone : s.tools.map (·.run) = [] := by
        rw [hs.tools, RunState.activeId, hidle]; rfl
      simp only [hlaunched, List.map_append, hnone]; rfl
    · simp only [hlaunched, Event.startedIds_append, hs.started,
        RunState.startedIds_beginning]
      rfl
    · simp only [hlaunched, Event.finishedIds_append, hs.finished,
        RunState.finishedIds_beginning, List.append_nil]

theorem Kept.cancel (hs : s.Kept) : (s.step .cancel).Kept := by
  simp only [step]
  rcases hcancel : s.controller.cancel? with _ | k
  · exact hs
  · obtain ⟨run, hrun, hstate, _, hsent⟩ := Controller.cancel?_eq_some hcancel
    refine ⟨hs.sound.cancel hcancel, ?_, ?_, ?_⟩
    · simp only [hs.tools, RunState.activeId, hstate, hrun, Option.map_some]
    · simp only [hsent, hs.started]
    · simp only [hsent, hs.finished]

theorem Kept.acknowledge (hs : s.Kept) : (s.step .acknowledge).Kept := by
  simp only [step]
  rcases hack : s.controller.acknowledge? with _ | k
  · exact hs
  · have hsound := hs.sound.acknowledge hack
    obtain ⟨_, _, rfl⟩ := Controller.acknowledge?_eq_some hack
    refine ⟨hsound, hs.tools, ?_, ?_⟩
    · simp only [Event.startedIds_append, hs.started]
      exact List.append_nil _
    · simp only [Event.finishedIds_append, hs.finished]
      exact List.append_nil _

theorem Kept.output (hs : s.Kept) (id : RunId) (stream : LogStream) (piece : Bytes) :
    (s.step (.output id stream piece)).Kept := by
  obtain ⟨lines, hstate, _, hsent⟩ := Controller.read_eq s.controller id stream piece
  have haside := Controller.isAside_logsOf id lines
  refine ⟨hs.sound.read id stream piece, ?_, ?_, ?_⟩
  · simp only [step, hstate, hs.tools]
  · simp only [step, hsent, Event.startedIds_append, Event.startedIds_aside haside,
      List.append_nil, hs.started]
  · simp only [step, hsent, Event.finishedIds_append, Event.finishedIds_aside haside,
      List.append_nil, hs.finished]

/-- Whatever happens to a tool, it stays the tool of its run. -/
theorem Kept.change (hs : s.Kept) (id : RunId) (f : Tool → Tool) : (s.change id f).Kept := by
  refine ⟨hs.sound, ?_, hs.started, hs.finished⟩
  have htools := hs.tools
  simp only [Scene.change, List.map_map]
  rw [← htools]
  refine List.map_congr_left fun t _ => ?_
  simp only [Function.comp_apply]
  split <;> rfl

/-- Whatever can be reported is reported by a watcher that has not done so. -/
theorem Kept.watcher_of_reportable (hs : s.Kept) {id : RunId} {code : Int32}
    (hcode : s.reportable? id = some code) : ∃ w ∈ s.controller.watchers, w.run = id := by
  obtain ⟨t, ht, _⟩ := Option.bind_eq_some_iff.mp hcode
  obtain ⟨hid, _⟩ : t.run = id ∧ t.attended = true := by
    have hboth := List.find?_some ht
    simpa only [Bool.and_eq_true, beq_iff_eq] using hboth
  have hids : s.controller.watchers.map (·.run) = s.tools.map (·.run) := by
    rw [hs.sound.watched, hs.tools]
  have hmem : id ∈ s.controller.watchers.map (·.run) := by
    rw [hids, ← hid]; exact List.mem_map_of_mem (List.mem_of_find?_eq_some ht)
  exact List.mem_map.mp hmem

theorem Kept.report (hs : s.Kept) (id : RunId) : (s.step (.report id)).Kept := by
  rcases hcode : s.reportable? id with _ | code
  · simp only [step, hcode]; exact hs
  simp only [step, hcode]
  obtain ⟨w, hw, rfl⟩ := hs.watcher_of_reportable hcode
  obtain ⟨run, f, hrun, hrunid, hf, hreport⟩ := hs.sound.report_of_watcher hw code
  obtain ⟨_, _, _, rfl⟩ := RunState.finish?_eq_some.mp hf
  have hsound := hs.sound.report w.run code
  rw [hreport] at hsound ⊢
  have haside := Controller.isAside_logsOf w.run w.pending.rest
  refine ⟨hsound, ?_, ?_, ?_⟩
  · have hall : s.tools.map (·.run) = [w.run] := by
      rw [hs.tools, RunState.activeId, hrun, Option.map_some, hrunid]; rfl
    obtain ⟨t', ht', hid'⟩ := List.map_eq_singleton_iff.mp hall
    simp only [ht', List.filter_cons, hid', bne_self_eq_false, Bool.false_eq_true, if_false,
      List.filter_nil]
    rfl
  · simp only [Event.startedIds_append, Event.startedIds_aside haside,
      RunState.startedIds_ending, List.append_nil, hs.started]
  · simp only [Event.finishedIds_append, Event.finishedIds_aside haside,
      RunState.finishedIds_ending, List.nil_append, hs.finished, hrunid]

theorem Kept.step (hs : s.Kept) (m : Move) : (s.step m).Kept := by
  cases m with
  | start host locator form birth => exact hs.start host locator form birth
  | cancel => exact hs.cancel
  | acknowledge => exact hs.acknowledge
  | snapshot => exact hs
  | attend id => exact hs.change id _
  | output id stream piece => exact hs.output id stream piece
  | exit id code => exact hs.change id _
  | report id => exact hs.report id

end Steps

theorem Kept.foldl {s : Scene} (hs : s.Kept) (moves : List Move) :
    (moves.foldl Scene.step s).Kept := by
  induction moves generalizing s with
  | nil => exact hs
  | cons m moves ih => exact ih (hs.step m)

theorem kept_after (moves : List Move) : (after moves).Kept := kept_first.foldl moves

/-- **One watcher for one run.**  After any moves in any order: while a run is active
    there is exactly one watcher that has not reported, otherwise there is none, and
    it is that of the active run; the tools are those of the watchers. The events are
    in order, so that no two runs overlap. A watcher that reports is never stale: its
    report is accepted and sends one finish, of its own run. And the runs that were
    started are those whose watchers have reported, each finished once, and then
    those whose watchers have not. -/
theorem one_watcher (moves : List Move) :
    let s := after moves
    let k := s.controller
    k.watchers.length = (if k.state.isRunning then 1 else 0) ∧
      (∀ w ∈ k.watchers, k.state.activeId = some w.run) ∧
      s.tools.map (·.run) = k.watchers.map (·.run) ∧
      Event.bracketAll none k.sent = some k.state.activeId ∧
      (∀ id code, s.reportable? id = some code →
        ∃ f, k.state.finish? id code = some f ∧
          Event.finishedIds (s.step (.report id)).controller.sent =
            Event.finishedIds k.sent ++ [id] ∧
          (s.step (.report id)).controller.watchers = []) ∧
      Event.startedIds k.sent = s.launched ∧
      Event.finishedIds k.sent = s.reported ∧
      s.launched = s.reported ++ k.watchers.map (·.run) := by
  intro s k
  have hs : s.Kept := kept_after moves
  refine ⟨?_, ?_, ?_, hs.sound.ordered, ?_, hs.started, hs.finished, ?_⟩
  · rcases hrun : k.state.active with _ | run
    · have hnil := hs.sound.watchers_nil hrun
      simp only [k, RunState.isRunning] at hrun hnil ⊢
      simp only [hnil, hrun, Option.isSome_none, List.length_nil, Bool.false_eq_true, if_false]
    · obtain ⟨w, hws, _⟩ := hs.sound.watchers_one hrun
      simp only [k, RunState.isRunning] at hrun hws ⊢
      simp only [hws, hrun, Option.isSome_some, List.length_cons, List.length_nil, if_true]
  · intro w hw
    obtain ⟨run, hrun, hid, _⟩ := hs.sound.active_of_watcher hw
    simp only [k, RunState.activeId, hrun, Option.map_some, hid]
  · rw [hs.tools, ← hs.sound.watched]
  · intro id code hcode
    obtain ⟨w, hw, rfl⟩ := hs.watcher_of_reportable hcode
    obtain ⟨run, f, _, _, hf, hreport⟩ := hs.sound.report_of_watcher hw code
    have hafter := (hs.step (.report w.run)).finished
    simp only [step, hcode] at hafter
    refine ⟨f, hf, ?_, ?_⟩
    · simp only [step, hcode, hafter, k, hs.finished]
    · simp only [step, hcode, hreport]
  · have hbalance := Event.started_eq_finished hs.sound.ordered
    rw [← hs.started, ← hs.finished, hs.sound.watched]
    simpa only [Option.toList_none, List.nil_append] using hbalance

/-- A start between the exit of a tool and the report of it is refused, and a second
    report of the same run does nothing. -/
theorem one_watcher_of_late_report :
    let begun (n : Nat) : Move :=
      .start .obliging {} { inputPath := some [0x6F] } ⟨⟨n⟩, none, .epoch⟩
    let s := after [begun 7, .cancel, .attend ⟨7⟩, .exit ⟨7⟩ 0, begun 8, .report ⟨7⟩, begun 9,
      .report ⟨7⟩]
    (s.launched = [⟨7⟩, ⟨9⟩] ∧ s.reported = [⟨7⟩] ∧ s.tools = [{ run := ⟨9⟩ }]) ∧
      s.controller.watchers.map (·.run) = [⟨9⟩] ∧
      Event.startedIds s.controller.sent = [⟨7⟩, ⟨9⟩] ∧
      Event.finishedIds s.controller.sent = [⟨7⟩] := by
  intro begun s
  have hscene : s.launched = [⟨7⟩, ⟨9⟩] ∧ s.reported = [⟨7⟩] ∧ s.tools = [{ run := ⟨9⟩ }] := by
    decide
  obtain ⟨_, _, htools, _, _, hstarted, hfinished, _⟩ := one_watcher
    [begun 7, .cancel, .attend ⟨7⟩, .exit ⟨7⟩ 0, begun 8, .report ⟨7⟩, begun 9, .report ⟨7⟩]
  refine ⟨hscene, ?_, hstarted.trans hscene.1, hfinished.trans hscene.2.1⟩
  rw [← htools]
  exact congrArg (·.map (·.run)) hscene.2.2

end Scene

end Cuesheet
