import Cuesheet.Invocation.Controller
import Cuesheet.Proofs.Invocation.Start
import Cuesheet.Proofs.Run.Brackets

/-!
# The steps of the controller

The controller keeps three things that change separately: the state, the watchers that have not
reported, and the events sent. `Controller.Sound` ties them together. The watchers are those of the
active run: one while a run is active, and none otherwise. And the events are in order, with the
active run under way. Every step of the controller keeps this, and each step is described once, for
a sound controller, by everything that it changes.

It follows that no report of a watcher is ever stale: a watcher that has not reported belongs to the
active run, so that its report ends that run.
-/

namespace Cuesheet

namespace Controller

/-- The watchers are those of the active run, and the events are in order. -/
structure Sound (k : Controller) : Prop where
  watched : k.watchers.map (·.run) = k.state.activeId.toList
  ordered : Event.bracketAll none k.sent = some k.state.activeId

theorem sound_first : Sound {} := ⟨rfl, rfl⟩

/-! ### What a sound controller is like -/

section Sound

variable {k : Controller}

theorem Sound.watchers_nil (hk : k.Sound) (hidle : k.state.active = none) : k.watchers = [] := by
  have hw := hk.watched
  rw [RunState.activeId, hidle] at hw
  exact List.map_eq_nil_iff.mp hw

theorem Sound.watchers_one (hk : k.Sound) {run : ActiveRun}
    (hrun : k.state.active = some run) : ∃ w, k.watchers = [w] ∧ w.run = run.id := by
  have hw := hk.watched
  rw [RunState.activeId, hrun] at hw
  obtain ⟨w, hws, hid⟩ := List.map_eq_singleton_iff.mp hw
  exact ⟨w, hws, hid⟩

/-- A watcher that has not reported belongs to the active run. -/
theorem Sound.active_of_watcher (hk : k.Sound) {w : Watcher} (hw : w ∈ k.watchers) :
    ∃ run, k.state.active = some run ∧ run.id = w.run ∧ k.watchers = [w] := by
  rcases hrun : k.state.active with _ | run
  · rw [hk.watchers_nil hrun] at hw; cases hw
  · obtain ⟨v, hws, hid⟩ := hk.watchers_one hrun
    rw [hws] at hw
    obtain rfl := List.mem_singleton.mp hw
    exact ⟨run, rfl, hid.symm, hws⟩

end Sound

/-! ### The calls of a front end -/

/-- A start that succeeds finds no run, and leaves one with one watcher. -/
theorem start_eq_ok {k : Controller} {host : Host} {locator : Locator} {c : Configuration}
    {birth : Invocation.Birth} {launched : Launched}
    (hs : k.start host locator c birth = .ok launched) :
    k.state.active = none ∧ launched.controller =
      { state :=
          { status := .inProgress, active := some (birth.run c), lastRun := some birth.id }
        watchers := k.watchers ++ [{ run := birth.id }]
        sent := k.sent ++ RunState.beginning (birth.run c) launched.command.display } := by
  simp only [start] at hs
  rcases hstart : Invocation.start host locator k.state c birth with fault | started
  · rw [hstart] at hs; cases hs
  · rw [hstart, Except.ok.injEq] at hs
    obtain ⟨hidle, _, command, _, _, rfl⟩ := Invocation.start_eq_ok.mp hstart
    subst hs; exact ⟨hidle, rfl⟩

theorem Sound.start {k : Controller} (hk : k.Sound) {host : Host} {locator : Locator}
    {c : Configuration} {birth : Invocation.Birth} {launched : Launched}
    (hs : k.start host locator c birth = .ok launched) : launched.controller.Sound := by
  obtain ⟨hidle, hlaunched⟩ := start_eq_ok hs
  rw [hlaunched]
  refine ⟨?_, ?_⟩
  · simp only [hk.watchers_nil hidle]; rfl
  · have hbefore : Event.bracketAll none k.sent = some none := by
      rw [hk.ordered, RunState.activeId, hidle]; rfl
    simp only [Event.bracketAll_append, hbefore, Option.bind_some, RunState.bracketAll_beginning]
    rfl

/-- A request to cancel marks the active run, may signal watchers, and sends
    nothing. -/
theorem cancel?_eq_some {k k' : Controller} (hc : k.cancel? = some k') :
    ∃ run, k.state.active = some run ∧
      k'.state = { k.state with active := some { run with cancelRequested := true } } ∧
      k'.watchers.map (·.run) = k.watchers.map (·.run) ∧ k'.sent = k.sent := by
  obtain ⟨c, hcancel, rfl⟩ := Option.map_eq_some_iff.mp hc
  obtain ⟨run, hrun, rfl⟩ := RunState.cancel?_eq_some.mp hcancel
  refine ⟨run, hrun, rfl, ?_, rfl⟩
  -- a signal changes a watcher, but not whose it is
  by_cases hsig : (run.watched && !run.cancelRequested) = true
  · simp only [if_pos hsig, List.map_map]
    refine List.map_congr_left fun w _ => ?_
    simp only [Function.comp_apply]
    split <;> rfl
  · simp only [if_neg hsig]

theorem Sound.cancel {k k' : Controller} (hk : k.Sound) (hc : k.cancel? = some k') :
    k'.Sound := by
  obtain ⟨run, hrun, hstate, hwatchers, hsent⟩ := cancel?_eq_some hc
  have hid : k'.state.activeId = k.state.activeId := by
    simp only [RunState.activeId, hstate, hrun, Option.map_some]
  exact ⟨by rw [hwatchers, hid, hk.watched], by rw [hsent, hid, hk.ordered]⟩

theorem acknowledge?_eq_some {k k' : Controller} (ha : k.acknowledge? = some k') :
    k.state.active = none ∧ k.state.status.isTerminal = true ∧
      k' = { k with
        state := { k.state with status := .idle }
        sent := k.sent ++ [RunState.announcement .idle] } := by
  obtain ⟨r, hack, rfl⟩ := Option.map_eq_some_iff.mp ha
  obtain ⟨hdone, hidle, rfl⟩ := RunState.acknowledge?_eq_some.mp hack
  exact ⟨hidle, hdone, rfl⟩

theorem Sound.sendAside {k : Controller} (hk : k.Sound) {es : List Event}
    (haside : ∀ e ∈ es, e.isAside = true) : (k.send es).Sound := by
  refine ⟨hk.watched, ?_⟩
  simp only [send, Event.bracketAll_append, hk.ordered, Option.bind_some,
    Event.bracketAll_aside haside]

theorem Sound.acknowledge {k k' : Controller} (hk : k.Sound) (ha : k.acknowledge? = some k') :
    k'.Sound := by
  obtain ⟨_, _, rfl⟩ := acknowledge?_eq_some ha
  have haside : ∀ e ∈ [RunState.announcement .idle], e.isAside = true := by
    intro e he
    obtain rfl := List.mem_singleton.mp he
    rfl
  have hsent := hk.sendAside haside
  exact ⟨hk.watched, hsent.ordered⟩

/-! ### The steps of a watcher -/

def logsOf (id : RunId) (lines : List (LogStream × String)) : List Event :=
  lines.map fun (stream, line) => Event.runLog id stream line

theorem logsOf_append (id : RunId) (xs ys : List (LogStream × String)) :
    logsOf id (xs ++ ys) = logsOf id xs ++ logsOf id ys := List.map_append

theorem isAside_logsOf (id : RunId) (lines : List (LogStream × String)) :
    ∀ e ∈ logsOf id lines, e.isAside = true := by
  intro e he
  obtain ⟨_, _, rfl⟩ := List.mem_map.mp he
  rfl

/-- Reading output sends lines of the run and changes nothing but what is pending. -/
theorem read_eq (k : Controller) (id : RunId) (stream : LogStream) (piece : Bytes) :
    ∃ lines, (k.read id stream piece).state = k.state ∧
      (k.read id stream piece).watchers.map (·.run) = k.watchers.map (·.run) ∧
      (k.read id stream piece).sent = k.sent ++ logsOf id lines := by
  simp only [read]
  rcases k.watcher? id with _ | w
  · exact ⟨[], rfl, rfl, by simp only [logsOf, List.map_nil, List.append_nil]⟩
  · refine ⟨(w.pending.feed stream piece).2.map fun line => (stream, line), rfl, ?_, ?_⟩
    · simp only [List.map_map]
      refine List.map_congr_left fun v _ => ?_
      simp only [Function.comp_apply]
      split <;> rfl
    · simp only [logsOf, List.map_map]; rfl

theorem Sound.read {k : Controller} (hk : k.Sound) (id : RunId) (stream : LogStream)
    (piece : Bytes) : (k.read id stream piece).Sound := by
  obtain ⟨lines, hstate, hwatchers, hsent⟩ := read_eq k id stream piece
  have hlogs := hk.sendAside (isAside_logsOf id lines)
  refine ⟨by rw [hwatchers, hstate, hk.watched], ?_⟩
  rw [hsent, hstate]; exact hlogs.ordered

/-- **A report is never stale.**  In a sound controller a watcher that has not
    reported belongs to the active run. Its report is accepted, ends that run, and
    leaves no watcher. -/
theorem Sound.report_of_watcher {k : Controller} (hk : k.Sound) {w : Watcher}
    (hw : w ∈ k.watchers) (code : Int32) :
    ∃ run f, k.state.active = some run ∧ run.id = w.run ∧
      k.state.finish? w.run code = some f ∧
      k.report w.run code =
        { state := f.state, watchers := []
          sent := k.sent ++ (logsOf w.run w.pending.rest
            ++ RunState.ending run (RunState.ActiveRun.outcome run code)) } := by
  obtain ⟨run, hrun, hid, hws⟩ := hk.active_of_watcher hw
  obtain ⟨f, hf, hevents⟩ : ∃ f, k.state.finish? w.run code = some f ∧
      f.events = RunState.ending run (RunState.ActiveRun.outcome run code) :=
    ⟨_, RunState.finish?_eq_some.mpr ⟨run, hrun, hid, rfl⟩, rfl⟩
  refine ⟨run, f, hrun, hid, hf, ?_⟩
  have hfind : k.watcher? w.run = some w := by
    simp only [watcher?, hws, List.find?_cons, beq_self_eq_true]
  have hnone : k.watchers.filter (·.run != w.run) = [] := by
    simp only [hws, List.filter_cons, bne_self_eq_false, Bool.false_eq_true, if_false,
      List.filter_nil]
  simp only [Controller.report, hfind, hf, hnone, hevents]
  rfl

theorem report_of_no_watcher {k : Controller} {id : RunId} (hw : k.watcher? id = none)
    (code : Int32) : k.report id code = k := by
  simp only [report, hw]

theorem Sound.report {k : Controller} (hk : k.Sound) (id : RunId) (code : Int32) :
    (k.report id code).Sound := by
  rcases hfind : k.watcher? id with _ | w
  · rw [report_of_no_watcher hfind]; exact hk
  · obtain rfl : w.run = id := by simpa using List.find?_some hfind
    obtain ⟨run, f, hrun, hid, hf, hreport⟩ :=
      hk.report_of_watcher (List.mem_of_find?_eq_some hfind) code
    obtain ⟨run', hrun', _, rfl⟩ := RunState.finish?_eq_some.mp hf
    rw [hreport]
    refine ⟨rfl, ?_⟩
    have hbefore : Event.bracketAll none k.sent = some (some run.id) := by
      rw [hk.ordered, RunState.activeId, hrun]; rfl
    simp only [Event.bracketAll_append, hbefore, Option.bind_some,
      Event.bracketAll_aside (isAside_logsOf _ _), RunState.bracketAll_ending]
    rfl

end Controller

end Cuesheet
