import Cuesheet.Proofs.Invocation.Reading
import Cuesheet.Proofs.Invocation.Refusal
import Cuesheet.Proofs.Run.Verdict

/-!
# The file that is opened

Whether a file is opened, and which, is settled by the form at the start of a run and by how the run
ends, and these lie far apart: other callers act in between, the form is edited, and the tool takes its
time. A `Company` is a scene together with the forms that its callers hold. A caller may change its form
at any moment, and what it starts has the form of that moment.

`Scene.Turn` says what a single move does to the events and to the active run. From it follows the
course of one run, which is told for the moves since its start: while the run is at work nothing is
opened, its end opens the file or not, and afterwards its part of the events is closed by the start of
the next run.
-/

namespace Cuesheet

namespace Event

def openedPath? : Event → Option Bytes
  | .openFile path => some path
  | _ => none

def openedPaths (es : List Event) : List Bytes := es.filterMap openedPath?

@[simp] theorem openedPaths_append (es fs : List Event) :
    openedPaths (es ++ fs) = openedPaths es ++ openedPaths fs := List.filterMap_append

/-- Neither the start nor the end of a run, and nothing to open. -/
def isIdle (e : Event) : Bool := e.isAside && e.openedPath?.isNone

theorem openedPaths_idle {es : List Event} (hidle : ∀ e ∈ es, e.isIdle = true) :
    openedPaths es = [] := by
  refine List.filterMap_eq_nil_iff.mpr fun e he => ?_
  have hboth := hidle e he
  rw [isIdle, Bool.and_eq_true, Option.isNone_iff_eq_none] at hboth
  exact hboth.2

theorem startedIds_idle {es : List Event} (hidle : ∀ e ∈ es, e.isIdle = true) :
    startedIds es = [] := by
  apply startedIds_aside
  intro e he
  have hboth := hidle e he
  rw [isIdle, Bool.and_eq_true] at hboth
  exact hboth.1

end Event

namespace Controller

theorem isIdle_logsOf (id : RunId) (lines : List (LogStream × String)) :
    ∀ e ∈ logsOf id lines, e.isIdle = true := by
  intro e he
  obtain ⟨_, _, rfl⟩ := List.mem_map.mp he
  rfl

end Controller

namespace RunState

/-- The end of a run opens the file that was chosen at its start, if the run succeeded. -/
theorem openedPaths_ending (run : ActiveRun) (outcome : RunOutcome) :
    Event.openedPaths (ending run outcome) =
      if outcome = .succeeded then run.openTarget.toList else [] := by
  split
  · rename_i hsucceeded
    rcases htarget : run.openTarget with _ | path
    · simp only [ending, hsucceeded, htarget, if_true]
      rfl
    · simp only [ending, hsucceeded, htarget, if_true]
      rfl
  · rename_i hnot
    simp only [ending, if_neg hnot]
    rfl

end RunState

namespace Scene

/-! ### What a move does -/

/-- Everything a move can do to the active run and to the events. -/
inductive Turn (s : Scene) : Move → Scene → Prop where
  | launched {s' : Scene} {host : Host} {locator : Locator} {form : Configuration}
      {birth : Invocation.Birth} (command : List String)
      (hidle : s.controller.state.active = none)
      (hsent : s'.controller.sent =
        s.controller.sent ++ RunState.beginning (birth.run form) command)
      (hlaunched : s'.launched = s.launched ++ [birth.id]) :
      Turn s (.start host locator form birth) s'
  | doomed {s' : Scene} (run : ActiveRun) (hrun : s.controller.state.active = some run)
      (hdoomed : s'.controller.state.active = some { run with cancelRequested := true })
      (hsent : s'.controller.sent = s.controller.sent) (hlaunched : s'.launched = s.launched) :
      Turn s .cancel s'
  | ended {s' : Scene} (run : ActiveRun) (code : Int32) (lines : List (LogStream × String))
      (hrun : s.controller.state.active = some run) (hcode : s.reportable? run.id = some code)
      (hidle : s'.controller.state.active = none)
      (hsent : s'.controller.sent = s.controller.sent ++ (Controller.logsOf run.id lines
        ++ RunState.ending run (RunState.ActiveRun.outcome run code)))
      (hlaunched : s'.launched = s.launched) :
      Turn s (.report run.id) s'
  /-- The active run stays as it was, and no run begins or ends. -/
  | aside {s' : Scene} {m : Move} (es : List Event)
      (hcancel : m = .cancel → s.controller.state.active = none)
      (hreport : ∀ id, m = .report id → s.reportable? id = none)
      (hsame : s'.controller.state.active = s.controller.state.active)
      (hidle : ∀ e ∈ es, e.isIdle = true)
      (hsent : s'.controller.sent = s.controller.sent ++ es)
      (hlaunched : s'.launched = s.launched) :
      Turn s m s'

/-- Whether a move can decide how a run ends. -/
def Move.decides : Move → Bool
  | .cancel | .report _ => true
  | _ => false

theorem Move.ne_of_not_decides {m : Move} (hm : m.decides = false) :
    m ≠ .cancel ∧ ∀ id, m ≠ .report id := by
  constructor
  · rintro rfl
    cases hm
  · rintro id rfl
    cases hm

/-- Neither the controller changed nor the list of runs that were started. -/
theorem Turn.still {s s' : Scene} {m : Move}
    (hcancel : m = .cancel → s.controller.state.active = none)
    (hreport : ∀ id, m = .report id → s.reportable? id = none)
    (hcontroller : s'.controller = s.controller) (hlaunched : s'.launched = s.launched) :
    Turn s m s' := by
  refine .aside [] hcancel hreport (by rw [hcontroller]) ?_ ?_ hlaunched
  · intro e he
    cases he
  · rw [hcontroller, List.append_nil]

/-- The move decides nothing. -/
theorem Turn.bystander {s s' : Scene} {m : Move} (hm : m.decides = false) (es : List Event)
    (hsame : s'.controller.state.active = s.controller.state.active)
    (hidle : ∀ e ∈ es, e.isIdle = true) (hsent : s'.controller.sent = s.controller.sent ++ es)
    (hlaunched : s'.launched = s.launched) : Turn s m s' := by
  obtain ⟨hcancel, hreport⟩ := Move.ne_of_not_decides hm
  exact .aside es (fun heq => absurd heq hcancel) (fun id heq => absurd heq (hreport id)) hsame hidle
    hsent hlaunched

theorem Turn.unmoved {s s' : Scene} {m : Move} (hm : m.decides = false)
    (hcontroller : s'.controller = s.controller) (hlaunched : s'.launched = s.launched) :
    Turn s m s' := by
  obtain ⟨hcancel, hreport⟩ := Move.ne_of_not_decides hm
  exact .still (fun heq => absurd heq hcancel) (fun id heq => absurd heq (hreport id)) hcontroller
    hlaunched

theorem Kept.turn {s : Scene} (hs : s.Kept) (m : Move) : Turn s m (s.step m) := by
  cases m with
  | start host locator form birth =>
    rcases hstart : s.controller.start host locator form birth with fault | launched
    · simp only [Scene.step, hstart]
      exact .unmoved rfl rfl rfl
    · obtain ⟨hidle, hlaunched⟩ := Controller.start_eq_ok hstart
      simp only [Scene.step, hstart]
      exact .launched launched.command.display hidle (by rw [hlaunched]) rfl
  | cancel =>
    rcases hcancel : s.controller.cancel? with _ | k
    · have hidle : s.controller.state.active = none := by
        have hnone := Option.map_eq_none_iff.mp hcancel
        exact RunState.isRunning_eq_false.mp (RunState.cancel?_eq_none_iff.mp hnone)
      simp only [Scene.step, hcancel]
      exact .still (fun _ => hidle) (by rintro _ ⟨⟩) rfl rfl
    · obtain ⟨run, hrun, hstate, _, hsent⟩ := Controller.cancel?_eq_some hcancel
      simp only [Scene.step, hcancel]
      exact .doomed run hrun (by rw [hstate]) hsent rfl
  | acknowledge =>
    rcases hack : s.controller.acknowledge? with _ | k
    · simp only [Scene.step, hack]
      exact .unmoved rfl rfl rfl
    · obtain ⟨hidle, _, rfl⟩ := Controller.acknowledge?_eq_some hack
      simp only [Scene.step, hack]
      refine .bystander rfl [RunState.announcement .idle] rfl ?_ rfl rfl
      intro e he
      obtain rfl := List.mem_singleton.mp he
      rfl
  | snapshot => exact .unmoved rfl rfl rfl
  | attend id => exact .unmoved rfl rfl rfl
  | output id stream piece =>
    obtain ⟨lines, hstate, _, hsent⟩ := Controller.read_eq s.controller id stream piece
    simp only [Scene.step]
    exact .bystander rfl _ (by rw [hstate]) (Controller.isIdle_logsOf id lines) hsent rfl
  | exit id code => exact .unmoved rfl rfl rfl
  | report id =>
    rcases hcode : s.reportable? id with _ | code
    · simp only [Scene.step, hcode]
      refine .still (by rintro ⟨⟩) ?_ rfl rfl
      rintro _ ⟨⟩
      exact hcode
    · obtain ⟨w, hw, rfl⟩ := hs.watcher_of_reportable hcode
      obtain ⟨run, f, hrun, hid, hf, hreport⟩ := hs.sound.report_of_watcher hw code
      obtain ⟨_, _, _, rfl⟩ := RunState.finish?_eq_some.mp hf
      rw [← hid] at hcode hreport ⊢
      simp only [Scene.step, hcode, hreport]
      exact .ended run code w.pending.rest hrun hcode rfl rfl rfl

end Scene

/-! ### Callers and their forms -/

/-- A scene, and the forms that its callers hold. -/
structure Company where
  scene : Scene := {}
  forms : Nat → Configuration := fun _ => {}

namespace Company

inductive Move where
  /-- A caller changes its form, to whatever it likes. -/
  | change (caller : Nat) (form : Configuration)
  /-- A caller starts a run of the form that it holds. -/
  | start (caller : Nat) (host : Host) (locator : Locator) (birth : Invocation.Birth)
  /-- Something else happens in the scene. -/
  | act (m : Scene.Move)

def step (s : Company) : Move → Company
  | .change caller form =>
    { s with forms := fun k => if k = caller then form else s.forms k }
  | .start caller host locator birth =>
    { s with scene := s.scene.step (.start host locator (s.forms caller) birth) }
  | .act m => { s with scene := s.scene.step m }

def run (s : Company) (moves : List Move) : Company := moves.foldl step s

theorem run_append (s : Company) (ms ns : List Move) : s.run (ms ++ ns) = (s.run ms).run ns :=
  List.foldl_append

theorem run_snoc (s : Company) (ms : List Move) (m : Move) :
    s.run (ms ++ [m]) = (s.run ms).step m := run_append s ms [m]

/-- In the scene every move is one of the scene. A change of a form is one that does nothing. -/
theorem exists_scenic (s : Company) (m : Move) :
    ∃ m', (s.step m).scene = s.scene.step m' ∧ (m' = .cancel ↔ m = .act .cancel) ∧
      ∀ id, m' = .report id ↔ m = .act (.report id) := by
  cases m with
  | change caller form => exact ⟨.snapshot, rfl, ⟨nofun, nofun⟩, fun _ => ⟨nofun, nofun⟩⟩
  | start caller host locator birth =>
    exact ⟨.start host locator (s.forms caller) birth, rfl, ⟨nofun, nofun⟩,
      fun _ => ⟨nofun, nofun⟩⟩
  | act m => exact ⟨m, rfl, by rw [Move.act.injEq], fun _ => by rw [Move.act.injEq]⟩

theorem kept_run {s : Company} (hs : s.scene.Kept) (moves : List Move) :
    (s.run moves).scene.Kept := by
  induction moves using List.reverseRecOn with
  | nil => exact hs
  | append_singleton moves m ih =>
    obtain ⟨m', hscene, _⟩ := (s.run moves).exists_scenic m
    rw [run_snoc, hscene]
    exact ih.step m'

/-! ### How a run ends -/

/-- A request to cancel was accepted among the moves. -/
def Cancelled (s : Company) (moves : List Move) : Prop :=
  ∃ pre post, moves = pre ++ .act .cancel :: post ∧
    (s.run pre).scene.controller.cancel?.isSome = true

/-- The run that was started last in `s` ends well: its watcher reports the code zero, before
    another run is started, and no request to cancel was accepted until then. -/
def EndsWell (s : Company) (id : RunId) (moves : List Move) : Prop :=
  ∃ pre post, moves = pre ++ .act (.report id) :: post ∧
    (s.run pre).scene.launched = s.scene.launched ∧
    (s.run pre).scene.reportable? id = some 0 ∧ ¬ s.Cancelled pre

section Conditions

variable {s : Company} {moves : List Move} {m : Move} {id : RunId}

theorem cancelled_snoc : s.Cancelled (moves ++ [m]) ↔
    s.Cancelled moves ∨
      (m = .act .cancel ∧ (s.run moves).scene.controller.cancel?.isSome = true) :=
  RunState.exists_split_snoc moves m (.act .cancel)

theorem endsWell_snoc : s.EndsWell id (moves ++ [m]) ↔
    s.EndsWell id moves ∨ (m = .act (.report id) ∧
      (s.run moves).scene.launched = s.scene.launched ∧
      (s.run moves).scene.reportable? id = some 0 ∧ ¬ s.Cancelled moves) :=
  RunState.exists_split_snoc moves m (.act (.report id))

theorem not_cancelled_nil : ¬ s.Cancelled [] := RunState.not_split_nil (Move.act .cancel)

theorem not_endsWell_nil : ¬ s.EndsWell id [] :=
  RunState.not_split_nil (Move.act (.report id))

/-- A request to cancel is accepted exactly while a run is active. -/
theorem cancel?_isSome {k : Controller} :
    k.cancel?.isSome = true ↔ ∃ run, k.state.active = some run := by
  rw [Controller.cancel?, Option.isSome_map, RunState.cancel?, Option.isSome_map,
    Option.isSome_iff_exists]

end Conditions

/-! ### The course of a run -/

/-- The events of the run that was started last in `s`, up to the start of another. Those that
    were sent with its start are left out. -/
structure Told (s : Company) (id : RunId) (target : Option Bytes) (moves : List Move)
    (mine : List Event) : Prop where
  started : Event.startedIds mine = []
  well : s.EndsWell id moves → Event.openedPaths mine = target.toList
  ill : ¬ s.EndsWell id moves → Event.openedPaths mine = []

/-- The run that was started last in `s` is at work. -/
structure AtWork (s : Company) (id : RunId) (target : Option Bytes) (moves : List Move)
    (run : ActiveRun) (mine : List Event) : Prop where
  active : (s.run moves).scene.controller.state.active = some run
  own : run.id = id
  aim : run.openTarget = target
  cancelled : run.cancelRequested = true ↔ s.Cancelled moves
  launched : (s.run moves).scene.launched = s.scene.launched
  sent : (s.run moves).scene.controller.sent = s.scene.controller.sent ++ mine
  told : s.Told id target moves mine
  unended : ¬ s.EndsWell id moves

/-- The run that was started last in `s` is over, and no other was started. -/
structure Ended (s : Company) (id : RunId) (target : Option Bytes) (moves : List Move)
    (mine : List Event) : Prop where
  idle : (s.run moves).scene.controller.state.active = none
  launched : (s.run moves).scene.launched = s.scene.launched
  sent : (s.run moves).scene.controller.sent = s.scene.controller.sent ++ mine
  told : s.Told id target moves mine

/-- Another run was started: `next` tells of its start. -/
structure Past (s : Company) (id : RunId) (target : Option Bytes) (moves : List Move)
    (mine : List Event) (next : Event) (later : List Event) : Prop where
  launched : s.scene.launched.length < (s.run moves).scene.launched.length
  sent : (s.run moves).scene.controller.sent =
    s.scene.controller.sent ++ (mine ++ next :: later)
  next : next.startedId?.isSome = true
  told : s.Told id target moves mine

/-- How things stand with the run that was started last in `s`, after more moves. -/
inductive Course (s : Company) (id : RunId) (target : Option Bytes) (moves : List Move) : Prop where
  | atWork {run : ActiveRun} {mine : List Event} (h : s.AtWork id target moves run mine)
  | ended {mine : List Event} (h : s.Ended id target moves mine)
  | past {mine : List Event} {next : Event} {later : List Event}
      (h : s.Past id target moves mine next later)

section Course

variable {s : Company} {id : RunId} {target : Option Bytes} {moves : List Move}
  {mine : List Event}

theorem Told.append_idle {moves' : List Move} {es : List Event}
    (h : s.Told id target moves mine) (hsame : s.EndsWell id moves' ↔ s.EndsWell id moves)
    (hidle : ∀ e ∈ es, e.isIdle = true) : s.Told id target moves' (mine ++ es) := by
  constructor
  · rw [Event.startedIds_append, h.started, Event.startedIds_idle hidle, List.append_nil]
  · intro hwell
    rw [Event.openedPaths_append, Event.openedPaths_idle hidle, List.append_nil]
    exact h.well (hsame.mp hwell)
  · intro hill
    rw [Event.openedPaths_append, Event.openedPaths_idle hidle, List.append_nil]
    exact h.ill (mt hsame.mpr hill)

theorem Told.congr {moves' : List Move} (h : s.Told id target moves mine)
    (hsame : s.EndsWell id moves' ↔ s.EndsWell id moves) : s.Told id target moves' mine := by
  have hnone : ∀ e ∈ ([] : List Event), e.isIdle = true := fun _ he => absurd he List.not_mem_nil
  have happended := h.append_idle hsame hnone
  rwa [List.append_nil] at happended

/-- Where no report of the run is accepted, a move does not decide how it ends. -/
theorem endsWell_unreported {m : Move}
    (hnot : ¬ ((s.run moves).scene.launched = s.scene.launched ∧
      (s.run moves).scene.reportable? id = some 0)) :
    s.EndsWell id (moves ++ [m]) ↔ s.EndsWell id moves := by
  rw [endsWell_snoc, or_iff_left]
  rintro ⟨_, hlaunched, hcode, _⟩
  exact hnot ⟨hlaunched, hcode⟩

/-- Where no run is active there is nothing to report. -/
theorem reportable?_of_idle {t : Scene} (ht : t.Kept) (hidle : t.controller.state.active = none)
    (id : RunId) : t.reportable? id = none := by
  have htools : t.tools = [] := by
    have hids := ht.tools
    rw [RunState.activeId, hidle, Option.map_none, Option.toList_none] at hids
    exact List.map_eq_nil_iff.mp hids
  rw [Scene.reportable?, htools, List.find?_nil, Option.bind_none]

/-- A report of the run is accepted, and it is the one that decides. -/
theorem AtWork.told_report {run : ActiveRun} {code : Int32} (h : s.AtWork id target moves run mine)
    (hcode : (s.run moves).scene.reportable? id = some code)
    (lines : List (LogStream × String)) :
    s.Told id target (moves ++ [Move.act (.report id)]) (mine ++ (Controller.logsOf id lines ++
      RunState.ending run (RunState.ActiveRun.outcome run code))) := by
  have hwell : s.EndsWell id (moves ++ [Move.act (.report id)]) ↔
      RunState.ActiveRun.outcome run code = .succeeded := by
    rw [endsWell_snoc, or_iff_right h.unended, RunState.outcome_eq_succeeded, h.cancelled, hcode,
      Option.some.injEq]
    constructor
    · rintro ⟨_, _, hzero, hnot⟩
      exact ⟨hnot, hzero⟩
    · rintro ⟨hnot, hzero⟩
      exact ⟨rfl, h.launched, hzero, hnot⟩
  have hlogs := Controller.isIdle_logsOf id lines
  have hopened : Event.openedPaths (mine ++ (Controller.logsOf id lines ++
      RunState.ending run (RunState.ActiveRun.outcome run code))) =
        if RunState.ActiveRun.outcome run code = .succeeded then target.toList else [] := by
    rw [Event.openedPaths_append, Event.openedPaths_append, h.told.ill h.unended,
      Event.openedPaths_idle hlogs, RunState.openedPaths_ending, h.aim]
    rfl
  constructor
  · rw [Event.startedIds_append, Event.startedIds_append, h.told.started,
      Event.startedIds_idle hlogs, RunState.startedIds_ending]
    rfl
  · intro hends
    rw [hopened, if_pos (hwell.mp hends)]
  · intro hends
    rw [hopened, if_neg (mt hwell.mpr hends)]

theorem AtWork.step {run : ActiveRun} (hs : (s.run moves).scene.Kept)
    (h : s.AtWork id target moves run mine) (m : Move) : s.Course id target (moves ++ [m]) := by
  obtain ⟨m', hscene, hcancel, hreport⟩ := (s.run moves).exists_scenic m
  have hturn := hs.turn m'
  rw [← hscene, ← run_snoc] at hturn
  cases hturn with
  | launched command hidle _ _ =>
    rw [h.active] at hidle
    cases hidle
  | doomed run' hrun hdoomed hsent hlaunched =>
    obtain rfl := Option.some.inj (h.active.symm.trans hrun)
    obtain rfl := hcancel.mp rfl
    have hasked : s.Cancelled (moves ++ [Move.act .cancel]) :=
      cancelled_snoc.mpr (.inr ⟨rfl, cancel?_isSome.mpr ⟨run, h.active⟩⟩)
    have hsame : s.EndsWell id (moves ++ [Move.act .cancel]) ↔ s.EndsWell id moves := by
      rw [endsWell_snoc, or_iff_left]
      rintro ⟨hact, _⟩
      cases hact
    exact .atWork ⟨hdoomed, h.own, h.aim, ⟨fun _ => hasked, fun _ => rfl⟩,
      hlaunched.trans h.launched, hsent.trans h.sent, h.told.congr hsame,
      mt hsame.mp h.unended⟩
  | ended run' code lines hrun hcode hidle hsent hlaunched =>
    obtain rfl := Option.some.inj (h.active.symm.trans hrun)
    obtain rfl := (hreport run.id).mp rfl
    have hid := h.own
    subst hid
    refine .ended ⟨hidle, hlaunched.trans h.launched, ?_, h.told_report hcode lines⟩
    rw [hsent, h.sent, List.append_assoc]
  | aside es hcancel' hreport' hsame hidle hsent hlaunched =>
    have hends : s.EndsWell id (moves ++ [m]) ↔ s.EndsWell id moves := by
      rw [endsWell_snoc, or_iff_left]
      rintro ⟨hact, _, hcode, _⟩
      rw [hreport' id ((hreport id).mpr hact)] at hcode
      cases hcode
    have hasked : s.Cancelled (moves ++ [m]) ↔ s.Cancelled moves := by
      rw [cancelled_snoc, or_iff_left]
      rintro ⟨hact, _⟩
      have hnone := hcancel' (hcancel.mpr hact)
      rw [h.active] at hnone
      cases hnone
    refine .atWork ⟨hsame.trans h.active, h.own, h.aim, h.cancelled.trans hasked.symm,
      hlaunched.trans h.launched, ?_, h.told.append_idle hends hidle, mt hends.mp h.unended⟩
    rw [hsent, h.sent, List.append_assoc]

theorem Ended.step (hs : (s.run moves).scene.Kept) (h : s.Ended id target moves mine) (m : Move) :
    s.Course id target (moves ++ [m]) := by
  have hends : s.EndsWell id (moves ++ [m]) ↔ s.EndsWell id moves := by
    apply endsWell_unreported
    rintro ⟨_, hcode⟩
    rw [reportable?_of_idle hs h.idle] at hcode
    cases hcode
  obtain ⟨m', hscene, _⟩ := (s.run moves).exists_scenic m
  have hturn := hs.turn m'
  rw [← hscene, ← run_snoc] at hturn
  cases hturn with
  | launched command _ hsent hlaunched =>
    have hmore : s.scene.launched.length < (s.run (moves ++ [m])).scene.launched.length := by
      rw [hlaunched, h.launched, List.length_append, List.length_singleton]
      exact Nat.lt_succ_self _
    rw [h.sent, List.append_assoc] at hsent
    exact .past ⟨hmore, hsent, rfl, h.told.congr hends⟩
  | doomed run hrun _ _ _ =>
    rw [h.idle] at hrun
    cases hrun
  | ended run _ _ hrun _ _ _ _ =>
    rw [h.idle] at hrun
    cases hrun
  | aside es _ _ hsame hidle hsent hlaunched =>
    refine .ended ⟨hsame.trans h.idle, hlaunched.trans h.launched, ?_,
      h.told.append_idle hends hidle⟩
    rw [hsent, h.sent, List.append_assoc]

/-- Runs that were started stay started, and events that were sent stay sent. -/
theorem grown {t : Scene} {m : Scene.Move} {t' : Scene} (h : Scene.Turn t m t') :
    t.launched.length ≤ t'.launched.length ∧
      ∃ es, t'.controller.sent = t.controller.sent ++ es := by
  cases h with
  | launched command _ hsent hlaunched =>
    rw [hlaunched, List.length_append]
    exact ⟨Nat.le_add_right _ _, _, hsent⟩
  | doomed _ _ _ hsent hlaunched =>
    rw [hlaunched]
    exact ⟨Nat.le_refl _, [], by rw [hsent, List.append_nil]⟩
  | ended _ _ _ _ _ _ hsent hlaunched =>
    rw [hlaunched]
    exact ⟨Nat.le_refl _, _, hsent⟩
  | aside es _ _ _ _ hsent hlaunched =>
    rw [hlaunched]
    exact ⟨Nat.le_refl _, es, hsent⟩

theorem Past.step {next : Event} {later : List Event} (hs : (s.run moves).scene.Kept)
    (h : s.Past id target moves mine next later) (m : Move) :
    s.Course id target (moves ++ [m]) := by
  have hends : s.EndsWell id (moves ++ [m]) ↔ s.EndsWell id moves := by
    apply endsWell_unreported
    rintro ⟨hlaunched, _⟩
    exact absurd (congrArg List.length hlaunched) (Nat.ne_of_gt h.launched)
  obtain ⟨m', hscene, _⟩ := (s.run moves).exists_scenic m
  have hturn := hs.turn m'
  rw [← hscene, ← run_snoc] at hturn
  obtain ⟨hmore, es, hsent⟩ := grown hturn
  rw [h.sent, List.append_assoc, List.append_assoc, List.cons_append] at hsent
  exact .past ⟨Nat.lt_of_lt_of_le h.launched hmore, hsent, h.next, h.told.congr hends⟩

theorem Course.step (hs : (s.run moves).scene.Kept) (h : s.Course id target moves) (m : Move) :
    s.Course id target (moves ++ [m]) := by
  cases h with
  | atWork h => exact h.step hs m
  | ended h => exact h.step hs m
  | past h => exact h.step hs m

/-- From its start on, a run takes its course. -/
theorem Course.run (hs : s.scene.Kept) (h : s.Course id target []) (moves : List Move) :
    s.Course id target moves := by
  induction moves using List.reverseRecOn with
  | nil => exact h
  | append_singleton moves m ih => exact ih.step (kept_run hs moves) m

theorem Told.opens_nothing (h : s.Told id target moves mine)
    (hnot : ¬ (target.isSome = true ∧ s.EndsWell id moves)) : Event.openedPaths mine = [] := by
  by_cases hwell : s.EndsWell id moves
  · have hnone : target = none := by
      rw [← Option.not_isSome_iff_eq_none]
      exact fun hsome => hnot ⟨hsome, hwell⟩
    rw [h.well hwell, hnone, Option.toList_none]
  · exact h.ill hwell

/-- What was sent since is told of the run first, and then of later ones. -/
theorem Course.exists_told (h : s.Course id target moves) :
    ∃ mine later,
      (s.run moves).scene.controller.sent = s.scene.controller.sent ++ (mine ++ later) ∧
      (∀ next ∈ later.head?, next.startedId?.isSome = true) ∧ s.Told id target moves mine := by
  cases h with
  | atWork h =>
    refine ⟨_, [], ?_, fun _ hnext => absurd hnext (Option.not_mem_none _), h.told⟩
    rw [h.sent, List.append_nil]
  | ended h =>
    refine ⟨_, [], ?_, fun _ hnext => absurd hnext (Option.not_mem_none _), h.told⟩
    rw [h.sent, List.append_nil]
  | past h =>
    refine ⟨_, _, h.sent, ?_, h.told⟩
    rintro _ ⟨⟩
    exact h.next

end Course

/-! ### From the start on -/

theorem openTarget_isSome {c : Configuration} :
    c.openTarget.isSome = true ↔ c.toggles.openWhenFinished = true ∧ c.output.isSome = true := by
  rw [Configuration.openTarget]
  split
  · exact ⟨fun houtput => ⟨‹_›, houtput⟩, fun h => h.2⟩
  · exact ⟨fun h => absurd h Bool.false_ne_true, fun h => absurd h.1 ‹_›⟩

theorem kept_of_first (moves : List Move) : (({} : Company).run moves).scene.Kept :=
  kept_run Scene.kept_first moves

section Start

variable {s : Company} {caller : Nat} {host : Host} {locator : Locator} {birth : Invocation.Birth}
  {launched : Controller.Launched}

/-- A start that succeeds puts the run to work, with the file to open as the form has it. -/
theorem course_of_start
    (hstart : s.scene.controller.start host locator (s.forms caller) birth = .ok launched) :
    let s₁ := s.step (.start caller host locator birth)
    s₁.scene.controller.sent = s.scene.controller.sent ++
        RunState.beginning (birth.run (s.forms caller)) launched.command.display ∧
      s₁.Course birth.id (s.forms caller).openTarget [] := by
  intro s₁
  obtain ⟨_, hlaunched⟩ := Controller.start_eq_ok hstart
  have hscene : s₁.scene.controller = launched.controller := by
    simp only [s₁, Company.step, Scene.step, hstart]
  refine ⟨by rw [hscene, hlaunched], ?_⟩
  have hactive : s₁.scene.controller.state.active = some (birth.run (s.forms caller)) := by
    rw [hscene, hlaunched]
  have htold : s₁.Told birth.id (s.forms caller).openTarget [] [] :=
    ⟨rfl, fun hwell => absurd hwell not_endsWell_nil, fun _ => rfl⟩
  have hasked : (birth.run (s.forms caller)).cancelRequested = true ↔ s₁.Cancelled [] :=
    ⟨fun h => absurd h Bool.false_ne_true, fun h => absurd h not_cancelled_nil⟩
  exact .atWork ⟨hactive, rfl, rfl, hasked, rfl, (List.append_nil _).symm, htold,
    not_endsWell_nil⟩

/-- The tool of a run is told of the output file in its second word, if there is one. -/
theorem outfile_of_start
    (hstart : s.scene.controller.start host locator (s.forms caller) birth = .ok launched) :
    (∃ rest, launched.command.arguments = Utf8.encode (Arguments.modeFlag (s.forms caller).mode) ::
        (((s.forms caller).output.map (Arguments.option "--outfile")).toList ++ rest)) ∧
      ∃ content, Arguments.Content.read? launched.command.arguments = some content ∧
        content.output = (s.forms caller).output := by
  obtain ⟨hcommand, _⟩ := Controller.command_of_start hstart
  obtain ⟨_, hbuild⟩ := Invocation.command_eq_ok.mp hcommand
  obtain ⟨input, shading, _, _, hwords⟩ := Arguments.build_eq_ok hbuild
  constructor
  · simp only [hwords, ← Arguments.words_eq_write, Arguments.words, List.append_assoc]
    exact ⟨_, rfl⟩
  · exact ⟨_, by rw [hwords, Arguments.Content.read?_write], rfl⟩

end Start

/-- **A run opens its output file once, if it ends well.**  After any moves a caller starts a run of
    the form that it holds, and any moves follow, among them changes of that form. The events since
    then are those of the run, and after these come only those of later runs. The events of the run
    open a file if the form of the start says so and names an output file, and the run ends well:
    then it is that file, byte for byte the one that the tool was told of, and it is opened once.
    Otherwise they open none. -/
theorem opened_once (before since : List Move) (caller : Nat) (host : Host) (locator : Locator)
    (birth : Invocation.Birth) (launched : Controller.Launched) :
    let s := ({} : Company).run before
    let form := s.forms caller
    let s₁ := s.step (.start caller host locator birth)
    s.scene.controller.start host locator form birth = .ok launched →
      ∃ own later,
        (s₁.run since).scene.controller.sent = s.scene.controller.sent ++ (own ++ later) ∧
        RunState.beginning (birth.run form) launched.command.display <+: own ∧
        Event.startedIds own = [birth.id] ∧
        (∀ next ∈ later.head?, next.startedId?.isSome = true) ∧
        (∀ path, form.toggles.openWhenFinished = true → form.output = some path →
          s₁.EndsWell birth.id since →
            Event.openedPaths own = [path] ∧
            launched.command.arguments[1]? = some (Arguments.option "--outfile" path) ∧
            ∃ content, Arguments.Content.read? launched.command.arguments = some content ∧
              content.output = some path) ∧
        (¬ (form.toggles.openWhenFinished = true ∧ form.output.isSome = true ∧
            s₁.EndsWell birth.id since) → Event.openedPaths own = []) := by
  intro s form s₁ hstart
  obtain ⟨hsent, hcourse⟩ := course_of_start hstart
  obtain ⟨⟨rest, harguments⟩, houtfile⟩ := outfile_of_start hstart
  have hkept : s₁.scene.Kept := by
    have hrun := kept_of_first (before ++ [.start caller host locator birth])
    rwa [run_snoc] at hrun
  obtain ⟨mine, later, hmine, hlater, htold⟩ := (hcourse.run hkept since).exists_told
  refine ⟨RunState.beginning (birth.run form) launched.command.display ++ mine, later, ?_,
    List.prefix_append _ _, ?_, hlater, ?_, ?_⟩
  · rw [hmine, hsent, List.append_assoc, List.append_assoc]
  · rw [Event.startedIds_append, RunState.startedIds_beginning, htold.started]
    rfl
  · intro path hopen houtput hwell
    have htarget : form.openTarget = some path := by
      rw [Configuration.openTarget, if_pos hopen, houtput]
    have hopened := htold.well hwell
    rw [htarget] at hopened
    refine ⟨?_, ?_, ?_⟩
    · rw [Event.openedPaths_append, hopened]
      rfl
    · rw [harguments, houtput]
      rfl
    · rw [← houtput]
      exact houtfile
  · intro hnot
    have hopened : Event.openedPaths mine = [] := by
      apply htold.opens_nothing
      rw [openTarget_isSome, and_assoc]
      exact hnot
    rw [Event.openedPaths_append, hopened]
    rfl

/-- The form is edited while the tool works, and the request to cancel comes too late. -/
theorem opened_once_form_changed :
    let birth : Invocation.Birth := ⟨⟨7⟩, none, .epoch⟩
    let form : Configuration :=
      { inputPath := some [0x6F]
        outputPath := some [0x70]
        toggles := Toggles.off.set .openWhenFinished true }
    let s := ({} : Company).run [.change 0 form]
    let since := [.change 0 {}, .act (.attend ⟨7⟩), .act (.exit ⟨7⟩ 0), .act (.report ⟨7⟩),
      .act .cancel]
    ∃ launched, s.scene.controller.start .obliging {} (s.forms 0) birth = .ok launched ∧
      ∃ own later, ((s.step (.start 0 .obliging {} birth)).run since).scene.controller.sent =
          [] ++ (own ++ later) ∧
        Event.openedPaths own = [[0x70]] ∧
        launched.command.arguments[1]? = some (Arguments.option "--outfile" [0x70]) := by
  intro birth form s since
  have hready : Invocation.Ready .obliging {} s.scene.controller.state (s.forms 0) :=
    ⟨rfl, ⟨[0x6F], [], rfl, rfl, rfl⟩, _, _, rfl, rfl, rfl⟩
  obtain ⟨launched, hstart⟩ := (Controller.exists_start_iff birth).mpr hready
  obtain ⟨own, later, hsent, _, _, _, hopened, _⟩ :=
    opened_once [.change 0 form] since 0 .obliging {} birth launched hstart
  have hwell : (s.step (.start 0 .obliging {} birth)).EndsWell birth.id since := by
    refine ⟨[.change 0 {}, .act (.attend ⟨7⟩), .act (.exit ⟨7⟩ 0)], [.act .cancel], rfl, rfl, rfl, ?_⟩
    rintro ⟨pre, post, hsplit, _⟩
    have hmem : Move.act .cancel ∈
        [Move.change 0 {}, .act (.attend ⟨7⟩), .act (.exit ⟨7⟩ 0)] := by
      rw [hsplit]
      exact List.mem_append_cons_self
    simp only [List.mem_cons, reduceCtorEq, Move.act.injEq, List.not_mem_nil, or_self] at hmem
  obtain ⟨hpaths, hargument, _⟩ := hopened [0x70] rfl rfl hwell
  exact ⟨launched, hstart, own, later, hsent, hpaths, hargument⟩

end Company

end Cuesheet
