import Cuesheet.Proofs.Run.History

/-!
# The order of events

The events of a history come in blocks, one for each run that was begun, in the order of the runs.
A block opens with the start of its run and the status *in progress*. Once the run has ended, the
block goes on with the status of its outcome, the file to open if there is one, and the end of the
run; an acknowledgement adds the status *idle*. Nothing stands between two blocks, and only the last
block can lack its second part.

The proof follows three stages of a state (`Block.Stage`): nothing to report, a run at work, and the
result of a run on display. In the first all blocks are complete, in the second the last one is open,
and in the third the last one lacks its acknowledgement: that is the only place where the event of an
acknowledgement can go. Refused moves change neither the state nor the blocks.
-/

namespace Cuesheet.RunState

structure Ending where
  outcome : RunOutcome
  /-- Whether the result was acknowledged before the next run began. -/
  acknowledged : Bool
deriving DecidableEq, Repr

/-- A run as it shows in the events. -/
structure Block where
  opening : Opening
  ending : Option Ending
deriving DecidableEq, Repr

namespace Block

def endingEvents (o : Opening) (e : Ending) : List Event :=
  [.statusChanged e.outcome.status e.outcome.status.message]
    ++ (if e.outcome = .succeeded then o.openTarget.toList.map Event.openFile else [])
    ++ [.runFinished o.id e.outcome]
    ++ (if e.acknowledged then [.statusChanged .idle RunStatus.idle.message] else [])

def events (b : Block) : List Event :=
  [.runStarted b.opening.id b.opening.pid b.opening.command b.opening.startedAt,
   .statusChanged .inProgress RunStatus.inProgress.message]
    ++ (b.ending.map (endingEvents b.opening)).getD []

theorem events_open (o : Opening) : events ⟨o, none⟩ = beginning o.run o.command := by
  simp only [events, Option.map_none, Option.getD_none, List.append_nil]
  rfl

/-- A run that ends turns an open block into one that is not acknowledged. -/
theorem events_ended (o : Opening) (run : ActiveRun) (outcome : RunOutcome)
    (hid : run.id = o.id) (htarget : run.openTarget = o.openTarget) :
    events ⟨o, some ⟨outcome, false⟩⟩ = events ⟨o, none⟩ ++ RunState.ending run outcome := by
  simp only [events, endingEvents, RunState.ending, announcement, hid, htarget, Option.map_some,
    Option.map_none, Option.getD_some, Option.getD_none, Bool.false_eq_true, if_false,
    List.append_nil, List.cons_append, List.nil_append]

theorem events_acknowledged (o : Opening) (outcome : RunOutcome) :
    events ⟨o, some ⟨outcome, true⟩⟩ =
      events ⟨o, some ⟨outcome, false⟩⟩ ++ [announcement .idle] := by
  simp only [events, endingEvents, announcement, Option.map_some, Option.getD_some, if_true,
    Bool.false_eq_true, if_false, List.append_nil, List.append_assoc, List.cons_append,
    List.nil_append]

theorem message_of_mem_events {b : Block} {status : RunStatus} {message : String}
    (hmem : Event.statusChanged status message ∈ b.events) : message = status.message := by
  obtain ⟨o, _ | e⟩ := b
  · simp only [events, Option.map_none, Option.getD_none, List.append_nil, List.mem_cons,
      reduceCtorEq, false_or, List.not_mem_nil, or_false, Event.statusChanged.injEq] at hmem
    obtain ⟨rfl, rfl⟩ := hmem
    rfl
  · simp only [events, endingEvents, Option.map_some, Option.getD_some, List.mem_append,
      List.mem_cons, reduceCtorEq, false_or, List.not_mem_nil, or_false,
      Event.statusChanged.injEq] at hmem
    rcases hmem with ⟨rfl, rfl⟩ | (⟨rfl, rfl⟩ | hopen) | hidle
    · rfl
    · rfl
    · split at hopen
      · simp at hopen
      · cases hopen
    · split at hidle
      · simp only [List.mem_singleton, Event.statusChanged.injEq] at hidle
        obtain ⟨rfl, rfl⟩ := hidle
        rfl
      · cases hidle

/-! ### The blocks of a state -/

/-- How the last block stands to the state. All blocks before it are complete. -/
inductive Stage (before : List Block) : List Block → RunState → Prop where
  | quiet {s : RunState} (hidle : s.active = none) (hstatus : s.status = .idle) :
      Stage before before s
  | atWork {s : RunState} (o : Opening) (run : ActiveRun) (hrun : s.active = some run)
      (hstatus : s.status = .inProgress) (hid : run.id = o.id)
      (htarget : run.openTarget = o.openTarget) :
      Stage before (before ++ [⟨o, none⟩]) s
  /-- The result of a run is on display. -/
  | onDisplay {s : RunState} (o : Opening) (outcome : RunOutcome) (hidle : s.active = none)
      (hstatus : s.status = outcome.status) :
      Stage before (before ++ [⟨o, some ⟨outcome, false⟩⟩]) s

/-- The blocks account for the moves and for the events of a history. -/
structure Account (moves : List Move) (h : History) (before blocks : List Block) : Prop where
  sent : h.sent = blocks.flatMap events
  begun : blocks.map opening = openings moves
  complete : ∀ b ∈ before, b.ending.isSome = true
  stage : Stage before blocks h.state

theorem Stage.complete {before blocks : List Block} {s : RunState} (hs : Stage before blocks s)
    (hbefore : ∀ b ∈ before, b.ending.isSome = true) (hidle : s.active = none) :
    ∀ b ∈ blocks, b.ending.isSome = true := by
  cases hs with
  | quiet _ _ => exact hbefore
  | atWork _ _ hrun _ _ _ => rw [hrun] at hidle; cases hidle
  | onDisplay _ _ _ _ =>
    intro b hb
    rcases List.mem_append.mp hb with h | h
    · exact hbefore b h
    · obtain rfl := List.mem_singleton.mp h
      rfl

theorem map_opening_snoc (before : List Block) (o : Opening) (e : Option Ending) :
    (before ++ [Block.mk o e]).map opening = before.map opening ++ [o] := by
  rw [List.map_append]; rfl

section Steps

variable {moves : List Move} {h : History} {before blocks : List Block}

theorem Account.begin (ha : Account moves h before blocks) (o : Opening)
    (hidle : h.state.active = none) :
    Account (moves ++ [.begin o])
      { state := { status := .inProgress, active := some o.run, lastRun := some o.id }
        sent := h.sent ++ beginning o.run o.command }
      blocks (blocks ++ [⟨o, none⟩]) where
  sent := by
    rw [List.flatMap_append, ← ha.sent, List.flatMap_singleton, events_open]
  begun := by
    rw [map_opening_snoc, ha.begun, openings_append]; rfl
  complete := ha.stage.complete ha.complete hidle
  stage := .atWork o o.run rfl rfl rfl rfl

/-- The end of the active run goes into the open block. -/
theorem Account.finish (ha : Account moves h before blocks) (run : ActiveRun) (code : Int32)
    (hrun : h.state.active = some run) :
    ∃ blocks', Account (moves ++ [.finish run.id code])
      { state := { h.state with status := (ActiveRun.outcome run code).status, active := none }
        sent := h.sent ++ RunState.ending run (ActiveRun.outcome run code) } before blocks' := by
  obtain ⟨hsent, hbegun, hcomplete, hstage⟩ := ha
  cases hstage with
  | quiet hidle _ => rw [hrun] at hidle; cases hidle
  | onDisplay _ _ hidle _ => rw [hrun] at hidle; cases hidle
  | atWork o run' hrun' _ hid htarget =>
    rw [hrun] at hrun'
    obtain rfl := Option.some.inj hrun'
    refine ⟨before ++ [⟨o, some ⟨ActiveRun.outcome run code, false⟩⟩], ?_, ?_, hcomplete,
      .onDisplay o _ rfl rfl⟩
    · simp only [hsent, List.flatMap_append, List.flatMap_singleton, List.append_assoc,
        events_ended o run _ hid htarget]
    · rw [openings_snoc _ rfl, ← hbegun, map_opening_snoc, map_opening_snoc]

/-- An acknowledgement completes the block of the result on display. -/
theorem Account.acknowledge (ha : Account moves h before blocks)
    (hdone : h.state.status.isTerminal = true) (hidle : h.state.active = none) :
    ∃ blocks', Account (moves ++ [.acknowledge])
      { state := { h.state with status := .idle }, sent := h.sent ++ [announcement .idle] }
      blocks' blocks' := by
  obtain ⟨hsent, hbegun, hcomplete, hstage⟩ := ha
  cases hstage with
  | quiet _ hstatus => rw [hstatus] at hdone; cases hdone
  | atWork _ _ hrun _ _ _ => rw [hrun] at hidle; cases hidle
  | onDisplay o outcome _ hstatus =>
    refine ⟨before ++ [⟨o, some ⟨outcome, true⟩⟩], ?_, ?_, ?_, .quiet hidle rfl⟩
    · simp only [hsent, List.flatMap_append, List.flatMap_singleton, List.append_assoc,
        events_acknowledged]
    · rw [openings_snoc _ rfl, ← hbegun, map_opening_snoc, map_opening_snoc]
    · intro b hb
      rcases List.mem_append.mp hb with h | h
      · exact hcomplete b h
      · obtain rfl := List.mem_singleton.mp h
        rfl

/-- A move that sends nothing, and leaves identifier and file of the active run
    alone, leaves the blocks alone. -/
theorem Account.silent (ha : Account moves h before blocks) {m : Move} (hm : m.opening? = none)
    (run run' : ActiveRun) (hrun : h.state.active = some run) (hid : run'.id = run.id)
    (htarget : run'.openTarget = run.openTarget) :
    Account (moves ++ [m]) { h with state := { h.state with active := some run' } }
      before blocks := by
  obtain ⟨hsent, hbegun, hcomplete, hstage⟩ := ha
  refine ⟨hsent, by rw [openings_snoc _ hm, hbegun], hcomplete, ?_⟩
  cases hstage with
  | quiet hidle _ => rw [hrun] at hidle; cases hidle
  | onDisplay _ _ hidle _ => rw [hrun] at hidle; cases hidle
  | atWork o run₀ hrun₀ hstatus hid₀ htarget₀ =>
    rw [hrun] at hrun₀
    obtain rfl := Option.some.inj hrun₀
    exact .atWork o run' rfl hstatus (hid.trans hid₀) (htarget.trans htarget₀)

theorem account_change (ha : Account moves h before blocks) {m : Move} {h' : History}
    (hc : History.Change h m h') :
    ∃ before' blocks', Account (moves ++ [m]) h' before' blocks' := by
  cases hc with
  | begun o hidle => exact ⟨_, _, ha.begin o hidle⟩
  | doomed run hrun => exact ⟨_, _, ha.silent rfl run _ hrun rfl rfl⟩
  | finished run code hrun =>
    obtain ⟨blocks', ha'⟩ := ha.finish run code hrun
    exact ⟨_, _, ha'⟩
  | acknowledged hdone hidle =>
    obtain ⟨blocks', ha'⟩ := ha.acknowledge hdone hidle
    exact ⟨_, _, ha'⟩
  | deserted run hrun => exact ⟨_, _, ha.silent rfl run _ hrun rfl rfl⟩
  | kept hm =>
    exact ⟨_, _, ha.sent, by rw [openings_snoc _ hm, ha.begun], ha.complete, ha.stage⟩

end Steps

theorem account_of_after {moves : List Move} {h : History} (hh : History.after? moves = some h) :
    ∃ before blocks, Account moves h before blocks := by
  refine History.after_induction (P := fun ms h => ∃ before blocks, Account ms h before blocks)
    ?_ ?_ hh
  · exact ⟨[], [], rfl, rfl, (by intro b hb; cases hb), .quiet rfl rfl⟩
  · rintro ms h m h' ⟨before, blocks, ha⟩ hm
    exact account_change ha (History.change_of_move hm)

/-- Only the last block can be open, and it is open exactly while a run is active. -/
theorem Stage.open_last {before blocks : List Block} {s : RunState}
    (hs : Stage before blocks s) (hbefore : ∀ b ∈ before, b.ending.isSome = true) :
    (∀ b ∈ blocks.dropLast, b.ending.isSome = true) ∧
      (s.isRunning = true ↔ ∃ o, blocks.getLast? = some ⟨o, none⟩) := by
  cases hs with
  | quiet hidle _ =>
    refine ⟨fun b hb => hbefore b (List.dropLast_subset _ hb), ?_⟩
    rw [isRunning_eq_true, hidle]
    constructor
    · rintro ⟨run, hrun⟩; cases hrun
    · rintro ⟨o, ho⟩
      have hb := hbefore _ (List.mem_of_getLast? ho)
      cases hb
  | atWork o run hrun _ _ _ =>
    rw [List.dropLast_concat, List.getLast?_concat]
    exact ⟨hbefore, fun _ => ⟨o, rfl⟩, fun _ => isRunning_eq_true.mpr ⟨run, hrun⟩⟩
  | onDisplay o outcome hidle _ =>
    rw [List.dropLast_concat, List.getLast?_concat, isRunning_eq_true, hidle]
    refine ⟨hbefore, ?_, ?_⟩
    · rintro ⟨run, hrun⟩; cases hrun
    · rintro ⟨o', ho⟩; cases ho

/-- **The language of events.**  The events of a history are a concatenation of
    blocks, one for each run in the order in which the runs were begun. All blocks
    but the last are complete, the last one is open exactly while a run is active,
    and every status is told by its own words. -/
theorem sent_eq_blocks (moves : List Move) (h : History) (hh : History.after? moves = some h) :
    ∃ blocks : List Block,
      h.sent = blocks.flatMap events ∧
      blocks.map opening = openings moves ∧
      (∀ b ∈ blocks.dropLast, b.ending.isSome = true) ∧
      (h.state.isRunning = true ↔ ∃ o, blocks.getLast? = some ⟨o, none⟩) ∧
      (∀ status message, Event.statusChanged status message ∈ h.sent →
        message = status.message) := by
  obtain ⟨before, blocks, ha⟩ := account_of_after hh
  obtain ⟨hcomplete, hopen⟩ := ha.stage.open_last ha.complete
  refine ⟨blocks, ha.sent, ha.begun, hcomplete, hopen, ?_⟩
  intro status message hmem
  rw [ha.sent] at hmem
  obtain ⟨b, _, hb⟩ := List.mem_flatMap.mp hmem
  exact message_of_mem_events hb

/-- Two runs: the first is cancelled and acknowledged, and the second, of the same
    identifier, is still active after the end of a third was reported. -/
theorem sent_eq_blocks_restart :
    let first : Opening := ⟨⟨7⟩, some 42, .epoch, some [0x6F], ["tool"]⟩
    let second : Opening := ⟨⟨7⟩, none, .epoch, none, []⟩
    let moves : List Move :=
      [.begin first, .cancel, .cancel, .finish ⟨7⟩ 0, .acknowledge, .acknowledge, .begin second,
       .finish ⟨8⟩ 0]
    ∃ h, History.after? moves = some h ∧ h.state.isRunning = true ∧ ∃ blocks : List Block,
      h.sent = blocks.flatMap events ∧
      blocks.map opening = openings moves ∧
      (∀ b ∈ blocks.dropLast, b.ending.isSome = true) ∧
      (h.state.isRunning = true ↔ ∃ o, blocks.getLast? = some ⟨o, none⟩) ∧
      (∀ status message, Event.statusChanged status message ∈ h.sent →
        message = status.message) := by
  intro first second moves
  exact ⟨_, rfl, rfl, sent_eq_blocks moves _ rfl⟩

end Block

end Cuesheet.RunState
