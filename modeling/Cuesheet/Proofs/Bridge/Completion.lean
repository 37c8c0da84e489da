import Cuesheet.Proofs.Bridge.Shutdown

/-!
# Whether anything is left undone

When serving is over, every run that was started should be finished, and everything that was sent should be
written. After a shutdown or the end of the input that is so, since the main task waits for both. After a line
that is no text it waits for neither: it is gone at once. A run that is active then is never finished, and what is
in the channel is never written.

So the first ending, which decides whether nonsense is refused to the end, decides this as well.
-/

namespace Cuesheet.Tasks

open Utf8
open Service (inputLine startLine operation?_inputLine operation?_startLine)

variable {t : Tasks}

/-! ### Endings of the reading -/

def Move.ending? : Move → Option Service.Ending
  | .line _ bytes => (Service.Occurrence.line bytes).ending?
  | .endOfInput => some .asked
  | _ => none

def firstEnding (moves : List Move) : Option Service.Ending := moves.findSome? Move.ending?

theorem ending?_of_no_input {m : Move} (hm : m.isInput = false) : m.ending? = none := by
  cases m with
  | line => cases hm
  | endOfInput => cases hm
  | _ => rfl

theorem stage_eq_reading_iff : t.service.stage = .reading ↔ t.phase = .reading := by
  simp only [service, stage]
  cases t.phase <;> cases t.isRunning <;> decide

theorem stage_eq_broken_iff : t.service.stage = .broken ↔ t.phase = .broken := by
  simp only [service, stage]
  cases t.phase <;> cases t.isRunning <;> decide

theorem stage_step_reading (hreading : t.phase = .reading) (m : Move) :
    Service.Stage.Of m.ending? (t.step m).service.stage := by
  have hstage := stage_eq_reading_iff.mpr hreading
  rcases hm : m.isInput with _ | _
  · rw [ending?_of_no_input hm]
    exact stage_eq_reading_iff.mpr (reading_step_of_no_input hreading hm)
  cases m with
  | line around bytes =>
    rw [step, if_pos hreading, service_take hreading]
    exact Service.stage_step_reading hstage around (.line bytes)
  | endOfInput =>
    rw [step, if_pos hreading, service_closeReading hreading]
    exact Service.stage_step_reading hstage nowhere .endOfInput
  | _ => cases hm

theorem stage_after_ended (ht : t.Kept) {ending : Service.Ending}
    (hs : Service.Stage.Of (some ending) t.service.stage) (moves : List Move) :
    Service.Stage.Of (some ending) (t.after moves).service.stage := by
  induction moves generalizing t with
  | nil => exact hs
  | cons m moves ih =>
    refine ih (ht.step m) ?_
    rcases service_step ht.sound m with hsame | ⟨h, hstep⟩
    · rw [hsame]
      exact hs
    · rw [hstep]
      exact Service.stage_step_ended hs h.1 h.2

/-- **The first ending decides**, in whatever order the tasks get their turns. -/
theorem stage_after (ht : t.Kept) (hreading : t.phase = .reading) (moves : List Move) :
    Service.Stage.Of (firstEnding moves) (t.after moves).service.stage := by
  induction moves generalizing t with
  | nil => exact stage_eq_reading_iff.mpr hreading
  | cons m moves ih =>
    have hstep := stage_step_reading hreading m
    rcases hending : m.ending? with _ | ending
    · have hrest : firstEnding (m :: moves) = firstEnding moves :=
        List.findSome?_cons_of_isNone (by rw [hending]; rfl)
      rw [hending] at hstep
      rw [hrest]
      exact ih (ht.step m) (stage_eq_reading_iff.mp hstep)
    · have hrest : firstEnding (m :: moves) = some ending := by
        rw [firstEnding, List.findSome?_cons, hending]
      rw [hending] at hstep
      rw [hrest]
      exact stage_after_ended (ht.step m) hstep moves

theorem step_noText (hreading : t.phase = .reading) (around : Surroundings) {bytes : Bytes}
    (htext : ¬ IsText bytes) : t.step (.line around bytes) = { t with phase := .broken } := by
  simp only [step, if_pos hreading, take, decode?_eq_none htext]

theorem broken_iff (ht : t.Kept) (hreading : t.phase = .reading) (moves : List Move) :
    (t.after moves).phase = .broken ↔ firstEnding moves = some .noText :=
  stage_eq_broken_iff.symm.trans (stage_after ht hreading moves).broken_iff

/-! ### What is left -/

/-- When serving is over, every run that was started is finished, and everything that was sent is written. -/
def Settled (t : Tasks) : Prop :=
  t.isOver = true →
    Event.EachFinished t.sent ∧ t.sent.map Wire.event.writeJson? = t.writer.lines.map some

/-- Patience, and lines that are text up to the ending, leave one way to the end: the writer stops. -/
theorem stopped_of_over {b : CommandLine.Base} (hb : (first b).Kept) {moves : List Move}
    (hpatient : .abandon ∉ moves) (htext : firstEnding moves ≠ some .noText)
    (hover : ((first b).after moves).isOver = true) : ((first b).after moves).writer.stopped = true := by
  have hwhole : ((first b).after moves).phase ≠ .broken := fun hbroken =>
    htext ((broken_iff hb rfl moves).mp hbroken)
  have hreturned : ((first b).after moves).phase = .returned := by
    simpa only [isOver, Bool.or_eq_true, decide_eq_true_eq, hwhole, or_false] using hover
  exact (waited_first b).after hb hpatient hreturned

theorem Kept.settled_of_stopped (ht : t.Kept) (hstopped : t.isOver = true → t.writer.stopped = true) :
    t.Settled := by
  intro hover
  have hstopped := hstopped hover
  exact ⟨ht.eachFinished_iff.mpr (ht.isRunning_of_stopped hstopped), ht.delivered hstopped⟩

/-- All is written exactly if nothing is left in the channel. -/
theorem Kept.delivered_iff (ht : t.Kept) :
    t.sent.map Wire.event.writeJson? = t.writer.lines.map some ↔ t.queue = [] := by
  have hlines := ht.lines
  rw [queue, List.drop_eq_nil_iff]
  constructor
  · intro hall
    have htaken := congrArg List.length hlines
    have hsent := congrArg List.length hall
    simp only [List.length_map, List.length_take] at htaken hsent
    omega
  · intro hlength
    rwa [List.take_of_length_le hlength] at hlines

theorem isOver_of_broken (hbroken : t.phase = .broken) : t.isOver = true := by
  rw [isOver, hbroken]
  decide

theorem Kept.settled_iff_of_broken (ht : t.Kept) (hbroken : t.phase = .broken) :
    t.Settled ↔ t.isRunning = false ∧ t.queue = [] := by
  rw [← ht.eachFinished_iff, ← ht.delivered_iff]
  exact ⟨fun hsettled => hsettled (isOver_of_broken hbroken), fun hboth _ => hboth⟩

/-- **When a service is ended on purpose only.**  Whatever the settings, and whatever happens in which order:
    nonsense is refused and only a shutdown or the end of the input ends the reading, exactly if no line that
    is no text is read before that. Then, if the main task does not lose patience with the writer, every run
    that was started is finished and everything that was sent is written when serving is over. If such a line
    is read before, serving is over at once, and that is so exactly if no run was active and the writer had
    left nothing in the channel. -/
theorem attentive_and_settled_iff {host : Host} {l : CommandLine} {b : CommandLine.Base}
    (hb : CommandLine.base host l = .ok b) :
    (∀ happenings, Service.Attentive (CommandLine.service b) happenings ↔
        Service.firstEnding happenings ≠ some .noText) ∧
      ∀ moves, .abandon ∉ moves →
        let t := (first b).after moves
        (firstEnding moves ≠ some .noText → t.Settled) ∧
          (firstEnding moves = some .noText →
            t.isOver = true ∧ (t.Settled ↔ t.isRunning = false ∧ t.queue = [])) := by
  refine ⟨Service.attentive_iff_firstEnding rfl, fun moves hpatient => ?_⟩
  intro t
  have ht : t.Kept := (kept_first hb).after moves
  constructor
  · intro htext
    exact ht.settled_of_stopped (stopped_of_over (kept_first hb) hpatient htext)
  · intro hnoText
    have hphase : t.phase = .broken := (broken_iff (kept_first hb) rfl moves).mpr hnoText
    exact ⟨isOver_of_broken hphase, ht.settled_iff_of_broken hphase⟩

theorem not_isText_stray : ¬ IsText [0xFF] := by
  have hnone : decode? [0xFF] = none := by cbv
  rw [IsText, hnone]
  decide

/-- Nonsense is refused, and what comes after the end of the input does not matter. A service that has done nothing
    yet may even be broken off. -/
theorem attentive_until_end :
    let b : CommandLine.Base := { locator := {}, defaults := {} }
    let around : Surroundings := ⟨.obliging, ⟨⟨7⟩, none, .epoch⟩, id⟩
    let happenings : List Service.Happening :=
      [(around, .line (encode "begin")), (around, .endOfInput), (around, .line [0xFF])]
    let ended := (first b).after [.endOfInput, .line around [0xFF], .stop, .join]
    let broken := (first b).after [.line around [0xFF], .endOfInput]
    CommandLine.base .obliging ⟨[], none, .serve⟩ = .ok b ∧
      Service.Attentive (CommandLine.service b) happenings ∧
      (ended.phase = .returned ∧ ended.Settled) ∧ broken.phase = .broken ∧ broken.Settled := by
  intro b around happenings ended broken
  have hbase : CommandLine.base .obliging ⟨[], none, .serve⟩ = .ok b := rfl
  have hiff := attentive_and_settled_iff hbase
  have hasked : Service.firstEnding happenings = some .asked := by cbv
  have hended : firstEnding [.endOfInput, .line around [0xFF], .stop, .join] = some .asked := rfl
  have hstray : firstEnding [.line around [0xFF], .endOfInput] = some .noText := by cbv
  have hbroken : broken = { first b with phase := .broken } := by
    simp only [broken, after_cons, step_noText (t := first b) rfl around not_isText_stray]
    rfl
  have hidle : broken.isRunning = false ∧ broken.queue = [] := by
    rw [hbroken]
    exact ⟨rfl, rfl⟩
  have hpatient : Move.abandon ∉ [.endOfInput, .line around [0xFF], .stop, .join] := by
    simp only [List.mem_cons, reduceCtorEq, List.not_mem_nil, or_self, not_false_eq_true]
  have hpatient' : Move.abandon ∉ [.line around [0xFF], .endOfInput] := by
    simp only [List.mem_cons, reduceCtorEq, List.not_mem_nil, or_self, not_false_eq_true]
  refine ⟨hbase, (hiff.1 happenings).mpr (by rw [hasked]; decide),
    ⟨rfl, (hiff.2 _ hpatient).1 (by rw [hended]; decide)⟩, ?_, ?_⟩
  · rw [hbroken]
  · exact ((hiff.2 _ hpatient').2 hstray).2.mpr hidle

/-- A form is set and a run is started, its beginning is written, and then one byte comes that is no text: serving
    is over, and the run is neither told to end nor finished. -/
theorem not_attentive_of_stray_byte :
    let b : CommandLine.Base := { locator := {}, defaults := {} }
    let around : Surroundings := ⟨.obliging, ⟨⟨7⟩, none, .epoch⟩, id⟩
    let happenings : List Service.Happening :=
      [(around, .line inputLine), (around, .line startLine), (around, .line [0xFF])]
    let t := (first b).after
      [.line around inputLine, .line around startLine, .write, .write, .line around [0xFF]]
    CommandLine.base .obliging ⟨[], none, .serve⟩ = .ok b ∧
      (t.isOver = true ∧ t.service.exitCode? = some 1 ∧ t.isRunning = true ∧ t.queue = []) ∧
      (Event.startedIds t.sent = [⟨7⟩] ∧ Event.finishedIds t.sent = []) ∧
      ¬ Service.Attentive (CommandLine.service b) happenings ∧ ¬ t.Settled := by
  intro b around happenings t
  have hbase : CommandLine.base .obliging ⟨[], none, .serve⟩ = .ok b := rfl
  let set := (first b).bridge.apply around (.setConfiguration { inputPath := some [0x61] })
  let started := set.bridge.apply around .start
  let begun : Tasks := { bridge := started.bridge, launched := started.launched.toList }
  have hbegun : (first b).after [.line around inputLine, .line around startLine] = begun := by
    simp only [after_cons]
    rw [step_goesOn rfl around operation?_inputLine (by decide),
      step_goesOn rfl around operation?_startLine (by decide)]
    rfl
  have hkept : begun.Kept := hbegun ▸ (kept_first hbase).after _
  obtain ⟨one, hone⟩ := hkept.step_write rfl rfl
    (show begun.queue = begun.sent[0] :: [begun.sent[1]] from rfl)
  have hkept' := hkept.step .write
  rw [hone] at hkept'
  obtain ⟨two, htwo⟩ := hkept'.step_write rfl rfl
    (show begun.queue.drop 1 = begun.sent[1] :: [] from rfl)
  have ht : t = { begun with
      phase := .broken, writer := { taken := 2, lines := [one, two] } } := by
    have hsplit : t = (((((first b).after [.line around inputLine, .line around startLine]).step .write).step
        .write).step (.line around [0xFF])) := rfl
    rw [hsplit, hbegun, hone, htwo, step_noText rfl around not_isText_stray]
    rfl
  have hrunning : t.isRunning = true := by
    rw [ht]
    rfl
  have hnoText : Service.firstEnding happenings = some .noText := by
    have htext : IsText inputLine ∧ IsText startLine := ⟨isText_encode _, isText_encode _⟩
    simp only [happenings, Service.firstEnding, List.findSome?_cons, Service.Occurrence.ending?, htext.1,
      htext.2, if_true, operation?_inputLine, operation?_startLine, Option.some.injEq, reduceCtorEq,
      if_false, if_neg not_isText_stray]
  refine ⟨hbase, ⟨by rw [ht]; rfl, by rw [ht]; rfl, hrunning, by rw [ht]; rfl⟩,
    ⟨by rw [ht]; rfl, by rw [ht]; rfl⟩,
    Service.not_attentive_of_firstEnding rfl hnoText, fun hsettled => ?_⟩
  have hall : t.Kept := (kept_first hbase).after _
  have hidle := ((hall.settled_iff_of_broken (by rw [ht])).mp hsettled).1
  rw [hrunning] at hidle
  cases hidle

end Cuesheet.Tasks
