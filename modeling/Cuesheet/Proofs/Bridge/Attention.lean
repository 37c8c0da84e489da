import Cuesheet.Proofs.Bridge.Course

/-!
# Who ends a service

A front end ends a service on purpose: with a shutdown, or by ending the input. Then an active run is
told to end, and the service waits for it. A line that makes no sense should end nothing; it should be
refused, and the next line be read.

That is what happens as long as the line is text. A line that is no text ends the reading, too, but
in another way: nothing is refused, no run is told to end, and nothing is waited for. `Ending` names
the two ways, and the first ending in a course decides. `Attentive` says of a course that the service
ends on purpose only, and that is so exactly if the first ending is not of the second kind.
-/

namespace Cuesheet.Service

open Utf8

/-! ### Lines -/

def isBlank (bytes : Bytes) : Bool := (decode? bytes).any Text.allBlank

/-- The operation that a line is, if it is one. -/
def operation? (bytes : Bytes) : Option Operation :=
  (decode? bytes).bind fun line =>
    if Text.allBlank line then none else (Wire.operation.readJson line).toOption

/-- A line that is neither blank nor an operation. -/
def Nonsense (bytes : Bytes) : Prop := isBlank bytes = false ∧ operation? bytes = none

/-- The two ways in which the reading of lines ends. -/
inductive Ending where
  /-- A shutdown, or the end of the input. -/
  | asked
  /-- A line that is no text. -/
  | noText
deriving DecidableEq, Repr

def Occurrence.ending? : Occurrence → Option Ending
  | .line bytes =>
    if IsText bytes then if operation? bytes = some .shutdown then some .asked else none
    else some .noText
  | .endOfInput => some .asked
  | .output _ _ _ => none
  | .exit _ _ => none

theorem ending?_eq_noText {o : Occurrence} :
    o.ending? = some .noText ↔ ∃ bytes, o = .line bytes ∧ ¬ IsText bytes := by
  cases o with
  | line bytes =>
    simp only [Occurrence.ending?, Occurrence.line.injEq, exists_eq_left']
    by_cases htext : IsText bytes
    · rw [if_pos htext]
      refine iff_of_false (fun h => ?_) (fun h => h htext)
      split at h <;> cases h
    · rw [if_neg htext]
      exact iff_of_true rfl htext
  | _ => simp only [Occurrence.ending?, Option.some.injEq, reduceCtorEq, false_and, exists_false]

theorem ending?_eq_asked {o : Occurrence} (ho : o.ending? = some .asked) :
    o = .endOfInput ∨ ∃ bytes, o = .line bytes ∧ operation? bytes = some .shutdown := by
  cases o with
  | line bytes =>
    simp only [Occurrence.ending?] at ho
    split at ho
    · split at ho
      · rename_i hop
        exact .inr ⟨bytes, rfl, hop⟩
      · cases ho
    · cases ho
  | endOfInput => exact .inl rfl
  | output id stream piece => cases ho
  | exit id code => cases ho

theorem nonsense_of_not_isText {bytes : Bytes} (htext : ¬ IsText bytes) : Nonsense bytes := by
  simp only [Nonsense, isBlank, operation?, decode?_eq_none htext, Option.any_none, Option.bind_none,
    and_self]

theorem operation?_encode {line : String} {d : Datum} {op : Operation}
    (hblank : Text.allBlank line = false) (hread : Json.read? line = some d)
    (hdecode : Wire.operation.decode ⟨.json, false⟩ d = some op) :
    operation? (encode line) = some op := by
  simp only [operation?, decode?_encode, Option.bind_some, hblank, Bool.false_eq_true, if_false,
    Codec.readJson, hread, hdecode, Except.toOption]

/-! Three lines as a front end may write them -/

def startLine : Bytes := encode "\x7b\"type\":\"start\"\x7d"

def shutdownLine : Bytes := encode "\x7b\"type\":\"shutdown\"\x7d"

/-- Sets a form with the input file `a` and nothing else. -/
def inputLine : Bytes :=
  encode ("\x7b\"type\":\"setConfiguration\",\"payload\":\x7b\"configuration\":"
    ++ "\x7b\"input_path\":\"a\"\x7d\x7d\x7d")

theorem operation?_startLine : operation? startLine = some .start :=
  operation?_encode (d := .record [("type", .text "start")]) (by cbv) (by cbv) rfl

theorem operation?_shutdownLine : operation? shutdownLine = some .shutdown :=
  operation?_encode (d := .record [("type", .text "shutdown")]) (by cbv) (by cbv) rfl

theorem operation?_inputLine :
    operation? inputLine = some (.setConfiguration { inputPath := some [0x61] }) :=
  operation?_encode (d := .record [("type", .text "setConfiguration"),
    ("payload", .record [("configuration", .record [("input_path", .text "a")])])])
    (by cbv) (by cbv) rfl

theorem flow_apply (b : Bridge) (around : Surroundings) (op : Operation) :
    (b.apply around op).flow = if op = .shutdown then .stops else .goesOn := by
  cases op <;> simp only [Bridge.apply, reduceCtorEq, if_false, if_true]
  all_goals split <;> rfl

theorem flow_take {b : Bridge} {around : Surroundings} {bytes : Bytes} {line : String}
    (hline : decode? bytes = some line) :
    (b.take around line).flow = if operation? bytes = some .shutdown then .stops else .goesOn := by
  simp only [Bridge.take, operation?, hline, Option.bind_some]
  by_cases hblank : Text.allBlank line = true
  · simp only [if_pos hblank, reduceCtorEq, if_false]
  rw [if_neg hblank, if_neg hblank]
  rcases hread : Wire.operation.readJson line with reason | op
  · simp only [Except.toOption, reduceCtorEq, if_false]
  · simp only [Except.toOption, Option.some.injEq, flow_apply]

section Lines

variable {s : Service} {around : Surroundings} {bytes : Bytes}

/-- **A line that is no text breaks a service off.** -/
theorem step_noText (hreading : s.stage = .reading) (htext : ¬ IsText bytes) :
    s.step around (.line bytes) = { service := { s with stage := .broken } } := by
  simp only [step, take, if_pos hreading, decode?_eq_none htext]

/-- **Other nonsense is refused**, and nothing else happens. -/
theorem step_nonsense (hreading : s.stage = .reading) (htext : IsText bytes)
    (hnonsense : Nonsense bytes) :
    ∃ complaint, s.step around (.line bytes) =
      { service := { s with bridge := s.bridge.reject (.malformed complaint) } } := by
  obtain ⟨line, hline⟩ := Option.isSome_iff_exists.mp htext
  obtain ⟨hblank, hop⟩ := hnonsense
  simp only [isBlank, hline, Option.any_some] at hblank
  simp only [operation?, hline, Option.bind_some, hblank, Bool.false_eq_true, if_false] at hop
  rcases hread : Wire.operation.readJson line with reason | op
  · refine ⟨around.complaint line, ?_⟩
    simp only [step, take, if_pos hreading, hline, Bridge.take, hblank, hread, Bool.false_eq_true,
      if_false, reduceCtorEq]
  · rw [hread] at hop; cases hop

/-- An operation other than a shutdown is carried out, and lines are still read. -/
theorem step_operation (hreading : s.stage = .reading) {op : Operation}
    (hop : operation? bytes = some op) (hgoesOn : op ≠ .shutdown) :
    s.step around (.line bytes) =
      { service := { s with bridge := (s.bridge.apply around op).bridge }
        launched := (s.bridge.apply around op).launched } := by
  obtain ⟨line, hline, hread⟩ := Option.bind_eq_some_iff.mp hop
  have hflow : (s.bridge.apply around op).flow = .goesOn := by rw [flow_apply, if_neg hgoesOn]
  split at hread
  · cases hread
  rename_i hblank
  rcases hop' : Wire.operation.readJson line with reason | op'
  · rw [hop'] at hread; cases hread
  rw [hop'] at hread
  obtain rfl := Option.some.inj hread
  simp only [step, take, if_pos hreading, hline, Bridge.take, if_neg hblank, hop', hflow,
    reduceCtorEq, if_false]

end Lines

/-! ### Stages -/

/-- The stages that come of an ending, or of none. -/
def Stage.Of : Option Ending → Stage → Prop
  | none, stage => stage = .reading
  | some .asked, stage => stage = .closing ∨ stage = .finished
  | some .noText, stage => stage = .broken

theorem Stage.Of.reading_iff {ending : Option Ending} {stage : Stage}
    (h : Stage.Of ending stage) : stage = .reading ↔ ending = none := by
  rcases ending with _ | _ | _
  · exact iff_of_true h rfl
  · rcases h with rfl | rfl <;> decide
  · cases h; decide

theorem Stage.Of.broken_iff {ending : Option Ending} {stage : Stage}
    (h : Stage.Of ending stage) : stage = .broken ↔ ending = some .noText := by
  rcases ending with _ | _ | _
  · cases h; decide
  · rcases h with rfl | rfl <;> decide
  · exact iff_of_true h rfl

theorem stage_close (s : Service) : Stage.Of (some .asked) s.close.stage := by
  rcases close_eq s with ⟨_, hclose⟩ | ⟨_, _, _, hclose⟩ <;> rw [hclose]
  · exact .inr rfl
  · exact .inl rfl

/-- What happens to tools ends no reading, and does not bring it back. -/
theorem stage_proceed {s : Service} {ending : Option Ending} (hs : Stage.Of ending s.stage)
    (k : Controller) : Stage.Of ending (if s.watches then s.proceed k else s).stage := by
  split
  · simp only [proceed]
    split
    · rename_i hdone
      rcases ending with _ | _ | _
      · cases hdone.1.symm.trans hs
      · exact .inr rfl
      · cases hdone.1.symm.trans hs
    · exact hs
  · exact hs

theorem stage_step_reading {s : Service} (hreading : s.stage = .reading) (around : Surroundings)
    (o : Occurrence) : Stage.Of o.ending? (s.step around o).service.stage := by
  have hnone : Stage.Of none s.stage := hreading
  cases o with
  | line bytes =>
    by_cases htext : IsText bytes
    · obtain ⟨line, hline⟩ := Option.isSome_iff_exists.mp htext
      simp only [Occurrence.ending?, if_pos htext, step, take, if_pos hreading, hline,
        flow_take hline]
      by_cases hop : operation? bytes = some .shutdown
      · simp only [if_pos hop, if_true]; exact stage_close _
      · simp only [if_neg hop, reduceCtorEq, if_false]; exact hreading
    · rw [Occurrence.ending?, if_neg htext, step_noText hreading htext]; rfl
  | endOfInput => simp only [step, if_pos hreading]; exact stage_close _
  | output id stream piece => exact stage_proceed hnone _
  | exit id code => exact stage_proceed hnone _

/-- Once it is decided, it stays so. -/
theorem stage_step_ended {s : Service} {ending : Ending} (hs : Stage.Of (some ending) s.stage)
    (around : Surroundings) (o : Occurrence) :
    Stage.Of (some ending) (s.step around o).service.stage := by
  have hended : s.stage ≠ .reading := fun hreading => nomatch hs.reading_iff.mp hreading
  cases o with
  | line bytes => simp only [step, take, if_neg hended]; exact hs
  | endOfInput => simp only [step, if_neg hended]; exact hs
  | output id stream piece => exact stage_proceed hs _
  | exit id code => exact stage_proceed hs _

def firstEnding (happenings : List Happening) : Option Ending :=
  happenings.findSome? fun h => h.2.ending?

theorem stage_after_ended {s : Service} {ending : Ending}
    (hs : Stage.Of (some ending) s.stage) (happenings : List Happening) :
    Stage.Of (some ending) (s.after happenings).stage := by
  induction happenings generalizing s with
  | nil => exact hs
  | cons h rest ih => exact ih (stage_step_ended hs h.1 h.2)

/-- **The first ending decides**, and without one lines are still read. -/
theorem stage_after {s : Service} (hreading : s.stage = .reading) (happenings : List Happening) :
    Stage.Of (firstEnding happenings) (s.after happenings).stage := by
  induction happenings generalizing s with
  | nil => exact hreading
  | cons h rest ih =>
    have hstep := stage_step_reading hreading h.1 h.2
    rcases hending : h.2.ending? with _ | ending
    · rw [hending] at hstep
      have hrest : firstEnding (h :: rest) = firstEnding rest :=
        List.findSome?_cons_of_isNone (by rw [hending]; rfl)
      rw [hrest]
      exact ih hstep
    · rw [hending] at hstep
      have hrest : firstEnding (h :: rest) = some ending := by
        rw [firstEnding, List.findSome?_cons, hending]
      rw [hrest]
      exact stage_after_ended hstep rest

theorem reading_iff {s : Service} (hreading : s.stage = .reading) (happenings : List Happening) :
    (s.after happenings).stage = .reading ↔ firstEnding happenings = none :=
  (stage_after hreading happenings).reading_iff

theorem broken_iff {s : Service} (hreading : s.stage = .reading) (happenings : List Happening) :
    (s.after happenings).stage = .broken ↔ firstEnding happenings = some .noText :=
  (stage_after hreading happenings).broken_iff

/-! ### Attention -/

/-- What a front end may count on while it sends lines. -/
structure Attentive (s : Service) (happenings : List Happening) : Prop where
  /-- Nonsense is refused once, nothing else changes, and lines are still read. -/
  refuses : ∀ earlier around bytes later, happenings = earlier ++ (around, .line bytes) :: later →
    (s.after earlier).stage = .reading → Nonsense bytes →
    ∃ complaint, (s.after earlier).step around (.line bytes) =
      { service := { s.after earlier with
          bridge := (s.after earlier).bridge.reject (.malformed complaint) } }
  /-- Nothing ends the reading but a shutdown or the end of the input. -/
  lasts : ∀ earlier h later, happenings = earlier ++ h :: later →
    (s.after earlier).stage = .reading → (s.after (earlier ++ [h])).stage ≠ .reading →
    h.2 = .endOfInput ∨ ∃ bytes, h.2 = .line bytes ∧ operation? bytes = some .shutdown

theorem attentive_of_firstEnding {s : Service} (hreading : s.stage = .reading)
    {happenings : List Happening} (hfirst : firstEnding happenings ≠ some .noText) :
    Attentive s happenings := by
  -- up to the last line that is read, nothing has ended the reading
  have hnext : ∀ {earlier h later}, happenings = earlier ++ h :: later →
      (s.after earlier).stage = .reading → h.2.ending? ≠ some .noText := by
    intro earlier h later hsplit hread hnoText
    refine hfirst ?_
    have hbefore := (reading_iff hreading earlier).mp hread
    rw [firstEnding] at hbefore
    rw [hsplit, firstEnding, List.findSome?_append, hbefore, Option.none_or, List.findSome?_cons,
      hnoText]
  constructor
  · intro earlier around bytes later hsplit hread hnonsense
    have htext : IsText bytes := Decidable.byContradiction fun htext =>
      hnext hsplit hread (ending?_eq_noText.mpr ⟨bytes, rfl, htext⟩)
    exact step_nonsense hread htext hnonsense
  · intro earlier h later hsplit hread hstops
    have hstage := stage_step_reading hread h.1 h.2
    rw [after_snoc] at hstops
    rcases hending : h.2.ending? with _ | _ | _
    · rw [hending] at hstage; exact absurd hstage hstops
    · exact ending?_eq_asked hending
    · exact absurd hending (hnext hsplit hread)

theorem not_attentive_of_firstEnding {s : Service} (hreading : s.stage = .reading)
    {happenings : List Happening} (hfirst : firstEnding happenings = some .noText) :
    ¬ Attentive s happenings := by
  intro hattentive
  obtain ⟨earlier, ⟨around, o⟩, later, hsplit, hnoText, hbefore⟩ :=
    List.findSome?_eq_some_iff.mp hfirst
  obtain ⟨bytes, rfl, htext⟩ := ending?_eq_noText.mp hnoText
  have hread : (s.after earlier).stage = .reading :=
    (reading_iff hreading earlier).mpr (List.findSome?_eq_none_iff.mpr hbefore)
  obtain ⟨complaint, hrefused⟩ :=
    hattentive.refuses earlier around bytes later hsplit hread (nonsense_of_not_isText htext)
  rw [step_noText hread htext] at hrefused
  have hstage : Stage.broken = (s.after earlier).stage :=
    congrArg (fun step : Step => step.service.stage) hrefused
  cases hstage.trans hread

theorem attentive_iff_firstEnding {s : Service} (hreading : s.stage = .reading)
    (happenings : List Happening) : Attentive s happenings ↔ firstEnding happenings ≠ some .noText :=
  ⟨fun hattentive hfirst => not_attentive_of_firstEnding hreading hfirst hattentive,
    attentive_of_firstEnding hreading⟩

end Cuesheet.Service
