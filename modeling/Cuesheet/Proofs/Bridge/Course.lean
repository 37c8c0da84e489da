import Cuesheet.Bridge.Service
import Cuesheet.Proofs.Bridge.Soundness

/-!
# The course of a service

A service meets one occurrence after the other: lines arrive, tools write and exit, the input ends.
The surroundings may be different each time. A list of `Happening`s is a whole course of events, and
`Service.after` is where it leads.

Wherever it leads, the bridge is sound, and the stage fits it: a service that is closing waits for an
active run, and a service that is finished has none. Once a service is over nothing changes it. Every event
that is sent can be written.
-/

namespace Cuesheet.Service

/-- An occurrence, and what surrounds it. -/
abbrev Happening := Surroundings × Occurrence

def after (s : Service) (happenings : List Happening) : Service :=
  happenings.foldl (fun s h => (s.step h.1 h.2).service) s

theorem after_append (s : Service) (earlier later : List Happening) :
    s.after (earlier ++ later) = (s.after earlier).after later := List.foldl_append

theorem after_snoc (s : Service) (earlier : List Happening) (h : Happening) :
    s.after (earlier ++ [h]) = ((s.after earlier).step h.1 h.2).service :=
  after_append s earlier [h]

def sent (s : Service) : List Event := s.bridge.controller.sent

def isRunning (s : Service) : Bool := s.bridge.controller.state.isRunning

/-- What holds of a service at any time. -/
structure Sound (s : Service) : Prop where
  bridge : s.bridge.Sound
  closing : s.stage = .closing → s.isRunning = true
  finished : s.stage = .finished → s.isRunning = false

theorem sound_of_reading {s : Service} (hbridge : s.bridge.Sound) (hreading : s.stage = .reading) :
    s.Sound where
  bridge := hbridge
  closing h := by rw [hreading] at h; cases h
  finished h := by rw [hreading] at h; cases h

theorem sound_service {host : Host} {l : CommandLine} {b : CommandLine.Base}
    (hb : CommandLine.base host l = .ok b) : (CommandLine.service b).Sound :=
  sound_of_reading
    ⟨Controller.sound_first, Controller.writable_first, CommandLine.textual_of_base hb⟩ rfl

section Steps

variable {s : Service}

theorem cancel?_eq_none {k : Controller} : k.cancel? = none ↔ k.state.isRunning = false := by
  simp only [Controller.cancel?, RunState.cancel?, Option.map_eq_none_iff,
    RunState.isRunning_eq_false]

/-- A service that closes has nothing left to do, or waits for the active run. -/
theorem close_eq (s : Service) :
    (s.isRunning = false ∧ s.close = { s with stage := .finished }) ∨
      ∃ k, s.isRunning = true ∧ s.bridge.controller.cancel? = some k ∧
        s.close = { bridge := { s.bridge with controller := k }, stage := .closing } := by
  rcases hcancel : s.bridge.controller.cancel? with _ | k
  · exact .inl ⟨cancel?_eq_none.mp hcancel, by simp only [close, hcancel]⟩
  · obtain ⟨run, hrun, _⟩ := Controller.cancel?_eq_some hcancel
    exact .inr ⟨k, RunState.isRunning_eq_true.mpr ⟨run, hrun⟩, rfl, by simp only [close, hcancel]⟩

theorem Sound.close (hs : s.bridge.Sound) : s.close.Sound := by
  rcases close_eq s with ⟨hidle, hclose⟩ | ⟨k, _, hcancel, hclose⟩
  · rw [hclose]
    exact ⟨hs, fun h => (nomatch h), fun _ => hidle⟩
  · rw [hclose]
    have hk := hs.controller.cancel hcancel
    obtain ⟨run, _, hstate, _⟩ := Controller.cancel?_eq_some hcancel
    refine ⟨⟨hk, hs.writable.cancel hcancel, hs.form⟩, fun _ => ?_, fun h => (nomatch h)⟩
    exact RunState.isRunning_eq_true.mpr ⟨_, by rw [hstate]⟩

/-- What happens to a tool keeps everything in order, as long as the tool is watched. -/
theorem Sound.proceed (hs : s.Sound) {k : Controller} (hk : k.Sound) (hw : k.Writable) :
    (if s.watches then s.proceed k else s).Sound := by
  split
  · rename_i hwatches
    have hopen : s.stage = .reading ∨ s.stage = .closing := by
      simpa only [watches, Bool.or_eq_true, decide_eq_true_eq] using hwatches
    refine ⟨⟨hk, hw, hs.bridge.form⟩, ?_, ?_⟩
    · intro hclosing
      simp only [Service.proceed, Service.isRunning] at hclosing ⊢
      split at hclosing
      · cases hclosing
      · rename_i hwaits
        simpa only [hclosing, true_and, Bool.not_eq_true', Bool.not_eq_false] using hwaits
    · intro hfinished
      simp only [Service.proceed, Service.isRunning] at hfinished ⊢
      split at hfinished
      · rename_i hdone
        simpa only [Bool.not_eq_true'] using hdone.2
      · rcases hopen with h | h <;> rw [h] at hfinished <;> cases hfinished
  · exact hs

theorem Sound.take (hs : s.Sound) (around : Surroundings) (bytes : Bytes) :
    (s.take around bytes).service.Sound := by
  simp only [Service.take]
  split
  · rename_i hreading
    split
    · exact ⟨hs.bridge, fun h => (nomatch h), fun h => (nomatch h)⟩
    · rename_i line _
      have hbridge := hs.bridge.take around line
      split
      · exact Sound.close hbridge
      · exact sound_of_reading hbridge hreading
  · exact hs

/-- **No occurrence breaks a service.** -/
theorem Sound.step (hs : s.Sound) (around : Surroundings) (o : Occurrence) :
    (s.step around o).service.Sound := by
  cases o with
  | line bytes => exact hs.take around bytes
  | endOfInput =>
    simp only [Service.step]
    split
    · exact Sound.close hs.bridge
    · exact hs
  | output id stream piece =>
    exact hs.proceed (hs.bridge.controller.read id stream piece)
      (hs.bridge.writable.read id stream piece)
  | exit id code =>
    exact hs.proceed (hs.bridge.controller.report id code)
      (hs.bridge.writable.report hs.bridge.controller id code)

end Steps

theorem Sound.after {s : Service} (hs : s.Sound) (happenings : List Happening) :
    (s.after happenings).Sound := by
  induction happenings generalizing s with
  | nil => exact hs
  | cons h rest ih => exact ih (hs.step h.1 h.2)

/-! ### When a service is over -/

def isOver (s : Service) : Bool := s.stage = .finished || s.stage = .broken

theorem step_of_over {s : Service} (hover : s.isOver = true) (around : Surroundings)
    (o : Occurrence) : (s.step around o).service = s := by
  have hstage : s.stage ≠ .reading ∧ s.watches = false := by
    simp only [isOver, Bool.or_eq_true, decide_eq_true_eq] at hover
    rcases hover with h | h <;> simp only [watches, h] <;> decide
  cases o with
  | line bytes => simp only [step, take, if_neg hstage.1]
  | endOfInput => simp only [step, if_neg hstage.1]
  | output id stream piece => simp only [step, hstage.2, Bool.false_eq_true, if_false]
  | exit id code => simp only [step, hstage.2, Bool.false_eq_true, if_false]

/-! ### What can be written -/

theorem map_writeJson?_eq {es : List Event} (hes : Event.AllWritable es) :
    es.map Wire.event.writeJson? = (writeEvents es).map some := by
  induction es with
  | nil => rfl
  | cons e rest ih =>
    obtain ⟨line, hline⟩ := Option.isSome_iff_exists.mp (hes e List.mem_cons_self)
    simp only [List.map_cons, writeEvents, hline]
    rw [ih fun f hf => hes f (List.mem_cons_of_mem _ hf)]

end Cuesheet.Service
