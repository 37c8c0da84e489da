import Cuesheet.Proofs.Bridge.Lines

/-!
# Who has the signal

A run that was asked to end has a watcher that got the signal. The signal is sent once only, with the first
request, and a run that is under way is always watched; so a later request finds the signal where it
belongs. `Controller.Heeded` says this of a controller, and nothing that a bridge does breaks it.
-/

namespace Cuesheet

namespace Controller

structure Heeded (k : Controller) : Prop where
  watched : ∀ run, k.state.active = some run → run.watched = true
  signalled : ∀ run, k.state.active = some run → run.cancelRequested = true →
    ∀ w ∈ k.watchers, w.signalled = true

theorem heeded_of_idle {k : Controller} (hidle : k.state.active = none) : k.Heeded := by
  constructor
  · intro run hrun
    rw [hidle] at hrun
    cases hrun
  · intro run hrun
    rw [hidle] at hrun
    cases hrun

section Heeded

variable {k k' : Controller}

theorem Heeded.start {host : Host} {locator : Locator} {c : Configuration}
    {birth : Invocation.Birth} {launched : Launched}
    (hs : k.start host locator c birth = .ok launched) : launched.controller.Heeded := by
  obtain ⟨_, hlaunched⟩ := start_eq_ok hs
  rw [hlaunched]
  constructor
  · intro run hrun
    obtain rfl := Option.some.inj hrun
    rfl
  · intro run hrun hrequested
    obtain rfl := Option.some.inj hrun
    cases hrequested

/-- After a request every watcher of the run has the signal, if the request was the first or not. -/
theorem Heeded.cancel (hsound : k.Sound) (hk : k.Heeded) (hc : k.cancel? = some k') :
    k'.Heeded ∧ ∀ w ∈ k'.watchers, w.signalled = true := by
  obtain ⟨c, hcancel, rfl⟩ := Option.map_eq_some_iff.mp hc
  obtain ⟨run, hrun, rfl⟩ := RunState.cancel?_eq_some.mp hcancel
  have hwatched := hk.watched run hrun
  obtain ⟨w, hws, hid⟩ := hsound.watchers_one hrun
  have hall : ∀ v ∈ (if (run.watched && !run.cancelRequested) = true then
      k.watchers.map fun w => if w.run = run.id then { w with signalled := true } else w
      else k.watchers), v.signalled = true := by
    intro v hv
    by_cases hrequested : run.cancelRequested = true
    · simp only [hrequested, Bool.not_true, Bool.and_false, Bool.false_eq_true, if_false] at hv
      exact hk.signalled run hrun hrequested v hv
    · rw [Bool.not_eq_true] at hrequested
      simp only [hwatched, hrequested, Bool.not_false, Bool.and_self, if_true, hws, List.map_cons,
        List.map_nil, hid, List.mem_singleton] at hv
      rw [hv]
  refine ⟨⟨?_, fun _ _ _ => hall⟩, hall⟩
  intro run' hrun'
  obtain rfl := Option.some.inj hrun'
  exact hwatched

theorem Heeded.acknowledge (ha : k.acknowledge? = some k') : k'.Heeded := by
  obtain ⟨hidle, _, rfl⟩ := acknowledge?_eq_some ha
  exact heeded_of_idle hidle

theorem Heeded.read (hk : k.Heeded) (id : RunId) (stream : LogStream) (piece : Bytes) :
    (k.read id stream piece).Heeded := by
  simp only [Controller.read]
  split
  · exact hk
  · refine ⟨hk.watched, fun run hrun hrequested w hw => ?_⟩
    obtain ⟨v, hv, rfl⟩ := List.mem_map.mp hw
    have hsignalled := hk.signalled run hrun hrequested v hv
    split <;> exact hsignalled

theorem Heeded.report (hsound : k.Sound) (hk : k.Heeded) (id : RunId) (code : Int32) :
    (k.report id code).Heeded := by
  rcases hfind : k.watcher? id with _ | w
  · rw [report_of_no_watcher hfind]
    exact hk
  · obtain rfl : w.run = id := by simpa using List.find?_some hfind
    obtain ⟨run, f, _, _, hf, hreport⟩ :=
      hsound.report_of_watcher (List.mem_of_find?_eq_some hfind) code
    obtain ⟨_, _, _, rfl⟩ := RunState.finish?_eq_some.mp hf
    rw [hreport]
    exact heeded_of_idle rfl

end Heeded

end Controller

namespace Bridge

theorem heeded_apply {b : Bridge} (hsound : b.controller.Sound) (hb : b.controller.Heeded)
    (around : Surroundings) (op : Operation) : (b.apply around op).bridge.controller.Heeded := by
  cases op with
  | setConfiguration c =>
    simp only [Bridge.apply]
    split
    · exact ⟨hb.watched, hb.signalled⟩
    · exact hb
  | previewArguments =>
    simp only [Bridge.apply]
    split <;> exact ⟨hb.watched, hb.signalled⟩
  | start =>
    simp only [Bridge.apply]
    split
    · rename_i hstart
      exact Controller.Heeded.start hstart
    · exact ⟨hb.watched, hb.signalled⟩
  | cancel =>
    simp only [Bridge.apply]
    split
    · rename_i hcancel
      exact (Controller.Heeded.cancel hsound hb hcancel).1
    · exact ⟨hb.watched, hb.signalled⟩
  | acknowledge =>
    simp only [Bridge.apply]
    split
    · rename_i hack
      exact Controller.Heeded.acknowledge hack
    · exact ⟨hb.watched, hb.signalled⟩
  | getState => exact ⟨hb.watched, hb.signalled⟩
  | shutdown => exact hb

theorem heeded_take {b : Bridge} (hsound : b.controller.Sound) (hb : b.controller.Heeded)
    (around : Surroundings) (line : String) : (b.take around line).bridge.controller.Heeded := by
  simp only [Bridge.take]
  split
  · exact hb
  · split
    · exact heeded_apply hsound hb around _
    · exact ⟨hb.watched, hb.signalled⟩

end Bridge

namespace Service

def Heeded (s : Service) : Prop := s.bridge.controller.Heeded

theorem heeded_service (b : CommandLine.Base) : (CommandLine.service b).Heeded :=
  Controller.heeded_of_idle rfl

section Heeded

variable {s : Service}

theorem Heeded.close (hsound : s.bridge.Sound) (hs : s.Heeded) : s.close.Heeded := by
  rcases close_eq s with ⟨_, hclose⟩ | ⟨k, _, hcancel, hclose⟩
  · rw [hclose]
    exact hs
  · rw [hclose]
    exact (Controller.Heeded.cancel hsound.controller hs hcancel).1

theorem Heeded.proceed (hs : s.Heeded) {k : Controller} (hk : k.Heeded) :
    (if s.watches then s.proceed k else s).Heeded := by
  split
  · exact hk
  · exact hs

/-- **The signal is where it belongs**, whatever occurs. -/
theorem Heeded.step (hsound : s.Sound) (hs : s.Heeded) (around : Surroundings) (o : Occurrence) :
    (s.step around o).service.Heeded := by
  cases o with
  | line bytes =>
    simp only [Service.step, Service.take]
    split
    · split
      · exact hs
      · rename_i line _
        have htake := Bridge.heeded_take hsound.bridge.controller hs around line
        split
        · exact Heeded.close (hsound.bridge.take around line) htake
        · exact htake
    · exact hs
  | endOfInput =>
    simp only [Service.step]
    split
    · exact Heeded.close hsound.bridge hs
    · exact hs
  | output id stream piece => exact hs.proceed (Controller.Heeded.read hs id stream piece)
  | exit id code =>
    exact hs.proceed (Controller.Heeded.report hsound.bridge.controller hs id code)

end Heeded

theorem Heeded.after {s : Service} (hsound : s.Sound) (hs : s.Heeded)
    (happenings : List Happening) : (s.after happenings).Heeded := by
  induction happenings generalizing s with
  | nil => exact hs
  | cons h rest ih => exact ih (hsound.step h.1 h.2) (hs.step hsound h.1 h.2)

end Service

end Cuesheet
