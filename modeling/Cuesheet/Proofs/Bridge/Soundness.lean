import Cuesheet.Proofs.Invocation.Watchers
import Cuesheet.Proofs.Wire.Paths

/-!
# What a bridge keeps

A bridge adds the form in force to a controller, and it has to write what the controller sends. So
two facts join those that hold of a controller by itself: the paths of the form are text, and every
event that was sent can be written. The second depends on the first through the active run, which has
a file to open from the form it was launched with; `Controller.Writable` says that this path is text,
too. Whatever operation a bridge is given, and whatever line, it keeps all of this.
-/

namespace Cuesheet

open Utf8

/-! ### Events that can be written -/

def Event.AllWritable (es : List Event) : Prop :=
  ∀ e ∈ es, (Wire.event.writeJson? e).isSome = true

namespace Event

theorem allWritable_append {es fs : List Event} (hes : AllWritable es) (hfs : AllWritable fs) :
    AllWritable (es ++ fs) := fun e he => (List.mem_append.mp he).elim (hes e) (hfs e)

theorem allWritable_of_no_path {es : List Event} (hes : ∀ e ∈ es, ∀ path, e ≠ .openFile path) :
    AllWritable es := fun e he =>
  (Wire.writeJson?_event_isSome e).mpr fun path hopen => absurd hopen (hes e he path)

theorem allWritable_singleton {e : Event} (he : ∀ path, e ≠ .openFile path) :
    AllWritable [e] :=
  allWritable_of_no_path fun f hf => by
    obtain rfl := List.mem_singleton.mp hf
    exact he

theorem allWritable_logsOf (id : RunId) (lines : List (LogStream × String)) :
    AllWritable (Controller.logsOf id lines) :=
  allWritable_of_no_path fun e he path hopen => by
    obtain ⟨_, _, rfl⟩ := List.mem_map.mp he
    cases hopen

theorem allWritable_beginning (run : ActiveRun) (command : List String) :
    AllWritable (RunState.beginning run command) :=
  allWritable_of_no_path fun e he path hopen => by
    subst hopen
    simp [RunState.beginning, RunState.announcement] at he

/-- The end of a run can be written if the path of the file to open is text. -/
theorem allWritable_ending {run : ActiveRun} (outcome : RunOutcome)
    (htarget : ∀ path, run.openTarget = some path → IsText path) :
    AllWritable (RunState.ending run outcome) := by
  intro e he
  refine (Wire.writeJson?_event_isSome e).mpr fun path hopen => htarget path ?_
  subst hopen
  rcases List.mem_cons.mp he with hfirst | hrest
  · cases hfirst
  rcases List.mem_append.mp hrest with hopened | hlast
  · split at hopened
    · obtain ⟨target, hmem, hpath⟩ := List.mem_map.mp hopened
      obtain rfl := Event.openFile.inj hpath
      exact Option.mem_toList.mp hmem
    · cases hopened
  · cases List.mem_singleton.mp hlast

end Event

/-! ### Controllers -/

namespace Controller

/-- A controller whose events can be written, those to come from its run included. -/
structure Writable (k : Controller) : Prop where
  sent : Event.AllWritable k.sent
  target : ∀ run, k.state.active = some run → ∀ path, run.openTarget = some path → IsText path

theorem writable_first : Writable {} := ⟨fun _ h => (nomatch h), fun _ h => (nomatch h)⟩

section Writable

variable {k k' : Controller}

theorem Writable.send (hk : k.Writable) {es : List Event} (hes : Event.AllWritable es) :
    (k.send es).Writable := ⟨Event.allWritable_append hk.sent hes, hk.target⟩

theorem Writable.start (hk : k.Writable) {host : Host} {locator : Locator} {c : Configuration}
    {birth : Invocation.Birth} {launched : Launched} (hc : c.Textual)
    (hs : k.start host locator c birth = .ok launched) : launched.controller.Writable := by
  obtain ⟨_, hlaunched⟩ := start_eq_ok hs
  rw [hlaunched]
  refine ⟨Event.allWritable_append hk.sent (Event.allWritable_beginning _ _), ?_⟩
  intro run hrun path htarget
  obtain rfl := Option.some.inj hrun
  exact hc.openTarget htarget

theorem Writable.cancel (hk : k.Writable) (hc : k.cancel? = some k') : k'.Writable := by
  obtain ⟨run, hrun, hstate, _, hsent⟩ := cancel?_eq_some hc
  refine ⟨by rw [hsent]; exact hk.sent, ?_⟩
  intro run' hrun' path htarget
  rw [hstate] at hrun'
  obtain rfl := Option.some.inj hrun'
  exact hk.target run hrun path htarget

theorem Writable.acknowledge (hk : k.Writable) (ha : k.acknowledge? = some k') :
    k'.Writable := by
  obtain ⟨_, _, rfl⟩ := acknowledge?_eq_some ha
  refine ⟨Event.allWritable_append hk.sent ?_, hk.target⟩
  exact Event.allWritable_singleton fun _ h => (nomatch h)

theorem Writable.read (hk : k.Writable) (id : RunId) (stream : LogStream) (piece : Bytes) :
    (k.read id stream piece).Writable := by
  obtain ⟨lines, hstate, _, hsent⟩ := read_eq k id stream piece
  refine ⟨?_, by rw [hstate]; exact hk.target⟩
  rw [hsent]
  exact Event.allWritable_append hk.sent (Event.allWritable_logsOf id lines)

theorem Writable.report (hk : k.Writable) (hsound : k.Sound) (id : RunId) (code : Int32) :
    (k.report id code).Writable := by
  rcases hfind : k.watcher? id with _ | w
  · rw [report_of_no_watcher hfind]; exact hk
  · obtain rfl : w.run = id := by simpa using List.find?_some hfind
    obtain ⟨run, f, hrun, _, hf, hreport⟩ :=
      hsound.report_of_watcher (List.mem_of_find?_eq_some hfind) code
    obtain ⟨_, _, _, rfl⟩ := RunState.finish?_eq_some.mp hf
    rw [hreport]
    refine ⟨Event.allWritable_append hk.sent ?_, fun _ h => (nomatch h)⟩
    exact Event.allWritable_append (Event.allWritable_logsOf _ _)
      (Event.allWritable_ending _ (hk.target run hrun))

end Writable

end Controller

/-! ### Bridges -/

namespace Bridge

structure Sound (b : Bridge) : Prop where
  controller : b.controller.Sound
  writable : b.controller.Writable
  form : b.configuration.Textual

section Sound

variable {b : Bridge}

/-- Answers name no path and are no part of a run. -/
theorem Sound.send (hb : b.Sound) {e : Event} (haside : e.isAside = true)
    (hpath : ∀ path, e ≠ .openFile path) : (b.send e).Sound where
  controller := hb.controller.sendAside fun f hf => by
    obtain rfl := List.mem_singleton.mp hf
    exact haside
  writable := hb.writable.send (Event.allWritable_singleton hpath)
  form := hb.form

theorem Sound.reject (hb : b.Sound) (reason : Rejection) : (b.reject reason).Sound :=
  hb.send rfl fun _ h => (nomatch h)

/-- **No operation breaks a bridge.** -/
theorem Sound.apply (hb : b.Sound) (around : Surroundings) {op : Operation}
    (hop : ∀ c, op = .setConfiguration c → c.Textual) : (b.apply around op).bridge.Sound := by
  cases op with
  | setConfiguration c =>
    simp only [Bridge.apply]
    split
    · exact hb.reject _
    · exact ⟨hb.controller, hb.writable, hop c rfl⟩
  | previewArguments =>
    simp only [Bridge.apply]
    split
    · exact hb.send rfl fun _ h => (nomatch h)
    · exact hb.reject _
  | start =>
    simp only [Bridge.apply]
    split
    · rename_i launched hstart
      exact ⟨hb.controller.start hstart, hb.writable.start hb.form hstart, hb.form⟩
    · exact hb.reject _
  | cancel =>
    simp only [Bridge.apply]
    split
    · rename_i k hcancel
      exact ⟨hb.controller.cancel hcancel, hb.writable.cancel hcancel, hb.form⟩
    · exact hb.reject _
  | acknowledge =>
    simp only [Bridge.apply]
    split
    · rename_i k hack
      exact ⟨hb.controller.acknowledge hack, hb.writable.acknowledge hack, hb.form⟩
    · exact hb.reject _
  | getState => exact hb.send rfl fun _ h => (nomatch h)
  | shutdown => exact hb

theorem Sound.take (hb : b.Sound) (around : Surroundings) (line : String) :
    (b.take around line).bridge.Sound := by
  simp only [Bridge.take]
  split
  · exact hb
  · split
    · rename_i op hread
      refine hb.apply around fun c hop => ?_
      subst hop
      exact Wire.textual_of_readJson hread
    · exact hb.reject _

end Sound

end Bridge

end Cuesheet
