import Cuesheet.Proofs.Run.Transitions

/-!
# Starts and finishes

Of all events only two say where a run begins and where it ends. `Event.bracket` reads them one after
the other and keeps the run that is under way; it refuses a start while a run is under way, and a
finish of any other run. A list of events that it reads to its end is *in order*: no two runs
overlap, and every finish belongs to the start before it. What follows from that for the list is
said here, and that the transitions of the runner keep it: what is under way is the active run.
-/

namespace Cuesheet

namespace Event

def startedId? : Event → Option RunId
  | .runStarted id _ _ _ => some id
  | _ => none

def finishedId? : Event → Option RunId
  | .runFinished id _ => some id
  | _ => none

/-- The run under way after an event; `none` if the event is out of order. -/
def bracket (under : Option RunId) : Event → Option (Option RunId)
  | .runStarted id _ _ _ => if under = none then some (some id) else none
  | .runFinished id _ => if under = some id then some none else none
  | _ => some under

/-- The run under way after a list of events; `none` if one is out of order. -/
def bracketAll (under : Option RunId) (es : List Event) : Option (Option RunId) :=
  es.foldlM bracket under

def startedIds (es : List Event) : List RunId := es.filterMap startedId?

def finishedIds (es : List Event) : List RunId := es.filterMap finishedId?

/-- Neither the start nor the end of a run. -/
def isAside (e : Event) : Bool := e.startedId?.isNone && e.finishedId?.isNone

@[simp] theorem bracketAll_nil (under : Option RunId) : bracketAll under [] = some under := rfl

theorem bracketAll_cons (under : Option RunId) (e : Event) (es : List Event) :
    bracketAll under (e :: es) = (bracket under e).bind fun v => bracketAll v es := rfl

theorem bracketAll_append (under : Option RunId) (es fs : List Event) :
    bracketAll under (es ++ fs) = (bracketAll under es).bind fun v => bracketAll v fs := by
  simp only [bracketAll, List.foldlM_append]; rfl

theorem startedIds_cons (e : Event) (es : List Event) :
    startedIds (e :: es) = e.startedId?.toList ++ startedIds es := by
  cases he : e.startedId? <;> simp [startedIds, he]

theorem finishedIds_cons (e : Event) (es : List Event) :
    finishedIds (e :: es) = e.finishedId?.toList ++ finishedIds es := by
  cases he : e.finishedId? <;> simp [finishedIds, he]

@[simp] theorem startedIds_append (es fs : List Event) :
    startedIds (es ++ fs) = startedIds es ++ startedIds fs := List.filterMap_append

@[simp] theorem finishedIds_append (es fs : List Event) :
    finishedIds (es ++ fs) = finishedIds es ++ finishedIds fs := List.filterMap_append

/-! ### Events in order -/

/-- One event in order starts what is under way after it, or finishes what was
    under way before it, or does neither. -/
theorem bracket_balance {u v : Option RunId} {e : Event} (hb : bracket u e = some v) :
    u.toList ++ e.startedId?.toList = e.finishedId?.toList ++ v.toList := by
  cases e with
  | runStarted id pid command startedAt =>
    simp only [bracket, Option.ite_none_right_eq_some, Option.some.injEq] at hb
    obtain ⟨rfl, rfl⟩ := hb
    rfl
  | runFinished id outcome =>
    simp only [bracket, Option.ite_none_right_eq_some, Option.some.injEq] at hb
    obtain ⟨rfl, rfl⟩ := hb
    rfl
  | _ =>
    simp only [bracket, Option.some.injEq] at hb
    subst hb
    simp only [startedId?, finishedId?, Option.toList_none, List.append_nil, List.nil_append]

/-- **The runs that are started are those that are finished, and then the one under
    way.**  Read with lists of identifiers: the `n`-th finish is the finish of the
    `n`-th run that was started. -/
theorem started_eq_finished {u v : Option RunId} {es : List Event}
    (hb : bracketAll u es = some v) :
    u.toList ++ startedIds es = finishedIds es ++ v.toList := by
  induction es generalizing u with
  | nil =>
    simp only [bracketAll_nil, Option.some.injEq] at hb
    subst hb
    simp only [startedIds, finishedIds, List.filterMap_nil, List.append_nil, List.nil_append]
  | cons e es ih =>
    rw [bracketAll_cons] at hb
    obtain ⟨w, hw, hes⟩ := Option.bind_eq_some_iff.mp hb
    have hhead := bracket_balance hw
    have htail := ih hes
    calc u.toList ++ startedIds (e :: es)
        = (u.toList ++ e.startedId?.toList) ++ startedIds es := by
          rw [startedIds_cons, List.append_assoc]
      _ = e.finishedId?.toList ++ (w.toList ++ startedIds es) := by
          rw [hhead, List.append_assoc]
      _ = (e.finishedId?.toList ++ finishedIds es) ++ v.toList := by
          rw [htail, List.append_assoc]
      _ = finishedIds (e :: es) ++ v.toList := by
          rw [finishedIds_cons]

/-- If a run is under way and none is in the end, the run under way is finished. -/
theorem finished_mem {id : RunId} {es : List Event}
    (hb : bracketAll (some id) es = some none) : ∃ outcome, Event.runFinished id outcome ∈ es := by
  have hids := started_eq_finished hb
  have hmem : id ∈ finishedIds es := by
    rw [Option.toList_none, List.append_nil] at hids
    rw [← hids]; simp
  obtain ⟨e, he, hid⟩ := List.mem_filterMap.mp hmem
  cases e with
  | runFinished id' outcome =>
    obtain rfl := Option.some.inj hid
    exact ⟨outcome, he⟩
  | _ => cases hid

/-- Every run that is started is finished later. -/
def EachFinished (es : List Event) : Prop :=
  ∀ before id pid command startedAt rest,
    es = before ++ .runStarted id pid command startedAt :: rest →
      ∃ outcome, Event.runFinished id outcome ∈ rest

theorem last_start {es : List Event} {ids : List RunId} {id : RunId}
    (hs : startedIds es = ids ++ [id]) :
    ∃ before pid command startedAt rest,
      es = before ++ .runStarted id pid command startedAt :: rest ∧ startedIds rest = [] := by
  obtain ⟨early, late, rfl, _, hlate⟩ := List.filterMap_eq_append_iff.mp hs
  obtain ⟨asides, e, rest, rfl, _, he, hrest⟩ := List.filterMap_eq_cons_iff.mp hlate
  cases e with
  | runStarted id' pid command startedAt =>
    obtain rfl := Option.some.inj he
    exact ⟨early ++ asides, pid, command, startedAt, rest, by rw [List.append_assoc], hrest⟩
  | _ => cases he

theorem bracketAll_of_start {v u : Option RunId} {before rest : List Event} {id : RunId}
    {pid : Option UInt32} {command : List String} {startedAt : Instant}
    (hb : bracketAll v (before ++ .runStarted id pid command startedAt :: rest) = some u) :
    bracketAll (some id) rest = some u := by
  rw [bracketAll_append] at hb
  obtain ⟨w, _, htail⟩ := Option.bind_eq_some_iff.mp hb
  rw [bracketAll_cons] at htail
  obtain ⟨w', hstart, hrest⟩ := Option.bind_eq_some_iff.mp htail
  simp only [bracket, Option.ite_none_right_eq_some, Option.some.injEq] at hstart
  obtain ⟨_, rfl⟩ := hstart
  exact hrest

/-- **Nothing is under way exactly when every run is finished.** -/
theorem eachFinished_iff {u : Option RunId} {es : List Event}
    (hb : bracketAll none es = some u) : EachFinished es ↔ u = none := by
  constructor
  · intro hall
    rcases u with _ | id
    · rfl
    -- the last run to start would have a finish, but after it nothing is finished
    exfalso
    have hbalance := started_eq_finished hb
    rw [Option.toList_none, List.nil_append] at hbalance
    obtain ⟨before, pid, command, startedAt, rest, rfl, hrest⟩ := last_start hbalance
    obtain ⟨outcome, hmem⟩ := hall before id pid command startedAt rest rfl
    have hafter := started_eq_finished (bracketAll_of_start hb)
    rw [hrest, List.append_nil] at hafter
    have hlength := congrArg List.length hafter
    have hfinish : id ∈ finishedIds rest := List.mem_filterMap.mpr ⟨_, hmem, rfl⟩
    have hpos := List.length_pos_of_mem hfinish
    simp only [Option.toList_some, List.length_append, List.length_cons, List.length_nil]
      at hlength
    omega
  · rintro rfl before id pid command startedAt rest rfl
    exact finished_mem (bracketAll_of_start hb)

theorem bracket_aside {e : Event} (haside : e.isAside = true) (u : Option RunId) :
    bracket u e = some u := by
  cases e with
  | runStarted id pid command startedAt => cases haside
  | runFinished id outcome => cases haside
  | _ => rfl

theorem startedIds_aside {es : List Event} (haside : ∀ e ∈ es, e.isAside = true) :
    startedIds es = [] := by
  refine List.filterMap_eq_nil_iff.mpr fun e he => ?_
  have hboth := haside e he
  simp only [isAside, Bool.and_eq_true, Option.isNone_iff_eq_none] at hboth
  exact hboth.1

theorem finishedIds_aside {es : List Event} (haside : ∀ e ∈ es, e.isAside = true) :
    finishedIds es = [] := by
  refine List.filterMap_eq_nil_iff.mpr fun e he => ?_
  have hboth := haside e he
  simp only [isAside, Bool.and_eq_true, Option.isNone_iff_eq_none] at hboth
  exact hboth.2

theorem bracketAll_aside {es : List Event} (haside : ∀ e ∈ es, e.isAside = true)
    (u : Option RunId) : bracketAll u es = some u := by
  induction es with
  | nil => rfl
  | cons e es ih =>
    rw [bracketAll_cons, bracket_aside (haside e List.mem_cons_self), Option.bind_some]
    exact ih fun f hf => haside f (List.mem_cons_of_mem _ hf)

end Event

namespace RunState

open Event

theorem bracketAll_beginning (run : ActiveRun) (command : List String) :
    bracketAll none (beginning run command) = some (some run.id) := rfl

theorem startedIds_beginning (run : ActiveRun) (command : List String) :
    startedIds (beginning run command) = [run.id] := rfl

theorem finishedIds_beginning (run : ActiveRun) (command : List String) :
    finishedIds (beginning run command) = [] := rfl

/-- All events of an end but the last are aside. -/
theorem ending_eq (run : ActiveRun) (outcome : RunOutcome) :
    ∃ asides : List Event, (∀ e ∈ asides, e.isAside = true) ∧
      ending run outcome = asides ++ [.runFinished run.id outcome] := by
  refine ⟨announcement outcome.status
    :: (if outcome = .succeeded then run.openTarget.toList.map Event.openFile else []), ?_, rfl⟩
  intro e he
  rcases List.mem_cons.mp he with rfl | he
  · rfl
  · split at he
    · obtain ⟨path, _, rfl⟩ := List.mem_map.mp he
      rfl
    · cases he

theorem bracketAll_ending (run : ActiveRun) (outcome : RunOutcome) :
    bracketAll (some run.id) (ending run outcome) = some none := by
  obtain ⟨asides, haside, hending⟩ := ending_eq run outcome
  rw [hending, bracketAll_append, bracketAll_aside haside]
  simp only [Option.bind_some, bracketAll_cons, bracket, if_true, bracketAll_nil]

theorem startedIds_ending (run : ActiveRun) (outcome : RunOutcome) :
    startedIds (ending run outcome) = [] := by
  obtain ⟨asides, haside, hending⟩ := ending_eq run outcome
  rw [hending, startedIds_append, startedIds_aside haside]; rfl

theorem finishedIds_ending (run : ActiveRun) (outcome : RunOutcome) :
    finishedIds (ending run outcome) = [run.id] := by
  obtain ⟨asides, haside, hending⟩ := ending_eq run outcome
  rw [hending, finishedIds_append, finishedIds_aside haside]; rfl

end RunState

end Cuesheet
