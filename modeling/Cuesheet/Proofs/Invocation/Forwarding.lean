import Cuesheet.Proofs.Invocation.Refusal
import Cuesheet.Proofs.Text.Pieces
import Cuesheet.Proofs.Text.Spelling

/-!
# The lines that are forwarded

What a tool writes comes to its watcher in pieces, cut anywhere and in any order of the two streams, and a
stream may end long before the other one does. `Output.Heard` is what the watcher hears, one thing after the
other. Whatever the order, the lines forwarded from each stream are those of its whole output
(`linesOf_hearAll`).

A watcher forwards nothing but what it hears from its own tool, and only while its run is active. So the lines
of a run stand between its start and its finish, and an identifier that no other run has is on no other line.
-/

namespace Cuesheet

theorem filterMap_one {α β : Type} (f : α → Option β) (x : α) : [x].filterMap f = (f x).toList := by
  rw [List.filterMap_cons]
  cases f x with
  | none => rfl
  | some y => rfl

namespace Output

/-! ### Lines of a whole stream -/

section Lines

variable {bs last : Bytes} {pieces : List Bytes}

/-- A piece is forwarded if it spells a text with a character that is not blank. -/
theorem shown?_eq_some_iff {piece : Bytes} {line : String} :
    shown? piece = some line ↔ Utf8.encode line = piece ∧ ∃ c ∈ line.toList, Text.isBlank c = false := by
  have hspells : Utf8.decode? piece = some line ↔ Utf8.encode line = piece := by
    constructor
    · exact Utf8.encode_of_decode?
    · rintro rfl
      exact Utf8.decode?_encode line
  simp only [shown?, Option.filter_eq_some_iff, hspells, Text.allBlank, Bool.not_eq_true', List.all_eq_false,
    Bool.not_eq_true]

theorem shown?_nil : shown? [] = none := by decide +kernel

theorem lines_eq (bs : Bytes) : lines bs = endedLines bs ++ (shown? (Line.tail bs)).toList := by
  rw [lines, Line.all, List.filterMap_append, endedLines]
  split
  · rename_i htail
    rw [htail, shown?_nil]
    rfl
  · rw [filterMap_one]

/-- The lines of a stream are those of its cut, the last piece included. -/
theorem lines_of_cut (h : Line.Cut bs pieces last) :
    lines bs = (pieces.map Line.withoutReturn ++ [last]).filterMap shown? := by
  rw [lines_eq, endedLines, h.ended, h.tail, List.filterMap_append, filterMap_one]

theorem lines_of_last (h : Line.feed ∉ last) : lines last = (shown? last).toList := by
  have hcut : Line.Cut last [] last := ⟨rfl, List.forall_mem_nil _, h⟩
  rw [lines_of_cut hcut, List.map_nil, List.nil_append, filterMap_one]

/-- The lines that have ended are done with, and the rest waits for what follows. -/
theorem lines_append (bs bs' : Bytes) : lines (bs ++ bs') = endedLines bs ++ lines (Line.tail bs ++ bs') := by
  simp only [lines_eq, endedLines, Line.ended_append bs bs', Line.tail_append bs bs', List.filterMap_append,
    List.append_assoc]

end Lines

/-! ### What a watcher hears -/

/-- One thing that is heard of the output of a tool. -/
inductive Heard where
  | piece (stream : LogStream) (bs : Bytes)
  /-- There is no more of this stream. -/
  | ended (stream : LogStream)

def Heard.bytes (stream : LogStream) : Heard → Bytes
  | .piece stream' bs => if stream' = stream then bs else []
  | .ended _ => []

/-- The pieces of a stream, put together. -/
def written (stream : LogStream) (hs : List Heard) : Bytes := hs.flatMap (Heard.bytes stream)

/-- Nothing is heard of a stream that has ended. -/
def Orderly : List Heard → Prop
  | [] => True
  | .piece _ _ :: hs => Orderly hs
  | .ended stream :: hs => written stream hs = [] ∧ Orderly hs

instance decidableOrderly : (hs : List Heard) → Decidable (Orderly hs)
  | [] => isTrue trivial
  | .piece _ _ :: hs => decidableOrderly hs
  | .ended stream :: hs => @instDecidableAnd (written stream hs = []) _ _ (decidableOrderly hs)

def Pending.hear (p : Pending) : Heard → Pending × List (LogStream × String)
  | .piece stream bs => ((p.feed stream bs).1, (p.feed stream bs).2.map fun line => (stream, line))
  | .ended stream => ((p.close stream).1, (p.close stream).2.map fun line => (stream, line))

def Pending.hearAll (p : Pending) : List Heard → Pending × List (LogStream × String)
  | [] => (p, [])
  | h :: hs => (((p.hear h).1.hearAll hs).1, (p.hear h).2 ++ ((p.hear h).1.hearAll hs).2)

def linesOf (stream : LogStream) (lines : List (LogStream × String)) : List String :=
  (lines.filter (·.1 == stream)).map Prod.snd

section Heard

variable {stream stream' : LogStream} {bs : Bytes} {hs : List Heard} (p : Pending)

theorem written_cons (h : Heard) :
    written stream (h :: hs) = h.bytes stream ++ written stream hs := List.flatMap_cons

@[simp] theorem Pending.get_set :
    (p.set stream' bs).get stream = if stream' = stream then bs else p.get stream := by
  cases stream <;> cases stream' <;> rfl

theorem linesOf_append (xs ys : List (LogStream × String)) :
    linesOf stream (xs ++ ys) = linesOf stream xs ++ linesOf stream ys := by
  simp only [linesOf, List.filter_append, List.map_append]

theorem linesOf_map (lines : List String) :
    linesOf stream (lines.map fun line => (stream', line)) = if stream' = stream then lines else [] := by
  have hown : (lines.map fun line => (stream', line)).filter (·.1 == stream) =
      if stream' = stream then lines.map fun line => (stream', line) else [] := by
    split
    · rename_i heq
      exact List.filter_eq_self.mpr fun x hx => by
        obtain ⟨line, -, rfl⟩ := List.mem_map.mp hx
        exact beq_iff_eq.mpr heq
    · rename_i hne
      refine List.filter_eq_nil_iff.mpr fun x hx => ?_
      obtain ⟨line, -, rfl⟩ := List.mem_map.mp hx
      exact fun heq => hne (eq_of_beq heq)
  rw [linesOf, hown]
  split
  · rw [List.map_map]
    exact List.map_id lines
  · rfl

theorem linesOf_rest : linesOf stream p.rest = (shown? (p.get stream)).toList := by
  simp only [Pending.rest, LogStream.all, List.flatMap_cons, List.flatMap_nil, List.append_nil,
    linesOf_append, linesOf_map]
  cases stream with
  | stdout => simp only [if_true, reduceCtorEq, if_false, List.append_nil]
  | stderr => simp only [if_true, reduceCtorEq, if_false, List.nil_append]

theorem Pending.hearAll_concat (h : Heard) :
    p.hearAll (hs ++ [h]) =
      (((p.hearAll hs).1.hear h).1, (p.hearAll hs).2 ++ ((p.hearAll hs).1.hear h).2) := by
  induction hs generalizing p with
  | nil => simp only [List.nil_append, Pending.hearAll, List.append_nil]
  | cons h hs ih => simp only [List.cons_append, Pending.hearAll, ih, List.append_assoc]

/-- What waits for its end has no line feed. -/
theorem Pending.feed_not_mem_hear (hp : ∀ stream, Line.feed ∉ p.get stream) (h : Heard) :
    ∀ stream, Line.feed ∉ (p.hear h).1.get stream := by
  intro stream
  cases h with
  | piece stream' bs =>
    simp only [Pending.hear, Pending.feed, Pending.get_set]
    split
    · exact Line.feed_not_mem_tail _
    · exact hp stream
  | ended stream' =>
    simp only [Pending.hear, Pending.close, Pending.get_set]
    split
    · exact List.not_mem_nil
    · exact hp stream

/-- **The lines of a stream do not depend on how it is read.**  Of each stream are forwarded the lines of what
    was kept of it and of all that is heard after that, however it is cut and wherever the other stream
    comes in between. -/
theorem linesOf_hearAll (hp : ∀ stream, Line.feed ∉ p.get stream) (horderly : Orderly hs)
    (stream : LogStream) :
    linesOf stream ((p.hearAll hs).2 ++ (p.hearAll hs).1.rest) = lines (p.get stream ++ written stream hs) := by
  induction hs generalizing p with
  | nil =>
    rw [written, List.flatMap_nil, List.append_nil, lines_of_last (hp stream), ← linesOf_rest]
    rfl
  | cons h hs ih =>
    cases h with
    | piece stream' bs =>
      have hrest := ih (p.hear (.piece stream' bs)).1 (p.feed_not_mem_hear hp _) horderly
      rw [Pending.hearAll, List.append_assoc, linesOf_append, hrest, written_cons]
      simp only [Pending.hear, Pending.feed, linesOf_map, Pending.get_set, Heard.bytes]
      split
      · rename_i heq
        subst heq
        rw [← List.append_assoc, lines_append (p.get stream' ++ bs)]
      · rfl
    | ended stream' =>
      obtain ⟨hnothing, horderly⟩ := horderly
      have hrest := ih (p.hear (.ended stream')).1 (p.feed_not_mem_hear hp _) horderly
      rw [Pending.hearAll, List.append_assoc, linesOf_append, hrest, written_cons]
      simp only [Pending.hear, Pending.close, linesOf_map, Pending.get_set, Heard.bytes, List.nil_append]
      split
      · rename_i heq
        subst heq
        rw [hnothing, List.append_nil, List.append_nil, lines_of_last (hp stream'),
          lines_of_last List.not_mem_nil, shown?_nil]
        exact List.append_nil _
      · rfl

/-- All lines that are forwarded from what is heard, the rests at the end included. -/
def forwarded (hs : List Heard) : List (LogStream × String) :=
  (Pending.hearAll {} hs).2 ++ (Pending.hearAll {} hs).1.rest

theorem linesOf_forwarded (horderly : Orderly hs) {pieces : List Bytes} {last : Bytes}
    (hcut : Line.Cut (written stream hs) pieces last) :
    linesOf stream (forwarded hs) = (pieces.map Line.withoutReturn ++ [last]).filterMap shown? := by
  have hnothing (stream : LogStream) : Pending.get {} stream = [] := by
    cases stream with
    | stdout => rfl
    | stderr => rfl
  have hfresh (stream : LogStream) : Line.feed ∉ Pending.get {} stream := by
    rw [hnothing]
    exact List.not_mem_nil
  rw [forwarded, linesOf_hearAll {} hfresh horderly, hnothing, List.nil_append, lines_of_cut hcut]

end Heard

end Output

/-! ### The events of a run -/

namespace Event

/-- The line that an event forwards for a run. -/
def logOf? (id : RunId) : Event → Option (LogStream × String)
  | .runLog id' stream line => if id' = id then some (stream, line) else none
  | _ => none

/-- The lines that are forwarded for a run. -/
def logged (id : RunId) (es : List Event) : List (LogStream × String) := es.filterMap (logOf? id)

section Logged

variable {id id' : RunId}

@[simp] theorem logged_append (es fs : List Event) : logged id (es ++ fs) = logged id es ++ logged id fs :=
  List.filterMap_append

theorem logged_logsOf (lines : List (LogStream × String)) : logged id (Controller.logsOf id lines) = lines := by
  rw [logged, Controller.logsOf, List.filterMap_map]
  refine (List.filterMap_congr fun x _ => ?_).trans List.filterMap_some
  exact if_pos rfl

theorem logged_logsOf_ne (hne : id' ≠ id) (lines : List (LogStream × String)) :
    logged id (Controller.logsOf id' lines) = [] := by
  refine List.filterMap_eq_nil_iff.mpr fun e he => ?_
  obtain ⟨x, -, rfl⟩ := List.mem_map.mp he
  exact if_neg hne

theorem logged_beginning (run : ActiveRun) (command : List String) :
    logged id (RunState.beginning run command) = [] := rfl

theorem logged_ending (run : ActiveRun) (outcome : RunOutcome) :
    logged id (RunState.ending run outcome) = [] := by
  refine List.filterMap_eq_nil_iff.mpr fun e he => ?_
  rcases List.mem_cons.mp he with rfl | he
  · rfl
  rcases List.mem_append.mp he with he | he
  · split at he
    · obtain ⟨path, -, rfl⟩ := List.mem_map.mp he
      rfl
    · cases he
  · obtain rfl := List.mem_singleton.mp he
    rfl

end Logged

end Event

/-! ### The watcher of a run -/

namespace Controller

open Output

/-- The watcher of a run hears something of the output of its tool. -/
def hear (k : Controller) (id : RunId) : Heard → Controller
  | .piece stream bs => k.read id stream bs
  | .ended stream => k.close id stream

section Hear

variable {k : Controller} {id : RunId} {w : Watcher}

theorem hear_of_no_watcher (hnone : k.watcher? id = none) (h : Heard) : k.hear id h = k := by
  cases h with
  | piece stream bs => simp only [hear, read, hnone]
  | ended stream => simp only [hear, close, hnone]

/-- What is heard completes some lines, and the rest is kept. -/
theorem hear_of_watcher (hws : k.watchers = [w]) (h : Heard) :
    k.hear w.run h =
      { k with
        watchers := [{ w with pending := (w.pending.hear h).1 }]
        sent := k.sent ++ logsOf w.run (w.pending.hear h).2 } := by
  have hfind : k.watcher? w.run = some w := by
    simp only [watcher?, hws, List.find?_cons, beq_self_eq_true]
  cases h with
  | piece stream bs =>
    simp only [hear, read, hfind, hws, List.map_cons, List.map_nil, if_true, Pending.hear, logsOf, List.map_map]
    rfl
  | ended stream =>
    simp only [hear, close, hfind, hws, List.map_cons, List.map_nil, if_true, Pending.hear, logsOf, List.map_map]
    rfl

theorem watcher?_eq_none_of_ne (hws : k.watchers = [w]) (hne : w.run ≠ id) : k.watcher? id = none := by
  simp only [watcher?, hws, List.find?_cons, beq_eq_false_iff_ne.mpr hne, List.find?_nil]

theorem Sound.activeId_of_watcher (hk : k.Sound) (hw : w ∈ k.watchers) : k.state.activeId = some w.run := by
  obtain ⟨run, hrun, hid, -⟩ := hk.active_of_watcher hw
  rw [RunState.activeId, hrun, Option.map_some, hid]

/-- In a sound controller it is the active run that has a watcher. -/
theorem Sound.hear_cases (hk : k.Sound) (id : RunId) (h : Heard) :
    k.hear id h = k ∨
      ∃ w, k.watchers = [w] ∧ w.run = id ∧ k.state.activeId = some id ∧
        k.hear id h =
          { k with
            watchers := [{ w with pending := (w.pending.hear h).1 }]
            sent := k.sent ++ logsOf id (w.pending.hear h).2 } := by
  rcases hfind : k.watcher? id with _ | w
  · exact .inl (hear_of_no_watcher hfind h)
  · have hfound := List.find?_some hfind
    obtain rfl : w.run = id := eq_of_beq hfound
    have hw := List.mem_of_find?_eq_some hfind
    obtain ⟨-, -, -, hws⟩ := hk.active_of_watcher hw
    exact .inr ⟨w, hws, rfl, hk.activeId_of_watcher hw, hear_of_watcher hws h⟩

theorem Sound.hear (hk : k.Sound) (id : RunId) (h : Heard) : (k.hear id h).Sound := by
  rcases hk.hear_cases id h with hsame | ⟨w, hws, -, -, hheard⟩
  · rw [hsame]
    exact hk
  · rw [hheard]
    refine ⟨?_, (hk.sendAside (isAside_logsOf id _)).ordered⟩
    rw [← hk.watched, hws]
    rfl

/-- A request to cancel does not touch what a watcher keeps. -/
theorem watchers_of_cancel? {k' : Controller} (hcancel : k.cancel? = some k') (hws : k.watchers = [w]) :
    ∃ w', k'.watchers = [w'] ∧ w'.run = w.run ∧ w'.pending = w.pending := by
  obtain ⟨c, -, rfl⟩ := Option.map_eq_some_iff.mp hcancel
  simp only [hws, List.map_cons, List.map_nil]
  split
  · split
    · exact ⟨_, rfl, rfl, rfl⟩
    · exact ⟨_, rfl, rfl, rfl⟩
  · exact ⟨_, rfl, rfl, rfl⟩

end Hear

end Controller

namespace Scene

open Output

/-- A move, or the end of an output stream, which the watcher of a run reads. -/
inductive Act where
  | move (m : Move)
  | close (id : RunId) (stream : LogStream)

def act (s : Scene) : Act → Scene
  | .move m => s.step m
  | .close id stream => { s with controller := s.controller.close id stream }

def perform (s : Scene) (acts : List Act) : Scene := acts.foldl act s

/-- What the watcher of a run hears of an act. -/
def Act.heard? (id : RunId) : Act → Option Heard
  | .move (.output id' stream bs) => if id' = id then some (.piece stream bs) else none
  | .close id' stream => if id' = id then some (.ended stream) else none
  | _ => none

def heard (id : RunId) (acts : List Act) : List Heard := acts.filterMap (Act.heard? id)

section Acts

variable {s s₁ : Scene} {id : RunId} {hs : List Heard}

theorem perform_append (acts acts' : List Act) :
    s.perform (acts ++ acts') = (s.perform acts).perform acts' := List.foldl_append

theorem Kept.hear (hs : s.Kept) (id : RunId) (h : Heard) :
    Kept { s with controller := s.controller.hear id h } := by
  have hsound := hs.sound.hear id h
  rcases hs.sound.hear_cases id h with hsame | ⟨w, hws, -, -, hheard⟩
  · rw [hsame]
    exact hs
  · rw [hheard] at hsound ⊢
    have haside := Controller.isAside_logsOf id (w.pending.hear h).2
    refine ⟨hsound, hs.tools, ?_, ?_⟩
    · simp only [Event.startedIds_append, Event.startedIds_aside haside, List.append_nil, hs.started]
    · simp only [Event.finishedIds_append, Event.finishedIds_aside haside, List.append_nil, hs.finished]

theorem Kept.act (hs : s.Kept) (a : Act) : (s.act a).Kept := by
  cases a with
  | move m => exact hs.step m
  | close id stream => exact hs.hear id (.ended stream)

theorem Kept.perform (hs : s.Kept) (acts : List Act) : (s.perform acts).Kept := by
  induction acts generalizing s with
  | nil => exact hs
  | cons a acts ih => exact ih (hs.act a)

/-- The runs that were started are those that have ended and the active one. -/
theorem Kept.launched_eq (hs : s.Kept) : s.launched = s.reported ++ s.controller.state.activeId.toList := by
  have hbalance := Event.started_eq_finished hs.sound.ordered
  rw [← hs.started, ← hs.finished]
  simpa only [Option.toList_none, List.nil_append] using hbalance

theorem Kept.active_of_reportable (hs : s.Kept) {code : Int32} (hcode : s.reportable? id = some code) :
    s.controller.state.activeId = some id := by
  obtain ⟨w, hw, rfl⟩ := hs.watcher_of_reportable hcode
  exact hs.sound.activeId_of_watcher hw

/-- The active run has not ended, if its identifier was given once. -/
theorem Kept.not_reported_of_active (hs : s.Kept) (hactive : s.controller.state.activeId = some id)
    (honce : s.launched.count id ≤ 1) : id ∉ s.reported := by
  rw [hs.launched_eq, hactive, Option.toList_some, List.count_append, List.count_singleton_self] at honce
  exact List.count_eq_zero.mp (by omega)

/-! What was started, what has ended and what was sent only grow, and only the active run has lines. -/

structure Onward (s s' : Scene) : Prop where
  launched : s.launched <+: s'.launched
  reported : s.reported <+: s'.reported
  sent : ∃ es, s'.controller.sent = s.controller.sent ++ es ∧
    ∀ id, s.controller.state.activeId ≠ some id → Event.logged id es = []

theorem Onward.of_sent {s' : Scene} {es : List Event} (hlaunched : s'.launched = s.launched)
    (hreported : s'.reported = s.reported) (hsent : s'.controller.sent = s.controller.sent ++ es)
    (hlogged : ∀ id, s.controller.state.activeId ≠ some id → Event.logged id es = []) : Onward s s' :=
  ⟨hlaunched ▸ List.prefix_rfl, hreported ▸ List.prefix_rfl, es, hsent, hlogged⟩

theorem Onward.still {s' : Scene} (hlaunched : s'.launched = s.launched)
    (hreported : s'.reported = s.reported) (hsent : s'.controller.sent = s.controller.sent) : Onward s s' :=
  .of_sent hlaunched hreported (hsent.trans (List.append_nil _).symm) fun _ _ => rfl

theorem Kept.onward_hear (hs : s.Kept) (id : RunId) (h : Heard) :
    Onward s { s with controller := s.controller.hear id h } := by
  rcases hs.sound.hear_cases id h with hsame | ⟨w, -, -, hactive, hheard⟩
  · exact .still rfl rfl (congrArg Controller.sent hsame)
  · refine .of_sent rfl rfl (congrArg Controller.sent hheard) ?_
    intro id' hne
    refine Event.logged_logsOf_ne ?_ _
    rintro rfl
    exact hne hactive

theorem Kept.onward_step (hs : s.Kept) (m : Move) : Onward s (s.step m) := by
  cases m with
  | start host locator form birth =>
    rcases hstart : s.controller.start host locator form birth with fault | launched
    · simp only [Scene.step, hstart]
      exact .still rfl rfl rfl
    · obtain ⟨-, hlaunched⟩ := Controller.start_eq_ok hstart
      simp only [Scene.step, hstart]
      exact ⟨List.prefix_append _ _, List.prefix_rfl, _, congrArg Controller.sent hlaunched, fun _ _ => rfl⟩
  | cancel =>
    rcases hcancel : s.controller.cancel? with _ | k
    · simp only [Scene.step, hcancel]
      exact .still rfl rfl rfl
    · obtain ⟨_, _, _, _, hsent⟩ := Controller.cancel?_eq_some hcancel
      simp only [Scene.step, hcancel]
      exact .still rfl rfl hsent
  | acknowledge =>
    rcases hack : s.controller.acknowledge? with _ | k
    · simp only [Scene.step, hack]
      exact .still rfl rfl rfl
    · obtain ⟨_, _, rfl⟩ := Controller.acknowledge?_eq_some hack
      simp only [Scene.step, hack]
      exact .of_sent rfl rfl rfl fun _ _ => rfl
  | snapshot => exact .still rfl rfl rfl
  | attend id => exact .still rfl rfl rfl
  | output id stream bs => exact hs.onward_hear id (.piece stream bs)
  | exit id code => exact .still rfl rfl rfl
  | report id =>
    rcases hcode : s.reportable? id with _ | code
    · simp only [Scene.step, hcode]
      exact .still rfl rfl rfl
    · obtain ⟨w, hw, rfl⟩ := hs.watcher_of_reportable hcode
      obtain ⟨run, f, -, -, -, hreport⟩ := hs.sound.report_of_watcher hw code
      simp only [Scene.step, hcode]
      refine ⟨List.prefix_rfl, List.prefix_append _ _, _, congrArg Controller.sent hreport, ?_⟩
      intro id' hne
      have hother : w.run ≠ id' := by
        rintro rfl
        exact hne (hs.sound.activeId_of_watcher hw)
      rw [Event.logged_append, Event.logged_logsOf_ne hother, Event.logged_ending, List.append_nil]

theorem Kept.onward (hs : s.Kept) (a : Act) : Onward s (s.act a) := by
  cases a with
  | move m => exact hs.onward_step m
  | close id stream => exact hs.onward_hear id (.ended stream)

theorem Kept.launched_prefix (hs : s.Kept) (acts : List Act) : s.launched <+: (s.perform acts).launched := by
  induction acts generalizing s with
  | nil => exact List.prefix_rfl
  | cons a acts ih => exact (hs.onward a).launched.trans (ih (hs.act a))

/-- Nothing is forwarded for a run that has ended, or that has not been started, if it is not started any
    more. -/
theorem Kept.silent (hs : s.Kept) (acts : List Act)
    (hcount : (s.perform acts).launched.count id ≤ s.reported.count id) :
    ∃ es, (s.perform acts).controller.sent = s.controller.sent ++ es ∧ Event.logged id es = [] := by
  induction acts generalizing s with
  | nil => exact ⟨[], (List.append_nil _).symm, rfl⟩
  | cons a acts ih =>
    have hidle : s.controller.state.activeId ≠ some id := by
      intro hactive
      have hgrown := ((hs.launched_prefix (a :: acts)).sublist.count_le id).trans hcount
      rw [hs.launched_eq, hactive, Option.toList_some, List.count_append, List.count_singleton_self] at hgrown
      omega
    obtain ⟨es, hsent, hlogged⟩ := (hs.onward a).sent
    have hlater := ih (hs.act a) (hcount.trans ((hs.onward a).reported.sublist.count_le id))
    obtain ⟨es', hsent', hlogged'⟩ := hlater
    refine ⟨es ++ es', ?_, ?_⟩
    · rw [← List.append_assoc, ← hsent]
      exact hsent'
    · rw [Event.logged_append, hlogged id hidle, hlogged']
      rfl

/-! While the run is active, its watcher hears everything, and nothing else is sent. -/

structure Watched (s₁ : Scene) (id : RunId) (hs : List Heard) (s : Scene) : Prop where
  watcher : ∃ w, s.controller.watchers = [w] ∧ w.run = id ∧ w.pending = (Pending.hearAll {} hs).1
  sent : s.controller.sent = s₁.controller.sent ++ Controller.logsOf id (Pending.hearAll {} hs).2

theorem Watched.congr {s' : Scene} (h : Watched s₁ id hs s) (hcontroller : s'.controller = s.controller) :
    Watched s₁ id hs s' := ⟨hcontroller ▸ h.watcher, hcontroller ▸ h.sent⟩

theorem Watched.active (hs' : s.Kept) (h : Watched s₁ id hs s) : s.controller.state.activeId = some id := by
  obtain ⟨w, hws, rfl, -⟩ := h.watcher
  exact hs'.sound.activeId_of_watcher (hws ▸ List.mem_singleton_self w)

theorem Watched.not_idle (hs' : s.Kept) (h : Watched s₁ id hs s) : s.controller.state.active ≠ none := by
  intro hidle
  have hactive := h.active hs'
  rw [RunState.activeId, hidle] at hactive
  cases hactive

theorem Watched.hear (h : Watched s₁ id hs s) (x : Heard) :
    Watched s₁ id (hs ++ [x]) { s with controller := s.controller.hear id x } := by
  obtain ⟨w, hws, rfl, hpending⟩ := h.watcher
  rw [Controller.hear_of_watcher hws x]
  refine ⟨⟨{ w with pending := _ }, rfl, rfl, ?_⟩, ?_⟩
  · rw [Pending.hearAll_concat, hpending]
  · rw [Pending.hearAll_concat, Controller.logsOf_append, ← List.append_assoc, ← h.sent, hpending]

/-- What is heard of another tool is heard by no watcher. -/
theorem Watched.not_heard (h : Watched s₁ id hs s) {id' : RunId} (hne : id' ≠ id) (x : Heard) :
    Watched s₁ id hs { s with controller := s.controller.hear id' x } := by
  obtain ⟨w, hws, hid, -⟩ := h.watcher
  have hnone : s.controller.watcher? id' = none :=
    Controller.watcher?_eq_none_of_ne hws fun heq => hne (heq.symm.trans hid)
  exact h.congr (Controller.hear_of_no_watcher hnone x)

theorem Watched.step (hkept : s.Kept) (h : Watched s₁ id hs s) (m : Move)
    (hstill : id ∉ (s.step m).reported) :
    Watched s₁ id (hs ++ (Act.heard? id (.move m)).toList) (s.step m) := by
  have hsame {s' : Scene} (hcontroller : s'.controller = s.controller) : Watched s₁ id (hs ++ []) s' := by
    rw [List.append_nil]
    exact h.congr hcontroller
  cases m with
  | start host locator form birth =>
    rcases hstart : s.controller.start host locator form birth with fault | launched
    · exact hsame (by simp only [Scene.step, hstart])
    · exact absurd (Controller.start_eq_ok hstart).1 (h.not_idle hkept)
  | cancel =>
    rcases hcancel : s.controller.cancel? with _ | k
    · exact hsame (by simp only [Scene.step, hcancel])
    · obtain ⟨_, _, _, _, hsent⟩ := Controller.cancel?_eq_some hcancel
      obtain ⟨w, hws, rfl, hpending⟩ := h.watcher
      obtain ⟨w', hws', hid, hkeeps⟩ := Controller.watchers_of_cancel? hcancel hws
      simp only [Scene.step, hcancel, Act.heard?, Option.toList_none, List.append_nil]
      exact ⟨⟨w', hws', hid, hkeeps.trans hpending⟩, hsent.trans h.sent⟩
  | acknowledge =>
    rcases hack : s.controller.acknowledge? with _ | k
    · exact hsame (by simp only [Scene.step, hack])
    · exact absurd (Controller.acknowledge?_eq_some hack).1 (h.not_idle hkept)
  | snapshot => exact hsame rfl
  | attend id' => exact hsame rfl
  | output id' stream bs =>
    by_cases hid : id' = id
    · rw [hid, Act.heard?, if_pos rfl]
      exact h.hear (.piece stream bs)
    · rw [Act.heard?, if_neg hid, Option.toList_none, List.append_nil]
      exact h.not_heard hid (.piece stream bs)
  | exit id' code => exact hsame rfl
  | report id' =>
    rcases hcode : s.reportable? id' with _ | code
    · exact hsame (by simp only [Scene.step, hcode])
    · -- only the watcher of this run is there, and it has not reported
      obtain ⟨w, hw, hid⟩ := hkept.watcher_of_reportable hcode
      obtain ⟨w', hws, hid', -⟩ := h.watcher
      rw [hws, List.mem_singleton] at hw
      refine absurd ?_ hstill
      rw [Scene.step, hcode, ← hid, hw, hid']
      exact List.mem_append_right _ (List.mem_singleton_self id)

theorem Watched.act (hkept : s.Kept) (h : Watched s₁ id hs s) (a : Act) (hstill : id ∉ (s.act a).reported) :
    Watched s₁ id (hs ++ (a.heard? id).toList) (s.act a) := by
  cases a with
  | move m => exact h.step hkept m hstill
  | close id' stream =>
    by_cases hid : id' = id
    · rw [hid, Act.heard?, if_pos rfl]
      exact h.hear (.ended stream)
    · rw [Act.heard?, if_neg hid, Option.toList_none, List.append_nil]
      exact h.not_heard hid (.ended stream)

theorem Watched.perform (hkept : s₁.Kept) (h : Watched s₁ id [] s₁) (acts : List Act)
    (hstill : id ∉ (s₁.perform acts).reported) : Watched s₁ id (heard id acts) (s₁.perform acts) := by
  induction acts using List.reverseRecOn with
  | nil => exact h
  | append_singleton acts a ih =>
    have hacts := hkept.perform acts
    rw [perform_append] at hstill ⊢
    have hbefore : id ∉ (s₁.perform acts).reported := fun hmem =>
      hstill ((hacts.onward a).reported.subset hmem)
    rw [heard, List.filterMap_append, filterMap_one]
    exact (ih hbefore).act hacts a hstill

end Acts

/-! ### From the start of a run to its end -/

section Run

variable {s s₁ : Scene} {host : Host} {locator : Locator} {form : Configuration} {birth : Invocation.Birth}
  {launched : Controller.Launched} {id : RunId} {hs : List Heard} {code : Int32}

theorem watched_of_start (hkept : s.Kept)
    (hstart : s.controller.start host locator form birth = .ok launched) :
    let s₁ := s.step (.start host locator form birth)
    Watched s₁ birth.id [] s₁ ∧ s₁.launched = s.launched ++ [birth.id] ∧
      s₁.controller.sent =
        s.controller.sent ++ RunState.beginning (birth.run form) launched.command.display := by
  intro s₁
  obtain ⟨hidle, hlaunched⟩ := Controller.start_eq_ok hstart
  have hs₁ : s₁ =
      { s with
        controller := launched.controller
        tools := s.tools ++ [{ run := birth.id }]
        launched := s.launched ++ [birth.id] } := by
    simp only [s₁, Scene.step, hstart]
  have hwatchers : s₁.controller.watchers = [{ run := birth.id }] := by
    rw [hs₁, hlaunched, hkept.sound.watchers_nil hidle]
    rfl
  refine ⟨⟨⟨_, hwatchers, rfl, rfl⟩, (List.append_nil _).symm⟩, ?_, ?_⟩
  · rw [hs₁]
  · rw [hs₁, hlaunched]

/-- The report sends what is left of the output, and after that the end of the run. -/
theorem Watched.report (hkept : s.Kept) (h : Watched s₁ id hs s) (hcode : s.reportable? id = some code) :
    ∃ run outcome, run.id = id ∧ (s.step (.report id)).reported = s.reported ++ [id] ∧
      (s.step (.report id)).controller.sent = s₁.controller.sent ++
        (Controller.logsOf id (forwarded hs) ++ RunState.ending run outcome) := by
  obtain ⟨w, hws, rfl, hpending⟩ := h.watcher
  obtain ⟨run, f, -, hid, -, hreport⟩ := hkept.sound.report_of_watcher (hws ▸ List.mem_singleton_self w) code
  refine ⟨run, RunState.ActiveRun.outcome run code, hid, ?_, ?_⟩
  · simp only [Scene.step, hcode]
  · simp only [Scene.step, hcode, hreport, h.sent, hpending, forwarded, Controller.logsOf_append,
      List.append_assoc]

/-- From its start to its report a run sends its beginning, the lines of all that its watcher has heard, and its
    end, and nothing comes in between. -/
theorem Kept.sent_of_run (hkept : s.Kept)
    (hstart : s.controller.start host locator form birth = .ok launched) (during : List Act)
    (hcode : ((s.step (.start host locator form birth)).perform during).reportable? birth.id = some code)
    (hstill : birth.id ∉ ((s.step (.start host locator form birth)).perform during).reported) :
    let s₂ := (s.step (.start host locator form birth)).perform during
    ∃ run outcome, run.id = birth.id ∧ (s₂.step (.report birth.id)).reported = s₂.reported ++ [birth.id] ∧
      (s₂.step (.report birth.id)).controller.sent = s.controller.sent ++
        (RunState.beginning (birth.run form) launched.command.display ++
          (Controller.logsOf birth.id (forwarded (heard birth.id during)) ++
            RunState.ending run outcome)) := by
  intro s₂
  have hkept₁ := hkept.step (.start host locator form birth)
  obtain ⟨hwatched, -, hbeginning⟩ := watched_of_start hkept hstart
  obtain ⟨run, outcome, hid, hreported, hsent⟩ :=
    (hwatched.perform hkept₁ during hstill).report (hkept₁.perform during) hcode
  refine ⟨run, outcome, hid, hreported, ?_⟩
  rw [hsent, hbeginning, List.append_assoc]

/-- **What a tool writes is forwarded line by line, between the start and the finish of its run.**  After any
    acts a run is started, any acts follow, and then its watcher reports. Whatever the watcher heard until then
    is cut into pieces anywhere, the streams mixed in any way, each ended or not; only, nothing comes from a
    stream that has ended. Any acts follow again, and no other run has the same identifier. Then all lines with
    this identifier stand behind the start of the run and before its finish. Those of each stream are the
    pieces between the line feeds of its output, in their order: a carriage return in front of the line
    feed is dropped, the last piece needs no line feed, and left out are just the pieces that are no text or
    blank. -/
theorem output_forwarded (before during later : List Act) (host : Host) (locator : Locator)
    (form : Configuration) (birth : Invocation.Birth) (launched : Controller.Launched) (code : Int32) :
    let s := ({} : Scene).perform before
    let s₁ := s.step (.start host locator form birth)
    let s₂ := s₁.perform during
    let s₃ := (s₂.step (.report birth.id)).perform later
    s.controller.start host locator form birth = .ok launched → s₂.reportable? birth.id = some code →
      Output.Orderly (heard birth.id during) → s₃.launched.count birth.id = 1 →
      ∃ lines closing outcome rest,
        s₃.controller.sent = s.controller.sent ++
          (.runStarted birth.id birth.pid launched.command.display birth.time ::
            RunState.announcement .inProgress ::
              (Controller.logsOf birth.id lines ++ (closing ++ .runFinished birth.id outcome :: rest))) ∧
        Event.logged birth.id s₃.controller.sent = lines ∧
        ∀ stream, ∃ pieces last,
          Line.Cut (Output.written stream (heard birth.id during)) pieces last ∧
          Output.linesOf stream lines =
            (pieces.map Line.withoutReturn ++ [last]).filterMap Output.shown? := by
  intro s s₁ s₂ s₃ hstart hcode horderly hcount
  have hkept : s.Kept := kept_first.perform before
  have hkept₁ : s₁.Kept := hkept.step _
  have hkept₂ : s₂.Kept := hkept₁.perform during
  have hkept₃ : (s₂.step (.report birth.id)).Kept := hkept₂.step _
  -- No other run has the identifier: none before, and this one has not ended until its report.
  have hgrown : s₂.launched <+: s₃.launched :=
    (hkept₂.onward_step (.report birth.id)).launched.trans (hkept₃.launched_prefix later)
  have hfirst : s.launched.count birth.id = 0 := by
    have hle := ((hkept₁.launched_prefix during).trans hgrown).sublist.count_le birth.id
    rw [(watched_of_start hkept hstart).2.1, List.count_append, List.count_singleton_self, hcount] at hle
    omega
  have hstill : birth.id ∉ s₂.reported := by
    refine hkept₂.not_reported_of_active (hkept₂.active_of_reportable hcode) ?_
    exact (hgrown.sublist.count_le birth.id).trans hcount.le
  obtain ⟨run, outcome, hid, hreported, hsent⟩ := hkept.sent_of_run hstart during hcode hstill
  obtain ⟨early, hearly, hnothing⟩ := kept_first.silent before (hfirst.trans_le (Nat.zero_le _))
  have hended : s₃.launched.count birth.id ≤ (s₂.step (.report birth.id)).reported.count birth.id := by
    rw [hcount, hreported, List.count_append, List.count_singleton_self]
    omega
  obtain ⟨rest, hrest, hlater⟩ := hkept₃.silent later hended
  have hall : s₃.controller.sent = s.controller.sent ++
      (RunState.beginning (birth.run form) launched.command.display ++
        (Controller.logsOf birth.id (forwarded (heard birth.id during)) ++
          (RunState.ending run outcome ++ rest))) := by
    rw [hrest, hsent]
    simp only [List.append_assoc]
  obtain ⟨asides, -, hending⟩ := RunState.ending_eq run outcome
  refine ⟨forwarded (heard birth.id during), asides, outcome, rest, ?_, ?_, ?_⟩
  · rw [hall, hending, hid, List.append_assoc]
    rfl
  · have hsilent : Event.logged birth.id s.controller.sent = [] := by
      rw [hearly]
      exact hnothing
    simp only [hall, Event.logged_append, hsilent, Event.logged_beginning, Event.logged_logsOf,
      Event.logged_ending, hlater, List.append_nil, List.nil_append]
  · intro stream
    obtain ⟨pieces, last, hcut⟩ := Line.exists_cut (Output.written stream (heard birth.id during))
    exact ⟨pieces, last, hcut, linesOf_forwarded horderly hcut⟩

/-! A tool that is cancelled too late: its lines end in different ways, one of them is no text, and the first
stream ends before the second. -/

def tornForm : Configuration := { inputPath := some [0x6F] }

def tornBirth : Invocation.Birth := ⟨⟨7⟩, none, .epoch⟩

def tornActs : List Act :=
  [.move (.attend ⟨7⟩), .move (.output ⟨7⟩ .stdout (Utf8.encode "a\r")),
    .move (.output ⟨7⟩ .stderr [0xFF, 0x0A]), .move (.output ⟨7⟩ .stdout (Utf8.encode "\nb")),
    .close ⟨7⟩ .stdout, .move (.exit ⟨7⟩ 0), .move (.output ⟨7⟩ .stderr (Utf8.encode "c\n ")),
    .move .cancel]

theorem output_forwarded_torn :
    ∃ launched closing outcome rest,
      (((((({} : Scene).perform []).step (.start .obliging {} tornForm tornBirth)).perform tornActs).step
        (.report tornBirth.id)).perform [.move .acknowledge]).controller.sent =
      (({} : Scene).perform []).controller.sent ++
        (.runStarted tornBirth.id tornBirth.pid (Controller.Launched.command launched).display tornBirth.time ::
          RunState.announcement .inProgress ::
            (Controller.logsOf tornBirth.id [(.stdout, "a"), (.stdout, "b"), (.stderr, "c")] ++
              (closing ++ .runFinished tornBirth.id outcome :: rest))) := by
  have hready : Invocation.Ready .obliging {} (({} : Scene).perform []).controller.state tornForm :=
    ⟨rfl, ⟨[0x6F], [], rfl, rfl, rfl⟩, _, _, rfl, rfl, rfl⟩
  obtain ⟨launched, hstart⟩ := (Controller.exists_start_iff tornBirth).mpr hready
  obtain ⟨lines, closing, outcome, rest, hsent, hlogged, -⟩ :=
    output_forwarded [] tornActs [.move .acknowledge] .obliging {} tornForm tornBirth launched 0 hstart
      (by decide +kernel) (by decide +kernel) (by decide +kernel)
  have hlines : lines = [(.stdout, "a"), (.stdout, "b"), (.stderr, "c")] := by
    rw [← hlogged]
    decide +kernel
  rw [hlines] at hsent
  exact ⟨launched, closing, outcome, rest, hsent⟩

end Run

end Scene

end Cuesheet
