import Cuesheet.Proofs.Run.InStep

/-!
# Who asked for the end

How a run ends is decided by everything that came since it began, and not by the move that ends it: a run
counts as cancelled if a request to cancel was accepted meanwhile, and only otherwise does the code of the
tool count. The state keeps one bit of this past, and the bit is right for every run: `Watch` says so, for
the moves since the last begin, and each of these moves keeps it.

With the first request goes a signal to the watcher of the run. The state only tells whether it is sent.
Here the way of the signal is laid out in full. Each run has a `Channel` of its own; the active run holds
the sending end, gives it away with the first request, and drops it when it ends. So a channel carries at
most one signal, and only while its run is active. Channels are told apart by the order in which the runs
began, since identifiers may repeat.
-/

namespace Cuesheet.RunState

theorem History.after?_snoc (moves : List Move) (m : Move) :
    History.after? (moves ++ [m]) = (History.after? moves).bind fun h => h.move? m := by
  simp only [History.after?, List.foldlM_append, List.foldlM_cons, List.foldlM_nil, bind_pure]
  rfl

/-! ### Requests since a begin -/

/-- A request to cancel that comes behind these moves is accepted. -/
def Accepted (past : List Move) : Prop :=
  ∃ h, History.after? past = some h ∧ h.state.refuses .cancel = false

/-- Among the moves `since`, which came after `past`, is an accepted request to cancel. -/
def Asked (past since : List Move) : Prop :=
  ∃ pre post, since = pre ++ .cancel :: post ∧ Accepted (past ++ pre)

/-- Move number `n` is the first accepted request among the moves `since`, and the watcher
    had not stopped listening before it. -/
def SignalDue (past since : List Move) (n : Nat) : Prop :=
  ∃ pre post, since = pre ++ .cancel :: post ∧ Accepted (past ++ pre) ∧ ¬ Asked past pre ∧
    .leave ∉ pre ∧ n = (past ++ pre).length

/-- A place in a list with one more element is an older place, or the new one. -/
theorem exists_split_snoc {α : Type} {P : List α → Prop} (xs : List α) (x y : α) :
    (∃ pre post, xs ++ [x] = pre ++ y :: post ∧ P pre) ↔
      (∃ pre post, xs = pre ++ y :: post ∧ P pre) ∨ (x = y ∧ P xs) := by
  constructor
  · rintro ⟨pre, post, hsplit, hpre⟩
    rcases List.eq_nil_or_concat post with rfl | ⟨post', z, rfl⟩
    · obtain ⟨rfl, hlast⟩ := List.append_inj' hsplit rfl
      obtain rfl := List.singleton_inj.mp hlast
      exact .inr ⟨rfl, hpre⟩
    · rw [List.concat_eq_append, ← List.cons_append, ← List.append_assoc] at hsplit
      exact .inl ⟨pre, post', (List.append_inj' hsplit rfl).1, hpre⟩
  · rintro (⟨pre, post, rfl, hpre⟩ | ⟨rfl, hxs⟩)
    · exact ⟨pre, post ++ [x], by rw [List.append_assoc, List.cons_append], hpre⟩
    · exact ⟨xs, [], rfl, hxs⟩

theorem not_split_nil {α : Type} {P : List α → Prop} (y : α) :
    ¬ ∃ pre post, [] = pre ++ y :: post ∧ P pre := by
  rintro ⟨pre, post, hsplit, _⟩
  exact List.append_ne_nil_of_right_ne_nil pre (List.cons_ne_nil _ post) hsplit.symm

theorem asked_nil (past : List Move) : ¬ Asked past [] := not_split_nil Move.cancel

theorem asked_snoc (past since : List Move) (m : Move) :
    Asked past (since ++ [m]) ↔ Asked past since ∨ (m = .cancel ∧ Accepted (past ++ since)) :=
  exists_split_snoc since m .cancel

theorem signalDue_nil (past : List Move) (n : Nat) : ¬ SignalDue past [] n :=
  not_split_nil Move.cancel

theorem signalDue_snoc (past since : List Move) (m : Move) (n : Nat) :
    SignalDue past (since ++ [m]) n ↔ SignalDue past since n ∨
      (m = .cancel ∧ Accepted (past ++ since) ∧ ¬ Asked past since ∧ .leave ∉ since ∧
        n = (past ++ since).length) :=
  exists_split_snoc since m .cancel

/-- A signal comes with an accepted request. -/
theorem SignalDue.asked {past since : List Move} {n : Nat} (h : SignalDue past since n) :
    Asked past since := by
  obtain ⟨pre, post, hsplit, haccepted, _⟩ := h
  exact ⟨pre, post, hsplit, haccepted⟩

theorem accepted_iff {past : List Move} {h : History} (hh : History.after? past = some h) :
    Accepted past ↔ ∃ run, h.state.active = some run := by
  have hrefuses : h.state.refuses .cancel = false ↔ ∃ run, h.state.active = some run := by
    rw [refuses, Option.isNone_eq_false_iff, cancel?, Option.isSome_map,
      Option.isSome_iff_exists]
  constructor
  · rintro ⟨h', hh', haccepts⟩
    obtain rfl := Option.some.inj (hh.symm.trans hh')
    exact hrefuses.mp haccepts
  · intro hrun
    exact ⟨h, hh, hrefuses.mpr hrun⟩

/-- The last begin among some moves, with what came before and since. -/
theorem exists_last_begin {moves : List Move} (hne : openings moves ≠ []) :
    ∃ before o since, moves = before ++ .begin o :: since ∧ openings since = [] := by
  induction moves using List.reverseRecOn with
  | nil => exact absurd rfl hne
  | append_singleton moves m ih =>
    rcases hm : m.opening? with _ | o
    · rw [openings_snoc moves hm] at hne
      obtain ⟨before, o, since, rfl, hsince⟩ := ih hne
      refine ⟨before, o, since ++ [m], by rw [List.append_assoc, List.cons_append], ?_⟩
      rw [openings_snoc since hm, hsince]
    · cases m with
      | begin o' => exact ⟨moves, o', [], rfl, rfl⟩
      | _ => cases hm

/-! ### Channels -/

/-- The way of the signal to one watcher. -/
structure Channel where
  listening : Bool := true
  /-- The moves at which the signal arrived, by their numbers. -/
  received : List Nat := []
deriving DecidableEq, Repr

def Channel.signal (time : Nat) (c : Channel) : Channel :=
  if c.listening then { c with received := c.received ++ [time] } else c

def Channel.leave (c : Channel) : Channel := { c with listening := false }

/-- A history with the channels of all runs that began, the oldest first. -/
structure Wiring where
  history : History := {}
  clock : Nat := 0
  channels : List Channel := []
  /-- The channel whose sending end the active run still holds. -/
  sender : Option Nat := none
deriving DecidableEq, Repr

namespace Wiring

/-- The signal goes out on the channel whose sending end is held, if one is. -/
def send (w : Wiring) : List Channel :=
  match w.sender with
  | none => w.channels
  | some k => w.channels.modify k (Channel.signal w.clock)

/-- The wiring after one more move, with what the move makes of the history. -/
def next (w : Wiring) (m : Move) (history : History) : Wiring :=
  let w' := { w with history := history, clock := w.clock + 1 }
  if w.history.state.refuses m then w'
  else match m with
    | .begin _ => { w' with channels := w.channels ++ [{}], sender := some w.channels.length }
    | .cancel => { w' with channels := w.send, sender := none }
    | .finish _ _ => { w' with sender := none }
    | .acknowledge => w'
    | .leave => { w' with channels := w.channels.modify (w.channels.length - 1) Channel.leave }

def move? (w : Wiring) (m : Move) : Option Wiring := (w.history.move? m).map (w.next m)

def after? (moves : List Move) : Option Wiring := moves.foldlM move? {}

theorem after?_snoc (moves : List Move) (m : Move) :
    after? (moves ++ [m]) = (after? moves).bind fun w => w.move? m := by
  simp only [after?, List.foldlM_append, List.foldlM_cons, List.foldlM_nil, bind_pure]
  rfl

theorem next_history (w : Wiring) (m : Move) (h : History) : (w.next m h).history = h := by
  simp only [next]
  split
  · rfl
  · cases m <;> rfl

/-- Channels do not change the history. -/
theorem history_after? (moves : List Move) :
    (after? moves).map Wiring.history = History.after? moves := by
  induction moves using List.reverseRecOn with
  | nil => rfl
  | append_singleton moves m ih =>
    rw [after?_snoc, History.after?_snoc, ← ih]
    rcases after? moves with _ | w
    · rfl
    · have hsame : Wiring.history ∘ w.next m = id := funext (w.next_history m)
      rw [Option.bind_some, Option.map_some, Option.bind_some, move?, Option.map_map, hsame,
        Option.map_id, id]

/-- Everything a move can do to the active run and to the channels. -/
inductive Turn (w : Wiring) : Move → Wiring → Prop where
  | begun {h : History} (o : Opening) (hrun : h.state.active = some o.run) :
      Turn w (.begin o)
        { history := h, clock := w.clock + 1, channels := w.channels ++ [{}]
          sender := some w.channels.length }
  | asked {h : History} (run : ActiveRun) (hrun : w.history.state.active = some run)
      (hasked : h.state.active = some { run with cancelRequested := true }) :
      Turn w .cancel { history := h, clock := w.clock + 1, channels := w.send, sender := none }
  | ended {h : History} (id : RunId) (code : Int32) (hidle : h.state.active = none) :
      Turn w (.finish id code) { w with history := h, clock := w.clock + 1, sender := none }
  | left {h : History}
      (hleft : h.state.active = w.history.state.active.map fun run => { run with watched := false }) :
      Turn w .leave
        { w with
          history := h, clock := w.clock + 1
          channels := w.channels.modify (w.channels.length - 1) Channel.leave }
  /-- The active run stays as it was. -/
  | quiet {h : History} {m : Move} (hbegin : m.opening? = none) (hleave : m ≠ .leave)
      (hcancel : m = .cancel → w.history.state.active = none)
      (hsame : h.state.active = w.history.state.active) :
      Turn w m { w with history := h, clock := w.clock + 1 }

theorem turn {w w' : Wiring} {m : Move} (hw : w.move? m = some w') : Turn w m w' := by
  obtain ⟨h, hm, rfl⟩ := Option.map_eq_some_iff.mp hw
  cases m with
  | begin o =>
    cases History.change_of_move hm with
    | begun _ _ => exact .begun o rfl
    | kept hbegin => cases hbegin
  | cancel =>
    rcases hc : w.history.state.cancel? with _ | c
    · have hrefused : w.history.state.refuses .cancel = true := by rw [refuses, hc]; rfl
      obtain rfl := Option.some.inj ((History.move?_of_refuses hrefused).symm.trans hm)
      have hidle := isRunning_eq_false.mp (cancel?_eq_none_iff.mp hc)
      simp only [next, hrefused, if_true]
      exact .quiet rfl (by rintro ⟨⟩) (fun _ => hidle) rfl
    · have haccepted : w.history.state.refuses .cancel = false := by rw [refuses, hc]; rfl
      obtain ⟨run, hrun, rfl⟩ := cancel?_eq_some.mp hc
      simp only [History.move?, hc, Option.some.injEq] at hm
      subst hm
      simp only [next, haccepted, Bool.false_eq_true, if_false]
      exact .asked run hrun rfl
  | finish id code =>
    rcases hf : w.history.state.finish? id code with _ | f
    · have hrefused : w.history.state.refuses (.finish id code) = true := by rw [refuses, hf]; rfl
      obtain rfl := Option.some.inj ((History.move?_of_refuses hrefused).symm.trans hm)
      simp only [next, hrefused, if_true]
      exact .quiet rfl (by rintro ⟨⟩) (by rintro ⟨⟩) rfl
    · have haccepted : w.history.state.refuses (.finish id code) = false := by
        rw [refuses, hf]; rfl
      obtain ⟨run, hrun, hid, rfl⟩ := finish?_eq_some.mp hf
      simp only [History.move?, hf, Option.some.injEq] at hm
      subst hm
      simp only [next, haccepted, Bool.false_eq_true, if_false]
      exact .ended id code rfl
  | acknowledge =>
    have hsame : h.state.active = w.history.state.active := by
      cases History.change_of_move hm with
      | acknowledged _ _ => rfl
      | kept _ => rfl
    have hnext : w.next .acknowledge h = { w with history := h, clock := w.clock + 1 } := by
      simp only [next, ite_self]
    rw [hnext]
    exact .quiet rfl (by rintro ⟨⟩) (by rintro ⟨⟩) hsame
  | leave =>
    simp only [History.move?, Option.some.injEq] at hm
    subst hm
    exact .left rfl

/-! ### The moves since the last begin -/

/-- What is known of a run, and of its channel, after the moves since it began. The moves up
    to its begin are `past`, and the channels of the runs before it are `earlier`. -/
structure Watch (past since : List Move) (id : RunId) (earlier : List Channel) (own : Channel)
    (w : Wiring) : Prop where
  clock : w.clock = (past ++ since).length
  channels : w.channels = earlier ++ [own]
  listening : own.listening = true ↔ .leave ∉ since
  received : ∀ n, n ∈ own.received ↔ SignalDue past since n
  once : own.received.length ≤ 1
  run : ∀ run, w.history.state.active = some run →
    run.id = id ∧ (run.watched = true ↔ .leave ∉ since) ∧
      (run.cancelRequested = true ↔ Asked past since) ∧
      w.sender = if run.cancelRequested then none else some earlier.length

theorem modify_last (earlier : List Channel) (own : Channel) (f : Channel → Channel) :
    (earlier ++ [own]).modify earlier.length f = earlier ++ [f own] := by
  induction earlier with
  | nil => rfl
  | cons c earlier ih =>
    rw [List.cons_append, List.length_cons, List.modify_succ_cons, ih, List.cons_append]

section Watch

variable {past since : List Move} {id : RunId} {earlier : List Channel} {own : Channel}
  {w w' : Wiring}

theorem Watch.clock_snoc (hw : Watch past since id earlier own w) (m : Move) :
    w.clock + 1 = (past ++ (since ++ [m])).length := by
  simp only [hw.clock, List.length_append, List.length_singleton, Nat.add_assoc]

theorem leave_not_mem_snoc {m : Move} (hm : m ≠ .leave) :
    Move.leave ∉ since ++ [m] ↔ Move.leave ∉ since := by
  simp only [List.mem_append, List.mem_singleton, hm.symm, or_false]

theorem asked_unasked {m : Move} (hnot : ¬ (m = .cancel ∧ Accepted (past ++ since))) :
    Asked past (since ++ [m]) ↔ Asked past since := by
  rw [asked_snoc, or_iff_left hnot]

theorem signalDue_unasked {m : Move} (hnot : ¬ (m = .cancel ∧ Accepted (past ++ since))) (n : Nat) :
    SignalDue past (since ++ [m]) n ↔ SignalDue past since n := by
  rw [signalDue_snoc, or_iff_left]
  rintro ⟨hm, haccepted, _⟩
  exact hnot ⟨hm, haccepted⟩

/-- Nothing arrives that nobody asked for. -/
theorem Watch.received_nil (hw : Watch past since id earlier own w) (hnot : ¬ Asked past since) :
    own.received = [] := by
  apply List.eq_nil_iff_forall_not_mem.mpr
  intro n hn
  exact hnot ((hw.received n).mp hn).asked

theorem Watch.begun {before : List Move} {h : History} {o : Opening}
    (hclock : w.clock = before.length) (hrun : h.state.active = some o.run) :
    Watch (before ++ [Move.begin o]) [] o.id w.channels {}
      { history := h, clock := w.clock + 1, channels := w.channels ++ [{}]
        sender := some w.channels.length } where
  clock := by simp only [hclock, List.append_nil, List.length_append, List.length_singleton]
  channels := rfl
  listening := ⟨fun _ => List.not_mem_nil, fun _ => rfl⟩
  received n := ⟨fun hn => absurd hn List.not_mem_nil, fun hn => absurd hn (signalDue_nil _ n)⟩
  once := Nat.zero_le 1
  run := by
    intro run hactive
    obtain rfl := Option.some.inj (hrun.symm.trans hactive)
    refine ⟨rfl, ⟨fun _ => List.not_mem_nil, fun _ => rfl⟩, ⟨nofun, ?_⟩, rfl⟩
    intro hasked
    exact absurd hasked (asked_nil _)

/-- An accepted request: the first one sends the signal, and the others find no sending
    end any more. -/
theorem Watch.asked {h : History} {run : ActiveRun} (hw : Watch past since id earlier own w)
    (haccepted : Accepted (past ++ since)) (hrun : w.history.state.active = some run)
    (hasked : h.state.active = some { run with cancelRequested := true }) :
    ∃ own', Watch past (since ++ [Move.cancel]) id earlier own'
      { history := h, clock := w.clock + 1, channels := w.send, sender := none } := by
  obtain ⟨hid, hwatched, hrequested, hsender⟩ := hw.run run hrun
  have hleave : Move.leave ∉ since ++ [Move.cancel] ↔ Move.leave ∉ since := leave_not_mem_snoc nofun
  have hstate : ∀ run', h.state.active = some run' →
      run'.id = id ∧ (run'.watched = true ↔ .leave ∉ since ++ [Move.cancel]) ∧
        (run'.cancelRequested = true ↔ Asked past (since ++ [Move.cancel])) ∧
        none = if run'.cancelRequested then none else some earlier.length := by
    intro run' hrun'
    obtain rfl := Option.some.inj (hasked.symm.trans hrun')
    refine ⟨hid, hwatched.trans hleave.symm, ⟨fun _ => ?_, fun _ => rfl⟩, rfl⟩
    exact (asked_snoc past since .cancel).mpr (.inr ⟨rfl, haccepted⟩)
  by_cases hfirst : Asked past since
  · have hheld : w.sender = none := by rw [hsender, if_pos (hrequested.mpr hfirst)]
    have hsend : w.send = w.channels := by simp only [send, hheld]
    refine ⟨own, ⟨hw.clock_snoc _, hsend.trans hw.channels, hw.listening.trans hleave.symm, ?_,
      hw.once, hstate⟩⟩
    intro n
    rw [hw.received, signalDue_snoc, or_iff_left]
    rintro ⟨_, _, hnot, _⟩
    exact hnot hfirst
  · have hheld : w.sender = some earlier.length := by
      rw [hsender, if_neg (mt hrequested.mp hfirst)]
    have hsend : w.send = earlier ++ [own.signal w.clock] := by
      simp only [send, hheld, hw.channels, modify_last]
    have hnil := hw.received_nil hfirst
    by_cases hlistens : own.listening = true
    · have hown : own.signal w.clock = { own with received := [w.clock] } := by
        simp only [Channel.signal, if_pos hlistens, hnil, List.nil_append]
      have hstays := hw.listening.mp hlistens
      refine ⟨{ own with received := [w.clock] }, ⟨hw.clock_snoc _, by rw [hsend, hown],
        hw.listening.trans hleave.symm, ?_, Nat.le_refl 1, hstate⟩⟩
      intro n
      rw [signalDue_snoc, List.mem_singleton, hw.clock]
      constructor
      · intro hn
        exact .inr ⟨rfl, haccepted, hfirst, hstays, hn⟩
      · rintro (hdue | ⟨_, _, _, _, hn⟩)
        · exact absurd hdue.asked hfirst
        · exact hn
    · have hown : own.signal w.clock = own := by
        simp only [Channel.signal, if_neg hlistens]
      refine ⟨own, ⟨hw.clock_snoc _, by rw [hsend, hown], hw.listening.trans hleave.symm, ?_,
        hw.once, hstate⟩⟩
      intro n
      rw [hw.received, signalDue_snoc, or_iff_left]
      rintro ⟨_, _, _, hstays, _⟩
      exact hlistens (hw.listening.mpr hstays)

/-- Every move but a begin keeps watch of the run begun last. -/
theorem Watch.turn {m : Move} (hw : Watch past since id earlier own w)
    (hh : History.after? (past ++ since) = some w.history) (ht : Turn w m w')
    (hm : m.opening? = none) : ∃ own', Watch past (since ++ [m]) id earlier own' w' := by
  cases ht with
  | begun o hrun => cases hm
  | asked run hrun hasked => exact hw.asked ((accepted_iff hh).mpr ⟨run, hrun⟩) hrun hasked
  | ended id' code hidle =>
    have hother : Move.finish id' code ≠ .leave := nofun
    have hnot : ¬ (Move.finish id' code = .cancel ∧ Accepted (past ++ since)) := nofun
    refine ⟨own, ⟨hw.clock_snoc _, hw.channels, ?_, ?_, hw.once, ?_⟩⟩
    · rw [leave_not_mem_snoc hother]
      exact hw.listening
    · intro n
      rw [signalDue_unasked hnot]
      exact hw.received n
    · intro run hrun
      rw [hidle] at hrun
      cases hrun
  | left hleft =>
    have hlast : w.channels.modify (w.channels.length - 1) Channel.leave =
        earlier ++ [own.leave] := by
      rw [hw.channels, List.length_append, List.length_singleton, Nat.add_sub_cancel, modify_last]
    have hmem : Move.leave ∈ since ++ [Move.leave] := List.mem_append_right _ List.mem_cons_self
    have hnot : ¬ (Move.leave = .cancel ∧ Accepted (past ++ since)) := nofun
    refine ⟨own.leave, ⟨hw.clock_snoc _, hlast, ⟨nofun, fun hnot => absurd hmem hnot⟩, ?_,
      hw.once, ?_⟩⟩
    · intro n
      rw [signalDue_unasked hnot]
      exact hw.received n
    · intro run hrun
      rw [hleft] at hrun
      obtain ⟨run₀, hrun₀, rfl⟩ := Option.map_eq_some_iff.mp hrun
      obtain ⟨hid, _, hrequested, hsender⟩ := hw.run run₀ hrun₀
      refine ⟨hid, ⟨nofun, fun hnot => absurd hmem hnot⟩, ?_, hsender⟩
      rw [asked_unasked hnot]
      exact hrequested
  | quiet hbegin hleave hcancel hsame =>
    have hnot : ¬ (m = .cancel ∧ Accepted (past ++ since)) := by
      rintro ⟨hm, haccepted⟩
      obtain ⟨run, hrun⟩ := (accepted_iff hh).mp haccepted
      rw [hcancel hm] at hrun
      cases hrun
    refine ⟨own, ⟨hw.clock_snoc _, hw.channels, ?_, ?_, hw.once, ?_⟩⟩
    · rw [leave_not_mem_snoc hleave]
      exact hw.listening
    · intro n
      rw [signalDue_unasked hnot]
      exact hw.received n
    · intro run hrun
      rw [leave_not_mem_snoc hleave, asked_unasked hnot]
      exact hw.run run (hsame.symm.trans hrun)

end Watch

theorem clock_of_after {moves : List Move} {w : Wiring} (hw : after? moves = some w) :
    w.clock = moves.length := by
  induction moves using List.reverseRecOn generalizing w with
  | nil =>
    obtain rfl := Option.some.inj hw
    rfl
  | append_singleton moves m ih =>
    rw [after?_snoc] at hw
    obtain ⟨w₀, hw₀, hm⟩ := Option.bind_eq_some_iff.mp hw
    have hstep : w.clock = w₀.clock + 1 := by
      cases turn hm <;> rfl
    rw [hstep, ih hw₀, List.length_append, List.length_singleton]

/-- From its begin on, watch is kept of a run until another begins. -/
theorem watch_of_after {before since : List Move} {o : Opening} {w : Wiring}
    (hw : after? (before ++ [Move.begin o] ++ since) = some w) (hsince : openings since = []) :
    ∃ w₀ own, after? before = some w₀ ∧
      Watch (before ++ [Move.begin o]) since o.id w₀.channels own w := by
  induction since using List.reverseRecOn generalizing w with
  | nil =>
    rw [List.append_nil, after?_snoc] at hw
    obtain ⟨w₀, hw₀, hbegin⟩ := Option.bind_eq_some_iff.mp hw
    cases turn hbegin with
    | begun _ hrun => exact ⟨w₀, {}, hw₀, .begun (clock_of_after hw₀) hrun⟩
    | quiet hnone _ _ _ => cases hnone
  | append_singleton since m ih =>
    have hm : m.opening? = none := by
      rcases hm : m.opening? with _ | o'
      · rfl
      · rw [openings_append, List.append_eq_nil_iff] at hsince
        simp only [openings, List.filterMap_cons, hm, reduceCtorEq, and_false] at hsince
    rw [openings_snoc since hm] at hsince
    rw [← List.append_assoc, after?_snoc] at hw
    obtain ⟨w₁, hw₁, hmove⟩ := Option.bind_eq_some_iff.mp hw
    obtain ⟨w₀, own, hw₀, hwatch⟩ := ih hw₁ hsince
    have hh : History.after? (before ++ [Move.begin o] ++ since) = some w₁.history := by
      rw [← history_after?, hw₁, Option.map_some]
    obtain ⟨own', hwatch'⟩ := hwatch.turn hh (turn hmove) hm
    exact ⟨w₀, own', hw₀, hwatch'⟩

end Wiring

/-! ### The verdict -/

section Outcome

variable {run : ActiveRun} {code : Int32}

theorem outcome_eq_cancelled :
    ActiveRun.outcome run code = .cancelled ↔ run.cancelRequested = true := by
  rw [ActiveRun.outcome]
  split
  · exact ⟨fun _ => ‹_›, fun _ => rfl⟩
  · split
    · exact ⟨nofun, fun h => absurd h ‹_›⟩
    · exact ⟨nofun, fun h => absurd h ‹_›⟩

theorem outcome_eq_succeeded :
    ActiveRun.outcome run code = .succeeded ↔ ¬ run.cancelRequested = true ∧ code = 0 := by
  rw [ActiveRun.outcome]
  split
  · exact ⟨nofun, fun h => absurd ‹_› h.1⟩
  · split
    · exact ⟨fun _ => ⟨‹_›, ‹_›⟩, fun _ => rfl⟩
    · exact ⟨nofun, fun h => absurd h.2 ‹_›⟩

theorem outcome_eq_failed {c : Int32} :
    ActiveRun.outcome run code = .failed c ↔
      ¬ run.cancelRequested = true ∧ code ≠ 0 ∧ c = code := by
  rw [ActiveRun.outcome]
  split
  · exact ⟨nofun, fun h => absurd ‹_› h.1⟩
  · split
    · exact ⟨nofun, fun h => absurd ‹_› h.2.1⟩
    · rw [RunOutcome.failed.injEq]
      exact ⟨fun h => ⟨‹_›, ‹_›, h.symm⟩, fun h => h.2.2.symm⟩

end Outcome

/-- **The past decides, and the signal goes out once.**  An end that is recorded is that of
    the run begun last. It counts as cancelled exactly if a request was accepted since
    the run began, otherwise as a success exactly if the code is zero, and otherwise as
    a failure with that code. The watcher of the run gets the signal with the first
    accepted request, if it still listens then, and at no other time; the channels of
    the runs before stay as they were when the run began. -/
theorem verdict_and_signal (moves : List Move) (h : History)
    (hh : History.after? moves = some h) :
    ∃ w, Wiring.after? moves = some w ∧ w.history = h ∧
      (∀ id code f, h.state.finish? id code = some f →
        ∃ before o since, moves = before ++ [Move.begin o] ++ since ∧ openings since = [] ∧
          id = o.id ∧
          (f.outcome = .cancelled ↔ Asked (before ++ [Move.begin o]) since) ∧
          (f.outcome = .succeeded ↔ ¬ Asked (before ++ [Move.begin o]) since ∧ code = 0) ∧
          (∀ c, f.outcome = .failed c ↔
            ¬ Asked (before ++ [Move.begin o]) since ∧ code ≠ 0 ∧ c = code)) ∧
      (∀ before o since, moves = before ++ [Move.begin o] ++ since → openings since = [] →
        ∃ w₀ own, Wiring.after? before = some w₀ ∧ w.channels = w₀.channels ++ [own] ∧
          own.received.length ≤ 1 ∧
          (∀ n, n ∈ own.received ↔ SignalDue (before ++ [Move.begin o]) since n) ∧
          (∀ c, h.state.cancel? = some c → c.run = o.id ∧
            (c.signalled = true ↔ ¬ Asked (before ++ [Move.begin o]) since ∧ .leave ∉ since))) := by
  have hsame := Wiring.history_after? moves
  rw [hh] at hsame
  obtain ⟨w, hw, rfl⟩ := Option.map_eq_some_iff.mp hsame
  refine ⟨w, hw, rfl, ?_, ?_⟩
  · intro id code f hf
    obtain ⟨run, hrun, hid, rfl⟩ := finish?_eq_some.mp hf
    have hbegun : openings moves ≠ [] := by
      have hlast := (History.seen_of_after hh).last run hrun
      rw [(History.inStep_of_after hh).last] at hlast
      rw [Ne, ← History.lastBegun?_eq_none, hlast]
      nofun
    obtain ⟨before, o, since, hmoves, hsince⟩ := exists_last_begin hbegun
    rw [List.append_cons] at hmoves
    rw [hmoves] at hw
    obtain ⟨w₀, own, _, hwatch⟩ := Wiring.watch_of_after hw hsince
    obtain ⟨hown, _, hrequested, _⟩ := hwatch.run run hrun
    refine ⟨before, o, since, hmoves, hsince, hid.symm.trans hown, ?_, ?_, ?_⟩
    · rw [outcome_eq_cancelled, hrequested]
    · rw [outcome_eq_succeeded, hrequested]
    · intro c
      rw [outcome_eq_failed, hrequested]
  · intro before o since hmoves hsince
    rw [hmoves] at hw
    obtain ⟨w₀, own, hw₀, hwatch⟩ := Wiring.watch_of_after hw hsince
    refine ⟨w₀, own, hw₀, hwatch.channels, hwatch.once, hwatch.received, ?_⟩
    intro c hc
    obtain ⟨run, hrun, rfl⟩ := cancel?_eq_some.mp hc
    obtain ⟨hown, hwatched, hrequested, _⟩ := hwatch.run run hrun
    refine ⟨hown, ?_⟩
    rw [Bool.and_eq_true, Bool.not_eq_true', ← Bool.not_eq_true, hwatched, hrequested, and_comm]

/-- Two runs of one identifier. Nobody listens to the first when it is cancelled. The second is
    cancelled twice, behind a stale end, and gets the signal with the first of these. -/
theorem verdict_and_signal_repeated :
    let run : Opening := ⟨⟨7⟩, some 42, .epoch, some [0x6F], ["tool"]⟩
    let before : List Move := [.begin run, .leave, .cancel, .finish ⟨7⟩ 0]
    let since : List Move := [.finish ⟨8⟩ 0, .cancel, .cancel]
    ∃ h w f, History.after? (before ++ [Move.begin run] ++ since) = some h ∧
      Wiring.after? (before ++ [Move.begin run] ++ since) = some w ∧
      w.channels = [⟨false, []⟩, ⟨true, [6]⟩] ∧ SignalDue (before ++ [Move.begin run]) since 6 ∧
      h.state.finish? ⟨7⟩ 0 = some f ∧ f.outcome = .cancelled := by
  intro run before since
  have hfirst : (Wiring.after? before).map (·.channels) = some [⟨false, []⟩] := rfl
  have hboth : (Wiring.after? (before ++ [Move.begin run] ++ since)).map (·.channels) =
      some [⟨false, []⟩, ⟨true, [6]⟩] := rfl
  obtain ⟨w, hw, _, _, hsignal⟩ := verdict_and_signal (before ++ [Move.begin run] ++ since) _ rfl
  obtain ⟨w₀, own, hw₀, hchannels, _, hreceived, _⟩ := hsignal before run since rfl rfl
  rw [hw₀, Option.map_some, Option.some.injEq] at hfirst
  rw [hw, Option.map_some, Option.some.injEq] at hboth
  have hown : own = ⟨true, [6]⟩ := by
    rw [hboth, hfirst, List.singleton_append, List.cons.injEq, List.singleton_inj] at hchannels
    exact hchannels.2.symm
  refine ⟨_, w, _, rfl, hw, hboth, (hreceived 6).mp ?_, rfl, rfl⟩
  rw [hown]
  exact List.mem_cons_self

end Cuesheet.RunState
