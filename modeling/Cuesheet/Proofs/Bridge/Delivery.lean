import Cuesheet.Proofs.Bridge.Signals
import Cuesheet.Proofs.Bridge.Tasks

/-!
# What the writer delivers

The writer takes events from the channel in the order in which they were sent, and nobody else touches what
it writes. So what it has written are the lines of the first events that were sent, at any time and whatever
the order of the turns. It stops only when the channel is empty and nobody is left who could send; a writer
that has stopped has therefore written everything, and no turn of anybody changes that.
-/

namespace Cuesheet

theorem Controller.report_sent (k : Controller) (id : RunId) (code : Int32) :
    ∃ es, (k.report id code).sent = k.sent ++ es := by
  unfold Controller.report
  split
  · exact ⟨[], (List.append_nil _).symm⟩
  · dsimp only
    split <;> exact ⟨_, rfl⟩

namespace Service

open Utf8

variable {s : Service}

theorem sent_proceed {k : Controller} {es : List Event} (hk : k.sent = s.sent ++ es) :
    ∃ es, (if s.watches then s.proceed k else s).sent = s.sent ++ es := by
  split
  · exact ⟨es, hk⟩
  · exact ⟨[], (List.append_nil _).symm⟩

/-- Nothing that was sent is taken back. -/
theorem sent_step (s : Service) (around : Surroundings) (o : Occurrence) :
    ∃ es, (s.step around o).service.sent = s.sent ++ es := by
  cases o with
  | line bytes =>
    by_cases hreading : s.stage = .reading
    · by_cases htext : IsText bytes
      · obtain ⟨events, hanswer⟩ := answered_of_reading around hreading htext
        exact ⟨events, hanswer.sent⟩
      · rw [step_noText hreading htext]
        exact ⟨[], (List.append_nil _).symm⟩
    · simp only [step, take, if_neg hreading]
      exact ⟨[], (List.append_nil _).symm⟩
  | endOfInput =>
    simp only [step]
    split
    · exact ⟨[], (sent_close s).trans (List.append_nil _).symm⟩
    · exact ⟨[], (List.append_nil _).symm⟩
  | output id stream piece =>
    obtain ⟨lines, _, _, hsent⟩ := Controller.read_eq s.bridge.controller id stream piece
    exact sent_proceed hsent
  | exit id code =>
    obtain ⟨es, hsent⟩ := Controller.report_sent s.bridge.controller id code
    exact sent_proceed hsent

end Service

namespace Tasks

open Utf8

variable {t : Tasks}

/-! ### The writer -/

/-- What holds of the tasks at any time. -/
structure Kept (t : Tasks) : Prop where
  sound : t.service.Sound
  heeded : t.service.Heeded
  taken : t.writer.taken ≤ t.sent.length
  lines : (t.sent.take t.writer.taken).map Wire.event.writeJson? = t.writer.lines.map some
  /-- A writer that has stopped has written everything, and nobody can send more. -/
  stopped : t.writer.stopped = true → (t.phase = .flushing ∨ t.phase = .returned) ∧
    t.bridge.controller.watchers = [] ∧ t.writer.taken = t.sent.length

theorem kept_first {host : Host} {l : CommandLine} {b : CommandLine.Base}
    (hb : CommandLine.base host l = .ok b) : (first b).Kept where
  sound := Service.sound_service hb
  heeded := Service.heeded_service b
  taken := Nat.le_refl 0
  lines := rfl
  stopped h := nomatch h

theorem Kept.controller (ht : t.Kept) : t.bridge.controller.Sound := ht.sound.bridge.controller

theorem Kept.idle_of_unwatched (ht : t.Kept) (hnone : t.bridge.controller.watchers = []) :
    t.bridge.controller.state.active = none := by
  rcases hrun : t.bridge.controller.state.active with _ | run
  · rfl
  · obtain ⟨w, hws, _⟩ := ht.controller.watchers_one hrun
    cases hnone.symm.trans hws

theorem sent_step (hsound : t.service.Sound) (m : Move) : ∃ es, (t.step m).sent = t.sent ++ es := by
  rcases service_step hsound m with hsame | ⟨h, hstep⟩
  · exact ⟨[], (congrArg Service.sent hsame).trans (List.append_nil _).symm⟩
  · obtain ⟨es, hes⟩ := Service.sent_step t.service h.1 h.2
    exact ⟨es, (congrArg Service.sent hstep).trans hes⟩

theorem heeded_step (hsound : t.service.Sound) (hheeded : t.service.Heeded) (m : Move) :
    (t.step m).service.Heeded := by
  rcases service_step hsound m with hsame | ⟨h, hstep⟩
  · rw [hsame]
    exact hheeded
  · rw [hstep]
    exact hheeded.step hsound h.1 h.2

/-- Once the writer has stopped, nothing is left to happen but the return of the main task. -/
theorem Kept.step_of_stopped (ht : t.Kept) (hstopped : t.writer.stopped = true) (m : Move) :
    (t.step m).bridge = t.bridge ∧ (t.step m).writer = t.writer ∧
      ((t.step m).phase = .flushing ∨ (t.step m).phase = .returned) := by
  obtain ⟨hphase, hnone, _⟩ := ht.stopped hstopped
  have hreading : t.phase ≠ .reading := by
    intro h
    simp only [h, reduceCtorEq, or_self] at hphase
  have hwaiting : t.phase ≠ .waiting := by
    intro h
    simp only [h, reduceCtorEq, or_self] at hphase
  -- nobody is watched, so nothing that a tool does arrives
  have hread : ∀ id stream piece, t.bridge.controller.read id stream piece = t.bridge.controller :=
    fun id stream piece => by simp only [Controller.read, watcher?_eq_none hnone]
  have hreport : ∀ id code, t.bridge.controller.report id code = t.bridge.controller :=
    fun id code => Controller.report_of_no_watcher (watcher?_eq_none hnone id) code
  have hturn := t.turn m
  generalize t.step m = t' at hturn ⊢
  cases hturn with
  | line _ _ h => exact absurd h hreading
  | endOfInput h => exact absurd h hreading
  | output id stream piece =>
    rw [hread]
    exact ⟨rfl, rfl, hphase⟩
  | report id code =>
    rw [hreport]
    exact ⟨rfl, rfl, hphase⟩
  | flush _ _ h => exact absurd h hwaiting
  | write hgoesOn => cases hstopped.symm.trans hgoesOn
  | stop =>
    refine ⟨rfl, ?_, hphase⟩
    rw [← hstopped]
  | leave => exact ⟨rfl, rfl, .inr rfl⟩
  | idle => exact ⟨rfl, rfl, hphase⟩
  | exit => exact ⟨rfl, rfl, hphase⟩

theorem writer_close (t : Tasks) : t.close.writer = t.writer := by
  unfold close
  split <;> rfl

/-- Nobody but the writer touches what is written. -/
theorem writer_step {m : Move} (hwrite : m ≠ .write) (hstop : m ≠ .stop) :
    (t.step m).writer = t.writer := by
  have hturn := t.turn m
  generalize t.step m = t' at hturn ⊢
  cases hturn with
  | line around bytes =>
    unfold take
    split
    · rfl
    · dsimp only
      split
      · exact writer_close _
      · rfl
  | endOfInput => exact writer_close t
  | write => exact absurd rfl hwrite
  | stop => exact absurd rfl hstop
  | _ => rfl

/-- The next event of the channel can be written. -/
theorem Kept.writeNext_eq (ht : t.Kept) {e : Event} {rest : List Event}
    (hqueue : t.queue = e :: rest) :
    ∃ line, Wire.event.writeJson? e = some line ∧
      t.writeNext = { t with writer :=
        { t.writer with taken := t.writer.taken + 1, lines := t.writer.lines ++ [line] } } := by
  have hmem : e ∈ t.sent := List.mem_of_mem_drop (by rw [← queue, hqueue]; exact List.mem_cons_self)
  obtain ⟨line, hline⟩ := Option.isSome_iff_exists.mp (ht.sound.bridge.writable.sent e hmem)
  exact ⟨line, hline, by simp only [writeNext, hqueue, hline]⟩

theorem Kept.write (ht : t.Kept) (hgoesOn : t.writer.stopped = false) : t.writeNext.Kept := by
  rcases hqueue : t.queue with _ | ⟨e, rest⟩
  · have hnothing : t.writeNext = t := by simp only [writeNext, hqueue]
    rw [hnothing]
    exact ht
  obtain ⟨line, hline, hnext⟩ := ht.writeNext_eq hqueue
  have hdrop : t.sent.drop t.writer.taken = e :: rest := hqueue
  have hlt : t.writer.taken < t.sent.length := by
    by_contra hge
    rw [List.drop_eq_nil_of_le (Nat.not_lt.mp hge)] at hdrop
    cases hdrop
  rw [hnext]
  refine ⟨ht.sound, ht.heeded, hlt, ?_, ?_⟩
  · have htake : t.sent.take (t.writer.taken + 1) = t.sent.take t.writer.taken ++ [e] := by
      rw [List.take_add, hdrop]
      rfl
    show (t.sent.take (t.writer.taken + 1)).map _ = _
    rw [htake, List.map_append, List.map_append, ht.lines]
    simp only [List.map_cons, List.map_nil, hline]
  · intro hstopped
    rw [hgoesOn] at hstopped
    cases hstopped

theorem Kept.stop (ht : t.Kept) (hflushing : t.phase = .flushing)
    (hnone : t.bridge.controller.watchers = []) (hempty : t.queue = []) :
    { t with writer := { t.writer with stopped := true } }.Kept := by
  have hall : t.sent.length ≤ t.writer.taken := List.drop_eq_nil_iff.mp hempty
  exact ⟨ht.sound, ht.heeded, ht.taken, ht.lines, fun _ =>
    ⟨.inl hflushing, hnone, Nat.le_antisymm ht.taken hall⟩⟩

/-- Who is not the writer sends, at most. -/
theorem Kept.step_other (ht : t.Kept) {m : Move} (hwrite : m ≠ .write) (hstop : m ≠ .stop) :
    (t.step m).Kept := by
  have hwriter := writer_step (t := t) hwrite hstop
  obtain ⟨es, hes⟩ := sent_step ht.sound m
  refine ⟨Sound.step ht.sound m, heeded_step ht.sound ht.heeded m, ?_, ?_, ?_⟩
  · rw [hwriter, hes, List.length_append]
    exact Nat.le_add_right_of_le ht.taken
  · rw [hwriter, hes, List.take_append_of_le_length ht.taken]
    exact ht.lines
  · intro hstopped
    rw [hwriter] at hstopped
    obtain ⟨hbridge, _, hphase⟩ := ht.step_of_stopped hstopped m
    obtain ⟨_, hnone, hall⟩ := ht.stopped hstopped
    have hsent : (t.step m).sent = t.sent := congrArg (·.controller.sent) hbridge
    refine ⟨hphase, ?_, ?_⟩
    · rw [hbridge]
      exact hnone
    · rw [hwriter, hsent]
      exact hall

theorem Kept.step (ht : t.Kept) (m : Move) : (t.step m).Kept := by
  by_cases hwriting : m = .write ∨ m = .stop
  · have hturn := t.turn m
    generalize t.step m = t' at hturn ⊢
    rcases hwriting with rfl | rfl
    · cases hturn with
      | idle => exact ht
      | write hgoesOn => exact ht.write hgoesOn
      | flush _ hm => simp only [reduceCtorEq, or_self] at hm
      | leave _ hm => simp only [reduceCtorEq, false_and, or_self] at hm
    · cases hturn with
      | idle => exact ht
      | stop hflushing hnone hempty => exact ht.stop hflushing hnone hempty
      | flush _ hm => simp only [reduceCtorEq, or_self] at hm
      | leave _ hm => simp only [reduceCtorEq, false_and, or_self] at hm
  · rw [not_or] at hwriting
    exact ht.step_other hwriting.1 hwriting.2

theorem Kept.lines_eq (ht : t.Kept) :
    t.writer.lines = Service.writeEvents (t.sent.take t.writer.taken) := by
  have hwritable : Event.AllWritable (t.sent.take t.writer.taken) := fun e he =>
    ht.sound.bridge.writable.sent e (List.mem_of_mem_take he)
  have hsame := ht.lines.symm.trans (Service.map_writeJson?_eq hwritable)
  exact (List.map_injective_iff.mpr (Option.some_injective _)) hsame

/-- A writer that has stopped has written every event, in the order in which they were sent. -/
theorem Kept.delivered (ht : t.Kept) (hstopped : t.writer.stopped = true) :
    t.sent.map Wire.event.writeJson? = t.writer.lines.map some := by
  have hlines := ht.lines
  rwa [(ht.stopped hstopped).2.2, List.take_length] at hlines

theorem Kept.after (ht : t.Kept) (moves : List Move) : (t.after moves).Kept := by
  induction moves generalizing t with
  | nil => exact ht
  | cons m moves ih => exact ih (ht.step m)

/-- While the main task is there, a turn of the writer takes the next event. -/
theorem Kept.step_write (ht : t.Kept) (hopen : t.isOver = false) (hgoesOn : t.writer.stopped = false)
    {e : Event} {rest : List Event} (hqueue : t.queue = e :: rest) :
    ∃ line, t.step .write = { t with writer :=
      { t.writer with taken := t.writer.taken + 1, lines := t.writer.lines ++ [line] } } := by
  obtain ⟨line, _, hnext⟩ := ht.writeNext_eq hqueue
  refine ⟨line, ?_⟩
  rw [← hnext]
  simp only [Tasks.step, hopen, hgoesOn, Bool.false_eq_true, or_self, if_false]

/-- As long as the main task is there, the writer can take one event after the other, until nothing is left in
    the channel. -/
theorem Kept.exists_drained (ht : t.Kept) (hopen : t.isOver = false) (hgoesOn : t.writer.stopped = false) :
    ∃ n w, t.after (List.replicate n .write) = { t with writer := w } ∧
      w.taken = t.sent.length := by
  -- nothing is sent meanwhile, so the channel is one event shorter after each turn
  induction hqueue : t.queue generalizing t with
  | nil => exact ⟨0, t.writer, rfl, Nat.le_antisymm ht.taken (List.drop_eq_nil_iff.mp hqueue)⟩
  | cons e rest ih =>
    obtain ⟨line, hwrite⟩ := ht.step_write hopen hgoesOn hqueue
    have ht' := ht.step .write
    rw [hwrite] at ht'
    have hrest : t.sent.drop (t.writer.taken + 1) = rest := by
      rw [← List.tail_drop, ← queue, hqueue, List.tail_cons]
    obtain ⟨n, w, hafter, hall⟩ := ih ht' hopen hgoesOn hrest
    refine ⟨n + 1, w, ?_, hall⟩
    rw [List.replicate_succ, after_cons, hwrite, hafter]

end Tasks

end Cuesheet
