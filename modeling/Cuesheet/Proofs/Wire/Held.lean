import Cuesheet.Wire.Message

/-!
# Values read in place and values put aside

A value that was put aside is read by other rules than one that is read in place, and the two disagree on
two spellings: a choice may stand there as a record with an empty record in it, and a kind may be told by
its position. Neither is taken in place. `LateOnly` says of a reader that this is all: what it takes in
place is what it takes after it was put aside, but for the values of which `late` holds.
-/

namespace Cuesheet

open Decode

def inPlace : Source := ⟨.json, false⟩

def putAside : Source := ⟨.json, true⟩

variable {α β : Type}

/-- It makes no difference to the reader whether a value was put aside. -/
def Decoder.Steady (decoder : Decoder α) : Prop := ∀ d, decoder inPlace d = decoder putAside d

/-- Of some values the reader takes only those that were put aside; of all others it makes the same. -/
def Decoder.LateOnly (decoder : Decoder α) (late : Datum → Bool) : Prop :=
  ∀ d, decoder inPlace d = if late d then none else decoder putAside d

/-! ### Readers that do not care -/

section Steady

variable {decoder : Decoder α}

theorem Decoder.Steady.bind (h : decoder.Steady) (f : α → Option β) :
    Decoder.Steady fun source d => (decoder source d).bind f :=
  fun d => congrArg (Option.bind · f) (h d)

theorem Decoder.Steady.map (h : decoder.Steady) (f : α → β) :
    Decoder.Steady fun source d => (decoder source d).map f :=
  fun d => congrArg (Option.map f) (h d)

theorem steady_text : Decoder.Steady Decode.text := by
  intro d
  cases d <;> rfl

theorem steady_bool : Decoder.Steady Decode.bool := by
  intro d
  cases d <;> rfl

theorem steady_real : Decoder.Steady Decode.real := by
  intro d
  cases d <;> rfl

theorem steady_intBetween (low high : Int) : Decoder.Steady (intBetween low high) := by
  intro d
  cases d <;> rfl

theorem Decoder.Steady.optional (h : decoder.Steady) : (optional decoder).Steady := by
  intro d
  cases d with
  | null => rfl
  | _ => exact congrArg (Option.map some) (h _)

theorem Decoder.Steady.list (h : decoder.Steady) : (list decoder).Steady := by
  have hsame : decoder inPlace = decoder putAside := funext h
  intro d
  cases d with
  | list items =>
    show items.mapM (decoder inPlace) = items.mapM (decoder putAside)
    rw [hsame]
  | _ => rfl

theorem fields_steady (names : List String) (least : Nat) : Decoder.Steady (fields names least) := by
  intro d
  cases d with
  | list items => rfl
  | record members => rfl
  | _ => rfl

theorem memberFields_steady (names : List String) : Decoder.Steady (memberFields names) := by
  intro d
  cases d with
  | record members => rfl
  | _ => rfl

theorem Decoder.Steady.required (h : decoder.Steady) (given : List (String × Datum)) (name : String) :
    required inPlace given name decoder = required putAside given name decoder := by
  have hsame : decoder inPlace = decoder putAside := funext h
  rw [Decode.required, Decode.required, hsame]

theorem Decoder.Steady.defaulted (h : decoder.Steady) (given : List (String × Datum)) (name : String)
    (absent : α) :
    defaulted inPlace given name decoder absent = defaulted putAside given name decoder absent := by
  rw [Decode.defaulted, Decode.defaulted]
  split
  · rfl
  · exact h _

end Steady

/-! ### Readers that do -/

section LateOnly

variable {decoder : Decoder α} {late : Datum → Bool}

/-! A refusal goes through whatever is done with the value, and through whatever is done before. -/

theorem ite_bind (b : Bool) (x : Option α) (f : α → Option β) :
    (if b then none else x).bind f = if b then none else x.bind f := by
  split
  · rfl
  · rfl

theorem ite_map (b : Bool) (x : Option α) (f : α → β) :
    (if b then none else x).map f = if b then none else x.map f := by
  split
  · rfl
  · rfl

theorem bind_ite (b : Bool) (x : Option α) (f : α → Option β) :
    (x.bind fun a => if b then none else f a) = if b then none else x.bind f := by
  split
  · exact Option.bind_fun_none x
  · rfl

/-! Two readers that go step by step agree but for refusals, if each step does and all that follows it. -/

section Steps

variable {b c : Bool} {x x' : Option α} {f f' : α → Option β}

theorem bind_steady (hx : x = x') (hf : ∀ a, f a = if c then none else f' a) :
    x.bind f = if c then none else x'.bind f' := by
  rw [hx, funext hf, bind_ite]

theorem bind_late (hx : x = if b then none else x') (hf : ∀ a, f a = if c then none else f' a) :
    x.bind f = if b || c then none else x'.bind f' := by
  rw [hx, ite_bind, funext hf, bind_ite]
  cases b
  · rw [Bool.false_or]
    rfl
  · rfl

/-- Nothing that follows makes a difference. -/
theorem bind_last (hx : x = if b then none else x') (hf : ∀ a, f a = f' a) :
    x.bind f = if b then none else x'.bind f' := by
  rw [hx, ite_bind, funext hf]

end Steps

theorem Decoder.LateOnly.bind (h : decoder.LateOnly late) (f : α → Option β) :
    Decoder.LateOnly (fun source d => (decoder source d).bind f) late := by
  intro d
  show (decoder inPlace d).bind f = _
  rw [h, ite_bind]

theorem Decoder.LateOnly.required (h : decoder.LateOnly late) (given : List (String × Datum))
    (name : String) :
    required inPlace given name decoder =
      if (given.lookup name).any late then none else required putAside given name decoder := by
  rw [Decode.required, Decode.required]
  cases given.lookup name with
  | none => rfl
  | some d => exact h d

theorem Decoder.LateOnly.defaulted (h : decoder.LateOnly late) (given : List (String × Datum))
    (name : String) (absent : α) :
    defaulted inPlace given name decoder absent =
      if (given.lookup name).any late then none else defaulted putAside given name decoder absent := by
  rw [Decode.defaulted, Decode.defaulted]
  cases given.lookup name with
  | none => rfl
  | some d => exact h d

def isEmptyRecord : Datum → Bool
  | .record [] => true
  | _ => false

/-- A choice spelled as a record with an empty record in it. -/
def lateChoice : Datum → Bool
  | .record [m] => isEmptyRecord m.2
  | _ => false

theorem isMark_inPlace (d : Datum) : isMark inPlace d = (isMark putAside d && !isEmptyRecord d) := by
  cases d with
  | list items => cases items <;> rfl
  | record members => cases members <;> rfl
  | _ => rfl

theorem choiceName_lateOnly : Decoder.LateOnly choiceName lateChoice := by
  intro d
  cases d with
  | record members =>
    match members with
    | [] => rfl
    | [(name, mark)] =>
      show (if isMark inPlace mark then some name else none) =
        if isEmptyRecord mark then none else if isMark putAside mark then some name else none
      rw [isMark_inPlace]
      cases isEmptyRecord mark
      · rw [Bool.not_false, Bool.and_true]
        rfl
      · rw [Bool.not_true, Bool.and_false]
        rfl
    | (_, _) :: _ :: _ => rfl
  | _ => rfl

theorem choice_lateOnly (table : List α) (name : α → String) :
    Decoder.LateOnly (choice table name) lateChoice := choiceName_lateOnly.bind _

def isPosition : Datum → Bool
  | .int _ => true
  | _ => false

theorem kindName_lateOnly (table : List String) : Decoder.LateOnly (kindName table) isPosition := by
  intro d
  cases d <;> rfl

/-- A value whose kind is told by its position in the table. -/
def lateKind (tag : String) : Datum → Bool
  | .record members => (members.filter (·.1 == tag)).any (isPosition ·.2)
  | .list items => items.head?.any isPosition
  | _ => false

theorem tagged_lateOnly (tag : String) (table : List String) :
    Decoder.LateOnly (tagged tag table) (lateKind tag) := by
  have hkind (e rest : Datum) : (kindName table inPlace e).map (·, rest) =
      if isPosition e then none else (kindName table putAside e).map (·, rest) := by
    rw [kindName_lateOnly table e]
    split
    · rfl
    · rfl
  intro d
  cases d with
  | list items =>
    cases items with
    | nil => rfl
    | cons e rest =>
      simp only [tagged, lateKind, List.head?_cons, Option.any_some, hkind]
      split
      · rfl
      · exact (ite_self none).symm
  | record members =>
    simp only [tagged, lateKind]
    split
    · exact (ite_self none).symm
    generalize members.filter (fun m => m.1 == tag) = own
    rcases own with _ | ⟨⟨name, e⟩, _ | ⟨m, ms⟩⟩
    · rfl
    · show (kindName table inPlace e).map _ = _
      rw [hkind]
      simp only [List.any_cons, List.any_nil, Bool.or_false]
    · exact (ite_self none).symm
  | _ => rfl

end LateOnly

namespace Codec

def Steady (codec : Codec α) : Prop := codec.decode.Steady

theorem Steady.optional {codec : Codec α} (h : codec.Steady) : codec.optional.Steady :=
  Decoder.Steady.optional h

theorem steady_text : text.Steady := Cuesheet.steady_text

theorem steady_path : path.Steady := Cuesheet.steady_text.map _

theorem steady_real : real.Steady := Cuesheet.steady_real

theorem Steady.list {codec : Codec α} (h : codec.Steady) : codec.list.Steady := Decoder.Steady.list h

theorem steady_word64 : word64.Steady := ((steady_intBetween _ _).map _).map _

theorem steady_word32 : word32.Steady := ((steady_intBetween _ _).map _).map _

end Codec

namespace Wire

/-! ### The form -/

theorem steady_track : track.Steady := by
  intro d
  show (fields ["id", "label"] 1 inPlace d).bind _ = (fields ["id", "label"] 1 putAside d).bind _
  rw [fields_steady]
  refine congrArg (Option.bind _) (funext fun given => ?_)
  simp only [steady_text.required, steady_text.defaulted]

theorem decodeToggles_steady (given : List (String × Datum)) :
    decodeToggles inPlace given = decodeToggles putAside given := by
  simp only [decodeToggles, steady_bool.defaulted]

/-- Whether a field among those that are given has a value of a kind. -/
def hasField (given : Option (List (String × Datum))) (name : String) (kind : Datum → Bool) : Bool :=
  given.any fun members => (members.lookup name).any kind

/-- A form whose paper size or output mode is spelled as only a choice that was put aside may be. -/
def lateForm (d : Datum) : Bool :=
  let given := fields configurationNames 0 putAside d
  hasField given "paper_size" lateChoice || hasField given "tool_kind" lateChoice

theorem configuration_lateOnly : configuration.decode.LateOnly lateForm := by
  intro d
  show (fields configurationNames 0 inPlace d).bind _ =
    if lateForm d then none else (fields configurationNames 0 putAside d).bind _
  rw [fields_steady, lateForm]
  rcases fields configurationNames 0 putAside d with _ | given
  · rfl
  rw [Option.bind_some, Option.bind_some]
  have hpath := Codec.steady_path.optional.defaulted given
  have htext := Codec.steady_text.optional.defaulted given
  have hreal := Codec.steady_real.defaulted given
  have hpaper := (choice_lateOnly PaperSize.all PaperSize.name).defaulted given "paper_size"
  have hmode := (choice_lateOnly OutputMode.all OutputMode.name).defaulted given "tool_kind"
  refine bind_steady (hpath "input_path" none) fun input => ?_
  refine bind_steady (hpath "output_path" none) fun output => ?_
  refine bind_steady (htext "title" none) fun title => ?_
  refine bind_late (hpaper .letter) fun paper => ?_
  refine bind_last (hmode .pdf) fun mode => ?_
  rw [steady_track.list.defaulted, Codec.steady_word64.defaulted, htext, hreal, hreal, decodeToggles_steady]

/-! ### Runs -/

theorem steady_runId : runId.Steady := steady_text.bind _

theorem steady_instant : instant.Steady := steady_text.bind _

theorem runOutcome_lateOnly : runOutcome.decode.LateOnly (lateKind "outcome") := by
  intro d
  show (tagged "outcome" _ inPlace d).bind _ = _
  rw [tagged_lateOnly, ite_bind]
  rfl

theorem runStatus_lateOnly : runStatus.decode.LateOnly (lateKind "state") := by
  intro d
  show (tagged "state" _ inPlace d).bind _ = _
  rw [tagged_lateOnly, ite_bind]
  rfl

/-- A snapshot whose status tells its kind by a position. -/
def lateSnapshot (d : Datum) : Bool :=
  hasField (fields snapshotNames 6 putAside d) "status" (lateKind "state")

theorem snapshot_lateOnly : snapshot.decode.LateOnly lateSnapshot := by
  intro d
  show (fields snapshotNames 6 inPlace d).bind _ =
    if lateSnapshot d then none else (fields snapshotNames 6 putAside d).bind _
  rw [fields_steady, lateSnapshot]
  rcases fields snapshotNames 6 putAside d with _ | given
  · rfl
  rw [Option.bind_some, Option.bind_some]
  have hid := steady_runId.optional.defaulted given "run_id" none
  have hstarted := steady_instant.optional.defaulted given "started_at" none
  have hpid := Codec.steady_word32.optional.defaulted given "pid" none
  have hstatus := runStatus_lateOnly.required given "status"
  refine bind_steady hid fun id => ?_
  refine bind_steady (steady_bool.required given "is_running") fun running => ?_
  refine bind_last hstatus fun status => ?_
  rw [steady_text.required, hpid, hstarted]

/-! ### Messages -/

/-- Whether a payload of a type has a part that is spelled as only a payload that was put aside may be. -/
def lateSpelled : String → Datum → Bool
  | "setConfiguration", p => hasField (memberFields ["configuration"] putAside p) "configuration" lateForm
  | "statusChanged", p =>
    hasField (memberFields ["status", "message"] putAside p) "status" (lateKind "state")
  | "runLog", p => hasField (memberFields ["run_id", "stream", "line"] putAside p) "stream" lateChoice
  | "runFinished", p =>
    hasField (memberFields ["run_id", "outcome"] putAside p) "outcome" (lateKind "outcome")
  | "stateSnapshot", p => hasField (memberFields ["snapshot"] putAside p) "snapshot" lateSnapshot
  | _, _ => false

/-- A message of a type, whose payload is read in place or was put aside. -/
def messageOf (codec : Codec α) (type : String) : Decoder α :=
  fun source p => codec.decode source (.list [.text type, p])

/-- A message reads the members of its payload; if the field that may be spelled late is refused, so is the
    message. -/
theorem contents_lateOnly {names : List String} {field : String} {late : Datum → Bool}
    {body : Source × List (String × Datum) → Option α}
    (hbody : ∀ given, body (inPlace, given) =
      if (given.lookup field).any late then none else body (putAside, given)) (p : Datum) :
    (contents names (some (inPlace, p))).bind body =
      if hasField (memberFields names putAside p) field late then none
      else (contents names (some (putAside, p))).bind body := by
  rw [contents, contents, memberFields_steady]
  rcases memberFields names putAside p with _ | given
  · rfl
  · exact hbody given

theorem contents_steady {names : List String} {body : Source × List (String × Datum) → Option α}
    (hbody : ∀ given, body (inPlace, given) = body (putAside, given)) (p : Datum) :
    (contents names (some (inPlace, p))).bind body =
      (contents names (some (putAside, p))).bind body := by
  rw [contents, contents, memberFields_steady]
  rcases memberFields names putAside p with _ | given
  · rfl
  · exact hbody given

theorem choice_eq_none {table : List String} {type : String} (htype : type ∉ table) (source : Source) :
    choice table id source (.text type) = none := by
  refine List.find?_eq_none.mpr ?_
  intro name hname heq
  exact htype (eq_of_beq heq ▸ hname)

theorem operation_lateOnly (type : String) :
    (messageOf operation type).LateOnly (lateSpelled type) := by
  intro p
  by_cases htype : type ∈ operationTypes
  · simp only [operationTypes, List.mem_cons, List.not_mem_nil, or_false] at htype
    rcases htype with rfl | rfl | rfl | rfl | rfl | rfl | rfl
    · refine contents_lateOnly (fun given => ?_) p
      simp only [configuration_lateOnly.required, ite_map]
    all_goals cases p <;> rfl
  · have hnone (source : Source) : messageOf operation type source p = none := by
      show ((choice operationTypes id source (.text type)).map _).bind _ = none
      rw [choice_eq_none htype]
      rfl
    rw [hnone, hnone]
    exact (ite_self none).symm

theorem event_lateOnly (type : String) :
    (messageOf event type).LateOnly (lateSpelled type) := by
  intro p
  by_cases htype : type ∈ eventTypes
  · simp only [eventTypes, List.mem_cons, List.not_mem_nil, or_false] at htype
    rcases htype with rfl | rfl | rfl | rfl | rfl | rfl | rfl | rfl
    · refine contents_steady (fun given => ?_) p
      simp only [steady_runId.required, Codec.steady_word32.optional.defaulted,
        Codec.steady_text.list.required, steady_instant.required]
    · refine contents_lateOnly (fun given => ?_) p
      refine bind_last (runStatus_lateOnly.required given "status") fun status => ?_
      rw [steady_text.required]
    · refine contents_lateOnly (fun given => ?_) p
      have hstream := (choice_lateOnly LogStream.all LogStream.name).required given "stream"
      refine bind_steady (steady_runId.required given "run_id") fun id => ?_
      refine bind_last hstream fun stream => ?_
      rw [steady_text.required]
    · refine contents_steady (fun given => ?_) p
      simp only [Codec.steady_path.required]
    · refine contents_lateOnly (fun given => ?_) p
      refine bind_steady (steady_runId.required given "run_id") fun id => ?_
      exact bind_last (runOutcome_lateOnly.required given "outcome") fun outcome => rfl
    · refine contents_steady (fun given => ?_) p
      simp only [Codec.steady_text.list.required]
    · refine contents_lateOnly (fun given => ?_) p
      simp only [snapshot_lateOnly.required, ite_map]
    · refine contents_steady (fun given => ?_) p
      simp only [steady_text.required]
  · have hnone (source : Source) : messageOf event type source p = none := by
      show ((choice eventTypes id source (.text type)).map _).bind _ = none
      rw [choice_eq_none htype]
      rfl
    rw [hnone, hnone]
    exact (ite_self none).symm

end Wire

end Cuesheet
