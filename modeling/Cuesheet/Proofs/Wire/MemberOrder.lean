import Cuesheet.Proofs.Json.Rearranged
import Cuesheet.Proofs.Wire.Blind
import Cuesheet.Proofs.Wire.Held
import Cuesheet.Proofs.Wire.Models

/-!
# Messages whose payload comes first

The order of members does not matter to the readers of payloads, but a message is not only read by looking up
names: a payload in front of its type is put aside and read by other rules. So a message is the same in any
order of its members, except that type and payload may not always change places.
-/

namespace Cuesheet.Wire

open Decode Datum

variable {α : Type}

/-- A codec that looks at the type and the payload of a message, and at nothing else. -/
structure Messages (codec : Codec α) (table : List String) (body : String × Payload → Option α) : Prop where
  decode : ∀ source d, codec.decode source d = (envelope table source d).bind body
  blind : ∀ type ∈ table, (messageOf codec type).Blind
  late : ∀ type, (messageOf codec type).LateOnly (lateSpelled type)

/-! ### Types -/

section Types

variable {table : List String} {type : String} {source : Source} {t p : Datum}

theorem mem_of_choice (h : choice table id source t = some type) :
    choiceName source t = some type ∧ type ∈ table := by
  obtain ⟨name, hname, hfind⟩ := Option.bind_eq_some_iff.mp h
  have hsame := List.find?_some hfind
  obtain rfl : type = name := eq_of_beq hsame
  exact ⟨hname, List.mem_of_find?_eq_some hfind⟩

theorem choice_of_mem (hname : choiceName source t = some type) (htype : type ∈ table) :
    choice table id source t = some type := by
  rcases hfound : oneOf table id type with _ | found
  · exact absurd (beq_self_eq_true type) (List.find?_eq_none.mp hfound type htype)
  · have hsame := List.find?_some hfound
    obtain rfl : found = type := eq_of_beq hsame
    rw [choice, hname]
    exact hfound

variable {codec : Codec α} {body : String × Payload → Option α}

/-- The list of a type and a payload is the message without an order. -/
theorem Messages.messageOf_eq (h : Messages codec table body) (htype : type ∈ table) :
    messageOf codec type source p = body (type, some (source, p)) := by
  have hchoice : choice table id source (.text type) = some type := choice_of_mem rfl htype
  have henvelope : envelope table source (.list [.text type, p]) = some (type, some (source, p)) := by
    simp only [envelope, List.isEmpty_nil, true_or, if_true, hchoice, Option.map_some]
  rw [messageOf, h.decode, henvelope, Option.bind_some]

theorem Messages.messageOf_eq_none (h : Messages codec table body) (htype : type ∉ table) :
    messageOf codec type source p = none := by
  have hchoice : choice table id source (.text type) = none := choice_eq_none htype source
  have henvelope : envelope table source (.list [.text type, p]) = none := by
    simp only [envelope, List.isEmpty_nil, true_or, if_true, hchoice, Option.map_none]
  rw [messageOf, h.decode, henvelope, Option.bind_none]

/-- What is made of a message whose payload is read at once. -/
def atOnce (codec : Codec α) (table : List String) (source : Source) (t p : Datum) : Option α :=
  (choice table id source t).bind fun type => messageOf codec type source p

/-- What is made of a message whose payload is put aside first. -/
def afterwards (codec : Codec α) (table : List String) (source : Source) (t p : Datum) : Option α :=
  if p.readable then (choice table id source t).bind fun type => messageOf codec type source.hold p
  else none

theorem Messages.bind_choice (h : Messages codec table body) (source' : Source) :
    ((choice table id source t).map (·, some (source', p))).bind body =
      (choice table id source t).bind fun type => messageOf codec type source' p := by
  rcases hchoice : choice table id source t with _ | type
  · rfl
  · exact (h.messageOf_eq (mem_of_choice hchoice).2).symm

end Types

/-! ### Two orders -/

/-- The type and the payload of a message, in the order in which they stand. -/
def own (members : List (String × Datum)) : List (String × Datum) :=
  members.filter fun m => m.1 == "type" || m.1 == "payload"

def payloadFirst : Datum → Bool
  | .record members => (own members).map Prod.fst == ["payload", "type"]
  | _ => false

section Orders

variable {codec : Codec α} {table : List String} {body : String × Payload → Option α} {source : Source}
  {members : List (String × Datum)} {t p : Datum}

theorem Messages.decode_typeFirst (h : Messages codec table body)
    (hown : own members = [("type", t), ("payload", p)]) :
    codec.decode source (.record members) = atOnce codec table source t p := by
  have henvelope : envelope table source (.record members) =
      (choice table id source t).map (·, some (source, p)) := by
    rw [own] at hown
    simp only [envelope, hown]
  rw [h.decode, henvelope, h.bind_choice]
  rfl

theorem Messages.decode_payloadFirst (h : Messages codec table body)
    (hown : own members = [("payload", p), ("type", t)]) :
    codec.decode source (.record members) = afterwards codec table source t p := by
  have henvelope : envelope table source (.record members) =
      if p.readable then (choice table id source t).map (·, some (source.hold, p)) else none := by
    rw [own] at hown
    simp only [envelope, hown]
  rw [h.decode, henvelope, afterwards]
  split
  · exact h.bind_choice source.hold
  · rfl

/-- The type and the payload in one of the two orders. -/
def inOrder (payloadFirst : Bool) (t p : Datum) : List (String × Datum) :=
  if payloadFirst then [("payload", p), ("type", t)] else [("type", t), ("payload", p)]

/-- How the types and the payloads of two records correspond. -/
inductive Correspond : List (String × Datum) → List (String × Datum) → Prop where
  | neither : Correspond [] []
  | type {t t' : Datum} (ht : Reordered t t') : Correspond [("type", t)] [("type", t')]
  | payload {p p' : Datum} (hp : Reordered p p') : Correspond [("payload", p)] [("payload", p')]
  | both {t t' p p' : Datum} (ht : Reordered t t') (hp : Reordered p p') (first first' : Bool) :
      Correspond (inOrder first t p) (inOrder first' t' p')

theorem perm_pair {β : Type} {x y : β} {xs : List β} (h : xs.Perm [x, y]) : xs = [x, y] ∨ xs = [y, x] := by
  rcases xs with _ | ⟨a, _ | ⟨b, _ | ⟨c, rest⟩⟩⟩
  · cases h.length_eq
  · cases h.length_eq
  · rcases List.mem_pair.mp (h.mem_iff.mp List.mem_cons_self) with rfl | rfl
    · exact .inl (congrArg (a :: ·) (List.perm_singleton.mp (h.cons_inv)))
    · have hswapped : [a, b].Perm [a, x] := h.trans (.swap ..)
      exact .inr (congrArg (a :: ·) (List.perm_singleton.mp hswapped.cons_inv))
  · cases h.length_eq

theorem correspond_own {members' : List (String × Datum)} (h : Matched members members') :
    Correspond (own members) (own members') := by
  obtain ⟨hnames, pairs, hfirst, hperm, hpairs⟩ := h.filter fun name => name == "type" || name == "payload"
  have hname : ∀ x ∈ pairs, x.1 = "type" ∨ x.1 = "payload" := by
    intro x hx
    have hmem : x.first ∈ own members := by
      rw [own, hfirst]
      exact List.mem_map_of_mem hx
    have hown := (List.mem_filter.mp hmem).2
    rw [Bool.or_eq_true, beq_iff_eq, beq_iff_eq] at hown
    exact hown
  rw [own, own]
  rw [hfirst] at hnames ⊢
  match pairs with
  | [] =>
    rw [List.perm_nil.mp hperm]
    exact .neither
  | [⟨name, d, d'⟩] =>
    rw [List.perm_singleton.mp hperm]
    have hd := hpairs _ List.mem_cons_self
    rcases hname _ List.mem_cons_self with h | h
    · cases h
      exact .type hd
    · cases h
      exact .payload hd
  | [⟨name, d, d'⟩, ⟨name', e, e'⟩] =>
    have hd := hpairs _ List.mem_cons_self
    have he := hpairs _ (List.mem_cons_of_mem _ List.mem_cons_self)
    have hne : name ≠ name' := fun heq => (List.nodup_cons.mp hnames).1 (heq ▸ List.mem_cons_self)
    rcases hname _ List.mem_cons_self with h | h <;>
      rcases hname _ (List.mem_cons_of_mem _ List.mem_cons_self) with h' | h' <;> cases h <;> cases h'
    · exact absurd rfl hne
    · rcases perm_pair hperm with hsame | hswapped
      · rw [hsame]
        exact .both hd he false false
      · rw [hswapped]
        exact .both hd he false true
    · rcases perm_pair hperm with hsame | hswapped
      · rw [hsame]
        exact .both he hd true true
      · rw [hswapped]
        exact .both he hd true false
    · exact absurd rfl hne
  | x :: y :: z :: rest =>
    -- There are not three names for three members.
    have hx := hname x List.mem_cons_self
    have hy := hname y (List.mem_cons_of_mem _ List.mem_cons_self)
    have hz := hname z (List.mem_cons_of_mem _ (List.mem_cons_of_mem _ List.mem_cons_self))
    obtain ⟨hxs, hys, -⟩ := (List.nodup_cons.trans (and_congr_right' List.nodup_cons)).mp hnames
    have hxy : x.1 ≠ y.1 := fun heq => hxs (heq ▸ List.mem_cons_self)
    have hxz : x.1 ≠ z.1 := fun heq => hxs (heq ▸ List.mem_cons_of_mem _ List.mem_cons_self)
    have hyz : y.1 ≠ z.1 := fun heq => hys (heq ▸ List.mem_cons_self)
    grind

end Orders

/-! ### Both ways of reading -/

section Both

variable {codec : Codec α} {table : List String} {body : String × Payload → Option α} {source : Source}
  {t t' p p' d d' : Datum}

theorem Messages.atOnce_eq (h : Messages codec table body) (ht : Reordered t t') (hp : Reordered p p') :
    atOnce codec table source t p = atOnce codec table source t' p' := by
  rw [atOnce, atOnce, ← blind_choice table id source ht]
  rcases hchoice : choice table id source t with _ | type
  · rfl
  · exact h.blind type (mem_of_choice hchoice).2 source hp

theorem Messages.afterwards_eq (h : Messages codec table body) (ht : Reordered t t')
    (hp : Reordered p p') : afterwards codec table source t p = afterwards codec table source t' p' := by
  rw [afterwards, afterwards, ← blind_choice table id source ht, hp.permuted.readable_eq]
  split
  · rcases hchoice : choice table id source t with _ | type
    · rfl
    · exact h.blind type (mem_of_choice hchoice).2 source.hold hp
  · rfl

/-- The payload is taken in one order of type and payload, and not in the other: it has a part that is passed
    over but cannot be put aside, or one that is spelled as only what was put aside may be. -/
def Clashes (codec : Codec α) (type : String) (p : Datum) : Prop :=
  (p.readable = false ∧ (messageOf codec type inPlace p).isSome = true) ∨
    (p.readable = true ∧ lateSpelled type p = true ∧ (messageOf codec type putAside p).isSome = true)

theorem Messages.isSome_cases (h : Messages codec table body) {type : String}
    (hsome : (messageOf codec type source p).isSome = true) : type ∈ table := by
  by_contra htype
  rw [h.messageOf_eq_none htype] at hsome
  cases hsome

theorem Messages.atOnce_eq_afterwards_iff (h : Messages codec table body) :
    atOnce codec table inPlace t p = afterwards codec table inPlace t p ↔
      ¬ ∃ type, choiceName inPlace t = some type ∧ Clashes codec type p := by
  rcases hchoice : choice table id inPlace t with _ | type
  · have hnone : atOnce codec table inPlace t p = afterwards codec table inPlace t p := by
      rw [atOnce, afterwards, hchoice]
      exact (ite_self none).symm
    refine iff_of_true hnone ?_
    rintro ⟨type, hname, hclash⟩
    have htype : type ∈ table := by
      rcases hclash with ⟨-, hsome⟩ | ⟨-, -, hsome⟩
      · exact h.isSome_cases hsome
      · exact h.isSome_cases hsome
    rw [choice_of_mem hname htype] at hchoice
    cases hchoice
  · have hname := (mem_of_choice hchoice).1
    have hsame : (∃ type, choiceName inPlace t = some type ∧ Clashes codec type p) ↔
        Clashes codec type p := by
      simp only [hname, Option.some.injEq, exists_eq_left']
    rw [hsame, atOnce, afterwards, hchoice, Option.bind_some, Option.bind_some, Clashes, h.late type p]
    show _ = (if p.readable then messageOf codec type putAside p else none) ↔ _
    rcases messageOf codec type putAside p with _ | v <;> cases lateSpelled type p <;>
      cases p.readable <;> simp

/-- The message has a type and a payload, and the type is told by that name. -/
def Carries (d : Datum) (type : String) (p : Datum) : Prop :=
  ∃ members first t, d = .record members ∧ own members = inOrder first t p ∧
    choiceName inPlace t = some type

theorem inOrder_injective {first first' : Bool} (h : inOrder first t p = inOrder first' t' p') :
    first = first' ∧ t = t' ∧ p = p' := by
  have hnames := congrArg (List.map Prod.fst) h
  cases first <;> cases first'
  · cases h
    exact ⟨rfl, rfl, rfl⟩
  · exact absurd hnames (show ["type", "payload"] ≠ ["payload", "type"] by decide)
  · exact absurd hnames (show ["payload", "type"] ≠ ["type", "payload"] by decide)
  · cases h
    exact ⟨rfl, rfl, rfl⟩

theorem carries_iff {members : List (String × Datum)} {first : Bool}
    (hown : own members = inOrder first t p) (type : String) (q : Datum) :
    Carries (.record members) type q ↔ choiceName inPlace t = some type ∧ q = p := by
  constructor
  · rintro ⟨members', first', t', hrecord, hown', hname⟩
    cases hrecord
    obtain ⟨-, rfl, rfl⟩ := inOrder_injective (hown.symm.trans hown')
    exact ⟨hname, rfl⟩
  · rintro ⟨hname, rfl⟩
    exact ⟨members, first, t, rfl, hown, hname⟩

theorem payloadFirst_inOrder {members : List (String × Datum)} {first : Bool}
    (hown : own members = inOrder first t p) : payloadFirst (.record members) = first := by
  rw [payloadFirst, hown]
  cases first <;> rfl

/-- A message in one order, as it is read. -/
theorem Messages.decode_inOrder (h : Messages codec table body) {members : List (String × Datum)}
    {first : Bool} (hown : own members = inOrder first t p) :
    codec.decode source (.record members) =
      if first then afterwards codec table source t p else atOnce codec table source t p := by
  cases first with
  | false => exact h.decode_typeFirst hown
  | true => exact h.decode_payloadFirst hown

theorem Messages.decode_list (h : Messages codec table body) {pairs : List (Datum × Datum)}
    (hpairs : ∀ q ∈ pairs, Reordered q.1 q.2) :
    codec.decode source (.list (pairs.map Prod.fst)) =
      codec.decode source (.list (pairs.map Prod.snd)) := by
  rw [h.decode, h.decode]
  match pairs with
  | [] => rfl
  | [_] => rfl
  | a :: b :: rest =>
    have ha := hpairs a List.mem_cons_self
    have hb := hpairs b (List.mem_cons_of_mem _ List.mem_cons_self)
    have hread : atOnce codec table source a.1 b.1 = atOnce codec table source a.2 b.2 :=
      h.atOnce_eq ha hb
    rw [atOnce, atOnce, ← h.bind_choice, ← h.bind_choice] at hread
    simp only [List.map_cons, envelope, List.isEmpty_iff, List.map_eq_nil_iff]
    split
    · exact hread
    · rfl

/-- Another order changes nothing, or type and payload change places: then one message is read at once and
    the other afterwards. -/
theorem Messages.decode_cases (h : Messages codec table body) (hd : Reordered d d') :
    (payloadFirst d = payloadFirst d' ∧ codec.decode inPlace d = codec.decode inPlace d') ∨
      payloadFirst d ≠ payloadFirst d' ∧ ∃ members first t p, d = .record members ∧
        own members = inOrder first t p ∧
        codec.decode inPlace d =
          (if first then afterwards codec table inPlace t p else atOnce codec table inPlace t p) ∧
        codec.decode inPlace d' =
          if first then atOnce codec table inPlace t p else afterwards codec table inPlace t p := by
  cases d with
  | list items =>
    obtain ⟨pairs, rfl, rfl, hpairs⟩ := hd.list_inv
    exact .inl ⟨rfl, h.decode_list hpairs⟩
  | record members =>
    obtain ⟨members', rfl, hmembers⟩ := hd.record_inv
    have hown := correspond_own hmembers
    generalize ho : own members = o at hown
    generalize ho' : own members' = o' at hown
    cases hown with
    | neither =>
      refine .inl ⟨?_, ?_⟩
      · rw [payloadFirst, payloadFirst, ho, ho']
      · rw [own] at ho ho'
        simp only [h.decode, envelope, ho, ho']
    | type ht =>
      refine .inl ⟨?_, ?_⟩
      · rw [payloadFirst, payloadFirst, ho, ho']
        rfl
      · rw [own] at ho ho'
        simp only [h.decode, envelope, ho, ho', blind_choice table id inPlace ht]
    | payload hp =>
      refine .inl ⟨?_, ?_⟩
      · rw [payloadFirst, payloadFirst, ho, ho']
        rfl
      · rw [own] at ho ho'
        simp only [h.decode, envelope, ho, ho']
        rfl
    | @both t t' p p' ht hp first first' =>
      have hread : codec.decode inPlace (.record members) = _ := h.decode_inOrder ho
      have hread' : codec.decode inPlace (.record members') = _ := h.decode_inOrder ho'
      rw [← h.atOnce_eq ht hp, ← h.afterwards_eq ht hp] at hread'
      rw [payloadFirst_inOrder ho, payloadFirst_inOrder ho']
      by_cases hfirst : first = first'
      · subst hfirst
        exact .inl ⟨rfl, hread.trans hread'.symm⟩
      · refine .inr ⟨hfirst, members, first, t, p, rfl, ho, hread, ?_⟩
        rw [hread']
        cases first <;> cases first'
        · exact absurd rfl hfirst
        · rfl
        · rfl
        · exact absurd rfl hfirst
  | _ =>
    cases hd.permuted
    exact .inl ⟨rfl, rfl⟩

/-- A message is the same in another order, unless type and payload change places and the payload clashes. -/
theorem Messages.decode_eq_iff (h : Messages codec table body) (hd : Reordered d d') :
    codec.decode inPlace d = codec.decode inPlace d' ↔
      ¬ (payloadFirst d ≠ payloadFirst d' ∧ ∃ type p, Carries d type p ∧ Clashes codec type p) := by
  rcases h.decode_cases hd with ⟨hfirst, hsame⟩ | ⟨hturned, members, first, t, p, rfl, hown, hread, hread'⟩
  · exact iff_of_true hsame fun hturned => hturned.1 hfirst
  · have hcarries : (∃ type q, Carries (.record members) type q ∧ Clashes codec type q) ↔
        ∃ type, choiceName inPlace t = some type ∧ Clashes codec type p := by
      constructor
      · rintro ⟨type, q, hcarries, hclash⟩
        obtain ⟨hname, rfl⟩ := (carries_iff hown type q).mp hcarries
        exact ⟨type, hname, hclash⟩
      · rintro ⟨type, hname, hclash⟩
        exact ⟨type, p, (carries_iff hown type p).mpr ⟨hname, rfl⟩, hclash⟩
    rw [and_iff_right hturned, hcarries, ← h.atOnce_eq_afterwards_iff, hread, hread']
    cases first
    · exact Iff.rfl
    · exact eq_comm

theorem Messages.eq_of_atOnce (h : Messages codec table body) {v v' : α}
    (hv : atOnce codec table inPlace t p = some v) (hv' : afterwards codec table inPlace t p = some v') :
    v = v' := by
  rw [afterwards] at hv'
  split at hv'
  · obtain ⟨type, htype, hmessage⟩ := Option.bind_eq_some_iff.mp hv
    obtain ⟨type', htype', hmessage'⟩ := Option.bind_eq_some_iff.mp hv'
    obtain rfl := Option.some.inj (htype.symm.trans htype')
    rw [h.late type p] at hmessage
    split at hmessage
    · cases hmessage
    · exact Option.some.inj (hmessage.symm.trans hmessage')
  · cases hv'

/-- Whatever the order, a message that is taken is the same. -/
theorem Messages.value_eq (h : Messages codec table body) (hd : Reordered d d') {v v' : α}
    (hv : codec.decode inPlace d = some v) (hv' : codec.decode inPlace d' = some v') : v = v' := by
  rcases h.decode_cases hd with ⟨-, hsame⟩ | ⟨-, members, first, t, p, -, -, hread, hread'⟩
  · exact Option.some.inj (hv.symm.trans (hsame.trans hv'))
  · rw [hread] at hv
    rw [hread'] at hv'
    cases first with
    | false => exact h.eq_of_atOnce hv hv'
    | true => exact (h.eq_of_atOnce hv' hv).symm

end Both

/-! ### Operations and events -/

/-- A payload is read by the names of its members. -/
theorem contents_eq {names : List String} {body : Source × List (String × Datum) → Option α}
    {source : Source} {p p' : Datum} (hp : Reordered p p')
    (hbody : ∀ given given', Alike given given' → body (source, given) = body (source, given')) :
    (contents names (some (source, p))).bind body = (contents names (some (source, p'))).bind body := by
  have hgiven : Option.Rel Alike (memberFields names source p) (memberFields names source p') :=
    memberFields_alike names hp
  rw [contents, contents, Option.bind_map, Option.bind_map]
  exact bind_eq_of_rel hgiven hbody

theorem blind_messageOf_operation {type : String} (htype : type ∈ operationTypes) :
    (messageOf operation type).Blind := by
  simp only [operationTypes, List.mem_cons, List.not_mem_nil, or_false] at htype
  rcases htype with rfl | rfl | rfl | rfl | rfl | rfl | rfl
  · intro source p p' hp
    refine contents_eq hp ?_
    intro given given' hgiven
    simp only [required_eq source blind_configuration hgiven]
  all_goals exact blind_of_plain (fun _ _ _ => rfl) (fun _ _ _ => rfl)

theorem blind_messageOf_event {type : String} (htype : type ∈ eventTypes) :
    (messageOf event type).Blind := by
  intro source p p' hp
  simp only [eventTypes, List.mem_cons, List.not_mem_nil, or_false] at htype
  rcases htype with rfl | rfl | rfl | rfl | rfl | rfl | rfl | rfl
  all_goals
    refine contents_eq hp ?_
    intro given given' hgiven
    simp only [logStream, required_eq source blind_runId hgiven, required_eq source blind_instant hgiven,
      required_eq source blind_runStatus hgiven, required_eq source blind_runOutcome hgiven,
      required_eq source blind_snapshot hgiven, required_eq source Codec.blind_path hgiven,
      required_eq source Codec.blind_text.list hgiven, required_eq source Decode.blind_text hgiven,
      required_eq source (Codec.blind_choice LogStream.all LogStream.name) hgiven,
      defaulted_eq source Codec.blind_word32.optional hgiven]

theorem messages_operation : ∃ body, Messages operation operationTypes body :=
  ⟨_, fun _ _ => rfl, fun _ => blind_messageOf_operation, operation_lateOnly⟩

theorem messages_event : ∃ body, Messages event eventTypes body :=
  ⟨_, fun _ _ => rfl, fun _ => blind_messageOf_event, event_lateOnly⟩

/-! ### All models -/

namespace Kind

def isMessage : Kind → Bool
  | .operation | .event => true
  | _ => false

theorem blind_codec {k : Kind} (hk : k.isMessage = false) : k.codec.Blind := by
  cases k with
  | operation | event => cases hk
  | configuration => exact blind_configuration
  | track => exact blind_track
  | snapshot => exact blind_snapshot
  | settings => exact blind_settings
  | toolSettings => exact blind_toolSettings
  | runStatus => exact blind_runStatus
  | runOutcome => exact blind_runOutcome
  | toggle => exact Codec.blind_choice _ _
  | outputMode => exact Codec.blind_choice _ _
  | logStream => exact Codec.blind_choice _ _
  | paperSize => exact Codec.blind_choice _ _
  | shading => exact Codec.blind_choice _ _

theorem messages_codec {k : Kind} (hk : k.isMessage = true) :
    ∃ table body, Messages k.codec table body := by
  cases k with
  | operation => exact ⟨_, messages_operation⟩
  | event => exact ⟨_, messages_event⟩
  | _ => cases hk

/-- Type and payload of a message change places, and the payload is taken in one of the orders only. -/
def Upset (k : Kind) (d d' : Datum) : Prop :=
  k.isMessage = true ∧ payloadFirst d ≠ payloadFirst d' ∧
    ∃ type p, Carries d type p ∧ Clashes k.codec type p

section Orders

variable {k : Kind} {d d' : Datum}

theorem decode_eq_iff (hd : Reordered d d') :
    k.codec.decode inPlace d = k.codec.decode inPlace d' ↔ ¬ k.Upset d d' := by
  rcases hk : k.isMessage with _ | _
  · refine iff_of_true (blind_codec hk inPlace hd) ?_
    rintro ⟨hmessage, -⟩
    rw [hk] at hmessage
    cases hmessage
  · obtain ⟨table, body, h⟩ := messages_codec hk
    rw [h.decode_eq_iff hd, Upset, and_iff_right hk]

theorem value_eq (hd : Reordered d d') {v v' : k.Value} (hv : k.codec.decode inPlace d = some v)
    (hv' : k.codec.decode inPlace d' = some v') : v = v' := by
  rcases hk : k.isMessage with _ | _
  · exact Option.some.inj (hv.symm.trans ((blind_codec hk inPlace hd).trans hv'))
  · obtain ⟨table, body, h⟩ := messages_codec hk
    exact h.value_eq hd hv hv'

end Orders

theorem toOption_readJson (codec : Codec α) {s : String} {d : Datum} (h : Json.read? s = some d) :
    (codec.readJson s).toOption = codec.decode inPlace d := by
  simp only [Codec.readJson, h]
  rcases hdecode : codec.decode ⟨.json, false⟩ d with _ | v
  · exact hdecode.symm
  · exact hdecode.symm

/-- **The order of members matters only where type and payload change places.**  Take any JSON text, of any
    model, in which no object has two members of one name, and any text with the same members in another
    order. Both are read, and one of them is taken as a value if and only if the other is taken as the same
    value, except for messages whose type and payload changed places around a payload that clashes. And if
    both are taken, the values are the same in any case. -/
theorem same_in_any_order_iff (k : Kind) {s : String} {d : Datum} (hread : Json.read? s = some d)
    (hdistinct : d.Distinct) :
    Json.Rearranged s.toList s.toList ∧
      ∀ s', Json.Rearranged s.toList s'.toList → ∃ d', Json.read? s' = some d' ∧
        ((k.codec.readJson s).toOption = (k.codec.readJson s').toOption ↔ ¬ k.Upset d d') ∧
        ∀ v v', k.codec.readJson s = .ok v → k.codec.readJson s' = .ok v' → v = v' := by
  refine ⟨Json.rearranged_of_read? hread, ?_⟩
  intro s' hs'
  obtain ⟨e, d', he, hread', hpermuted⟩ := hs'.read?
  obtain rfl := Option.some.inj (hread.symm.trans he)
  have hd : Reordered d d' := ⟨hdistinct, hpermuted⟩
  refine ⟨d', hread', ?_, ?_⟩
  · rw [toOption_readJson k.codec hread, toOption_readJson k.codec hread']
    exact decode_eq_iff hd
  · intro v v' hv hv'
    have hdecode := toOption_readJson k.codec hread
    have hdecode' := toOption_readJson k.codec hread'
    rw [hv] at hdecode
    rw [hv'] at hdecode'
    exact value_eq hd hdecode.symm hdecode'.symm

/-! A failure, told with the type in front, and with the members of every record turned round. -/

def failureTold : Datum :=
  .record [("type", .text "statusChanged"), ("payload", .record [
    ("status", .record [("state", .text "FAILED"), ("exit_code", .int 2)]), ("message", .text "Failed")])]

def failureTurned : Datum :=
  .record [("payload", .record [("message", .text "Failed"),
    ("status", .record [("exit_code", .int 2), ("state", .text "FAILED")])]), ("type", .text "statusChanged")]

theorem distinct_failureTold : failureTold.Distinct := by
  have hstatus := Distinct.two (show "state" ≠ "exit_code" by decide) (.text "FAILED") (.int 2)
  have hpayload := Distinct.two (show "status" ≠ "message" by decide) hstatus (.text "Failed")
  exact .two (by decide) (.text _) hpayload

theorem fits_failureTold : failureTold.Fits Json.depthLimit := by
  have hpayload : Datum.Fits 126 (.record [("status", _), ("message", .text "Failed")]) :=
    fits_cons (fits_failure 124 "state" "FAILED" 2) (fits_cons (.text 125 _) (fits_nil 125))
  exact fits_cons (.text 126 _) (fits_cons hpayload (fits_nil 126))

theorem permuted_failureTold : Permuted failureTold failureTurned := by
  have hstatus := Permuted.turned "state" "exit_code" (.same (.text "FAILED")) (.same (.int 2))
  have hpayload := Permuted.turned "status" "message" hstatus (.same (.text "Failed"))
  exact .turned _ _ (.same _) hpayload

theorem not_upset_failureTold (d' : Datum) : ¬ event.Upset failureTold d' := by
  rintro ⟨-, -, type, p, hcarries, hclash⟩
  obtain ⟨members, first, t, hmessage, hown, hname⟩ := hcarries
  obtain rfl := Datum.record.inj hmessage
  obtain ⟨rfl, rfl, rfl⟩ := inOrder_injective (show inOrder false _ _ = _ from hown)
  obtain rfl := Option.some.inj hname
  rcases hclash with ⟨hunreadable, -⟩ | ⟨-, hlate, -⟩
  · cases hunreadable
  · cases hlate

theorem same_in_any_order_failure :
    let s := "\x7b\"type\":\"statusChanged\",\"payload\":\x7b\"status\":\x7b\"state\":\"FAILED\"," ++
      "\"exit_code\":2\x7d,\"message\":\"Failed\"\x7d\x7d"
    let s' := "\x7b\"payload\":\x7b\"message\":\"Failed\",\"status\":\x7b\"exit_code\":2," ++
      "\"state\":\"FAILED\"\x7d\x7d,\"type\":\"statusChanged\"\x7d"
    Json.read? s = some failureTold ∧ failureTold.Distinct ∧ Json.Rearranged s.toList s'.toList ∧
      (event.codec.readJson s).toOption = some (.statusChanged (.failed 2) "Failed") ∧
      (event.codec.readJson s).toOption = (event.codec.readJson s').toOption := by
  intro s s'
  have hs : Json.write failureTold = s := by decide +kernel
  have hs' : Json.write failureTurned = s' := by decide +kernel
  have hread : Json.read? s = some failureTold := hs ▸ Json.read?_write fits_failureTold
  have hrearranged : Json.Rearranged s.toList s'.toList :=
    hs ▸ hs' ▸ Json.rearranged_write fits_failureTold permuted_failureTold
  obtain ⟨-, hall⟩ := event.same_in_any_order_iff hread distinct_failureTold
  obtain ⟨d', -, hsame, -⟩ := hall s' hrearranged
  refine ⟨hread, distinct_failureTold, hrearranged, ?_, hsame.mpr (not_upset_failureTold d')⟩
  rw [toOption_readJson event.codec hread]
  rfl

/-! A choice spelled with an empty record is taken only if the payload stands in front of the type. -/

def legalPaper : Datum :=
  .record [("configuration", .record [("paper_size", .record [("LEGAL", .record [])])])]

theorem fits_legalPaper : legalPaper.Fits 126 := by
  have hchoice : Datum.Fits 124 (.record [("LEGAL", .record [])]) := fits_cons (fits_nil 122) (fits_nil 123)
  have hform : Datum.Fits 125 (.record [("paper_size", _)]) := fits_cons hchoice (fits_nil 124)
  exact fits_cons hform (fits_nil 125)

theorem not_same_in_any_order_of_late_choice :
    let s := "\x7b\"type\":\"setConfiguration\",\"payload\":\x7b\"configuration\":" ++
      "\x7b\"paper_size\":\x7b\"LEGAL\":\x7b\x7d\x7d\x7d\x7d\x7d"
    let s' := "\x7b\"payload\":\x7b\"configuration\":" ++
      "\x7b\"paper_size\":\x7b\"LEGAL\":\x7b\x7d\x7d\x7d\x7d,\"type\":\"setConfiguration\"\x7d"
    (∃ d, Json.read? s = some d ∧ d.Distinct) ∧ Json.Rearranged s.toList s'.toList ∧
      (operation.codec.readJson s).toOption = none ∧
      (operation.codec.readJson s').toOption = some (.setConfiguration { paper := .legal }) := by
  intro s s'
  let d : Datum := .record [("type", .text "setConfiguration"), ("payload", legalPaper)]
  let d' : Datum := .record [("payload", legalPaper), ("type", .text "setConfiguration")]
  have hs : Json.write d = s := by decide +kernel
  have hs' : Json.write d' = s' := by decide +kernel
  have hdistinct : d.Distinct :=
    .two (by decide) (.text _) (.one (.one (.one (.record .nil (List.forall_mem_nil _)))))
  have hfits : d.Fits Json.depthLimit := fits_cons (.text 126 _) (fits_cons fits_legalPaper (fits_nil 126))
  have hfits' : d'.Fits Json.depthLimit := fits_cons fits_legalPaper (fits_cons (.text 126 _) (fits_nil 126))
  have hread : Json.read? s = some d := hs ▸ Json.read?_write hfits
  have hread' : Json.read? s' = some d' := hs' ▸ Json.read?_write hfits'
  have hrearranged : Json.Rearranged s.toList s'.toList :=
    hs ▸ hs' ▸ Json.rearranged_write hfits (.turned _ _ (.same _) (.same _))
  refine ⟨⟨d, hread, hdistinct⟩, hrearranged, ?_, ?_⟩
  · rw [toOption_readJson operation.codec hread]
    rfl
  · rw [toOption_readJson operation.codec hread']
    rfl

end Kind

end Cuesheet.Wire
