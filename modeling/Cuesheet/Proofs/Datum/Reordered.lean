import Cuesheet.Datum.Decode
import Mathlib.Data.List.Perm.Basic
import Mathlib.Data.Option.Basic

/-!
# The order of members

Two data are `Permuted` if they differ only in the order in which records have their members, at any depth.
Decoders look members up by name, so that the order does not matter to them as long as no name stands
twice (`Datum.Distinct`).
-/

namespace Cuesheet

namespace Datum

/-- No record has two members of one name, at any depth. -/
inductive Distinct : Datum → Prop where
  | null : Distinct .null
  | bool (b : Bool) : Distinct (.bool b)
  | int (n : Int) : Distinct (.int n)
  | real (x : Binary64) : Distinct (.real x)
  | text (s : String) : Distinct (.text s)
  | list {items : List Datum} (hitems : ∀ d ∈ items, Distinct d) : Distinct (.list items)
  | record {members : List (String × Datum)} (hnames : (members.map Prod.fst).Nodup)
      (hmembers : ∀ m ∈ members, Distinct m.2) : Distinct (.record members)
  | unreadable : Distinct .unreadable

/-- A name with two values, of which the first or the second is taken. -/
abbrev Pair := String × Datum × Datum

def Pair.first (p : Pair) : String × Datum := (p.1, p.2.1)

def Pair.second (p : Pair) : String × Datum := (p.1, p.2.2)

/-- The same but for the order of members. -/
inductive Permuted : Datum → Datum → Prop where
  | same (d : Datum) : Permuted d d
  | list (pairs : List (Datum × Datum)) (hpairs : ∀ p ∈ pairs, Permuted p.1 p.2) :
      Permuted (.list (pairs.map Prod.fst)) (.list (pairs.map Prod.snd))
  | record (pairs : List Pair) (hpairs : ∀ p ∈ pairs, Permuted p.2.1 p.2.2)
      {members : List (String × Datum)} (hperm : members.Perm (pairs.map Pair.second)) :
      Permuted (.record (pairs.map Pair.first)) (.record members)

structure Reordered (d d' : Datum) : Prop where
  distinct : d.Distinct
  permuted : d.Permuted d'

/-! ### One or two members -/

section Few

variable {name name' : String} {d d' e e' : Datum}

theorem Distinct.one (hd : d.Distinct) : Distinct (.record [(name, d)]) :=
  .record (List.pairwise_singleton _ name) (List.forall_mem_singleton.mpr hd)

theorem Distinct.two (hname : name ≠ name') (hd : d.Distinct) (he : e.Distinct) :
    Distinct (.record [(name, d), (name', e)]) := by
  refine .record ?_ (List.forall_mem_cons.mpr ⟨hd, List.forall_mem_singleton.mpr he⟩)
  exact List.nodup_cons.mpr ⟨List.mem_singleton.not.mpr hname, List.pairwise_singleton _ name'⟩

theorem Permuted.turned (name name' : String) (hd : Permuted d d') (he : Permuted e e') :
    Permuted (.record [(name, d), (name', e)]) (.record [(name', e'), (name, d')]) :=
  .record [(name, d, d'), (name', e, e')]
    (List.forall_mem_cons.mpr ⟨hd, List.forall_mem_singleton.mpr he⟩) (.swap ..)

end Few

/-! ### Readability -/

theorem readableItems_eq_all (items : List Datum) : readableItems items = items.all readable := by
  induction items with
  | nil => rfl
  | cons d items ih => rw [readableItems, ih, List.all_cons]

theorem readableMembers_eq_all (members : List (String × Datum)) :
    readableMembers members = members.all (·.2.readable) := by
  induction members with
  | nil => rfl
  | cons m members ih => rw [readableMembers, ih, List.all_cons]

theorem all_map_eq {α : Type} {f g : α → Bool} {xs : List α} (h : ∀ x ∈ xs, f x = g x) :
    xs.all f = xs.all g := by
  rw [Bool.eq_iff_iff, List.all_eq_true, List.all_eq_true]
  exact forall₂_congr fun x hx => by rw [h x hx]

theorem Permuted.readable_eq {d d' : Datum} (h : Permuted d d') : d.readable = d'.readable := by
  induction h with
  | same d => rfl
  | list pairs _ ih =>
    rw [readable, readable, readableItems_eq_all, readableItems_eq_all, List.all_map, List.all_map]
    exact all_map_eq ih
  | record pairs _ hperm ih =>
    rw [readable, readable, readableMembers_eq_all, readableMembers_eq_all, hperm.all_eq, List.all_map,
      List.all_map]
    exact all_map_eq ih

/-! ### Members by name -/

/-- Of the members of one list each has its counterpart in the other, wherever it stands. -/
structure Matched (ms ms' : List (String × Datum)) : Prop where
  names : (ms.map Prod.fst).Nodup
  pairs : ∃ pairs : List Pair, ms = pairs.map Pair.first ∧ ms'.Perm (pairs.map Pair.second) ∧
    ∀ p ∈ pairs, Reordered p.2.1 p.2.2

/-- Whatever is looked up gives values that differ only in the order of members. -/
def Alike (given given' : List (String × Datum)) : Prop :=
  ∀ name, Option.Rel Reordered (given.lookup name) (given'.lookup name)

section Lookup

variable {ms ms' : List (String × Datum)} {name : String}

theorem lookup_map_pair (f : Datum × Datum → Datum) (pairs : List Pair) :
    (pairs.map fun p => (p.1, f p.2)).lookup name = (pairs.lookup name).map f := by
  induction pairs with
  | nil => rfl
  | cons p pairs ih =>
    rw [List.map_cons, List.lookup_cons, List.lookup_cons, ih]
    split
    · rfl
    · rfl

theorem lookup_eq_of_perm (hperm : ms.Perm ms') (hnames : (ms.map Prod.fst).Nodup) :
    ms.lookup name = ms'.lookup name := by
  induction hperm with
  | nil => rfl
  | cons m _ ih =>
    rw [List.lookup_cons, List.lookup_cons, ih (List.nodup_cons.mp hnames).2]
  | swap m m' ms =>
    obtain ⟨n, d⟩ := m
    obtain ⟨n', d'⟩ := m'
    have hne : n' ≠ n := fun heq => (List.nodup_cons.mp hnames).1 (heq ▸ List.mem_cons_self)
    simp only [List.lookup_cons]
    by_cases hn : name = n
    · rw [beq_eq_false_iff_ne.mpr fun hn' : name = n' => hne (hn'.symm.trans hn)]
    · rw [beq_eq_false_iff_ne.mpr hn]
  | trans h _ ih ih' =>
    rw [ih hnames, ih' ((h.map Prod.fst).nodup_iff.mp hnames)]

theorem mem_of_lookup_eq {pairs : List Pair} {q : Datum × Datum} (h : pairs.lookup name = some q) :
    (name, q) ∈ pairs := by
  induction pairs with
  | nil => cases h
  | cons p pairs ih =>
    rw [List.lookup_cons] at h
    split at h
    · rename_i heq
      cases h
      rw [eq_of_beq heq]
      exact List.mem_cons_self
    · exact List.mem_cons_of_mem _ (ih h)

theorem Matched.alike (h : Matched ms ms') : Alike ms ms' := by
  intro name
  obtain ⟨hnames, pairs, rfl, hperm, hpairs⟩ := h
  have hsecond : ((pairs.map Pair.second).map Prod.fst).Nodup := by
    rw [List.map_map] at hnames ⊢
    exact hnames
  have hright : ms'.lookup name = (pairs.map Pair.second).lookup name :=
    (lookup_eq_of_perm hperm.symm hsecond).symm
  have hfirst : (pairs.map Pair.first).lookup name = (pairs.lookup name).map Prod.fst :=
    lookup_map_pair Prod.fst pairs
  have hmap : (pairs.map Pair.second).lookup name = (pairs.lookup name).map Prod.snd :=
    lookup_map_pair Prod.snd pairs
  rw [hright, hfirst, hmap]
  rcases hlookup : pairs.lookup name with _ | q
  · exact .none
  · exact .some (hpairs _ (mem_of_lookup_eq hlookup))

theorem Matched.filter (h : Matched ms ms') (wanted : String → Bool) :
    Matched (ms.filter (wanted ·.1)) (ms'.filter (wanted ·.1)) := by
  obtain ⟨hnames, pairs, rfl, hperm, hpairs⟩ := h
  refine ⟨?_, pairs.filter (wanted ·.1), ?_, ?_, ?_⟩
  · exact hnames.sublist (List.filter_sublist.map Prod.fst)
  · rw [List.filter_map]
    rfl
  · have hfiltered := hperm.filter (wanted ·.1)
    rw [List.filter_map] at hfiltered
    exact hfiltered
  · exact fun p hp => hpairs p (List.mem_filter.mp hp).1

theorem Matched.nodup (h : Matched ms ms') : (ms'.map Prod.fst).Nodup := by
  obtain ⟨hnames, pairs, rfl, hperm, -⟩ := h
  rw [(hperm.map Prod.fst).nodup_iff, List.map_map]
  rw [List.map_map] at hnames
  exact hnames

theorem Matched.readableMembers_eq (h : Matched ms ms') :
    readableMembers ms = readableMembers ms' := by
  obtain ⟨-, pairs, rfl, hperm, hpairs⟩ := h
  exact (Permuted.record pairs (fun p hp => (hpairs p hp).permuted) hperm).readable_eq

end Lookup

/-! ### What is inside -/

section Inside

variable {d d' : Datum} {items : List Datum} {ms ms' : List (String × Datum)}

theorem Reordered.refl (hd : d.Distinct) : Reordered d d := ⟨hd, .same d⟩

theorem Reordered.list_inv (h : Reordered (.list items) d') :
    ∃ pairs : List (Datum × Datum), items = pairs.map Prod.fst ∧ d' = .list (pairs.map Prod.snd) ∧
      ∀ p ∈ pairs, Reordered p.1 p.2 := by
  obtain ⟨hdistinct, hpermuted⟩ := h
  cases hdistinct with
  | list hitems =>
    cases hpermuted with
    | same =>
      refine ⟨items.map fun d => (d, d), ?_, ?_, ?_⟩
      · rw [List.map_map]
        exact (List.map_id _).symm
      · rw [List.map_map]
        exact congrArg Datum.list (List.map_id _).symm
      · intro p hp
        obtain ⟨d, hd, rfl⟩ := List.mem_map.mp hp
        exact .refl (hitems d hd)
    | list pairs hpairs =>
      exact ⟨pairs, rfl, rfl, fun p hp => ⟨hitems _ (List.mem_map_of_mem hp), hpairs p hp⟩⟩

theorem Reordered.record_inv (h : Reordered (.record ms) d') :
    ∃ ms', d' = .record ms' ∧ Matched ms ms' := by
  obtain ⟨hdistinct, hpermuted⟩ := h
  cases hdistinct with
  | record hnames hmembers =>
    cases hpermuted with
    | same =>
      refine ⟨ms, rfl, hnames, ms.map fun m => (m.1, m.2, m.2), ?_, ?_, ?_⟩
      · rw [List.map_map]
        exact (List.map_id _).symm
      · rw [List.map_map]
        exact .of_eq (List.map_id _).symm
      · intro p hp
        obtain ⟨m, hm, rfl⟩ := List.mem_map.mp hp
        exact .refl (hmembers m hm)
    | record pairs hpairs hperm =>
      exact ⟨_, rfl, hnames, pairs, rfl, hperm,
        fun p hp => ⟨hmembers _ (List.mem_map_of_mem hp), hpairs p hp⟩⟩

theorem Matched.record (h : Matched ms ms') : Reordered (.record ms) (.record ms') := by
  obtain ⟨hnames, pairs, rfl, hperm, hpairs⟩ := h
  constructor
  · refine .record hnames ?_
    intro m hm
    obtain ⟨p, hp, rfl⟩ := List.mem_map.mp hm
    exact (hpairs p hp).distinct
  · exact .record pairs (fun p hp => (hpairs p hp).permuted) hperm

theorem reordered_list {pairs : List (Datum × Datum)} (hpairs : ∀ p ∈ pairs, Reordered p.1 p.2) :
    Reordered (.list (pairs.map Prod.fst)) (.list (pairs.map Prod.snd)) := by
  constructor
  · refine .list ?_
    intro d hd
    obtain ⟨p, hp, rfl⟩ := List.mem_map.mp hd
    exact (hpairs p hp).distinct
  · exact .list pairs fun p hp => (hpairs p hp).permuted

end Inside

end Datum

open Datum

/-! ### Decoders -/

/-- The order of members does not matter to it. -/
def Decoder.Blind {α : Type} (decoder : Decoder α) : Prop :=
  ∀ source {d d' : Datum}, Reordered d d' → decoder source d = decoder source d'

theorem Decoder.Blind.bind {α β : Type} {decoder : Decoder α} (h : decoder.Blind) (f : α → Option β) :
    Decoder.Blind fun source d => (decoder source d).bind f := by
  intro source d d' hd
  exact congrArg (Option.bind · f) (h source hd)

theorem Decoder.Blind.map {α β : Type} {decoder : Decoder α} (h : decoder.Blind) (f : α → β) :
    Decoder.Blind fun source d => (decoder source d).map f := by
  intro source d d' hd
  exact congrArg (Option.map f) (h source hd)

namespace Decode

section Values

variable {α : Type} {decoder : Decoder α}

/-- Whatever takes all lists alike, and all records, does not see an order. -/
theorem blind_of_plain
    (hlist : ∀ source items items', decoder source (.list items) = decoder source (.list items'))
    (hrecord : ∀ source ms ms', decoder source (.record ms) = decoder source (.record ms')) :
    decoder.Blind := by
  intro source d d' h
  cases h.permuted with
  | same => rfl
  | list => exact hlist _ _ _
  | record => exact hrecord _ _ _

theorem blind_text : Decoder.Blind text := blind_of_plain (fun _ _ _ => rfl) (fun _ _ _ => rfl)

theorem blind_bool : Decoder.Blind bool := blind_of_plain (fun _ _ _ => rfl) (fun _ _ _ => rfl)

theorem blind_real : Decoder.Blind real := blind_of_plain (fun _ _ _ => rfl) (fun _ _ _ => rfl)

theorem blind_intBetween (low high : Int) : Decoder.Blind (intBetween low high) :=
  blind_of_plain (fun _ _ _ => rfl) (fun _ _ _ => rfl)

theorem blind_optional (h : decoder.Blind) : (optional decoder).Blind := by
  intro source d d' hd
  have hmap := congrArg (Option.map some) (h source hd)
  cases hd.permuted with
  | same => rfl
  | list => exact hmap
  | record => exact hmap

theorem mapM_pairs {pairs : List (Datum × Datum)} {f : Datum → Option α}
    (h : ∀ p ∈ pairs, f p.1 = f p.2) :
    (pairs.map Prod.fst).mapM f = (pairs.map Prod.snd).mapM f := by
  induction pairs with
  | nil => rfl
  | cons p pairs ih =>
    obtain ⟨hp, hpairs⟩ := List.forall_mem_cons.mp h
    rw [List.map_cons, List.map_cons, List.mapM_cons, List.mapM_cons, hp, ih hpairs]

theorem blind_list (h : decoder.Blind) : (list decoder).Blind := by
  intro source d d' hd
  cases d with
  | list items =>
    obtain ⟨pairs, rfl, rfl, hpairs⟩ := hd.list_inv
    exact mapM_pairs fun p hp => h source (hpairs p hp)
  | record ms =>
    obtain ⟨ms', rfl, -⟩ := hd.record_inv
    rfl
  | _ =>
    cases hd.permuted
    rfl

/-! ### Choices -/

theorem isMark_eq (source : Source) {d d' : Datum} (h : Reordered d d') :
    isMark source d = isMark source d' := by
  have hlength {ms ms' : List (String × Datum)} (hms : Matched ms ms') : ms.length = ms'.length := by
    obtain ⟨-, pairs, rfl, hperm, -⟩ := hms
    rw [hperm.length_eq, List.length_map, List.length_map]
  cases d with
  | list items =>
    obtain ⟨pairs, rfl, rfl, -⟩ := h.list_inv
    cases pairs with
    | nil => rfl
    | cons p pairs => rcases source with ⟨_ | _, _ | _⟩ <;> rfl
  | record ms =>
    obtain ⟨ms', rfl, hms⟩ := h.record_inv
    have hsame := hlength hms
    rcases ms with _ | ⟨m, ms⟩ <;> rcases ms' with _ | ⟨m', ms'⟩
    · rfl
    · cases hsame
    · cases hsame
    · rcases source with ⟨_ | _, _ | _⟩ <;> rfl
  | _ =>
    cases h.permuted
    rfl

theorem blind_choiceName : Decoder.Blind choiceName := by
  intro source d d' h
  cases d with
  | list items =>
    obtain ⟨pairs, rfl, rfl, -⟩ := h.list_inv
    rfl
  | record ms =>
    obtain ⟨ms', rfl, -, pairs, rfl, hperm, hpairs⟩ := h.record_inv
    match pairs with
    | [] =>
      obtain rfl := List.perm_nil.mp hperm
      rfl
    | [p] =>
      obtain rfl := List.perm_singleton.mp hperm
      show (if isMark source p.2.1 then some p.1 else none) = _
      rw [isMark_eq source (hpairs p List.mem_cons_self)]
      rfl
    | p :: q :: pairs =>
      obtain ⟨m, m', ms, rfl⟩ : ∃ m m' ms, ms' = m :: m' :: ms := by
        rcases ms' with _ | ⟨m, _ | ⟨m', ms⟩⟩
        · cases hperm.length_eq
        · cases hperm.length_eq
        · exact ⟨m, m', ms, rfl⟩
      rfl
  | _ =>
    cases h.permuted
    rfl

theorem blind_choice (table : List α) (name : α → String) : Decoder.Blind (choice table name) :=
  blind_choiceName.bind _

theorem blind_kindName (table : List String) : Decoder.Blind (kindName table) := by
  refine blind_of_plain ?_ ?_
  · intro source items items'
    rcases source with ⟨_ | _, _ | _⟩ <;> rfl
  · intro source ms ms'
    rcases source with ⟨_ | _, _ | _⟩ <;> rfl

end Values

/-! ### Records -/

section Records

variable {α β : Type} {source : Source} {d d' : Datum} {ms ms' given given' : List (String × Datum)}

theorem lookup_zip (names : List String) {pairs : List (Datum × Datum)}
    (hpairs : ∀ p ∈ pairs, Reordered p.1 p.2) :
    Alike (names.zip (pairs.map Prod.fst)) (names.zip (pairs.map Prod.snd)) := by
  intro name
  induction names generalizing pairs with
  | nil => exact .none
  | cons n names ih =>
    cases pairs with
    | nil => exact .none
    | cons p pairs =>
      obtain ⟨hp, hpairs⟩ := List.forall_mem_cons.mp hpairs
      simp only [List.map_cons, List.zip_cons_cons, List.lookup_cons]
      split
      · exact .some hp
      · exact ih hpairs

theorem fields_alike (names : List String) (least : Nat) (h : Reordered d d') :
    Option.Rel Alike (fields names least source d) (fields names least source d') := by
  cases d with
  | list items =>
    obtain ⟨pairs, rfl, rfl, hpairs⟩ := h.list_inv
    simp only [fields, List.length_map]
    split
    · exact .some (lookup_zip names hpairs)
    · exact .none
  | record ms =>
    obtain ⟨ms', rfl, hms⟩ := h.record_inv
    have hknown := hms.filter (names.contains ·)
    rw [fields, fields, membersOf, membersOf, if_pos hknown.names, if_pos hknown.nodup]
    exact .some hknown.alike
  | _ =>
    cases h.permuted
    exact .none

theorem memberFields_alike (names : List String) (h : Reordered d d') :
    Option.Rel Alike (memberFields names source d) (memberFields names source d') := by
  cases d with
  | list items =>
    obtain ⟨pairs, rfl, rfl, -⟩ := h.list_inv
    exact .none
  | record ms =>
    obtain ⟨ms', rfl, hms⟩ := h.record_inv
    have hknown := hms.filter (names.contains ·)
    rw [memberFields, memberFields, membersOf, membersOf, if_pos hknown.names, if_pos hknown.nodup]
    exact .some hknown.alike
  | _ =>
    cases h.permuted
    exact .none

/-- What is made of values that are related is the same if it is the same for related values. -/
theorem bind_eq_of_rel {γ : Type} {R : γ → γ → Prop} {x x' : Option γ} (h : Option.Rel R x x')
    {f f' : γ → Option β} (hf : ∀ a a', R a a' → f a = f' a') : x.bind f = x'.bind f' := by
  cases h with
  | none => rfl
  | some hr => exact hf _ _ hr

theorem required_eq (source : Source) {decoder : Decoder α} (hdecoder : decoder.Blind)
    (h : Alike given given') (name : String) :
    required source given name decoder = required source given' name decoder :=
  bind_eq_of_rel (h name) fun _ _ hd => hdecoder source hd

theorem defaulted_eq (source : Source) {decoder : Decoder α} (hdecoder : decoder.Blind)
    (h : Alike given given') (name : String) (absent : α) :
    defaulted source given name decoder absent = defaulted source given' name decoder absent := by
  have hname := h name
  rw [defaulted, defaulted]
  revert hname
  generalize given.lookup name = x
  generalize given'.lookup name = x'
  intro hname
  cases hname with
  | none => rfl
  | some hd => exact hdecoder source hd

/-! ### Kinds -/

/-- The same kind, and rests that differ only in the order of members. -/
def SameKind (x x' : String × Datum) : Prop := x.1 = x'.1 ∧ Reordered x.2 x'.2

theorem tagged_sameKind (tag : String) (table : List String) (h : Reordered d d') :
    Option.Rel SameKind (tagged tag table source d) (tagged tag table source d') := by
  have hkind {e e' : Datum} (he : Reordered e e') {rest rest' : Datum} (hrest : Reordered rest rest') :
      Option.Rel SameKind ((kindName table source e).map (·, rest))
        ((kindName table source e').map (·, rest')) := by
    rw [← blind_kindName table source he]
    cases kindName table source e with
    | none => exact .none
    | some name => exact .some ⟨rfl, hrest⟩
  cases d with
  | list items =>
    obtain ⟨pairs, rfl, rfl, hpairs⟩ := h.list_inv
    cases pairs with
    | nil => exact .none
    | cons p pairs =>
      obtain ⟨hp, hpairs⟩ := List.forall_mem_cons.mp hpairs
      have hrest := reordered_list hpairs
      have hreadable := hrest.permuted.readable_eq
      simp only [readable] at hreadable
      simp only [List.map_cons, tagged, hreadable]
      split
      · exact hkind hp hrest
      · exact .none
  | record ms =>
    obtain ⟨ms', rfl, hms⟩ := h.record_inv
    have hrest := hms.filter (· != tag)
    simp only [tagged, hrest.readableMembers_eq]
    split
    · exact .none
    obtain ⟨hnames, pairs, hfirst, hperm, hpairs⟩ := hms.filter (· == tag)
    have htag : ∀ p ∈ pairs, p.1 = tag := by
      intro p hp
      have hmem : p.first ∈ ms.filter (·.1 == tag) := hfirst ▸ List.mem_map_of_mem hp
      exact eq_of_beq (List.mem_filter.mp hmem).2
    rw [hfirst] at hnames ⊢
    match pairs with
    | [] =>
      rw [List.perm_nil.mp hperm]
      exact .none
    | [p] =>
      rw [List.perm_singleton.mp hperm]
      exact hkind (hpairs p List.mem_cons_self) hrest.record
    | p :: q :: pairs =>
      have hp := htag p List.mem_cons_self
      have hq := htag q (List.mem_cons_of_mem _ List.mem_cons_self)
      refine absurd (List.nodup_cons.mp hnames).1 (not_not_intro ?_)
      show p.1 ∈ q.1 :: _
      rw [hp, hq]
      exact List.mem_cons_self
  | _ =>
    cases h.permuted
    exact .none

end Records

end Decode

end Cuesheet
