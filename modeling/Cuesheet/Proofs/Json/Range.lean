import Cuesheet.Json.Reader
import Cuesheet.Proofs.Json.Number

/-!
# What numbers are read

A JSON text may hold any digits, but what is read of it has bounds: an integer has 64 bits, and a
double is a finite number, since a number beyond the doubles is marked as unreadable. `Datum.InRange`
says this of a datum with everything inside it. The three readers call each other with less fuel each
time, so that one induction on the fuel serves them all.
-/

namespace Cuesheet

inductive Datum.InRange : Datum → Prop where
  | null : InRange .null
  | bool (b : Bool) : InRange (.bool b)
  | int {n : Int} (hlow : -(2 ^ 63) ≤ n) (hhigh : n < 2 ^ 64) : InRange (.int n)
  | real {x : Binary64} (hfinite : x.isFinite = true) : InRange (.real x)
  | text (s : String) : InRange (.text s)
  | list {items : List Datum} (hitems : ∀ d ∈ items, InRange d) : InRange (.list items)
  | record {members : List (String × Datum)} (hmembers : ∀ m ∈ members, InRange m.2) :
      InRange (.record members)
  | unreadable : InRange .unreadable

namespace Json

/-! ### Numbers -/

theorem inRange_realDatum (negative : Bool) (digits : Nat) (e : Int) :
    (realDatum negative digits e).InRange := by
  unfold realDatum
  split
  · exact .real rfl
  · exact .unreadable

theorem inRange_wholeDatum (negative : Bool) (digits : List Char) :
    (wholeDatum negative digits).InRange := by
  have hsmall : Nat.pow 2 63 = 9223372036854775808 := by decide
  have hlarge : Nat.pow 2 64 = 18446744073709551616 := by decide
  unfold wholeDatum
  dsimp only
  split
  · split
    · exact .int (by omega) (by omega)
    · exact inRange_realDatum _ _ _
  · split
    · exact .int (by omega) (by omega)
    · exact inRange_realDatum _ _ _

theorem inRange_scaledDatum (negative : Bool) (whole fraction : List Char) (e : Int) :
    (scaledDatum negative whole fraction e).InRange := by
  unfold scaledDatum
  dsimp only
  split
  · exact inRange_realDatum _ _ _
  · split
    · exact .real rfl
    · exact .unreadable

theorem inRange_number? {cs : List Char} {d : Datum} {rest : List Char}
    (h : number? cs = some (d, rest)) : d.InRange := by
  rw [number?_eq] at h
  obtain ⟨⟨whole, r₁⟩, _, h⟩ := Option.bind_eq_some_iff.mp h
  obtain ⟨⟨fraction, r₂, fractional⟩, _, h⟩ := Option.bind_eq_some_iff.mp h
  dsimp only at h
  unfold scaled? at h
  split at h
  · split at h
    · obtain ⟨⟨e, r₃⟩, _, hsame⟩ := Option.map_eq_some_iff.mp h
      obtain ⟨rfl, _⟩ := Prod.mk.inj hsame
      exact inRange_scaledDatum _ _ _ _
    · split at h
      · obtain ⟨rfl, _⟩ := Prod.mk.inj (Option.some.inj h)
        exact inRange_scaledDatum _ _ _ _
      · obtain ⟨rfl, _⟩ := Prod.mk.inj (Option.some.inj h)
        exact inRange_wholeDatum _ _
  · split at h
    · obtain ⟨rfl, _⟩ := Prod.mk.inj (Option.some.inj h)
      exact inRange_scaledDatum _ _ _ _
    · obtain ⟨rfl, _⟩ := Prod.mk.inj (Option.some.inj h)
      exact inRange_wholeDatum _ _

/-! ### Containers -/

theorem inRange_contained {d : Datum} (hd : d.InRange) (depth : Nat) :
    (contained depth d).InRange := by
  unfold contained
  split
  · exact hd
  · exact .unreadable

/-- Whatever comes out of a list of readings was read from one of its items. -/
theorem exists_of_mem_mapM {α β : Type} {f : α → Option β} {xs : List α} {ys : List β}
    (h : xs.mapM f = some ys) {y : β} (hy : y ∈ ys) : ∃ x ∈ xs, f x = some y := by
  induction xs generalizing ys with
  | nil =>
    obtain rfl := Option.some.inj h
    cases hy
  | cons x xs ih =>
    rw [List.mapM_cons] at h
    obtain ⟨y', hx, h⟩ := Option.bind_eq_some_iff.mp h
    obtain ⟨ys', hxs, h⟩ := Option.bind_eq_some_iff.mp h
    obtain rfl := Option.some.inj h
    rcases List.mem_cons.mp hy with rfl | hy
    · exact ⟨x, List.mem_cons_self, hx⟩
    · obtain ⟨x', hmem, hx'⟩ := ih hxs hy
      exact ⟨x', List.mem_cons_of_mem _ hmem, hx'⟩

theorem inRange_recordOf {members : List (Option String × Datum)}
    (hmembers : ∀ m ∈ members, m.2.InRange) : (recordOf members).InRange := by
  unfold recordOf
  split
  · rename_i ms hnames
    refine .record ?_
    intro m hm
    obtain ⟨⟨name, d⟩, hmem, hname⟩ := exists_of_mem_mapM hnames hm
    obtain ⟨_, _, rfl⟩ := Option.map_eq_some_iff.mp hname
    exact hmembers _ hmem
  · exact .unreadable

/-- What the readers give with so much fuel is in range. -/
structure Bounded (fuel : Nat) : Prop where
  value : ∀ {depth cs d rest}, value? fuel depth cs = some (d, rest) → d.InRange
  items : ∀ {depth cs ds rest}, items? fuel depth cs = some (ds, rest) → ∀ d ∈ ds, d.InRange
  members : ∀ {depth cs ms rest}, members? fuel depth cs = some (ms, rest) →
    ∀ m ∈ ms, m.2.InRange

theorem Bounded.value_succ {fuel : Nat} (hb : Bounded fuel) {depth : Nat} {cs rest : List Char}
    {d : Datum} (h : value? (fuel + 1) depth cs = some (d, rest)) : d.InRange := by
  rw [value?] at h
  split at h
  · obtain ⟨rfl, _⟩ := Prod.mk.inj (Option.some.inj h)
    exact .null
  · obtain ⟨rfl, _⟩ := Prod.mk.inj (Option.some.inj h)
    exact .bool true
  · obtain ⟨rfl, _⟩ := Prod.mk.inj (Option.some.inj h)
    exact .bool false
  · obtain ⟨⟨s, r⟩, _, hsame⟩ := Option.map_eq_some_iff.mp h
    obtain ⟨rfl, _⟩ := Prod.mk.inj hsame
    cases s with
    | none => exact .unreadable
    | some s => exact .text s
  · split at h
    · obtain ⟨rfl, _⟩ := Prod.mk.inj (Option.some.inj h)
      exact inRange_contained (.list (by intro d hd; cases hd)) _
    · obtain ⟨⟨ds, r⟩, hitems, hsame⟩ := Option.map_eq_some_iff.mp h
      obtain ⟨rfl, _⟩ := Prod.mk.inj hsame
      exact inRange_contained (.list (hb.items hitems)) _
  · split at h
    · obtain ⟨rfl, _⟩ := Prod.mk.inj (Option.some.inj h)
      exact inRange_contained (.record (by intro m hm; cases hm)) _
    · obtain ⟨⟨ms, r⟩, hmembers, hsame⟩ := Option.map_eq_some_iff.mp h
      obtain ⟨rfl, _⟩ := Prod.mk.inj hsame
      exact inRange_contained (inRange_recordOf (hb.members hmembers)) _
  · exact inRange_number? h

theorem Bounded.items_succ {fuel : Nat} (hb : Bounded fuel) {depth : Nat} {cs rest : List Char}
    {ds : List Datum} (h : items? (fuel + 1) depth cs = some (ds, rest)) :
    ∀ d ∈ ds, d.InRange := by
  rw [items?] at h
  obtain ⟨⟨x, r⟩, hfirst, h⟩ := Option.bind_eq_some_iff.mp h
  have hx := hb.value hfirst
  dsimp only at h
  split at h
  · obtain ⟨⟨xs, r'⟩, htail, h⟩ := Option.bind_eq_some_iff.mp h
    obtain ⟨rfl, _⟩ := Prod.mk.inj (Option.some.inj h)
    intro d hd
    rcases List.mem_cons.mp hd with rfl | hd
    · exact hx
    · exact hb.items htail d hd
  · obtain ⟨rfl, _⟩ := Prod.mk.inj (Option.some.inj h)
    intro d hd
    obtain rfl := List.mem_singleton.mp hd
    exact hx
  · cases h

theorem Bounded.members_succ {fuel : Nat} (hb : Bounded fuel) {depth : Nat}
    {cs rest : List Char} {ms : List (Option String × Datum)}
    (h : members? (fuel + 1) depth cs = some (ms, rest)) : ∀ m ∈ ms, m.2.InRange := by
  rw [members?] at h
  split at h
  · obtain ⟨⟨name, r⟩, _, h⟩ := Option.bind_eq_some_iff.mp h
    dsimp only at h
    split at h
    · obtain ⟨⟨x, r'⟩, hfirst, h⟩ := Option.bind_eq_some_iff.mp h
      have hx := hb.value hfirst
      dsimp only at h
      split at h
      · obtain ⟨⟨xs, r''⟩, htail, h⟩ := Option.bind_eq_some_iff.mp h
        obtain ⟨rfl, _⟩ := Prod.mk.inj (Option.some.inj h)
        intro m hm
        rcases List.mem_cons.mp hm with rfl | hm
        · exact hx
        · exact hb.members htail m hm
      · obtain ⟨rfl, _⟩ := Prod.mk.inj (Option.some.inj h)
        intro m hm
        obtain rfl := List.mem_singleton.mp hm
        exact hx
      · cases h
    · cases h
  · cases h

theorem bounded (fuel : Nat) : Bounded fuel := by
  induction fuel with
  | zero =>
    constructor
    · intro _ _ _ _ h
      cases h
    · intro _ _ _ _ h
      cases h
    · intro _ _ _ _ h
      cases h
  | succ fuel ih =>
    constructor
    · intro _ _ _ _ h
      exact ih.value_succ h
    · intro _ _ _ _ h
      exact ih.items_succ h
    · intro _ _ _ _ h
      exact ih.members_succ h

/-- **Whatever is read is in range.** -/
theorem inRange_of_read? {s : String} {d : Datum} (h : read? s = some d) : d.InRange := by
  simp only [read?] at h
  split at h
  · rename_i hvalue
    split at h
    · obtain rfl := Option.some.inj h
      exact (bounded _).value hvalue
    · cases h
  · cases h

end Json

end Cuesheet
