import Cuesheet.Proofs.Invocation.Validity

/-!
# The conditions on a form

Five things are asked of a form before its arguments are made, and they are looked at in a fixed order: an
input file, a shading index of the table, strips and a blend that are numbers above zero, and tracks that
have names. `Condition.Holds` says each of them without the functions that check it. A form has arguments
exactly if all of them hold; otherwise it is refused for the first that does not, and the text of the refusal
begins with words that only this condition has. Behind the input file the verdict is that of the check that
settings are held to as well, and nothing else in the form has a part in it.
-/

namespace Cuesheet

/-! ### Numbers above zero -/

/-- The number that a magnitude stands for. -/
def Magnitude.value (c : Magnitude) : ℚ := c.significand * 2 ^ c.power

/-- The number that a double stands for. A NaN and the infinities stand for none. -/
def Binary64.value? : Binary64 → Option ℚ
  | .finite negative code => some (if negative then -code.value else code.value)
  | _ => none

def Binary64.IsAboveZero (x : Binary64) : Prop := ∃ q, x.value? = some q ∧ 0 < q

theorem Magnitude.significand_pos_iff (c : Magnitude) : 0 < c.significand ↔ 0 < c.val := by
  unfold Magnitude.significand
  split
  · exact Iff.rfl
  · rename_i hlarge
    have hpower : 0 < Nat.pow 2 52 := by decide
    exact iff_of_true (by omega) (by omega)

theorem Magnitude.value_pos_iff (c : Magnitude) : 0 < c.value ↔ 0 < c.val := by
  have hscale : (0 : ℚ) < 2 ^ c.power := zpow_pos (by norm_num) _
  rw [Magnitude.value, mul_pos_iff_of_pos_right hscale, Nat.cast_pos, significand_pos_iff]

theorem Magnitude.value_nonneg (c : Magnitude) : 0 ≤ c.value :=
  mul_nonneg (Nat.cast_nonneg _) (zpow_nonneg (by norm_num) _)

namespace Arguments

theorem usable_iff_isAboveZero (x : Binary64) : usable x = true ↔ x.IsAboveZero := by
  cases x with
  | nan => exact iff_of_false Bool.false_ne_true fun ⟨_, hq, _⟩ => nomatch hq
  | infinite negative => exact iff_of_false Bool.false_ne_true fun ⟨_, hq, _⟩ => nomatch hq
  | finite negative code =>
    simp only [usable, Binary64.isFinite, Binary64.isPositive, Bool.true_and, Binary64.IsAboveZero,
      Binary64.value?, Option.some.injEq, exists_eq_left']
    cases negative with
    | false =>
      simpa only [Bool.not_false, Bool.true_and, decide_eq_true_eq, Bool.false_eq_true, if_false]
        using code.value_pos_iff.symm
    | true =>
      simpa only [Bool.not_true, Bool.false_and, Bool.false_eq_true, if_true, false_iff, not_lt,
        Left.neg_nonpos_iff] using code.value_nonneg

instance (x : Binary64) : Decidable x.IsAboveZero := decidable_of_iff _ (usable_iff_isAboveZero x)

/-- A NaN, the infinities and both zeros are not above zero. -/
example : ∀ x ∈ ([.nan, .infinite false, .infinite true, .zero false, .zero true] : List Binary64),
    ¬ x.IsAboveZero := by
  decide

/-! ### What is asked -/

/-- A track with a character in its identifier that is not blank. -/
def Named (t : Track) : Prop := ∃ c ∈ t.id.toList, Text.isBlank c = false

theorem unnamed_eq_false_iff (t : Track) : unnamed t = false ↔ Named t := by
  simp only [unnamed, Text.allBlank, List.all_eq_false, Named, Bool.not_eq_true]

instance (t : Track) : Decidable (Named t) := decidable_of_iff _ (unnamed_eq_false_iff t)

theorem unnamed_eq_true_iff (t : Track) : unnamed t = true ↔ ¬ Named t := by
  rw [← unnamed_eq_false_iff, Bool.not_eq_false]

inductive Condition where
  | input
  | shading
  | strips
  | blend
  | tracks
deriving DecidableEq, Repr

namespace Condition

/-- The conditions in the order in which they are looked at. -/
def all : List Condition := [.input, .shading, .strips, .blend, .tracks]

def earlier (k : Condition) : List Condition := all.takeWhile (· != k)

def Holds (c : Configuration) : Condition → Prop
  | .input => ∃ path, c.inputPath = some path ∧ path ≠ []
  | .shading => c.shadeIndex.toNat < 3
  | .strips => c.strips.IsAboveZero
  | .blend => c.blend.IsAboveZero
  | .tracks => ∀ t ∈ c.tracks, Named t

/-- The words with which the text of a refusal begins. -/
def subject : Condition → String
  | .input => "an input file must be selected"
  | .shading => "shade option index "
  | .strips => "strips per page must be a positive number, got "
  | .blend => "blend duration must be a positive number, got "
  | .tracks => "track "

end Condition

/-- Of the conditions, this one is violated and those before it hold. -/
structure FirstViolated (c : Configuration) (k : Condition) : Prop where
  violated : ¬ k.Holds c
  earlier : ∀ k' ∈ k.earlier, k'.Holds c

/-- How it is told that a condition is violated. -/
inductive Tells (c : Configuration) : Condition → FormFault → Prop where
  | input : Tells c .input .noInput
  | shading : Tells c .shading (.shadeIndex c.shadeIndex)
  | strips : Tells c .strips (.strips c.strips)
  | blend : Tells c .blend (.blend c.blend)
  /-- The position of a track is the number of tracks before it. -/
  | tracks {before after : List Track} {t : Track} (hsplit : c.tracks = before ++ t :: after)
      (hbefore : ∀ u ∈ before, Named u) (hunnamed : ¬ Named t) :
      Tells c .tracks (.emptyTrackId before.length)

section Verdict

variable {c : Configuration} {k : Condition} {fault : FormFault}

theorem holds_input_iff : Condition.input.Holds c ↔ ∃ path, c.input = some path := by
  simp only [Condition.Holds, Configuration.input, Option.filter_eq_some_iff, bne_iff_ne]

theorem holds_shading_iff : Condition.shading.Holds c ↔ (Shading.ofIndex? c.shadeIndex).isSome = true := by
  rw [Shading.ofIndex?, Option.isSome_iff_ne_none, Ne, List.getElem?_eq_none_iff, not_le]
  exact Iff.rfl

instance Condition.decidableHolds (c : Configuration) : (k : Condition) → Decidable (k.Holds c)
  | .input => decidable_of_iff (c.input.isSome = true) (Option.isSome_iff_exists.trans holds_input_iff.symm)
  | .shading => inferInstanceAs (Decidable (_ < _))
  | .strips => inferInstanceAs (Decidable c.strips.IsAboveZero)
  | .blend => inferInstanceAs (Decidable c.blend.IsAboveZero)
  | .tracks => inferInstanceAs (Decidable (∀ t ∈ c.tracks, Named t))

theorem valid_iff : Valid c ↔ ∀ k : Condition, k ≠ .input → k.Holds c := by
  constructor
  · intro h k hk
    cases k with
    | input => exact absurd rfl hk
    | shading => exact holds_shading_iff.mpr h.shading
    | strips => exact (usable_iff_isAboveZero _).mp h.strips
    | blend => exact (usable_iff_isAboveZero _).mp h.blend
    | tracks => exact fun t ht => (unnamed_eq_false_iff t).mp (h.tracks t ht)
  · intro h
    constructor
    · exact holds_shading_iff.mp (h .shading (by decide))
    · exact (usable_iff_isAboveZero _).mpr (h .strips (by decide))
    · exact (usable_iff_isAboveZero _).mpr (h .blend (by decide))
    · exact fun t ht => (unnamed_eq_false_iff t).mpr (h .tracks (by decide) t ht)

theorem build_of_input {path : Bytes} (hinput : c.input = some path) :
    build c = (check c).map (words c path) := by
  rw [build, hinput]

/-- With an input file a form is refused exactly by the check, and for the same reason. -/
theorem build_eq_error_of_input {path : Bytes} (hinput : c.input = some path) :
    build c = .error fault ↔ check c = .error fault := by
  rw [build_of_input hinput]
  rcases check c with reason | shading
  · simp only [Except.map, Except.error.injEq]
  · simp only [Except.map, reduceCtorEq]

theorem exists_build_of_holds (h : ∀ k, Condition.Holds c k) : ∃ ws, build c = .ok ws := by
  obtain ⟨path, hinput⟩ := holds_input_iff.mp (h .input)
  obtain ⟨shading, hcheck⟩ := check_of_valid (valid_iff.mpr fun k _ => h k)
  exact ⟨words c path shading, by rw [build_of_input hinput, hcheck]; rfl⟩

theorem findIdx?_unnamed {before after : List Track} {t : Track} (hbefore : ∀ u ∈ before, Named u)
    (hunnamed : ¬ Named t) : (before ++ t :: after).findIdx? unnamed = some before.length := by
  have hnone : before.findIdx? unnamed = none :=
    List.findIdx?_eq_none_iff.mpr fun u hu => (unnamed_eq_false_iff u).mpr (hbefore u hu)
  simp only [List.findIdx?_append, hnone, List.findIdx?_cons, (unnamed_eq_true_iff t).mpr hunnamed,
    if_true, Option.none_or, Option.map_some, Nat.zero_add]

theorem check_of_firstViolated (hk : k ≠ .input) (h : FirstViolated c k) (htells : Tells c k fault) :
    check c = .error fault := by
  have hshading (hearlier : Condition.shading ∈ k.earlier) :=
    Option.isSome_iff_exists.mp (holds_shading_iff.mp (h.earlier .shading hearlier))
  have hstrips (hearlier : Condition.strips ∈ k.earlier) :=
    (usable_iff_isAboveZero _).mpr (h.earlier .strips hearlier)
  have hblend (hearlier : Condition.blend ∈ k.earlier) :=
    (usable_iff_isAboveZero _).mpr (h.earlier .blend hearlier)
  cases htells with
  | input => exact absurd rfl hk
  | shading =>
    have hnone : Shading.ofIndex? c.shadeIndex = none := by
      rw [← Option.not_isSome_iff_eq_none, ← holds_shading_iff]
      exact h.violated
    simp only [check, hnone]
  | strips =>
    obtain ⟨shading, hshading⟩ := hshading (by decide)
    have hviolated : usable c.strips = false :=
      Bool.eq_false_iff.mpr fun hu => h.violated ((usable_iff_isAboveZero _).mp hu)
    simp only [check, hshading, hviolated, Bool.not_false, if_true]
  | blend =>
    obtain ⟨shading, hshading⟩ := hshading (by decide)
    have hviolated : usable c.blend = false :=
      Bool.eq_false_iff.mpr fun hu => h.violated ((usable_iff_isAboveZero _).mp hu)
    simp only [check, hshading, hstrips (by decide), hviolated, Bool.not_true, Bool.not_false,
      Bool.false_eq_true, if_false, if_true]
  | tracks hsplit hbefore hunnamed =>
    obtain ⟨shading, hshading⟩ := hshading (by decide)
    simp only [check, hshading, hstrips (by decide), hblend (by decide), hsplit,
      findIdx?_unnamed hbefore hunnamed, Bool.not_true, Bool.false_eq_true, if_false]

theorem build_of_firstViolated (h : FirstViolated c k) (htells : Tells c k fault) :
    build c = .error fault := by
  by_cases hk : k = .input
  · subst hk
    have hnone : c.input = none := Option.eq_none_iff_forall_ne_some.mpr fun path hinput =>
      h.violated (holds_input_iff.mpr ⟨path, hinput⟩)
    cases htells
    rw [build, hnone]
  · have hearlier : Condition.input ∈ k.earlier := by
      revert hk
      cases k <;> decide
    obtain ⟨path, hinput⟩ := holds_input_iff.mp (h.earlier .input hearlier)
    exact (build_eq_error_of_input hinput).mpr (check_of_firstViolated hk h htells)

/-- What is violated can be told. -/
theorem exists_tells (hviolated : ¬ k.Holds c) : ∃ fault, Tells c k fault := by
  cases k with
  | input => exact ⟨_, .input⟩
  | shading => exact ⟨_, .shading⟩
  | strips => exact ⟨_, .strips⟩
  | blend => exact ⟨_, .blend⟩
  | tracks =>
    simp only [Condition.Holds, not_forall] at hviolated
    obtain ⟨u, hu, hunnamed⟩ := hviolated
    have hsome : (c.tracks.find? unnamed).isSome = true :=
      List.find?_isSome.mpr ⟨u, hu, (unnamed_eq_true_iff u).mpr hunnamed⟩
    obtain ⟨t, ht⟩ := Option.isSome_iff_exists.mp hsome
    obtain ⟨hfound, before, after, hsplit, hbefore⟩ := List.find?_eq_some_iff_append.mp ht
    refine ⟨_, .tracks hsplit (fun v hv => ?_) ((unnamed_eq_true_iff t).mp hfound)⟩
    exact (unnamed_eq_false_iff v).mp (Bool.not_eq_true' _ ▸ hbefore v hv)

/-- All conditions hold, or one is the first that is violated. -/
theorem holds_or_firstViolated (c : Configuration) :
    (∀ k, Condition.Holds c k) ∨ ∃ k, FirstViolated c k := by
  by_cases hinput : Condition.input.Holds c
  case neg => exact .inr ⟨.input, hinput, List.forall_mem_nil _⟩
  by_cases hshading : Condition.shading.Holds c
  case neg => exact .inr ⟨.shading, hshading, List.forall_mem_singleton.mpr hinput⟩
  by_cases hstrips : Condition.strips.Holds c
  case neg =>
    exact .inr ⟨.strips, hstrips, List.forall_mem_cons.mpr ⟨hinput, List.forall_mem_singleton.mpr hshading⟩⟩
  have hfront : ∀ k ∈ [Condition.input, .shading, .strips], k.Holds c :=
    List.forall_mem_cons.mpr
      ⟨hinput, List.forall_mem_cons.mpr ⟨hshading, List.forall_mem_singleton.mpr hstrips⟩⟩
  by_cases hblend : Condition.blend.Holds c
  case neg => exact .inr ⟨.blend, hblend, hfront⟩
  by_cases htracks : Condition.tracks.Holds c
  case neg =>
    exact .inr ⟨.tracks, htracks, List.forall_mem_append.mpr ⟨hfront, List.forall_mem_singleton.mpr hblend⟩⟩
  left
  intro k
  cases k <;> assumption

theorem exists_build_iff : (∃ ws, build c = .ok ws) ↔ ∀ k, Condition.Holds c k := by
  constructor
  · rintro ⟨ws, hbuild⟩
    rcases holds_or_firstViolated c with hall | ⟨k, hfirst⟩
    · exact hall
    · obtain ⟨fault, htells⟩ := exists_tells hfirst.violated
      rw [build_of_firstViolated hfirst htells] at hbuild
      cases hbuild
  · exact exists_build_of_holds

theorem build_eq_error_iff :
    build c = .error fault ↔ ∃ k, FirstViolated c k ∧ Tells c k fault := by
  constructor
  · intro hbuild
    rcases holds_or_firstViolated c with hall | ⟨k, hfirst⟩
    · obtain ⟨ws, hws⟩ := exists_build_of_holds hall
      rw [hws] at hbuild
      cases hbuild
    · obtain ⟨fault', htells⟩ := exists_tells hfirst.violated
      rw [build_of_firstViolated hfirst htells] at hbuild
      obtain rfl := Except.error.inj hbuild
      exact ⟨k, hfirst, htells⟩
  · rintro ⟨k, hfirst, htells⟩
    exact build_of_firstViolated hfirst htells

/-! ### What the text of a refusal says -/

theorem exists_message (htells : Tells c k fault) :
    ∃ rest, (Invocation.Fault.invalidConfiguration fault).message =
      "Invalid configuration: " ++ (k.subject ++ rest) := by
  suffices hreason : ∃ rest, fault.message = k.subject ++ rest by
    obtain ⟨rest, hrest⟩ := hreason
    exact ⟨rest, congrArg ("Invalid configuration: " ++ ·) hrest⟩
  cases htells with
  | input => exact ⟨"", String.append_empty.symm⟩
  | shading => exact ⟨_, String.append_assoc⟩
  | strips => exact ⟨_, rfl⟩
  | blend => exact ⟨_, rfl⟩
  | tracks => exact ⟨_, String.append_assoc⟩

/-- No two refusals begin alike. -/
theorem subject_injective {k k' : Condition} {rest rest' : String}
    (h : k.subject ++ rest = k'.subject ++ rest') : k = k' := by
  have hlists : k.subject.toList ++ rest.toList = k'.subject.toList ++ rest'.toList := by
    rw [← String.toList_append, ← String.toList_append, h]
  have hprefix : k.subject.toList <+: k'.subject.toList ∨ k'.subject.toList <+: k.subject.toList :=
    List.prefix_or_prefix_of_prefix ⟨rest.toList, hlists⟩ ⟨rest'.toList, rfl⟩
  revert hprefix
  cases k <;> cases k' <;> decide

/-- The text of a refusal begins with the words for what is violated first, and for nothing else. -/
theorem message_iff_firstViolated (hbuild : build c = .error fault) (k : Condition) :
    (∃ rest, (Invocation.Fault.invalidConfiguration fault).message =
      "Invalid configuration: " ++ (k.subject ++ rest)) ↔ FirstViolated c k := by
  obtain ⟨k', hfirst, htells⟩ := build_eq_error_iff.mp hbuild
  obtain ⟨rest', hmessage'⟩ := exists_message htells
  constructor
  · rintro ⟨rest, hmessage⟩
    rw [hmessage', String.append_right_inj] at hmessage
    exact subject_injective hmessage ▸ hfirst
  · intro hk
    obtain ⟨fault', htells''⟩ := exists_tells hk.violated
    rw [build_of_firstViolated hk htells''] at hbuild
    obtain rfl := Except.error.inj hbuild
    exact exists_message htells''

end Verdict

/-! ### What has a part in the verdict -/

/-- The forms agree on whether there is an input file, and on the parameters that are checked. -/
structure SameParameters (c d : Configuration) : Prop where
  input : c.input.isSome = d.input.isSome
  shading : c.shadeIndex = d.shadeIndex
  strips : c.strips = d.strips
  blend : c.blend = d.blend
  tracks : c.tracks.map (·.id) = d.tracks.map (·.id)

section Same

variable {c d : Configuration}

theorem SameParameters.check_eq (h : SameParameters c d) : check c = check d := by
  have htracks : ∀ ts : List Track, ts.findIdx? unnamed = (ts.map (·.id)).findIdx? Text.allBlank :=
    fun ts => (List.findIdx?_map ..).symm
  simp only [check, h.shading, h.strips, h.blend, htracks, h.tracks]

theorem SameParameters.build_eq_error_iff (h : SameParameters c d) (fault : FormFault) :
    build d = .error fault ↔ build c = .error fault := by
  have hinput := h.input
  rcases hc : c.input with _ | path <;> rcases hd : d.input with _ | path'
  · rw [build, build, hc, hd]
  · rw [hc, hd] at hinput
    cases hinput
  · rw [hc, hd] at hinput
    cases hinput
  · rw [build_eq_error_of_input hc, build_eq_error_of_input hd, h.check_eq]

end Same

/-- **A form is refused for the first condition that it violates.**  It has arguments exactly if all five
    conditions hold. Otherwise it is refused, and the refusal tells of the first of them that is violated;
    its text begins with the words for this one and for no other, and for the tracks it gives the number of
    tracks before the first that has no name. Once there is an input file, the form is refused exactly if
    the check refuses it, and for the same reason. Two forms that agree on what is asked are refused
    alike, whatever else is in them. -/
theorem build_decided (c : Configuration) :
    ((∃ ws, build c = .ok ws) ↔ ∀ k, Condition.Holds c k) ∧
      (∀ fault, build c = .error fault ↔ ∃ k, FirstViolated c k ∧ Tells c k fault) ∧
      (∀ fault, build c = .error fault → ∀ k,
        (∃ rest, (Invocation.Fault.invalidConfiguration fault).message =
          "Invalid configuration: " ++ (k.subject ++ rest)) ↔ FirstViolated c k) ∧
      (∀ position, build c = .error (.emptyTrackId position) →
        (Invocation.Fault.invalidConfiguration (.emptyTrackId position)).message =
          "Invalid configuration: track " ++ position.repr ++ " has an empty id") ∧
      (∀ path, c.input = some path → ∀ fault, build c = .error fault ↔ check c = .error fault) ∧
      (∀ d, SameParameters c d → ∀ fault, build d = .error fault ↔ build c = .error fault) := by
  refine ⟨exists_build_iff, fun _ => build_eq_error_iff, fun _ => message_iff_firstViolated, ?_, ?_, ?_⟩
  · intro position _
    rfl
  · exact fun _ hinput _ => build_eq_error_of_input hinput
  · exact fun _ hsame fault => hsame.build_eq_error_iff fault

/-- The second track is named by a blank that is no space, and the title and the labels do not matter. -/
theorem build_decided_blank_track :
    let form : Configuration :=
      { inputPath := some [0x78], strips := .ofNat 12, tracks := [⟨"1", ""⟩, ⟨"\u2003", "FX"⟩, ⟨"", ""⟩] }
    let other : Configuration :=
      { form with inputPath := some [0x79], title := some "Reel", mode := .text
                  tracks := [⟨"1", "Dialog"⟩, ⟨"\u2003", ""⟩, ⟨"", "x"⟩] }
    build form = .error (.emptyTrackId 1) ∧ check form = .error (.emptyTrackId 1) ∧
      build other = .error (.emptyTrackId 1) ∧
      (Invocation.Fault.invalidConfiguration (.emptyTrackId 1)).message =
        "Invalid configuration: track 1 has an empty id" := by
  intro form other
  obtain ⟨-, htold, -, htext, hcheck, hsame⟩ := build_decided form
  have hfirst : FirstViolated form .tracks := ⟨by decide, by decide⟩
  have htells : Tells form .tracks (.emptyTrackId [(⟨"1", ""⟩ : Track)].length) :=
    .tracks rfl (by decide) (by decide)
  have hbuild : build form = .error (.emptyTrackId 1) := (htold _).mpr ⟨.tracks, hfirst, htells⟩
  refine ⟨hbuild, (hcheck [0x78] rfl _).mp hbuild, ?_, htext 1 hbuild⟩
  exact (hsame other ⟨rfl, rfl, rfl, rfl, rfl⟩ _).mpr hbuild

end Arguments

end Cuesheet
