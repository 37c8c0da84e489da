import Cuesheet.Proofs.Invocation.Reading

/-!
# Valid forms

The checks on a form come in an order, but whether it passes does not depend on it: `Valid` says what is
asked of each field by itself. A valid form has arguments exactly if it has an input file, and without
one that is what it is refused for.
-/

namespace Cuesheet.Arguments

/-- All that is asked of a form besides its input file. -/
structure Valid (c : Configuration) : Prop where
  shading : (Shading.ofIndex? c.shadeIndex).isSome = true
  strips : usable c.strips = true
  blend : usable c.blend = true
  tracks : ∀ t ∈ c.tracks, unnamed t = false

variable {c : Configuration}

theorem check_of_valid (h : Valid c) : ∃ shading, check c = .ok shading := by
  obtain ⟨shading, hshading⟩ := Option.isSome_iff_exists.mp h.shading
  have htracks : c.tracks.findIdx? unnamed = none := List.findIdx?_eq_none_iff.mpr h.tracks
  refine ⟨shading, ?_⟩
  simp only [check, hshading, h.strips, h.blend, htracks, Bool.not_true, Bool.false_eq_true, if_false]

theorem valid_of_check {shading : Shading} (h : check c = .ok shading) : Valid c := by
  have hshading := check_eq_ok h
  simp only [check, hshading] at h
  split at h
  · cases h
  rename_i hstrips
  split at h
  · cases h
  rename_i hblend
  split at h
  · cases h
  rename_i htracks
  refine ⟨Option.isSome_iff_exists.mpr ⟨shading, hshading⟩, ?_, ?_, ?_⟩
  · simpa only [Bool.not_eq_true', Bool.not_eq_false] using hstrips
  · simpa only [Bool.not_eq_true', Bool.not_eq_false] using hblend
  · exact List.findIdx?_eq_none_iff.mp htracks

theorem exists_check_iff : (∃ shading, check c = .ok shading) ↔ Valid c :=
  ⟨fun ⟨_, h⟩ => valid_of_check h, check_of_valid⟩

theorem valid_of_build {ws : List Bytes} (h : build c = .ok ws) : Valid c := by
  rcases hinput : c.input with _ | input
  · simp only [build, hinput, reduceCtorEq] at h
  rcases hcheck : check c with fault | shading
  · simp only [build, hinput, hcheck, Except.map, reduceCtorEq] at h
  · exact valid_of_check hcheck

/-- A valid form is refused only for want of an input file. -/
theorem build_eq_error_of_valid (h : Valid c) {fault : FormFault} :
    build c = .error fault ↔ c.input = none ∧ fault = .noInput := by
  obtain ⟨shading, hcheck⟩ := check_of_valid h
  rcases hinput : c.input with _ | input
  · simp only [build, hinput, Except.error.injEq, true_and]
    exact eq_comm
  · simp only [build, hinput, hcheck, Except.map, reduceCtorEq, false_and]

end Cuesheet.Arguments
