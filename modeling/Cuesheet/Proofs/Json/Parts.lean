import Cuesheet.Proofs.Json.Text
import Cuesheet.Proofs.Json.Number
import Cuesheet.Json.Reader

/-!
# Where a text and a number end

What is read of a text or a number ends somewhere, and what stands in front of that place is read in the
same way by itself.
-/

namespace Cuesheet.Json

/-! ### Texts -/

/-- A text ends with its closing quote, and does not depend on what follows. -/
theorem parts?_body {cs r : List Char} {ps : List Part} (h : parts? cs = some (ps, r)) :
    ∃ body, cs = body ++ r ∧ ∀ rest, parts? (body ++ rest) = some (ps, rest) := by
  fun_induction parts? cs generalizing ps r with
  | case1 => cases h
  | case2 rest =>
    cases h
    exact ⟨['"'], rfl, fun rest => by rw [List.cons_append, List.nil_append, parts?]⟩
  | case3 a b c d rest ih =>
    obtain ⟨na, ha, htail⟩ := Option.bind_eq_some_iff.mp h
    obtain ⟨nb, hb, htail⟩ := Option.bind_eq_some_iff.mp htail
    obtain ⟨nc, hc, htail⟩ := Option.bind_eq_some_iff.mp htail
    obtain ⟨nd, hd, htail⟩ := Option.bind_eq_some_iff.mp htail
    obtain ⟨⟨qs, r'⟩, hrest, hsame⟩ := Option.bind_eq_some_iff.mp htail
    cases hsame
    obtain ⟨body, hsplit, hbody⟩ := ih hrest
    refine ⟨'\\' :: 'u' :: a :: b :: c :: d :: body, by rw [hsplit]; rfl, ?_⟩
    intro rest
    simp only [List.cons_append, parts?, ha, hb, hc, hd, hbody, Option.bind_eq_bind, Option.bind_some,
      Option.pure_def]
  | case4 c rest _ ih =>
    obtain ⟨e, he, hrest⟩ := Option.bind_eq_some_iff.mp h
    obtain ⟨⟨qs, r'⟩, hrest, hsame⟩ := Option.bind_eq_some_iff.mp hrest
    cases hsame
    obtain ⟨body, hsplit, hbody⟩ := ih hrest
    have hc : c ≠ 'u' := by
      rintro rfl
      cases he
    refine ⟨'\\' :: c :: body, by rw [hsplit]; rfl, ?_⟩
    intro rest
    rw [List.cons_append, List.cons_append, parts?_named hc he, hbody]
    rfl
  | case5 => cases h
  | case6 c rest hquote _ _ hplain ih =>
    obtain ⟨⟨qs, r'⟩, hrest, hsame⟩ := Option.bind_eq_some_iff.mp h
    cases hsame
    obtain ⟨body, hsplit, hbody⟩ := ih hrest
    obtain ⟨hcontrol, hbackslash⟩ := not_or.mp hplain
    refine ⟨c :: body, by rw [hsplit]; rfl, ?_⟩
    intro rest
    rw [List.cons_append, parts?_plain hquote hbackslash hcontrol, hbody]
    rfl

theorem text?_body {cs r : List Char} {s : Option String} (h : text? cs = some (s, r)) :
    ∃ body, cs = body ++ r ∧ ∀ rest, text? (body ++ rest) = some (s, rest) := by
  obtain ⟨⟨ps, r'⟩, hparts, hsame⟩ := Option.map_eq_some_iff.mp h
  cases hsame
  obtain ⟨body, hsplit, hbody⟩ := parts?_body hparts
  refine ⟨body, hsplit, ?_⟩
  intro rest
  rw [text?, hbody, Option.map_some]

theorem text?_append {cs : List Char} {s : Option String} (h : text? cs = some (s, []))
    (rest : List Char) : text? (cs ++ rest) = some (s, rest) := by
  obtain ⟨body, hsplit, hbody⟩ := text?_body h
  rw [hsplit, List.append_nil]
  exact hbody rest

/-! ### Numbers -/

section Numbers

variable {cs r : List Char}

theorem spanDigits_body (cs : List Char) :
    cs = (spanDigits cs).1 ++ (spanDigits cs).2 ∧ spanDigits (spanDigits cs).1 = ((spanDigits cs).1, []) := by
  refine ⟨List.takeWhile_append_dropWhile.symm, ?_⟩
  have hdigits : ∀ c ∈ cs.takeWhile Char.isDigit, c.isDigit = true := fun c hc => List.mem_takeWhile_imp hc
  simp only [spanDigits, List.takeWhile_eq_self_iff.mpr hdigits, List.dropWhile_eq_nil_iff.mpr hdigits]

theorem fraction?_body {ds : List Char} (h : fraction? cs = some (ds, r)) :
    cs = ds ++ r ∧ fraction? ds = some (ds, []) := by
  obtain ⟨hsplit, halone⟩ := spanDigits_body cs
  rw [fraction?] at h
  rcases hspan : spanDigits cs with ⟨_ | ⟨d, ds'⟩, r'⟩
  · rw [hspan] at h
    cases h
  · rw [hspan] at h hsplit halone
    cases h
    refine ⟨hsplit, ?_⟩
    rw [fraction?, halone]

theorem whole?_body {ds : List Char} (h : whole? cs = some (ds, r)) :
    cs = ds ++ r ∧ whole? ds = some (ds, []) := by
  unfold whole? at h
  split at h
  · cases h
    exact ⟨rfl, rfl⟩
  · rename_i hzero
    obtain ⟨rfl, halone⟩ := fraction?_body h
    refine ⟨rfl, ?_⟩
    rw [whole?]
    · exact halone
    · rintro rest rfl
      exact hzero (rest ++ r) rfl

theorem unsignedExponent?_body {negative : Bool} {e : Int}
    (h : unsignedExponent? negative cs = some (e, r)) :
    ∃ body, cs = body ++ r ∧ unsignedExponent? negative body = some (e, []) := by
  obtain ⟨hsplit, halone⟩ := spanDigits_body cs
  rw [unsignedExponent?] at h
  rcases hspan : spanDigits cs with ⟨_ | ⟨d, ds'⟩, r'⟩
  · rw [hspan] at h
    cases h
  · rw [hspan] at h hsplit halone
    cases h
    refine ⟨d :: ds', hsplit, ?_⟩
    rw [unsignedExponent?, halone]

theorem exponent?_body {e : Int} (h : exponent? cs = some (e, r)) :
    ∃ body, cs = body ++ r ∧ exponent? body = some (e, []) := by
  rcases cs with _ | ⟨c, cs⟩
  · cases h
  by_cases hminus : c = '-'
  · subst hminus
    obtain ⟨body, rfl, halone⟩ := unsignedExponent?_body h
    exact ⟨'-' :: body, rfl, halone⟩
  by_cases hplus : c = '+'
  · subst hplus
    obtain ⟨body, rfl, halone⟩ := unsignedExponent?_body h
    exact ⟨'+' :: body, rfl, halone⟩
  rw [exponent?_unsigned hminus hplus] at h
  obtain ⟨body, hsplit, halone⟩ := unsignedExponent?_body h
  rcases body with _ | ⟨c', body⟩
  · cases halone
  · obtain ⟨rfl, -⟩ := List.cons.inj hsplit
    exact ⟨c :: body, hsplit, (exponent?_unsigned hminus hplus body).trans halone⟩

/-- A fraction with its point, or nothing. -/
theorem optionalFraction?_body {f : List Char} {fractional : Bool}
    (h : optionalFraction? cs = some (f, r, fractional)) :
    ∃ body, cs = body ++ r ∧ ∀ rest, NoDigit rest → (∀ r', rest ≠ '.' :: r') →
      NoDigit (body ++ rest) ∧ optionalFraction? (body ++ rest) = some (f, rest, fractional) := by
  unfold optionalFraction? at h
  split at h
  · obtain ⟨⟨ds, r'⟩, hfraction, hsame⟩ := Option.map_eq_some_iff.mp h
    cases hsame
    obtain ⟨rfl, halone⟩ := fraction?_body hfraction
    refine ⟨'.' :: f, rfl, ?_⟩
    intro rest hrest _
    refine ⟨noDigit_cons (by decide) _, ?_⟩
    rw [List.cons_append, optionalFraction?_point, fraction?_append hrest halone]
    rfl
  · cases h
    exact ⟨[], rfl, fun rest hrest hpoint => ⟨hrest, optionalFraction?_none hpoint⟩⟩

/-- An exponent with its mark, or nothing. -/
theorem scaled?_body {negative fractional : Bool} {whole fraction : List Char} {d : Datum}
    (h : scaled? negative whole fraction fractional cs = some (d, r)) :
    ∃ body, cs = body ++ r ∧ scaled? negative whole fraction fractional body = some (d, []) ∧
      NoDigit body ∧ ∀ r', body ≠ '.' :: r' := by
  have hnothing {value : Datum} (hvalue : scaled? negative whole fraction fractional [] = some (value, [])) :
      ∃ body, cs = body ++ cs ∧ scaled? negative whole fraction fractional body = some (value, []) ∧
        NoDigit body ∧ ∀ r', body ≠ '.' :: r' :=
    ⟨[], rfl, hvalue, (fun _ hc => nomatch hc), fun _ hcons => nomatch hcons⟩
  rcases cs with _ | ⟨c, cs⟩
  · have hr : r = [] := by
      rw [scaled?_stops stops_nil] at h
      exact (Prod.mk.inj (Option.some.inj h)).2.symm
    subst hr
    exact hnothing h
  by_cases hmark : c = 'e' ∨ c = 'E'
  · rw [scaled?, if_pos hmark] at h
    obtain ⟨⟨e, r'⟩, hexponent, hsame⟩ := Option.map_eq_some_iff.mp h
    cases hsame
    obtain ⟨body, rfl, halone⟩ := exponent?_body hexponent
    refine ⟨c :: body, rfl, ?_, ?_, ?_⟩
    · rw [scaled?, if_pos hmark, halone]
      rfl
    · rcases hmark with rfl | rfl
      · exact noDigit_cons (by decide) _
      · exact noDigit_cons (by decide) _
    · rintro r'' hcons
      obtain ⟨rfl, -⟩ := List.cons.inj hcons
      revert hmark
      decide
  · rw [scaled?, if_neg hmark] at h
    split at h
    · rename_i hfractional
      cases h
      refine hnothing ?_
      rw [scaled?, if_pos hfractional]
    · rename_i hfractional
      cases h
      refine hnothing ?_
      rw [scaled?, if_neg hfractional]

theorem unsigned?_body {negative : Bool} {d : Datum} (h : unsigned? negative cs = some (d, r)) :
    ∃ body, cs = body ++ r ∧ unsigned? negative body = some (d, []) := by
  obtain ⟨⟨whole, r₁⟩, hwhole, htail⟩ := Option.bind_eq_some_iff.mp h
  obtain ⟨⟨fraction, r₂, fractional⟩, hfraction, hscaled⟩ := Option.bind_eq_some_iff.mp htail
  obtain ⟨rfl, halone⟩ := whole?_body hwhole
  obtain ⟨point, rfl, hpoint⟩ := optionalFraction?_body hfraction
  obtain ⟨mark, rfl, hmark, hdigit, hplain⟩ := scaled?_body hscaled
  obtain ⟨hfollows, hfraction⟩ := hpoint mark hdigit hplain
  refine ⟨whole ++ (point ++ mark), by simp only [List.append_assoc], ?_⟩
  have hall := whole?_append hfollows halone
  rw [List.nil_append] at hall
  simp only [unsigned?, hall, hfraction, hmark, Option.bind_eq_bind, Option.bind_some]

/-- A number by itself is read in the same way. -/
theorem number?_body {d : Datum} (h : number? cs = some (d, r)) :
    ∃ body, cs = body ++ r ∧ number? body = some (d, []) := by
  obtain ⟨c, tail, rfl, -⟩ := head_of_number? h
  by_cases hminus : c = '-'
  · subst hminus
    rw [number?_eq] at h
    obtain ⟨body, hsplit, halone⟩ := unsigned?_body h
    refine ⟨'-' :: body, congrArg ('-' :: ·) hsplit, ?_⟩
    rw [number?_eq]
    exact halone
  · rw [number?_eq, sign_unsigned hminus] at h
    obtain ⟨body, hsplit, halone⟩ := unsigned?_body h
    rcases body with _ | ⟨c', body⟩
    · cases halone
    · obtain ⟨rfl, -⟩ := List.cons.inj hsplit
      refine ⟨c :: body, hsplit, ?_⟩
      rw [number?_eq, sign_unsigned hminus]
      exact halone

end Numbers

end Cuesheet.Json
