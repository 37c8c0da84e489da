import Cuesheet.Proofs.CommandLine.Words

/-!
# The form is read back

Apart from its tracks, what a form says can be looked up parameter by parameter, and `Overlay.setting?`
does so; together with the tracks it determines the form. Settings in which nothing is given twice leave
a form in which exactly they are found, and nothing of it depends on their order. The tracks are those of
the settings, in their order.

Any rearrangement of the settings of a form therefore gives that form again, wherever the two settings of
the program itself stand.
-/

namespace Cuesheet

open CommandLine

/-! ### Looking up a form -/

def Overlay.setting? (o : Overlay) : Parameter → Option Setting
  | .input => o.input.map .input
  | .output => o.output.map .output
  | .title => o.title.map .title
  | .paper => o.paper.map .paper
  | .text => if o.text then some .text else none
  | .shade => o.shade.map .shade
  | .renumberFrom => o.renumberFrom.map .renumberFrom
  | .strips => o.strips.map .strips
  | .blend => o.blend.map .blend
  | .toggle t => (o.toggles.get t).map (.toggle t)
  | .root | .tool | .track | .json | .help | .version => none

/-- What the options of a command line say that spells the form. -/
def Overlay.options (o : Overlay) : List Setting :=
  (Parameter.formOptions.map Prod.snd).filterMap o.setting? ++ o.tracks.map .track

def Overlay.settings (o : Overlay) : List Setting := o.options ++ (o.input.map Setting.input).toList

/-- The paths of the form are not empty, and its tracks are read as they are written. -/
structure Overlay.Writable (o : Overlay) : Prop where
  input : o.input ≠ some []
  output : o.output ≠ some []
  tracks : ∀ t ∈ o.tracks, t.Canonical

namespace CommandLine

/-- Whether a parameter is looked up in a form. -/
def Parameter.isField : Parameter → Bool
  | .root | .tool | .track | .json | .help | .version => false
  | _ => true

section Form

variable {o o' : Overlay} {p : Parameter} {s : Setting} {ss : List Setting}

theorem setting?_of_not_isField (hp : p.isField = false) : o.setting? p = none := by
  cases p <;> first | rfl | cases hp

theorem setting?_parameter (h : o.setting? p = some s) : s.parameter = p := by
  have hmapped : ∀ {α : Type} {f : α → Setting} {x : Option α}, (∀ a, (f a).parameter = p) →
      x.map f = some s → s.parameter = p := by
    rintro _ f x hf hx
    obtain ⟨a, _, rfl⟩ := Option.map_eq_some_iff.mp hx
    exact hf a
  cases p with
  | text =>
    simp only [Overlay.setting?] at h
    split at h
    · obtain rfl := Option.some.inj h
      rfl
    · cases h
  | root | tool | track | json | help | version => cases h
  | input | output | title | paper | shade | renumberFrom | strips | blend | toggle =>
    exact hmapped (fun _ => rfl) h

theorem toggles_ext {x y : PerToggle (Option Bool)} (h : ∀ t, x.get t = y.get t) : x = y := by
  have hbuild : ∀ z : PerToggle (Option Bool), PerToggle.build z.get = z := fun _ => rfl
  rw [← hbuild x, ← hbuild y, funext h]

/-- A form is what can be looked up in it, and its tracks. -/
theorem eq_of_setting? (h : ∀ p, o.setting? p = o'.setting? p) (htracks : o.tracks = o'.tracks) :
    o = o' := by
  have hinput := Option.map_injective (fun _ _ => Setting.input.inj) (h .input)
  have houtput := Option.map_injective (fun _ _ => Setting.output.inj) (h .output)
  have htitle := Option.map_injective (fun _ _ => Setting.title.inj) (h .title)
  have hpaper := Option.map_injective (fun _ _ => Setting.paper.inj) (h .paper)
  have hshade := Option.map_injective (fun _ _ => Setting.shade.inj) (h .shade)
  have hlabel := Option.map_injective (fun _ _ => Setting.renumberFrom.inj) (h .renumberFrom)
  have hstrips := Option.map_injective (fun _ _ => Setting.strips.inj) (h .strips)
  have hblend := Option.map_injective (fun _ _ => Setting.blend.inj) (h .blend)
  have htoggles : o.toggles = o'.toggles := by
    apply toggles_ext
    intro t
    have hinjective : Function.Injective (Setting.toggle t) := by
      intro _ _ heq
      exact (Setting.toggle.inj heq).2
    exact Option.map_injective hinjective (h (.toggle t))
  have htext : o.text = o'.text := by
    have hsome : ∀ x : Overlay, (x.setting? .text).isSome = x.text := by
      intro x
      rcases hx : x.text <;> simp only [Overlay.setting?, hx] <;> rfl
    rw [← hsome o, h .text, hsome o']
  cases o
  cases o'
  rw [Overlay.mk.injEq]
  exact ⟨hinput, houtput, htitle, hpaper, htext, htracks, hshade, hlabel, hstrips, hblend, htoggles⟩

/-! ### Adding settings to a form -/

theorem setting?_addToForm (o : Overlay) (s : Setting) (hp : p.isField = true) :
    (addToForm o s).setting? p = if s.parameter = p then some s else o.setting? p := by
  cases s with
  | toggle t on =>
    cases p with
    | toggle u =>
      simp only [addToForm, Overlay.setting?, PerToggle.get_set, Setting.parameter,
        Parameter.toggle.injEq]
      by_cases htu : u = t
      · rw [if_pos htu, if_pos htu.symm, htu]
        rfl
      · rw [if_neg htu, if_neg (Ne.symm htu)]
    | _ => rfl
  | _ => cases p <;> first | rfl | cases hp

theorem not_repeats_of_isField (hp : p.isField = true) : p.repeats = false := by
  cases p <;> first | rfl | cases hp

/-- In the form that settings leave, just these are found. -/
theorem setting?_foldl (honce : Once ss) (hp : p.isField = true) (s : Setting) :
    (ss.foldl addToForm {}).setting? p = some s ↔ s ∈ ss ∧ s.parameter = p := by
  induction ss using List.reverseRecOn with
  | nil =>
    have hnone : ({} : Overlay).setting? p = none := by
      cases p with
      | toggle t => cases t <;> rfl
      | _ => rfl
    simp only [List.foldl_nil, hnone, reduceCtorEq, List.not_mem_nil, false_and]
  | append_singleton ss a ih =>
    obtain ⟨hbefore, _, hlast⟩ := once_append.mp honce
    rw [List.foldl_append, List.foldl_cons, List.foldl_nil, setting?_addToForm _ a hp,
      List.mem_append, List.mem_singleton]
    by_cases ha : a.parameter = p
    · -- it is not given before, since its parameter does not repeat
      rw [if_pos ha, Option.some.injEq]
      constructor
      · rintro rfl
        exact ⟨.inr rfl, ha⟩
      · rintro ⟨hs | rfl, hsp⟩
        · have hmay := hlast s hs a (List.mem_singleton_self a) (hsp.trans ha.symm)
          rw [ha, not_repeats_of_isField hp] at hmay
          cases hmay
        · rfl
    · rw [if_neg ha, ih hbefore]
      constructor
      · rintro ⟨hs, hsp⟩
        exact ⟨.inl hs, hsp⟩
      · rintro ⟨hs | rfl, hsp⟩
        · exact ⟨hs, hsp⟩
        · exact absurd hsp ha

def trackOf? : Setting → Option Track
  | .track t => some t
  | _ => none

theorem tracks_foldl (o : Overlay) (ss : List Setting) :
    (ss.foldl addToForm o).tracks = o.tracks ++ ss.filterMap trackOf? := by
  induction ss generalizing o with
  | nil => exact (List.append_nil _).symm
  | cons s ss ih =>
    rw [List.foldl_cons, ih]
    cases s with
    | track t => exact List.append_assoc o.tracks [t] _
    | _ => rfl

/-! ### The settings of a form -/

theorem mem_fields : p ∈ Parameter.formOptions.map Prod.snd ↔
    p = .track ∨ (p.isField = true ∧ p ≠ .input) := by
  cases p with
  | toggle t => cases t <;> decide
  | _ => decide

/-- The settings of a form are what is found in it, and its tracks. -/
theorem mem_settings (hp : p.isField = true) :
    s ∈ o.settings ∧ s.parameter = p ↔ o.setting? p = some s := by
  rw [Overlay.settings, Overlay.options, List.mem_append, List.mem_append, List.mem_filterMap,
    List.mem_map, Option.mem_toList]
  constructor
  · rintro ⟨(⟨q, _, hq⟩ | ⟨t, _, rfl⟩) | hinput, rfl⟩
    · rwa [setting?_parameter hq]
    · cases hp
    · obtain ⟨path, _, rfl⟩ := Option.map_eq_some_iff.mp hinput
      exact hinput
  · intro hs
    refine ⟨?_, setting?_parameter hs⟩
    by_cases hinput : p = .input
    · rw [hinput] at hs
      exact .inr hs
    · exact .inl (.inl ⟨p, mem_fields.mpr (.inr ⟨hp, hinput⟩), hs⟩)

theorem once_options (o : Overlay) : Once o.options := by
  rw [Overlay.options, once_append]
  refine ⟨?_, ?_, ?_⟩
  · have hnodup : (Parameter.formOptions.map Prod.snd).Pairwise (· ≠ ·) := by decide
    rw [Once, List.pairwise_filterMap]
    refine hnodup.imp ?_
    intro p q hpq s hs s' hs' hsame
    rw [setting?_parameter hs, setting?_parameter hs'] at hsame
    exact absurd hsame hpq
  · rw [Once, List.pairwise_map]
    exact List.pairwise_of_forall fun _ _ _ => rfl
  · intro s _ s' hs' _
    obtain ⟨t, _, rfl⟩ := List.mem_map.mp hs'
    rfl

theorem parameter_ne_of_mem_options (hs : s ∈ o.options)
    (hp : p ∉ Parameter.formOptions.map Prod.snd) : s.parameter ≠ p := by
  rintro rfl
  apply hp
  rw [Overlay.options, List.mem_append] at hs
  rcases hs with hs | hs
  · obtain ⟨p, hp, hfound⟩ := List.mem_filterMap.mp hs
    rwa [setting?_parameter hfound]
  · obtain ⟨t, _, rfl⟩ := List.mem_map.mp hs
    exact mem_fields.mpr (.inl rfl)

theorem parameter_of_mem_input (hs : s ∈ (o.input.map Setting.input).toList) :
    s.parameter = .input := by
  obtain ⟨path, _, rfl⟩ := Option.map_eq_some_iff.mp (Option.mem_toList.mp hs)
  rfl

theorem parameter_ne_of_mem_settings (hs : s ∈ o.settings)
    (hp : p ∉ .input :: Parameter.formOptions.map Prod.snd) : s.parameter ≠ p := by
  rw [List.mem_cons, not_or] at hp
  rcases List.mem_append.mp hs with hs | hs
  · exact parameter_ne_of_mem_options hs hp.2
  · rw [parameter_of_mem_input hs]
    exact Ne.symm hp.1

/-! ### Settings of the program -/

/-- The settings that do not belong to the form. -/
def globals (root tool : Option Bytes) : List Setting :=
  (root.map Setting.root).toList ++ (tool.map Setting.tool).toList

theorem mem_globals {root tool : Option Bytes} :
    s ∈ globals root tool ↔ root.map Setting.root = some s ∨ tool.map Setting.tool = some s := by
  rw [globals, List.mem_append, Option.mem_toList, Option.mem_toList]

theorem parameter_of_mem_globals {root tool : Option Bytes} (hs : s ∈ globals root tool) :
    s.parameter = .root ∨ s.parameter = .tool := by
  rcases mem_globals.mp hs with hs | hs
  · obtain ⟨path, _, rfl⟩ := Option.map_eq_some_iff.mp hs
    exact .inl rfl
  · obtain ⟨path, _, rfl⟩ := Option.map_eq_some_iff.mp hs
    exact .inr rfl

theorem once_globals (root tool : Option Bytes) : Once (globals root tool) := by
  have hdistinct : ∀ path path', Once [.root path, .tool path'] := by
    intro path path'
    rw [Once, List.pairwise_pair]
    exact nofun
  rcases root with _ | path
  · rcases tool with _ | path'
    · exact List.Pairwise.nil
    · exact List.pairwise_singleton _ _
  · rcases tool with _ | path'
    · exact List.pairwise_singleton _ _
    · exact hdistinct path path'

/-- Nothing is given twice. -/
theorem once_settings (root tool : Option Bytes) (o : Overlay) :
    Once (globals root tool ++ o.settings) := by
  have hform : Once o.settings := by
    rw [Overlay.settings, once_append]
    refine ⟨once_options o, ?_, ?_⟩
    · rcases o.input with _ | path
      · exact List.Pairwise.nil
      · exact List.pairwise_singleton _ _
    · intro s hs s' hs' hsame
      exact absurd (hsame.trans (parameter_of_mem_input hs'))
        (parameter_ne_of_mem_options hs (by decide))
  refine once_append.mpr ⟨once_globals root tool, hform, ?_⟩
  intro s hs s' hs' hsame
  rcases parameter_of_mem_globals hs with hroot | htool
  · exact absurd (hsame.symm.trans hroot) (parameter_ne_of_mem_settings hs' (by decide))
  · exact absurd (hsame.symm.trans htool) (parameter_ne_of_mem_settings hs' (by decide))

theorem root_mem {root tool : Option Bytes} {path : Bytes} :
    Setting.root path ∈ globals root tool ++ o.settings ↔ root = some path := by
  rw [List.mem_append, mem_globals, Option.map_eq_some_iff, Option.map_eq_some_iff]
  constructor
  · rintro ((⟨_, hroot, ⟨⟩⟩ | ⟨_, _, ⟨⟩⟩) | hs)
    · exact hroot
    · have hforeign : Parameter.root ≠ .root := parameter_ne_of_mem_settings hs (by decide)
      exact absurd rfl hforeign
  · intro hroot
    exact .inl (.inl ⟨path, hroot, rfl⟩)

theorem tool_mem {root tool : Option Bytes} {path : Bytes} :
    Setting.tool path ∈ globals root tool ++ o.settings ↔ tool = some path := by
  rw [List.mem_append, mem_globals, Option.map_eq_some_iff, Option.map_eq_some_iff]
  constructor
  · rintro ((⟨_, _, ⟨⟩⟩ | ⟨_, htool, ⟨⟩⟩) | hs)
    · exact htool
    · have hforeign : Parameter.tool ≠ .tool := parameter_ne_of_mem_settings hs (by decide)
      exact absurd rfl hforeign
  · intro htool
    exact .inl (.inr ⟨path, htool, rfl⟩)

/-! ### Any order -/

theorem writable_of_mem_options (h : o.Writable) : ∀ s ∈ o.options, s.Writable := by
  intro s hs
  rw [Overlay.options, List.mem_append] at hs
  rcases hs with hs | hs
  · obtain ⟨p, _, hfound⟩ := List.mem_filterMap.mp hs
    obtain rfl := setting?_parameter hfound
    cases s with
    | output path =>
      obtain ⟨_, houtput, ⟨⟩⟩ := Option.map_eq_some_iff.mp hfound
      exact fun hempty => h.output (by rw [houtput, hempty])
    | input path =>
      obtain ⟨_, hinput, ⟨⟩⟩ := Option.map_eq_some_iff.mp hfound
      exact fun hempty => h.input (by rw [hinput, hempty])
    | root | tool | track => cases hfound
    | _ => trivial
  · obtain ⟨t, ht, rfl⟩ := List.mem_map.mp hs
    exact h.tracks t ht

/-- The settings of a form in any order leave that form, if its tracks stay in order. -/
theorem foldl_of_perm {front behind : List Setting} {root tool : Option Bytes}
    (hperm : (front ++ behind).Perm (globals root tool ++ o.settings))
    (hfront : ∀ s ∈ front, s.parameter = .root ∨ s.parameter = .tool)
    (htracks : behind.filterMap trackOf? = o.tracks) : behind.foldl addToForm {} = o := by
  have honce : Once behind := (once_append.mp ((once_settings root tool o).perm hperm.symm)).2.1
  apply eq_of_setting?
  · intro p
    rcases hp : p.isField with _ | _
    · rw [setting?_of_not_isField hp, setting?_of_not_isField hp]
    · have hforeign : ∀ s : Setting, s.parameter = .root ∨ s.parameter = .tool →
          s.parameter ≠ p := by
        rintro s (hs | hs) rfl
        · rw [hs] at hp
          cases hp
        · rw [hs] at hp
          cases hp
      apply Option.ext
      intro s
      have hmem : s ∈ front ++ behind ↔ s ∈ globals root tool ++ o.settings := hperm.mem_iff
      rw [List.mem_append, List.mem_append] at hmem
      rw [setting?_foldl honce hp, ← mem_settings hp]
      constructor
      · rintro ⟨hs, hsp⟩
        refine ⟨(hmem.mp (.inr hs)).resolve_left ?_, hsp⟩
        intro hglobal
        exact hforeign s (parameter_of_mem_globals hglobal) hsp
      · rintro ⟨hs, hsp⟩
        refine ⟨(hmem.mpr (.inr hs)).resolve_left ?_, hsp⟩
        intro hbefore
        exact hforeign s (hfront s hbefore) hsp
  · rw [tracks_foldl, htracks]
    exact List.nil_append _

end Form

/-- What is looked up among settings is what they hold. -/
theorem findSome?_eq {f : Setting → Option Bytes} {setting : Bytes → Setting}
    (hf : ∀ s path, f s = some path ↔ s = setting path) {ss : List Setting} {x : Option Bytes}
    (h : ∀ path, setting path ∈ ss ↔ x = some path) : ss.findSome? f = x := by
  rcases hfound : ss.findSome? f with _ | path
  · symm
    rw [Option.eq_none_iff_forall_ne_some]
    intro path hx
    have hnone := List.findSome?_eq_none_iff.mp hfound _ ((h path).mpr hx)
    rw [(hf _ path).mpr rfl] at hnone
    cases hnone
  · obtain ⟨s, hs, hpath⟩ := List.exists_of_findSome?_eq_some hfound
    rw [hf] at hpath
    rw [hpath, h] at hs
    exact hs.symm

theorem rootOf?_eq_some (s : Setting) (path : Bytes) : rootOf? s = some path ↔ s = .root path := by
  cases s <;> simp only [rootOf?, Option.some.injEq, Setting.root.injEq, reduceCtorEq]

theorem toolOf?_eq_some (s : Setting) (path : Bytes) : toolOf? s = some path ↔ s = .tool path := by
  cases s <;> simp only [toolOf?, Option.some.injEq, Setting.tool.injEq, reduceCtorEq]

/-- What is read of settings in any order is what they say. -/
theorem ofReading_of_perm {o : Overlay} {root tool : Option Bytes} {front behind : List Setting}
    (hperm : (front ++ behind).Perm (globals root tool ++ o.settings))
    (hfront : ∀ s ∈ front, s.parameter = .root ∨ s.parameter = .tool)
    (htracks : behind.filterMap trackOf? = o.tracks) {level : Level} (hlevel : level.hasForm = true) :
    ofReading ⟨front, level, behind⟩ =
      { root := root.getD (Utf8.encode ".")
        tool := tool
        subcommand := if level = .preview then .preview o false else .run o } := by
  have hmem : ∀ s, s ∈ behind ++ front ↔ s ∈ globals root tool ++ o.settings :=
    fun s => (List.perm_append_comm.trans hperm).mem_iff
  have hroot : (behind ++ front).findSome? rootOf? = root :=
    findSome?_eq rootOf?_eq_some fun _ => (hmem _).trans root_mem
  have htool : (behind ++ front).findSome? toolOf? = tool :=
    findSome?_eq toolOf?_eq_some fun _ => (hmem _).trans tool_mem
  have hjson : behind.contains .json = false := by
    rw [List.contains_eq_mem, decide_eq_false_iff_not]
    intro hs
    rcases List.mem_append.mp ((hmem _).mp (List.mem_append_left front hs)) with hs | hs
    · rcases parameter_of_mem_globals hs with h | h
      · cases h
      · cases h
    · exact absurd rfl (parameter_ne_of_mem_settings hs (by decide))
  rw [ofReading, hroot, htool, foldl_of_perm hperm hfront htracks, hjson]
  cases level with
  | run => rfl
  | preview => rfl
  | top | serve => cases hlevel

theorem subcommand?_formName {name : String} {level : Level}
    (hname : (name, level) ∈ [("run", Level.run), ("preview", Level.preview)]) :
    subcommand? (Utf8.encode name) = some level ∧ level.hasForm = true := by
  rw [subcommand?, Utf8.decode?_encode, Option.bind_some]
  have hall : ∀ o ∈ [("run", Level.run), ("preview", Level.preview)],
      subcommands.lookup o.1 = some o.2 ∧ o.2.hasForm = true := by
    decide
  exact hall _ hname

theorem writable_of_perm {o : Overlay} {root tool : Option Bytes} {ss : List Setting}
    (hperm : ss.Perm (globals root tool ++ o.options)) (ho : o.Writable) (hroot : root ≠ some [])
    (htool : tool ≠ some []) : ∀ s ∈ ss, s.Writable := by
  intro s hs
  rcases List.mem_append.mp (hperm.mem_iff.mp hs) with hs | hs
  · rcases mem_globals.mp hs with h | h
    · obtain ⟨path, rfl, rfl⟩ := Option.map_eq_some_iff.mp h
      exact fun hempty => hroot (congrArg some hempty)
    · obtain ⟨path, rfl, rfl⟩ := Option.map_eq_some_iff.mp h
      exact fun hempty => htool (congrArg some hempty)
  · exact writable_of_mem_options ho s hs

/-- **The command line reads back every form, in any order.**  Let words spell settings, some in
    front of the subcommand, where only those of the program may be, and some behind it. If together
    they are the settings of a form and of the program in any order, apart from the order of the
    tracks, and the input file follows, then that form is read, with the root and the tool. And a
    word that names what was given behind the subcommand, tracks apart, is refused as a repetition,
    whatever its value is and whatever follows. -/
theorem reads_back {name : String} {level : Level}
    (hname : (name, level) ∈ [("run", Level.run), ("preview", Level.preview)])
    {front behind : List Setting} {us ws : List Bytes} (hus : List.Forall₂ Spells us front)
    (hws : List.Forall₂ Spells ws behind)
    (hfront : ∀ s ∈ front, s.parameter = .root ∨ s.parameter = .tool) :
    (∀ (form : Overlay) (root tool : Option Bytes) (last : List Bytes),
      form.Writable → root ≠ some [] → tool ≠ some [] → Ending form.input last →
      (front ++ behind).Perm (globals root tool ++ form.options) →
      behind.filterMap trackOf? = form.tracks →
        parse (us ++ Utf8.encode name :: (ws ++ last)) = .ok
          { root := root.getD (Utf8.encode ".")
            tool := tool
            subcommand := if level = .preview then .preview form false else .run form }) ∧
    (∀ (p : Parameter) (word : Bytes) (value : Option Bytes) (rest : List Bytes),
      (∀ s ∈ front ++ behind, s.Writable) → (∃ s ∈ behind, s.parameter = p) → p.repeats = false →
      Names word p value →
        parse (us ++ Utf8.encode name :: (ws ++ word :: rest)) = .error .repeated) := by
  obtain ⟨hsubcommand, hlevel⟩ := subcommand?_formName hname
  have htop : ∀ s ∈ front, Level.top.Has s.parameter := fun s hs => .inr (hfront s hs)
  have hparse : ∀ rest, (∀ s ∈ front, s.Writable) →
      parse (us ++ Utf8.encode name :: rest) = (addAll [] front).bind fun ss =>
        (parseLevel level rest).map fun behind => ofReading ⟨ss, level, behind⟩ := by
    intro rest hw
    rw [parse, parseTop_spelled hus hw htop]
    rcases addAll [] front with fault | ss
    · rfl
    · show (parseTop { settings := ss } _).map ofReading = _
      rw [parseTop_subcommand hsubcommand]
      rcases parseLevel level rest with fault | behind
      · rfl
      · rfl
  constructor
  · intro form root tool last hform hroot htool hlast hperm htracks
    have hw := writable_of_perm hperm hform hroot htool
    have hall : (front ++ (behind ++ (form.input.map Setting.input).toList)).Perm
        (globals root tool ++ form.settings) := by
      have happended := hperm.append_right (form.input.map Setting.input).toList
      rwa [List.append_assoc, List.append_assoc] at happended
    have honce := (once_settings root tool form).perm hall.symm
    have hfirst : addAll [] front = .ok front := addAll_of_once (once_append.mp honce).1
    have hrest := parseLevel_spelled hlevel hws (fun s hs => hw s (List.mem_append_right _ hs))
      hform.input hlast (once_append.mp honce).2.1
    have htracks' :
        (behind ++ (form.input.map Setting.input).toList).filterMap trackOf? = form.tracks := by
      rw [List.filterMap_append, htracks]
      rcases form.input with _ | path
      · exact List.append_nil _
      · exact List.append_nil _
    rw [hparse _ fun s hs => hw s (List.mem_append_left _ hs), hfirst, hrest]
    exact congrArg Except.ok (ofReading_of_perm hall hfront htracks' hlevel)
  · intro p word value rest hw hgiven hrepeats hnames
    have hrest := parseLevel_repeated hlevel hws (fun s hs => hw s (List.mem_append_right _ hs)) hnames
      (spent_iff.mpr ⟨hrepeats, hgiven⟩) rest
    rw [hparse _ fun s hs => hw s (List.mem_append_left _ hs), hrest]
    rcases addAll_or [] front with hok | herror
    · rw [hok]
      rfl
    · rw [herror]
      rfl

/-- Values that look like options, further equals signs, and an empty title. -/
def tangled : Overlay where
  input := some (Utf8.encode "--text")
  output := some (Utf8.encode "a=b")
  title := some ""
  text := true
  tracks := [⟨"2", "=Music"⟩, ⟨"0", ""⟩]
  shade := some 2
  strips := some (.ofNat 12)
  toggles := .build fun t =>
    match t with
    | .printFrames => some true
    | .openWhenFinished => some false
    | _ => none

def tangledSettings : List Setting :=
  [.toggle .printFrames true, .track ⟨"2", "=Music"⟩, .title "", .root (Utf8.encode "r"),
   .track ⟨"0", ""⟩, .shade 2, .text, .strips (.ofNat 12), .toggle .openWhenFinished false,
   .output (Utf8.encode "a=b")]

def tangledWords : List Bytes :=
  ["--frames", "--track=2==Music", "--title=", "--root=r", "--track=0=", "--shade=+2", "--text",
    "--strips=12", "--open=false", "--output=a=b"].map Utf8.encode

theorem reads_back_tangled :
    let before := [Utf8.encode "--tool=-t"]
    let run := Utf8.encode "run"
    parse (before ++ run :: (tangledWords ++ [[hyphen, hyphen], Utf8.encode "--text"])) = .ok
        { root := Utf8.encode "r"
          tool := some (Utf8.encode "-t")
          subcommand := .run tangled } ∧
      parse (before ++ run :: (tangledWords ++ Utf8.encode "--title=again" :: [[0xFF]])) =
        .error .repeated := by
  intro before run
  have spells : ∀ {word word' : Bytes} {s : Setting}, Spells word' s → word = word' →
      Spells word s := fun h heq => heq ▸ h
  have hus : List.Forall₂ Spells before [.tool (Utf8.encode "-t")] :=
    .cons (spells (.tool _) (by decide)) .nil
  have hws : List.Forall₂ Spells tangledWords tangledSettings := by
    refine .cons (spells (.switchedOn .printFrames) (by decide)) ?_
    refine .cons (spells (.track ⟨"2", "=Music"⟩) (by decide)) ?_
    refine .cons (spells (.title "") (by decide)) ?_
    refine .cons (spells (.root _) (by decide)) ?_
    refine .cons (spells (.track ⟨"0", ""⟩) (by decide)) ?_
    refine .cons (spells (@Spells.shade "+2" 2 (by decide)) (by decide)) ?_
    refine .cons (spells .text (by decide)) ?_
    refine .cons (spells (@Spells.strips "12" _ (by decide)) (by decide)) ?_
    refine .cons (spells (.position .openWhenFinished false) (by decide)) ?_
    exact .cons (spells (.output _) (by decide)) .nil
  have hform : tangled.Writable := by
    refine ⟨by decide, by decide, ?_⟩
    intro t ht
    rcases List.mem_pair.mp ht with rfl | rfl
    · exact ⟨by decide, by decide, by decide, by decide⟩
    · exact ⟨by decide, by decide, by decide, by decide⟩
  have hperm : (Setting.tool (Utf8.encode "-t") :: tangledSettings).Perm
      (globals (some (Utf8.encode "r")) (some (Utf8.encode "-t")) ++ tangled.options) := by
    decide
  have hroot : some (Utf8.encode "r") ≠ some [] := by decide
  have htool : some (Utf8.encode "-t") ≠ some [] := by decide
  obtain ⟨hread, hrefused⟩ := @reads_back "run" .run (by decide) _ _ _ _ hus hws (by decide)
  constructor
  · exact hread tangled _ _ _ hform hroot htool (.input _) hperm (by decide)
  · have hnames : Names (Utf8.encode "--title=again") .title (some (Utf8.encode "again")) :=
      ⟨⟨"title", by decide, by decide⟩, rfl⟩
    have hw := writable_of_perm hperm hform hroot htool
    exact hrefused .title _ _ [[0xFF]] hw ⟨.title "", by decide, rfl⟩ rfl hnames

end CommandLine

end Cuesheet
