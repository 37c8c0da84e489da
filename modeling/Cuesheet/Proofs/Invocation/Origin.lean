import Cuesheet.Proofs.Invocation.Refusal
import Cuesheet.Rehearsal.Machine

/-!
# Where the tool comes from

A tool has four possible origins, which are looked at in a fixed order. `Decides` says which of them decides:
the first that is there at all. On every host there is exactly one, and the lookup ends with what this one
gives, be it a path or a failure. So two hosts on which the same origin decides, and that agree on it, give the
same result, whatever is to be found further down.
-/

namespace Cuesheet.Locator

/-- Where a tool may come from. -/
inductive Origin where
  /-- The path that was set in the locator. -/
  | explicit (path : Bytes)
  /-- The path in the environment variable. -/
  | environment (path : Bytes)
  /-- The file next to the running program. -/
  | bundled (path : Bytes)
  /-- The directories of the search path. -/
  | search

/-- The path that the variable gives, if it is asked at all. An empty one is none. -/
inductive Variable (l : Locator) (host : Host) : Option Bytes → Prop where
  | ignored (hconsults : l.consultsEnvironment = false) : Variable l host none
  | unset (hvariable : host.environment toolVariable = none) : Variable l host none
  | empty (hvariable : host.environment toolVariable = some []) : Variable l host none
  | path {path : Bytes} (hconsults : l.consultsEnvironment = true)
      (hvariable : host.environment toolVariable = some path) (hpath : path ≠ []) :
      Variable l host (some path)

/-- The file of the tool's name in the directory of the running program. -/
inductive Neighbour (l : Locator) (host : Host) : Option Bytes → Prop where
  | nowhere (hdirectory : host.programDirectory = none) : Neighbour l host none
  | missing {directory : Bytes} (hdirectory : host.programDirectory = some directory)
      (hfile : host.isFile (Path.join directory (Utf8.encode l.program)) = false) :
      Neighbour l host none
  | file {directory : Bytes} (hdirectory : host.programDirectory = some directory)
      (hfile : host.isFile (Path.join directory (Utf8.encode l.program)) = true) :
      Neighbour l host (some (Path.join directory (Utf8.encode l.program)))

/-- This origin is there, and none of those before it is. -/
inductive Decides (l : Locator) (host : Host) : Origin → Prop where
  | explicit {path : Bytes} (hpath : l.explicitPath = some path) : Decides l host (.explicit path)
  | environment {path : Bytes} (hexplicit : l.explicitPath = none)
      (hvariable : Variable l host (some path)) : Decides l host (.environment path)
  | bundled {path : Bytes} (hexplicit : l.explicitPath = none) (hvariable : Variable l host none)
      (hneighbour : Neighbour l host (some path)) : Decides l host (.bundled path)
  | search (hexplicit : l.explicitPath = none) (hvariable : Variable l host none)
      (hneighbour : Neighbour l host none) : Decides l host .search

/-- What an origin gives when it decides. -/
inductive Gives (l : Locator) (host : Host) : Origin → Except Invocation.Fault Bytes → Prop where
  | explicit {path : Bytes} (hfile : host.isFile path = true) : Gives l host (.explicit path) (.ok path)
  | explicitMissing {path : Bytes} (hfile : host.isFile path = false) :
      Gives l host (.explicit path) (.error (.toolNotFound l.program (.configured path)))
  | environment {path : Bytes} (hfile : host.isFile path = true) :
      Gives l host (.environment path) (.ok path)
  | environmentMissing {path : Bytes} (hfile : host.isFile path = false) :
      Gives l host (.environment path) (.error (.toolNotFound l.program (.environment path)))
  | bundled {path : Bytes} : Gives l host (.bundled path) (.ok path)
  /-- The first program among the paths at which the search looks. -/
  | search {before after : List Bytes} {path : Bytes}
      (hsplit : l.searchCandidates host = before ++ path :: after)
      (hbefore : ∀ q ∈ before, host.isProgram q = false) (hprogram : host.isProgram path = true) :
      Gives l host .search (.ok path)
  | searchMissing (hnone : ∀ q ∈ l.searchCandidates host, host.isProgram q = false) :
      Gives l host .search (.error (.toolNotFound l.program .nowhere))

section Decisions

variable {l : Locator} {host : Host} {path : Bytes} {origin : Origin}

theorem variable_iff (found : Option Bytes) : Variable l host found ↔ l.environmentPath host = found := by
  constructor
  · intro h
    cases h with
    | ignored hconsults => rw [environmentPath, hconsults, if_neg Bool.false_ne_true]
    | unset hvariable => rw [environmentPath, hvariable, Option.filter_none, ite_self]
    | empty hvariable =>
      rw [environmentPath, hvariable]
      exact ite_self none
    | path hconsults hvariable hpath =>
      rw [environmentPath, hconsults, if_pos rfl, hvariable, Option.filter_some,
        if_pos (bne_iff_ne.mpr hpath)]
  · rintro rfl
    rw [environmentPath]
    rcases hconsults : l.consultsEnvironment with _ | _
    · exact .ignored hconsults
    rw [if_pos rfl]
    rcases hvariable : host.environment toolVariable with _ | path
    · exact .unset hvariable
    rw [Option.filter_some]
    split
    · rename_i hpath
      exact .path hconsults hvariable (bne_iff_ne.mp hpath)
    · rename_i hpath
      rw [Bool.not_eq_true, bne_eq_false_iff_eq] at hpath
      exact .empty (hpath ▸ hvariable)

theorem neighbour_iff (found : Option Bytes) : Neighbour l host found ↔ l.bundledPath host = found := by
  constructor
  · intro h
    cases h with
    | nowhere hdirectory => simp only [bundledPath, hdirectory, Option.bind_eq_bind, Option.bind_none]
    | missing hdirectory hfile =>
      simp only [bundledPath, hdirectory, hfile, Option.bind_eq_bind, Option.bind_some, Bool.false_eq_true,
        if_false]
    | file hdirectory hfile =>
      simp only [bundledPath, hdirectory, hfile, Option.bind_eq_bind, Option.bind_some, if_true]
  · rintro rfl
    rcases hdirectory : host.programDirectory with _ | directory
    · simp only [bundledPath, hdirectory, Option.bind_eq_bind, Option.bind_none]
      exact .nowhere hdirectory
    · simp only [bundledPath, hdirectory, Option.bind_eq_bind, Option.bind_some]
      split
      · rename_i hfile
        exact .file hdirectory hfile
      · rename_i hfile
        exact .missing hdirectory (Bool.eq_false_iff.mpr hfile)

/-- The first origin that is there. -/
def firstOrigin (l : Locator) (host : Host) : Origin :=
  match l.explicitPath, l.environmentPath host, l.bundledPath host with
  | some path, _, _ => .explicit path
  | none, some path, _ => .environment path
  | none, none, some path => .bundled path
  | none, none, none => .search

theorem decides_iff : Decides l host origin ↔ l.firstOrigin host = origin := by
  constructor
  · intro h
    cases h with
    | explicit hpath => simp only [firstOrigin, hpath]
    | environment hexplicit hvariable =>
      simp only [firstOrigin, hexplicit, (variable_iff _).mp hvariable]
    | bundled hexplicit hvariable hneighbour =>
      simp only [firstOrigin, hexplicit, (variable_iff _).mp hvariable, (neighbour_iff _).mp hneighbour]
    | search hexplicit hvariable hneighbour =>
      simp only [firstOrigin, hexplicit, (variable_iff _).mp hvariable, (neighbour_iff _).mp hneighbour]
  · rintro rfl
    rw [firstOrigin]
    rcases hexplicit : l.explicitPath with _ | path
    case some => exact .explicit hexplicit
    rcases hvariable : l.environmentPath host with _ | path
    case some => exact .environment hexplicit ((variable_iff _).mpr hvariable)
    rcases hneighbour : l.bundledPath host with _ | path
    case some => exact .bundled hexplicit ((variable_iff _).mpr hvariable) ((neighbour_iff _).mpr hneighbour)
    exact .search hexplicit ((variable_iff _).mpr hvariable) ((neighbour_iff _).mpr hneighbour)

/-- On every host exactly one origin decides. -/
theorem existsUnique_decides (l : Locator) (host : Host) : ∃! origin, Decides l host origin :=
  ⟨l.firstOrigin host, decides_iff.mpr rfl, fun _ h => (decides_iff.mp h).symm⟩

end Decisions

/-! ### Results -/

section Results

variable {l : Locator} {host host' : Host} {path : Bytes} {origin : Origin}
  {result : Except Invocation.Fault Bytes}

theorem resolve_of_gives (h : Decides l host origin) (hgives : Gives l host origin result) :
    l.resolve host = result := by
  cases h with
  | explicit hpath =>
    rw [resolve, hpath]
    cases hgives with
    | explicit hfile => exact if_pos hfile
    | explicitMissing hfile => exact if_neg (Bool.eq_false_iff.mp hfile)
  | environment hexplicit hvariable =>
    rw [resolve, hexplicit, (variable_iff _).mp hvariable]
    cases hgives with
    | environment hfile => exact if_pos hfile
    | environmentMissing hfile => exact if_neg (Bool.eq_false_iff.mp hfile)
  | bundled hexplicit hvariable hneighbour =>
    rw [resolve, hexplicit, (variable_iff _).mp hvariable, (neighbour_iff _).mp hneighbour]
    cases hgives
    rfl
  | search hexplicit hvariable hneighbour =>
    rw [resolve, hexplicit, (variable_iff _).mp hvariable, (neighbour_iff _).mp hneighbour]
    cases hgives with
    | @search before after path hsplit hbefore hprogram =>
      have hfind : (l.searchCandidates host).find? host.isProgram = some path := by
        refine List.find?_eq_some_iff_append.mpr ⟨hprogram, before, after, hsplit, ?_⟩
        exact fun q hq => (Bool.not_eq_true' _).mpr (hbefore q hq)
      simp only [hfind]
    | searchMissing hnone =>
      have hfind : (l.searchCandidates host).find? host.isProgram = none :=
        List.find?_eq_none.mpr fun q hq => Bool.eq_false_iff.mp (hnone q hq)
      simp only [hfind]

/-- Whatever decides gives something. -/
theorem exists_gives (l : Locator) (host : Host) (origin : Origin) : ∃ result, Gives l host origin result := by
  cases origin with
  | explicit path =>
    rcases hfile : host.isFile path with _ | _
    · exact ⟨_, .explicitMissing hfile⟩
    · exact ⟨_, .explicit hfile⟩
  | environment path =>
    rcases hfile : host.isFile path with _ | _
    · exact ⟨_, .environmentMissing hfile⟩
    · exact ⟨_, .environment hfile⟩
  | bundled path => exact ⟨_, .bundled⟩
  | search =>
    rcases hfind : (l.searchCandidates host).find? host.isProgram with _ | path
    · exact ⟨_, .searchMissing fun q hq => Bool.eq_false_iff.mpr (List.find?_eq_none.mp hfind q hq)⟩
    · obtain ⟨hprogram, before, after, hsplit, hbefore⟩ := List.find?_eq_some_iff_append.mp hfind
      exact ⟨_, .search hsplit (fun q hq => (Bool.not_eq_true' _).mp (hbefore q hq)) hprogram⟩

theorem resolve_iff (h : Decides l host origin) : l.resolve host = result ↔ Gives l host origin result := by
  constructor
  · rintro rfl
    obtain ⟨result, hgives⟩ := exists_gives l host origin
    rw [resolve_of_gives h hgives]
    exact hgives
  · exact resolve_of_gives h

/-! Two hosts are compared only where the lookup looks. -/

/-- The hosts agree on an origin, as far as the lookup asks about it. -/
def Agree (l : Locator) (host host' : Host) : Origin → Prop
  | .explicit path => host.isFile path = host'.isFile path
  | .environment path => host.isFile path = host'.isFile path
  | .bundled _ => True
  | .search =>
    (if 1 < Path.stepCount (Utf8.encode l.program) then host.workingDirectory = host'.workingDirectory
      else host.environment "PATH" = host'.environment "PATH") ∧
      ∀ q ∈ l.searchCandidates host, host.isProgram q = host'.isProgram q

theorem searchCandidates_eq (h : Agree l host host' .search) :
    l.searchCandidates host = l.searchCandidates host' := by
  have hsame := h.1
  simp only [searchCandidates]
  split at hsame
  · rename_i hsteps
    rw [if_pos hsteps, if_pos hsteps, hsame]
  · rename_i hsteps
    rw [if_neg hsteps, if_neg hsteps, hsame]

theorem Gives.transfer (h : Agree l host host' origin) (hgives : Gives l host origin result) :
    Gives l host' origin result := by
  cases hgives with
  | explicit hfile => exact .explicit (h ▸ hfile)
  | explicitMissing hfile => exact .explicitMissing (h ▸ hfile)
  | environment hfile => exact .environment (h ▸ hfile)
  | environmentMissing hfile => exact .environmentMissing (h ▸ hfile)
  | bundled => exact .bundled
  | @search before after path hsplit hbefore hprogram =>
    have hmem : ∀ q, q ∈ before ++ path :: after → host.isProgram q = host'.isProgram q :=
      fun q hq => h.2 q (hsplit ▸ hq)
    refine .search ((searchCandidates_eq h).symm.trans hsplit) ?_ ?_
    · intro q hq
      rw [← hmem q (List.mem_append_left _ hq)]
      exact hbefore q hq
    · rw [← hmem path (List.mem_append_right _ List.mem_cons_self)]
      exact hprogram
  | searchMissing hnone =>
    refine .searchMissing ?_
    intro q hq
    rw [← searchCandidates_eq h] at hq
    rw [← h.2 q hq]
    exact hnone q hq

theorem resolve_eq_of_agree (h : Decides l host origin) (h' : Decides l host' origin)
    (hagree : Agree l host host' origin) : l.resolve host = l.resolve host' :=
  ((resolve_iff h').mpr (((resolve_iff h).mp rfl).transfer hagree)).symm

theorem Neighbour.isFile (h : Neighbour l host (some path)) : host.isFile path = true := by
  cases h with
  | file _ hfile => exact hfile

/-- Whatever is found is a file, if programs are. -/
theorem isFile_of_resolve (hprograms : ∀ q, host.isProgram q = true → host.isFile q = true)
    (h : l.resolve host = .ok path) : host.isFile path = true := by
  obtain ⟨origin, hdecides, -⟩ := existsUnique_decides l host
  have hgives := (resolve_iff hdecides).mp h
  cases hgives with
  | explicit hfile => exact hfile
  | environment hfile => exact hfile
  | bundled =>
    cases hdecides with
    | bundled _ _ hneighbour => exact hneighbour.isFile
  | search _ _ hprogram => exact hprograms path hprogram

/-- A name of one step is looked for in one directory after the other. -/
theorem searchCandidates_of_directories {directories : Bytes}
    (hsteps : Path.stepCount (Utf8.encode l.program) ≤ 1)
    (hsearch : host.environment "PATH" = some directories) :
    l.searchCandidates host =
      (Path.splitAtByte 0x3A directories).map fun directory => Path.join directory (Utf8.encode l.program) := by
  simp only [searchCandidates, if_neg (Nat.not_lt.mpr hsteps), hsearch]

/-- The search ends in the first directory in which there is a program of the name. -/
theorem resolve_search_iff (h : Decides l host .search)
    (hsteps : Path.stepCount (Utf8.encode l.program) ≤ 1) :
    l.resolve host = .ok path ↔
      ∃ directories before directory after, host.environment "PATH" = some directories ∧
        Path.splitAtByte 0x3A directories = before ++ directory :: after ∧
        (∀ d ∈ before, host.isProgram (Path.join d (Utf8.encode l.program)) = false) ∧
        path = Path.join directory (Utf8.encode l.program) ∧ host.isProgram path = true := by
  rw [resolve_iff h]
  constructor
  · intro hgives
    cases hgives with
    | @search before after path hsplit hbefore hprogram =>
      rcases hsearch : host.environment "PATH" with _ | directories
      · simp only [searchCandidates, if_neg (Nat.not_lt.mpr hsteps), hsearch] at hsplit
        cases List.append_eq_nil_iff.mp hsplit.symm with
        | intro _ hcons => cases hcons
      rw [searchCandidates_of_directories hsteps hsearch] at hsplit
      obtain ⟨front, back, hdirectories, hfront, hback⟩ := List.map_eq_append_iff.mp hsplit
      obtain ⟨directory, after', rfl, hpath, -⟩ := List.map_eq_cons_iff.mp hback
      refine ⟨directories, front, directory, after', rfl, hdirectories, ?_, hpath.symm, hprogram⟩
      intro d hd
      exact hbefore _ (hfront ▸ List.mem_map_of_mem hd)
  · rintro ⟨directories, before, directory, after, hsearch, hsplit, hbefore, rfl, hprogram⟩
    have hcandidates := searchCandidates_of_directories hsteps hsearch
    rw [hsplit, List.map_append, List.map_cons] at hcandidates
    refine .search hcandidates ?_ hprogram
    intro q hq
    obtain ⟨d, hd, rfl⟩ := List.mem_map.mp hq
    exact hbefore d hd

/-- **One origin decides where the tool comes from.**  On every host it is exactly one: the path that was set;
    else the path in the variable, if it is asked and not empty; else the file next to the running program;
    else the search. The result is what this origin gives. On another host on which the same origin decides,
    and which answers alike where it is asked about it, the result is the same. A path that was set, or is in
    the variable, and is no file is a failure that names it. Whatever is found is a file, provided that what
    may be run as a program is one; a name without slashes is found in the first directory of the
    search path in which there is a program of that name. -/
theorem resolve_decided (l : Locator) (host : Host) :
    (∃! origin, Decides l host origin) ∧
      (∀ origin, Decides l host origin → ∀ result, l.resolve host = result ↔ Gives l host origin result) ∧
      (∀ origin host', Decides l host origin → Decides l host' origin → Agree l host host' origin →
        l.resolve host' = l.resolve host) ∧
      (∀ path, host.isFile path = false →
        (Decides l host (.explicit path) →
          l.resolve host = .error (.toolNotFound l.program (.configured path)) ∧
            (Invocation.Fault.toolNotFound l.program (.configured path)).message =
              "External tool '" ++ l.program ++ "' not found: " ++
                ("configured path " ++ Utf8.display path ++ " is not a file")) ∧
        (Decides l host (.environment path) →
          l.resolve host = .error (.toolNotFound l.program (.environment path)) ∧
            (Invocation.Fault.toolNotFound l.program (.environment path)).message =
              "External tool '" ++ l.program ++ "' not found: " ++
                ("$QSRUNNER_TOOL " ++ Utf8.display path ++ " is not a file"))) ∧
      ((∀ q, host.isProgram q = true → host.isFile q = true) →
        ∀ path, l.resolve host = .ok path → host.isFile path = true) ∧
      (Decides l host .search → Path.stepCount (Utf8.encode l.program) ≤ 1 → ∀ path,
        l.resolve host = .ok path ↔
          ∃ directories before directory after, host.environment "PATH" = some directories ∧
            Path.splitAtByte 0x3A directories = before ++ directory :: after ∧
            (∀ d ∈ before, host.isProgram (Path.join d (Utf8.encode l.program)) = false) ∧
            path = Path.join directory (Utf8.encode l.program) ∧ host.isProgram path = true) := by
  refine ⟨existsUnique_decides l host, fun _ h _ => resolve_iff h, ?_, ?_, ?_, ?_⟩
  · exact fun _ _ h h' hagree => (resolve_eq_of_agree h h' hagree).symm
  · intro path hfile
    exact ⟨fun h => ⟨resolve_of_gives h (.explicitMissing hfile), rfl⟩,
      fun h => ⟨resolve_of_gives h (.environmentMissing hfile), rfl⟩⟩
  · exact fun hprograms _ h => isFile_of_resolve hprograms h
  · exact fun h hsteps _ => resolve_search_iff h hsteps

end Results

/-! ### A machine with several copies -/

section Copies

open Rehearsal

theorem isFile_of_isProgram (m : Machine) (path : Bytes) (h : m.host.isProgram path = true) :
    m.host.isFile path = true := by
  have hfile : ∃ content mode, m.files.find path = .ok (.file content mode) := by
    simp only [Machine.host, Machine.isProgram] at h
    split at h
    · exact ⟨_, _, ‹_›⟩
    · cases h
  obtain ⟨content, mode, hfind⟩ := hfile
  simp only [Machine.host, FileTree.isFile, hfind]

/-- The first copy may not be run. -/
def copies : Machine where
  files := (((({} : FileTree).install (Utf8.encode "/a/tool") (.file [] 0o644)).install
    (Utf8.encode "/b/tool") (.file [] 0o755)).install (Utf8.encode "/c/tool") (.file [] 0o755))
  environment := [("PATH", Utf8.encode "/a:/b:/c")]
  programDirectory := Utf8.encode "/opt"

def copiesBundled : Machine := copies.install (Utf8.encode "/opt/tool") (.file [] 0o644)

theorem resolve_decided_copies :
    let l : Locator := { program := "tool" }
    let unset := (copiesBundled.setVariable toolVariable [0x78]).host
    copies.host.isFile (Utf8.encode "/b/tool") = true ∧
      l.resolve copies.host = .ok (Utf8.encode "/b/tool") ∧
      l.resolve unset = .error (.toolNotFound "tool" (.environment [0x78])) ∧
      l.resolve (copies.setVariable toolVariable [0x78]).host = l.resolve unset := by
  intro l unset
  have hsearch : Decides l copies.host .search :=
    .search rfl (.unset rfl) (.missing rfl (by decide +kernel))
  have hvariable : Decides l unset (.environment [0x78]) := .environment rfl (.path rfl rfl (by decide))
  obtain ⟨-, -, -, -, hfile, hfirst⟩ := resolve_decided l copies.host
  obtain ⟨-, -, hagree, hmissing, -, -⟩ := resolve_decided l unset
  have hfound : l.resolve copies.host = .ok (Utf8.encode "/b/tool") :=
    (hfirst hsearch (by decide +kernel) _).mpr ⟨Utf8.encode "/a:/b:/c", [Utf8.encode "/a"], Utf8.encode "/b",
      [Utf8.encode "/c"], rfl, by decide +kernel, by decide +kernel, by decide +kernel, by decide +kernel⟩
  refine ⟨hfile (isFile_of_isProgram copies) _ hfound, hfound, ?_, ?_⟩
  · exact ((hmissing [0x78] (by decide +kernel)).2 hvariable).1
  · refine hagree _ _ hvariable (.environment rfl (.path rfl rfl (by decide))) ?_
    show unset.isFile [0x78] = (copies.setVariable toolVariable [0x78]).host.isFile [0x78]
    decide +kernel

end Copies

end Cuesheet.Locator
