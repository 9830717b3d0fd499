import Mathlib.Algebra.BigOperators.Group.Finset.Basic
import RiskScan.Proofs.Engine.Decomposition
import RiskScan.Proofs.Scan.Roots
/-!
# Roots that overlap

A scan keeps no record of what it has collected below earlier roots. So a file is collected once for
each root below which it is eligible, as far as there is room, and it is analysed and counted as
often. It comes twice only if it is eligible below two roots, which needs one of them to be a
beginning of the other.
-/

namespace RiskScan

open Store

/-- Neither path is a beginning of the other. -/
def Path.Apart (first second : Path) : Prop :=
  first.relativeTo? second = none ∧ second.relativeTo? first = none

/-- Paths with a common continuation are not apart. -/
theorem Path.Apart.join_ne {first second : Path} (h : first.Apart second)
    (names others : List String) :
    first.join { names } ≠ second.join { names := others } := by
  intro heq
  obtain ⟨hanchor, hnames⟩ := Path.mk.inj heq
  obtain ⟨hfirst, hsecond⟩ := h
  have hprefix := List.prefix_or_prefix_of_prefix (List.prefix_append first.names names)
    (hnames ▸ List.prefix_append second.names others)
  unfold relativeTo? at hfirst hsecond
  obtain hle | hle := hprefix
  · rw [if_pos ⟨hanchor.symm, hle⟩] at hsecond
    cases hsecond
  · rw [if_pos ⟨hanchor, hle⟩] at hfirst
    cases hfirst

namespace Scope

variable {scope : Scope} {fs : FileSystem} {ways : Path → List (List String)} {roots : List String}
  {root other : String} {path : Path} {room : Nat}

/-- A path leads to a file that is to be collected below a root. -/
def Covers (scope : Scope) (fs : FileSystem) (root : String) (path : Path) : Prop :=
  fs.hasDirectory (scope.rootPath root) = .ok true ∧
    ∃ names, scope.Eligible fs scope.levels (scope.rootPath root) names ∧
    path = (scope.rootPath root).join { names }

/-- A path comes up below a root and again below a later one, before what comes up earlier fills the
room. -/
def Repeats (scope : Scope) (fs : FileSystem) (ways : Path → List (List String)) (room : Nat)
    (roots : List String) (path : Path) : Prop :=
  ∃ before root between other after, roots = before ++ root :: between ++ other :: after ∧
    scope.Covers fs root path ∧ scope.Covers fs other path ∧
    (scope.filesBelow fs ways (before ++ root :: between)).length +
      (scope.filesBelow fs ways [other]).idxOf path < room

/-! ### The files below one root -/

theorem filesBelow_append (first second : List String) :
    scope.filesBelow fs ways (first ++ second) =
    scope.filesBelow fs ways first ++ scope.filesBelow fs ways second := by
  unfold filesBelow
  rw [List.filter_append, List.flatMap_append]

theorem filesBelow_cons (root : String) (roots : List String) :
    scope.filesBelow fs ways (root :: roots) =
    scope.filesBelow fs ways [root] ++ scope.filesBelow fs ways roots :=
  filesBelow_append [root] roots

theorem mem_filesBelow_singleton :
    path ∈ scope.filesBelow fs (scope.found fs scope.levels) [root] ↔
    scope.Covers fs root path := by
  unfold Covers
  by_cases hroot : fs.hasDirectory (scope.rootPath root) = .ok true
  · rw [filesBelow_cons_of_directory _ hroot]
    simp [filesBelow, filesAt, mem_found, hroot, eq_comm]
  · rw [filesBelow_cons_of_not_directory _ hroot]
    simp [filesBelow, hroot]

instance (scope : Scope) (fs : FileSystem) (root : String) (path : Path) :
    Decidable (scope.Covers fs root path) :=
  decidable_of_iff _ mem_filesBelow_singleton

theorem mem_filesBelow : path ∈ scope.filesBelow fs (scope.found fs scope.levels) roots ↔
    ∃ root ∈ roots, scope.Covers fs root path := by
  induction roots with
  | nil => simp [filesBelow]
  | cons root roots ih =>
    rw [filesBelow_cons, List.mem_append, mem_filesBelow_singleton, ih, List.exists_mem_cons_iff]

theorem join_injective (directory : Path) {names others : List String}
    (h : directory.join { names } = directory.join { names := others }) : names = others := by
  have hnames := congrArg Path.names h
  exact List.append_cancel_left hnames

/-- Below one root no file comes up twice. -/
theorem nodup_filesBelow_singleton (hdistinct : Inode.DistinctNames fs.top) (root : String) :
    (scope.filesBelow fs (scope.found fs scope.levels) [root]).Nodup := by
  by_cases hroot : fs.hasDirectory (scope.rootPath root) = .ok true
  · rw [filesBelow_cons_of_directory _ hroot, filesBelow, List.filter_nil, List.flatMap_nil,
      List.append_nil, filesAt, List.nodup_map_iff fun names others => join_injective _]
    refine (pairwise_found hdistinct scope.levels _).imp ?_
    rintro names others hlt rfl
    exact absurd hlt (Std.Irrefl.irrefl names)
  · rw [filesBelow_cons_of_not_directory _ hroot]
    exact .nil

/-! ### How often a path comes up -/

theorem count_filesBelow (hdistinct : Inode.DistinctNames fs.top) (roots : List String)
    (path : Path) :
    (scope.filesBelow fs (scope.found fs scope.levels) roots).count path =
      roots.countP fun root => scope.Covers fs root path := by
  induction roots with
  | nil => rfl
  | cons root roots ih =>
    rw [filesBelow_cons, List.count_append, List.countP_cons, ih,
      (nodup_filesBelow_singleton hdistinct root).count, Nat.add_comm]
    simp only [mem_filesBelow_singleton, decide_eq_true_eq]

theorem repeats_concat : scope.Repeats fs ways room (roots ++ [other]) path ↔
    scope.Repeats fs ways room roots path ∨ (∃ root ∈ roots, scope.Covers fs root path) ∧
      scope.Covers fs other path ∧ (scope.filesBelow fs ways roots).length +
        (scope.filesBelow fs ways [other]).idxOf path < room := by
  constructor
  · rintro ⟨before, root, between, late, after, hsplit, hroot, hlate, hlt⟩
    rcases List.eq_nil_or_concat after with rfl | ⟨rest, last, rfl⟩
    · obtain ⟨rfl, hlast⟩ := List.append_inj' hsplit rfl
      cases hlast
      exact Or.inr ⟨⟨root, by simp, hroot⟩, hlate, hlt⟩
    · rw [List.concat_eq_append, ← List.cons_append, ← List.append_assoc] at hsplit
      obtain ⟨rfl, -⟩ := List.append_inj' hsplit rfl
      exact Or.inl ⟨before, root, between, late, rest, rfl, hroot, hlate, hlt⟩
  · rintro (⟨before, root, between, late, after, rfl, hroot, hlate, hlt⟩ | ⟨⟨root, hmem, hroot⟩,
      hother, hlt⟩)
    · exact ⟨before, root, between, late, after ++ [other], by simp, hroot, hlate, hlt⟩
    · obtain ⟨before, between, rfl⟩ := List.append_of_mem hmem
      exact ⟨before, root, between, other, [], rfl, hroot, hother, hlt⟩

/-- What there is room for comes up only once, unless a path is repeated. -/
theorem nodup_take_filesBelow (hdistinct : Inode.DistinctNames fs.top) (room : Nat)
    (roots : List String) :
    ((scope.filesBelow fs (scope.found fs scope.levels) roots).take room).Nodup ↔
      ∀ path, ¬ scope.Repeats fs (scope.found fs scope.levels) room roots path := by
  -- the last root is the later one of a pair or has no part in it
  induction roots using List.reverseRecOn with
  | nil => simp [filesBelow, Repeats]
  | append_singleton roots other ih =>
    have hown : (scope.filesBelow fs (scope.found fs scope.levels) [other]).Nodup :=
      nodup_filesBelow_singleton hdistinct other
    simp only [repeats_concat, not_or, forall_and, ← ih, ← mem_filesBelow]
    simp only [← mem_filesBelow_singleton]
    rw [filesBelow_append, List.take_append, List.nodup_append]
    generalize scope.filesBelow fs (scope.found fs scope.levels) roots = earlier
    generalize scope.filesBelow fs (scope.found fs scope.levels) [other] = later at hown ⊢
    constructor
    · rintro ⟨hearlier, -, hdisjoint⟩
      refine ⟨hearlier, ?_⟩
      rintro path ⟨hmem, hagain, hlt⟩
      have hroom : earlier.length ≤ room := by omega
      refine hdisjoint path ?_ path ((List.mem_take_iff_idxOf_lt hagain).mpr (by omega)) rfl
      rwa [List.take_of_length_le hroom]
    · rintro ⟨hearlier, hagain⟩
      refine ⟨hearlier, hown.sublist (List.take_sublist _ _), ?_⟩
      rintro path hmem _ htaken rfl
      have hlater := List.mem_of_mem_take htaken
      have hlt := (List.mem_take_iff_idxOf_lt hlater).mp htaken
      exact hagain path ⟨List.mem_of_mem_take hmem, hlater, by omega⟩

theorem files_of_scan {scan : Scan} (h : scope.scan fs = .ok scan) :
    scan.files =
      (scope.filesBelow fs (scope.found fs scope.levels) scope.roots).take scope.maxFiles := by
  obtain ⟨_, hscan, hfiles, -⟩ | ⟨_, hrefused, -⟩ :=
    scope.scanRoots_collects fs scope.maxFiles scope.roots
  · cases hscan.symm.trans h
    exact hfiles
  · cases hrefused.symm.trans h

theorem not_repeats_of_apart
    (hapart : roots.Pairwise fun root other => (scope.rootPath root).Apart (scope.rootPath other)) :
    ¬ scope.Repeats fs ways room roots path := by
  rintro ⟨before, root, between, other, after, rfl, ⟨-, names, -, hroot⟩, ⟨-, others, -, hother⟩, -⟩
  rw [List.append_assoc, List.pairwise_append, List.cons_append, List.pairwise_cons] at hapart
  obtain ⟨-, ⟨hrest, -⟩, -⟩ := hapart
  exact (hrest other (by simp)).join_ne names others (hroot.symm.trans hother)

end Scope

namespace Engine

variable {engine : Engine} {fs : FileSystem} {growth : SourceFile → Growth}

/-- The findings in a file, of which there are none if it cannot be read. -/
def findingsAt (engine : Engine) (fs : FileSystem) (growth : SourceFile → Growth) (path : Path) :
    Nat :=
  match fs.readSource path with
  | .ok (.ok content) => (growth (.ofContent (engine.displayPath path) content)).attached
  | _ => 0

theorem sum_attached_readFiles {paths : List Path} {files : List SourceFile}
    (h : engine.readFiles fs paths = .ok files) :
    (files.map fun file => (growth file).attached).sum =
      (paths.map (engine.findingsAt fs growth)).sum := by
  induction paths generalizing files with
  | nil =>
    cases h
    rfl
  | cons path paths ih =>
    rw [List.map_cons, List.sum_cons, findingsAt]
    obtain ⟨error, hread, hrest⟩ | ⟨content, others, hread, hrest, rfl⟩ := readFiles_cons_of_ok h
    · rw [hread, ih hrest, Nat.zero_add]
    · rw [hread, List.map_cons, List.sum_cons, ih hrest]

/-- Every run counts the findings of a file as often as the scan has collected it. -/
theorem totalIssues_eq (hregistry : ∀ analyzer ∈ engine.registry, analyzer.Declared ∨
    analyzer.Uniform)
    (fs : FileSystem) : ∃ issues : Path → Nat, ∀ start, OrdinarilyReachable start →
    ∀ milliseconds run final,
      engine.run fs milliseconds start = .ok (run, final) →
        ∃ scan, (engine.config.scope engine.project).scan fs = .ok scan ∧
          run.result.filesAnalyzed = scan.files.length ∧
          run.result.totalIssues = ∑ path ∈ scan.files.toFinset,
          scan.files.count path * issues path := by
  have huniform : ∀ analyzer ∈ engine.analyzers, analyzer.Uniform := fun analyzer hmem =>
    (hregistry analyzer (List.mem_filter.mp hmem).1).elim (fun h => h.uniform) fun h => h
  obtain ⟨growth, hadd⟩ := add_of_uniform huniform
  refine ⟨engine.findingsAt fs growth, ?_⟩
  intro start hstart milliseconds run final hrun
  obtain ⟨files, hsources, hverdict⟩ := exists_sources_of_run hadd hstart hrun
  obtain ⟨scan, hscan, hread⟩ := exists_scan_of_sources hsources
  obtain ⟨_, found, outcomes, _, -, hfound, -, -, hresult⟩ := exists_of_run_eq_ok hrun
  cases hfound.symm.trans hscan
  refine ⟨scan, hscan, by rw [hresult]; rfl, ?_⟩
  have htotal : run.result.totalIssues = (verdictOf engine.config growth files).totalIssues :=
    congrArg Verdict.totalIssues hverdict
  rw [htotal, verdictOf, sum_attached_readFiles hread, Finset.sum_list_map_count]
  simp only [nsmul_eq_mul, Nat.cast_id]

end Engine

namespace Scope

/-- A file is collected once for each root below which it is to be collected, as far as there is
room, and none comes twice exactly if no path is repeated before the room is used up. A run counts
the findings of a file as often as it has been collected. -/
theorem collects_per_root (scope : Scope) {fs : FileSystem}
    (hdistinct : Inode.DistinctNames fs.top) :
    ∃ ways, scope.Enumerates fs ways ∧
      (∀ scan, scope.scan fs = .ok scan →
        (∀ path, scan.files.count path ≤ scope.roots.countP fun root => scope.Covers fs root path) ∧
        (scan.files.length < scope.maxFiles → ∀ path,
          scan.files.count path = scope.roots.countP fun root => scope.Covers fs root path) ∧
        (scan.files.Nodup ↔ ∀ path, ¬ scope.Repeats fs ways scope.maxFiles scope.roots path)) ∧
      (scope.roots.Pairwise (fun root other => (scope.rootPath root).Apart (scope.rootPath other)) →
        ∀ path, ¬ scope.Repeats fs ways scope.maxFiles scope.roots path) ∧
      ∀ engine : Engine, engine.config.scope engine.project = scope →
        (∀ analyzer ∈ engine.registry, analyzer.Declared ∨ analyzer.Uniform) →
        ∃ issues : Path → Nat, ∀ start, OrdinarilyReachable start → ∀ milliseconds run final,
          engine.run fs milliseconds start = .ok (run, final) → ∃ scan, scope.scan fs = .ok scan ∧
            run.result.filesAnalyzed = scan.files.length ∧
            run.result.totalIssues = ∑ path ∈ scan.files.toFinset,
            scan.files.count path * issues path := by
  refine ⟨scope.found fs scope.levels,
    fun root => ⟨pairwise_found hdistinct scope.levels root, fun _ => mem_found⟩, ?_,
    fun hapart path => not_repeats_of_apart hapart, ?_⟩
  · intro scan hscan
    have hfiles := files_of_scan hscan
    refine ⟨?_, ?_, ?_⟩
    · intro path
      rw [hfiles, ← count_filesBelow hdistinct]
      exact (List.take_sublist _ _).count_le path
    · intro hroom path
      rw [hfiles, List.length_take] at hroom
      rw [hfiles, ← count_filesBelow hdistinct, List.take_of_length_le (by omega)]
    · rw [hfiles]
      exact nodup_take_filesBelow hdistinct scope.maxFiles scope.roots
  · rintro engine rfl hregistry
    exact Engine.totalIssues_eq hregistry fs

/-- An engine for roots of which one lies below another. -/
def overlappingEngine (maxFiles : Nat) : Engine :=
  { falteringEngine with config := { roots := ["two", "gone", "two/inner", "one"], maxFiles } }

def overlappingScope (maxFiles : Nat) : Scope :=
  (overlappingEngine maxFiles).config.scope (overlappingEngine maxFiles).project

def innerPath : Path :=
  { anchor := .top, names := ["p", "two", "inner", "a.ts"] }

theorem collects_per_root_of_overlap : Inode.DistinctNames nestedFiles.top ∧
    ∃ ways scan run final, ∃ issues : Path → Nat,
    (overlappingScope 9).Enumerates nestedFiles ways ∧
    (overlappingScope 9).scan nestedFiles = .ok scan ∧
    scan.files = [innerPath, innerPath, { anchor := .top, names := ["p", "one", "b.js"] }] ∧
    scan.files.count innerPath =
      (overlappingScope 9).roots.countP
        (fun root => (overlappingScope 9).Covers nestedFiles root innerPath) ∧
    (∃ path, (overlappingScope 9).Repeats nestedFiles ways 9 (overlappingScope 9).roots path) ∧
    (overlappingEngine 9).run nestedFiles 0 Store.empty = .ok (run, final) ∧
    run.result.filesAnalyzed = 3 ∧
    run.result.totalIssues = ∑ path ∈ scan.files.toFinset, scan.files.count path * issues path := by
  have hfiles : ((overlappingScope 9).scan nestedFiles).toOption.map Scan.files =
      some [innerPath, innerPath, { anchor := .top, names := ["p", "one", "b.js"] }] := by
    decide +kernel
  have hanalyzed : ((overlappingEngine 9).run nestedFiles 0 Store.empty).toOption.map
      (fun done => done.1.result.filesAnalyzed) = some 3 := by
    decide +kernel
  obtain ⟨scan, hscan, hfiles⟩ := Except.exists_of_map_toOption hfiles
  obtain ⟨⟨run, final⟩, hrun, hanalyzed⟩ := Except.exists_of_map_toOption hanalyzed
  obtain ⟨ways, hways, hscans, -, hruns⟩ :=
    (overlappingScope 9).collects_per_root distinctNames_nestedFiles
  obtain ⟨-, hcount, hnodup⟩ := hscans scan hscan
  obtain ⟨issues, hissues⟩ :=
    hruns (overlappingEngine 9) rfl fun _ => declared_or_uniform_of_falteringEngine
  obtain ⟨same, hsame, -, htotal⟩ := hissues _ .refl 0 run final hrun
  cases hsame.symm.trans hscan
  refine ⟨distinctNames_nestedFiles, ways, scan, run, final, issues, hways, hscan, hfiles,
    ?_, ?_, hrun,
    hanalyzed, htotal⟩
  · exact hcount (by rw [hfiles]; decide) innerPath
  · by_contra hnone
    have hfresh := hnodup.mpr fun path hrepeats => hnone ⟨path, hrepeats⟩
    rw [hfiles] at hfresh
    exact absurd hfresh (by decide)

/-- The second place goes to a file that has been collected already, and its note is counted
twice. -/
theorem not_collects_once_of_overlap :
    (∃ scan, (overlappingScope 2).scan nestedFiles = .ok scan ∧
      scan.files = [innerPath, innerPath]) ∧
    (∃ run final, (overlappingEngine 2).run nestedFiles 0 Store.empty = .ok (run, final) ∧
      run.result.totalIssues = 2) ∧
    ∃ run final, (overlappingEngine 1).run nestedFiles 0 Store.empty = .ok (run, final) ∧
      run.result.totalIssues = 1 := by
  have hfiles : ((overlappingScope 2).scan nestedFiles).toOption.map Scan.files =
      some [innerPath, innerPath] := by
    decide +kernel
  have htwice : ((overlappingEngine 2).run nestedFiles 0 Store.empty).toOption.map
      (fun done => done.1.result.totalIssues) = some 2 := by
    decide +kernel
  have honce : ((overlappingEngine 1).run nestedFiles 0 Store.empty).toOption.map
      (fun done => done.1.result.totalIssues) = some 1 := by
    decide +kernel
  obtain ⟨⟨run, final⟩, hrun, htotal⟩ := Except.exists_of_map_toOption htwice
  obtain ⟨⟨other, after⟩, hother, hsingle⟩ := Except.exists_of_map_toOption honce
  exact ⟨Except.exists_of_map_toOption hfiles, ⟨run, final, hrun, htotal⟩, other, after,
    hother, hsingle⟩

end Scope

end RiskScan
