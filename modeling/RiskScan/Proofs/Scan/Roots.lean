import RiskScan.Proofs.Outcome
import RiskScan.Proofs.Scan.Sights
/-!
# What a scan collects

A scan collects the eligible files below its roots, in the order of the roots and below each in the
order of their names, as far as the cap allows. It answers unless, before the cap is reached, it
comes to a root with a name that is too long: that one ends it, while a root that is missing is
passed over.
-/

namespace RiskScan.Scope

/-- The files to which some ways lead from those of some roots that are directories. -/
def filesBelow (scope : Scope) (fs : FileSystem) (ways : Path → List (List String))
    (roots : List String) : List Path :=
  (roots.filter fun root =>
    fs.hasDirectory (scope.rootPath root) matches .ok true).flatMap fun root =>
      filesAt (scope.rootPath root) (ways (scope.rootPath root))

/-- No root is refused before the files below earlier ones fill the room. -/
def RootsAnswer (scope : Scope) (fs : FileSystem) (ways : Path → List (List String)) (room : Nat)
    (roots : List String) : Prop :=
  ∀ before root after, roots = before ++ root :: after →
    (scope.filesBelow fs ways before).length < room →
    fs.hasDirectory (scope.rootPath root) ≠ .error .nameTooLong

variable {scope : Scope} {fs : FileSystem} {ways : Path → List (List String)} {root : String}

theorem filesBelow_cons_of_directory (ways : Path → List (List String))
    (h : fs.hasDirectory (scope.rootPath root) = .ok true) (roots : List String) :
    scope.filesBelow fs ways (root :: roots) =
      filesAt (scope.rootPath root)
        (ways (scope.rootPath root)) ++ scope.filesBelow fs ways roots := by
  simp [filesBelow, h]

theorem filesBelow_cons_of_not_directory (ways : Path → List (List String))
    (h : fs.hasDirectory (scope.rootPath root) ≠ .ok true) (roots : List String) :
    scope.filesBelow fs ways (root :: roots) = scope.filesBelow fs ways roots := by
  unfold filesBelow
  rw [List.filter_cons_of_neg]
  intro hmatches
  split at hmatches
  · contradiction
  · cases hmatches

theorem rootsAnswer_cons {room : Nat} {roots : List String} {answer : Bool} (next : Nat)
    (h : fs.hasDirectory (scope.rootPath root) = .ok answer)
    (hroom : ∀ before, (scope.filesBelow fs ways (root :: before)).length < room ↔
      (scope.filesBelow fs ways before).length < next) :
    scope.RootsAnswer fs ways room (root :: roots) ↔ scope.RootsAnswer fs ways next roots := by
  constructor
  · intro hanswer before other after hsplit hlt
    exact hanswer (root :: before) other after (congrArg (root :: ·) hsplit)
      ((hroom before).mpr hlt)
  · intro hanswer before other after hsplit hlt
    obtain ⟨rfl, hhere⟩ | ⟨above, rfl, hbelow⟩ := List.cons_eq_append_iff.mp hsplit
    · cases hhere
      rw [h]
      exact fun hrefused => by cases hrefused
    · exact hanswer above other after hbelow ((hroom above).mp hlt)

/-- A scan of some roots answers with the files that the room holds, or a root has been refused. -/
theorem scanRoots_collects (scope : Scope) (fs : FileSystem) (room : Nat) (roots : List String) :
    (∃ scan, scope.scanRoots fs room roots = .ok scan ∧
        scan.files = (scope.filesBelow fs (scope.found fs scope.levels) roots).take room ∧
        scope.RootsAnswer fs (scope.found fs scope.levels) room roots) ∨
      ∃ fault, scope.scanRoots fs room roots = .error fault ∧
        ¬ scope.RootsAnswer fs (scope.found fs scope.levels) room roots := by
  induction roots generalizing room with
  | nil =>
    refine .inl ⟨{}, by cases room <;> rfl, by cases room <;> rfl, ?_⟩
    intro before root after hsplit
    simp at hsplit
  | cons root roots ih =>
    cases room with
    | zero => exact .inl ⟨{}, rfl, rfl, fun _ _ _ _ hlt => absurd hlt (Nat.not_lt_zero _)⟩
    | succ room =>
      unfold scanRoots
      dsimp only
      cases hroot : fs.hasDirectory (scope.rootPath root) with
      | error error =>
        refine .inr ⟨_, rfl, fun hanswer => ?_⟩
        rw [FileSystem.eq_nameTooLong_of_hasDirectory hroot] at hroot
        exact hanswer [] root roots rfl (Nat.succ_pos room) hroot
      | ok isDirectory =>
        cases isDirectory with
        | false =>
          have hnone : fs.hasDirectory (scope.rootPath root) ≠ .ok true := by simp [hroot]
          have hbelow := filesBelow_cons_of_not_directory (scope.found fs scope.levels) hnone
          rw [rootsAnswer_cons (room + 1) hroot fun before => by rw [hbelow], hbelow]
          obtain ⟨rest, hrest, hfiles, hanswer⟩ | ⟨fault, hrest, hrefused⟩ := ih (room + 1)
          · exact .inl ⟨rest.addMissing root, by rw [hrest]; rfl, hfiles, hanswer⟩
          · exact .inr ⟨fault, by rw [hrest]; rfl, hrefused⟩
        | true =>
          have hbelow := filesBelow_cons_of_directory (scope.found fs scope.levels) hroot
          have hwalk := scope.files_walk fs scope.levels (room + 1) (scope.rootPath root)
          generalize scope.walk fs scope.levels (room + 1) (scope.rootPath root) = haul at hwalk ⊢
          have hlength := congrArg List.length hwalk
          rw [List.length_take] at hlength
          have hroom : ∀ before,
              (scope.filesBelow fs (scope.found fs scope.levels) (root :: before)).length <
                room + 1 ↔
                (scope.filesBelow fs (scope.found fs scope.levels) before).length <
                  room + 1 - haul.files.length := by
            intro before
            rw [hbelow, List.length_append]
            omega
          rw [rootsAnswer_cons _ hroot hroom]
          obtain ⟨rest, hrest, hfiles, hanswer⟩ | ⟨fault, hrest, hrefused⟩ :=
            ih (room + 1 - haul.files.length)
          · refine .inl ⟨rest.addHaul haul, by rw [hrest]; rfl, ?_, hanswer⟩
            rw [hbelow, List.take_append, Scan.addHaul]
            dsimp only
            rw [hfiles, hwalk, List.length_take]
            congr 2
            omega
          · exact .inr ⟨fault, by rw [hrest]; rfl, hrefused⟩

/-- The ways below a root are all those to eligible files, each once, in the order of the names. -/
def Enumerates (scope : Scope) (fs : FileSystem) (ways : Path → List (List String)) : Prop :=
  ∀ root, (ways root).Pairwise (List.Lex (· < ·)) ∧
    ∀ names, names ∈ ways root ↔ scope.Eligible fs scope.levels root names

theorem scan_collects (scope : Scope) {fs : FileSystem} (hdistinct : Inode.DistinctNames fs.top) :
    ∃ ways, scope.Enumerates fs ways ∧
      (∀ scan, scope.scan fs = .ok scan →
        scan.files = (scope.filesBelow fs ways scope.roots).take scope.maxFiles) ∧
      ((∃ scan, scope.scan fs = .ok scan) ↔
        scope.RootsAnswer fs ways scope.maxFiles scope.roots) := by
  refine ⟨scope.found fs scope.levels,
    fun root => ⟨pairwise_found hdistinct scope.levels root, fun _ => mem_found⟩, ?_⟩
  unfold scan
  obtain ⟨scan, hscan, hfiles, hanswer⟩ | ⟨fault, hscan, hrefused⟩ :=
    scope.scanRoots_collects fs scope.maxFiles scope.roots
  · rw [hscan]
    refine ⟨?_, iff_of_true ⟨scan, rfl⟩ hanswer⟩
    rintro _ ⟨⟩
    exact hfiles
  · rw [hscan]
    refine ⟨?_, iff_of_false ?_ hrefused⟩
    · rintro _ ⟨⟩
    · rintro ⟨_, ⟨⟩⟩

/-- Files in two directories, one of them a level down, beside what a scan passes over. -/
def nestedFiles : FileSystem where
  top := [("p", .directory [
    ("one", .directory [("b.js", .file [])]),
    ("two", .directory [("inner", .directory [("a.ts", .file [])])]),
    ("three", .directory [("node_modules", .directory [("c.js", .file [])])]),
    ("four", .directory [("notes.txt", .file [])])])]

def cappedScope : Scope :=
  ({ roots := ["three", "two", "gone", "four", "one", "two"], maxFiles := 2 } : Config).scope
    { anchor := .top, names := ["p"] }

theorem distinctNames_nestedFiles : Inode.DistinctNames nestedFiles.top := by
  have hfile {name : String} : Inode.DistinctNames [(name, .file [])] :=
    Inode.distinctNames_of_entries (by simp) (by simp)
  have hbelow {name : String} {inner : List (String × Inode)} (hinner : Inode.DistinctNames inner) :
      Inode.DistinctNames [(name, .directory inner)] :=
    Inode.distinctNames_of_entries (by simp) (by simpa using hinner)
  apply hbelow
  refine Inode.distinctNames_of_entries (by decide) ?_
  simpa [hfile] using ⟨hbelow hfile, hbelow hfile⟩

theorem scan_collects_of_nestedFiles : Inode.DistinctNames nestedFiles.top ∧
    ∃ ways scan, cappedScope.Enumerates nestedFiles ways ∧ cappedScope.scan nestedFiles = .ok scan ∧
      scan.files = (cappedScope.filesBelow nestedFiles ways cappedScope.roots).take 2 ∧
      scan.files.map Path.toString = ["/p/two/inner/a.ts", "/p/one/b.js"] := by
  have hscan :
      (cappedScope.scan nestedFiles).toOption.map (fun scan => scan.files.map Path.toString) =
      some ["/p/two/inner/a.ts", "/p/one/b.js"] := by
    decide +kernel
  obtain ⟨ways, hways, hfiles, -⟩ := cappedScope.scan_collects distinctNames_nestedFiles
  obtain ⟨scan, hresult, hnames⟩ := Except.exists_of_map_toOption hscan
  exact ⟨distinctNames_nestedFiles, ways, scan, hways, hresult, hfiles scan hresult, hnames⟩

/-- A name with one octet more than a name can have. -/
def longName : String :=
  String.ofList (List.replicate 256 'x')

def longRootScope : Scope :=
  ({ roots := [longName, "one"] } : Config).scope { anchor := .top, names := ["p"] }

theorem toList_longName : longName.toList = List.replicate 256 'x' :=
  String.toList_ofList

theorem rootPath_longName :
    longRootScope.rootPath longName = { anchor := .top, names := ["p", longName] } := by
  have hpieces : Path.pieces longName.toList = [longName.toList] := by
    rw [toList_longName]
    decide +kernel
  have hanchor : Path.anchorOf longName.toList = .relative := by
    rw [toList_longName]
    rfl
  have hmeaningful : Path.isMeaningful longName = true := by decide +kernel
  unfold rootPath Path.ofString
  rw [hpieces, hanchor]
  simp [hmeaningful, Path.join, Path.isAbsolute, longRootScope, Config.scope]

theorem hasDirectory_longName :
    nestedFiles.hasDirectory (longRootScope.rootPath longName) = .error .nameTooLong := by
  have hnul : FileSystem.hasNul (longRootScope.rootPath longName) = false := by
    have hmem : '\x00' ∉ longName.toList := by
      rw [toList_longName]
      exact fun h => absurd (List.eq_of_mem_replicate h) (by decide)
    rw [rootPath_longName]
    simp [FileSystem.hasNul, hmem]
  have hrefused : (nestedFiles.hasDirectory (longRootScope.rootPath longName)).toOption = none := by
    rw [FileSystem.hasDirectory, FileSystem.isDirectory, FileSystem.inode, FileSystem.place, hnul,
      rootPath_longName]
    decide +kernel
  cases hanswer : nestedFiles.hasDirectory (longRootScope.rootPath longName) with
  | error error => rw [FileSystem.eq_nameTooLong_of_hasDirectory hanswer]
  | ok answer =>
    rw [hanswer] at hrefused
    cases hrefused

/-- A root that cannot be looked up is not passed over as a missing one is, so the files below a
later root are lost. -/
theorem not_scan_collects_of_longName : Inode.DistinctNames nestedFiles.top ∧
    nestedFiles.hasDirectory (longRootScope.rootPath "one") = .ok true ∧
    longRootScope.Eligible nestedFiles longRootScope.levels (longRootScope.rootPath "one")
      ["b.js"] ∧
    ¬ ∃ scan, longRootScope.scan nestedFiles = .ok scan := by
  refine ⟨distinctNames_nestedFiles, rfl, mem_found.mp (by decide +kernel), ?_⟩
  rintro ⟨scan, hscan⟩
  obtain ⟨_, -, -, hanswer⟩ | ⟨fault, hrefused, -⟩ :=
    longRootScope.scanRoots_collects nestedFiles longRootScope.maxFiles longRootScope.roots
  · exact hanswer [] longName ["one"] rfl (by decide) hasDirectory_longName
  · cases hrefused.symm.trans hscan

end RiskScan.Scope
