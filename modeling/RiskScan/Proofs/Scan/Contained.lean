import Mathlib.Data.List.Basic
import RiskScan.Proofs.FileSystem.Emptied
import RiskScan.Proofs.Scan.Roots
/-!
# Errors of a scan

A scan goes through what there is to see below its roots, in the order of the roots, as long as
there is room for another file. What it collects and what it notes is just what it comes to on its
way: directories that cannot be listed and entries whose nature cannot be told are noted, and roots
that are no directories are counted as missing. A directory that cannot be listed adds as many files
as an empty one, so the files are those of the same scan with these directories empty, as long as
nothing leads on through one of them.
-/

namespace RiskScan

/-- What a scan comes to. -/
inductive Seen where
  | below (path : Path) (sight : Sight)
  | missing (root : String)
  /-- A root of which it cannot be told whether it is a directory. -/
  | refused (root : String)
  deriving DecidableEq, Repr

namespace Seen

def file? : Seen → Option Path
  | .below path sight => sight.file? path
  | .missing _ | .refused _ => none

def note? : Seen → Option SuppressedError
  | .below path sight => sight.note? path
  | .missing _ | .refused _ => none

def missing? : Seen → Option String
  | .missing root => some root
  | .below _ _ | .refused _ => none

def isFile : Seen → Bool
  | .below _ sight => sight.isFile
  | .missing _ | .refused _ => false

end Seen

def Scan.ofSeen (seen : List Seen) : Scan where
  files := seen.filterMap Seen.file?
  missingRoots := seen.filterMap Seen.missing?
  suppressed := seen.filterMap Seen.note?

namespace Scope

variable (scope : Scope) (fs : FileSystem)

/-- What a root adds to what a scan comes to, where `below` gives what there is below a
directory. -/
def seenAt (below : Path → List (List String × Sight)) (root : String) : List Seen :=
  match fs.hasDirectory (scope.rootPath root) with
  | .error _ => [.refused root]
  | .ok false => [.missing root]
  | .ok true => (below (scope.rootPath root)).map fun (names, sight) =>
    .below ((scope.rootPath root).join { names }) sight

/-- What a scan of some roots comes to with room for a number of files. -/
def seen (below : Path → List (List String × Sight)) (room : Nat) (roots : List String) :
    List Seen :=
  cutOff Seen.isFile room (roots.flatMap (scope.seenAt fs below))

/-- What is listed below a directory is all that there is to see, each once, in the order of the
names. -/
def Surveys (below : Path → List (List String × Sight)) : Prop :=
  ∀ root, (below root).Pairwise (fun first second => List.Lex (· < ·) first.1 second.1) ∧
    ∀ names sight, (names, sight) ∈ below root ↔ scope.Sees fs scope.levels root names sight

/-- Below a directory nothing leads on through a directory that cannot be listed: an entry that is
no directory once these are empty was none before, and a directory that can be listed is not the
same as one that cannot. -/
structure UndisturbedBelow (levels : Nat) (directory : Path) : Prop where
  nature : ∀ names name inode, scope.Enters fs levels directory names →
    scope.Holds fs (directory.join { names }) name inode →
      entryIsDirectory fs.emptied ((directory.join { names }).child name) inode = .ok false →
        entryIsDirectory fs ((directory.join { names }).child name) inode = .ok false
  listable : ∀ names entries, scope.Enters fs levels directory names →
    fs.list (directory.join { names }) = .ok entries → ∀ location inode,
      fs.place (directory.join { names }) = .ok (.occupied location inode) →
      fs.unlistable location = false

/-- No root leads on through a directory that cannot be listed, nor does anything below a root. -/
def Undisturbed : Prop :=
  ∀ root ∈ scope.roots, fs.hasDirectory (scope.rootPath root) = .ok true →
    fs.emptied.hasDirectory (scope.rootPath root) = .ok true ∧
      scope.UndisturbedBelow fs scope.levels (scope.rootPath root)

variable {scope fs} {levels room : Nat} {directory : Path} {roots : List String} {root : String}

/-! ### What is seen is what is recorded -/

theorem seen_cons_of_missing {below : Path → List (List String × Sight)}
    (hroot : fs.hasDirectory (scope.rootPath root) = .ok false) :
    scope.seen fs below (room + 1) (root :: roots) =
      .missing root :: scope.seen fs below (room + 1) roots := by
  unfold seen
  rw [List.flatMap_cons, seenAt, hroot]
  rfl

theorem seen_cons_of_directory {below : Path → List (List String × Sight)} {haul : Haul}
    (hroot : fs.hasDirectory (scope.rootPath root) = .ok true)
    (hhaul : haul = .ofSights (scope.rootPath root)
      (cutOff (fun (_, sight) => sight.isFile) room (below (scope.rootPath root)))) :
    scope.seen fs below room (root :: roots) =
      (cutOff (fun (_, sight) => sight.isFile) room (below (scope.rootPath root))).map
          (fun (names, sight) => .below ((scope.rootPath root).join { names }) sight) ++
        scope.seen fs below (room - haul.files.length) roots := by
  unfold seen
  rw [List.flatMap_cons, seenAt, hroot]
  dsimp only
  rw [cutOff_append, cutOff_map, hhaul, length_files_ofSights, List.countP_map]
  rfl

theorem ofSeen_append (directory : Path) (sights : List (List String × Sight)) (seen : List Seen) :
    Scan.ofSeen (sights.map (fun (names, sight) => .below (directory.join { names }) sight) ++
      seen) =
      (Scan.ofSeen seen).addHaul (.ofSights directory sights) := by
  have hmissing :
      (sights.map fun (names, sight) => Seen.below (directory.join { names }) sight).filterMap
      Seen.missing? = [] := by
    rw [List.filterMap_eq_nil_iff]
    intro item hitem
    obtain ⟨_, -, rfl⟩ := List.mem_map.mp hitem
    rfl
  unfold Scan.ofSeen Scan.addHaul Haul.ofSights
  rw [List.filterMap_append, List.filterMap_append, List.filterMap_append, hmissing,
    List.nil_append, List.filterMap_map, List.filterMap_map]
  rfl

/-- A scan records what it comes to, if it can be told of every root that it comes to whether it is
a directory. -/
theorem scanRoots_eq (scope : Scope) (fs : FileSystem) (room : Nat) (roots : List String)
    (hanswers : ∀ root, .refused root ∉ scope.seen fs (scope.sights fs scope.levels) room roots) :
    scope.scanRoots fs room roots =
      .ok (.ofSeen (scope.seen fs (scope.sights fs scope.levels) room roots)) := by
  induction roots generalizing room with
  | nil =>
    rw [seen, List.flatMap_nil, cutOff_nil]
    cases room <;> rfl
  | cons root roots ih =>
    cases room with
    | zero =>
      rw [seen, cutOff_zero]
      rfl
    | succ room =>
      unfold scanRoots
      dsimp only
      cases hroot : fs.hasDirectory (scope.rootPath root) with
      | error error =>
        refine absurd ?_ (hanswers root)
        rw [seen, List.flatMap_cons, seenAt, hroot]
        exact List.mem_cons_self
      | ok isDirectory =>
        cases isDirectory with
        | false =>
          rw [seen_cons_of_missing hroot] at hanswers ⊢
          rw [ih (room + 1) fun other hother => hanswers other (List.mem_cons_of_mem _ hother)]
          rfl
        | true =>
          have hwalk := scope.walk_eq fs scope.levels (room + 1) (scope.rootPath root)
          rw [seen_cons_of_directory hroot hwalk] at hanswers ⊢
          rw [ofSeen_append, ← hwalk,
            ih _ fun other hother => hanswers other (List.mem_append_right _ hother)]
          rfl

theorem exists_of_refused {below : Path → List (List String × Sight)}
    (h : .refused root ∈ scope.seen fs below room roots) :
    root ∈ roots ∧ ∃ error, fs.hasDirectory (scope.rootPath root) = .error error := by
  obtain ⟨other, hother, hmem⟩ := List.mem_flatMap.mp ((isPrefix_cutOff _ _ _).subset h)
  unfold seenAt at hmem
  split at hmem
  next error herror =>
    cases List.mem_singleton.mp hmem
    exact ⟨hother, error, herror⟩
  next => cases List.mem_singleton.mp hmem
  next =>
    obtain ⟨_, -, heq⟩ := List.mem_map.mp hmem
    cases heq

/-! ### The same files with empty directories -/

theorem UndisturbedBelow.child {name : String} {inode : Inode}
    (h : scope.UndisturbedBelow fs (levels + 1) directory)
    (hholds : scope.Holds fs directory name inode)
    (hnature : entryIsDirectory fs (directory.child name) inode = .ok true) :
    scope.UndisturbedBelow fs levels (directory.child name) where
  nature names := by
    intro other inode henters
    have hother := h.nature (name :: names) other inode (.deeper hholds hnature henters)
    rwa [Path.join_cons] at hother
  listable names := by
    intro entries henters
    have hother := h.listable (name :: names) entries (.deeper hholds hnature henters)
    rwa [Path.join_cons] at hother

/-- Without links nothing leads on through a directory that cannot be listed but a root that lies in
one. -/
theorem undisturbed_of_no_links (hdistinct : Inode.DistinctNames fs.top)
    (hlinks : ∀ location target, fs.inodeAt? location ≠ some (.link target))
    (hroots : ∀ root ∈ scope.roots, fs.hasDirectory (scope.rootPath root) = .ok true →
      fs.emptied.hasDirectory (scope.rootPath root) = .ok true)
    (hlistable : ∀ path entries location inode, fs.list path = .ok entries →
      fs.place path = .ok (.occupied location inode) → fs.unlistable location = false) :
    scope.Undisturbed fs := by
  intro root hroot hdirectory
  refine ⟨hroots root hroot hdirectory, ?_, fun names entries _ hlist location inode hplace =>
    hlistable _ entries location inode hlist hplace⟩
  rintro names name inode - ⟨entries, hlist, hmem, -⟩ hfile
  cases inode with
  | file octets => rfl
  | directory held => cases hfile
  | link target =>
    obtain ⟨held, hinode, rfl⟩ := FileSystem.exists_of_list_eq_ok hlist
    obtain ⟨location, hlocation⟩ := FileSystem.exists_of_inode_eq_ok hinode
    have hlookup :=
      Inode.lookup?_of_mem (hdistinct location held hlocation) (List.mem_mergeSort.mp hmem)
    have hlink := (FileSystem.inodeAt?_child hlocation name).trans hlookup
    exact absurd hlink (hlinks _ _)

theorem entryIsDirectory_emptied (fs : FileSystem) (path : Path) (inode : Inode) :
    entryIsDirectory fs.emptied path inode = entryIsDirectory fs path inode ∨
      entryIsDirectory fs.emptied path inode = .ok false := by
  cases inode with
  | file | directory => exact Or.inl rfl
  | link target =>
    unfold entryIsDirectory
    obtain hsame | hgone := fs.isDirectory_emptied path
    · exact Or.inl (by rw [hsame])
    · exact Or.inr (by rw [hgone])

/-- Of an entry only the kind counts. -/
theorem entryIsDirectory_emptied_inode (fs : FileSystem) (path : Path) (inode : Inode)
    (barred : Location → Bool) (location : Location) :
    entryIsDirectory fs path (inode.emptied barred location) = entryIsDirectory fs path inode := by
  cases inode <;> rfl

/-- What is found below a directory that is still there is the same. -/
theorem found_emptied (hdistinct : Inode.DistinctNames fs.top)
    (h : scope.UndisturbedBelow fs levels directory)
    (hdirectory : ∀ entries, fs.list directory = .ok entries →
      fs.emptied.isDirectory directory = .ok true) :
    scope.found fs.emptied levels directory = scope.found fs levels directory := by
  induction levels generalizing directory with
  | zero => rfl
  | succ levels ih =>
    unfold found
    cases hlist : fs.list directory with
    | error error =>
      obtain hempty | ⟨other, herror⟩ := FileSystem.list_emptied_of_error hlist
      · rw [hempty]
        rfl
      · rw [herror]
    | ok entries =>
      have hstill := hdirectory entries hlist
      have hlistable := h.listable [] entries .here
      rw [Path.join_nil] at hlistable
      obtain ⟨location, hemptied⟩ := FileSystem.list_emptied_of_ok hlist (hlistable hlist) hstill
      rw [hemptied]
      dsimp only
      rw [List.flatMap_map]
      apply List.flatMap_congr
      rintro ⟨name, inode⟩ hmem
      unfold foundAt
      dsimp only
      split
      · rfl
      next hskips =>
        have hholds : scope.Holds fs directory name inode :=
          ⟨entries, hlist, hmem, by simpa using hskips⟩
        have hnature : entryIsDirectory fs.emptied (directory.child name) inode =
            entryIsDirectory fs (directory.child name) inode := by
          obtain hsame | hgone := entryIsDirectory_emptied fs (directory.child name) inode
          · exact hsame
          · have hnone := h.nature [] name inode .here
            rw [Path.join_nil] at hnone
            rw [hgone, hnone hholds hgone]
        rw [entryIsDirectory_emptied_inode, hnature]
        split
        · rfl
        next hbelow =>
          apply congrArg
          apply ih (h.child hholds hbelow)
          intro inner hinner
          cases inode with
          | file octets => cases hbelow
          | directory held =>
            exact FileSystem.isDirectory_emptied_child hdistinct hlist (hlistable hlist)
              hstill hmem hinner
          | link target =>
            rw [← hnature, entryIsDirectory] at hbelow
            split at hbelow
            · cases hbelow
            · exact hbelow
        · rfl

theorem isDirectory_of_hasDirectory {path : Path} (h : fs.hasDirectory path = .ok true) :
    fs.isDirectory path = .ok true := by
  unfold FileSystem.hasDirectory at h
  split at h
  · rwa [← h]
  · split at h
    · cases h
    · cases h

theorem hasDirectory_emptied_iff (h : scope.Undisturbed fs) (hroot : root ∈ scope.roots) :
    fs.emptied.hasDirectory (scope.rootPath root) = .ok true ↔
    fs.hasDirectory (scope.rootPath root) = .ok true := by
  constructor
  · intro hemptied
    obtain hsame | hgone := fs.hasDirectory_emptied (scope.rootPath root)
    · rw [← hsame, hemptied]
    · rw [hemptied] at hgone
      cases hgone
  · intro hdirectory
    exact (h root hroot hdirectory).1

/-- Below the same roots there are the same files. -/
theorem filesBelow_emptied (hdistinct : Inode.DistinctNames fs.top) (h : scope.Undisturbed fs)
    (hroots : ∀ root ∈ roots, root ∈ scope.roots) :
    scope.filesBelow fs.emptied (scope.found fs.emptied scope.levels) roots =
      scope.filesBelow fs (scope.found fs scope.levels) roots := by
  induction roots with
  | nil => rfl
  | cons root roots ih =>
    have hrest := ih fun other hother => hroots other (List.mem_cons_of_mem _ hother)
    have hroot := hroots root List.mem_cons_self
    by_cases hdirectory : fs.hasDirectory (scope.rootPath root) = .ok true
    · obtain ⟨hstill, hbelow⟩ := h root hroot hdirectory
      rw [filesBelow_cons_of_directory _ hstill, filesBelow_cons_of_directory _ hdirectory, hrest,
        found_emptied hdistinct hbelow fun _ _ => isDirectory_of_hasDirectory hstill]
    · have hemptied := mt (hasDirectory_emptied_iff h hroot).mp hdirectory
      rw [filesBelow_cons_of_not_directory _ hemptied,
        filesBelow_cons_of_not_directory _ hdirectory, hrest]

theorem rootsAnswer_emptied (hdistinct : Inode.DistinctNames fs.top) (h : scope.Undisturbed fs)
    (hanswer : scope.RootsAnswer fs (scope.found fs scope.levels) room scope.roots) :
    scope.RootsAnswer fs.emptied (scope.found fs.emptied scope.levels) room scope.roots := by
  intro before root after hsplit hlt
  rw [filesBelow_emptied hdistinct h fun root hroot => hsplit ▸ List.mem_append_left _ hroot] at hlt
  obtain hsame | hgone := fs.hasDirectory_emptied (scope.rootPath root)
  · rw [hsame]
    exact hanswer before root after hsplit hlt
  · rw [hgone]
    intro h
    cases h

/-- Where nothing leads on through a directory that cannot be listed, a scan collects the same files
as one with these directories empty. -/
theorem scan_emptied (hdistinct : Inode.DistinctNames fs.top) (h : scope.Undisturbed fs)
    {scan : Scan} (hscan : scope.scan fs = .ok scan) : ∃ other, scope.scan fs.emptied = .ok other ∧
    other.files = scan.files := by
  unfold Scope.scan at hscan ⊢
  obtain ⟨_, hresult, hfiles, hanswer⟩ | ⟨_, hrefused, -⟩ :=
    scope.scanRoots_collects fs scope.maxFiles scope.roots
  · cases hresult.symm.trans hscan
    obtain ⟨other, hother, hsame, -⟩ | ⟨_, -, hrefused⟩ :=
      scope.scanRoots_collects fs.emptied scope.maxFiles scope.roots
    · refine ⟨other, hother, ?_⟩
      rw [hsame, hfiles, filesBelow_emptied hdistinct h fun _ hroot => hroot]
    · exact absurd (rootsAnswer_emptied hdistinct h hanswer) hrefused
  · cases hrefused.symm.trans hscan

theorem scan_contains (scope : Scope) {fs : FileSystem} (hdistinct : Inode.DistinctNames fs.top) :
    ∃ below, scope.Surveys fs below ∧
      ((∀ root, .refused root ∉ scope.seen fs below scope.maxFiles scope.roots) →
        scope.scan fs = .ok (.ofSeen (scope.seen fs below scope.maxFiles scope.roots))) ∧
      (scope.Undisturbed fs → ∀ scan, scope.scan fs = .ok scan →
        ∃ other, scope.scan fs.emptied = .ok other ∧ other.files = scan.files) :=
  ⟨scope.sights fs scope.levels, fun root =>
    ⟨pairwise_sights hdistinct scope.levels root, fun _ _ => mem_sights⟩,
    scope.scanRoots_eq fs scope.maxFiles scope.roots, fun h _ hscan =>
      scan_emptied hdistinct h hscan⟩

/-! ### A directory that cannot be listed beside a link to itself -/

theorem undisturbedBelow_of_error {error : AccessError} (h : fs.list directory = .error error) :
    scope.UndisturbedBelow fs levels directory := by
  have hholds {name : String} {inode : Inode} : ¬ scope.Holds fs directory name inode := by
    rintro ⟨entries, hlist, -, -⟩
    cases h.symm.trans hlist
  constructor
  · intro names name inode henters hhere
    cases henters with
    | here =>
      rw [Path.join_nil] at hhere
      exact absurd hhere hholds
    | deeper habove => exact absurd habove hholds
  · intro names entries henters hlist
    cases henters with
    | here =>
      rw [Path.join_nil] at hlist
      cases h.symm.trans hlist
    | deeper habove => exact absurd habove hholds

theorem undisturbedBelow_of_entries
    (hnature : ∀ name inode, scope.Holds fs directory name inode →
      entryIsDirectory fs.emptied (directory.child name) inode = .ok false →
        entryIsDirectory fs (directory.child name) inode = .ok false)
    (hlistable : ∀ location inode, fs.place directory = .ok (.occupied location inode) →
      fs.unlistable location = false)
    (hbelow : ∀ name inode, scope.Holds fs directory name inode →
      entryIsDirectory fs (directory.child name) inode = .ok true →
        scope.UndisturbedBelow fs levels (directory.child name)) :
    scope.UndisturbedBelow fs (levels + 1) directory := by
  constructor
  · intro names name inode henters
    cases henters with
    | here =>
      rw [Path.join_nil]
      exact hnature name inode
    | deeper habove hdirectory hrest =>
      rw [Path.join_cons]
      exact (hbelow _ _ habove hdirectory).nature _ name inode hrest
  · intro names entries henters
    cases henters with
    | here =>
      rw [Path.join_nil]
      exact fun _ => hlistable
    | deeper habove hdirectory hrest =>
      rw [Path.join_cons]
      exact (hbelow _ _ habove hdirectory).listable _ entries hrest

def lockedPath : Path :=
  { anchor := .top, names := ["p", "src", "locked"] }

def lockedFiles : FileSystem where
  top := [("p", .directory [
    ("src", .directory [("locked", .directory [("inner", .directory [("b.js", .file [])])])]),
    ("lib", .directory [("loop", .link { names := ["loop"] })]),
    ("app", .directory [("a.js", .file [])])])]
  failing := [(.scan, lockedPath, .reported "Permission denied")]

def lockedScope : Scope :=
  ({ roots := ["gone", "src", "lib", "app"] } : Config).scope { anchor := .top, names := ["p"] }

theorem distinctNames_lockedFiles : Inode.DistinctNames lockedFiles.top := by
  have hbelow {name : String} {inner : List (String × Inode)} (hinner : Inode.DistinctNames inner) :
      Inode.DistinctNames [(name, .directory inner)] :=
    Inode.distinctNames_of_entries (by simp) (by simpa using hinner)
  have hfile {name : String} : Inode.DistinctNames [(name, .file [])] :=
    Inode.distinctNames_of_entries (by simp) (by simp)
  have hlink {name : String} {target : Path} : Inode.DistinctNames [(name, .link target)] :=
    Inode.distinctNames_of_entries (by simp) (by simp)
  apply hbelow
  refine Inode.distinctNames_of_entries (by decide) ?_
  simpa [hfile, hlink] using hbelow (hbelow hfile)

theorem eq_of_holds {name other : String} {inode found : Inode}
    (hinode : fs.inode directory = .ok (.directory [(name, inode)]))
    (h : scope.Holds fs directory other found) :
    other = name ∧ found = inode := by
  obtain ⟨entries, hlist, hmem, -⟩ := h
  obtain ⟨held, hheld, rfl⟩ := FileSystem.exists_of_list_eq_ok hlist
  cases hheld.symm.trans hinode
  simpa using List.mem_mergeSort.mp hmem

theorem undisturbed_lockedFiles : lockedScope.Undisturbed lockedFiles := by
  -- each root holds one entry only
  have hsingle {root name : String} {inode : Inode} (location : Location)
      (hplace : lockedFiles.place (lockedScope.rootPath root) =
        .ok (.occupied location (.directory [(name, inode)])))
      (hlistable : lockedFiles.unlistable location = false)
      (hnature : entryIsDirectory lockedFiles.emptied ((lockedScope.rootPath root).child name)
        inode = .ok false →
        entryIsDirectory lockedFiles ((lockedScope.rootPath root).child name) inode = .ok false)
      (hbelow : entryIsDirectory lockedFiles ((lockedScope.rootPath root).child name) inode =
        .ok true →
        lockedScope.UndisturbedBelow lockedFiles 10 ((lockedScope.rootPath root).child name)) :
      lockedScope.UndisturbedBelow lockedFiles 11 (lockedScope.rootPath root) := by
    have hinode : lockedFiles.inode (lockedScope.rootPath root) =
        .ok (.directory [(name, inode)]) := by
      rw [FileSystem.inode, hplace]
      rfl
    apply undisturbedBelow_of_entries
    · intro other found hholds
      obtain ⟨rfl, rfl⟩ := eq_of_holds hinode hholds
      exact hnature
    · intro other found hother
      cases hplace.symm.trans hother
      exact hlistable
    · intro other found hholds
      obtain ⟨rfl, rfl⟩ := eq_of_holds hinode hholds
      exact hbelow
  intro root hroot hdirectory
  obtain rfl | rfl | rfl | rfl : root = "gone" ∨ root = "src" ∨ root = "lib" ∨ root = "app" := by
    simpa [lockedScope, Config.scope] using hroot
  · have hgone : lockedFiles.hasDirectory (lockedScope.rootPath "gone") = .ok false := by rfl
    cases hgone.symm.trans hdirectory
  · refine ⟨by decide +kernel,
      hsingle ["p", "src"] rfl (by decide +kernel) (by intro h; cases h) ?_⟩
    intro _
    have hfails : lockedFiles.list ((lockedScope.rootPath "src").child "locked") =
        .error (.reported "Permission denied") := by
      rfl
    exact undisturbedBelow_of_error hfails
  · refine ⟨by decide +kernel, hsingle ["p", "lib"] rfl (by decide +kernel) ?_ ?_⟩
    · exact fun h => absurd h (by decide +kernel)
    · exact fun h => absurd h (by decide +kernel)
  · exact ⟨by decide +kernel,
      hsingle ["p", "app"] rfl (by decide +kernel) (fun _ => rfl) (by intro h; cases h)⟩

theorem scan_contains_of_lockedFiles : Inode.DistinctNames lockedFiles.top ∧
    lockedScope.Undisturbed lockedFiles ∧
    ∃ below scan other, lockedScope.Surveys lockedFiles below ∧
    lockedScope.scan lockedFiles = .ok scan ∧
      scan = .ofSeen (lockedScope.seen lockedFiles below lockedScope.maxFiles lockedScope.roots) ∧
      scan = {
        files := [{ anchor := .top, names := ["p", "app", "a.js"] }]
        missingRoots := ["gone"]
        suppressed := [⟨"/p/src/locked", "scan", "Permission denied"⟩,
          ⟨"/p/lib/loop", "scan", "Too many levels of symbolic links"⟩] } ∧
      lockedScope.scan lockedFiles.emptied = .ok other ∧ other.files = scan.files := by
  obtain ⟨below, hbelow, hcollects, hsame⟩ := lockedScope.scan_contains distinctNames_lockedFiles
  have hanswers : ∀ root,
      .refused root ∉ lockedScope.seen lockedFiles below lockedScope.maxFiles
        lockedScope.roots := by
    intro root hrefused
    obtain ⟨hroot, error, herror⟩ := exists_of_refused hrefused
    obtain rfl | rfl | rfl | rfl : root = "gone" ∨ root = "src" ∨ root = "lib" ∨ root = "app" := by
      simpa [lockedScope, Config.scope] using hroot
    all_goals cases herror
  have hscan := hcollects hanswers
  obtain ⟨other, hother, hfiles⟩ := hsame undisturbed_lockedFiles _ hscan
  refine ⟨distinctNames_lockedFiles, undisturbed_lockedFiles, below, _, other, hbelow, hscan, rfl,
    ?_, hother, hfiles⟩
  apply Except.ok.inj
  rw [← hscan]
  apply Except.eq_ok_of_toOption
  decide +kernel

/-- A root in a directory that cannot be listed, the root above it twice, and one with a link to
itself. -/
def lockedRootsScope : Scope :=
  ({ roots := ["src", "src/locked/inner", "src", "lib"] } : Config).scope
    { anchor := .top, names := ["p"] }

/-- A directory that cannot be listed is noted each time that a scan comes to it, a link to itself
is noted too, and below a root in that directory there are files that are not there when it is
empty. -/
theorem not_scan_contains_of_lockedFiles :
    lockedFiles.failing = [(.scan, lockedPath, .reported "Permission denied")] ∧
    ∃ scan other, lockedRootsScope.scan lockedFiles = .ok scan ∧
    lockedRootsScope.scan lockedFiles.emptied = .ok other ∧
      scan.suppressed.map SuppressedError.path = ["/p/src/locked", "/p/src/locked", "/p/lib/loop"] ∧
      scan.files.map Path.toString = ["/p/src/locked/inner/b.js"] ∧ other.files = [] := by
  have hscan : (lockedRootsScope.scan lockedFiles).toOption.map
      (fun scan => (scan.suppressed.map SuppressedError.path, scan.files.map Path.toString)) =
        some (["/p/src/locked", "/p/src/locked", "/p/lib/loop"], ["/p/src/locked/inner/b.js"]) := by
    decide +kernel
  have hother : (lockedRootsScope.scan lockedFiles.emptied).toOption.map Scan.files = some [] := by
    decide +kernel
  obtain ⟨scan, hresult, hrecorded⟩ := Except.exists_of_map_toOption hscan
  obtain ⟨other, hemptied, hfiles⟩ := Except.exists_of_map_toOption hother
  obtain ⟨hsuppressed, hnames⟩ := Prod.mk.inj hrecorded
  exact ⟨rfl, scan, other, hresult, hemptied, hsuppressed, hnames, hfiles⟩

end Scope

end RiskScan
