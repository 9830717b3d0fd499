import RiskScan.Proofs.FileSystem.Listing
/-!
# Emptying directories

A file system with directories that cannot be listed is set beside one in which these directories
can be listed and are empty. A path that leads somewhere in the second leads to the same place in
the first, and there is the same to be found, less what the emptied directories held. A path that
leads on through one of them leads nowhere in the second: nothing is found at it then.
-/

namespace RiskScan

namespace Inode

mutual

/-- What stands at a location, once the directories at barred locations are empty. -/
def emptied (barred : Location → Bool) (location : Location) : Inode → Inode
  | .directory entries => .directory (emptiedEntries barred location entries)
  | .file octets => .file octets
  | .link target => .link target

/-- The entries of the directory at a location, once the directories at barred locations are
empty. -/
def emptiedEntries (barred : Location → Bool) (location : Location) :
    List (String × Inode) → List (String × Inode)
  | [] => []
  | (name, inode) :: entries =>
    if barred location then []
    else (name, inode.emptied barred (location ++ [name])) :: emptiedEntries barred location entries

end

variable {barred : Location → Bool} {location : Location} {entries : List (String × Inode)}

theorem emptiedEntries_of_barred (h : barred location = true) :
    emptiedEntries barred location entries = [] := by
  cases entries with
  | nil => rw [emptiedEntries]
  | cons entry entries => rw [emptiedEntries, if_pos h]

theorem emptiedEntries_of_not_barred (h : barred location = false)
    (entries : List (String × Inode)) :
    emptiedEntries barred location entries =
      entries.map fun entry => (entry.1, entry.2.emptied barred (location ++ [entry.1])) := by
  induction entries with
  | nil => rw [emptiedEntries, List.map_nil]
  | cons entry entries ih => rw [emptiedEntries, if_neg (by simp [h]), ih, List.map_cons]

theorem lookup?_map (f : String → Inode → Inode) (name : String) (entries : List (String × Inode)) :
    lookup? name (entries.map fun entry => (entry.1, f entry.1 entry.2)) =
      (lookup? name entries).map (f name) := by
  induction entries with
  | nil => rfl
  | cons entry entries ih =>
    rw [List.map_cons, lookup?, lookup?]
    split
    next heq => rw [heq, Option.map_some]
    next => exact ih

theorem lookup?_emptiedEntries (name : String) :
    lookup? name (emptiedEntries barred location entries) =
    if barred location then none else (lookup? name entries).map
      (emptied barred (location ++ [name])) := by
  split
  next h => rw [emptiedEntries_of_barred h, lookup?]
  next h =>
    rw [emptiedEntries_of_not_barred (by simpa using h)]
    exact lookup?_map (fun name inode => inode.emptied barred (location ++ [name])) name entries

/-- What is still there stood there before. -/
theorem exists_of_at?_emptiedEntries {rest : Location} {inode : Inode}
    (h : at? rest (emptiedEntries barred location entries) = some inode) :
    ∃ former, at? rest entries = some former ∧
    inode = former.emptied barred (location ++ rest) := by
  induction rest generalizing location entries with
  | nil =>
    cases h
    refine ⟨.directory entries, rfl, ?_⟩
    rw [emptied, List.append_nil]
  | cons name rest ih =>
    rw [at?, lookup?_emptiedEntries] at h
    split at h
    next inner hlookup =>
      split at hlookup
      · cases hlookup
      · obtain ⟨former, hformer, heq⟩ := Option.map_eq_some_iff.mp hlookup
        cases former with
        | file | link => rw [emptied] at heq; cases heq
        | directory held =>
          rw [emptied] at heq
          cases heq
          obtain ⟨former, hat, rfl⟩ := ih h
          refine ⟨former, ?_, by rw [List.append_assoc, List.singleton_append]⟩
          rw [at?, hformer]
          exact hat
    next found hother hlookup =>
      split at hlookup
      · cases hlookup
      · obtain ⟨former, hformer, rfl⟩ := Option.map_eq_some_iff.mp hlookup
        split at h
        next hlast =>
          obtain rfl : rest = [] := List.isEmpty_iff.mp hlast
          cases h
          refine ⟨former, ?_, rfl⟩
          rw [at?, hformer]
          cases former with
          | directory held => rw [emptied] at hother; exact absurd rfl (hother _)
          | file | link => rfl
        next => cases h
    next => cases h

end Inode

namespace FileSystem

/-- At this location stands a directory that cannot be listed by some path. -/
def unlistable (fs : FileSystem) (location : Location) : Bool :=
  fs.failing.any fun (access, path, _) => access = .scan &&
    match fs.place path with
    | .ok (.occupied found (.directory _)) => found = location
    | _ => false

/-- The same file system with the directories that cannot be listed empty instead. -/
def emptied (fs : FileSystem) : FileSystem where
  top := Inode.emptiedEntries fs.unlistable [] fs.top
  failing := fs.failing.filter fun (access, _, _) => access ≠ .scan

/-- Where a path leads, less what emptied directories held. -/
def Place.emptied (barred : Location → Bool) : Place → Place
  | .occupied location inode => .occupied location (inode.emptied barred location)
  | .vacant location => .vacant location

/-- A path leads to nothing. -/
def Gone (result : Except AccessError Place) : Prop :=
  result = .error .notFound ∨ ∃ location, result = .ok (.vacant location)

variable {fs : FileSystem} {location : Location} {path : Path} {entries : List (String × Inode)}

theorem exists_of_inodeAt?_emptied {inode : Inode} (h : fs.emptied.inodeAt? location = some inode) :
    ∃ former, fs.inodeAt? location = some former ∧ inode = former.emptied fs.unlistable location :=
  Inode.exists_of_at?_emptiedEntries h

/-! ### Where paths lead -/

theorem followNames_emptied {onLink onLink' : Location → List String → Except AccessError Place}
    (hlink : ∀ location names, (fs.emptied.inodeAt? location).isSome →
      onLink' location names = (onLink location names).map (Place.emptied fs.unlistable) ∨
        Gone (onLink' location names))
    (names : List String) (hvisible : (fs.emptied.inodeAt? location).isSome) :
    fs.emptied.followNames onLink' location names =
        (fs.followNames onLink location names).map (Place.emptied fs.unlistable) ∨
      Gone (fs.emptied.followNames onLink' location names) := by
  induction names generalizing location with
  | nil =>
    obtain ⟨inode, hinode⟩ := Option.isSome_iff_exists.mp hvisible
    obtain ⟨former, hformer, rfl⟩ := exists_of_inodeAt?_emptied hinode
    left
    rw [followNames, followNames, hinode, hformer]
    rfl
  | cons name rest ih =>
    obtain ⟨inode, hinode⟩ := Option.isSome_iff_exists.mp hvisible
    obtain ⟨former, hformer, rfl⟩ := exists_of_inodeAt?_emptied hinode
    rw [followNames, followNames, hinode, hformer]
    cases former with
    | file | link => exact Or.inl rfl
    | directory entries =>
      rw [Inode.emptied]
      dsimp only
      by_cases hup : name = ".."
      · rw [if_pos hup, if_pos hup]
        apply ih
        by_cases hnested : location = []
        · rw [hnested]
          rfl
        · obtain ⟨above, habove⟩ := exists_directory_dropLast hinode hnested
          rw [habove]
          rfl
      rw [if_neg hup, if_neg hup]
      by_cases hlong : longestName < name.utf8ByteSize
      · rw [if_pos hlong, if_pos hlong]
        exact Or.inl rfl
      rw [if_neg hlong, if_neg hlong]
      rw [Inode.emptied] at hinode
      have hchild := inodeAt?_child hinode name
      rw [Inode.lookup?_emptiedEntries] at hchild ⊢
      by_cases hbarred : fs.unlistable location = true
      · -- the path would lead on through a directory that has been emptied
        right
        rw [if_pos hbarred]
        dsimp only
        split
        · exact Or.inr ⟨_, rfl⟩
        · exact Or.inl rfl
      rw [if_neg hbarred] at hchild ⊢
      cases hlookup : Inode.lookup? name entries with
      | none =>
        left
        rw [Option.map_none]
        dsimp only
        split <;> rfl
      | some found =>
        rw [hlookup, Option.map_some] at hchild
        rw [Option.map_some]
        cases found with
        | file octets =>
          rw [Inode.emptied] at hchild ⊢
          exact ih (by rw [hchild]; rfl)
        | directory held =>
          rw [Inode.emptied] at hchild ⊢
          exact ih (by rw [hchild]; rfl)
        | link target =>
          rw [Inode.emptied]
          apply hlink
          split
          · rfl
          · rw [hinode]
            rfl

theorem follow_emptied (links : Nat) (names : List String)
    (hvisible : (fs.emptied.inodeAt? location).isSome) :
    fs.emptied.follow links location names =
        (fs.follow links location names).map (Place.emptied fs.unlistable) ∨
      Gone (fs.emptied.follow links location names) := by
  induction links generalizing location names with
  | zero =>
    apply followNames_emptied _ names hvisible
    intro _ _ _
    exact Or.inl rfl
  | succ links ih =>
    apply followNames_emptied _ names hvisible
    intro _ names hvisible
    exact ih names hvisible

/-- A path leads to the same place, or to nothing. -/
theorem place_emptied (fs : FileSystem) (path : Path) :
    fs.emptied.place path = (fs.place path).map (Place.emptied fs.unlistable) ∨
    Gone (fs.emptied.place path) := by
  unfold place
  split
  · exact Or.inl rfl
  · exact follow_emptied mostLinks path.names rfl

theorem isDirectory_emptied (fs : FileSystem) (path : Path) :
    fs.emptied.isDirectory path = fs.isDirectory path ∨
    fs.emptied.isDirectory path = .error .notFound := by
  unfold isDirectory FileSystem.inode
  obtain hsame | hgone | ⟨location, hgone⟩ := fs.place_emptied path
  · left
    rw [hsame]
    cases fs.place path with
    | error error => rfl
    | ok place =>
      cases place with
      | vacant location => rfl
      | occupied location inode => cases inode <;> rfl
  · right
    rw [hgone]
    rfl
  · right
    rw [hgone]
    rfl

theorem hasDirectory_emptied (fs : FileSystem) (path : Path) :
    fs.emptied.hasDirectory path = fs.hasDirectory path ∨
    fs.emptied.hasDirectory path = .ok false := by
  unfold hasDirectory
  obtain hsame | hgone := fs.isDirectory_emptied path
  · exact Or.inl (by rw [hsame])
  · right
    rw [hgone]
    rfl

/-! ### Listings -/

theorem exists_of_inode_eq_directory {held : List (String × Inode)}
    (h : fs.inode path = .ok (.directory held)) :
    ∃ location, fs.place path = .ok (.occupied location (.directory held)) := by
  rw [FileSystem.inode] at h
  cases hplace : fs.place path with
  | error error =>
    rw [hplace] at h
    cases h
  | ok place =>
    rw [hplace] at h
    cases place with
    | vacant location => cases h
    | occupied location inode =>
      cases h
      exact ⟨location, rfl⟩

/-- No listing is made to fail in the second file system. -/
theorem guarded_emptied {α : Type} (fs : FileSystem) (path : Path) (result : Except AccessError α) :
    fs.emptied.guarded .scan path result = result := by
  unfold guarded
  split
  next access place error hfound =>
    have hmem := List.mem_of_find?_eq_some hfound
    have hscan : access = .scan ∧ place = path := by simpa using List.find?_some hfound
    have hother : access ≠ .scan := by simpa [emptied] using (List.mem_filter.mp hmem).2
    exact absurd hscan.1 hother
  next => rfl

theorem list_emptied (fs : FileSystem) (path : Path) : fs.emptied.list path = (do
    match ← fs.emptied.inode path with
    | .directory entries => return entries.mergeSort fun first second => first.1 ≤ second.1
    | _ => throw .notDirectory) :=
  fs.guarded_emptied path _

theorem unlistable_of_error {error : AccessError} {held : List (String × Inode)}
    (hplace : fs.place path = .ok (.occupied location (.directory held)))
    (h : fs.list path = .error error) :
    fs.unlistable location = true := by
  unfold list guarded at h
  split at h
  next access place fault hfound =>
    have hfails : access = .scan ∧ place = path := by simpa using List.find?_some hfound
    obtain ⟨rfl, rfl⟩ := hfails
    apply List.any_eq_true.mpr
    refine ⟨_, List.mem_of_find?_eq_some hfound, ?_⟩
    simp [hplace]
  next =>
    rw [FileSystem.inode, hplace] at h
    cases h

/-- Where a listing fails, nothing is listed in the second file system. -/
theorem list_emptied_of_error {error : AccessError} (h : fs.list path = .error error) :
    fs.emptied.list path = .ok [] ∨ ∃ error, fs.emptied.list path = .error error := by
  rw [list_emptied, FileSystem.inode]
  obtain hsame | hgone | ⟨location, hgone⟩ := fs.place_emptied path
  · rw [hsame]
    cases hplace : fs.place path with
    | error error => exact Or.inr ⟨error, rfl⟩
    | ok place =>
      cases place with
      | vacant location => exact Or.inr ⟨.notFound, rfl⟩
      | occupied location inode =>
        cases inode with
        | file | link => exact Or.inr ⟨.notDirectory, rfl⟩
        | directory held =>
          left
          have hempty : Inode.emptiedEntries fs.unlistable location held = [] :=
            Inode.emptiedEntries_of_barred (unlistable_of_error hplace h)
          change Except.ok ((Inode.emptiedEntries fs.unlistable location held).mergeSort _) = _
          rw [hempty, List.mergeSort_nil]
  · rw [hgone]
    exact Or.inr ⟨.notFound, rfl⟩
  · rw [hgone]
    exact Or.inr ⟨.notFound, rfl⟩

/-- A directory that can be listed by every path keeps its entries. -/
theorem place_emptied_of_ok (h : fs.list path = .ok entries)
    (hlistable : ∀ location inode, fs.place path = .ok (.occupied location inode) →
      fs.unlistable location = false)
    (hdirectory : fs.emptied.isDirectory path = .ok true) :
    ∃ location held, fs.place path = .ok (.occupied location (.directory held)) ∧
      entries = held.mergeSort (fun first second => first.1 ≤ second.1) ∧
      fs.emptied.place path = .ok (.occupied location (.directory
        (held.map fun entry =>
          (entry.1, entry.2.emptied fs.unlistable (location ++ [entry.1]))))) := by
  obtain ⟨held, hinode, rfl⟩ := exists_of_list_eq_ok h
  obtain ⟨location, hplace⟩ := exists_of_inode_eq_directory hinode
  refine ⟨location, held, hplace, rfl, ?_⟩
  obtain hsame | hgone | ⟨vacant, hgone⟩ := fs.place_emptied path
  · rw [hsame, hplace, ← Inode.emptiedEntries_of_not_barred (hlistable location _ hplace)]
    rfl
  · rw [isDirectory, FileSystem.inode, hgone] at hdirectory
    cases hdirectory
  · rw [isDirectory, FileSystem.inode, hgone] at hdirectory
    cases hdirectory

theorem list_emptied_of_ok (h : fs.list path = .ok entries)
    (hlistable : ∀ location inode, fs.place path = .ok (.occupied location inode) →
      fs.unlistable location = false)
    (hdirectory : fs.emptied.isDirectory path = .ok true) :
    ∃ location, fs.emptied.list path = .ok
      (entries.map fun entry =>
        (entry.1, entry.2.emptied fs.unlistable (location ++ [entry.1]))) := by
  obtain ⟨location, held, -, rfl, hplace⟩ := place_emptied_of_ok h hlistable hdirectory
  refine ⟨location, ?_⟩
  rw [list_emptied, FileSystem.inode, hplace]
  apply congrArg Except.ok
  symm
  apply List.map_mergeSort
  intro first _ second _
  rfl

/-- An entry that is no link is found by the path with its name. -/
theorem not_gone_child {inode : Inode} {name : String}
    (hplace : fs.place path = .ok (.occupied location (.directory entries)))
    (hlookup : Inode.lookup? name entries = some inode) (hlink : ∀ target, inode ≠ .link target) :
    ¬ Gone (fs.place (path.child name)) := by
  have hheld : fs.inodeAt? location = some (.directory entries) := by
    have htells := fs.tells_place path
    rw [hplace] at htells
    exact htells.1
  unfold place at hplace ⊢
  split at hplace
  · cases hplace
  obtain ⟨next, hnext⟩ := follow_concat hplace name
  split
  · rintro (hgone | ⟨vacant, hgone⟩)
    · cases hgone
    · cases hgone
  have hoccupied {location : Location} {inode : Inode}
      (hinode : fs.inodeAt? location = some inode) :
      ¬ Gone (fs.followNames next location []) := by
    rw [followNames, hinode]
    rintro (hgone | ⟨vacant, hgone⟩)
    · cases hgone
    · cases hgone
  rw [Path.child, hnext, followNames, hheld]
  dsimp only
  split
  · by_cases hnested : location = []
    · have htop : fs.inodeAt? location.dropLast = some (.directory fs.top) := by
        rw [hnested]
        rfl
      exact hoccupied htop
    · obtain ⟨above, habove⟩ := exists_directory_dropLast hheld hnested
      exact hoccupied habove
  split
  · rintro (hgone | ⟨vacant, hgone⟩)
    · cases hgone
    · cases hgone
  · rw [hlookup]
    have hchild := inodeAt?_child hheld name
    rw [hlookup] at hchild
    cases inode with
    | link target => exact absurd rfl (hlink target)
    | file | directory => exact hoccupied hchild

/-- A directory in a listed one is a directory still, if it can be listed itself. -/
theorem isDirectory_emptied_child {name : String} {inner inside : List (String × Inode)}
    (hdistinct : Inode.DistinctNames fs.top) (h : fs.list path = .ok entries)
    (hlistable : ∀ location inode, fs.place path = .ok (.occupied location inode) →
      fs.unlistable location = false)
    (hdirectory : fs.emptied.isDirectory path = .ok true)
    (hmem : (name, .directory inner) ∈ entries) (hchild : fs.list (path.child name) = .ok inside) :
    fs.emptied.isDirectory (path.child name) = .ok true := by
  obtain ⟨location, held, hplace, rfl, hemptied⟩ := place_emptied_of_ok h hlistable hdirectory
  have hnodup : (held.map Prod.fst).Nodup := by
    have htells := fs.tells_place path
    rw [hplace] at htells
    exact hdistinct location held htells.1
  have hlookup := Inode.lookup?_of_mem hnodup (List.mem_mergeSort.mp hmem)
  have hfound : Inode.lookup? name
      (held.map fun entry => (entry.1, entry.2.emptied fs.unlistable (location ++ [entry.1]))) =
        some ((Inode.directory inner).emptied fs.unlistable (location ++ [name])) := by
    rw [Inode.lookup?_map fun name inode => inode.emptied fs.unlistable (location ++ [name]),
      hlookup]
    rfl
  have hthere := not_gone_child hemptied hfound fun target htarget => by
    rw [Inode.emptied] at htarget
    cases htarget
  obtain ⟨below, hinode, -⟩ := exists_of_list_eq_ok hchild
  obtain ⟨place, hbelow⟩ := exists_of_inode_eq_directory hinode
  obtain hsame | hgone := fs.place_emptied (path.child name)
  · rw [isDirectory, FileSystem.inode, hsame, hbelow]
    rfl
  · exact absurd hgone hthere

end FileSystem

end RiskScan
