import RiskScan.Proofs.FileSystem.Listing
import RiskScan.Proofs.Scan.Eligible
/-!
# What a walk comes to

Beside the files that it collects a walk comes to directories that cannot be listed and to entries
whose nature cannot be told, and notes them. Without a cap all these are a list in the order of the
walk, and the files in it are the eligible ones. With a cap the walk goes through that list only as
long as there is room for another file.
-/

namespace RiskScan

/-- The items before the room for those that count is used up. -/
def cutOff {α : Type} (counts : α → Bool) : (room : Nat) → List α → List α
  | 0, _ => []
  | _, [] => []
  | room + 1, item :: items => item :: cutOff counts (if counts item then room else room + 1) items

section CutOff

variable {α β : Type} {counts : α → Bool}

theorem cutOff_zero (counts : α → Bool) (items : List α) : cutOff counts 0 items = [] := by
  cases items <;> rfl

theorem cutOff_nil (counts : α → Bool) (room : Nat) : cutOff counts room [] = [] := by
  cases room <;> rfl

theorem isPrefix_cutOff (counts : α → Bool) (room : Nat) (items : List α) :
    cutOff counts room items <+: items := by
  induction items generalizing room with
  | nil => cases room <;> exact List.nil_prefix
  | cons item items ih =>
    cases room with
    | zero => exact List.nil_prefix
    | succ room =>
      rw [cutOff, List.prefix_cons_inj]
      exact ih _

/-- What follows has the room that is left. -/
theorem cutOff_append (counts : α → Bool) (room : Nat) (first second : List α) :
    cutOff counts room (first ++ second) = cutOff counts room first ++
      cutOff counts (room - (cutOff counts room first).countP counts) second := by
  induction first generalizing room with
  | nil => rw [cutOff_nil, List.nil_append, List.nil_append, List.countP_nil, Nat.sub_zero]
  | cons item items ih =>
    cases room with
    | zero =>
      rw [Nat.zero_sub, cutOff_zero, cutOff_zero, cutOff_zero, List.append_nil]
    | succ room =>
      rw [List.cons_append, cutOff, cutOff, List.cons_append, List.countP_cons, ih]
      congr 3
      split
      · omega
      · omega

theorem cutOff_map (counts : β → Bool) (f : α → β) (room : Nat) (items : List α) :
    cutOff counts room (items.map f) = (cutOff (counts ∘ f) room items).map f := by
  induction items generalizing room with
  | nil => rw [List.map_nil, cutOff_nil, cutOff_nil, List.map_nil]
  | cons item items ih =>
    cases room with
    | zero => rfl
    | succ room =>
      rw [List.map_cons, cutOff, cutOff, List.map_cons, ih]
      rfl

theorem filterMap_cutOff {f : α → Option β} (hcounts : ∀ item, counts item = (f item).isSome)
    (room : Nat) (items : List α) : (cutOff counts room items).filterMap f =
      (items.filterMap f).take room := by
  induction items generalizing room with
  | nil => rw [cutOff_nil, List.filterMap_nil, List.take_nil]
  | cons item items ih =>
    cases room with
    | zero => rw [cutOff_zero, List.filterMap_nil, List.take_zero]
    | succ room =>
      rw [cutOff, hcounts, List.filterMap_cons, List.filterMap_cons]
      cases hitem : f item with
      | none => exact ih (room + 1)
      | some b =>
        rw [List.take_succ_cons]
        exact congrArg (b :: ·) (ih room)

end CutOff

/-- What a walk collects or notes. -/
inductive Sight where
  | file
  /-- A directory that cannot be listed. -/
  | unlisted (error : AccessError)
  /-- An entry of which it cannot be told whether it is a directory. -/
  | unknown (error : AccessError)
  deriving DecidableEq, Repr

namespace Sight

def file? (path : Path) : Sight → Option Path
  | .file => some path
  | .unlisted _ | .unknown _ => none

def note? (path : Path) : Sight → Option SuppressedError
  | .file => none
  | .unlisted error | .unknown error => some (.ofAccess "scan" path error)

def isFile : Sight → Bool
  | .file => true
  | .unlisted _ | .unknown _ => false

end Sight

/-- What a walk gives that comes to some sights, each with the way to it. -/
def Haul.ofSights (directory : Path) (sights : List (List String × Sight)) : Haul where
  files := sights.filterMap fun (names, sight) => sight.file? (directory.join { names })
  suppressed := sights.filterMap fun (names, sight) => sight.note? (directory.join { names })

namespace Scope

variable (scope : Scope) (fs : FileSystem)

/-- What an entry of a directory adds, where `inner` gives what there is in a directory further
down. -/
def sightsAt (inner : Path → List (List String × Sight)) (directory : Path)
    (entry : String × Inode) :
    List (List String × Sight) :=
  if scope.skips entry.1 then []
  else
    match entryIsDirectory fs (directory.child entry.1) entry.2 with
    | .error error => [([entry.1], .unknown error)]
    | .ok true => (inner (directory.child entry.1)).map fun (names, sight) =>
      (entry.1 :: names, sight)
    | .ok false => if scope.hasExtension entry.1 then [([entry.1], .file)] else []

/-- What a walk with enough room comes to, in its order, each with the way to it. -/
def sights : (levels : Nat) → (directory : Path) → List (List String × Sight)
  | 0, _ => []
  | levels + 1, directory =>
    match fs.list directory with
    | .error error => [([], .unlisted error)]
    | .ok entries => entries.flatMap (scope.sightsAt fs (sights levels) directory)

/-- A directory lists an entry that is not skipped. -/
def Holds (directory : Path) (name : String) (inode : Inode) : Prop :=
  ∃ entries, fs.list directory = .ok entries ∧ (name, inode) ∈ entries ∧ scope.skips name = false

variable {scope fs} in
theorem Holds.kept {directory : Path} {name : String} {inode : Inode}
    (h : scope.Holds fs directory name inode) :
    scope.skips name = false := by
  obtain ⟨_, -, -, hskips⟩ := h
  exact hskips

/-- A walk goes down to a directory, which some names lead to. -/
inductive Enters : (levels : Nat) → (directory : Path) → (names : List String) → Prop where
  | here {levels : Nat} {directory : Path} : Enters (levels + 1) directory []
  | deeper {levels : Nat} {directory : Path} {name : String} {names : List String} {inode : Inode}
      (holds : scope.Holds fs directory name inode)
      (nature : entryIsDirectory fs (directory.child name) inode = .ok true)
      (rest : Enters levels (directory.child name) names) : Enters (levels + 1) directory
        (name :: names)

/-- What there is at the end of some names, if a walk from a directory comes so far. -/
inductive Sees : (levels : Nat) → (directory : Path) → (names : List String) → Sight → Prop where
  | unlisted {levels : Nat} {directory : Path} {error : AccessError}
    (fails : fs.list directory = .error error) :
      Sees (levels + 1) directory [] (.unlisted error)
  | unknown {levels : Nat} {directory : Path} {name : String} {inode : Inode} {error : AccessError}
      (holds : scope.Holds fs directory name inode)
      (nature : entryIsDirectory fs (directory.child name) inode = .error error) :
      Sees (levels + 1) directory [name] (.unknown error)
  | file {levels : Nat} {directory : Path} {name : String} {inode : Inode}
      (holds : scope.Holds fs directory name inode)
      (nature : entryIsDirectory fs (directory.child name) inode = .ok false)
      (ends : scope.hasExtension name = true) : Sees (levels + 1) directory [name] .file
  | deeper {levels : Nat} {directory : Path} {name : String} {names : List String} {inode : Inode}
    {sight : Sight}
    (holds : scope.Holds fs directory name inode)
    (nature : entryIsDirectory fs (directory.child name) inode = .ok true)
    (rest : Sees levels (directory.child name) names sight) : Sees (levels + 1) directory
        (name :: names) sight

variable {scope fs} {levels room : Nat} {directory : Path} {names : List String} {name : String}
    {sight : Sight}

/-! ### Walks with a cap -/

theorem ofSights_append (directory : Path) (first second : List (List String × Sight)) :
    Haul.ofSights directory (first ++ second) = Haul.ofSights directory first ++
      Haul.ofSights directory second := by
  unfold Haul.ofSights
  rw [List.filterMap_append, List.filterMap_append]
  rfl

theorem ofSights_child (directory : Path) (name : String) (sights : List (List String × Sight)) :
    Haul.ofSights (directory.child name) sights =
      Haul.ofSights directory (sights.map fun (names, sight) => (name :: names, sight)) := by
  unfold Haul.ofSights
  simp only [List.filterMap_map, Function.comp_def, Path.join_cons]

theorem length_files_ofSights (directory : Path) (sights : List (List String × Sight)) :
    (Haul.ofSights directory sights).files.length = sights.countP fun (_, sight) =>
      sight.isFile := by
  unfold Haul.ofSights
  dsimp only
  rw [List.length_filterMap_eq_countP]
  apply List.countP_congr
  rintro ⟨names, sight⟩ _
  cases sight <;> simp [Sight.file?, Sight.isFile]

/-- The walk of entries comes to what they add, as long as there is room. -/
theorem walkEntries_eq {walk : (room : Nat) → Path → Haul}
    {inner : Path → List (List String × Sight)}
    (hwalk : ∀ room path, walk room path =
      .ofSights path (cutOff (fun (_, sight) => sight.isFile) room (inner path)))
    (directory : Path) (room : Nat) (entries : List (String × Inode)) :
    scope.walkEntries fs walk directory room entries = .ofSights directory
      (cutOff (fun (_, sight) => sight.isFile) room
        (entries.flatMap (scope.sightsAt fs inner directory))) := by
  induction entries generalizing room with
  | nil =>
    rw [List.flatMap_nil, cutOff_nil, walkEntries]
    rfl
  | cons entry entries ih =>
    obtain ⟨name, inode⟩ := entry
    cases room with
    | zero =>
      rw [cutOff_zero, walkEntries]
      · rfl
      · simp
    | succ room =>
      -- `haul` is what the entry itself gives, in the two cases in which it is looked into
      have hcut {haul : Haul} {own : List (List String × Sight)}
          (hown : haul =
            .ofSights directory (cutOff (fun (_, sight) => sight.isFile) (room + 1) own)) :
          haul ++ scope.walkEntries fs walk directory (room + 1 - haul.files.length) entries =
            .ofSights directory (cutOff (fun (_, sight) => sight.isFile) (room + 1)
              (own ++ entries.flatMap (scope.sightsAt fs inner directory))) := by
        rw [ih, cutOff_append, ofSights_append, ← length_files_ofSights directory, ← hown]
      unfold walkEntries
      rw [List.flatMap_cons, sightsAt]
      split
      · exact ih (room + 1)
      · apply hcut
        cases entryIsDirectory fs (directory.child name) inode with
        | error error =>
          simp [cutOff_nil, cutOff, Haul.ofSights, Sight.file?, Sight.note?, Path.join_cons,
            Path.join_nil]
        | ok isDirectory =>
          cases isDirectory with
          | true =>
            dsimp only
            rw [hwalk, ofSights_child, cutOff_map]
            rfl
          | false =>
            dsimp only
            split
            · simp [cutOff_nil, cutOff, Haul.ofSights, Sight.file?, Sight.note?, Path.join_cons,
                Path.join_nil]
            · rw [cutOff_nil]
              rfl

theorem walk_eq (scope : Scope) (fs : FileSystem) (levels room : Nat) (directory : Path) :
    scope.walk fs levels room directory = .ofSights directory
      (cutOff (fun (_, sight) => sight.isFile) room (scope.sights fs levels directory)) := by
  induction levels generalizing room directory with
  | zero =>
    rw [walk, sights, cutOff_nil]
    rfl
  | succ levels ih =>
    cases room with
    | zero =>
      rw [cutOff_zero, walk]
      · rfl
      · simp
    | succ room =>
      unfold walk sights
      cases fs.list directory with
      | error error =>
        simp [cutOff_nil, cutOff, Haul.ofSights, Sight.file?, Sight.note?, Path.join_nil]
      | ok entries => exact walkEntries_eq ih directory (room + 1) entries

/-! ### All that there is to see -/

theorem mem_sightsAt {inner : Path → List (List String × Sight)} {entry : String × Inode} :
    (names, sight) ∈ scope.sightsAt fs inner directory entry ↔ scope.skips entry.1 = false ∧
      ((∃ error, entryIsDirectory fs (directory.child entry.1) entry.2 = .error error ∧
        names = [entry.1] ∧
          sight = .unknown error) ∨
        (entryIsDirectory fs (directory.child entry.1) entry.2 = .ok false ∧
          scope.hasExtension entry.1 = true ∧
          names = [entry.1] ∧ sight = .file) ∨
        (entryIsDirectory fs (directory.child entry.1) entry.2 = .ok true ∧
          ∃ rest, names = entry.1 :: rest ∧
          (rest, sight) ∈ inner (directory.child entry.1))) := by
  unfold sightsAt
  cases hskips : scope.skips entry.1 with
  | true => simp
  | false =>
    cases entryIsDirectory fs (directory.child entry.1) entry.2 with
    | error error => simp
    | ok isDirectory =>
      cases isDirectory with
      | true =>
        rw [if_neg Bool.false_ne_true]
        constructor
        · intro hmem
          obtain ⟨⟨rest, found⟩, hrest, heq⟩ := List.mem_map.mp hmem
          cases heq
          exact ⟨rfl, .inr (.inr ⟨rfl, rest, rfl, hrest⟩)⟩
        · rintro ⟨-, ⟨error, herror, -⟩ | ⟨hfile, -⟩ | ⟨-, rest, rfl, hrest⟩⟩
          · cases herror
          · cases hfile
          · exact List.mem_map_of_mem hrest
      | false => cases hextension : scope.hasExtension entry.1 <;> simp

theorem mem_sights : (names, sight) ∈ scope.sights fs levels directory ↔
    scope.Sees fs levels directory names sight := by
  induction levels generalizing directory names with
  | zero => exact iff_of_false List.not_mem_nil nofun
  | succ levels ih =>
    rw [sights]
    constructor
    · intro hmem
      cases hlist : fs.list directory with
      | error error =>
        rw [hlist] at hmem
        cases List.mem_singleton.mp hmem
        exact .unlisted hlist
      | ok entries =>
        rw [hlist] at hmem
        obtain ⟨⟨name, inode⟩, hentry, hsight⟩ := List.mem_flatMap.mp hmem
        obtain ⟨hskips, hsight⟩ := mem_sightsAt.mp hsight
        have hholds : scope.Holds fs directory name inode := ⟨entries, hlist, hentry, hskips⟩
        obtain ⟨error, hnature, rfl, rfl⟩ | ⟨hnature, hextension, rfl, rfl⟩ | ⟨hnature, rest, rfl,
          hrest⟩ := hsight
        · exact .unknown hholds hnature
        · exact .file hholds hnature hextension
        · exact .deeper hholds hnature (ih.mp hrest)
    · intro hsees
      have hentry {name : String} {inode : Inode} (hholds : scope.Holds fs directory name inode)
          (hat : (names, sight) ∈
            scope.sightsAt fs (scope.sights fs levels) directory (name, inode)) :
          (names, sight) ∈ match fs.list directory with
            | .error error => [([], Sight.unlisted error)]
            | .ok entries =>
              entries.flatMap (scope.sightsAt fs (scope.sights fs levels) directory) := by
        obtain ⟨entries, hlist, hmem, -⟩ := hholds
        rw [hlist]
        exact List.mem_flatMap.mpr ⟨_, hmem, hat⟩
      cases hsees with
      | unlisted hfails =>
        rw [hfails]
        exact List.mem_singleton_self _
      | unknown hholds hnature =>
        exact hentry hholds (mem_sightsAt.mpr ⟨hholds.kept, .inl ⟨_, hnature, rfl, rfl⟩⟩)
      | file hholds hnature hextension =>
        exact hentry hholds
          (mem_sightsAt.mpr ⟨hholds.kept, .inr (.inl ⟨hnature, hextension, rfl, rfl⟩)⟩)
      | deeper hholds hnature hrest =>
        exact hentry hholds
          (mem_sightsAt.mpr ⟨hholds.kept, .inr (.inr ⟨hnature, _, rfl, ih.mpr hrest⟩)⟩)

/-- The order is that of the names, which are told apart by the first one in which they differ. -/
theorem pairwise_sights (hdistinct : Inode.DistinctNames fs.top) (levels : Nat) (directory : Path) :
    (scope.sights fs levels directory).Pairwise fun first second =>
      List.Lex (· < ·) first.1 second.1 := by
  induction levels generalizing directory with
  | zero => exact .nil
  | succ levels ih =>
    unfold sights
    split
    · exact List.pairwise_singleton _ _
    · rename_i entries hlist
      rw [List.pairwise_flatMap]
      constructor
      · intro entry _
        unfold sightsAt
        split
        · exact .nil
        split
        · exact List.pairwise_singleton _ _
        · exact List.pairwise_map.mpr ((ih _).imp .cons)
        · split
          · exact List.pairwise_singleton _ _
          · exact .nil
      · refine (FileSystem.pairwise_of_list_eq_ok hdistinct hlist).imp ?_
        rintro first second hlt ⟨names, sight⟩ hsight ⟨others, other⟩ hother
        obtain ⟨-, ⟨_, -, rfl, -⟩ | ⟨-, -, rfl, -⟩ | ⟨-, _, rfl, -⟩⟩ := mem_sightsAt.mp hsight <;>
          obtain ⟨-, ⟨_, -, rfl, -⟩ | ⟨-, -, rfl, -⟩ | ⟨-, _, rfl, -⟩⟩ := mem_sightsAt.mp hother <;>
          exact .rel hlt

/-! ### Files -/

/-- The files among the sights. -/
theorem found_eq (scope : Scope) (fs : FileSystem) (levels : Nat) (directory : Path) :
    scope.found fs levels directory =
      (scope.sights fs levels directory).filterMap fun (names, sight) =>
      if sight.isFile then some names else none := by
  induction levels generalizing directory with
  | zero => rfl
  | succ levels ih =>
    rw [found, sights]
    cases fs.list directory with
    | error error => rfl
    | ok entries =>
      dsimp only
      rw [List.filterMap_flatMap]
      congr 1
      funext entry
      rw [foundAt, sightsAt]
      split
      · rfl
      cases entryIsDirectory fs (directory.child entry.1) entry.2 with
      | error error => rfl
      | ok isDirectory =>
        cases isDirectory with
        | true =>
          dsimp only
          rw [ih, List.map_filterMap, List.filterMap_map]
          congr 1
          funext ⟨names, sight⟩
          cases sight <;> rfl
        | false =>
          dsimp only
          split <;> rfl

theorem mem_found_iff_sees : names ∈ scope.found fs levels directory ↔
    scope.Sees fs levels directory names .file := by
  rw [found_eq, List.mem_filterMap, ← mem_sights]
  constructor
  · rintro ⟨⟨others, sight⟩, hmem, heq⟩
    cases sight with
    | file =>
      cases heq
      exact hmem
    | unlisted error | unknown error => cases heq
  · intro hmem
    exact ⟨_, hmem, rfl⟩

/-- The files that a walk without a cap finds are those that are to be collected. -/
theorem mem_found : names ∈ scope.found fs levels directory ↔
    scope.Eligible fs levels directory names := by
  rw [mem_found_iff_sees]
  induction levels generalizing directory names with
  | zero =>
    refine iff_of_false (by intro hsees; cases hsees) ?_
    rintro ⟨hshallow, -, -, last, hlast, -⟩
    rw [List.length_eq_zero_iff.mp (Nat.le_zero.mp hshallow)] at hlast
    cases hlast
  | succ levels ih =>
    constructor
    · intro hsees
      cases hsees with
      | file hholds hnature hextension =>
        obtain ⟨entries, hlist, hmem, hskips⟩ := hholds
        exact eligible_cons_iff.mpr
          ⟨hskips, entries, _, hlist, hmem, .inr ⟨hnature, rfl, hextension⟩⟩
      | deeper hholds hnature hrest =>
        obtain ⟨entries, hlist, hmem, hskips⟩ := hholds
        exact eligible_cons_iff.mpr ⟨hskips, entries, _, hlist, hmem, .inl ⟨hnature, ih.mp hrest⟩⟩
    · intro heligible
      cases names with
      | nil =>
        obtain ⟨last, hlast, -⟩ := heligible.ends
        cases hlast
      | cons name rest =>
        obtain ⟨hskips, entries, inode, hlist, hmem,
            ⟨hnature, hrest⟩ | ⟨hnature, rfl, hextension⟩⟩ :=
          eligible_cons_iff.mp heligible
        · exact .deeper ⟨entries, hlist, hmem, hskips⟩ hnature (ih.mpr hrest)
        · exact .file ⟨entries, hlist, hmem, hskips⟩ hnature hextension

theorem pairwise_found (hdistinct : Inode.DistinctNames fs.top) (levels : Nat) (directory : Path) :
    (scope.found fs levels directory).Pairwise (List.Lex (· < ·)) := by
  rw [found_eq]
  refine (pairwise_sights hdistinct levels directory).filterMap _ ?_
  rintro ⟨names, sight⟩ ⟨others, other⟩ hlt way hway way' hway'
  cases sight with
  | file =>
    cases other with
    | file =>
      cases hway
      cases hway'
      exact hlt
    | unlisted error | unknown error => cases hway'
  | unlisted error | unknown error => cases hway

/-- With a cap a walk finds the beginning of what it finds without one. -/
theorem files_walk (scope : Scope) (fs : FileSystem) (levels room : Nat) (directory : Path) :
    (scope.walk fs levels room directory).files =
      (filesAt directory (scope.found fs levels directory)).take room := by
  have hfiles : ∀ sights : List (List String × Sight), (Haul.ofSights directory sights).files =
      filesAt directory
        (sights.filterMap fun (names, sight) => if sight.isFile then some names else none) := by
    intro sights
    unfold Haul.ofSights filesAt
    dsimp only
    rw [List.map_filterMap]
    congr 1
    funext ⟨names, sight⟩
    cases sight <;> rfl
  rw [walk_eq, hfiles, filterMap_cutOff, ← found_eq, filesAt, List.map_take]
  · rfl
  · rintro ⟨names, sight⟩
    cases sight <;> rfl

end Scope

end RiskScan
