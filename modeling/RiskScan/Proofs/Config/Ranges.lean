import Mathlib.Algebra.Order.Group.Unbundled.Int
import RiskScan.Proofs.Config.Reading
import RiskScan.Proofs.Confidence.Order
/-!
# Ranges of settings

What comes out of reading is in range whatever went in: a number that was given, in any of the forms
in which numbers are accepted, is moved to the nearer end of its range, and a branch has the
severity that is spelled for it. There is one exception. The two comparisons that clamp a confidence
floor are both false for a NaN, so a NaN is handed through, and no confidence ever reaches such a
floor.
-/

namespace RiskScan

theorem lookup?_append (key : Scalar) (first second : Entries) :
    lookup? key (first ++ second) = (lookup? key first).or (lookup? key second) := by
  induction first with
  | nil => rfl
  | cons entry first ih =>
    obtain ⟨candidate, value⟩ := entry
    rw [List.cons_append, lookup?, lookup?]
    split
    · rfl
    · exact ih

/-- A grade is named by its label in any case, with blanks around it. -/
theorem Severity.label_of_parse {value : Value} {severity : Severity}
    (h : parse value = .ok severity) :
    severity.label.toList = (Text.strip value.plain.toList).map Text.capital := by
  unfold parse at h
  split at h
  · cases h
  · rename_i text htext
    obtain rfl := Value.eq_plain_of_toText htext
    cases hlabel : ofLabel? value.plain with
    | none =>
      rw [hlabel] at h
      cases h
    | some found =>
      rw [hlabel] at h
      cases h
      have hfound := List.find?_some hlabel
      exact beq_iff_eq.mp hfound

theorem Branch.label_injective {branch other : Branch} (h : branch.label = other.label) :
    branch = other := by
  cases branch <;> cases other <;> first | rfl | exact absurd h (by decide)

namespace Config

/-! ### Clamping -/

theorem clampFloor_of_isNaN {floor : Float} (h : floor.isNaN = true) :
    clampFloor floor = floor := by
  unfold clampFloor
  dsimp only
  rw [if_neg (not_lt_of_isNaN (Or.inl h)), if_neg (not_lt_of_isNaN (Or.inr h))]

theorem clampFloor_of_le {floor : Float} (hnonneg : 0.0 ≤ floor) (hle : floor ≤ 1.0) :
    clampFloor floor = floor := by
  have hnumber : floor.isNaN = false := by
    by_contra hnan
    exact not_le_of_isNaN (eq_true_of_ne_false hnan) 1.0 hle
  unfold clampFloor
  dsimp only
  rw [if_neg ((not_lt_iff_le hnumber (by decide)).mpr hnonneg),
    if_neg ((not_lt_iff_le (by decide) hnumber).mpr hle)]

theorem clampFloor_mem {floor : Float} (h : floor.isNaN = false) :
    0.0 ≤ clampFloor floor ∧ clampFloor floor ≤ 1.0 := by
  unfold clampFloor
  dsimp only
  by_cases hlow : floor < 0.0
  · rw [if_pos hlow]
    decide
  · rw [if_neg hlow]
    by_cases hhigh : 1.0 < floor
    · rw [if_pos hhigh]
      decide
    · rw [if_neg hhigh]
      exact ⟨(not_lt_iff_le h (by decide)).mp hlow, (not_lt_iff_le (by decide) h).mp hhigh⟩

theorem clampFloor_mem_iff {floor : Float} :
    0.0 ≤ clampFloor floor ∧ clampFloor floor ≤ 1.0 ↔ floor.isNaN = false := by
  refine ⟨?_, clampFloor_mem⟩
  rintro ⟨-, hle⟩
  by_contra hnumber
  have hnan := eq_true_of_ne_false hnumber
  rw [clampFloor_of_isNaN hnan] at hle
  exact not_le_of_isNaN hnan 1.0 hle

/-- Clamping twice is clamping once. -/
theorem clampFloor_clampFloor (floor : Float) :
    clampFloor (clampFloor floor) = clampFloor floor := by
  cases hnan : floor.isNaN with
  | true => rw [clampFloor_of_isNaN hnan, clampFloor_of_isNaN hnan]
  | false =>
    obtain ⟨hnonneg, hle⟩ := clampFloor_mem hnan
    exact clampFloor_of_le hnonneg hle

/-! ### Severities of branches -/

theorem lookup?_branch {key : Scalar} {named branch : Branch} {value : Value}
    (h : (Branch.all.find? fun branch => key = .text branch.label) = some named) :
    lookup? (.text branch.label) [(key, value)] = if branch = named then some value else none := by
  have hkey : key = .text named.label := by simpa using List.find?_some h
  rw [lookup?, lookup?, hkey]
  by_cases hsame : branch = named
  · rw [hsame, if_pos rfl, if_pos rfl]
  · rw [if_neg hsame, if_neg]
    intro hlabel
    exact hsame (Branch.label_injective (Scalar.text.inj hlabel)).symm

/-- The last entry for a branch names its severity; a branch without an entry keeps the one it
has. -/
theorem get_overrideSeverities {severities result : BranchSeverities} {overrides : Entries}
    (h : overrideSeverities severities overrides = .ok result) (branch : Branch) :
    match lookup? (.text branch.label) overrides.reverse with
    | some value => Severity.parse value = .ok (result.get branch)
    | none => result.get branch = severities.get branch := by
  induction overrides generalizing severities with
  | nil =>
    cases h
    rfl
  | cons entry overrides ih =>
    obtain ⟨key, value⟩ := entry
    unfold overrideSeverities at h
    split at h
    · cases h
    · rename_i named hnamed
      obtain ⟨severity, hparsed, h⟩ := Except.exists_of_bind_eq_ok h
      have hrest := ih h
      rw [List.reverse_cons, lookup?_append]
      cases hlater : lookup? (.text branch.label) overrides.reverse with
      | some later =>
        rw [hlater] at hrest
        exact hrest
      | none =>
        rw [hlater, BranchSeverities.get_set] at hrest
        rw [Option.none_or, lookup?_branch hnamed]
        by_cases hsame : branch = named
        · rw [if_pos hsame] at hrest ⊢
          rw [hrest]
          exact Except.eq_ok_of_mapError hparsed
        · rw [if_neg hsame] at hrest ⊢
          exact hrest

variable {entries : Entries} {config : Config}

/-- Settings that come out of reading are those that were given, moved into their ranges; the floor
lies between 0 and 1 unless a NaN was given. The severity of a branch has the label that was given
for the branch, in capitals and without blanks around it, or else the branch's own. Of several
entries for one branch the last counts. -/
theorem ranges_of_ofEntries (h : ofEntries entries = .ok config) :
    (∃ depth, (entries.within "scan").integer "max_depth" ({} : Config).maxDepth .scanBound =
      .ok depth ∧
      (config.maxDepth : ℤ) = max 0 depth) ∧
    (∃ files, (entries.within "scan").integer "max_files" ({} : Config).maxFiles .scanBound =
      .ok files ∧
      (config.maxFiles : ℤ) = max 1 files) ∧
    (∃ window, (entries.within "analysis").integer "cascade_window"
      ({} : Config).cascadeWindow .analysis =
      .ok window ∧ (config.cascadeWindow : ℤ) = max 0 window) ∧
    (∃ floor, (entries.within "analysis").float "confidence_floor"
      ({} : Config).confidenceFloor .analysis =
      .ok floor ∧
        (0.0 ≤ config.confidenceFloor ∧ config.confidenceFloor ≤ 1.0 ↔ floor.isNaN = false)) ∧
    ∀ branch, match lookup? (.text branch.label)
        ((entries.within "analysis").within "branch_severity").reverse with
      | some value =>
        (config.branchSeverities.get branch).label.toList =
          (Text.strip value.plain.toList).map Text.capital
      | none => config.branchSeverities.get branch = branch.defaultSeverity := by
  have hread := ReadAs.of_ofEntries h
  obtain ⟨depth, hdepth, hdepthEq⟩ := hread.maxDepth
  obtain ⟨files, hfiles, hfilesEq⟩ := hread.maxFiles
  obtain ⟨floor, hfloor, hfloorEq⟩ := hread.confidenceFloor
  obtain ⟨window, hwindow, hwindowEq⟩ := hread.cascadeWindow
  refine ⟨⟨depth, hdepth, ?_⟩, ⟨files, hfiles, ?_⟩, ⟨window, hwindow, ?_⟩, ⟨floor, hfloor, ?_⟩, ?_⟩
  · rw [hdepthEq]
    omega
  · rw [hfilesEq]
    omega
  · rw [hwindowEq]
    omega
  · rw [hfloorEq]
    exact clampFloor_mem_iff
  · intro branch
    have hget := get_overrideSeverities hread.branchSeverities branch
    cases hlookup : lookup? (.text branch.label)
        ((entries.within "analysis").within "branch_severity").reverse with
    | some value =>
      rw [hlookup] at hget
      exact Severity.label_of_parse hget
    | none =>
      rw [hlookup] at hget
      rw [hget]
      cases branch <;> rfl

/-- Numbers below their ranges, a floor above its own, and a severity in small letters between
blanks. -/
def outOfRange : Entries :=
  [(.text "scan", .mapping [(.text "max_depth", .text " -5 "), (.text "max_files", .float (-0.5))]),
    (.text "analysis",
      .mapping [(.text "confidence_floor", .text "1e3"), (.text "cascade_window", .int (-1)),
      (.text "branch_severity", .mapping [(.text "DATA_FLOW_RISKS", .text " low\n")])])]

theorem ranges_of_outOfRange :
    ∃ config, ofEntries outOfRange = .ok config ∧ (config.maxDepth : ℤ) = 0 ∧
    (config.maxFiles : ℤ) = 1 ∧
      (config.cascadeWindow : ℤ) = 0 ∧ 0.0 ≤ config.confidenceFloor ∧ config.confidenceFloor ≤ 1.0 ∧
      (config.branchSeverities.get .dataFlow).label = "LOW" ∧
      config.branchSeverities.get .stateManagement = .medium := by
  have h : ofEntries outOfRange = .ok {
      maxDepth := 0
      maxFiles := 1
      confidenceFloor := 1.0
      cascadeWindow := 0
      branchSeverities := { dataFlow := .low } } := by decide +kernel
  have hdepth : (outOfRange.within "scan").integer "max_depth" 10 .scanBound = .ok (-5) := by
    decide +kernel
  have hfiles : (outOfRange.within "scan").integer "max_files" 100 .scanBound = .ok 0 := by
    decide +kernel
  have hwindow : (outOfRange.within "analysis").integer "cascade_window" 10 .analysis =
      .ok (-1) := by
    decide +kernel
  have hfloor : (outOfRange.within "analysis").float "confidence_floor" 0.8 .analysis =
      .ok 1000.0 := by
    decide +kernel
  obtain ⟨⟨depth, hgivenDepth, hdepthEq⟩, ⟨files, hgivenFiles, hfilesEq⟩,
    ⟨window, hgivenWindow, hwindowEq⟩, ⟨floor, hgivenFloor, hrange⟩, hlabel⟩ :=
      ranges_of_ofEntries h
  cases hdepth.symm.trans hgivenDepth
  cases hfiles.symm.trans hgivenFiles
  cases hwindow.symm.trans hgivenWindow
  cases hfloor.symm.trans hgivenFloor
  obtain ⟨hnonneg, hle⟩ := hrange.mpr (by decide +kernel)
  exact ⟨_, h, hdepthEq, hfilesEq, hwindowEq, hnonneg, hle, rfl, hlabel .stateManagement⟩

/-- The floor of these settings is no number. -/
def nanFloor : Entries :=
  [(.text "analysis", .mapping [(.text "confidence_floor", .float (0.0 / 0.0))])]

theorem not_ranges_of_nanFloor :
    ∃ config, ofEntries nanFloor = .ok config ∧
      ¬ (0.0 ≤ config.confidenceFloor ∧ config.confidenceFloor ≤ 1.0) :=
  ⟨{ confidenceFloor := 0.0 / 0.0 }, by decide +kernel, by decide +kernel⟩

end Config

end RiskScan
