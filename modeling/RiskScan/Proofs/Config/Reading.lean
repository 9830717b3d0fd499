import RiskScan.Config
import RiskScan.Proofs.Outcome
/-!
# Reading settings

Settings are read one after the other, and the first that cannot be read stops the reading. So
settings that come out have each been read from its own place: `ReadAs` says from which. A section
that is missing is as good as an empty one.
-/

namespace RiskScan

namespace Entries

/-- The entries of a section; there are none if it is no section. -/
def within (entries : Entries) (key : String) : Entries :=
  match entries.setting? key with
  | some (.mapping inner) => inner
  | _ => []

theorem eq_within {entries inner : Entries} {key : String}
    (h : entries.sectionNamed key = .ok inner) :
    inner = entries.within key := by
  unfold sectionNamed at h
  unfold within
  split at h
  · rename_i hnone
    rw [hnone]
    exact (Except.ok.inj h).symm
  · rename_i hsome
    rw [hsome]
    exact (Except.ok.inj h).symm
  · cases h

end Entries

namespace Config

/-- Every setting has been read from its place, the numbers clamped. -/
structure ReadAs (entries : Entries) (config : Config) : Prop where
  scanSection : entries.sectionNamed "scan" = .ok (entries.within "scan")
  analysisSection : entries.sectionNamed "analysis" = .ok (entries.within "analysis")
  severitySection : (entries.within "analysis").sectionNamed "branch_severity" =
    .ok ((entries.within "analysis").within "branch_severity")
  analyzersSection : entries.sectionNamed "analyzers" = .ok (entries.within "analyzers")
  version : entries.text "version" ({} : Config).version = .ok config.version
  roots : (entries.within "scan").strings "roots" ({} : Config).roots = .ok config.roots
  extensions :
    (entries.within "scan").strings "extensions" ({} : Config).extensions = .ok config.extensions
  skipDirs : (entries.within "scan").strings "skip_dirs" ({} : Config).skipDirs =
    .ok config.skipDirs
  maxDepth : ∃ depth,
    (entries.within "scan").integer "max_depth" ({} : Config).maxDepth .scanBound =
    .ok depth ∧ config.maxDepth = depth.toNat
  maxFiles : ∃ files,
    (entries.within "scan").integer "max_files" ({} : Config).maxFiles .scanBound =
    .ok files ∧ config.maxFiles = max 1 files.toNat
  confidenceFloor : ∃ floor, (entries.within "analysis").float "confidence_floor"
    ({} : Config).confidenceFloor .analysis = .ok floor ∧ config.confidenceFloor = clampFloor floor
  cascadeWindow : ∃ window, (entries.within "analysis").integer "cascade_window"
    ({} : Config).cascadeWindow .analysis = .ok window ∧ config.cascadeWindow = window.toNat
  branchSeverities : overrideSeverities ({} : Config).branchSeverities
    ((entries.within "analysis").within "branch_severity") = .ok config.branchSeverities
  disabled :
    (entries.within "analyzers").strings "disabled" ({} : Config).disabled = .ok config.disabled

variable {entries : Entries} {config : Config}

theorem ReadAs.of_ofEntries (h : ofEntries entries = .ok config) : ReadAs entries config := by
  unfold ofEntries at h
  obtain ⟨version, hversion, h⟩ := Except.exists_of_bind_eq_ok h
  obtain ⟨scan, hscan, h⟩ := Except.exists_of_bind_eq_ok h
  obtain ⟨roots, hroots, h⟩ := Except.exists_of_bind_eq_ok h
  obtain ⟨extensions, hextensions, h⟩ := Except.exists_of_bind_eq_ok h
  obtain ⟨skipDirs, hskipDirs, h⟩ := Except.exists_of_bind_eq_ok h
  obtain ⟨depth, hdepth, h⟩ := Except.exists_of_bind_eq_ok h
  obtain ⟨files, hfiles, h⟩ := Except.exists_of_bind_eq_ok h
  obtain ⟨analysis, hanalysis, h⟩ := Except.exists_of_bind_eq_ok h
  obtain ⟨floor, hfloor, h⟩ := Except.exists_of_bind_eq_ok h
  obtain ⟨window, hwindow, h⟩ := Except.exists_of_bind_eq_ok h
  obtain ⟨overrides, hoverrides, h⟩ := Except.exists_of_bind_eq_ok h
  obtain ⟨severities, hseverities, h⟩ := Except.exists_of_bind_eq_ok h
  obtain ⟨analyzers, hanalyzers, h⟩ := Except.exists_of_bind_eq_ok h
  obtain ⟨disabled, hdisabled, h⟩ := Except.exists_of_bind_eq_ok h
  cases h
  obtain rfl := Entries.eq_within hscan
  obtain rfl := Entries.eq_within hanalysis
  obtain rfl := Entries.eq_within hoverrides
  obtain rfl := Entries.eq_within hanalyzers
  exact ⟨hscan, hanalysis, hoverrides, hanalyzers, hversion, hroots, hextensions, hskipDirs,
    ⟨depth, hdepth, rfl⟩, ⟨files, hfiles, rfl⟩, ⟨floor, hfloor, rfl⟩, ⟨window, hwindow, rfl⟩,
    hseverities,
    hdisabled⟩

theorem ReadAs.ofEntries_eq (h : ReadAs entries config) : ofEntries entries = .ok config := by
  obtain ⟨depth, hdepth, hdepthEq⟩ := h.maxDepth
  obtain ⟨files, hfiles, hfilesEq⟩ := h.maxFiles
  obtain ⟨floor, hfloor, hfloorEq⟩ := h.confidenceFloor
  obtain ⟨window, hwindow, hwindowEq⟩ := h.cascadeWindow
  unfold ofEntries
  rw [Except.bind_of_ok h.version, Except.bind_of_ok h.scanSection, Except.bind_of_ok h.roots,
    Except.bind_of_ok h.extensions, Except.bind_of_ok h.skipDirs, Except.bind_of_ok hdepth,
    Except.bind_of_ok hfiles, Except.bind_of_ok h.analysisSection, Except.bind_of_ok hfloor,
    Except.bind_of_ok hwindow, Except.bind_of_ok h.severitySection,
    Except.bind_of_ok h.branchSeverities, Except.bind_of_ok h.analyzersSection,
    Except.bind_of_ok h.disabled, ← hdepthEq, ← hfilesEq, ← hfloorEq, ← hwindowEq]
  rfl

end Config

end RiskScan
