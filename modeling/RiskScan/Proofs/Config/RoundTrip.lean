import RiskScan.Proofs.Config.Ranges
import RiskScan.Proofs.Config.Saving
import RiskScan.Proofs.Text.Utf8
import RiskScan.Proofs.Yaml.Legible
/-!
# Settings written out and read again

Settings that have been read are normal: at least one file is collected, and clamping leaves the
floor alone. The document of normal settings holds every setting in the place and in the form in
which it is read, so reading it gives the same settings.
-/

namespace RiskScan

namespace Config

/-- Reading would leave the numbers as they are. -/
structure Normal (config : Config) : Prop where
  files : 1 ≤ config.maxFiles
  floor : clampFloor config.confidenceFloor = config.confidenceFloor

variable {entries : Entries} {config : Config}

theorem ReadAs.normal (h : ReadAs entries config) : config.Normal := by
  obtain ⟨files, -, hfiles⟩ := h.maxFiles
  obtain ⟨floor, -, hfloor⟩ := h.confidenceFloor
  constructor
  · rw [hfiles]
    exact Nat.le_max_left 1 files.toNat
  · rw [hfloor]
    exact clampFloor_clampFloor floor

/-! ### What stands in the document -/

theorem find?_label (branch : Branch) :
    (Branch.all.find? fun other => Scalar.text branch.label = .text other.label) = some branch := by
  cases branch <;> decide

/-- Entries for some branches set these branches, one after the other. -/
theorem overrideSeverities_map (severities chosen : BranchSeverities) (branches : List Branch) :
    overrideSeverities severities
        (branches.map fun branch => (.text branch.label, .text (chosen.get branch).label)) =
      .ok (branches.foldl (fun severities branch => severities.set branch (chosen.get branch))
        severities) := by
  induction branches generalizing severities with
  | nil => rfl
  | cons branch branches ih =>
    rw [List.map_cons, List.foldl_cons, overrideSeverities, find?_label]
    dsimp only
    rw [Severity.parse_label]
    exact ih _

theorem overrideSeverities_all (severities chosen : BranchSeverities) :
    overrideSeverities severities
        (Branch.all.map fun branch => (.text branch.label, .text (chosen.get branch).label)) =
      .ok chosen :=
  overrideSeverities_map severities chosen Branch.all

theorem mapM_toText (items : List String) : (items.map Value.text).mapM Value.toText =
    .ok items := by
  induction items with
  | nil => rfl
  | cons item items ih =>
    rw [List.map_cons, List.mapM_cons, Except.bind_of_ok (Value.toText_text item),
      Except.bind_of_ok ih]
    rfl

/-- A list of texts is read as these texts. -/
theorem strings_of_texts {key : String} {items : List String} (default : List String)
    (h : entries.setting? key = some (texts items)) : entries.strings key default = .ok items := by
  unfold Entries.strings
  rw [h]
  exact congrArg (Except.mapError SettingError.text) (mapM_toText items)

theorem readAs_toEntries (h : config.Normal) : ReadAs config.toEntries config where
  scanSection := rfl
  analysisSection := rfl
  severitySection := rfl
  analyzersSection := rfl
  version := rfl
  roots := strings_of_texts _ rfl
  extensions := strings_of_texts _ rfl
  skipDirs := strings_of_texts _ rfl
  maxDepth := ⟨config.maxDepth, rfl, rfl⟩
  maxFiles := ⟨config.maxFiles, rfl, (Nat.max_eq_right h.files).symm⟩
  confidenceFloor := ⟨config.confidenceFloor, rfl, h.floor.symm⟩
  cascadeWindow := ⟨config.cascadeWindow, rfl, rfl⟩
  branchSeverities := overrideSeverities_all _ config.branchSeverities
  disabled := strings_of_texts _ rfl

/-- Just the normal settings come out of reading. -/
theorem exists_ofEntries_eq_ok_iff : (∃ entries, ofEntries entries = .ok config) ↔
    config.Normal := by
  constructor
  · rintro ⟨entries, h⟩
    exact (ReadAs.of_ofEntries h).normal
  · exact fun h => ⟨config.toEntries, (readAs_toEntries h).ofEntries_eq⟩

/-! ### Saving and loading -/

/-- The octets of a document are settings again, if the document is read as what was written. -/
theorem ofOctets_document (h : config.Normal)
    (hread : Yaml.read (Yaml.write config.toEntries) = .ok (.mapping config.toEntries)) :
    ofOctets config.document.toUTF8.toList = .ok config := by
  unfold ofOctets document
  rw [Text.Utf8.toUTF8_ofList, Text.Utf8.decode_encode]
  dsimp only
  rw [(Yaml.Legible.write config.toEntries).unifyNewlines, hread]
  dsimp only
  rw [ofDocument, (readAs_toEntries h).ofEntries_eq]
  rfl

/-- Settings are loaded from a file that holds their document. -/
theorem load_of_document (hnormal : config.Normal)
    (hread : Yaml.read (Yaml.write config.toEntries) = .ok (.mapping config.toEntries))
    {fs : FileSystem} {path : Path}
    (h : fs.inode path = .ok (.file config.document.toUTF8.toList)) :
    load fs path = .ok { config } := by
  unfold load ofFile
  rw [FileSystem.isPresent_of_inode h, FileSystem.octets_of_inode h]
  dsimp only
  rw [ofOctets_document hnormal hread]

/-- Settings that have been saved are loaded from where they were saved. -/
theorem load_of_save (hnormal : config.Normal)
    (hread : Yaml.read (Yaml.write config.toEntries) = .ok (.mapping config.toEntries))
    {fs : FileSystem} {path : Path} {saved : Saved} (h : save fs config path = .ok saved)
    (hsucceeded : saved.succeeded = true) : load saved.fs path = .ok { config } :=
  load_of_document hnormal hread (inode_of_save h hsucceeded)

/-- Whatever settings have been read from, they are read again from their own document, and so
loading them after saving gives them back if the document is read as what was written. -/
theorem ofEntries_toEntries (h : ofEntries entries = .ok config) :
    ofEntries config.toEntries = .ok config ∧
      (Yaml.read (Yaml.write config.toEntries) = .ok (.mapping config.toEntries) →
        ∀ fs path saved, save fs config path = .ok saved → saved.succeeded = true →
          load saved.fs path = .ok { config }) :=
  have hnormal := (ReadAs.of_ofEntries h).normal
  ⟨(readAs_toEntries hnormal).ofEntries_eq, fun hread _ _ _ => load_of_save hnormal hread⟩

/-- Settings of other types than their own, out of range, out of order or missing. -/
def twisted : Entries :=
  [(.text "version", .float 1.5), (.text "analyzers", .null),
    (.text "scan", .mapping [(.text "skip_dirs", .list []), (.text "extensions", .list []),
      (.text "roots", .list [.bool true]), (.text "max_files", .int (-3))]),
    (.text "analysis", .mapping [(.text "confidence_floor", .float (0.0 / 0.0)),
      (.text "branch_severity", .mapping [(.text "DATA_FLOW_RISKS", .text " low\n")])])]

def untwisted : Config where
  version := "1.5"
  roots := ["True"]
  extensions := []
  skipDirs := []
  maxFiles := 1
  confidenceFloor := 0.0 / 0.0
  branchSeverities := { dataFlow := .low }

theorem ofEntries_toEntries_of_twisted :
    ofEntries twisted = .ok untwisted ∧ ofEntries untwisted.toEntries = .ok untwisted ∧
      Yaml.read (Yaml.write untwisted.toEntries) = .ok (.mapping untwisted.toEntries) ∧
      ∃ saved, save {} untwisted { names := [fileName] } = .ok saved ∧ saved.succeeded = true ∧
        load saved.fs { names := [fileName] } = .ok { config := untwisted } := by
  have h : ofEntries twisted = .ok untwisted := by decide +kernel
  have hvalue : (Yaml.read (Yaml.write untwisted.toEntries)).toOption =
      some (.mapping untwisted.toEntries) := by decide +kernel
  have hsaves : (save {} untwisted { names := [fileName] }).toOption.map Saved.succeeded =
      some true := by
    decide +kernel
  obtain ⟨hagain, hload⟩ := ofEntries_toEntries h
  have hread := Except.eq_ok_of_toOption hvalue
  obtain ⟨saved, hsaved, hsucceeded⟩ := Except.exists_of_map_toOption hsaves
  exact ⟨h, hagain, hread, saved, hsaved, hsucceeded, hload hread _ _ saved hsaved hsucceeded⟩

end Config

end RiskScan
