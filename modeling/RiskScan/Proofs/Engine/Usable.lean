import RiskScan.Proofs.Config.Reading
import RiskScan.Proofs.Engine.ExitCode
/-!
# Settings that can be used

Most settings are harmless in every place that they reach. The cascade window is not: it becomes the
bound of a repetition, which can only be counted up to some number, while reading the window bounds
it from below alone. With a window that can be counted the built-in analyzers are set up, the trunk
is planted, and no file makes an analyzer fail.
-/

namespace RiskScan

open Store Engine

theorem Registry.builtIn_of_le {window : ℕ} (h : window ≤ Signature.maxWindow) :
    ∃ registry, builtIn window = .ok registry := by
  unfold builtIn Signature.eventCascade?
  rw [if_pos h]
  exact ⟨_, rfl⟩

theorem Registry.builtIn_of_lt {window : ℕ} (h : Signature.maxWindow < window) :
    builtIn window = .error (.ofWindow window) := by
  unfold builtIn Signature.eventCascade?
  rw [if_neg (Nat.not_le_of_gt h)]
  rfl

namespace Config

/-- With these settings the built-in analyzers can be set up and a trunk can be planted in a store.
Whichever of the analyzers then look at whichever files, none of them fails. -/
def UsableIn (config : Config) (start : Store) : Prop :=
  ∃ registry trunk planted, Registry.builtIn config.cascadeWindow = .ok registry ∧
    buildTree config start = .ok trunk planted ∧
    ∀ analyzers : List Analyzer, analyzers ⊆ registry → ∀ sources : List (String × String),
      ∀ analysis ∈ (analyzeSources analyzers trunk.branches
        (sources.map fun source => .ofContent source.1 source.2) planted).1, analysis.fault = none

variable {config : Config} {start : Store}

theorem usableIn_iff (hstart : OrdinarilyReachable start) :
    config.UsableIn start ↔ config.cascadeWindow ≤ Signature.maxWindow := by
  constructor
  · rintro ⟨registry, -, -, hregistry, -⟩
    by_contra hlarge
    rw [Registry.builtIn_of_lt (Nat.lt_of_not_le hlarge)] at hregistry
    cases hregistry
  · intro hsmall
    obtain ⟨registry, hregistry⟩ := Registry.builtIn_of_le hsmall
    obtain ⟨trunk, planted, hplant, hstands, -⟩ := buildTree_eq config hstart
    refine ⟨registry, trunk, planted, hregistry, hplant, fun analyzers hsubset sources => ?_⟩
    exact goesOn_builtIn hregistry hsubset _ hstands

/-- Settings that have been accepted can be used, wherever a run starts, exactly if the window that
was given can be counted. With a larger window the built-in analyzers are never set up. -/
theorem usableIn_of_ofEntries {entries : Entries} (h : ofEntries entries = .ok config)
    (hstart : OrdinarilyReachable start) :
    ∃ window, (entries.within "analysis").integer "cascade_window"
      ({} : Config).cascadeWindow .analysis =
        .ok window ∧
      (config.UsableIn start ↔ window ≤ Signature.maxWindow) ∧
      (Signature.maxWindow < window →
        Registry.builtIn config.cascadeWindow = .error (.ofWindow window.toNat)) := by
  obtain ⟨window, hwindow, hread⟩ := (ReadAs.of_ofEntries h).cascadeWindow
  refine ⟨window, hwindow, ?_, fun hlarge => ?_⟩
  · rw [usableIn_iff hstart, hread, Int.toNat_le]
  · rw [hread]
    exact Registry.builtIn_of_lt (Int.lt_toNat.mpr hlarge)

/-- The widest window that can be counted, given as a text, next to a floor that is no number. -/
def widestWindow : Entries :=
  [(.text "analysis", .mapping [(.text "cascade_window", .text " 4294967294 "),
    (.text "confidence_floor", .float (0.0 / 0.0))])]

theorem usableIn_of_widestWindow :
    ∃ config, ofEntries widestWindow = .ok config ∧ config.UsableIn Store.empty := by
  have h : ofEntries widestWindow = .ok {
      cascadeWindow := 4294967294
      confidenceFloor := 0.0 / 0.0 } := by decide +kernel
  have hgiven : (widestWindow.within "analysis").integer "cascade_window" 10 .analysis =
      .ok 4294967294 := by
    decide +kernel
  have hstart : OrdinarilyReachable Store.empty := .refl
  obtain ⟨window, hwindow, husable, -⟩ := usableIn_of_ofEntries h hstart
  cases hgiven.symm.trans hwindow
  exact ⟨_, h, husable.mpr (by decide)⟩

/-- The window of these settings is too large by one. -/
def tooWide : Entries :=
  [(.text "analysis", .mapping [(.text "cascade_window", .int 4294967295)])]

theorem not_usableIn_of_tooWide :
    ∃ config, ofEntries tooWide = .ok config ∧ ¬ config.UsableIn Store.empty := by
  refine ⟨{ cascadeWindow := 4294967295 }, by decide +kernel, ?_⟩
  rintro ⟨registry, -, -, hregistry, -⟩
  have hrefused : (Registry.builtIn 4294967295).toOption.isNone := by decide +kernel
  rw [hregistry] at hrefused
  cases hrefused

end Config

end RiskScan
