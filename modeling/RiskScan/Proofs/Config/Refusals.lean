import RiskScan.Proofs.Config.Reading
import RiskScan.Proofs.Confidence.Classes
/-!
# Refused settings

A document is refused for the first place in it that cannot be read, whatever stands behind that
place. What is wrong there is a value that makes no sense, with one exception: a number that has no
counterpart of the wanted kind is an overflow, in whatever section it stands. Infinite floats have
no whole part, and an integer can be too large for a float.
-/

namespace RiskScan

/-! ### Numbers without a counterpart -/

theorem wholePart_of_isInf {x : Float} (h : x.isInf = true) :
    wholePart x = .error .infinityAsInteger := by
  obtain ⟨negative, hinfinite⟩ := (Decimal.Binary.exists_infinite_iff x).mpr h
  rw [wholePart, hinfinite]

theorem isInf_of_wholePart {x : Float} {error : NumberError} (h : wholePart x = .error error)
    (hkind : error.kind = .overflow) : x.isInf = true := by
  unfold wholePart at h
  split at h
  · cases h
    cases hkind
  · rename_i negative hinfinite
    exact (Decimal.Binary.exists_infinite_iff x).mp ⟨negative, hinfinite⟩
  · cases h

namespace Value

variable {value : Value} {error : NumberError}

theorem exists_of_toInt_overflow (h : value.toInt = .error error) (hkind : error.kind = .overflow) :
    ∃ x, value = .float x ∧ x.isInf = true := by
  unfold toInt at h
  split at h
  · cases h
  · cases h
  · exact ⟨_, rfl, isInf_of_wholePart h hkind⟩
  · split at h
    · cases h
    · cases h
      cases hkind
    · cases h
      cases hkind
  · cases h
    cases hkind

theorem exists_of_toFloat_overflow (h : value.toFloat = .error error)
    (hkind : error.kind = .overflow) :
    ∃ n, value = .int n ∧ (Float.ofInt n).isInf = true := by
  unfold toFloat at h
  split at h
  · cases h
  · rename_i n
    refine ⟨n, rfl, ?_⟩
    by_contra hfits
    rw [floatOfInt, if_neg hfits] at h
    cases h
  · cases h
  · split at h
    · cases h
    · cases h
      cases hkind
  · cases h
    cases hkind

theorem toFloat_of_isInf {n : ℤ} (h : (Float.ofInt n).isInf = true) :
    (Value.int n).toFloat = .error .integerTooLarge :=
  if_pos h

end Value

namespace Entries

variable {entries : Entries} {key : String} {error : SettingError}

theorem kind_of_text {default : String} (h : entries.text key default = .error error) :
    error.kind = .value := by
  unfold text at h
  split at h
  · cases h
  · obtain ⟨cause, -, rfl⟩ := Except.exists_of_mapError_eq_error h
    rfl

theorem kind_of_sectionNamed (h : entries.sectionNamed key = .error error) :
    error.kind = .value := by
  unfold sectionNamed at h
  split at h
  · cases h
  · cases h
  · cases h
    rfl

theorem kind_of_strings {default : List String} (h : entries.strings key default = .error error) :
    error.kind = .value := by
  unfold strings at h
  split at h
  · cases h
  · obtain ⟨cause, -, rfl⟩ := Except.exists_of_mapError_eq_error h
    rfl
  · cases h
    rfl

variable {inSection : NumberError → SettingError}

/-- A number that cannot be read is refused as a value of its section, unless it has overflown. -/
theorem kind_of_mapError {α : Type} {result : Except NumberError α}
    (hsection : ∀ cause, (inSection cause).kind = .value)
    (h : result.mapError (SettingError.ofNumber inSection) = .error error) : error.kind = .value ∨
      error.kind = .overflow ∧ ∃ cause, result = .error cause ∧ cause.kind = .overflow := by
  obtain ⟨cause, hcause, rfl⟩ := Except.exists_of_mapError_eq_error h
  unfold SettingError.ofNumber
  split
  · rename_i hkind
    exact Or.inr ⟨rfl, cause, hcause, hkind⟩
  · exact Or.inl (hsection cause)

theorem kind_of_integer {default : ℕ} (hsection : ∀ cause, (inSection cause).kind = .value)
    (h : entries.integer key default inSection = .error error) : error.kind = .value ∨
      error.kind = .overflow ∧ ∃ x, entries.setting? key = some (.float x) ∧ x.isInf = true := by
  unfold integer at h
  split at h
  · cases h
  · rename_i value hvalue
    refine (kind_of_mapError hsection h).imp_right fun ⟨hkind, cause, hcause, hoverflow⟩ => ?_
    obtain ⟨x, rfl, hx⟩ := Value.exists_of_toInt_overflow hcause hoverflow
    exact ⟨hkind, x, hvalue, hx⟩

theorem integer_of_isInf {x : Float} (default : ℕ) (inSection : NumberError → SettingError)
    (h : entries.setting? key = some (.float x)) (hx : x.isInf = true) :
    entries.integer key default inSection = .error (.overflow .infinityAsInteger) := by
  unfold integer
  rw [h]
  dsimp only
  rw [Value.toInt, wholePart_of_isInf hx]
  rfl

theorem kind_of_float {default : Float} (hsection : ∀ cause, (inSection cause).kind = .value)
    (h : entries.float key default inSection = .error error) : error.kind = .value ∨
      error.kind = .overflow ∧
        ∃ n, entries.setting? key = some (.int n) ∧ (Float.ofInt n).isInf = true := by
  unfold float at h
  split at h
  · cases h
  · rename_i value hvalue
    refine (kind_of_mapError hsection h).imp_right fun ⟨hkind, cause, hcause, hoverflow⟩ => ?_
    obtain ⟨n, rfl, hn⟩ := Value.exists_of_toFloat_overflow hcause hoverflow
    exact ⟨hkind, n, hvalue, hn⟩

theorem float_of_isInf {n : ℤ} (default : Float) (inSection : NumberError → SettingError)
    (h : entries.setting? key = some (.int n)) (hn : (Float.ofInt n).isInf = true) :
    entries.float key default inSection = .error (.overflow .integerTooLarge) := by
  unfold float
  rw [h]
  dsimp only
  rw [Value.toFloat_of_isInf hn]
  rfl

end Entries

namespace Config

theorem kind_of_overrideSeverities {severities : BranchSeverities} {overrides : Entries}
    {error : SettingError} (h : overrideSeverities severities overrides = .error error) :
    error.kind = .value := by
  induction overrides generalizing severities with
  | nil => cases h
  | cons entry overrides ih =>
    obtain ⟨key, value⟩ := entry
    unfold overrideSeverities at h
    split at h
    · cases h
      unfold SettingError.ofUnknownBranch
      split <;> rfl
    · cases hseverity : Severity.parse value with
      | ok severity =>
        rw [hseverity] at h
        exact ih h
      | error cause =>
        rw [hseverity] at h
        cases h
        rfl

/-! ### Places -/

/-- What is read out of a document, a section before the settings in it. -/
inductive Place where
  | version
  | scan
  | roots
  | extensions
  | skipDirs
  | maxDepth
  | maxFiles
  | analysis
  | confidenceFloor
  | cascadeWindow
  | branchSeverity
  | overrides
  | analyzers
  | disabled
  deriving DecidableEq, Repr

/-- The places in the order of reading. -/
def Place.all : List Place :=
  [version, scan, roots, extensions, skipDirs, maxDepth, maxFiles, analysis, confidenceFloor,
    cascadeWindow,
    branchSeverity, overrides, analyzers, disabled]

/-- Why a place cannot be read, if it cannot. -/
def refusal? (entries : Entries) : Place → Option SettingError
  | .version => Except.error? (entries.text "version" ({} : Config).version)
  | .scan => Except.error? (entries.sectionNamed "scan")
  | .roots => Except.error? ((entries.within "scan").strings "roots" ({} : Config).roots)
  | .extensions =>
    Except.error? ((entries.within "scan").strings "extensions" ({} : Config).extensions)
  | .skipDirs => Except.error? ((entries.within "scan").strings "skip_dirs" ({} : Config).skipDirs)
  | .maxDepth =>
    Except.error? ((entries.within "scan").integer "max_depth" ({} : Config).maxDepth .scanBound)
  | .maxFiles =>
    Except.error? ((entries.within "scan").integer "max_files" ({} : Config).maxFiles .scanBound)
  | .analysis => Except.error? (entries.sectionNamed "analysis")
  | .confidenceFloor => Except.error?
    ((entries.within "analysis").float "confidence_floor" ({} : Config).confidenceFloor .analysis)
  | .cascadeWindow => Except.error?
    ((entries.within "analysis").integer "cascade_window" ({} : Config).cascadeWindow .analysis)
  | .branchSeverity => Except.error? ((entries.within "analysis").sectionNamed "branch_severity")
  | .overrides => Except.error? (overrideSeverities ({} : Config).branchSeverities
    ((entries.within "analysis").within "branch_severity"))
  | .analyzers => Except.error? (entries.sectionNamed "analyzers")
  | .disabled =>
    Except.error? ((entries.within "analyzers").strings "disabled" ({} : Config).disabled)

/-- A number stands in a place that has no counterpart of the kind that is read there. -/
def Boundless (entries : Entries) : Place → Prop
  | .maxDepth => ∃ x, (entries.within "scan").setting? "max_depth" = some (.float x) ∧
      x.isInf = true
  | .maxFiles => ∃ x, (entries.within "scan").setting? "max_files" = some (.float x) ∧
      x.isInf = true
  | .confidenceFloor => ∃ n, (entries.within "analysis").setting? "confidence_floor" =
      some (.int n) ∧
    (Float.ofInt n).isInf = true
  | .cascadeWindow => ∃ x, (entries.within "analysis").setting? "cascade_window" = some (.float x) ∧
    x.isInf = true
  | _ => False

theorem error?_ofEntries (entries : Entries) :
    Except.error? (ofEntries entries) = Place.all.findSome? (refusal? entries) := by
  unfold ofEntries
  refine Except.error?_bind rfl fun version _ => ?_
  refine Except.error?_bind rfl fun scan hscan => ?_
  obtain rfl := Entries.eq_within hscan
  refine Except.error?_bind rfl fun roots _ => ?_
  refine Except.error?_bind rfl fun extensions _ => ?_
  refine Except.error?_bind rfl fun skipDirs _ => ?_
  refine Except.error?_bind rfl fun depth _ => ?_
  refine Except.error?_bind rfl fun files _ => ?_
  refine Except.error?_bind rfl fun analysis hanalysis => ?_
  obtain rfl := Entries.eq_within hanalysis
  refine Except.error?_bind rfl fun floor _ => ?_
  refine Except.error?_bind rfl fun window _ => ?_
  refine Except.error?_bind rfl fun overrides hoverrides => ?_
  obtain rfl := Entries.eq_within hoverrides
  refine Except.error?_bind rfl fun severities _ => ?_
  refine Except.error?_bind rfl fun analyzers hanalyzers => ?_
  obtain rfl := Entries.eq_within hanalyzers
  refine Except.error?_bind rfl fun disabled _ => ?_
  rfl

variable {entries : Entries} {place : Place} {error : SettingError}

theorem kind_of_refusal (h : refusal? entries place = some error) :
    error.kind = .value ∨ error.kind = .overflow ∧ Boundless entries place := by
  cases place with
  | version => exact Or.inl (Entries.kind_of_text (Except.error?_eq_some_iff.mp h))
  | scan | analysis | branchSeverity | analyzers =>
    exact Or.inl (Entries.kind_of_sectionNamed (Except.error?_eq_some_iff.mp h))
  | roots | extensions | skipDirs | disabled =>
    exact Or.inl (Entries.kind_of_strings (Except.error?_eq_some_iff.mp h))
  | maxDepth | maxFiles | cascadeWindow =>
    exact Entries.kind_of_integer (fun _ => rfl) (Except.error?_eq_some_iff.mp h)
  | confidenceFloor => exact Entries.kind_of_float (fun _ => rfl) (Except.error?_eq_some_iff.mp h)
  | overrides => exact Or.inl (kind_of_overrideSeverities (Except.error?_eq_some_iff.mp h))

theorem exists_refusal_of_boundless (h : Boundless entries place) :
    ∃ error, refusal? entries place = some error ∧ error.kind = .overflow := by
  cases place with
  | maxDepth | maxFiles | cascadeWindow =>
    obtain ⟨x, hsetting, hx⟩ := h
    exact ⟨_, Except.error?_eq_some_iff.mpr (Entries.integer_of_isInf _ _ hsetting hx), rfl⟩
  | confidenceFloor =>
    obtain ⟨n, hsetting, hn⟩ := h
    exact ⟨_, Except.error?_eq_some_iff.mpr (Entries.float_of_isInf _ _ hsetting hn), rfl⟩
  | _ => cases h

/-- Just the first place that cannot be read says why a document is refused. -/
theorem ofEntries_eq_error_iff : ofEntries entries = .error error ↔
    ∃ before place after, Place.all = before ++ place :: after ∧
      (∀ earlier ∈ before, refusal? entries earlier = none) ∧
      refusal? entries place = some error := by
  rw [← Except.error?_eq_some_iff, error?_ofEntries, List.findSome?_eq_some_iff]
  constructor
  · rintro ⟨before, place, after, hall, hrefused, hbefore⟩
    exact ⟨before, place, after, hall, hbefore, hrefused⟩
  · rintro ⟨before, place, after, hall, hbefore, hrefused⟩
    exact ⟨before, place, after, hall, hrefused, hbefore⟩

/-- A document is refused for a value that makes no sense, unless the first place that cannot be
read holds a number without a counterpart. -/
theorem kind_of_refused (entries : Entries) :
    (∀ error, ofEntries entries = .error error → error.kind = .value ∨ error.kind = .overflow) ∧
    ((∃ error, ofEntries entries = .error error ∧ error.kind = .overflow) ↔
      ∃ before place after, Place.all = before ++ place :: after ∧
        (∀ earlier ∈ before, refusal? entries earlier = none) ∧ Boundless entries place) := by
  refine ⟨fun error herror => ?_, ?_, ?_⟩
  · obtain ⟨before, place, after, -, -, hrefused⟩ := ofEntries_eq_error_iff.mp herror
    exact (kind_of_refusal hrefused).imp_right And.left
  · rintro ⟨error, herror, hkind⟩
    obtain ⟨before, place, after, hall, hbefore, hrefused⟩ := ofEntries_eq_error_iff.mp herror
    refine ⟨before, place, after, hall, hbefore, ?_⟩
    rcases kind_of_refusal hrefused with hvalue | ⟨-, hboundless⟩
    · rw [hvalue] at hkind
      cases hkind
    · exact hboundless
  · rintro ⟨before, place, after, hall, hbefore, hboundless⟩
    obtain ⟨error, hrefused, hkind⟩ := exists_refusal_of_boundless hboundless
    exact ⟨error, ofEntries_eq_error_iff.mpr ⟨before, place, after, hall, hbefore, hrefused⟩, hkind⟩

/-- The depth of these settings is infinite. -/
def infiniteDepth : Entries :=
  [(.text "scan", .mapping [(.text "max_depth", .float (1.0 / 0.0))])]

theorem overflow_of_infiniteDepth :
    ∃ error, ofEntries infiniteDepth = .error error ∧ error.kind = .overflow :=
  ⟨.overflow .infinityAsInteger, by decide +kernel, rfl⟩

end Config

end RiskScan
