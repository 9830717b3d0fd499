import RiskScan.Proofs.Config.Refusals
/-!
# Settings left out

A null setting keeps its default, as if it were not there. So entries that are null may be left out
of a document and of its sections, and it is read as before, or refused for the same reason. The
overrides of severities are the exception: they are gone through one by one, and a null among them
is taken for a severity that is none.
-/

namespace RiskScan

/-! ### Mappings without some of their nulls -/

/-- Some null entries are left out of a mapping. The mappings in it may be changed as `sections`
says. -/
inductive Omits (sections : Scalar → Entries → Entries → Prop) : Entries → Entries → Prop
  | nil : Omits sections [] []
  | null {entries kept : Entries} (key : Scalar) (rest : Omits sections entries kept) :
      Omits sections ((key, .null) :: entries) kept
  | same {entries kept : Entries} (entry : Scalar × Value) (rest : Omits sections entries kept) :
      Omits sections (entry :: entries) (entry :: kept)
  | within {entries kept inner innerKept : Entries} (key : Scalar)
    (changed : sections key inner innerKept)
    (rest : Omits sections entries kept) :
      Omits sections ((key, .mapping inner) :: entries) ((key, .mapping innerKept) :: kept)

variable {sections : Scalar → Entries → Entries → Prop} {entries kept : Entries} {key : String}

namespace Entries

theorem setting?_cons (candidate : Scalar) (value : Value) (entries : Entries) (key : String) :
    setting? ((candidate, value) :: entries) key =
      if candidate = .text key then (if value.isNull then none else some value)
      else entries.setting? key := by
  unfold setting?
  rw [lookup?]
  by_cases hkey : candidate = .text key
  · rw [if_pos hkey, if_pos hkey]
  · rw [if_neg hkey, if_neg hkey]

theorem setting?_of_not_mem (h : .text key ∉ entries.map Prod.fst) :
    entries.setting? key = none := by
  induction entries with
  | nil => rfl
  | cons entry entries ih =>
    obtain ⟨candidate, value⟩ := entry
    obtain ⟨hkey, hrest⟩ := not_or.mp (mt List.mem_cons.mpr h)
    rw [setting?_cons, if_neg (Ne.symm hkey), ih hrest]

variable (h : kept.setting? key = entries.setting? key)
include h

theorem text_congr {default : String} : kept.text key default = entries.text key default := by
  unfold text
  rw [h]

theorem strings_congr {default : List String} :
    kept.strings key default = entries.strings key default := by
  unfold strings
  rw [h]

theorem integer_congr {default : ℕ} {inSection : NumberError → SettingError} :
    kept.integer key default inSection = entries.integer key default inSection := by
  unfold integer
  rw [h]

theorem float_congr {default : Float} {inSection : NumberError → SettingError} :
    kept.float key default inSection = entries.float key default inSection := by
  unfold float
  rw [h]

end Entries

namespace Omits

theorem refl (entries : Entries) : Omits sections entries entries := by
  induction entries with
  | nil => exact .nil
  | cons entry entries ih => exact .same entry ih

theorem keys_subset (h : Omits sections entries kept) :
    kept.map Prod.fst ⊆ entries.map Prod.fst := by
  induction h with
  | nil => exact fun key hkey => hkey
  | null key rest ih => exact List.subset_cons_of_subset key ih
  | same entry rest ih => exact List.cons_subset_cons entry.1 ih
  | within key changed rest ih => exact List.cons_subset_cons key ih

/-- A setting is the same as before, or a section that has been changed. -/
theorem setting? (h : Omits sections entries kept) (hdistinct : (entries.map Prod.fst).Nodup)
    (key : String) :
    kept.setting? key = entries.setting? key ∨
      ∃ inner innerKept, entries.setting? key = some (.mapping inner) ∧
        kept.setting? key = some (.mapping innerKept) ∧ sections (.text key) inner innerKept := by
  induction h with
  | nil => exact Or.inl rfl
  | null candidate rest ih =>
    obtain ⟨hnew, hdistinct⟩ := List.nodup_cons.mp hdistinct
    rw [Entries.setting?_cons]
    by_cases hkey : candidate = .text key
    · -- no other entry has this key, so that nothing is found in what is kept
      subst hkey
      rw [if_pos rfl, Entries.setting?_of_not_mem fun hmem => hnew (rest.keys_subset hmem)]
      exact Or.inl rfl
    · rw [if_neg hkey]
      exact ih hdistinct
  | same entry rest ih =>
    obtain ⟨candidate, value⟩ := entry
    rw [Entries.setting?_cons, Entries.setting?_cons]
    by_cases hkey : candidate = .text key
    · rw [if_pos hkey, if_pos hkey]
      exact Or.inl rfl
    · rw [if_neg hkey, if_neg hkey]
      exact ih (List.nodup_cons.mp hdistinct).2
  | within candidate changed rest ih =>
    rw [Entries.setting?_cons, Entries.setting?_cons]
    by_cases hkey : candidate = .text key
    · subst hkey
      rw [if_pos rfl, if_pos rfl]
      exact Or.inr ⟨_, _, rfl, rfl, changed⟩
    · rw [if_neg hkey, if_neg hkey]
      exact ih (List.nodup_cons.mp hdistinct).2

theorem setting?_eq (h : Omits sections entries kept) (hdistinct : (entries.map Prod.fst).Nodup)
    (hkey : ∀ inner innerKept, ¬ sections (.text key) inner innerKept) :
    kept.setting? key = entries.setting? key := by
  rcases h.setting? hdistinct key with heq | ⟨inner, innerKept, -, -, hchanged⟩
  · exact heq
  · exact absurd hchanged (hkey inner innerKept)

/-- What is no section before is none afterwards, with the same error. -/
theorem sectionNamed (h : Omits sections entries kept) (hdistinct : (entries.map Prod.fst).Nodup)
    (key : String) :
    kept.sectionNamed key = (entries.sectionNamed key).map fun _ => kept.within key := by
  rcases h.setting? hdistinct key with heq | ⟨inner, innerKept, hbefore, hafter, -⟩
  · have hsection : kept.sectionNamed key = entries.sectionNamed key := by
      unfold Entries.sectionNamed
      rw [heq]
    have hwithin : kept.within key = entries.within key := by
      unfold Entries.within
      rw [heq]
    rw [hsection, hwithin]
    cases hread : entries.sectionNamed key with
    | error error => rfl
    | ok inner => exact congrArg Except.ok (Entries.eq_within hread)
  · unfold Entries.sectionNamed Entries.within
    rw [hbefore, hafter]
    rfl

theorem sections_within (h : Omits sections entries kept) (hdistinct : (entries.map Prod.fst).Nodup)
    (hrefl : ∀ inner, sections (.text key) inner inner) :
    sections (.text key) (entries.within key) (kept.within key) := by
  unfold Entries.within
  rcases h.setting? hdistinct key with heq | ⟨inner, innerKept, hbefore, hafter, hchanged⟩
  · rw [heq]
    exact hrefl _
  · rw [hbefore, hafter]
    exact hchanged

end Omits

/-- Some null entries are left out, and nothing else is changed. -/
abbrev OmitsFlat : Entries → Entries → Prop :=
  Omits fun _ _ _ => False

theorem OmitsFlat.eq_or_null (h : OmitsFlat entries kept) :
    kept = entries ∨ ∃ key, (key, .null) ∈ entries := by
  induction h with
  | nil => exact Or.inl rfl
  | null key rest ih => exact Or.inr ⟨key, List.mem_cons_self⟩
  | same entry rest ih =>
    refine ih.imp (congrArg (entry :: ·)) ?_
    rintro ⟨key, hmem⟩
    exact ⟨key, List.mem_cons_of_mem entry hmem⟩
  | within key changed rest ih => exact changed.elim

/-- Null entries are left out of the analysis section, and of the overrides in it. -/
abbrev OmitsInAnalysis : Entries → Entries → Prop :=
  Omits fun key inner kept => key = .text "branch_severity" ∧ OmitsFlat inner kept

/-- Null entries are left out of a document, wherever settings are read from it. -/
abbrev OmitsNulls : Entries → Entries → Prop :=
  Omits fun key inner kept =>
    (key = .text "scan" ∨ key = .text "analyzers") ∧ OmitsFlat inner kept ∨
      key = .text "analysis" ∧ OmitsInAnalysis inner kept

namespace OmitsNulls

variable (h : OmitsNulls entries kept) (hdistinct : (entries.map Prod.fst).Nodup)
include h hdistinct

theorem flat (hkey : key = "scan" ∨ key = "analyzers") :
    OmitsFlat (entries.within key) (kept.within key) := by
  have hsection := h.sections_within hdistinct fun inner =>
    Or.inl ⟨hkey.imp (congrArg Scalar.text) (congrArg Scalar.text), .refl inner⟩
  rcases hsection with ⟨-, hflat⟩ | ⟨hanalysis, -⟩
  · exact hflat
  · rcases hkey with rfl | rfl <;> exact absurd hanalysis (by decide)

theorem inAnalysis : OmitsInAnalysis (entries.within "analysis") (kept.within "analysis") := by
  have hsection := h.sections_within hdistinct fun inner => Or.inr ⟨rfl, .refl inner⟩
  rcases hsection with ⟨hkey | hkey, -⟩ | ⟨-, hanalysis⟩
  · exact absurd hkey (by decide)
  · exact absurd hkey (by decide)
  · exact hanalysis

end OmitsNulls

namespace Config

/-- No key occurs twice in a document, nor in the sections that settings are looked up in. -/
structure DistinctKeys (entries : Entries) : Prop where
  top : (entries.map Prod.fst).Nodup
  scan : ((entries.within "scan").map Prod.fst).Nodup
  analysis : ((entries.within "analysis").map Prod.fst).Nodup
  analyzers : ((entries.within "analyzers").map Prod.fst).Nodup

/-- The entries that override the severities of branches. -/
def overrides (entries : Entries) : Entries :=
  (entries.within "analysis").within "branch_severity"

/-- Two documents are read alike, but for the overrides in them. -/
structure ReadAlike (entries kept : Entries) : Prop where
  version : kept.setting? "version" = entries.setting? "version"
  sectionNamed (key : String) :
    kept.sectionNamed key = (entries.sectionNamed key).map fun _ => kept.within key
  scan (key : String) : (kept.within "scan").setting? key = (entries.within "scan").setting? key
  analysis {key : String} : key ≠ "branch_severity" →
    (kept.within "analysis").setting? key = (entries.within "analysis").setting? key
  branchSeverity : (kept.within "analysis").sectionNamed "branch_severity" =
    ((entries.within "analysis").sectionNamed "branch_severity").map fun _ => overrides kept
  analyzers (key : String) :
    (kept.within "analyzers").setting? key = (entries.within "analyzers").setting? key

namespace ReadAlike

variable {config : Config}

theorem of_omitsNulls (h : OmitsNulls entries kept) (hdistinct : DistinctKeys entries) :
    ReadAlike entries kept := by
  have hscan := h.flat hdistinct.top (Or.inl rfl)
  have hanalysis := h.inAnalysis hdistinct.top
  have hanalyzers := h.flat hdistinct.top (Or.inr rfl)
  constructor
  · exact h.setting?_eq hdistinct.top (by simp)
  · exact h.sectionNamed hdistinct.top
  · exact fun key => hscan.setting?_eq hdistinct.scan fun _ _ => not_false
  · intro key hkey
    refine hanalysis.setting?_eq hdistinct.analysis fun _ _ hchanged => hkey ?_
    exact Scalar.text.inj hchanged.1
  · exact hanalysis.sectionNamed hdistinct.analysis "branch_severity"
  · exact fun key => hanalyzers.setting?_eq hdistinct.analyzers fun _ _ => not_false

theorem refusal?_eq (h : ReadAlike entries kept) (hoverrides : overrides kept = overrides entries)
    (place : Place) : refusal? kept place = refusal? entries place := by
  have hsection : ∀ key,
      Except.error? (kept.sectionNamed key) = Except.error? (entries.sectionNamed key) := by
    intro key
    rw [h.sectionNamed, Except.error?_map]
  cases place with
  | version => exact congrArg Except.error? (Entries.text_congr h.version)
  | scan | analysis | analyzers => exact hsection _
  | roots | extensions | skipDirs => exact congrArg Except.error? (Entries.strings_congr (h.scan _))
  | maxDepth | maxFiles => exact congrArg Except.error? (Entries.integer_congr (h.scan _))
  | confidenceFloor => exact congrArg Except.error? (Entries.float_congr (h.analysis (by decide)))
  | cascadeWindow => exact congrArg Except.error? (Entries.integer_congr (h.analysis (by decide)))
  | branchSeverity => exact (congrArg Except.error? h.branchSeverity).trans (Except.error?_map _ _)
  | overrides => exact congrArg (fun given => Except.error? (overrideSeverities _ given)) hoverrides
  | disabled => exact congrArg Except.error? (Entries.strings_congr (h.analyzers _))

theorem readAs (h : ReadAlike entries kept) (hoverrides : overrides kept = overrides entries)
    (hread : ReadAs entries config) : ReadAs kept config where
  scanSection := by
    rw [h.sectionNamed, hread.scanSection]
    rfl
  analysisSection := by
    rw [h.sectionNamed, hread.analysisSection]
    rfl
  severitySection := by
    rw [h.branchSeverity, hread.severitySection]
    rfl
  analyzersSection := by
    rw [h.sectionNamed, hread.analyzersSection]
    rfl
  version := (Entries.text_congr h.version).trans hread.version
  roots := (Entries.strings_congr (h.scan _)).trans hread.roots
  extensions := (Entries.strings_congr (h.scan _)).trans hread.extensions
  skipDirs := (Entries.strings_congr (h.scan _)).trans hread.skipDirs
  maxDepth := by
    rw [Entries.integer_congr (h.scan _)]
    exact hread.maxDepth
  maxFiles := by
    rw [Entries.integer_congr (h.scan _)]
    exact hread.maxFiles
  confidenceFloor := by
    rw [Entries.float_congr (h.analysis (by decide))]
    exact hread.confidenceFloor
  cascadeWindow := by
    rw [Entries.integer_congr (h.analysis (by decide))]
    exact hread.cascadeWindow
  branchSeverities := (congrArg (overrideSeverities _) hoverrides).trans hread.branchSeverities
  disabled := (Entries.strings_congr (h.analyzers _)).trans hread.disabled

/-- With the same overrides the outcome is the same, be it settings or an error. -/
theorem ofEntries_eq (h : ReadAlike entries kept)
    (hoverrides : overrides kept = overrides entries) :
    ofEntries kept = ofEntries entries := by
  cases hread : ofEntries entries with
  | ok config => exact (h.readAs hoverrides (ReadAs.of_ofEntries hread)).ofEntries_eq
  | error error =>
    obtain ⟨before, place, after, hall, hbefore, hrefused⟩ := ofEntries_eq_error_iff.mp hread
    refine ofEntries_eq_error_iff.mpr ⟨before, place, after, hall, fun earlier hmem => ?_, ?_⟩
    · rw [h.refusal?_eq hoverrides]
      exact hbefore earlier hmem
    · rw [h.refusal?_eq hoverrides]
      exact hrefused

end ReadAlike

/-! ### Null overrides -/

theorem overrideSeverities_of_null (severities : BranchSeverities) {given : Entries} {key : Scalar}
    (h : (key, .null) ∈ given) : ∃ error, overrideSeverities severities given = .error error := by
  have hnull : Severity.parse .null = .error (.unknown "None") := by decide +kernel
  induction given generalizing severities with
  | nil => cases h
  | cons entry given ih =>
    obtain ⟨candidate, value⟩ := entry
    unfold overrideSeverities
    cases hbranch : Branch.all.find? fun branch => candidate = .text branch.label with
    | none => exact ⟨_, rfl⟩
    | some branch =>
      rcases List.mem_cons.mp h with heq | hmem
      · cases heq
        exact ⟨_, by rw [hnull]; rfl⟩
      · cases hseverity : Severity.parse value with
        | error error => exact ⟨_, rfl⟩
        | ok severity => exact ih _ hmem

theorem omitsFlat_overrides (h : OmitsNulls entries kept) (hdistinct : DistinctKeys entries) :
    OmitsFlat (overrides entries) (overrides kept) := by
  have hanalysis := h.inAnalysis hdistinct.top
  exact (hanalysis.sections_within hdistinct.analysis fun inner => ⟨rfl, .refl inner⟩).2

/-- A document that has lost one of its overrides had not been accepted. -/
theorem toOption_of_overrides_ne (h : OmitsNulls entries kept) (hdistinct : DistinctKeys entries)
    (hoverrides : overrides kept ≠ overrides entries) : (ofEntries entries).toOption = none := by
  obtain ⟨key, hmem⟩ := (omitsFlat_overrides h hdistinct).eq_or_null.resolve_left hoverrides
  cases hread : ofEntries entries with
  | error error => rfl
  | ok config =>
    obtain ⟨error, herror⟩ := overrideSeverities_of_null ({} : Config).branchSeverities hmem
    cases herror.symm.trans (ReadAs.of_ofEntries hread).branchSeverities

/-- As long as no null override is left out, nothing changes when nulls are left out of a document,
whether it is accepted or refused. Without a null override the outcome is different exactly if the
document is accepted then. -/
theorem sameOutcome_iff (h : OmitsNulls entries kept) (hdistinct : DistinctKeys entries) :
    (overrides kept = overrides entries → ofEntries kept = ofEntries entries) ∧
    ((ofEntries kept).toOption = (ofEntries entries).toOption ↔
      overrides kept = overrides entries ∨ (ofEntries kept).toOption = none) := by
  have hsame : overrides kept = overrides entries → ofEntries kept = ofEntries entries :=
    (ReadAlike.of_omitsNulls h hdistinct).ofEntries_eq
  refine ⟨hsame, fun houtcome => ?_, ?_⟩
  · by_cases hoverrides : overrides kept = overrides entries
    · exact Or.inl hoverrides
    · rw [toOption_of_overrides_ne h hdistinct hoverrides] at houtcome
      exact Or.inr houtcome
  · rintro (hoverrides | hrefused)
    · rw [hsame hoverrides]
    · by_cases hoverrides : overrides kept = overrides entries
      · rw [hsame hoverrides]
      · rw [hrefused, toOption_of_overrides_ne h hdistinct hoverrides]

/-- Null settings at every level but among the overrides. -/
def nullSettings : Entries :=
  [(.text "version", .null),
    (.text "scan", .mapping [(.text "roots", .null), (.text "max_files", .int 7)]),
    (.text "analysis", .mapping [(.text "cascade_window", .null),
      (.text "branch_severity", .mapping [(.text "DATA_FLOW_RISKS", .text "low")])]),
    (.text "analyzers", .mapping [(.text "disabled", .null)])]

def givenSettings : Entries :=
  [(.text "scan", .mapping [(.text "max_files", .int 7)]),
    (.text "analysis", .mapping [
      (.text "branch_severity", .mapping [(.text "DATA_FLOW_RISKS", .text "low")])]),
    (.text "analyzers", .mapping [])]

theorem sameOutcome_of_nullSettings : ofEntries givenSettings = ofEntries nullSettings ∧
    (ofEntries givenSettings).toOption = (ofEntries nullSettings).toOption ∧
    ∃ config, ofEntries nullSettings = .ok config ∧ config.maxFiles = 7 := by
  have homits : OmitsNulls nullSettings givenSettings :=
    .null _ (.within _ (Or.inl ⟨Or.inl rfl, .null _ (.refl _)⟩)
      (.within _ (Or.inr ⟨rfl, .null _ (.refl _)⟩)
        (.within _ (Or.inl ⟨Or.inr rfl, .null _ .nil⟩) .nil)))
  have hdistinct : DistinctKeys nullSettings := by
    constructor <;> decide
  have hread : ofEntries nullSettings = .ok {
      maxFiles := 7
      branchSeverities := { dataFlow := .low } } := by decide +kernel
  obtain ⟨hsame, houtcome⟩ := sameOutcome_iff homits hdistinct
  exact ⟨hsame rfl, houtcome.mpr (Or.inl rfl), _, hread, rfl⟩

/-- A branch has been left without a severity. -/
def nullOverride : Entries :=
  [(.text "analysis",
    .mapping [(.text "branch_severity", .mapping [(.text "DATA_FLOW_RISKS", .null)])])]

def noOverride : Entries :=
  [(.text "analysis", .mapping [(.text "branch_severity", .mapping [])])]

theorem not_sameOutcome_of_nullOverride : OmitsNulls nullOverride noOverride ∧
    DistinctKeys nullOverride ∧
    (ofEntries noOverride).toOption ≠ (ofEntries nullOverride).toOption := by
  refine ⟨?_, by constructor <;> decide, by decide +kernel⟩
  exact .within _ (Or.inr ⟨rfl, .within _ ⟨rfl, .null _ .nil⟩ .nil⟩) .nil

end Config

end RiskScan
