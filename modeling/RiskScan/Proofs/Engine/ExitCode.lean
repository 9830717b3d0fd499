import RiskScan.Proofs.Confidence.Order
import RiskScan.Proofs.Engine.Decomposition
/-!
# When a run fails

With the built-in analyzers a run fails for three reasons only: chance in control flow, cascades of
events, and a branch that is set to critical and held to no confidence at all. Everything else they
find is raised to a high severity at most. Their findings can always be made, so that no analyzer
ends the analysis of a file.
-/

namespace RiskScan

open Store Engine

/-! ### Growths that go on -/

/-- A growth that does not fail, and refers to nothing but itself. -/
structure Growth.Whole (growth : Growth) : Prop where
  goesOn : growth.fails = false
  closed : growth.marks.Closed

variable {floor : Float} {growths : List Growth} {first second : Growth}

theorem Growth.Whole.andThen (hfirst : first.Whole) (hsecond : second.Whole) :
    (first.andThen second).Whole := by
  rw [andThen_of_not_fails hfirst.goesOn]
  exact ⟨hsecond.goesOn, hfirst.closed.followedBy hsecond.closed⟩

theorem Growth.Whole.sequence (h : ∀ growth ∈ growths, growth.Whole) :
    (sequence growths).Whole := by
  induction growths with
  | nil => exact ⟨rfl, .nil⟩
  | cons growth growths ih =>
    obtain ⟨hfirst, hrest⟩ := List.forall_mem_cons.mp h
    exact hfirst.andThen (ih hrest)

theorem Growth.someCritical_sequence (h : ∀ growth ∈ growths, growth.Whole) :
    (sequence growths).marks.SomeCritical floor ↔
    ∃ growth ∈ growths, growth.marks.SomeCritical floor := by
  induction growths with
  | nil => exact iff_of_false Marks.not_someCritical_nil (by simp)
  | cons growth growths ih =>
    obtain ⟨hfirst, hrest⟩ := List.forall_mem_cons.mp h
    have hsequence : sequence (growth :: growths) = growth.andThen (sequence growths) := rfl
    rw [hsequence, andThen_of_not_fails hfirst.goesOn, List.exists_mem_cons_iff, ← ih hrest]
    exact Marks.someCritical_followedBy hfirst.closed (Whole.sequence hrest).closed

/-! ### Findings that can always be made -/

/-- Whatever is counted in whatever file, a finding can be made, with some confidence in it. -/
structure Signature.Reports (signature : Signature) (confidence : Confidence) : Prop where
  fills (count : Int) (file : String) :
    ∃ text, Template.fill [("count", .number count), ("file", .text file)] signature.evidence =
      .ok text
  confidence : signature.confidence = .float confidence.value

theorem Signature.Reports.finding {signature : Signature} {confidence : Confidence}
    (h : signature.Reports confidence) (count : Int) (file : String) :
    ∃ node, signature.finding count file = .ok node ∧
    node.mark = ⟨signature.severity, confidence, []⟩ := by
  obtain ⟨text, htext⟩ := h.fills count file
  have hseverity := Severity.parse_label signature.severity
  have hconfidence : Confidence.ofValue signature.confidence = .ok confidence := by
    rw [h.confidence]
    exact Confidence.ofFloat_value confidence
  unfold Signature.finding
  simp only [htext, Draft.node, hseverity, hconfidence]
  exact ⟨_, rfl, rfl⟩

/-! ### What follows a finding -/

namespace FollowUp

variable {followUp : FollowUp} {finding : Mark} {content : String} {context : CodeContext}

theorem whole_growth (hnone : finding.dependencies = []) (hadd : followUp = .stateManagement →
      ∃ confidence, finding.confidence.add stateConfidenceBump = .ok confidence) :
    (followUp.growth finding content context).Whole := by
  have halone : Marks.Closed [finding] := Marks.closed_of_independent (by simpa using hnone)
  cases followUp with
  | none => exact ⟨rfl, halone⟩
  | asyncOperations =>
    unfold growth
    dsimp only
    split
    · exact ⟨rfl, Marks.closed_pair hnone rfl⟩
    · exact ⟨rfl, halone⟩
  | stateManagement =>
    obtain ⟨confidence, hconfidence⟩ := hadd rfl
    unfold growth
    rw [hconfidence]
    dsimp only
    split
    · exact ⟨rfl, Marks.closed_pair hnone rfl⟩
    · exact ⟨rfl, halone⟩
  | missingErrorHandling =>
    unfold growth
    dsimp only
    split
    · exact ⟨rfl, halone⟩
    · exact ⟨rfl, Marks.closed_of_independent (by simpa using ⟨hnone, rfl⟩)⟩
  | missingCleanup =>
    unfold growth
    dsimp only
    split
    · exact ⟨rfl, halone⟩
    · exact ⟨rfl, Marks.closed_pair hnone rfl⟩

theorem someCritical_alone (hnone : finding.dependencies = []) :
    Marks.SomeCritical floor [finding] ↔ finding.Critical floor := by
  rw [Marks.someCritical_of_independent (by simpa using hnone)]
  simp

theorem someCritical_asyncOperations (hnone : finding.dependencies = [])
    (hseverity : finding.severity = .critical) :
    (asyncOperations.growth finding content context).marks.SomeCritical floor ↔
      floor ≤ finding.confidence.value ∨ floor ≤ 0.95 ∧ context.hasAsyncOperations = true := by
  unfold growth
  dsimp only
  split
  · rename_i hasync
    have hmax : raise Severity.critical.weight Severity.critical.weight = Severity.maxWeight := rfl
    rw [Marks.someCritical_pair hnone rfl, Mark.Critical, hseverity, hasync]
    simp [Node.dependentMark, Node.mark, asyncRandomCompound, hmax]
  · rename_i hasync
    rw [someCritical_alone hnone, Mark.Critical, hseverity]
    simp [hasync]

/-- A child of medium severity becomes critical by a finding that is. -/
theorem someCritical_missingCleanup (hnone : finding.dependencies = [])
    (hseverity : finding.severity = .critical) :
    (missingCleanup.growth finding content context).marks.SomeCritical floor ↔
      floor ≤ finding.confidence.value ∨ floor ≤ 0.7 ∧ hasCleanup content = false := by
  unfold growth
  dsimp only
  split
  · rename_i hcleanup
    rw [someCritical_alone hnone, Mark.Critical, hseverity]
    simp [hcleanup]
  · rename_i hcleanup
    have hmax : raise Severity.medium.weight Severity.critical.weight = Severity.maxWeight := rfl
    rw [Marks.someCritical_pair hnone rfl, Mark.Critical, hseverity]
    simp [Node.dependentMark, Node.mark, noEventCleanup, hmax, hcleanup]

/-- Only asynchronous work makes a finding critical that is not: half of its weight is one at
most. -/
theorem not_someCritical_growth (hnone : finding.dependencies = [])
    (hfollowUp : followUp ≠ .asyncOperations) (hseverity : finding.severity ≠ .critical) :
    ¬ (followUp.growth finding content context).marks.SomeCritical floor := by
  have halone : ∀ {mark : Mark}, mark.dependencies = [] → mark.severity ≠ .critical →
      ¬ Marks.SomeCritical floor [mark] := by
    intro mark hmark hnot
    rw [someCritical_alone hmark]
    exact fun h => hnot h.1
  have hpair : ∀ {mark child : Mark}, mark.dependencies = [] → mark.severity ≠ .critical →
      child.dependencies = [0] → child.severity = .medium →
      ¬ Marks.SomeCritical floor [mark, child] := by
    intro mark child hmark hnot hchild hmedium
    rw [Marks.someCritical_pair hmark hchild, hmedium]
    rintro (h | ⟨hmax, -⟩)
    · exact hnot h.1
    · revert hmax hnot
      cases mark.severity <;> decide
  cases followUp with
  | asyncOperations => exact absurd rfl hfollowUp
  | none => exact halone hnone hseverity
  | stateManagement =>
    unfold growth
    dsimp only
    split
    · split
      · exact hpair hnone hseverity rfl rfl
      · exact halone hnone hseverity
    · exact halone hnone hseverity
  | missingErrorHandling =>
    unfold growth
    dsimp only
    split
    · exact halone hnone hseverity
    · rw [Marks.someCritical_of_independent (by simpa using ⟨hnone, rfl⟩)]
      simp [Mark.Critical, hseverity, noErrorHandling, Node.mark]
  | missingCleanup =>
    unfold growth
    dsimp only
    split
    · exact halone hnone hseverity
    · exact hpair hnone hseverity rfl rfl

end FollowUp

/-! ### Built-in checks -/

/-- A check never ends the analysis of a file, and makes the tree critical for the files that meet a
condition. -/
structure Check.Decides (check : Check) (floor : Float) (condition : SourceFile → Prop) : Prop where
  whole (file : SourceFile) : (check.growth file).Whole
  someCritical_iff (file : SourceFile) :
    (check.growth file).marks.SomeCritical floor ↔ condition file

theorem Check.decides_of_reports {check : Check} (confidence : Confidence)
    {condition : SourceFile → Prop} (hreports : check.signature.Reports confidence)
    (hadd : check.followUp = .stateManagement →
      ∃ raised, confidence.add FollowUp.stateConfidenceBump = .ok raised)
    (hcritical : ∀ file : SourceFile,
      (check.followUp.growth ⟨check.signature.severity, confidence, []⟩
      file.content file.context).marks.SomeCritical floor ↔ condition file) :
    check.Decides floor fun file => 0 < check.signature.count file.content ∧ condition file := by
  have hgrowth : ∀ file : SourceFile, check.growth file =
      if check.signature.count file.content = 0 then {}
      else check.followUp.growth ⟨check.signature.severity, confidence, []⟩ file.content
          file.context := by
    intro file
    obtain ⟨node, hnode, hmark⟩ := hreports.finding (check.signature.count file.content) file.path
    rw [growth, hnode, ← hmark]
  constructor
  · intro file
    rw [hgrowth]
    split
    · exact ⟨rfl, .nil⟩
    · exact FollowUp.whole_growth rfl hadd
  · intro file
    rw [hgrowth]
    split
    · rename_i hzero
      exact iff_of_false Marks.not_someCritical_nil fun h => Nat.ne_of_gt h.1 hzero
    · rename_i hcount
      rw [hcritical, and_iff_right (Nat.pos_of_ne_zero hcount)]

/-- A finding that is not critical leads to no critical node, unless asynchronous work follows it
up. -/
theorem Check.decides_false {check : Check} (confidence : Confidence)
    (hreports : check.signature.Reports confidence)
    (hadd : check.followUp = .stateManagement →
      ∃ raised, confidence.add FollowUp.stateConfidenceBump = .ok raised)
    (hfollowUp : check.followUp ≠ .asyncOperations)
    (hseverity : check.signature.severity ≠ .critical) :
    check.Decides floor fun _ => False := by
  have hdecides : check.Decides floor fun file => 0 < check.signature.count file.content ∧ False :=
    decides_of_reports confidence hreports hadd fun _ =>
      iff_of_false (FollowUp.not_someCritical_growth rfl hfollowUp hseverity) not_false
  simpa only [and_false] using hdecides

theorem decides_randomControlFlow :
    Check.Decides ⟨.randomControlFlow, .asyncOperations⟩ floor fun file =>
      0 < Signature.randomControlFlow.count file.content ∧
        (floor ≤ 0.9 ∨ floor ≤ 0.95 ∧ file.context.hasAsyncOperations = true) :=
  Check.decides_of_reports ⟨0.9, by decide, by decide⟩ ⟨fun _ _ => ⟨_, rfl⟩, rfl⟩ nofun
    fun _ => FollowUp.someCritical_asyncOperations rfl rfl

theorem decides_mutableGetterExposure :
    Check.Decides ⟨.mutableGetterExposure, .stateManagement⟩ floor fun _ => False :=
  Check.decides_false ⟨0.8, by decide, by decide⟩ ⟨fun _ _ => ⟨_, rfl⟩, rfl⟩
    (fun _ => ⟨_, rfl⟩) nofun nofun

theorem decides_asyncWithoutAwait :
    Check.Decides ⟨.asyncWithoutAwait, .missingErrorHandling⟩ floor fun _ => False :=
  Check.decides_false ⟨0.7, by decide, by decide⟩ ⟨fun _ _ => ⟨_, rfl⟩, rfl⟩ nofun nofun nofun

theorem decides_eventCascade (window : Nat) :
    Check.Decides ⟨.eventCascade window, .missingCleanup⟩ floor fun file =>
      0 < (Signature.eventCascade window).count file.content ∧ floor ≤ 0.8 := by
  have hevidence : (Signature.eventCascade window).evidence =
      "Found \x7bcount\x7d cascade patterns in \x7bfile\x7d" := rfl
  have hreports : (Signature.eventCascade window).Reports ⟨0.8, by decide, by decide⟩ :=
    ⟨fun _ _ => hevidence ▸ ⟨_, rfl⟩, rfl⟩
  refine Check.decides_of_reports _ hreports nofun fun file => ?_
  rw [FollowUp.someCritical_missingCleanup rfl rfl]
  -- a floor that the missing cleanup reaches is reached by the cascade itself
  have hle : (0.7 : Float) ≤ 0.8 := by decide
  exact or_iff_left_of_imp fun h => float_le_trans h.1 hle

theorem decides_memoryPollution : Check.Decides ⟨.memoryPollution, .none⟩ floor fun _ => False :=
  Check.decides_false ⟨0.75, by decide, by decide⟩ ⟨fun _ _ => ⟨_, rfl⟩, rfl⟩ nofun nofun nofun

/-! ### Analyzers and branches -/

namespace Analyzer

variable {analyzer : Analyzer} {file : SourceFile}

theorem growth_eq (hnone : analyzer.interruption = none) (file : SourceFile) :
    analyzer.growth file =
      Growth.sequence (analyzer.checks.map fun check => check.growth file) := by
  unfold growth Check.growthOf
  rw [hnone]

theorem whole_growth (hnone : analyzer.interruption = none)
    (h : ∀ check ∈ analyzer.checks, (check.growth file).Whole) : (analyzer.growth file).Whole := by
  rw [growth_eq hnone]
  exact .sequence (List.forall_mem_map.mpr h)

theorem someCritical_growth (hnone : analyzer.interruption = none)
    (h : ∀ check ∈ analyzer.checks, (check.growth file).Whole) :
    (analyzer.growth file).marks.SomeCritical floor ↔
      ∃ check ∈ analyzer.checks, (check.growth file).marks.SomeCritical floor := by
  rw [growth_eq hnone, Growth.someCritical_sequence (List.forall_mem_map.mpr h)]
  simp only [List.mem_map, exists_exists_and_eq_and]

end Analyzer

namespace Engine

theorem whole_builtIn {window : Nat} {registry : Registry}
    (hregistry : Registry.builtIn window = .ok registry) (file : SourceFile) {analyzer : Analyzer}
    (hmem : analyzer ∈ registry) :
    analyzer.interruption = none ∧ ∀ check ∈ analyzer.checks, (check.growth file).Whole := by
  rw [Registry.builtIn_eq hregistry] at hmem
  simp only [List.mem_cons, List.not_mem_nil, or_false] at hmem
  have hrandom := (@decides_randomControlFlow 0.0).whole file
  have hgetter := (@decides_mutableGetterExposure 0.0).whole file
  have hasync := (@decides_asyncWithoutAwait 0.0).whole file
  have hcascade := (@decides_eventCascade 0.0 window).whole file
  have hmemory := (@decides_memoryPollution 0.0).whole file
  rcases hmem with rfl | rfl | rfl | rfl
  · exact ⟨rfl, List.forall_mem_singleton.mpr hrandom⟩
  · exact ⟨rfl, List.forall_mem_singleton.mpr hgetter⟩
  · exact ⟨rfl, List.forall_mem_cons.mpr ⟨hasync, List.forall_mem_singleton.mpr hcascade⟩⟩
  · exact ⟨rfl, List.forall_mem_singleton.mpr hmemory⟩

theorem whole_growth_builtIn {window : Nat} {registry : Registry}
    (hregistry : Registry.builtIn window = .ok registry) (file : SourceFile) {analyzer : Analyzer}
    (hmem : analyzer ∈ registry) : (analyzer.growth file).Whole := by
  obtain ⟨hnone, hchecks⟩ := whole_builtIn hregistry file hmem
  exact Analyzer.whole_growth hnone hchecks

/-- None of the built-in analyzers fails on any file. -/
theorem goesOn_builtIn {window : Nat} {registry : Registry} {trunk : Trunk} {store : Store}
    (hregistry : Registry.builtIn window = .ok registry) {analyzers : List Analyzer}
    (hsubset : analyzers ⊆ registry) (files : List SourceFile) (hstands : trunk.Stands store) :
    ∀ analysis ∈ (analyzeSources analyzers trunk.branches files store).1,
    analysis.fault = none := by
  refine goesOn_analyzeSources (fun file analyzer hmem =>
    (Registry.declared_of_builtIn hregistry (hsubset hmem)).yields trunk file) (fun file => ?_)
      files hstands
  have hwhole : ∀ analyzer ∈ analyzers, (analyzer.growth file).Whole := fun analyzer hmem =>
    whole_growth_builtIn hregistry file (hsubset hmem)
  exact (Growth.Whole.sequence (List.forall_mem_map.mpr hwhole)).goesOn

/-- So nothing is printed that the console could refuse. -/
theorem refusal?_warningsOn_builtIn {engine : Engine} {window : Nat} {start : Store}
    (hregistry : Registry.builtIn window = .ok engine.registry) (hstart : OrdinarilyReachable start)
    (files : List SourceFile) : (engine.warningsOn files start).refusal? = none := by
  obtain ⟨trunk, planted, hplant, hstands, -⟩ := buildTree_eq engine.config hstart
  have hsubset : engine.analyzers ⊆ engine.registry := fun _ hmem => (List.mem_filter.mp hmem).1
  rw [warningsOn_of_planted hplant,
    printedOn_eq_nil (goesOn_builtIn hregistry hsubset files hstands)]
  rfl

theorem someCritical_builtIn {engine : Engine} {window : Nat}
    (hregistry : Registry.builtIn window = .ok engine.registry) (file : SourceFile) :
    (Growth.sequence (engine.analyzers.map fun analyzer => analyzer.growth file)).marks.SomeCritical
      floor ↔
      ("CodeExecutionAnalyzer" ∉ engine.config.disabled ∧
        0 < Signature.randomControlFlow.count file.content ∧
          (floor ≤ 0.9 ∨ floor ≤ 0.95 ∧ file.context.hasAsyncOperations = true)) ∨
      ("AsyncConcurrencyAnalyzer" ∉ engine.config.disabled ∧
        0 < (Signature.eventCascade window).count file.content ∧ floor ≤ 0.8) := by
  have hmem : ∀ analyzer, analyzer ∈ engine.analyzers ↔
      analyzer ∈ engine.registry ∧ analyzer.name ∉ engine.config.disabled := by
    intro analyzer
    simp [analyzers, Registry.enabled]
  have hwhole : ∀ analyzer ∈ engine.analyzers, (analyzer.growth file).Whole :=
    fun analyzer hanalyzer =>
    whole_growth_builtIn hregistry file ((hmem analyzer).mp hanalyzer).1
  have hcritical : ∀ analyzer ∈ engine.registry, (analyzer.growth file).marks.SomeCritical floor ↔
      ∃ check ∈ analyzer.checks, (check.growth file).marks.SomeCritical floor := by
    intro analyzer hanalyzer
    obtain ⟨hnone, hchecks⟩ := whole_builtIn hregistry file hanalyzer
    exact Analyzer.someCritical_growth hnone hchecks
  rw [Growth.someCritical_sequence (List.forall_mem_map.mpr hwhole)]
  simp only [List.mem_map, exists_exists_and_eq_and, hmem]
  rw [Registry.builtIn_eq hregistry] at hcritical ⊢
  simp only [List.forall_mem_cons] at hcritical
  obtain ⟨hcode, hstate, hasync, hdata, -⟩ := hcritical
  simp only [and_assoc, List.exists_mem_cons_iff, hcode, hstate, hasync, hdata]
  simp [Analyzer.codeExecution, Analyzer.stateManagement, Analyzer.asyncConcurrency,
    Analyzer.dataFlow, decides_randomControlFlow.someCritical_iff,
    decides_mutableGetterExposure.someCritical_iff, decides_asyncWithoutAwait.someCritical_iff,
    (decides_eventCascade window).someCritical_iff, decides_memoryPollution.someCritical_iff]

/-- The bare trunk makes a run fail only where no confidence is asked for, as the branches have
none. -/
theorem someCritical_trunkMarks (config : Config) : (trunkMarks config).SomeCritical floor ↔
    floor ≤ 0.0 ∧ ∃ branch, config.branchSeverities.get branch = .critical := by
  rw [Marks.someCritical_of_independent fun _ => dependencies_of_mem_trunkMarks]
  constructor
  · rintro ⟨mark, hmark, hcritical, hfloor⟩
    obtain ⟨node, hnode, rfl⟩ := List.mem_map.mp hmark
    rcases List.mem_cons.mp hnode with rfl | hnode
    · cases hcritical
    · obtain ⟨branch, -, rfl⟩ := List.mem_map.mp hnode
      exact ⟨hfloor, branch, hcritical⟩
  · rintro ⟨hfloor, branch, hcritical⟩
    refine ⟨_, List.mem_map_of_mem (List.mem_cons_of_mem _ (List.mem_map_of_mem ?_)),
      hcritical, hfloor⟩
    cases branch <;> decide

/-- With the built-in analyzers, a run that reads its files fails in three cases only: where some
file lets chance decide, where some file publishes events in a cascade, each with enough confidence,
and where a branch is set to be critical and the floor lets anything pass. A floor that is no number
lets nothing pass. -/
theorem exitCode_eq_one_iff {engine : Engine} {start : Store}
    (hregistry : Registry.builtIn engine.config.cascadeWindow = .ok engine.registry)
    (hstart : OrdinarilyReachable start) (fs : FileSystem) (milliseconds : Int) :
    let floor := engine.config.confidenceFloor
    let disabled := engine.config.disabled
    match engine.sources fs with
    | .error fault => engine.run fs milliseconds start = .error fault
    | .ok files => ∃ run final, engine.run fs milliseconds start = .ok (run, final) ∧
      (run.result.exitCode = 1 ↔
        ("CodeExecutionAnalyzer" ∉ disabled ∧ ∃ file ∈ files,
          0 < Signature.randomControlFlow.count file.content ∧
            (floor ≤ 0.9 ∨ floor ≤ 0.95 ∧
              (CodeContext.ofContent file.content).hasAsyncOperations = true)) ∨
        ("AsyncConcurrencyAnalyzer" ∉ disabled ∧ (∃ file ∈ files,
          0 < (Signature.eventCascade engine.config.cascadeWindow).count file.content) ∧
          floor ≤ 0.8) ∨
        (floor ≤ 0.0 ∧ ∃ branch, engine.config.branchSeverities.get branch = .critical)) ∧
      (floor.isNaN = true → run.result.exitCode = 0) := by
  intro floor disabled
  have hadd : Analyzer.Add engine.analyzers fun file =>
      Growth.sequence (engine.analyzers.map fun analyzer => analyzer.growth file) :=
    add_of_yields fun file analyzer hmem trunk =>
      (Registry.declared_of_builtIn hregistry (List.mem_filter.mp hmem).1).yields trunk file
  cases hsources : engine.sources fs with
  | error fault =>
    obtain ⟨files, hfails⟩ := run_of_unreadable hstart hsources milliseconds
    rw [refusal?_warningsOn_builtIn hregistry hstart] at hfails
    exact hfails
  | ok files =>
    obtain ⟨run, final, hrun, hverdict⟩ := exists_run_verdict hadd hstart hsources
      (refusal?_warningsOn_builtIn hregistry hstart files) milliseconds
    have hiff : run.result.exitCode = 1 ↔ _ :=
      congrArg Verdict.exitCode hverdict ▸ exitCode_verdictOf engine.config _ files
    simp only [someCritical_trunkMarks, someCritical_builtIn hregistry] at hiff
    refine ⟨run, final, hrun, hiff.trans ⟨?_, ?_⟩, fun hnan => ?_⟩
    · rintro (hbranch | ⟨file, hfile, ⟨henabled, hcount, hfloor⟩ | ⟨henabled, hcount, hfloor⟩⟩)
      · exact Or.inr (Or.inr hbranch)
      · rw [context_of_sources hsources hfile] at hfloor
        exact Or.inl ⟨henabled, file, hfile, hcount, hfloor⟩
      · exact Or.inr (Or.inl ⟨henabled, ⟨file, hfile, hcount⟩, hfloor⟩)
    · rintro (⟨henabled, file, hfile, hcount, hfloor⟩ | ⟨henabled, ⟨file, hfile, hcount⟩,
        hfloor⟩ | hbranch)
      · rw [← context_of_sources hsources hfile] at hfloor
        exact Or.inr ⟨file, hfile, Or.inl ⟨henabled, hcount, hfloor⟩⟩
      · exact Or.inr ⟨file, hfile, Or.inr ⟨henabled, hcount, hfloor⟩⟩
      · exact Or.inl hbranch
    · have hnever : ∀ confidence, ¬ engine.config.confidenceFloor ≤ confidence :=
        not_le_of_isNaN hnan
      have hpasses : run.result.exitCode ≠ 1 := by
        rw [ne_eq, hiff]
        simp [hnever]
      rw [AnalysisResult.exitCode_eq] at hpasses ⊢
      exact if_neg fun hcritical => hpasses (if_pos hcritical)

/-- An engine that wants more confidence than chance alone deserves. -/
def strictEngine : Engine :=
  ⟨.ofString "/p", { confidenceFloor := 0.92 },
    [.codeExecution, .stateManagement, .asyncConcurrency (.eventCascade 10), .dataFlow]⟩

def waitingForChance : String := "if (Math.random() await "

def waitingFiles : FileSystem where
  top := [("p", .directory [("src", .directory [
    ("a.js", .file (waitingForChance.toList.map fun c => c.toNat.toUInt8))])])]

/-- The floor is above the confidence in the finding, but not above the one in its child. -/
theorem exitCode_of_waitingFiles : ∃ run final,
    strictEngine.run waitingFiles 0 Store.empty = .ok (run, final) ∧ run.result.exitCode = 1 := by
  have hcontents : (strictEngine.sources waitingFiles).toOption.map
      (fun files => files.map SourceFile.content) = some [waitingForChance] := by
    decide +kernel
  have hcount : 0 < Signature.randomControlFlow.count waitingForChance := by decide +kernel
  have hasync : (CodeContext.ofContent waitingForChance).hasAsyncOperations =
      true := by decide +kernel
  have hregistry : Registry.builtIn strictEngine.config.cascadeWindow = .ok strictEngine.registry :=
    rfl
  have hexit := exitCode_eq_one_iff hregistry .refl waitingFiles 0
  cases hsources : strictEngine.sources waitingFiles with
  | error fault =>
    rw [hsources] at hcontents
    cases hcontents
  | ok files =>
    rw [hsources, Except.toOption, Option.map_some, Option.some.injEq] at hcontents
    rw [hsources] at hexit
    obtain ⟨run, final, hrun, hiff, -⟩ := hexit
    have hmem : waitingForChance ∈ files.map SourceFile.content := by
      rw [hcontents]
      exact List.mem_singleton_self _
    obtain ⟨file, hfile, hcontent⟩ := List.mem_map.mp hmem
    rw [← hcontent] at hcount hasync
    have hfloor : strictEngine.config.confidenceFloor ≤ 0.95 := by decide
    exact ⟨run, final, hrun,
      hiff.mpr (Or.inl ⟨List.not_mem_nil, file, hfile, hcount, Or.inr ⟨hfloor, hasync⟩⟩)⟩

end Engine

end RiskScan
