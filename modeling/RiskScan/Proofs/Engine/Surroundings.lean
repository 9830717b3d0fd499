import RiskScan.Proofs.Engine.ExitCode
import RiskScan.Proofs.Pattern.Surroundings
/-!
# Code around code

A file that makes a run fail does so by what can be found in it: a condition left to chance, with or
without asynchronous work beside it, or a cascade of events. None of the three patterns forbids
anything, so more lines before and after take none of their matches away, although the matches need
not stay the same ones. Error handling and cleanup that are added may remove other nodes, but none
that decides.
-/

namespace RiskScan

open Store

/-- The second file is the first one, possibly with other lines before and after its content. -/
def SourceFile.Surrounds (file surrounded : SourceFile) : Prop :=
  surrounded = file ∨ ∃ preceding following : String, surrounded =
    .ofContent file.path (preceding ++ "\n" ++ file.content ++ "\n" ++ following)

variable {file surrounded : SourceFile} {floor : Float}

theorem Signature.count_pos_of_surrounds {signature : Signature}
    (hforbids : signature.pattern.forbidsNothing = true) (h : file.Surrounds surrounded)
    (hcount : 0 < signature.count file.content) : 0 < signature.count surrounded.content := by
  rcases h with rfl | ⟨preceding, following, rfl⟩
  · exact hcount
  · have hfound : signature.pattern.find file.content ≠ [] := List.ne_nil_of_length_pos hcount
    exact List.length_pos_of_ne_nil
      (Pattern.find_surrounded_ne_nil hforbids hfound preceding following)

theorem hasAsyncOperations_of_surrounds
    (hcontext : file.context = CodeContext.ofContent file.content) (h : file.Surrounds surrounded)
    (hasync : file.context.hasAsyncOperations = true) :
    surrounded.context.hasAsyncOperations = true := by
  rcases h with rfl | ⟨preceding, following, rfl⟩
  · exact hasync
  · rw [hcontext] at hasync
    have hiff : ∀ content, (CodeContext.ofContent content).hasAsyncOperations = true ↔
        CodeContext.asyncForm.find content ≠ [] := by
      intro content
      rw [CodeContext.hasAsyncOperations, Bool.not_eq_true', List.isEmpty_eq_false_iff]
      rfl
    exact (hiff _).mpr (Pattern.find_surrounded_ne_nil rfl ((hiff _).mp hasync) preceding following)

namespace Engine

variable {engine : Engine} {files surroundedFiles : List SourceFile}

theorem someCritical_of_surrounds
    (hregistry : Registry.builtIn engine.config.cascadeWindow = .ok engine.registry)
    (hcontext : file.context = CodeContext.ofContent file.content) (h : file.Surrounds surrounded)
    (hcritical : (Growth.sequence (engine.analyzers.map fun analyzer =>
      analyzer.growth file)).marks.SomeCritical floor) :
    (Growth.sequence (engine.analyzers.map fun analyzer =>
      analyzer.growth surrounded)).marks.SomeCritical floor := by
  rw [someCritical_builtIn hregistry] at hcritical ⊢
  rcases hcritical with ⟨henabled, hcount, hfloor⟩ | ⟨henabled, hcount, hfloor⟩
  · refine Or.inl ⟨henabled, Signature.count_pos_of_surrounds rfl h hcount, ?_⟩
    exact hfloor.imp_right (And.imp_right (hasAsyncOperations_of_surrounds hcontext h))
  · exact Or.inr ⟨henabled, Signature.count_pos_of_surrounds rfl h hcount, hfloor⟩

/-- The growth that the enabled analyzers have for a file, one after the other. -/
def growthOf (engine : Engine) (file : SourceFile) : Growth :=
  Growth.sequence (engine.analyzers.map fun analyzer => analyzer.growth file)

theorem add_growthOf (hregistry : Registry.builtIn engine.config.cascadeWindow =
    .ok engine.registry) :
    Analyzer.Add engine.analyzers engine.growthOf :=
  add_of_yields fun file _ hmem trunk =>
    (Registry.declared_of_builtIn hregistry (List.mem_filter.mp hmem).1).yields trunk file

theorem exists_runOn_verdict {start : Store}
    (hregistry : Registry.builtIn engine.config.cascadeWindow = .ok engine.registry)
    (hstart : OrdinarilyReachable start) (files : List SourceFile) :
    ∃ result final, engine.runOn files start = .ok (result, final) ∧
      result.verdict = verdictOf engine.config engine.growthOf files := by
  have hverdict := runOn_verdict (add_growthOf hregistry) hstart files
  rw [refusal?_warningsOn_builtIn hregistry hstart] at hverdict
  cases hrun : engine.runOn files start with
  | error fault =>
    rw [hrun] at hverdict
    cases hverdict
  | ok done =>
    rw [hrun] at hverdict
    exact ⟨done.1, done.2, rfl, Except.ok.inj hverdict⟩

theorem exitCode_of_verdicts {result larger : AnalysisResult}
    (hregistry : Registry.builtIn engine.config.cascadeWindow = .ok engine.registry)
    (hcontext : ∀ file ∈ files, file.context = CodeContext.ofContent file.content)
    (h : List.Forall₂ SourceFile.Surrounds files surroundedFiles)
    (hresult : result.verdict = verdictOf engine.config engine.growthOf files)
    (hlarger : larger.verdict = verdictOf engine.config engine.growthOf surroundedFiles)
    (hexit : result.exitCode = 1) : larger.exitCode = 1 := by
  have hresultExit : result.exitCode = (verdictOf engine.config engine.growthOf files).exitCode :=
    congrArg Verdict.exitCode hresult
  have hlargerExit : larger.exitCode =
      (verdictOf engine.config engine.growthOf surroundedFiles).exitCode :=
    congrArg Verdict.exitCode hlarger
  rw [hresultExit, exitCode_verdictOf] at hexit
  rw [hlargerExit, exitCode_verdictOf]
  refine hexit.imp_right fun ⟨file, hfile, hcritical⟩ => ?_
  obtain ⟨i, hi, rfl⟩ := List.getElem_of_mem hfile
  have hsurrounds := h.get hi (h.length_eq ▸ hi)
  exact ⟨_, List.getElem_mem _,
    someCritical_of_surrounds hregistry (hcontext _ hfile) hsurrounds hcritical⟩

/-- No code that is put around the code of some files turns a failure into a success. With the
built-in analyzers, the run on the enlarged files comes to its end as the one on the files
themselves does, and it fails if that one fails: whether the files are handed over or read from a
project, and wherever the runs start. -/
theorem exitCode_of_surrounded {start otherStart : Store}
    (hregistry : Registry.builtIn engine.config.cascadeWindow = .ok engine.registry)
    (hstart : OrdinarilyReachable start) (hother : OrdinarilyReachable otherStart) :
    (∀ files surroundedFiles : List SourceFile,
      (∀ file ∈ files, file.context = CodeContext.ofContent file.content) →
      List.Forall₂ SourceFile.Surrounds files surroundedFiles →
      ∃ result final larger otherFinal, engine.runOn files start = .ok (result, final) ∧
        engine.runOn surroundedFiles otherStart = .ok (larger, otherFinal) ∧
        (result.exitCode = 1 → larger.exitCode = 1)) ∧
    ∀ (fs otherFs : FileSystem) (files surroundedFiles : List SourceFile)
      (milliseconds otherMilliseconds : Int),
      engine.sources fs = .ok files → engine.sources otherFs = .ok surroundedFiles →
      List.Forall₂ SourceFile.Surrounds files surroundedFiles →
      ∃ run final larger otherFinal, engine.run fs milliseconds start = .ok (run, final) ∧
        engine.run otherFs otherMilliseconds otherStart = .ok (larger, otherFinal) ∧
        (run.result.exitCode = 1 → larger.result.exitCode = 1) := by
  have hadd := add_growthOf hregistry
  constructor
  · intro files surroundedFiles hcontext hsurrounds
    obtain ⟨result, final, hrun, hverdict⟩ := exists_runOn_verdict hregistry hstart files
    obtain ⟨larger, otherFinal, hlarger, hlargerVerdict⟩ :=
      exists_runOn_verdict hregistry hother surroundedFiles
    exact ⟨result, final, larger, otherFinal, hrun, hlarger,
      exitCode_of_verdicts hregistry hcontext hsurrounds hverdict hlargerVerdict⟩
  · intro fs otherFs files surroundedFiles milliseconds otherMilliseconds hsources
      hotherSources hsurrounds
    obtain ⟨run, final, hrun, hverdict⟩ := exists_run_verdict hadd hstart hsources
      (refusal?_warningsOn_builtIn hregistry hstart files) milliseconds
    obtain ⟨larger, otherFinal, hlarger, hlargerVerdict⟩ :=
      exists_run_verdict hadd hother hotherSources
      (refusal?_warningsOn_builtIn hregistry hother surroundedFiles) otherMilliseconds
    have hcontext : ∀ file ∈ files, file.context = CodeContext.ofContent file.content :=
      fun _ hfile => context_of_sources hsources hfile
    exact ⟨run, final, larger, otherFinal, hrun, hlarger,
      exitCode_of_verdicts hregistry hcontext hsurrounds hverdict hlargerVerdict⟩

theorem sources_eq_of_shown {fs : FileSystem} {shown : List (String × String)}
    (h : (engine.sources fs).toOption.map
      (fun files => files.map fun file => (file.path, file.content)) =
      some shown) :
    engine.sources fs = .ok (shown.map fun (path, content) => .ofContent path content) := by
  cases hsources : engine.sources fs with
  | error fault =>
    rw [hsources] at h
    cases h
  | ok files =>
    rw [hsources, Except.toOption, Option.map_some, Option.some.injEq] at h
    have hself : ∀ file ∈ files, SourceFile.ofContent file.path file.content = id file :=
      fun file hfile =>
      congrArg (SourceFile.mk _ _) (context_of_sources hsources hfile).symm
    rw [← h, List.map_map]
    exact congrArg Except.ok ((List.map_congr_left hself).trans (List.map_id files)).symm

def chanceSource : String := "if (Math.random() < p) await pay()"

/-- The source after a line that handles errors and before one that waits. -/
def hushedSource : String := "try { seed() } catch (e) { }" ++ "
" ++ chanceSource ++ "
" ++ "await done"

def projectWith (content : String) : FileSystem where
  top := [("p", .directory [("src", .directory [
    ("a.js", .file (content.toList.map fun c => c.toNat.toUInt8))])])]

theorem exitCode_of_hushedSource : ∃ larger final,
    strictEngine.run (projectWith hushedSource) 0 Store.empty = .ok (larger, final) ∧
      larger.result.exitCode = 1 := by
  have hregistry : Registry.builtIn strictEngine.config.cascadeWindow = .ok strictEngine.registry :=
    rfl
  have hshown : ∀ source ∈ [chanceSource, hushedSource],
      (strictEngine.sources (projectWith source)).toOption.map
        (fun files => files.map fun file => (file.path, file.content)) =
            some [("src/a.js", source)] := by
    decide +kernel
  have hexit : ((strictEngine.run (projectWith chanceSource) 0 Store.empty).map
      fun done => done.1.result.exitCode).toOption = some 1 := by
    decide +kernel
  have hsurrounds :
      (SourceFile.ofContent "src/a.js" chanceSource).Surrounds
        (.ofContent "src/a.js" hushedSource) :=
    Or.inr ⟨"try { seed() } catch (e) { }", "await done", rfl⟩
  obtain ⟨run, final, larger, otherFinal, hrun, hlarger, hmono⟩ :=
    (exitCode_of_surrounded hregistry .refl .refl).2 _ _ _ _ 0 0
      (sources_eq_of_shown (hshown _ List.mem_cons_self))
      (sources_eq_of_shown (hshown _ (List.mem_cons_of_mem _ List.mem_cons_self)))
      (.cons hsurrounds .nil)
  rw [hrun] at hexit
  exact ⟨larger, otherFinal, hlarger, hmono (Option.some.inj hexit)⟩

end Engine

end RiskScan
