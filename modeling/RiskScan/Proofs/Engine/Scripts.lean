import RiskScan.Proofs.Engine.Checks
/-!
# Scripts

What checks do in a file can be written down before it is done. A script says which findings are
attached one after the other, what is done about each of them before the next one comes, and whether
there is a failure in the end. Nodes that are still to be made have no names in a script, so it does
not depend on the tree that it is performed on.
-/

namespace RiskScan

open Engine

/-- A node that is still to be made. -/
structure Bud where
  node : Node
  fresh : node.Fresh

/-- What can be done about a finding. -/
inductive Deed where
  /-- Attaches a child, which may depend on the finding. -/
  | child (bud : Bud) (dependent : Bool)
  | bump (delta : Value)

namespace Deed

def perform (finding : NodeId) : Deed → Analysis Unit
  | .child bud true => FollowUp.attachDependent finding bud.node
  | .child bud false => discard (Analysis.attach finding bud.node)
  | .bump delta => FollowUp.bump finding delta

def performAll (finding : NodeId) : List Deed → Analysis Unit
  | [] => pure ()
  | deed :: deeds => do
    deed.perform finding
    performAll finding deeds

end Deed

/-- A finding and what is done about it. -/
structure Plan where
  finding : Bud
  deeds : List Deed := []

namespace Plan

def perform (parent : NodeId) (plan : Plan) : Analysis NodeId := do
  let finding ← Analysis.attach parent plan.finding.node
  Deed.performAll finding plan.deeds
  return finding

def performAll (parent : NodeId) : List Plan → Analysis (List NodeId)
  | [] => return []
  | plan :: plans => do
    let finding ← plan.perform parent
    let findings ← performAll parent plans
    return finding :: findings

end Plan

structure Script where
  plans : List Plan := []
  /-- The failure that ends the script, if any. -/
  fault : Option Fault := none

namespace Script

def perform (parent : NodeId) (script : Script) : Analysis (List NodeId) := do
  let findings ← Plan.performAll parent script.plans
  match script.fault with
  | none => return findings
  | some fault => throw fault

/-- The second script is not begun if the first one fails. -/
def andThen (first second : Script) : Script :=
  match first.fault with
  | none => ⟨first.plans ++ second.plans, second.fault⟩
  | some fault => ⟨first.plans, some fault⟩

end Script

/-- An analyzer that has a script for each file. -/
def Analyzer.Scripted (analyzer : Analyzer) : Prop :=
  ∀ file, ∃ script : Script, ∀ branches : Branches,
    analyzer.analyze file branches = script.perform (branches.get analyzer.branch)

theorem Analysis.throw_bind {α β : Type} (fault : Fault) (next : α → Analysis β) :
    (throw fault >>= next : Analysis β) = throw fault := rfl

theorem Analysis.map_throw {α β : Type} (f : α → β) (fault : Fault) :
    (f <$> throw fault : Analysis β) = throw fault := rfl

namespace Plan

theorem performAll_append (parent : NodeId) (first second : List Plan) :
    performAll parent (first ++ second) = do
      let findings ← performAll parent first
      let more ← performAll parent second
      return findings ++ more := by
  induction first with
  | nil => simp [performAll]
  | cons plan plans ih => simp [performAll, ih]

end Plan

namespace Script

theorem perform_andThen (parent : NodeId) (first second : Script) :
    (first.andThen second).perform parent = do
      let findings ← first.perform parent
      let more ← second.perform parent
      return findings ++ more := by
  unfold andThen perform
  cases first.fault with
  | some fault => simp [Analysis.throw_bind]
  | none =>
    cases second.fault with
    | some fault => simp [Plan.performAll_append, Analysis.map_throw]
    | none => simp [Plan.performAll_append]

theorem perform_nil (parent : NodeId) : perform parent {} = pure [] := by
  simp [perform, Plan.performAll]

theorem perform_fault (parent : NodeId) (fault : Fault) : perform parent { fault := some fault } =
    throw fault := by
  simp [perform, Plan.performAll]

theorem perform_plan (parent : NodeId) (plan : Plan) : perform parent { plans := [plan] } = do
    let finding ← plan.perform parent
    return [finding] := by
  simp [perform, Plan.performAll]

end Script

/-! ### Checks have scripts -/

def FollowUp.deeds (followUp : FollowUp) (content : String) (context : CodeContext) : List Deed :=
  match followUp with
  | .none => []
  | .asyncOperations =>
    if context.hasAsyncOperations then
      [.child ⟨asyncRandomCompound context, ⟨rfl, rfl, rfl, rfl, rfl, rfl⟩⟩ true]
    else []
  | .stateManagement =>
    if context.hasStateManagement then
      [.bump stateConfidenceBump,
        .child ⟨stateManagementDetected context, ⟨rfl, rfl, rfl, rfl, rfl, rfl⟩⟩ true]
    else []
  | .missingErrorHandling =>
    if context.hasErrorHandling then []
    else [.child ⟨noErrorHandling, ⟨rfl, rfl, rfl, rfl, rfl, rfl⟩⟩ false]
  | .missingCleanup =>
    if hasCleanup content then []
    else [.child ⟨noEventCleanup, ⟨rfl, rfl, rfl, rfl, rfl, rfl⟩⟩ true]

theorem FollowUp.apply_eq (followUp : FollowUp) (finding : NodeId) (content : String)
    (context : CodeContext) :
    followUp.apply finding content context =
      Deed.performAll finding (followUp.deeds content context) := by
  cases followUp <;> unfold apply deeds <;> dsimp only
  case none => rfl
  all_goals split <;> simp [Deed.performAll, Deed.perform]

theorem Check.exists_script (check : Check) (file : SourceFile) : ∃ script : Script, ∀ parent,
    (do let finding ← check.run file parent; return finding.toList) = script.perform parent := by
  unfold Check.run
  dsimp only
  by_cases hcount : check.signature.count file.content = 0
  · refine ⟨{}, fun parent => ?_⟩
    simp [hcount, Script.perform_nil]
  · cases hfinding : check.signature.finding (check.signature.count file.content) file.path with
    | error fault =>
      refine ⟨{ fault := some fault }, fun parent => ?_⟩
      rw [Script.perform_fault]
      simp [hcount, Analysis.throw_bind, Analysis.map_throw]
    | ok node =>
      let plan : Plan := ⟨⟨node, Signature.fresh_of_finding hfinding⟩,
        check.followUp.deeds file.content file.context⟩
      refine ⟨{ plans := [plan] }, fun parent => ?_⟩
      simp [hcount, Script.perform_plan, Plan.perform, plan, FollowUp.apply_eq]

theorem Check.exists_script_runAll (checks : List Check) (file : SourceFile) :
    ∃ script : Script, ∀ parent, runAll file parent checks = script.perform parent := by
  induction checks with
  | nil => exact ⟨{}, fun parent => (Script.perform_nil parent).symm⟩
  | cons check checks ih =>
    obtain ⟨first, hfirst⟩ := check.exists_script file
    obtain ⟨rest, hrest⟩ := ih
    refine ⟨first.andThen rest, fun parent => ?_⟩
    rw [Script.perform_andThen, ← hfirst, ← hrest]
    simp [runAll]

theorem Draft.exists_script (draft : Draft) : ∃ script : Script, ∀ parent,
    (do let finding ← Analysis.attachDraft parent draft; return [finding]) =
      script.perform parent := by
  unfold Analysis.attachDraft
  cases hnode : draft.node with
  | error error =>
    exact ⟨{ fault := some error.fault }, fun parent => by rw [Script.perform_fault]; rfl⟩
  | ok node =>
    let plan : Plan := ⟨⟨node, Draft.fresh_of_node hnode⟩, []⟩
    refine ⟨{ plans := [plan] }, fun parent => ?_⟩
    simp [Script.perform_plan, Plan.perform, plan, Deed.performAll]

theorem Interruption.exists_script (drafts : List Draft) (fault : Fault) : ∃ script :
    Script, ∀ parent,
    (do attachAll parent drafts; throw fault) = script.perform parent := by
  induction drafts with
  | nil => exact ⟨{ fault := some fault }, fun parent => by rw [Script.perform_fault]; rfl⟩
  | cons draft drafts ih =>
    obtain ⟨first, hfirst⟩ := draft.exists_script
    obtain ⟨rest, hrest⟩ := ih
    refine ⟨first.andThen rest, fun parent => ?_⟩
    rw [Script.perform_andThen, ← hfirst, ← hrest]
    simp [attachAll, Functor.discard, map_const, Analysis.map_throw]

theorem Analyzer.Declared.scripted {analyzer : Analyzer} (h : analyzer.Declared) :
    analyzer.Scripted := by
  intro file
  obtain ⟨checked, hchecked⟩ := Check.exists_script_runAll analyzer.checks file
  cases hinterruption : analyzer.interruption with
  | none =>
    refine ⟨checked, fun branches => ?_⟩
    rw [h, hinterruption, ← hchecked]
    rfl
  | some interruption =>
    by_cases hconcerns : interruption.concerns file = true
    · obtain ⟨script, hscript⟩ :=
        Interruption.exists_script interruption.attached ⟨.runtime, interruption.message⟩
      refine ⟨script, fun branches => ?_⟩
      rw [h, hinterruption, ← hscript]
      simp [Check.perform, hconcerns, Analysis.throw_bind]
    · refine ⟨checked, fun branches => ?_⟩
      rw [h, hinterruption, ← hchecked]
      simp [Check.perform, hconcerns]

theorem scripted_falteringAnalyzer : falteringAnalyzer.Scripted := by
  intro file
  let note : Node :=
    { kind := "NOTE"
      description := "Looked at"
      severity := .low
      evidence := none
      confidence := .one
      reasoning := none }
  refine ⟨{ plans := [⟨⟨note, ⟨rfl, rfl, rfl, rfl, rfl, rfl⟩⟩, []⟩]
            fault := if file.context.hasAsyncOperations then some ⟨.runtime, "cannot follow"⟩
              else none },
    fun branches => ?_⟩
  unfold falteringAnalyzer Script.perform
  cases hasync : file.context.hasAsyncOperations <;>
    simp [Plan.performAll, Plan.perform, Deed.performAll, Branches.get, note, hasync]

theorem declared_or_scripted_of_falteringEngine {analyzer : Analyzer}
    (h : analyzer ∈ falteringEngine.registry) :
    analyzer.Declared ∨ analyzer.Scripted := by
  simp only [falteringEngine, List.mem_cons, List.not_mem_nil, or_false] at h
  rcases h with rfl | rfl | rfl | rfl | rfl
  · exact Or.inl fun _ _ => rfl
  · exact Or.inl fun _ _ => rfl
  · exact Or.inl fun _ _ => rfl
  · exact Or.inl fun _ _ => rfl
  · exact Or.inr scripted_falteringAnalyzer

end RiskScan
