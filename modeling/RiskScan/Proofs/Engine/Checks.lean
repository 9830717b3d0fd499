import RiskScan.Engine
import RiskScan.Proofs.Engine.Growth
/-!
# What checks add

A check that matches adds a finding and perhaps a child of it, in this order. Nothing else of the
tree is looked at, so a file alone decides what the checks of an analyzer add to a branch.
-/

namespace RiskScan

open Store Engine

/-! ### Findings and their children -/

/-- A finding has been attached to a branch, in the next slot, and its marks have come to be
these. -/
structure Sprouted (trunk : Trunk) (branch : Branch) (base : Store) (marks : Marks)
    (store : Store) : Prop
    extends Grows trunk branch { marks := marks, attached := 1 } [base.nodes.size] base store where
  stands : trunk.Stands base
  registered : (store.node base.nodes.size).membership =
    some ⟨trunk.tree, (base.marks trunk.tree).length⟩

/-- A child whose only dependency is the finding before it. -/
def Node.dependentMark (node : Node) : Mark :=
  { node.mark with dependencies := [0] }

variable {trunk : Trunk} {branch : Branch} {base store : Store} {marks : Marks} {mark : Mark}
  {node : Node}

namespace Sprouted

theorem sound (h : Sprouted trunk branch base marks store) : ArenaSound store :=
  (h.stands.proceeds h.proceeds).reachable.arenaSound

theorem hang (hstands : trunk.Stands base) {slot : Nat}
    (hslot : (base.node (trunk.branches.get branch)).membership = some ⟨trunk.tree, slot⟩)
    (hfresh : node.Fresh) : Sprouted trunk branch base [node.mark]
      (base.hang (trunk.branches.get branch) ⟨trunk.tree, slot⟩ node) where
  toGrows := .hang hstands hslot hfresh
  stands := hstands
  registered := by
    rw [node_hang (hstands.branch_lt branch), if_pos rfl, length_marks]

theorem attach (h : Sprouted trunk branch base marks store) (hfresh : node.Fresh) :
    ∃ after, Analysis.attach base.nodes.size node store = .ok store.nodes.size after ∧
      Sprouted trunk branch base (marks ++ [node.mark]) after ∧
      (after.node store.nodes.size).mark = node.mark ∧
      (after.node store.nodes.size).membership =
        some ⟨trunk.tree, (base.marks trunk.tree).length + marks.length⟩ := by
  have hlt := lt_size_of_membership h.registered
  have hmarks := marks_hang h.sound h.registered node
  have hsize : (store.tree trunk.tree).nodes.size =
      (base.marks trunk.tree).length + marks.length := by
    rw [← length_marks, h.marks, Marks.length_followedBy]
  refine ⟨_, Analysis.attach_eq h.registered hfresh, ?_, ?_, ?_⟩
  · refine ⟨⟨⟨h.proceeds.trans (proceeds_hang h.registered hfresh), fun other => ?_⟩, ?_,
      h.attached⟩,
      h.stands, ?_⟩
    · have hother := h.stands.branch_lt other
      rw [← h.children, node_hang hlt, if_neg (Nat.ne_of_lt (hother.trans hlt)),
        if_neg (Nat.ne_of_lt hother)]
    · rw [hmarks, h.marks, Marks.followedBy, Marks.followedBy, List.map_append, List.map_singleton,
        hfresh.shift_mark, List.append_assoc]
    · rw [node_hang hlt, if_neg (Nat.ne_of_lt hlt), if_pos rfl]
      exact h.registered
  · rw [node_hang hlt, if_pos rfl]
    rfl
  · rw [node_hang hlt, if_pos rfl, hsize]

theorem attachDependent (h : Sprouted trunk branch base [mark] store) (hfresh : node.Fresh) :
    ∃ after, FollowUp.attachDependent base.nodes.size node store = .ok () after ∧
      Sprouted trunk branch base [mark, node.dependentMark] after := by
  obtain ⟨middle, hattach, hmiddle, hmark, hchild⟩ := h.attach hfresh
  have hdepend := addDependency_eq hchild hmiddle.registered
  have hproceeds := proceeds_depend hchild hmiddle.registered
  have hmarks := marks_depend hmiddle.sound hchild (base.marks trunk.tree).length
  refine ⟨_, (Analysis.bind_of_ok hattach).trans ?_, ⟨⟨⟨hmiddle.proceeds.trans hproceeds,
    fun other => ?_⟩, ?_, h.attached⟩, h.stands, ?_⟩⟩
  · rw [Analysis.ofStore, hdepend]
  · rw [depend_keeps Node.children (fun _ _ => rfl), hmiddle.children]
  · rw [hmarks, hmiddle.marks, hmark]
    simp [Marks.followedBy, Mark.shift, Node.dependentMark, Node.mark, hfresh.dependencies,
      insertSlot]
  · rw [depend_keeps Node.membership (fun _ _ => rfl), hmiddle.registered]

theorem mark_finding (h : Sprouted trunk branch base [mark] store) :
    (store.node base.nodes.size).mark = mark.shift (base.marks trunk.tree).length := by
  have hget := Marks.getElem?_followedBy_right (base.marks trunk.tree) [mark] 0
  rw [← h.marks, Nat.zero_add, getElem?_marks, h.sound.nodeIn? h.registered] at hget
  exact Option.some.inj hget

theorem setConfidence (h : Sprouted trunk branch base [mark] store) {delta : Value}
    {confidence : Confidence} (hadd : mark.confidence.add delta = .ok confidence) :
    ∃ after, FollowUp.bump base.nodes.size delta store = .ok () after ∧
      Sprouted trunk branch base [{ mark with confidence := confidence }] after := by
  have hmark := h.mark_finding
  have hconfidence : (store.node base.nodes.size).confidence.add delta = .ok confidence := by
    rw [← hadd]
    exact congrArg (fun mark => mark.confidence.add delta) hmark
  have hproceeds := proceeds_bump (lt_size_of_membership h.registered) hconfidence
  have hkeeps : ∀ {β : Type} (part : Node → β),
      (∀ node, part { node with confidence := confidence } = part node) → ∀ id,
        part ((store.setConfidence base.nodes.size confidence).node id) = part (store.node id) :=
    fun part hpart => modifyNode_keeps part hpart store base.nodes.size
  refine ⟨_, ?_, ⟨⟨⟨h.proceeds.trans hproceeds, fun other => ?_⟩, ?_, h.attached⟩, h.stands, ?_⟩⟩
  · rw [FollowUp.bump, bumpConfidence, hconfidence]
    rfl
  · rw [hkeeps Node.children (fun _ => rfl), h.children]
  · have hset := marks_modifyNode h.sound h.registered fun node =>
      { node with confidence := confidence }
    have hnew : ({ store.node base.nodes.size with confidence := confidence } : Node).mark =
        ({ mark with confidence := confidence } : Mark).shift (base.marks trunk.tree).length :=
      congrArg (fun mark => { mark with confidence := confidence }) hmark
    rw [Store.setConfidence, hset, h.marks, hnew]
    simp [Marks.followedBy]
  · rw [hkeeps Node.membership (fun _ => rfl), h.registered]

end Sprouted

/-! ### Follow-ups -/

/-- What a finding comes to with its follow-up. -/
def FollowUp.growth (followUp : FollowUp) (finding : Mark) (content : String)
    (context : CodeContext) :
    Growth :=
  let alone : Growth := { marks := [finding], attached := 1 }
  match followUp with
  | .none => alone
  | .asyncOperations =>
    if context.hasAsyncOperations then
      { marks := [finding, (asyncRandomCompound context).dependentMark], attached := 1 }
    else alone
  | .stateManagement =>
    if context.hasStateManagement then
      match finding.confidence.add stateConfidenceBump with
      | .ok confidence =>
        { marks := [{ finding with confidence }, (stateManagementDetected context).dependentMark]
          attached := 1 }
      | .error _ => { alone with fails := true }
    else alone
  | .missingErrorHandling =>
    if context.hasErrorHandling then alone
    else { marks := [finding, noErrorHandling.mark], attached := 1 }
  | .missingCleanup =>
    if hasCleanup content then alone
    else { marks := [finding, noEventCleanup.dependentMark], attached := 1 }

/-- From a store in which a finding has sprouted, an analysis goes on to a growth with this
finding. -/
def GoesOn (trunk : Trunk) (branch : Branch) (base : Store) (growth : Growth) (store : Store)
    (analysis : Analysis Unit) : Prop :=
  ∃ after, Grows trunk branch growth [base.nodes.size] base after ∧
    ((growth.fails = true ∧ ∃ fault, analysis store = .error fault after) ∨
      (growth.fails = false ∧ analysis store = .ok () after))

namespace Sprouted

theorem goesOn_pure (h : Sprouted trunk branch base marks store) :
    GoesOn trunk branch base { marks := marks, attached := 1 } store (pure ()) :=
  ⟨store, h.toGrows, Or.inr ⟨rfl, rfl⟩⟩

theorem goesOn_attach (h : Sprouted trunk branch base [mark] store) (hfresh : node.Fresh) :
    GoesOn trunk branch base { marks := [mark, node.mark], attached := 1 } store
      (discard (Analysis.attach base.nodes.size node)) := by
  obtain ⟨after, hattach, hafter, -⟩ := h.attach hfresh
  exact ⟨after, hafter.toGrows, Or.inr ⟨rfl, Analysis.discard_of_ok hattach⟩⟩

theorem goesOn_attachDependent (h : Sprouted trunk branch base [mark] store) (hfresh : node.Fresh) :
    GoesOn trunk branch base { marks := [mark, node.dependentMark], attached := 1 } store
      (FollowUp.attachDependent base.nodes.size node) := by
  obtain ⟨after, hattach, hafter⟩ := h.attachDependent hfresh
  exact ⟨after, hafter.toGrows, Or.inr ⟨rfl, hattach⟩⟩

theorem goesOn_bump (h : Sprouted trunk branch base [mark] store) (delta : Value)
    (hfresh : node.Fresh) :
    GoesOn trunk branch base
      (match mark.confidence.add delta with
        | .ok confidence =>
          { marks := [{ mark with confidence := confidence }, node.dependentMark], attached := 1 }
        | .error _ => { marks := [mark], attached := 1, fails := true })
      store (do
        FollowUp.bump base.nodes.size delta
        FollowUp.attachDependent base.nodes.size node) := by
  cases hadd : mark.confidence.add delta with
  | ok confidence =>
    obtain ⟨middle, hbump, hmiddle⟩ := h.setConfidence hadd
    obtain ⟨after, hattach, hafter⟩ := hmiddle.attachDependent hfresh
    exact ⟨after, hafter.toGrows, Or.inr ⟨rfl, (Analysis.bind_of_ok hbump).trans hattach⟩⟩
  | error error =>
    have hconfidence : (store.node base.nodes.size).confidence.add delta = .error error := by
      rw [← hadd]
      exact congrArg (fun mark => mark.confidence.add delta) h.mark_finding
    have hbump : FollowUp.bump base.nodes.size delta store = .error error.fault store := by
      rw [FollowUp.bump, bumpConfidence, hconfidence]
      rfl
    refine ⟨store, ⟨h.toAttaches, h.marks, h.attached⟩, Or.inl ⟨rfl, error.fault, ?_⟩⟩
    exact Analysis.bind_of_error hbump

theorem followUp (h : Sprouted trunk branch base [mark] store) (followUp : FollowUp)
    (content : String) (context : CodeContext) :
    GoesOn trunk branch base (followUp.growth mark content context) store
      (followUp.apply base.nodes.size content context) := by
  cases followUp with
  | none => exact h.goesOn_pure
  | asyncOperations =>
    unfold FollowUp.growth FollowUp.apply
    dsimp only
    split
    · exact h.goesOn_attachDependent ⟨rfl, rfl, rfl, rfl, rfl, rfl⟩
    · exact h.goesOn_pure
  | stateManagement =>
    unfold FollowUp.growth FollowUp.apply
    dsimp only
    split
    · exact h.goesOn_bump _ ⟨rfl, rfl, rfl, rfl, rfl, rfl⟩
    · exact h.goesOn_pure
  | missingErrorHandling =>
    unfold FollowUp.growth FollowUp.apply
    dsimp only
    split
    · exact h.goesOn_pure
    · exact h.goesOn_attach ⟨rfl, rfl, rfl, rfl, rfl, rfl⟩
  | missingCleanup =>
    unfold FollowUp.growth FollowUp.apply
    dsimp only
    split
    · exact h.goesOn_pure
    · exact h.goesOn_attachDependent ⟨rfl, rfl, rfl, rfl, rfl, rfl⟩

end Sprouted

/-! ### Checks and interruptions -/

theorem Signature.fresh_of_finding {signature : Signature} {count : Int} {file : String}
    (h : signature.finding count file = .ok node) : node.Fresh := by
  unfold Signature.finding at h
  dsimp only at h
  cases hfill : Template.fill [("count", FieldValue.number count), ("file", FieldValue.text file)]
      signature.evidence with
  | error error =>
    rw [hfill] at h
    cases h
  | ok evidence =>
    rw [hfill] at h
    let draft : Draft :=
      { kind := signature.name
        description := signature.description
        severity := .text signature.severity.label
        evidence := some evidence
        confidence := signature.confidence }
    change ((draft.node).mapError NodeError.fault >>= fun node => _) = _ at h
    cases hdraft : draft.node with
    | error error =>
      rw [hdraft] at h
      cases h
    | ok made =>
      rw [hdraft] at h
      cases h
      have hfresh := Draft.fresh_of_node hdraft
      exact ⟨hfresh.children, hfresh.hasParent, hfresh.membership, hfresh.parentSlot,
        hfresh.dependencies, hfresh.memo⟩

def Check.growth (check : Check) (file : SourceFile) : Growth :=
  let count := check.signature.count file.content
  if count = 0 then {}
  else
    match check.signature.finding count file.path with
    | .ok finding => check.followUp.growth finding.mark file.content file.context
    | .error _ => { fails := true }

def Draft.growth (draft : Draft) : Growth :=
  match draft.node with
  | .ok node => { marks := [node.mark], attached := 1 }
  | .error _ => { fails := true }

/-- What some analyses add one after the other, until one of them fails. -/
def Growth.sequence (growths : List Growth) : Growth :=
  growths.foldr Growth.andThen {}

/-- What checks add, unless an interruption comes first. -/
def Check.growthOf (checks : List Check) (interruption : Option Interruption) (file : SourceFile) :
    Growth :=
  let checked := Growth.sequence (checks.map fun check => check.growth file)
  match interruption with
  | none => checked
  | some interruption =>
    if interruption.concerns file then
      (Growth.sequence (interruption.attached.map Draft.growth)).andThen { fails := true }
    else checked

namespace Yields

theorem run (check : Check) (file : SourceFile) :
    Yields trunk branch (check.growth file) (check.run file (trunk.branches.get branch))
      fun finding found => finding.toList = found := by
  unfold Check.growth Check.run
  dsimp only
  split
  · exact pure rfl
  · cases hfinding : check.signature.finding (check.signature.count file.content) file.path with
    | error fault =>
      have hthrow : Yields trunk branch { fails := true } (MonadExcept.throw fault : Analysis Node)
          fun _ _ => True := throw fault
      exact hthrow.bind_of_fails rfl
    | ok node =>
      have hfresh := Signature.fresh_of_finding hfinding
      intro store hstands
      obtain ⟨slot, hslot⟩ := hstands.branch branch
      obtain ⟨after, hgrows, hend⟩ := (Sprouted.hang hstands hslot hfresh).followUp check.followUp
        file.content file.context
      refine ⟨[store.nodes.size], after, hgrows, hend.imp ?_ ?_⟩
      · rintro ⟨hfails, fault, hfault⟩
        refine ⟨hfails, fault, ?_⟩
        exact (Analysis.bind_of_ok (Analysis.attach_eq hslot hfresh)).trans
          (Analysis.bind_of_error hfault)
      · rintro ⟨hfails, hdone⟩
        refine ⟨hfails, some store.nodes.size, ?_, rfl⟩
        exact (Analysis.bind_of_ok (Analysis.attach_eq hslot hfresh)).trans
          (Analysis.bind_of_ok hdone)

theorem runAll (checks : List Check) (file : SourceFile) :
    Yields trunk branch (Growth.sequence (checks.map fun check => check.growth file))
      (Check.runAll file (trunk.branches.get branch) checks) (· = ·) := by
  induction checks with
  | nil => exact pure rfl
  | cons check checks ih =>
    refine (run check file).bind fun finding found hfinding => ?_
    refine ih.map fun findings more hfindings => ?_
    rw [hfinding, hfindings]

theorem attachDraft (draft : Draft) : Yields trunk branch draft.growth
    (discard (Analysis.attachDraft (trunk.branches.get branch) draft)) fun _ _ => True := by
  unfold Draft.growth Analysis.attachDraft
  cases hnode : draft.node with
  | ok node =>
    exact (attach (Draft.fresh_of_node hnode)).map fun _ _ _ => trivial
  | error error => exact throw error.fault

theorem attachAll (drafts : List Draft) :
    Yields trunk branch (Growth.sequence (drafts.map Draft.growth))
    (Interruption.attachAll (trunk.branches.get branch) drafts) fun _ _ => True := by
  induction drafts with
  | nil => exact pure trivial
  | cons draft drafts ih => exact (attachDraft draft).bind fun _ _ _ => ih

theorem perform (checks : List Check) (interruption : Option Interruption) (file : SourceFile) :
    Yields trunk branch (Check.growthOf checks interruption file)
      (Check.perform checks interruption file (trunk.branches.get branch)) (· = ·) := by
  unfold Check.growthOf Check.perform
  cases interruption with
  | none => exact runAll checks file
  | some interruption =>
    dsimp only
    split
    · refine (attachAll interruption.attached).bind fun _ attached _ => ?_
      have hthrow : Yields trunk branch { fails := true }
          (MonadExcept.throw ⟨.runtime, interruption.message⟩ : Analysis Unit) fun _ _ => True :=
        throw _
      exact hthrow.bind_of_fails rfl
    · exact runAll checks file

end Yields

/-- An analyzer that is made of checks, as all built-in ones are. -/
def Analyzer.Declared (analyzer : Analyzer) : Prop :=
  ∀ file branches, analyzer.analyze file branches =
    Check.perform analyzer.checks analyzer.interruption file (branches.get analyzer.branch)

def Analyzer.growth (analyzer : Analyzer) (file : SourceFile) : Growth :=
  Check.growthOf analyzer.checks analyzer.interruption file

theorem Analyzer.Declared.yields {analyzer : Analyzer} (h : analyzer.Declared) (trunk : Trunk)
    (file : SourceFile) : Yields trunk analyzer.branch (analyzer.growth file)
      (analyzer.analyze file trunk.branches) (· = ·) := by
  rw [h]
  exact Yields.perform analyzer.checks analyzer.interruption file

/-- An analyzer for which a file alone decides what is added, and whether it fails. -/
def Analyzer.Uniform (analyzer : Analyzer) : Prop :=
  ∀ file, ∃ growth, ∀ trunk,
    Yields trunk analyzer.branch growth (analyzer.analyze file trunk.branches) (· = ·)

theorem Analyzer.Declared.uniform {analyzer : Analyzer} (h : analyzer.Declared) :
    analyzer.Uniform :=
  fun file => ⟨_, fun trunk => h.yields trunk file⟩

/-- An analyzer that leaves a note for each file, and then fails if there is asynchronous work. -/
def falteringAnalyzer : Analyzer where
  name := "FalteringAnalyzer"
  branch := .codeExecution
  checks := []
  analyze file branches := do
    let note ← Analysis.attach branches.codeExecution {
      kind := "NOTE"
      description := "Looked at"
      severity := .low
      evidence := none
      confidence := .one
      reasoning := none }
    if file.context.hasAsyncOperations then throw ⟨.runtime, "cannot follow"⟩
    else return [note]

theorem uniform_falteringAnalyzer : falteringAnalyzer.Uniform := by
  intro file
  refine ⟨Growth.andThen _ { fails := file.context.hasAsyncOperations }, fun trunk =>
    (Yields.attach ⟨rfl, rfl, rfl, rfl, rfl, rfl⟩).bind fun note found hfound => ?_⟩
  cases hasync : file.context.hasAsyncOperations with
  | false => exact Yields.pure (by rw [hfound, List.append_nil])
  | true => exact Yields.throw _

/-- The engine with the built-in analyzers, and one that may fail after leaving a note. -/
def falteringEngine : Engine :=
  ⟨.ofString "/p", {},
    [.codeExecution, .stateManagement, .asyncConcurrency (.eventCascade 10), .dataFlow,
    falteringAnalyzer]⟩

theorem declared_or_uniform_of_falteringEngine {analyzer : Analyzer}
    (h : analyzer ∈ falteringEngine.registry) : analyzer.Declared ∨ analyzer.Uniform := by
  simp only [falteringEngine, List.mem_cons, List.not_mem_nil, or_false] at h
  rcases h with rfl | rfl | rfl | rfl | rfl
  · exact Or.inl fun _ _ => rfl
  · exact Or.inl fun _ _ => rfl
  · exact Or.inl fun _ _ => rfl
  · exact Or.inl fun _ _ => rfl
  · exact Or.inr uniform_falteringAnalyzer

theorem Registry.builtIn_eq {window : Nat} {registry : Registry}
    (h : Registry.builtIn window = .ok registry) :
    registry = [.codeExecution, .stateManagement, .asyncConcurrency (.eventCascade window),
      .dataFlow] := by
  unfold Registry.builtIn Signature.eventCascade? at h
  split at h
  · cases h
    rfl
  · cases h

theorem Registry.declared_of_builtIn {window : Nat} {registry : Registry}
    (h : Registry.builtIn window = .ok registry) {analyzer : Analyzer}
    (hmem : analyzer ∈ registry) :
    analyzer.Declared := by
  rw [builtIn_eq h] at hmem
  simp only [List.mem_cons, List.not_mem_nil, or_false] at hmem
  rcases hmem with rfl | rfl | rfl | rfl <;> exact fun _ _ => rfl

end RiskScan
