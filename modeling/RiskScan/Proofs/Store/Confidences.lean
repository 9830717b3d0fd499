import RiskScan.Proofs.Confidence.Saturation
import RiskScan.Proofs.Store.Failures
import RiskScan.Proofs.Store.Kinds
/-!
# Confidences

The confidence of a node changes only where it is set or bumped, by the adjustment that is named
there. A node starts with the confidence of its draft. An operation that fails leaves every
confidence as it is, even if it is a registration that has gone half-way.
-/

namespace RiskScan

open Confidence (Adjustment)

/-- The adjustments of the confidence of a node that an operation makes. -/
def Operation.adjustments (id : NodeId) : Operation → List Adjustment
  | setConfidence target value => if target = id then [.assign value] else []
  | bumpConfidence target delta => if target = id then [.add delta] else []
  | _ => []

variable {store after : Store} {id : NodeId}

theorem Draft.ofValue_of_node {draft : Draft} {node : Node} (h : draft.node = .ok node) :
    Confidence.ofValue draft.confidence = .ok node.confidence := by
  unfold Draft.node at h
  obtain ⟨severity, -, h⟩ := Except.exists_of_bind_eq_ok h
  obtain ⟨confidence, hconfidence, h⟩ := Except.exists_of_bind_eq_ok h
  cases h
  exact Except.eq_ok_of_mapError hconfidence

namespace Store

theorem lasting_confidence : Lasting Node.confidence := by
  constructor <;> exact fun _ _ => rfl

/-- A store after a confidence has been worked out for a node, or has been refused. -/
def settle (store : Store) (target : NodeId) : Except ConfidenceError Confidence → Store
  | .ok confidence => store.setConfidence target confidence
  | .error _ => store

theorem confidence_settle (store : Store) (target : NodeId)
    (result : Except ConfidenceError Confidence) (hid : id < store.nodes.size) :
    ((store.settle target result).node id).confidence =
      if target = id then result.toOption.getD (store.node id).confidence else
        (store.node id).confidence := by
  cases result with
  | error error => exact (ite_self _).symm
  | ok confidence =>
    rw [settle, setConfidence, node_modifyNode]
    by_cases htarget : target = id
    · subst htarget
      rw [if_pos ⟨rfl, hid⟩, if_pos rfl]
      rfl
    · rw [if_neg fun hsame => htarget hsame.1, if_neg htarget]

end Store

theorem Operation.after_setConfidence_eq (target : NodeId) (value : Value) (store : Store) :
    (setConfidence target value).after store = store.settle target (Confidence.ofValue value) := by
  simp only [Operation.after, perform, ofNode]
  cases Confidence.ofValue value <;> rfl

theorem Operation.after_bumpConfidence_eq (target : NodeId) (delta : Value) (store : Store) :
    (bumpConfidence target delta).after store =
      store.settle target ((store.node target).confidence.add delta) := by
  simp only [Operation.after, perform, ofNode, Store.bumpConfidence]
  cases (store.node target).confidence.add delta <;> rfl

namespace Store

/-- An operation adjusts the confidence of a node, or leaves it alone. -/
theorem confidence_after (hsound : ArenaSound store) {operation : Operation}
    (hknown : store.knows operation) (hid : id < store.nodes.size) :
    ((operation.after store).node id).confidence =
      (store.node id).confidence.adjusted (operation.adjustments id) := by
  cases operation with
  | setConfidence target value =>
    rw [Operation.after_setConfidence_eq, confidence_settle _ _ _ hid, Operation.adjustments]
    split <;> rfl
  | bumpConfidence target delta =>
    rw [Operation.after_bumpConfidence_eq, confidence_settle _ _ _ hid, Operation.adjustments]
    split
    · rename_i htarget
      rw [htarget]
      rfl
    · rfl
  | _ => exact lasting_confidence.part_after hsound rfl hknown hid

/-- Operations adjust the confidence of a node one after the other. -/
theorem confidence_run (hsound : ArenaSound store) {allowed : Operation → Bool}
    (operations : List Operation) (hadmits : store.admits allowed operations)
    (hid : id < store.nodes.size) :
    ((store.run operations).node id).confidence =
      (store.node id).confidence.adjusted (operations.flatMap (Operation.adjustments id)) := by
  induction operations generalizing store with
  | nil => rfl
  | cons operation operations ih =>
    simp only [admits, Bool.and_eq_true] at hadmits
    obtain ⟨⟨hallowed, hknown⟩, hrest⟩ := hadmits
    obtain ⟨hafter, hextends⟩ := hsound.step hknown
    rw [List.flatMap_cons, Confidence.adjusted_append, ← confidence_after hsound hknown hid]
    exact ih hafter hrest (Nat.lt_of_lt_of_le hid hextends.size_le)

/-- A new node has the confidence that its draft asks for. -/
theorem confidence_of_create {draft : Draft}
    (h : (Operation.create draft).perform store = .ok () after) :
    Confidence.ofValue draft.confidence = .ok (after.node store.nodes.size).confidence := by
  simp only [Operation.perform, Operation.ofNode] at h
  cases hnode : draft.node with
  | error error =>
    rw [hnode] at h
    cases h
  | ok node =>
    rw [hnode] at h
    cases h
    rw [node_create, if_pos rfl]
    exact Draft.ofValue_of_node hnode

/-- An operation that fails leaves the confidences of all nodes as they are. -/
theorem confidence_of_error (hsound : ArenaSound store) {operation : Operation}
    {error : OperationError} (hknown : store.knows operation)
    (h : operation.perform store = .error error after) (hid : id < store.nodes.size) :
    (after.node id).confidence = (store.node id).confidence := by
  have hafter : operation.after store = after := by
    rw [Operation.after, h]
  cases operation with
  | setConfidence | bumpConfidence =>
    unfold Operation.perform at h
    rw [Operation.eq_of_ofNode_error h]
  | _ =>
    rw [← hafter, confidence_after hsound hknown hid]
    rfl

/-- Confidences stay in the unit interval, whatever they are adjusted by: what cannot be read as a
number is refused, and an infinite value leads to an end of the interval. From then on a node keeps
the confidence that it was made with, but for the adjustments that were made to it, and what fails
adjusts nothing. -/
theorem confidence_saturates (hreachable : Reachable store) :
    (∀ (adjustment : Adjustment) (confidence : Confidence), adjustment.Saturates confidence) ∧
    (∀ draft after, (Operation.create draft).perform store = .ok () after →
      Confidence.ofValue draft.confidence = .ok (after.node store.nodes.size).confidence) ∧
    (∀ operations, store.admits (fun _ => true) operations →
      (∀ id, let confidence := ((store.run operations).node id).confidence.value
        0.0 ≤ confidence ∧ confidence ≤ 1.0 ∧ confidence.isNaN = false) ∧
      (∀ id < store.nodes.size, ((store.run operations).node id).confidence =
        (store.node id).confidence.adjusted (operations.flatMap (Operation.adjustments id)))) ∧
    (∀ operation error after, store.knows operation → operation.perform store = .error error after →
      ∀ id < store.nodes.size, (after.node id).confidence = (store.node id).confidence) := by
  have hsound := hreachable.arenaSound
  refine ⟨Adjustment.saturates, fun draft after => confidence_of_create,
    fun operations hadmits => ?_, ?_⟩
  · refine ⟨fun id => ?_, fun id => confidence_run hsound operations hadmits⟩
    exact ⟨Confidence.nonneg _, Confidence.le_one _, Confidence.isNaN_value _⟩
  · exact fun operation error after hknown herror id => confidence_of_error hsound hknown herror

/-- A node that is found to be almost certain. -/
def nearlyCertain : List Operation :=
  [.create {
    kind := "GETTER"
    description := "getter"
    severity := .text "high"
    confidence := .float 0.95 }]

/-- Bumps beyond the end, by no number, by nothing, by a number that is too large for a float, and
by an infinite one, with a text in between. -/
def wildBumps : List Operation :=
  [.bumpConfidence 0 (.float 0.15), .bumpConfidence 0 (.float (0.0 / 0.0)),
    .setConfidence 0 (.text " 0.25 "),
    .bumpConfidence 0 .null, .bumpConfidence 0 (.int (Nat.pow 10 400)),
    .bumpConfidence 0 (.text "-Infinity"),
    .bumpConfidence 0 (.float 0.5)]

theorem confidence_of_wildBumps : ∃ store, Reachable store ∧
    (store.node 0).confidence.value = 0.95 ∧
    ((store.run wildBumps).node 0).confidence.value = 0.5 ∧
    ∃ error after, (Operation.bumpConfidence 0 .null).perform store = .error error after ∧
      (after.node 0).confidence.value = 0.95 := by
  have hreachable : Reachable (empty.run nearlyCertain) :=
    reaches_run .refl nearlyCertain (by decide +kernel)
  have hmade : ((empty.run nearlyCertain).node 0).confidence.value = 0.95 := by decide +kernel
  have hzero : 0 < (empty.run nearlyCertain).nodes.size := by decide +kernel
  obtain ⟨-, -, hruns, hfails⟩ := confidence_saturates hreachable
  have hrun := (hruns wildBumps (by decide +kernel)).2 0 hzero
  have hnull : ∃ error after, (Operation.bumpConfidence 0 .null).perform (empty.run nearlyCertain) =
      .error error after := ⟨_, _, rfl⟩
  obtain ⟨error, after, hnull⟩ := hnull
  refine ⟨_, hreachable, hmade, ?_, error, after, hnull, ?_⟩
  · rw [hrun]
    decide +kernel
  · rw [hfails _ error after (by decide +kernel) hnull 0 hzero, hmade]

end Store

end RiskScan
