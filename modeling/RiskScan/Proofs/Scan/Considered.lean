import RiskScan.Proofs.Scan.Roots
/-!
# The roots that a scan looks at

A scan looks at one root after the other. It walks those that are directories and records the others
as missing, until the files it has collected fill the room. What is left of the roots then is
neither walked nor recorded, and which roots these are depends on all files below the earlier ones.
-/

namespace RiskScan.Scope

variable {scope : Scope} {fs : FileSystem} {ways : Path → List (List String)} {room : Nat}
    {root : String}
  {roots walked : List String} {scan : Scan}

/-- How a scan of some roots goes: which of them it walks, and what it gives. -/
inductive Walks (scope : Scope) (fs : FileSystem) :
    (room : Nat) → (roots walked : List String) → Scan → Prop where
  | done {room : Nat} : Walks scope fs room [] [] {}
  | full {roots : List String} : Walks scope fs 0 roots [] {}
  | missing {room : Nat} {root : String} {roots walked : List String} {scan : Scan}
      (absent : fs.hasDirectory (scope.rootPath root) = .ok false)
      (rest : Walks scope fs (room + 1) roots walked scan) :
      Walks scope fs (room + 1) (root :: roots) walked (scan.addMissing root)
  | walked {room : Nat} {root : String} {roots walked : List String} {haul : Haul} {scan : Scan}
      (present : fs.hasDirectory (scope.rootPath root) = .ok true)
      (walk : scope.walk fs scope.levels (room + 1) (scope.rootPath root) = haul)
      (rest : Walks scope fs (room + 1 - haul.files.length) roots walked scan) :
      Walks scope fs (room + 1) (root :: roots) (root :: walked) (scan.addHaul haul)

/-- There is only one way in which a scan goes. -/
theorem Walks.unique {others : List String} {other : Scan}
    (h : scope.Walks fs room roots walked scan) (hother : scope.Walks fs room roots others other) :
    walked = others ∧ scan = other := by
  induction h generalizing others other with
  | done => cases hother <;> exact ⟨rfl, rfl⟩
  | full => cases hother <;> exact ⟨rfl, rfl⟩
  | missing habsent _ ih =>
    cases hother with
    | missing _ hrest =>
      obtain ⟨rfl, rfl⟩ := ih hrest
      exact ⟨rfl, rfl⟩
    | walked hpresent _ _ => exact nomatch habsent.symm.trans hpresent
  | walked hpresent hwalk _ ih =>
    cases hother with
    | missing habsent _ => exact nomatch habsent.symm.trans hpresent
    | walked _ hwalkOther hrest =>
      obtain rfl := hwalk.symm.trans hwalkOther
      obtain ⟨rfl, rfl⟩ := ih hrest
      exact ⟨rfl, rfl⟩

theorem Walks.scanRoots_eq (h : scope.Walks fs room roots walked scan) :
    scope.scanRoots fs room roots = .ok scan := by
  induction h with
  | @done room => cases room <;> rfl
  | @full roots => cases roots <;> rfl
  | missing habsent _ ih =>
    rw [scanRoots, habsent, ih]
    rfl
  | walked hpresent hwalk _ ih =>
    rw [scanRoots, hpresent, hwalk]
    dsimp only
    rw [ih]
    rfl

/-- The root is a directory. -/
def present (scope : Scope) (fs : FileSystem) (root : String) : Bool :=
  fs.hasDirectory (scope.rootPath root) matches .ok true

theorem present_of_directory (h : fs.hasDirectory (scope.rootPath root) = .ok true) :
    scope.present fs root = true := by
  rw [present, h]

theorem present_of_missing (h : fs.hasDirectory (scope.rootPath root) = .ok false) :
    scope.present fs root = false := by
  rw [present, h]

/-- Of some roots the first ones are looked at: as long as the files below the roots before leave
room. -/
structure Considers (scope : Scope) (fs : FileSystem) (ways : Path → List (List String))
    (room : Nat) (roots considered rest : List String) : Prop where
  split : roots = considered ++ rest
  roomLeft : ∀ before root after, considered = before ++ root :: after →
    (scope.filesBelow fs ways before).length < room
  filled : rest ≠ [] → room ≤ (scope.filesBelow fs ways considered).length

/-- One more root is looked at before those that are with the room it leaves. -/
theorem Considers.cons {next : Nat} {considered rest : List String} (hroom : 0 < room)
    (hnext : ∀ before, (scope.filesBelow fs ways (root :: before)).length < room ↔
      (scope.filesBelow fs ways before).length < next)
    (h : scope.Considers fs ways next roots considered rest) :
    scope.Considers fs ways room (root :: roots) (root :: considered) rest where
  split := congrArg (root :: ·) h.split
  roomLeft before other after hsplit := by
    obtain ⟨rfl, -⟩ | ⟨above, rfl, habove⟩ := List.cons_eq_append_iff.mp hsplit
    · exact hroom
    · exact (hnext above).mpr (h.roomLeft above other after habove)
  filled hrest := by
    rw [← Nat.not_lt, hnext, Nat.not_lt]
    exact h.filled hrest

/-- Of the roots it looks at, a scan walks those that are directories and records the others, in
their order. -/
theorem Walks.considered (h : scope.Walks fs room roots walked scan) :
    ∃ considered rest, scope.Considers fs (scope.found fs scope.levels) room roots considered rest ∧
      walked = considered.filter (scope.present fs) ∧
      scan.missingRoots = considered.filter fun root => !scope.present fs root := by
  induction h with
  | done => exact ⟨[], [], ⟨rfl, by simp, fun hrest => absurd rfl hrest⟩, rfl, rfl⟩
  | @full roots => exact ⟨[], roots, ⟨rfl, by simp, fun _ => Nat.zero_le _⟩, rfl, rfl⟩
  | @missing room root roots walked scan habsent _ ih =>
    obtain ⟨considered, rest, hconsiders, hwalked, hmissing⟩ := ih
    have hnone : fs.hasDirectory (scope.rootPath root) ≠ .ok true := by simp [habsent]
    have hpresent := present_of_missing habsent
    refine ⟨root :: considered, rest, hconsiders.cons (Nat.succ_pos room) fun before => ?_, ?_, ?_⟩
    · rw [filesBelow_cons_of_not_directory _ hnone]
    · rw [List.filter_cons_of_neg (by simp [hpresent]), hwalked]
    · rw [List.filter_cons_of_pos (by simp [hpresent]), ← hmissing]
      rfl
  | @walked room root roots walked haul scan hdirectory hwalk _ ih =>
    obtain ⟨considered, rest, hconsiders, hwalked, hmissing⟩ := ih
    have hpresent := present_of_directory hdirectory
    have hlength :=
      congrArg List.length (scope.files_walk fs scope.levels (room + 1) (scope.rootPath root))
    rw [hwalk, List.length_take] at hlength
    refine ⟨root :: considered, rest, hconsiders.cons (Nat.succ_pos room) fun before => ?_, ?_, ?_⟩
    · rw [filesBelow_cons_of_directory _ hdirectory, List.length_append]
      omega
    · rw [List.filter_cons_of_pos hpresent, hwalked]
    · rw [List.filter_cons_of_neg (by simp [hpresent]), ← hmissing]
      rfl

namespace Course

variable {considered rest : List String}

end Course

end RiskScan.Scope
