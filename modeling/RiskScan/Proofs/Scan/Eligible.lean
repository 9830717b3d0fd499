import RiskScan.Proofs.Scan.Walking
/-!
# Eligible files

Which files below a root are to be collected is said here of a way to a file alone, without a walk.
-/

namespace RiskScan.Scope

/-- Some names lead from a root to a file that is to be collected. -/
structure Eligible (scope : Scope) (fs : FileSystem) (levels : Nat) (root : Path)
    (names : List String) : Prop where
  shallow : names.length ≤ levels
  kept : ∀ name ∈ names, scope.skips name = false
  /-- Every name stands in a directory that can be listed, and all but the last are directories. -/
  reached : ∀ before name after, names = before ++ name :: after →
    ∃ entries inode, fs.list (root.join { names := before }) = .ok entries ∧
    (name, inode) ∈ entries ∧
      entryIsDirectory fs (root.join { names := before ++ [name] }) inode = .ok (!after.isEmpty)
  ends : ∃ name, names.getLast? = some name ∧ scope.hasExtension name = true

variable {scope : Scope} {fs : FileSystem} {levels : Nat} {directory : Path} {name : String}
  {rest : List String}

/-- The first name can be told apart: either it is the file, or a directory with the rest below
it. -/
theorem eligible_cons_iff : scope.Eligible fs (levels + 1) directory (name :: rest) ↔
    scope.skips name = false ∧ ∃ entries inode, fs.list directory = .ok entries ∧
      (name, inode) ∈ entries ∧
      ((entryIsDirectory fs (directory.child name) inode = .ok true ∧
          scope.Eligible fs levels (directory.child name) rest) ∨
        (entryIsDirectory fs (directory.child name) inode = .ok false ∧ rest = [] ∧
          scope.hasExtension name = true)) := by
  constructor
  · rintro ⟨hshallow, hkept, hreached, hends⟩
    obtain ⟨entries, inode, hlist, hmem, hnature⟩ := hreached [] name rest rfl
    rw [Path.join_nil] at hlist
    rw [List.nil_append, Path.join_cons, Path.join_nil] at hnature
    refine ⟨hkept name (.head _), entries, inode, hlist, hmem, ?_⟩
    cases rest with
    | nil =>
      obtain ⟨last, hlast, hextension⟩ := hends
      cases hlast
      exact .inr ⟨hnature, rfl, hextension⟩
    | cons next rest =>
      refine .inl ⟨hnature, ?_⟩
      constructor
      · exact Nat.le_of_succ_le_succ hshallow
      · exact fun other hother => hkept other (.tail _ hother)
      · intro before other after hsplit
        obtain hother := hreached (name :: before) other after (by rw [hsplit, List.cons_append])
        rwa [Path.join_cons, List.cons_append, Path.join_cons] at hother
      · obtain ⟨last, hlast, hextension⟩ := hends
        exact ⟨last, by rwa [List.getLast?_cons_cons] at hlast, hextension⟩
  · rintro ⟨hskips, entries, inode, hlist, hmem, hnature⟩
    have hfirst : ∀ {after}, entryIsDirectory fs (directory.child name) inode = .ok after →
        ∃ entries inode, fs.list (directory.join { names := [] }) = .ok entries ∧
          (name, inode) ∈ entries ∧
          entryIsDirectory fs (directory.join { names := [] ++ [name] }) inode = .ok after := by
      intro after hafter
      rw [Path.join_nil, List.nil_append, Path.join_cons, Path.join_nil]
      exact ⟨entries, inode, hlist, hmem, hafter⟩
    obtain ⟨hdirectory, hshallow, hkept, hreached, last, hlast, hextension⟩ | ⟨hfile, rfl,
        hextension⟩ :=
      hnature
    · have hnonempty : rest ≠ [] := by
        rintro rfl
        cases hlast
      constructor
      · exact Nat.succ_le_succ hshallow
      · exact List.forall_mem_cons.mpr ⟨hskips, hkept⟩
      · intro before other after hsplit
        obtain ⟨rfl, hhere⟩ | ⟨above, rfl, hbelow⟩ := List.cons_eq_append_iff.mp hsplit
        · cases hhere
          rw [List.isEmpty_eq_false_iff.mpr hnonempty]
          exact hfirst hdirectory
        · rw [Path.join_cons, List.cons_append, Path.join_cons]
          exact hreached above other after hbelow
      · refine ⟨last, ?_, hextension⟩
        rw [List.getLast?_cons, hlast]
        rfl
    · constructor
      · exact Nat.succ_le_succ (Nat.zero_le _)
      · exact List.forall_mem_cons.mpr ⟨hskips, List.forall_mem_nil _⟩
      · intro before other after hsplit
        obtain ⟨rfl, hhere⟩ | ⟨above, rfl, hbelow⟩ := List.cons_eq_append_iff.mp hsplit
        · cases hhere
          exact hfirst hfile
        · simp at hbelow
      · exact ⟨name, rfl, hextension⟩

end RiskScan.Scope
