import RiskScan.Proofs.FileSystem.Following
/-!
# Listings

In a file system no directory has two entries of one name, so a listing, which is in the order of
the names, is so strictly.
-/

namespace RiskScan

namespace Inode

/-- The entries of every directory, wherever it is, have different names. -/
def DistinctNames (top : List (String × Inode)) : Prop :=
  ∀ location entries, at? location top = some (.directory entries) → (entries.map Prod.fst).Nodup

theorem mem_of_lookup? {name : String} {inode : Inode} {entries : List (String × Inode)}
    (h : lookup? name entries = some inode) : (name, inode) ∈ entries := by
  induction entries with
  | nil => cases h
  | cons entry entries ih =>
    rw [lookup?] at h
    split at h
    · rename_i heq
      cases h
      exact heq ▸ .head _
    · exact .tail _ (ih h)

theorem lookup?_of_mem {name : String} {inode : Inode} {entries : List (String × Inode)}
    (hnodup : (entries.map Prod.fst).Nodup) (h : (name, inode) ∈ entries) :
    lookup? name entries = some inode := by
  induction entries with
  | nil => cases h
  | cons entry entries ih =>
    obtain ⟨candidate, other⟩ := entry
    obtain ⟨hfresh, hnodup⟩ := List.nodup_cons.mp hnodup
    rcases List.mem_cons.mp h with heq | hmem
    · cases heq
      rw [lookup?, if_pos rfl]
    · have hname : name ∈ entries.map Prod.fst := List.mem_map.mpr ⟨_, hmem, rfl⟩
      have hne : candidate ≠ name := fun heq => hfresh (heq ▸ hname)
      rw [lookup?, if_neg hne]
      exact ih hnodup hmem

theorem distinctNames_of_entries {entries : List (String × Inode)}
    (hnodup : (entries.map Prod.fst).Nodup)
    (hinner : ∀ entry ∈ entries, ∀ inner, entry.2 = .directory inner → DistinctNames inner) :
    DistinctNames entries := by
  intro location found hfound
  cases location with
  | nil =>
    cases hfound
    exact hnodup
  | cons name rest =>
    rw [at?] at hfound
    split at hfound
    · rename_i inner hlookup
      exact hinner _ (mem_of_lookup? hlookup) inner rfl rest found hfound
    · rename_i inode hother _
      split at hfound
      · exact absurd (Option.some.inj hfound) (hother found)
      · cases hfound
    · cases hfound

end Inode

namespace FileSystem

variable {fs : FileSystem} {path : Path} {entries : List (String × Inode)}

theorem exists_of_list_eq_ok (h : fs.list path = .ok entries) :
    ∃ held, fs.inode path = .ok (.directory held) ∧
      entries = held.mergeSort fun first second => first.1 ≤ second.1 := by
  unfold list guarded at h
  split at h
  · cases h
  · cases hinode : fs.inode path with
    | error error =>
      rw [hinode] at h
      cases h
    | ok inode =>
      rw [hinode] at h
      cases inode with
      | directory held => exact ⟨held, rfl, (Except.ok.inj h).symm⟩
      | file octets | link target => cases h

theorem pairwise_of_list_eq_ok (hdistinct : Inode.DistinctNames fs.top)
    (h : fs.list path = .ok entries) :
    entries.Pairwise fun first second => first.1 < second.1 := by
  obtain ⟨held, hinode, rfl⟩ := exists_of_list_eq_ok h
  obtain ⟨location, hlocation⟩ := exists_of_inode_eq_ok hinode
  have hsorted : (held.mergeSort fun first second => first.1 ≤ second.1).Pairwise
      fun first second => first.1 ≤ second.1 := by
    have hpairwise := List.pairwise_mergeSort
      (fun (a b c : String × Inode) (hab : decide (a.1 ≤ b.1)) (hbc : decide (b.1 ≤ c.1)) =>
        decide_eq_true (String.le_trans (of_decide_eq_true hab) (of_decide_eq_true hbc)))
      (fun a b => by simpa using String.le_total a.1 b.1) held
    exact hpairwise.imp of_decide_eq_true
  have hnodup : (held.mergeSort fun first second => first.1 ≤ second.1).Pairwise
      fun first second => first.1 ≠ second.1 := by
    apply List.pairwise_map.1
    exact ((List.mergeSort_perm held _).map Prod.fst).nodup_iff.2
      (hdistinct location held hlocation)
  refine (hsorted.and hnodup).imp ?_
  rintro first second ⟨hle, hne⟩
  by_cases hlt : first.1 < second.1
  · exact hlt
  · exact absurd (String.le_antisymm hle hlt) hne

end FileSystem

end RiskScan
