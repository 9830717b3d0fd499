import RiskScan.FileSystem
/-!
# Where paths lead

A path leads to something that stands in the tree at its place and is no link, or to a vacant place
in a directory without an entry of its name. When it leads nowhere, there is nothing at the path, or
one of its names is too long.
-/

namespace RiskScan

namespace Inode

theorem at?_append (first second : Location) (top : List (String × Inode)) :
    at? (first ++ second) top =
      match at? first top with
      | some (.directory inner) => at? second inner
      | some inode => if second.isEmpty then some inode else none
      | none => none := by
  induction first generalizing top with
  | nil => rfl
  | cons name rest ih =>
    simp only [List.cons_append, at?]
    cases lookup? name top with
    | none => rfl
    | some inode =>
      cases inode with
      | directory inner => exact ih inner
      | file octets | link target => cases rest <;> simp

end Inode

namespace FileSystem

variable {fs : FileSystem} {location : Location} {entries : List (String × Inode)}

theorem inodeAt?_child (hdirectory : fs.inodeAt? location = some (.directory entries))
    (name : String) :
    fs.inodeAt? (location ++ [name]) = Inode.lookup? name entries := by
  unfold inodeAt? at *
  rw [Inode.at?_append, hdirectory]
  simp only [Inode.at?]
  cases Inode.lookup? name entries with
  | none => rfl
  | some inode => cases inode <;> rfl

/-- What lies above something is a directory. -/
theorem exists_directory_dropLast {inode : Inode} (h : fs.inodeAt? location = some inode)
    (hnested : location ≠ []) : ∃ entries, fs.inodeAt? location.dropLast =
      some (.directory entries) := by
  unfold inodeAt? at *
  rw [← List.dropLast_concat_getLast hnested, Inode.at?_append] at h
  split at h
  · rename_i inner hinner
    exact ⟨inner, hinner⟩
  · simp at h
  · cases h

/-- What following a path can come to. -/
def Tells (fs : FileSystem) : Except AccessError Place → Prop
  | .ok (.occupied location inode) =>
    fs.inodeAt? location = some inode ∧ ∀ target, inode ≠ .link target
  | .ok (.vacant location) => ∃ above name entries, location = above ++ [name] ∧
    fs.inodeAt? above = some (.directory entries) ∧ Inode.lookup? name entries = none
  | .error error => error.meansAbsent ∨ error = .nameTooLong

theorem tells_followNames {onLink : Location → List String → Except AccessError Place}
    (hlink : ∀ location names, (∀ target, fs.inodeAt? location ≠ some (.link target)) →
      fs.Tells (onLink location names))
    (names : List String) (hstart : ∀ target, fs.inodeAt? location ≠ some (.link target)) :
    fs.Tells (fs.followNames onLink location names) := by
  induction names generalizing location with
  | nil =>
    unfold followNames
    cases hinode : fs.inodeAt? location with
    | none => exact .inl rfl
    | some inode => exact ⟨hinode, fun target htarget => hstart target (htarget ▸ hinode)⟩
  | cons name rest ih =>
    unfold followNames
    split
    · rename_i entries hdirectory
      split
      · apply ih
        intro target htarget
        by_cases hnested : location = []
        · subst hnested
          cases htarget
        · obtain ⟨above, habove⟩ := exists_directory_dropLast hdirectory hnested
          rw [habove] at htarget
          cases htarget
      split
      · exact .inr rfl
      · have hchild := inodeAt?_child hdirectory name
        split
        · rename_i target _
          apply hlink
          intro target'
          split
          · exact fun h => by cases h
          · rw [hdirectory]
            exact fun h => by cases h
        · rename_i inode hnolink hlookup
          apply ih
          intro target htarget
          rw [hchild, hlookup] at htarget
          exact hnolink target (Option.some.inj htarget)
        · rename_i hlookup
          split
          · exact ⟨location, name, entries, rfl, hdirectory, hlookup⟩
          · exact .inl rfl
    · exact .inl rfl
    · exact .inl rfl

theorem tells_follow (links : Nat) (names : List String)
    (hstart : ∀ target, fs.inodeAt? location ≠ some (.link target)) :
    fs.Tells (fs.follow links location names) := by
  induction links generalizing location names with
  | zero =>
    refine tells_followNames ?_ names hstart
    intro _ _ _
    exact .inl rfl
  | succ links ih => exact tells_followNames (fun _ names h => ih names h) names hstart

theorem tells_place (fs : FileSystem) (path : Path) : fs.Tells (fs.place path) := by
  unfold place
  split
  · exact .inl rfl
  · apply tells_follow
    intro target h
    cases h

theorem exists_of_inode_eq_ok {path : Path} {inode : Inode} (h : fs.inode path = .ok inode) :
    ∃ location, fs.inodeAt? location = some inode := by
  have htells := fs.tells_place path
  unfold FileSystem.inode at h
  cases hplace : fs.place path with
  | error error =>
    rw [hplace] at h
    cases h
  | ok place =>
    rw [hplace] at h htells
    cases place with
    | occupied location found =>
      cases h
      exact ⟨location, htells.1⟩
    | vacant location => cases h

/-! ### One name further -/

theorem followNames_concat {onLink : Location → List String → Except AccessError Place}
    {start : Location} {names : List String} {name : String} {inode : Inode}
    (hlink : ∀ start names, onLink start names = .ok (.occupied location inode) →
      ∃ next, onLink start (names ++ [name]) = fs.followNames next location [name])
    (h : fs.followNames onLink start names = .ok (.occupied location inode)) :
    ∃ next, fs.followNames onLink start (names ++ [name]) =
      fs.followNames next location [name] := by
  induction names generalizing start with
  | nil =>
    rw [followNames] at h
    split at h
    · cases h
      exact ⟨onLink, rfl⟩
    · cases h
  | cons first rest ih =>
    rw [followNames] at h
    rw [List.cons_append, followNames]
    split at h
    next =>
      split at h
      next hup =>
        rw [if_pos hup]
        exact ih h
      next hdown =>
        rw [if_neg hdown]
        split at h
        · cases h
        next hshort =>
          rw [if_neg hshort]
          split at h
          next =>
            rw [← List.append_assoc]
            exact hlink _ _ h
          next => exact ih h
          next =>
            split at h
            · cases h
            · cases h
    · cases h
    · cases h

/-- A path with one more name goes on where the path has led. -/
theorem follow_concat {links : Nat} {start : Location} {names : List String} {inode : Inode}
    (h : fs.follow links start names = .ok (.occupied location inode)) (name : String) :
    ∃ next, fs.follow links start (names ++ [name]) = fs.followNames next location [name] := by
  induction links generalizing start names with
  | zero => exact followNames_concat (fun _ _ hlink => nomatch hlink) h
  | succ links ih => exact followNames_concat (fun _ _ hlink => ih hlink) h

/-- Only a name that is too long keeps it open whether there is a directory. -/
theorem eq_nameTooLong_of_hasDirectory {path : Path} {error : AccessError}
    (h : fs.hasDirectory path = .error error) : error = .nameTooLong := by
  have htells := fs.tells_place path
  unfold hasDirectory isDirectory FileSystem.inode at h
  cases hplace : fs.place path with
  | ok place =>
    rw [hplace] at h
    cases place with
    | occupied location inode => cases inode <;> cases h
    | vacant location => cases h
  | error reason =>
    rw [hplace] at h htells
    obtain habsent | rfl := htells
    · change (if reason.meansAbsent then _ else _) = _ at h
      rw [if_pos habsent] at h
      cases h
    · exact (Except.error.inj h).symm

end FileSystem

end RiskScan
