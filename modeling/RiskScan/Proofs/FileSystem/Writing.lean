import RiskScan.Proofs.FileSystem.Following
/-!
# What has been written can be read

Writing a file changes the tree at one place. Everywhere else directories stay directories and
everything else stays what it is, so a path that led to that place still leads there, now to the
file that was written.
-/

namespace RiskScan

namespace Inode

variable {inode : Inode} {top entries : List (String × Inode)}

/-- Nothing lies below anything but a directory. -/
theorem at?_eq_none {name : String} {rest : Location} (hrest : rest ≠ [])
    (h : ∀ held, lookup? name top ≠ some (.directory held)) : at? (name :: rest) top = none := by
  rw [at?]
  split
  · rename_i inner hlookup
    exact absurd hlookup (h inner)
  · rw [if_neg]
    simpa using hrest
  · rfl

/-- The directory above a new entry holds it. -/
theorem at?_putAt_above {above : Location} (name : String)
    (h : at? above top = some (.directory entries)) :
    at? above (putAt inode (above ++ [name]) top) = some (.directory (put name inode entries)) := by
  induction above generalizing top with
  | nil =>
    cases h
    rfl
  | cons first rest ih =>
    rw [at?] at h
    split at h
    · rename_i inner hlookup
      rw [List.cons_append, putAt, hlookup]
      · dsimp only
        rw [at?, lookup?_put, if_pos rfl]
        exact ih h
      · simp
    · rename_i found hfile _
      split at h
      · exact absurd (Option.some.inj h) (hfile entries)
      · cases h
    · cases h

/-- Elsewhere directories stay directories, and everything else stays what it is. -/
theorem at?_putAt_of_ne {location other : Location} (hinode : ∀ held, inode ≠ .directory held)
    (hold : ∀ held, at? location top ≠ some (.directory held)) (hne : other ≠ location) :
    (∃ before after, at? other top = some (.directory before) ∧
        at? other (putAt inode location top) = some (.directory after)) ∨
      at? other (putAt inode location top) = at? other top := by
  induction other generalizing location top with
  | nil => exact .inl ⟨top, _, rfl, rfl⟩
  | cons first rest ih =>
    match location with
    | [] => exact .inr rfl
    | [name] =>
      right
      rw [putAt]
      by_cases hname : name = first
      · subst hname
        have hbelow : rest ≠ [] := fun hrest => hne (by rw [hrest])
        rw [at?_eq_none hbelow, at?_eq_none hbelow]
        · intro held hheld
          apply hold held
          rw [at?, hheld]
          rfl
        · intro held hheld
          rw [lookup?_put, if_pos rfl] at hheld
          exact hinode held (Option.some.inj hheld)
      · rw [at?, at?, lookup?_put, if_neg hname]
    | name :: next :: below =>
      cases hlookup : lookup? name top with
      | none => exact .inr (by rw [putAt, hlookup]; simp)
      | some found =>
        cases found with
        | file | link => exact .inr (by rw [putAt, hlookup]; simp)
        | directory inner =>
          rw [putAt, hlookup]
          · dsimp only
            rw [at?, at?, lookup?_put]
            by_cases hname : name = first
            · subst hname
              rw [if_pos rfl, hlookup]
              dsimp only
              refine ih ?_ fun heq => hne (congrArg (name :: ·) heq)
              intro held hheld
              apply hold held
              rw [at?, hlookup]
              exact hheld
            · exact .inr (by rw [if_neg hname])
          · simp

end Inode

namespace FileSystem

/-- Where a place is. -/
def Place.location : Place → Location
  | .occupied location _ => location
  | .vacant location => location

/-- Following a path leads to a location. -/
def LeadsTo (location : Location) (result : Except AccessError Place) : Prop :=
  ∃ place, result = .ok place ∧ place.location = location

/-- A file system differs from an earlier one in a file that has been written. -/
structure Written (before after : FileSystem) (location : Location) (octets : List UInt8) :
    Prop where
  noDirectory : ∀ held, before.inodeAt? location ≠ some (.directory held)
  noLink : ∀ target, before.inodeAt? location ≠ some (.link target)
  here : after.inodeAt? location = some (.file octets)
  elsewhere : ∀ other, other ≠ location →
    (∃ held held', before.inodeAt? other = some (.directory held) ∧
        after.inodeAt? other = some (.directory held')) ∨
      after.inodeAt? other = before.inodeAt? other

variable {before after : FileSystem} {location : Location} {octets : List UInt8}

namespace Written

theorem directory {start : Location} {entries : List (String × Inode)}
    (hwritten : Written before after location octets)
    (h : before.inodeAt? start = some (.directory entries)) :
    ∃ entries', after.inodeAt? start = some (.directory entries') := by
  have hne : start ≠ location := by
    rintro rfl
    exact hwritten.noDirectory entries h
  obtain ⟨-, held, -, hheld⟩ | hsame := hwritten.elsewhere start hne
  · exact ⟨held, hheld⟩
  · exact ⟨entries, hsame.trans h⟩

/-- A path that led to the location of the file leads to the file. -/
theorem followNames {onLink onLink' : Location → List String → Except AccessError Place}
    (hwritten : Written before after location octets)
    (hlink : ∀ start names, LeadsTo location (onLink start names) →
      onLink' start names = .ok (.occupied location (.file octets)))
    {start : Location} {names : List String}
    (h : LeadsTo location (before.followNames onLink start names)) :
    after.followNames onLink' start names = .ok (.occupied location (.file octets)) := by
  induction names generalizing start with
  | nil =>
    obtain ⟨place, hplace, hlocation⟩ := h
    rw [FileSystem.followNames] at hplace
    split at hplace
    · cases hplace
      obtain rfl : start = location := hlocation
      rw [FileSystem.followNames, hwritten.here]
    · cases hplace
  | cons name rest ih =>
    rw [FileSystem.followNames] at h
    split at h
    · rename_i entries hdirectory
      obtain ⟨entries', hdirectory'⟩ := hwritten.directory hdirectory
      have hchild := inodeAt?_child hdirectory name
      have hchild' := inodeAt?_child hdirectory' name
      rw [FileSystem.followNames, hdirectory']
      dsimp only
      split at h
      · rename_i hup
        rw [if_pos hup]
        exact ih h
      rename_i hdown
      rw [if_neg hdown]
      split at h
      · obtain ⟨_, ⟨⟩, -⟩ := h
      rename_i hshort
      rw [if_neg hshort]
      by_cases hhere : start ++ [name] = location
      · -- the last step: whatever stood there, the file stands there now
        rw [hhere] at hchild hchild'
        rw [← hchild', hwritten.here]
        dsimp only
        cases hlookup : Inode.lookup? name entries with
        | none =>
          rw [hlookup] at h
          dsimp only at h
          split at h
          · rename_i hlast
            rw [List.isEmpty_iff.mp hlast, FileSystem.followNames, hhere, hwritten.here]
          · obtain ⟨_, ⟨⟩, -⟩ := h
        | some found =>
          rw [hlookup] at h hchild
          cases found with
          | file | directory => exact ih h
          | link target => exact absurd hchild (hwritten.noLink target)
      obtain ⟨held, held', hheld, hheld'⟩ | hsame := hwritten.elsewhere _ hhere
      · rw [← hchild, hheld] at h
        rw [← hchild', hheld']
        exact ih h
      · rw [hchild, hchild'] at hsame
        rw [hsame]
        cases hlookup : Inode.lookup? name entries with
        | none =>
          rw [hlookup] at h
          dsimp only at h
          split at h
          · obtain ⟨_, ⟨⟩, hlocation⟩ := h
            exact absurd hlocation hhere
          · obtain ⟨_, ⟨⟩, -⟩ := h
        | some found =>
          rw [hlookup] at h
          cases found with
          | file | directory => exact ih h
          | link target => exact hlink _ _ h
    · obtain ⟨_, ⟨⟩, -⟩ := h
    · obtain ⟨_, ⟨⟩, -⟩ := h

theorem follow (hwritten : Written before after location octets) {links : Nat} {start : Location}
    {names : List String} (h : LeadsTo location (before.follow links start names)) :
    after.follow links start names = .ok (.occupied location (.file octets)) := by
  induction links generalizing start names with
  | zero =>
    refine hwritten.followNames ?_ h
    rintro _ _ ⟨_, ⟨⟩, -⟩
  | succ links ih => exact hwritten.followNames (fun _ _ => ih) h

theorem place (hwritten : Written before after location octets) {path : Path}
    (h : LeadsTo location (before.place path)) :
    after.place path = .ok (.occupied location (.file octets)) := by
  unfold FileSystem.place at *
  split at h
  · obtain ⟨_, ⟨⟩, -⟩ := h
  · rename_i hnul
    rw [if_neg hnul]
    exact hwritten.follow h

/-- Putting a file where there is nothing, or a file, writes it. -/
theorem of_putAt {above : Location} {name : String} {entries : List (String × Inode)}
    (octets : List UInt8) (habove : before.inodeAt? above = some (.directory entries))
    (hfree : ∀ inode, before.inodeAt? (above ++ [name]) = some inode → ∃ old, inode = .file old) :
    Written before { before with top := Inode.putAt (.file octets) (above ++ [name]) before.top }
      (above ++ [name]) octets := by
  have hnoDirectory held : before.inodeAt? (above ++ [name]) ≠ some (.directory held) := by
    intro hheld
    obtain ⟨_, ⟨⟩⟩ := hfree _ hheld
  constructor
  · exact hnoDirectory
  · intro target htarget
    obtain ⟨_, ⟨⟩⟩ := hfree _ htarget
  · let after : FileSystem :=
      { before with top := Inode.putAt (.file octets) (above ++ [name]) before.top }
    have hentries : after.inodeAt? above =
        some (.directory (Inode.put name (.file octets) entries)) :=
      Inode.at?_putAt_above name habove
    exact (inodeAt?_child hentries name).trans (by rw [Inode.lookup?_put, if_pos rfl])
  · exact fun _ => Inode.at?_putAt_of_ne (fun _ => nofun) hnoDirectory

end Written

/-! ### Attempts to write -/

variable {path : Path}

theorem eq_ok_of_guarded {α : Type} {access : Access} {result : Except AccessError α} {a : α}
    (h : before.guarded access path result = .ok a) : result = .ok a := by
  unfold guarded at h
  split at h
  · cases h
  · exact h

/-- What is put where a file has been opened is found at its path. -/
theorem place_of_open (h : before.openForWriting path = .ok location) (octets : List UInt8) :
    (before.putFile location octets).place path = .ok (.occupied location (.file octets)) := by
  have htells := before.tells_place path
  have hopen := eq_ok_of_guarded h
  cases hplace : before.place path with
  | error error =>
    rw [hplace] at hopen
    cases hopen
  | ok place =>
    rw [hplace] at hopen htells
    cases place with
    | vacant location =>
      cases hopen
      obtain ⟨above, name, entries, rfl, habove, hlookup⟩ := htells
      have hwritten := Written.of_putAt octets habove fun inode hinode => by
        rw [inodeAt?_child habove, hlookup] at hinode
        cases hinode
      exact hwritten.place ⟨_, hplace, rfl⟩
    | occupied location inode =>
      obtain ⟨hinode, hnoLink⟩ := htells
      cases inode with
      | directory held => cases hopen
      | link target => exact absurd rfl (hnoLink target)
      | file old =>
        cases hopen
        have hnested : location ≠ [] := by
          rintro rfl
          cases hinode
        obtain ⟨entries, habove⟩ := exists_directory_dropLast hinode hnested
        rw [← List.dropLast_concat_getLast hnested] at hinode
        have hwritten := Written.of_putAt octets habove fun inode hfound =>
          ⟨old, Option.some.inj (hfound.symm.trans hinode)⟩
        rw [List.dropLast_concat_getLast hnested] at hwritten
        exact hwritten.place ⟨_, hplace, rfl⟩

theorem inode_of_open (h : before.openForWriting path = .ok location) (octets : List UInt8) :
    (before.putFile location octets).inode path = .ok (.file octets) := by
  unfold FileSystem.inode
  rw [place_of_open h]
  rfl

theorem isPresent_of_inode {inode : Inode} (h : after.inode path = .ok inode) :
    after.isPresent path = .ok true := by
  rw [isPresent, h]

theorem octets_of_inode (h : after.inode path = .ok (.file octets)) :
    after.octets path = .ok octets := by
  rw [FileSystem.octets, h]
  rfl

end FileSystem

end RiskScan
