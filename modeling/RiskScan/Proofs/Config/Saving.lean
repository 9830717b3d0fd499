import RiskScan.Config.Saving
import RiskScan.Proofs.FileSystem.Writing
/-!
# What saving leaves

Saving can fail at three places: when the directories above the file are made, when it is opened,
and when it is written. Only in the last case something has happened to the file.
-/

namespace RiskScan.Config

variable {fs after : FileSystem} {config : Config} {path : Path} {octets : List UInt8}

theorem attemptWithParents_of_closed {made : FileSystem} {error : AccessError}
    (hmade : fs.makeDirectories path.parent = .ok made)
    (hclosed : made.openForWriting path = .error error) :
    attemptWithParents fs path octets = (made, some (error, path)) := by
  rw [attemptWithParents, hmade]
  dsimp only
  rw [FileSystem.attemptWrite, hclosed]
  rfl

theorem attemptWithParents_of_broken {made : FileSystem} {location : Location} {count : Nat}
    {message : String} (hmade : fs.makeDirectories path.parent = .ok made)
    (hopened : made.openForWriting path = .ok location)
    (hbroken : made.interruption? path octets = some (count, message)) :
    attemptWithParents fs path octets =
      (made.putFile location (octets.take count), some (.reported message, path)) := by
  rw [attemptWithParents, hmade]
  dsimp only
  rw [FileSystem.attemptWrite, hopened]
  dsimp only
  rw [hbroken]
  rfl

theorem attemptWithParents_of_whole {made : FileSystem} {location : Location}
    (hmade : fs.makeDirectories path.parent = .ok made)
    (hopened : made.openForWriting path = .ok location)
    (hwhole : made.interruption? path octets = none) :
    attemptWithParents fs path octets = (made.putFile location octets, none) := by
  rw [attemptWithParents, hmade]
  dsimp only
  rw [FileSystem.attemptWrite, hopened]
  dsimp only
  rw [hwhole]
  rfl

/-- Where an attempt to write a file together with its directories ends. -/
theorem attemptWithParents_cases (fs : FileSystem) (path : Path) (octets : List UInt8) :
    (∃ failure, fs.makeDirectories path.parent = .error failure ∧
      attemptWithParents fs path octets = (fs, some failure)) ∨
    ∃ made, fs.makeDirectories path.parent = .ok made ∧
      ((∃ error, made.openForWriting path = .error error ∧
        attemptWithParents fs path octets = (made, some (error, path))) ∨
      (∃ location count message, made.openForWriting path = .ok location ∧
        made.interruption? path octets = some (count, message) ∧
        attemptWithParents fs path octets =
          (made.putFile location (octets.take count), some (.reported message, path))) ∨
      ∃ location, made.openForWriting path = .ok location ∧ made.interruption? path octets = none ∧
        attemptWithParents fs path octets = (made.putFile location octets, none)) := by
  cases hmade : fs.makeDirectories path.parent with
  | error failure => exact Or.inl ⟨failure, rfl, by rw [attemptWithParents, hmade]⟩
  | ok made =>
    refine Or.inr ⟨made, rfl, ?_⟩
    cases hopened : made.openForWriting path with
    | error error => exact Or.inl ⟨error, rfl, attemptWithParents_of_closed hmade hopened⟩
    | ok location =>
      cases hbroken : made.interruption? path octets with
      | some broken =>
        exact Or.inr (Or.inl ⟨location, broken.1, broken.2, rfl, rfl,
          attemptWithParents_of_broken hmade hopened hbroken⟩)
      | none =>
        exact Or.inr (Or.inr ⟨location, rfl, rfl,
          attemptWithParents_of_whole hmade hopened hbroken⟩)

theorem save_of_written (h : attemptWithParents fs path config.document.toUTF8.toList =
    (after, none)) :
    save fs config path = .ok { fs := after, succeeded := true, output := [] } := by
  rw [save, h]

/-- A failure is printed, unless it is passed on or the console refuses to print it. -/
theorem save_of_failed {failure : AccessError × Path}
    (h : attemptWithParents fs path config.document.toUTF8.toList = (after, some failure)) :
    save fs config path = (faultOf? path failure).elim
      (.ok {
        fs := after
        succeeded := false
        output := [saveError path (failure.1.describe failure.2)] }) .error := by
  obtain ⟨error, place⟩ := failure
  rw [save, h]
  dsimp only
  cases faultOf? path (error, place) <;> rfl

/-- What is said to have been saved by an attempt that has failed. -/
theorem eq_of_save_of_failed {saved : Saved} {failure : AccessError × Path}
    (h : attemptWithParents fs path config.document.toUTF8.toList = (after, some failure))
    (hsaved : save fs config path = .ok saved) : saved = {
      fs := after
      succeeded := false
      output := [saveError path (failure.1.describe failure.2)] } := by
  rw [save_of_failed h] at hsaved
  cases hfault : faultOf? path failure with
  | none =>
    rw [hfault] at hsaved
    exact (Except.ok.inj hsaved).symm
  | some fault =>
    rw [hfault] at hsaved
    cases hsaved

/-- Settings that have been saved make up the file at the path. -/
theorem inode_of_save {saved : Saved} (h : save fs config path = .ok saved)
    (hsucceeded : saved.succeeded = true) :
    saved.fs.inode path = .ok (.file config.document.toUTF8.toList) := by
  have hfailed {after : FileSystem} {failure : AccessError × Path}
      (hattempt : attemptWithParents fs path config.document.toUTF8.toList =
        (after, some failure)) :
      False := by
    rw [eq_of_save_of_failed hattempt h] at hsucceeded
    cases hsucceeded
  obtain ⟨failure, -, hattempt⟩ | ⟨made, -, hmade⟩ :=
    attemptWithParents_cases fs path config.document.toUTF8.toList
  · exact (hfailed hattempt).elim
  obtain ⟨error, -, hattempt⟩ | ⟨location, count, message, -, -, hattempt⟩ |
    ⟨location, hopen, -, hattempt⟩ := hmade
  · exact (hfailed hattempt).elim
  · exact (hfailed hattempt).elim
  · rw [save_of_written hattempt] at h
    cases h
    exact FileSystem.inode_of_open hopen _

end RiskScan.Config
