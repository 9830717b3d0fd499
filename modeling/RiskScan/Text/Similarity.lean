/-!
# Comparing texts

A text may occur in another, at any place. Two texts are similar by what they have in common: their
longest common part, and then, on either side of it, again the longest common part of what is left
there. The similarity is the share of all characters that is matched in this way.
-/

namespace RiskScan.Text

def contains (part : List Char) : (whole : List Char) → Bool
  | [] => part.isEmpty
  | c :: rest => part.isPrefixOf (c :: rest) || contains part rest

theorem contains_iff_isInfix {part whole : List Char} :
    contains part whole = true ↔ part <:+: whole := by
  induction whole with
  | nil => simp [contains]
  | cons c rest ih =>
    simp [contains, ih, List.infix_cons_iff]

/-! ### Similarity -/

/-- How many characters two texts have in common at their beginnings. -/
def commonStart : List Char → List Char → Nat
  | a :: first, b :: second => if a = b then commonStart first second + 1 else 0
  | _, _ => 0

/-- A common part of two texts: where it begins in each, and its length. -/
structure CommonPart where
  first : Nat
  second : Nat
  length : Nat
  deriving DecidableEq, Repr

/-- The longer of two common parts, and the earlier one if they are equally long. -/
def CommonPart.better (earlier later : CommonPart) : CommonPart :=
  if earlier.length < later.length then later else earlier

/-- The longest common part that begins at the beginning of the first text. -/
def longestAt (first : List Char) (position : Nat) : (offset : Nat) → List Char → CommonPart
  | offset, [] => ⟨position, offset, 0⟩
  | offset, c :: second =>
    CommonPart.better ⟨position, offset, commonStart first (c :: second)⟩
      (longestAt first position (offset + 1) second)

/-- The longest common part of two texts, and of several the one that begins first. -/
def longest (second : List Char) : (position : Nat) → List Char → CommonPart
  | position, [] => ⟨position, 0, 0⟩
  | position, c :: first =>
    CommonPart.better (longestAt (c :: first) position 0 second)
      (longest second (position + 1) first)

/-- How many characters are matched, where at most `fuel` parts are looked for in a row. -/
def matched : (fuel : Nat) → List Char → List Char → Nat
  | 0, _, _ => 0
  | fuel + 1, first, second =>
    let part := longest second 0 first
    if part.length = 0 then 0
    else part.length + matched fuel (first.take part.first) (second.take part.second) +
      matched fuel (first.drop (part.first + part.length)) (second.drop (part.second + part.length))

/-- The similarity of two texts in tenths is at least `tenths`. -/
def isSimilar (tenths : Nat) (first second : List Char) : Bool :=
  let total := first.length + second.length
  tenths * total ≤ 20 * matched (first.length + 1) first second

end RiskScan.Text
