import RiskScan.Text.Utf8
import RiskScan.Yaml.Writer
/-!
# Written documents are legible

A written document consists of line ends and of printable ASCII characters: a text with anything
else in it is written between double quotes and escaped there. So a document holds no carriage
return, and it is the same for a reader who makes all line ends alike.
-/

namespace RiskScan.Yaml

/-- Every character can be shown as it is. -/
def Legible (text : List Char) : Prop :=
  ∀ c ∈ text, Writer.needsEscape c = false

theorem needsEscape_eq_false {c : Char} (hlow : 0x20 ≤ c.toNat) (hhigh : c.toNat ≤ 0x7e) :
    Writer.needsEscape c = false := by
  simp [Writer.needsEscape, hlow, hhigh]

namespace Legible

variable {c : Char} {first second text : List Char}

@[simp]
theorem nil : Legible [] :=
  List.forall_mem_nil _

@[simp]
theorem cons_iff : Legible (c :: text) ↔ Writer.needsEscape c = false ∧ Legible text :=
  List.forall_mem_cons

@[simp]
theorem append_iff : Legible (first ++ second) ↔ Legible first ∧ Legible second :=
  List.forall_mem_append

theorem sublist (h : Legible second) (hsub : first.Sublist second) : Legible first :=
  fun c hc => h c (hsub.mem hc)

theorem drop (h : Legible text) (count : Nat) : Legible (text.drop count) :=
  h.sublist (List.drop_sublist count text)

theorem take (h : Legible text) (count : Nat) : Legible (text.take count) :=
  h.sublist (List.take_sublist count text)

theorem takeWhile (h : Legible text) (p : Char → Bool) : Legible (text.takeWhile p) :=
  h.sublist (List.takeWhile_sublist p)

theorem replicate (count : Nat) (h : Writer.needsEscape c = false) :
    Legible (List.replicate count c) := by
  intro other hother
  rw [List.eq_of_mem_replicate hother, h]

/-! ### Numbers -/

theorem digitText (digits : Nat) : Legible (Decimal.digitText digits) := by
  intro c hc
  have hdigit : c.isDigit = true := Nat.isDigit_of_mem_toDigits (by decide) (by decide) hc
  simp only [Char.isDigit, Bool.and_eq_true, decide_eq_true_eq, ge_iff_le,
    UInt32.le_iff_toNat_le] at hdigit
  have hlow : 48 ≤ c.toNat := hdigit.1
  have hhigh : c.toNat ≤ 57 := hdigit.2
  exact needsEscape_eq_false (by omega) (by omega)

theorem exponentText (exponent : Int) : Legible (Decimal.exponentText exponent) := by
  have hdigits := digitText exponent.natAbs
  unfold Decimal.exponentText
  dsimp only
  rw [cons_iff]
  refine ⟨by split <;> rfl, ?_⟩
  split
  · exact cons_iff.mpr ⟨rfl, hdigits⟩
  · exact hdigits

theorem plainText (h : Legible text) (leading : Int) :
    Legible (Decimal.plainText text leading) := by
  have hzeros (count : Nat) : Legible (List.replicate count '0') := replicate count rfl
  have hpoint : Writer.needsEscape '.' = false := rfl
  have hzero : Writer.needsEscape '0' = false := rfl
  unfold Decimal.plainText
  split
  · simp [*]
  · have hpadded (count : Nat) : Legible (text ++ List.replicate count '0') := by simp [*]
    dsimp only
    rw [append_iff, cons_iff]
    refine ⟨(hpadded _).take _, hpoint, ?_⟩
    split
    · simp [*]
    · exact (hpadded _).drop _

theorem exponentForm {style : Decimal.FloatStyle} (htail : Legible style.loneDigitTail.toList)
    (h : Legible text) (leading : Int) : Legible (style.exponentForm text leading) := by
  have hexponent := exponentText leading
  have hpoint : Writer.needsEscape '.' = false := rfl
  have hletter : Writer.needsEscape 'e' = false := rfl
  unfold Decimal.FloatStyle.exponentForm
  split
  · exact nil
  · simp_all
  · simp_all

theorem write_documentFloats (value : Float) : Legible (documentFloats.write value).toList := by
  have hsign (negative : Bool) : Legible (if negative then "-" else "").toList := by
    cases negative <;> simp [Writer.needsEscape]
  unfold Decimal.FloatStyle.write
  split
  · simp [documentFloats, Writer.needsEscape]
  · rw [String.toList_append, append_iff]
    exact ⟨hsign _, by simp [documentFloats, valueFloats, Writer.needsEscape]⟩
  · dsimp only
    rw [String.toList_append, append_iff, String.toList_ofList]
    refine ⟨hsign _, ?_⟩
    split
    · exact plainText (digitText _) _
    · exact exponentForm (by simp [documentFloats, Writer.needsEscape]) (digitText _) _

/-! ### Dates and plain scalars -/

theorem toString_nat (number : Nat) : Legible (toString number).toList := by
  change Legible number.repr.toList
  rw [Nat.toList_repr]
  exact digitText number

theorem toString_int (number : Int) : Legible (toString number).toList := by
  cases number with
  | ofNat number => exact toString_nat number
  | negSucc number =>
    change Legible ("-" ++ toString (number + 1)).toList
    rw [String.toList_append, append_iff]
    exact ⟨by simp [Writer.needsEscape], toString_nat _⟩

theorem padded (width number : Nat) : Legible (RiskScan.padded width number).toList := by
  have hzeros (count : Nat) : Legible ("".pushn '0' count).toList := by
    rw [String.pushn_eq_repeat_push]
    induction count with
    | zero => exact nil
    | succ count ih =>
      rw [Nat.repeat, String.toList_push, append_iff]
      exact ⟨ih, by simp [Writer.needsEscape]⟩
  unfold RiskScan.padded
  dsimp only
  rw [String.toList_append, append_iff]
  exact ⟨hzeros _, toString_nat number⟩

theorem date (date : Date) : Legible date.text.toList := by
  have hpadded := padded
  unfold Date.text
  simp [hpadded, Writer.needsEscape]

theorem timeOfDay (time : TimeOfDay) : Legible time.text.toList := by
  have hpadded := padded
  unfold TimeOfDay.text
  split <;> simp [hpadded, Writer.needsEscape]

theorem offsetText (minutes : Int) : Legible (RiskScan.offsetText minutes).toList := by
  have hpadded := padded
  unfold RiskScan.offsetText
  split <;> simp [hpadded, Writer.needsEscape]

theorem moment (moment : Moment) : Legible moment.text.toList := by
  have hdate := date moment.date
  have htime := timeOfDay moment.time
  unfold Moment.text
  cases moment.offset with
  | none => simp [hdate, htime, Writer.needsEscape]
  | some minutes => simp [hdate, htime, offsetText, Writer.needsEscape]

/-! ### Texts -/

theorem spaces (count : Nat) : Legible (Writer.spaces count) :=
  replicate count rfl

theorem newLine (indent : Nat) : Legible (Writer.newLine indent) :=
  cons_iff.mpr ⟨rfl, spaces indent⟩

theorem plain (h : Legible text) (indent fuel column : Nat) :
    Legible (Writer.plain indent fuel column text) := by
  induction fuel generalizing column text with
  | zero => exact h
  | succ fuel ih =>
    unfold Writer.plain
    split
    · exact nil
    · dsimp only
      split
      · exact append_iff.mpr ⟨newLine indent, ih (h.drop _) _⟩
      · exact append_iff.mpr ⟨h.takeWhile _, ih (h.drop _) _⟩
    · exact append_iff.mpr ⟨h.takeWhile _, ih (h.drop _) _⟩

theorem single (h : Legible text) (indent fuel : Nat) (isFirst : Bool) (column : Nat) :
    Legible (Writer.single indent fuel isFirst column text) := by
  induction fuel generalizing isFirst column text with
  | zero => exact h
  | succ fuel ih =>
    unfold Writer.single
    split
    · exact nil
    · rw [cons_iff] at h
      exact cons_iff.mpr ⟨h.1, cons_iff.mpr ⟨h.1, ih h.2 _ _⟩⟩
    · dsimp only
      split
      · exact append_iff.mpr ⟨newLine indent, ih (h.drop _) _ _⟩
      · exact append_iff.mpr ⟨h.takeWhile _, ih (h.drop _) _ _⟩
    · dsimp only
      rw [append_iff, append_iff, cons_iff]
      exact ⟨⟨⟨rfl, h.takeWhile _⟩, spaces indent⟩, ih (h.drop _) _ _⟩
    · exact append_iff.mpr ⟨h.takeWhile _, ih (h.drop _) _ _⟩

theorem upperHex (width code : Nat) : Legible (Writer.upperHex width code) := by
  have hdigit : ∀ digit < 16, Writer.needsEscape (Nat.digitChar digit).toUpper = false := by decide
  unfold Writer.upperHex
  induction width generalizing code with
  | zero => exact nil
  | succ width ih =>
    rw [Text.hexDigits, List.map_append, append_iff]
    exact ⟨ih _, cons_iff.mpr ⟨hdigit _ (Nat.mod_lt _ (by decide)), nil⟩⟩

theorem escape (c : Char) : Legible (Writer.escape c) := by
  have hletters : ∀ pair ∈ Writer.letterEscapes, Writer.needsEscape pair.2 = false := by decide
  unfold Writer.escape
  split
  · rename_i letter hlookup
    obtain ⟨before, after, hsplit, -⟩ := List.lookup_eq_some_iff.mp hlookup
    have hletter := hletters (c, letter) (by rw [hsplit]; exact List.mem_append_right _ (.head _))
    exact cons_iff.mpr ⟨rfl, cons_iff.mpr ⟨hletter, nil⟩⟩
  · dsimp only
    split
    · exact cons_iff.mpr ⟨rfl, cons_iff.mpr ⟨rfl, upperHex _ _⟩⟩
    split
    · exact cons_iff.mpr ⟨rfl, cons_iff.mpr ⟨rfl, upperHex _ _⟩⟩
    · exact cons_iff.mpr ⟨rfl, cons_iff.mpr ⟨rfl, upperHex _ _⟩⟩

theorem needsEscape_of_not_isEscaped (h : ¬ Writer.isEscaped c = true) :
    Writer.needsEscape c = false := by
  obtain ⟨-, hlow, hhigh⟩ : _ ∧ 0x20 ≤ c.toNat ∧
    c.toNat ≤ 0x7e := by simpa [Writer.isEscaped] using h
  exact needsEscape_eq_false hlow hhigh

theorem double {waiting : List Char} (h : Legible waiting) (indent : Nat) (isFirst : Bool)
    (column : Nat) (text : List Char) :
    Legible (Writer.double indent isFirst column waiting text) := by
  induction text generalizing isFirst column waiting with
  | nil => exact h
  | cons c rest ih =>
    have hfold {written next : List Char} (hwritten : Legible written) (hnext : Legible next) :
        Legible (written ++ '\\' :: Writer.newLine indent ++ next) := by
      rw [append_iff, append_iff, cons_iff]
      exact ⟨⟨hwritten, rfl, newLine indent⟩, hnext⟩
    unfold Writer.double
    dsimp only
    split
    · have hwritten : Legible (waiting ++ Writer.escape c) := append_iff.mpr ⟨h, escape c⟩
      split
      · apply hfold hwritten
        split
        · exact cons_iff.mpr ⟨rfl, ih nil _ _⟩
        · exact ih nil _ _
      · exact append_iff.mpr ⟨hwritten, ih nil _ _⟩
    · rename_i hshown
      have hc : Legible [c] := cons_iff.mpr ⟨needsEscape_of_not_isEscaped hshown, nil⟩
      split
      · apply hfold h
        split
        · exact cons_iff.mpr ⟨rfl, ih hc _ _⟩
        · exact ih hc _ _
      · exact ih (append_iff.mpr ⟨h, hc⟩) _ _

theorem written (indent column : Nat) (chars : List Char) :
    Legible (Writer.text indent column chars) := by
  unfold Writer.text
  split
  · rename_i hplain
    apply plain
    intro c hc
    simp only [Writer.isPlain, Bool.and_eq_true, Bool.not_eq_true', List.any_eq_false,
      Bool.or_eq_true, not_or, Bool.not_eq_true] at hplain
    exact (hplain.1.1.1.2 c hc).1
  split
  · rename_i hfits
    have hchars : Legible chars := by
      intro c hc
      simp only [Writer.fitsSingleQuotes, Bool.and_eq_true, Bool.not_eq_true', List.any_eq_false,
        Bool.not_eq_true] at hfits
      exact hfits.1.1 c hc
    rw [List.cons_append, cons_iff, append_iff]
    exact ⟨rfl, single hchars _ _ _ _, cons_iff.mpr ⟨rfl, nil⟩⟩
  · rw [List.cons_append, cons_iff, append_iff]
    exact ⟨rfl, double nil _ _ _ _, cons_iff.mpr ⟨rfl, nil⟩⟩

theorem scalar (indent column : Nat) (value : Scalar) :
    Legible (Writer.scalar indent column value) := by
  cases value with
  | null => simp [Writer.scalar, Writer.needsEscape]
  | bool value => cases value <;> simp [Writer.scalar, Writer.needsEscape]
  | int value => exact toString_int value
  | float value => exact write_documentFloats value
  | text value => exact written indent column value.toList
  | date value => exact date value
  | moment value => exact moment value

/-! ### Documents -/

mutual

theorem entryValue (indent column : Nat) : ∀ value, Legible (Writer.entryValue indent column value)
  | .scalar value => by
    rw [Writer.entryValue, append_iff, cons_iff]
    exact ⟨⟨rfl, scalar _ _ value⟩, cons_iff.mpr ⟨rfl, nil⟩⟩
  | .list [] => by simp [Writer.entryValue, Writer.needsEscape]
  | .mapping [] => by simp [Writer.entryValue, Writer.needsEscape]
  | .list (value :: values) => by
    unfold Writer.entryValue
    exact cons_iff.mpr ⟨rfl, items indent (value :: values)⟩
  | .mapping (entry :: inner) => by
    unfold Writer.entryValue
    exact cons_iff.mpr ⟨rfl, entries (indent + 2) (entry :: inner)⟩

theorem entries (indent : Nat) : ∀ entries, Legible (Writer.entries indent entries)
  | [] => nil
  | (key, value) :: rest => by
    rw [Writer.entries, append_iff, append_iff, append_iff, append_iff]
    exact ⟨⟨⟨⟨spaces indent, scalar _ _ key⟩, cons_iff.mpr ⟨rfl, nil⟩⟩, entryValue _ _ value⟩,
      entries indent rest⟩

theorem itemValue (indent : Nat) : ∀ value, Legible (Writer.itemValue indent value)
  | .scalar value => by
    rw [Writer.itemValue, append_iff, cons_iff]
    exact ⟨⟨rfl, scalar _ _ value⟩, cons_iff.mpr ⟨rfl, nil⟩⟩
  | .list [] => by simp [Writer.itemValue, Writer.needsEscape]
  | .mapping [] => by simp [Writer.itemValue, Writer.needsEscape]
  | .list (value :: values) => by
    unfold Writer.itemValue
    exact cons_iff.mpr ⟨rfl, (items (indent + 2) (value :: values)).drop _⟩
  | .mapping (entry :: inner) => by
    unfold Writer.itemValue
    exact cons_iff.mpr ⟨rfl, (entries (indent + 2) (entry :: inner)).drop _⟩

theorem items (indent : Nat) : ∀ values, Legible (Writer.items indent values)
  | [] => nil
  | value :: rest => by
    rw [Writer.items, append_iff, append_iff, cons_iff]
    exact ⟨⟨spaces indent, rfl, itemValue indent value⟩, items indent rest⟩

end

theorem write (entries : List (Scalar × Value)) : Legible (Yaml.write entries) := by
  unfold Yaml.write
  split
  · simp [Writer.needsEscape]
  · exact Legible.entries 0 entries

/-- There is no carriage return that could be part of a line end. -/
theorem unifyNewlines (h : Legible text) : Text.unifyNewlines text = text := by
  induction text with
  | nil => rfl
  | cons c rest ih =>
    obtain ⟨hc, hrest⟩ := cons_iff.mp h
    have hreturn : c ≠ '\r' := by
      rintro rfl
      exact absurd hc (by decide)
    rw [Text.unifyNewlines, ih hrest]
    · exact fun _ heq _ => hreturn heq
    · exact hreturn

end Legible

end RiskScan.Yaml
