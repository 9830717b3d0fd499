import RiskScan.Proofs.Console.Escaping
/-!
# Lines of a report

A line is written from a template: fixed parts first, then up to two texts from elsewhere, and at
its end perhaps a tag that closes the style. Each text is escaped on its own. The line shows both
texts as they are exactly if neither has a stray backslash before a bracket, no tag begins in the
first text and ends in the second, and the backslashes at the end of each are right for what
follows.
-/

namespace RiskScan

open Markup

/-- A text that means nothing to a console. -/
def Quiet (text : String) : Prop :=
  ∀ c ∈ text.toList, c ≠ '[' ∧ c ≠ ']' ∧ c ≠ '\\' ∧ c ≠ '\n'

instance (text : String) : Decidable (Quiet text) :=
  List.decidableBAll _ _

/-- A text that stays on its line. -/
def Unbroken (text : String) : Prop :=
  '\n' ∉ text.toList

instance (text : String) : Decidable (Unbroken text) :=
  inferInstanceAs (Decidable (_ ∉ _))

namespace Quiet

variable {text first second : String}

@[simp]
theorem append_iff : Quiet (first ++ second) ↔ Quiet first ∧ Quiet second := by
  rw [Quiet, String.toList_append]
  exact List.forall_mem_append

theorem not_mem_bracket (h : Quiet text) : '[' ∉ text.toList :=
  fun hmem => (h _ hmem).1 rfl

theorem not_mem_slash (h : Quiet text) : '\\' ∉ text.toList :=
  fun hmem => (h _ hmem).2.2.1 rfl

theorem not_mem_newline (h : Quiet text) : '\n' ∉ text.toList :=
  fun hmem => (h _ hmem).2.2.2 rfl

theorem find?_eq_none (h : Quiet text) : text.toList.find? isBracket = none := by
  refine List.find?_eq_none.mpr fun c hc => ?_
  simp [isBracket, (h c hc).1, (h c hc).2.1]

theorem exists_cons (h : Quiet text) (hne : text ≠ "") :
    ∃ c rest, text.toList = c :: rest ∧ c ≠ '\\' ∧ c ≠ '[' := by
  obtain ⟨c, rest, hcons⟩ := List.exists_cons_of_ne_nil (l := text.toList) (by simpa using hne)
  have hquiet := h c (by rw [hcons]; exact List.mem_cons_self)
  exact ⟨c, rest, hcons, hquiet.2.2.1, hquiet.1⟩

/-- All the backslashes before words are shown. -/
theorem readFrom_append (h : Quiet text) (hne : text ≠ "") (pending : Nat) (rest : List Char) :
    readFrom pending (text.toList ++ rest) =
      chars (backslashes pending ++ text.toList) ++ readFrom 0 rest := by
  rw [chars_append, List.append_assoc, ← readFrom_words h.not_mem_bracket h.not_mem_slash]
  obtain ⟨c, more, hcons, hslash, hbracket⟩ := h.exists_cons hne
  rw [hcons, List.cons_append]
  exact readFrom_eq_append hslash hbracket

end Quiet

/-! ### Fixed parts -/

/-- A part of a line that is the same whatever texts are shown on it. -/
inductive Part where
  | words (text : String)
  | style (body : String)
  /-- Words in square brackets. -/
  | label (text : String)
  deriving DecidableEq, Repr

namespace Part

def markup : Part → String
  | words text => text
  | style body => "[" ++ body ++ "]"
  | label text => "\\[" ++ text ++ "]"

def text : Part → String
  | words text => text
  | style _ => ""
  | label text => "[" ++ text ++ "]"

def pieces : Part → List Piece
  | words text => chars text.toList
  | style body => [.style body.toList]
  | label text => chars ('[' :: text.toList ++ [']'])

/-- A style is a tag, a label is none. -/
def Sound : Part → Prop
  | words text => Quiet text
  | style body => Quiet body ∧ opens body.toList = true
  | label text => Quiet text ∧ text ≠ "" ∧ opens text.toList = false

variable {part : Part}

theorem textOf_pieces : textOf part.pieces = part.text.toList := by
  cases part with
  | words text => exact textOf_chars _
  | style body => rfl
  | label text => simp [pieces, Part.text]

theorem readFrom_markup (h : part.Sound) (rest : List Char) :
    readFrom 0 (part.markup.toList ++ rest) = part.pieces ++ readFrom 0 rest := by
  cases part with
  | words text => exact readFrom_words h.not_mem_bracket h.not_mem_slash
  | style body =>
    have hsome := tag?_of_body h.2 h.1.find?_eq_none rest
    simp [markup, pieces, readFrom_of_some hsome]
  | label text =>
    have hne : text.toList ≠ [] := by simpa using h.2.1
    have hnone : tag? (text.toList ++ ']' :: rest) = none :=
      tag?_eq_none (by rw [opens_append hne, h.2.2, Bool.false_and])
    simp [markup, pieces, readFrom_slash, readFrom_of_none hnone,
      readFrom_append_of_not_mem h.1.not_mem_bracket (c := ']') (by decide) (by decide)]

theorem textOf_flatMap_pieces (parts : List Part) :
    textOf (parts.flatMap pieces) = (String.join (parts.map Part.text)).toList := by
  induction parts with
  | nil => rfl
  | cons part parts ih => simp [textOf_pieces, ih, String.toList_join]

theorem readFrom_join {parts : List Part} (h : ∀ part ∈ parts, part.Sound) (rest : List Char) :
    readFrom 0 ((String.join (parts.map markup)).toList ++ rest) =
      parts.flatMap pieces ++ readFrom 0 rest := by
  rw [String.toList_join]
  induction parts with
  | nil => rfl
  | cons part parts ih =>
    have hparts := ih fun part hpart => h part (List.mem_cons_of_mem _ hpart)
    simp [readFrom_markup (h part List.mem_cons_self), hparts]

theorem newline_not_mem_text (h : part.Sound) : '\n' ∉ part.text.toList := by
  cases part with
  | words text => exact h.not_mem_newline
  | style body => exact List.not_mem_nil
  | label text => simpa [Part.text] using h.1.not_mem_newline

theorem newline_not_mem_markup (h : part.Sound) : '\n' ∉ part.markup.toList := by
  cases part with
  | words text => exact h.not_mem_newline
  | style body => simpa [markup] using h.1.not_mem_newline
  | label text => simpa [markup] using h.1.not_mem_newline

end Part

/-! ### The end of a line -/

/-- The last text of a line, the words after it and the tag after these. -/
structure Ending where
  text : String := ""
  tail : String := ""
  closing : Option String := none
  deriving DecidableEq, Repr

namespace Ending

def markup (ending : Ending) : String :=
  escape ending.text ++ ending.tail ++ ending.closing.elim "" fun body => "[" ++ body ++ "]"

/-- The markup after the text. -/
def after (ending : Ending) : List Char :=
  ending.tail.toList ++ ending.closing.elim [] fun body => '[' :: body.toList ++ [']']

def styles (ending : Ending) : List Piece :=
  ending.closing.elim [] fun body => [.style body.toList]

structure Sound (ending : Ending) : Prop where
  tail : Quiet ending.tail
  words : opens ending.tail.toList = false
  closing : ∀ body ∈ ending.closing, Quiet body ∧ opens body.toList = true

/-- The tag at the end follows right after the text. -/
def Direct (ending : Ending) : Prop :=
  ending.tail = "" ∧ ending.closing.isSome = true

instance (ending : Ending) : Decidable ending.Direct :=
  inferInstanceAs (Decidable (_ ∧ _))

/-- Whether a number of backslashes at the end of the text is shown as it is. -/
def Fits (ending : Ending) (trailing : Nat) : Prop :=
  if ending.Direct then trailing ≤ 1 else trailing ≠ 1

instance (ending : Ending) (trailing : Nat) : Decidable (ending.Fits trailing) :=
  inferInstanceAs (Decidable (ite _ _ _))

/-- The conditions under which the last text is shown as it is. -/
def Legible (ending : Ending) : Prop :=
  steadyFrom 0 ending.text.toList = true ∧ ending.Fits (trailingFrom 0 ending.text.toList)

instance (ending : Ending) : Decidable ending.Legible :=
  inferInstanceAs (Decidable (_ ∧ _))

variable {ending : Ending}

theorem opens_after (h : ending.Sound) (count : Nat) :
    opens (backslashes count ++ ending.after) = false := by
  obtain ⟨text, tail, closing⟩ := ending
  cases count with
  | succ count => rfl
  | zero =>
    by_cases hnil : tail.toList = []
    · cases closing <;> simp [after, hnil, opens, opensTag]
    · rw [backslashes_zero, List.nil_append, after, opens_append hnil]
      exact h.words

theorem closes_after (h : ending.Sound) (count : Nat) :
    closes (backslashes count ++ ending.after) = false := by
  rw [closes, find?_backslashes_append, after, List.find?_append, h.tail.find?_eq_none,
    Option.none_or]
  cases ending.closing with
  | none => rfl
  | some body => rfl

@[simp]
theorem textOf_styles : textOf ending.styles = [] := by
  rw [styles]
  cases ending.closing with
  | none => rfl
  | some body => rfl

/-- The tag at the end is read as a tag after an even number of backslashes. -/
theorem readFrom_closing {body : String} (h : Quiet body ∧ opens body.toList = true)
    (pending : Nat) :
    readFrom pending ('[' :: body.toList ++ [']']) = chars (backslashes (pending / 2)) ++
      (if pending % 2 = 1 then chars ('[' :: body.toList ++ [']']) else [.style body.toList]) := by
  have hsome := tag?_of_body h.2 h.1.find?_eq_none []
  rw [List.cons_append, readFrom_of_some hsome, readFrom]
  simp

theorem readFrom_after_of_direct (h : ending.Sound) (hdirect : ending.Direct) :
    ∃ body, ∀ pending, readFrom pending ending.after = chars (backslashes (pending / 2)) ++
      (if pending % 2 = 1 then chars ('[' :: body ++ [']']) else ending.styles) := by
  obtain ⟨body, hbody⟩ := Option.isSome_iff_exists.mp hdirect.2
  refine ⟨body.toList, fun pending => ?_⟩
  rw [after, styles, hdirect.1, hbody]
  exact readFrom_closing (h.closing body hbody) pending

/-- Where words or nothing follow the text, all the backslashes before them are shown. -/
theorem readFrom_after_of_not_direct (h : ending.Sound) (hdirect : ¬ending.Direct) (pending : Nat) :
    readFrom pending ending.after = chars (backslashes pending ++ ending.tail.toList) ++
      ending.styles := by
  by_cases htail : ending.tail = ""
  · have hclosing : ending.closing = none := by simpa [Direct, htail] using hdirect
    simp [after, styles, htail, hclosing, readFrom]
  · rw [after, styles, h.tail.readFrom_append htail]
    cases hclosing : ending.closing with
    | none => simp [readFrom]
    | some body => simp only [Option.elim_some, readFrom_closing (h.closing body hclosing)]; rfl

theorem readFrom_after_of_fits (h : ending.Sound) {trailing : Nat} (hfits : ending.Fits trailing) :
    readFrom (escapedTrailing trailing) ending.after =
      chars (backslashes trailing ++ ending.tail.toList) ++ ending.styles := by
  unfold Fits at hfits
  by_cases hdirect : ending.Direct
  · obtain ⟨body, hread⟩ := readFrom_after_of_direct h hdirect
    rw [if_pos hdirect] at hfits
    have hcases := escapedTrailing_cases trailing
    have hhalf : escapedTrailing trailing / 2 = trailing ∧
        escapedTrailing trailing % 2 = 0 := by omega
    rw [hread, hhalf.1, hhalf.2, hdirect.1]
    simp
  · rw [if_neg hdirect] at hfits
    rw [readFrom_after_of_not_direct h hdirect, escapedTrailing_eq_self_iff.mpr hfits]

theorem fits_of_text (h : ending.Sound) {trailing : Nat}
    (htext : textOf (readFrom (escapedTrailing trailing) ending.after) =
      backslashes trailing ++ ending.tail.toList) :
    ending.Fits trailing := by
  unfold Fits
  by_cases hdirect : ending.Direct
  · obtain ⟨body, hread⟩ := readFrom_after_of_direct h hdirect
    have hcases := escapedTrailing_cases trailing
    rw [hread, hdirect.1] at htext
    rw [if_pos hdirect]
    by_cases hodd : escapedTrailing trailing % 2 = 1
    · -- the tag is shown where a backslash should be
      rw [if_pos hodd] at htext
      have hlt : escapedTrailing trailing / 2 < trailing := by omega
      have happart : Apart (backslashes (escapedTrailing trailing / 2) ++ '[' :: (body ++ [']']))
          (backslashes trailing ++ []) := Apart.of_lt hlt
      exact absurd (by simpa using htext) (happart [] [])
    · rw [if_neg hodd] at htext
      have hlength := congrArg List.length htext
      simp only [textOf_append, textOf_chars, textOf_styles, List.length_append, length_backslashes,
        String.toList_empty, List.length_nil, Nat.add_zero] at hlength
      omega
  · rw [readFrom_after_of_not_direct h hdirect] at htext
    have hlength := congrArg List.length htext
    simp only [textOf_append, textOf_chars, textOf_styles, List.length_append, length_backslashes,
      List.length_nil, Nat.add_zero] at hlength
    rw [if_neg hdirect]
    exact escapedTrailing_eq_self_iff.mp (Nat.add_right_cancel hlength)

/-- After backslashes no more is shown than these, one more and the words, unless the tag at the end
is shown. -/
theorem length_textOf_after (h : ending.Sound) (trailing : Nat) :
    (textOf (readFrom (escapedTrailing trailing) ending.after)).length ≤
      trailing + 1 + ending.tail.length ∨
      ending.tail = "" ∧ 0 < trailing ∧
        ∃ before, textOf (readFrom (escapedTrailing trailing) ending.after) = before ++ [']'] := by
  have hcases := escapedTrailing_cases trailing
  by_cases hdirect : ending.Direct
  · obtain ⟨body, hread⟩ := readFrom_after_of_direct h hdirect
    rw [hread]
    by_cases hodd : escapedTrailing trailing % 2 = 1
    · rw [if_pos hodd, ← chars_append, textOf_chars]
      exact .inr ⟨hdirect.1, by omega, backslashes (escapedTrailing trailing / 2) ++
        '[' :: body, by simp⟩
    · rw [if_neg hodd]
      refine .inl ?_
      simp only [textOf_append, textOf_chars, textOf_styles, List.length_append, length_backslashes,
        List.length_nil]
      omega
  · rw [readFrom_after_of_not_direct h hdirect]
    refine .inl ?_
    simp only [textOf_append, textOf_chars, textOf_styles, List.length_append, length_backslashes,
      List.length_nil, String.length_toList]
    omega

/-! ### Reading the end of a line -/

theorem toList_markup : ending.markup.toList = (escape ending.text).toList ++ ending.after := by
  rw [markup, after, String.toList_append, String.toList_append, List.append_assoc]
  cases ending.closing with
  | none => rfl
  | some body => simp

theorem closes_markup (h : ending.Sound) :
    closes ending.markup.toList = closes ending.text.toList := by
  obtain ⟨count, hescape, -⟩ := toList_escape ending.text
  rw [toList_markup, hescape, List.append_assoc]
  by_cases hnone : ending.text.toList.find? isBracket = none
  · rw [closes_append_of_none (find?_escapeFrom.trans hnone), closes_after h, closes, hnone]
    rfl
  · rw [closes_append_of_ne_none (by rwa [find?_escapeFrom]), closes, closes, find?_escapeFrom]

/-- The last part of the text, followed by what is added to the whole text. -/
theorem readFrom_escapeFrom_after (h : ending.Sound) {text : List Char} {count : Nat}
    (hcount : trailingFrom 0 text + count = escapedTrailing (trailingFrom 0 text)) :
    readFrom 0 (escapeFrom 0 text ++ (backslashes count ++ ending.after)) =
      chars (shownFrom 0 text) ++
        readFrom (escapedTrailing (trailingFrom 0 text)) ending.after := by
  rw [readFrom_escapeFrom (opens_after h count) (fun _ => closes_after h count),
    readFrom_backslashes, hcount]

theorem readFrom_markup (h : ending.Sound) : readFrom 0 ending.markup.toList =
    chars (shownFrom 0 ending.text.toList) ++
      readFrom (escapedTrailing (trailingFrom 0 ending.text.toList)) ending.after := by
  obtain ⟨count, hescape, hcount⟩ := toList_escape ending.text
  rw [toList_markup, hescape, List.append_assoc, readFrom_escapeFrom_after h hcount]

def pieces (ending : Ending) : List Piece :=
  chars (ending.text.toList ++ ending.tail.toList) ++ ending.styles

theorem readFrom_of_legible (h : ending.Sound) (hlegible : ending.Legible) :
    readFrom 0 ending.markup.toList = ending.pieces := by
  rw [readFrom_markup h, readFrom_after_of_fits h hlegible.2, ← List.append_assoc, ← chars_append,
    ← List.append_assoc, shownFrom_zero_append hlegible.1, pieces]

theorem legible_of_text (h : ending.Sound)
    (htext : textOf (readFrom 0 ending.markup.toList) = ending.text.toList ++ ending.tail.toList) :
    ending.Legible := by
  rw [readFrom_markup h, textOf_append, textOf_chars] at htext
  cases hsteady : steadyFrom 0 ending.text.toList with
  | false => exact absurd htext (apart_of_not_steady hsteady _ _)
  | true =>
    refine ⟨hsteady, fits_of_text h ?_⟩
    rw [← List.append_cancel_left_eq (shownFrom 0 ending.text.toList), htext, ← List.append_assoc,
      shownFrom_zero_append hsteady]

end Ending

/-! ### Two texts on a line -/

/-- A text with the words between it and the next one. -/
structure Joint where
  text : String
  words : String
  deriving DecidableEq, Repr

namespace Joint

structure Sound (joint : Joint) : Prop where
  words : Quiet joint.words
  ne_empty : joint.words ≠ ""
  opens : opens joint.words.toList = false

/-- The conditions under which the text is shown as it is in front of another one. -/
def Legible (joint : Joint) (next : String) : Prop :=
  steadyFrom 0 joint.text.toList = true ∧ trailingFrom 0 joint.text.toList ≠ 1 ∧
    ¬(unclosed joint.text.toList = true ∧ closes next.toList = true)

instance (joint : Joint) (next : String) : Decidable (joint.Legible next) :=
  inferInstanceAs (Decidable (_ ∧ _))

def markup (joint : Joint) : String :=
  escape joint.text ++ joint.words

variable {joint : Joint} {ending : Ending}

theorem opens_words (h : joint.Sound) (count : Nat) (rest : List Char) :
    Markup.opens (backslashes count ++ (joint.words.toList ++ rest)) = false := by
  cases count with
  | succ count => rfl
  | zero =>
    rw [backslashes_zero, List.nil_append, opens_append (by simpa using h.ne_empty)]
    exact h.opens

theorem readFrom_markup (h : joint.Sound) (hending : ending.Sound)
    (hcross : ¬(unclosed joint.text.toList = true ∧ closes ending.text.toList = true)) :
    readFrom 0 (joint.markup ++ ending.markup).toList =
      chars (shownFrom 0 joint.text.toList) ++
        (chars (backslashes (escapedTrailing (trailingFrom 0 joint.text.toList)) ++
          joint.words.toList) ++
          readFrom 0 ending.markup.toList) := by
  obtain ⟨count, hescape, hcount⟩ := toList_escape joint.text
  have hcloses : unclosed joint.text.toList = true →
      closes (backslashes count ++ (joint.words.toList ++ ending.markup.toList)) = false := by
    intro hunclosed
    rw [closes, find?_backslashes_append, ← closes, closes_append_of_none h.words.find?_eq_none,
      Ending.closes_markup hending]
    exact Bool.eq_false_iff.mpr fun hclose => hcross ⟨hunclosed, hclose⟩
  rw [markup, String.toList_append, String.toList_append, hescape, List.append_assoc,
    List.append_assoc, readFrom_escapeFrom (opens_words h count _) hcloses, readFrom_backslashes,
    hcount, h.words.readFrom_append h.ne_empty]

/-- Where a tag begins in the first text and ends in the second, the texts are not shown as they
are. -/
theorem text_ne_of_crossing (h : joint.Sound) (hending : ending.Sound)
    (hunclosed : unclosed joint.text.toList = true) (hcloses : closes ending.text.toList = true) :
    textOf (readFrom 0 (joint.markup ++ ending.markup).toList) ≠
      joint.text.toList ++ joint.words.toList ++ (ending.text.toList ++ ending.tail.toList) := by
  obtain ⟨inside, more, htext, hinside⟩ := exists_of_closes hcloses
  obtain ⟨count, hescape, -⟩ := toList_escape joint.text
  obtain ⟨extra, hextra, htrailing⟩ := toList_escape ending.text
  rw [htext, trailingFrom_append_closing] at htrailing
  have hbefore : (backslashes count ++ (joint.words.toList ++ inside)).find? isBracket = none := by
    rw [find?_backslashes_append, List.find?_append, h.words.find?_eq_none, hinside, Option.none_or]
  have hmarkup : (joint.markup ++ ending.markup).toList = escapeFrom 0 joint.text.toList ++
      (backslashes count ++ (joint.words.toList ++ inside) ++
        ']' :: (escapeFrom 0 more ++ (backslashes extra ++ ending.after))) := by
    rw [markup, String.toList_append, String.toList_append, Ending.toList_markup, hescape, hextra,
      htext, escapeFrom_append_of_not_mem (ne_of_find?_eq_none hinside) (by decide) (by decide)]
    simp
  have hopens : Markup.opens (backslashes count ++ (joint.words.toList ++ inside) ++
      ']' :: (escapeFrom 0 more ++ (backslashes extra ++ ending.after))) = false := by
    rw [List.append_assoc, List.append_assoc]
    exact opens_words h count _
  obtain ⟨pieces, hread, hshort⟩ := exists_readFrom_escapeFrom 0 hunclosed hbefore hopens
  rw [backslashes_zero, List.nil_append] at hshort
  rw [hmarkup, hread, Ending.readFrom_escapeFrom_after hending htrailing, htext, textOf_append,
    textOf_append, textOf_chars]
  intro heq
  obtain hlength | hapart := hshort
  · obtain hshown | ⟨htail, hpos, before, hlast⟩ :=
      Ending.length_textOf_after hending (trailingFrom 0 more)
    · have hmore := length_shownFrom_le 0 more
      have hlengths := congrArg List.length heq
      simp only [List.length_append, List.length_cons, String.length_toList] at hlengths hlength
      omega
    · -- the line ends in a bracket of its own tag, where the text ends in a backslash
      obtain ⟨init, rfl⟩ := exists_of_trailingFrom_pos hpos
      rw [hlast, htail] at heq
      have hends : (textOf pieces ++ shownFrom 0 (init ++ ['\\']) ++ before) ++ [']'] =
          (joint.text.toList ++ joint.words.toList ++ inside ++ ']' :: init) ++ ['\\'] := by
        simpa using heq
      exact absurd (List.append_inj_right' hends rfl) (by decide)
  · exact hapart _ (joint.words.toList ++ (inside ++ ']' :: more ++ ending.tail.toList))
      (by simpa using heq)

theorem legible_of_text (h : joint.Sound) (hending : ending.Sound)
    (htext : textOf (readFrom 0 (joint.markup ++ ending.markup).toList) =
      joint.text.toList ++ joint.words.toList ++ (ending.text.toList ++ ending.tail.toList)) :
    joint.Legible ending.text ∧ ending.Legible := by
  have hcross : ¬(unclosed joint.text.toList = true ∧ closes ending.text.toList = true) :=
    fun hcross => text_ne_of_crossing h hending hcross.1 hcross.2 htext
  rw [readFrom_markup h hending hcross, textOf_append, textOf_append, textOf_chars,
    textOf_chars] at htext
  cases hsteady : steadyFrom 0 joint.text.toList with
  | false =>
    rw [List.append_assoc joint.text.toList] at htext
    exact absurd htext (apart_of_not_steady hsteady _ _)
  | true =>
    have hrest : backslashes (escapedTrailing (trailingFrom 0 joint.text.toList)) ++
        (joint.words.toList ++ textOf (readFrom 0 ending.markup.toList)) =
          backslashes (trailingFrom 0 joint.text.toList) ++
            (joint.words.toList ++ (ending.text.toList ++ ending.tail.toList)) := by
      rw [← List.append_cancel_left_eq (shownFrom 0 joint.text.toList),
        ← List.append_assoc (backslashes _), htext, ← List.append_assoc (shownFrom 0 _),
        shownFrom_zero_append hsteady, List.append_assoc]
    have hone : trailingFrom 0 joint.text.toList ≠ 1 := by
      intro hone
      -- of the two backslashes shown, the second stands where the words begin
      obtain ⟨c, more, hcons, hslash, -⟩ := h.words.exists_cons h.ne_empty
      rw [hone, hcons] at hrest
      exact hslash (List.cons.inj (List.cons.inj hrest).2).1.symm
    rw [escapedTrailing_eq_self_iff.mpr hone] at hrest
    have hlast := List.append_cancel_left (List.append_cancel_left hrest)
    exact ⟨⟨hsteady, hone, hcross⟩, Ending.legible_of_text hending hlast⟩

theorem readFrom_of_legible (h : joint.Sound) (hending : ending.Sound)
    (hlegible : joint.Legible ending.text) :
    readFrom 0 (joint.markup ++ ending.markup).toList =
      chars (joint.text.toList ++ joint.words.toList) ++ readFrom 0 ending.markup.toList := by
  rw [readFrom_markup h hending hlegible.2.2, escapedTrailing_eq_self_iff.mpr hlegible.2.1,
    ← List.append_assoc, ← chars_append, ← List.append_assoc, shownFrom_zero_append hlegible.1]

end Joint

/-! ### Lines -/

structure Line where
  lead : List Part
  joint? : Option Joint := none
  ending : Ending := { }
  deriving DecidableEq, Repr

namespace Line

def markup (line : Line) : String :=
  String.join (line.lead.map Part.markup) ++
    (line.joint?.elim "" Joint.markup ++ line.ending.markup)

/-- The template with its tags left out and the texts as they are. -/
def text (line : Line) : String :=
  String.join (line.lead.map Part.text) ++
    (line.joint?.elim "" fun joint => joint.text ++ joint.words) ++
    line.ending.text ++ line.ending.tail

/-- The template with its tags as styles and the texts as they are. -/
def pieces (line : Line) : List Piece :=
  line.lead.flatMap Part.pieces ++
    ((line.joint?.elim [] fun joint => chars (joint.text.toList ++ joint.words.toList)) ++
      line.ending.pieces)

structure Sound (line : Line) : Prop where
  lead : ∀ part ∈ line.lead, part.Sound
  joint : ∀ joint ∈ line.joint?, joint.Sound
  ending : line.ending.Sound

/-- The conditions under which both texts are shown as they are. -/
def Legible (line : Line) : Prop :=
  (∀ joint ∈ line.joint?, joint.Legible line.ending.text) ∧ line.ending.Legible

instance (line : Line) : Decidable line.Legible :=
  inferInstanceAs (Decidable (_ ∧ _))

variable {line : Line}

theorem textOf_pieces : textOf line.pieces = line.text.toList := by
  rw [pieces, text, textOf_append, Part.textOf_flatMap_pieces, Ending.pieces]
  cases line.joint? with
  | none => simp
  | some joint => simp

theorem readFrom_of_legible (h : line.Sound) (hlegible : line.Legible) :
    readFrom 0 line.markup.toList = line.pieces := by
  rw [markup, pieces, String.toList_append, Part.readFrom_join h.lead]
  cases hjoint : line.joint? with
  | none =>
    rw [Option.elim_none, Option.elim_none, String.empty_append, List.nil_append,
      Ending.readFrom_of_legible h.ending hlegible.2]
  | some joint =>
    rw [Option.elim_some, Option.elim_some,
      Joint.readFrom_of_legible (h.joint joint hjoint) h.ending (hlegible.1 joint hjoint),
      Ending.readFrom_of_legible h.ending hlegible.2]

theorem legible_of_text (h : line.Sound)
    (htext : textOf (readFrom 0 line.markup.toList) = line.text.toList) :
    line.Legible := by
  rw [← textOf_pieces, markup, pieces, String.toList_append, Part.readFrom_join h.lead,
    textOf_append, textOf_append] at htext
  have hrest := List.append_cancel_left htext
  cases hjoint : line.joint? with
  | none =>
    rw [hjoint, Option.elim_none, Option.elim_none, String.empty_append, List.nil_append,
      Ending.pieces, textOf_append, textOf_chars, Ending.textOf_styles, List.append_nil] at hrest
    refine ⟨fun joint hmem => ?_, Ending.legible_of_text h.ending hrest⟩
    rw [hjoint] at hmem
    exact absurd hmem (by simp)
  | some joint =>
    rw [hjoint, Option.elim_some, Option.elim_some, Ending.pieces, textOf_append, textOf_append,
      textOf_chars, textOf_chars, Ending.textOf_styles, List.append_nil] at hrest
    obtain ⟨hfirst, hlast⟩ := Joint.legible_of_text (h.joint joint hjoint) h.ending hrest
    refine ⟨fun other hmem => ?_, hlast⟩
    rw [hjoint, Option.mem_some_iff] at hmem
    exact hmem ▸ hfirst

/-- **A line shows its texts as they are exactly if it is legible.** -/
theorem text_eq_iff (h : line.Sound) : plain line.markup = line.text ↔ line.Legible := by
  rw [plain, plainFrom_eq_textOf]
  constructor
  · intro heq
    exact legible_of_text h (by rw [← heq, String.toList_ofList])
  · intro hlegible
    rw [readFrom_of_legible h hlegible, textOf_pieces, String.ofList_toList]

example : ¬Legible {
    lead := []
    joint? := some { text := "[x", words := ": " }
    ending := { text := "y]" } } := by
  decide

example : ¬Legible { lead := [], ending := { text := "a\\[1" } } := by
  decide

example : ¬Legible { lead := [], ending := { text := "a\\" } } := by
  decide

/-! ### Line breaks -/

/-- No text on the line breaks it. -/
def Unbroken (line : Line) : Prop :=
  (∀ joint ∈ line.joint?, RiskScan.Unbroken joint.text) ∧ RiskScan.Unbroken line.ending.text

theorem newline_not_mem_join {parts : List Part} {shown : Part → String}
    (h : ∀ part ∈ parts, '\n' ∉ (shown part).toList) :
    '\n' ∉ (String.join (parts.map shown)).toList := by
  rw [String.toList_join, List.mem_flatMap]
  rintro ⟨text, hmem, hnewline⟩
  obtain ⟨part, hpart, rfl⟩ := List.mem_map.mp hmem
  exact h part hpart hnewline

theorem newline_not_mem_markup (h : line.Sound) (hunbroken : line.Unbroken) :
    '\n' ∉ line.markup.toList := by
  have hlead :=
    newline_not_mem_join fun part hpart => Part.newline_not_mem_markup (h.lead part hpart)
  have hending : '\n' ∉ line.ending.markup.toList := by
    rw [Ending.toList_markup, Ending.after, List.mem_append, List.mem_append, not_or, not_or]
    refine ⟨newline_not_mem_escape hunbroken.2, h.ending.tail.not_mem_newline, ?_⟩
    cases hclosing : line.ending.closing with
    | none => exact List.not_mem_nil
    | some body => simpa using (h.ending.closing body hclosing).1.not_mem_newline
  rw [markup, String.toList_append, String.toList_append, List.mem_append, List.mem_append, not_or,
    not_or]
  refine ⟨hlead, ?_, hending⟩
  cases hjoint : line.joint? with
  | none => exact List.not_mem_nil
  | some joint =>
    rw [Option.elim_some, Joint.markup, String.toList_append, List.mem_append, not_or]
    exact ⟨newline_not_mem_escape (hunbroken.1 joint hjoint),
      (h.joint joint hjoint).words.not_mem_newline⟩

theorem newline_not_mem_shown (h : line.Sound) (hunbroken : line.Unbroken) :
    '\n' ∉ textOf (readFrom 0 line.markup.toList) := by
  intro hmem
  exact newline_not_mem_markup h hunbroken ((mem_textOf_readFrom hmem).resolve_left (by decide))

theorem newline_not_mem_text (h : line.Sound) (hunbroken : line.Unbroken) :
    '\n' ∉ line.text.toList := by
  have hlead := newline_not_mem_join fun part hpart => Part.newline_not_mem_text (h.lead part hpart)
  simp only [text, String.toList_append, List.mem_append, not_or]
  refine ⟨⟨⟨hlead, ?_⟩, hunbroken.2⟩, h.ending.tail.not_mem_newline⟩
  cases hjoint : line.joint? with
  | none => exact List.not_mem_nil
  | some joint =>
    rw [Option.elim_some, String.toList_append, List.mem_append, not_or]
    exact ⟨hunbroken.1 joint hjoint, (h.joint joint hjoint).words.not_mem_newline⟩

end Line

end RiskScan
