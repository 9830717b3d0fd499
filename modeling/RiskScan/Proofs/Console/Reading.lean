import RiskScan.Console.Markup
/-!
# What a console reads

A console reads markup as characters to show and style tags to obey; the plain text is the
characters among them. Markup can be read in pieces where no tag reaches from one piece into the
next.
-/

namespace RiskScan.Markup

/-- One thing that a console reads. -/
inductive Piece where
  | shown (c : Char)
  | style (body : List Char)
  deriving DecidableEq, Repr

namespace Piece

def char? : Piece → Option Char
  | .shown c => some c
  | .style _ => none

end Piece

/-- The pieces of a text that is shown as it is. -/
def chars (text : List Char) : List Piece :=
  text.map .shown

/-- The text among some pieces. -/
def textOf (pieces : List Piece) : List Char :=
  pieces.filterMap Piece.char?

@[simp]
theorem chars_nil : chars [] = [] :=
  rfl

@[simp]
theorem chars_cons (c : Char) (text : List Char) : chars (c :: text) = .shown c :: chars text :=
  rfl

@[simp]
theorem chars_append (first second : List Char) :
    chars (first ++ second) = chars first ++ chars second :=
  List.map_append

@[simp]
theorem textOf_nil : textOf [] = [] :=
  rfl

@[simp]
theorem textOf_shown (c : Char) (pieces : List Piece) :
    textOf (.shown c :: pieces) = c :: textOf pieces :=
  rfl

@[simp]
theorem textOf_style (body : List Char) (pieces : List Piece) :
    textOf (.style body :: pieces) = textOf pieces :=
  rfl

@[simp]
theorem textOf_append (first second : List Piece) :
    textOf (first ++ second) = textOf first ++ textOf second :=
  List.filterMap_append

@[simp]
theorem textOf_chars (text : List Char) : textOf (chars text) = text := by
  induction text with
  | nil => rfl
  | cons c rest ih => rw [chars_cons, textOf_shown, ih]

@[simp]
theorem backslashes_zero : backslashes 0 = [] :=
  rfl

theorem backslashes_succ (count : Nat) : backslashes (count + 1) = '\\' :: backslashes count :=
  rfl

theorem backslashes_succ_append (count : Nat) (text : List Char) :
    backslashes (count + 1) ++ text = backslashes count ++ '\\' :: text := by
  rw [backslashes, backslashes, List.replicate_succ', List.append_assoc]
  rfl

theorem backslashes_append (first second : Nat) :
    backslashes first ++ backslashes second = backslashes (first + second) :=
  List.replicate_append_replicate

@[simp]
theorem length_backslashes (count : Nat) : (backslashes count).length = count :=
  List.length_replicate

/-! ### Tags -/

def isBracket (c : Char) : Bool :=
  c == '[' || c == ']'

/-- Whether an opening bracket before this text can begin a tag. -/
def opens (text : List Char) : Bool :=
  (text.head?.map opensTag).getD false

/-- Whether the first bracket of a text is a closing one. -/
def closes (text : List Char) : Bool :=
  text.find? isBracket == some ']'

theorem ne_nil_of_opens {text : List Char} (h : opens text = true) : text ≠ [] := by
  rintro rfl
  simp [opens] at h

theorem opens_append {text : List Char} (h : text ≠ []) (more : List Char) :
    opens (text ++ more) = opens text := by
  cases text with
  | nil => exact absurd rfl h
  | cons c rest => rfl

theorem closes_append_of_none {text : List Char} (h : text.find? isBracket = none)
    (more : List Char) :
    closes (text ++ more) = closes more := by
  rw [closes, closes, List.find?_append, h, Option.none_or]

theorem closes_append_of_ne_none {text : List Char} (h : text.find? isBracket ≠ none)
    (more : List Char) :
    closes (text ++ more) = closes text := by
  obtain ⟨c, hc⟩ := Option.ne_none_iff_exists'.mp h
  rw [closes, closes, List.find?_append, hc, Option.some_or]

/-- A text with a closing bracket in front of all other brackets. -/
theorem exists_of_closes {text : List Char} (h : closes text = true) :
    ∃ before after, text = before ++ ']' :: after ∧ before.find? isBracket = none := by
  rw [closes, beq_iff_eq, List.find?_eq_some_iff_append] at h
  obtain ⟨-, before, after, rfl, hbefore⟩ := h
  refine ⟨before, after, rfl, List.find?_eq_none.mpr fun c hc => ?_⟩
  simpa using hbefore c hc

theorem tag?_of_body {body : List Char} (hopens : opens body = true)
    (hbody : body.find? isBracket = none) (after : List Char) :
    tag? (body ++ ']' :: after) = some (body, after) := by
  have hinside : ∀ c ∈ body, (c != '[' && c != ']') = true := by
    intro c hc
    simpa [isBracket] using List.find?_eq_none.mp hbody c hc
  have hhead := opens_append (ne_nil_of_opens hopens) (']' :: after)
  rw [hopens, opens] at hhead
  unfold tag?
  rw [if_pos hhead]
  simp only [List.dropWhile_append_of_pos hinside, List.takeWhile_append_of_pos hinside]
  simp

theorem tag?_eq_none {rest : List Char} (h : (opens rest && closes rest) = false) :
    tag? rest = none := by
  unfold tag?
  split
  · rename_i hopens
    rw [show opens rest = true from hopens, Bool.true_and] at h
    dsimp only
    split
    · rename_i after heq
      have hsplit : rest = rest.takeWhile (fun c => c != '[' && c != ']') ++ ']' :: after := by
        rw [← heq, List.takeWhile_append_dropWhile]
      have hnone : (rest.takeWhile (fun c => c != '[' && c != ']')).find? isBracket = none := by
        rw [List.find?_eq_none]
        intro c hc
        have hinside := List.all_eq_true.mp List.all_takeWhile c hc
        simpa [isBracket] using hinside
      rw [hsplit, closes_append_of_none hnone] at h
      exact absurd h (by simp [closes, isBracket])
    · rfl
  · rfl

theorem tag?_cases (rest : List Char) :
    tag? rest = none ∧ (opens rest && closes rest) = false ∨
      ∃ body after, tag? rest = some (body, after) ∧ rest = body ++ ']' :: after ∧
      opens body = true ∧
        body.find? isBracket = none := by
  by_cases h : (opens rest && closes rest) = true
  · obtain ⟨hopens, hcloses⟩ := Bool.and_eq_true_iff.mp h
    obtain ⟨body, after, rfl, hbody⟩ := exists_of_closes hcloses
    have hne : body ≠ [] := by
      rintro rfl
      simp [opens, opensTag] at hopens
    rw [opens_append hne] at hopens
    exact .inr ⟨body, after, tag?_of_body hopens hbody after, rfl, hopens, hbody⟩
  · rw [Bool.not_eq_true] at h
    exact .inl ⟨tag?_eq_none h, h⟩

theorem of_tag?_eq_some {rest body after : List Char} (h : tag? rest = some (body, after)) :
    rest = body ++ ']' :: after ∧ opens body = true ∧ body.find? isBracket = none := by
  obtain ⟨hnone, -⟩ | ⟨body', after', hsome, hrest⟩ := tag?_cases rest
  · rw [h] at hnone
    exact absurd hnone (by simp)
  · rw [h, Option.some.injEq, Prod.mk.injEq] at hsome
    obtain ⟨rfl, rfl⟩ := hsome
    exact hrest

theorem ne_of_find?_eq_none {text : List Char} (h : text.find? isBracket = none) : '[' ∉ text :=
  fun hmem => List.find?_eq_none.mp h '[' hmem rfl

theorem isSome_tag? (rest : List Char) : (tag? rest).isSome = (opens rest && closes rest) := by
  obtain ⟨hnone, h⟩ | ⟨body, after, hsome, rfl, hopens, hbody⟩ := tag?_cases rest
  · rw [hnone, h]
    rfl
  · rw [hsome, opens_append (ne_nil_of_opens hopens), hopens, closes_append_of_none hbody]
    rfl

/-! ### Reading -/

/-- What a console reads in some markup, after a number of backslashes still to be accounted for. -/
def readFrom (pending : Nat) (markup : List Char) : List Piece :=
  match markup with
  | [] => chars (backslashes pending)
  | '\\' :: rest => readFrom (pending + 1) rest
  | '[' :: rest =>
    match h : tag? rest with
    | some (body, after) =>
      have := length_of_tag? h
      chars (backslashes (pending / 2)) ++
        (if pending % 2 = 1 then chars ('[' :: body ++ [']']) else [.style body]) ++
          readFrom 0 after
    | none => chars (backslashes (pending - 1)) ++ .shown '[' :: readFrom 0 rest
  | c :: rest => chars (backslashes pending) ++ .shown c :: readFrom 0 rest
termination_by markup.length

theorem plainFrom_eq_textOf (pending : Nat) (markup : List Char) :
    plainFrom pending markup = textOf (readFrom pending markup) := by
  fun_induction readFrom pending markup with
  | case1 pending => simp [plainFrom]
  | case2 pending rest ih => rw [plainFrom, ih]
  | case3 pending rest body after h hlength ih =>
    rw [plainFrom]
    split
    · rename_i body' after' h'
      rw [h, Option.some.injEq, Prod.mk.injEq] at h'
      obtain ⟨rfl, rfl⟩ := h'
      rw [ih]
      split <;> simp
    · rename_i hnone
      rw [h] at hnone
      exact absurd hnone (by simp)
  | case4 pending rest h ih =>
    rw [plainFrom]
    split
    · rename_i hsome
      rw [h] at hsome
      exact absurd hsome (by simp)
    · rw [ih]
      simp
  | case5 pending c rest hslash hbracket ih =>
    rw [plainFrom, ih]
    · simp
    · exact hslash
    · exact hbracket

theorem mem_chars_backslashes {c : Char} {count : Nat}
    (h : c ∈ textOf (chars (backslashes count))) :
    c = '\\' := by
  rw [textOf_chars] at h
  exact List.eq_of_mem_replicate h

/-- Only backslashes and characters of the markup are shown. -/
theorem mem_textOf_readFrom {pending : Nat} {markup : List Char} {c : Char}
    (h : c ∈ textOf (readFrom pending markup)) : c = '\\' ∨ c ∈ markup := by
  fun_induction readFrom pending markup with
  | case1 pending => exact .inl (mem_chars_backslashes h)
  | case2 pending rest ih => exact (ih h).imp_right (List.mem_cons_of_mem _)
  | case3 pending rest body after hsome hlength ih =>
    obtain ⟨rfl, -, -⟩ := of_tag?_eq_some hsome
    rw [textOf_append, textOf_append, List.mem_append, List.mem_append] at h
    obtain (hslash | htag) | hafter := h
    · exact .inl (mem_chars_backslashes hslash)
    · split at htag
      · rw [textOf_chars] at htag
        simp only [List.mem_cons, List.mem_append, List.cons_append] at htag ⊢
        grind
      · exact absurd htag List.not_mem_nil
    · exact (ih hafter).imp_right fun hmem => by simp [hmem]
  | case4 pending rest hnone ih =>
    rw [textOf_append, textOf_shown, List.mem_append, List.mem_cons] at h
    obtain hslash | rfl | hrest := h
    · exact .inl (mem_chars_backslashes hslash)
    · exact .inr List.mem_cons_self
    · exact (ih hrest).imp_right (List.mem_cons_of_mem _)
  | case5 pending d rest hslash hbracket ih =>
    rw [textOf_append, textOf_shown, List.mem_append, List.mem_cons] at h
    obtain hslash | rfl | hrest := h
    · exact .inl (mem_chars_backslashes hslash)
    · exact .inr List.mem_cons_self
    · exact (ih hrest).imp_right (List.mem_cons_of_mem _)

section

variable {pending : Nat} {rest body after : List Char} {c : Char}

theorem readFrom_slash : readFrom pending ('\\' :: rest) = readFrom (pending + 1) rest := by
  rw [readFrom]

theorem readFrom_other (hslash : c ≠ '\\') (hbracket : c ≠ '[') :
    readFrom pending (c :: rest) = chars (backslashes pending) ++ .shown c :: readFrom 0 rest := by
  rw [readFrom]
  · exact hslash
  · exact hbracket

/-- Backslashes before an ordinary character are shown. -/
theorem readFrom_eq_append (hslash : c ≠ '\\') (hbracket : c ≠ '[') :
    readFrom pending (c :: rest) = chars (backslashes pending) ++ readFrom 0 (c :: rest) := by
  rw [readFrom_other hslash hbracket, readFrom_other hslash hbracket]
  rfl

theorem readFrom_of_none (h : tag? rest = none) :
    readFrom pending ('[' :: rest) = chars (backslashes (pending - 1)) ++
      .shown '[' :: readFrom 0 rest := by
  rw [readFrom]
  split
  · rename_i hsome
    rw [h] at hsome
    exact absurd hsome (by simp)
  · rfl

theorem readFrom_of_some (h : tag? rest = some (body, after)) :
    readFrom pending ('[' :: rest) = chars (backslashes (pending / 2)) ++
      (if pending % 2 = 1 then chars ('[' :: body ++ [']']) else [.style body]) ++
        readFrom 0 after := by
  rw [readFrom]
  split
  · rename_i body' after' h'
    rw [h, Option.some.injEq, Prod.mk.injEq] at h'
    obtain ⟨rfl, rfl⟩ := h'
    rfl
  · rename_i hnone
    rw [h] at hnone
    exact absurd hnone (by simp)

theorem readFrom_backslashes (count : Nat) :
    readFrom pending (backslashes count ++ rest) = readFrom (pending + count) rest := by
  induction count generalizing pending with
  | zero => rfl
  | succ count ih =>
    rw [backslashes_succ, List.cons_append, readFrom_slash, ih]
    congr 1
    omega

/-- Without an opening bracket there is nothing but text. -/
theorem readFrom_append_of_not_mem (h : '[' ∉ body) (hc : c ≠ '\\') (hbracket : c ≠ '[') :
    readFrom pending (body ++ c :: rest) =
      chars (backslashes pending ++ body) ++ .shown c :: readFrom 0 rest := by
  induction body generalizing pending with
  | nil => simp [readFrom_other hc hbracket]
  | cons d body ih =>
    rw [List.mem_cons, not_or] at h
    obtain ⟨hd, hbody⟩ := h
    by_cases hslash : d = '\\'
    · subst hslash
      rw [List.cons_append, readFrom_slash, ih hbody, backslashes_succ_append]
    · rw [List.cons_append, readFrom_other hslash (Ne.symm hd), ih hbody]
      simp

/-- A tag after an odd number of backslashes is text. -/
theorem readFrom_of_odd (h : (tag? rest).isSome = true) (hodd : pending % 2 = 1) :
    readFrom pending ('[' :: rest) =
      chars (backslashes (pending / 2)) ++ .shown '[' :: readFrom 0 rest := by
  obtain ⟨⟨body, after⟩, hsome⟩ := Option.isSome_iff_exists.mp h
  obtain ⟨rfl, -, hbody⟩ := of_tag?_eq_some hsome
  rw [readFrom_of_some hsome, if_pos hodd,
    readFrom_append_of_not_mem (ne_of_find?_eq_none hbody) (by decide) (by decide)]
  simp

theorem readFrom_words (hbracket : '[' ∉ body) (hslash : '\\' ∉ body) :
    readFrom 0 (body ++ rest) = chars body ++ readFrom 0 rest := by
  induction body with
  | nil => rfl
  | cons c body ih =>
    rw [List.mem_cons, not_or] at hbracket hslash
    rw [List.cons_append, readFrom_other (Ne.symm hslash.1) (Ne.symm hbracket.1),
      ih hbracket.2 hslash.2]
    rfl

end

/-! ### Reading in pieces -/

/-- Whether a text ends inside of what may become a tag. -/
def unclosed : List Char → Bool
  | [] => false
  | '[' :: rest => (opens rest && (rest.find? isBracket).isNone) || unclosed rest
  | _ :: rest => unclosed rest

/-- The number of backslashes at the end of a text, after some that come before it. -/
def trailingFrom (pending : Nat) : List Char → Nat
  | [] => pending
  | '\\' :: rest => trailingFrom (pending + 1) rest
  | _ :: rest => trailingFrom 0 rest

section

variable {pending : Nat} {text rest : List Char} {c : Char}

theorem unclosed_bracket_iff : unclosed ('[' :: rest) = true ↔
    (opens rest = true ∧ rest.find? isBracket = none) ∨ unclosed rest = true := by
  rw [unclosed, Bool.or_eq_true, Bool.and_eq_true, Option.isNone_iff_eq_none]

theorem unclosed_other (h : c ≠ '[') : unclosed (c :: rest) = unclosed rest := by
  rw [unclosed]
  exact h

@[simp]
theorem trailingFrom_slash :
    trailingFrom pending ('\\' :: rest) = trailingFrom (pending + 1) rest :=
  rfl

theorem trailingFrom_other (h : c ≠ '\\') :
    trailingFrom pending (c :: rest) = trailingFrom 0 rest := by
  rw [trailingFrom]
  exact h

theorem unclosed_append_closing (h : '[' ∉ text) :
    unclosed (text ++ ']' :: rest) = unclosed rest := by
  induction text with
  | nil => exact unclosed_other (by decide)
  | cons c text ih =>
    rw [List.mem_cons, not_or] at h
    rw [List.cons_append, unclosed_other (Ne.symm h.1), ih h.2]

theorem trailingFrom_append_closing :
    trailingFrom pending (text ++ ']' :: rest) = trailingFrom 0 rest := by
  induction text generalizing pending with
  | nil => exact trailingFrom_other (by decide)
  | cons c text ih =>
    by_cases hc : c = '\\'
    · subst hc
      exact ih
    · rw [List.cons_append, trailingFrom_other hc, ih]

theorem unclosed_append_bracket : unclosed (text ++ [']']) = false := by
  induction text with
  | nil => rfl
  | cons c text ih =>
    by_cases hc : c = '['
    · subst hc
      rw [List.cons_append, Bool.eq_false_iff, ne_eq, unclosed_bracket_iff, not_or, ih]
      refine ⟨fun hopen => ?_, by decide⟩
      exact List.find?_eq_none.mp hopen.2 ']' (by simp) rfl
    · rw [List.cons_append, unclosed_other hc, ih]

/-- What follows a text decides about a tag in it only where the text ends inside of it. -/
theorem isSome_tag?_append (hopens : opens rest = false)
    (hcross : opens text = true → text.find? isBracket = none → closes rest = false) :
    (tag? (text ++ rest)).isSome = (tag? text).isSome := by
  rw [isSome_tag?, isSome_tag?]
  by_cases hnil : text = []
  · subst hnil
    rw [List.nil_append, hopens]
    rfl
  · rw [opens_append hnil]
    by_cases hnone : text.find? isBracket = none
    · rw [closes_append_of_none hnone, show closes text = false by simp [closes, hnone],
        Bool.and_false]
      cases hhere : opens text with
      | false => rfl
      | true => rw [hcross hhere hnone, Bool.and_false]
    · rw [closes_append_of_ne_none hnone]

theorem readFrom_append (hopens : opens rest = false)
    (hcross : unclosed text = true → closes rest = false)
    (htrailing : trailingFrom pending text = 0) :
    readFrom pending (text ++ rest) = readFrom pending text ++ readFrom 0 rest := by
  fun_induction readFrom pending text with
  | case1 pending =>
    rw [show pending = 0 from htrailing]
    rfl
  | case2 pending text ih => exact readFrom_slash.trans (ih hcross htrailing)
  | case3 pending text body after h hlength ih =>
    obtain ⟨rfl, hbodyopens, hbody⟩ := of_tag?_eq_some h
    rw [trailingFrom_other (by decide), trailingFrom_append_closing] at htrailing
    have hafter : unclosed after = true → closes rest = false := fun hopen =>
      hcross (unclosed_bracket_iff.mpr
        (.inr (by rwa [unclosed_append_closing (ne_of_find?_eq_none hbody)])))
    rw [List.cons_append, List.append_assoc, List.cons_append,
      readFrom_of_some (tag?_of_body hbodyopens hbody _), ih hafter htrailing]
    simp only [List.append_assoc]
  | case4 pending text h ih =>
    have htext : unclosed text = true → closes rest = false := fun h =>
      hcross (unclosed_bracket_iff.mpr (.inr h))
    have hhere : opens text = true → text.find? isBracket = none → closes rest = false :=
      fun hopen hbare =>
      hcross (unclosed_bracket_iff.mpr (.inl ⟨hopen, hbare⟩))
    have hnone : tag? (text ++ rest) = none := by
      rw [← Option.isNone_iff_eq_none, ← Option.not_isSome, isSome_tag?_append hopens hhere, h]
      rfl
    rw [List.cons_append, readFrom_of_none hnone, ih htext]
    · simp
    · rwa [trailingFrom_other (by decide)] at htrailing
  | case5 pending c text hslash hbracket ih =>
    rw [trailingFrom_other hslash] at htrailing
    rw [unclosed_other hbracket] at hcross
    rw [List.cons_append, readFrom_other hslash hbracket, ih hcross htrailing]
    simp

end

end RiskScan.Markup
