import RiskScan.Proofs.Console.Reading
/-!
# Escaped text

What a console shows of an escaped text depends on what stands around it. The tags of the text
itself are shown as they are. An opening bracket that begins no tag of the text is left alone, so a
backslash before it is taken for an escape, and a closing bracket further on may complete a tag that
nobody escaped. The backslashes at the end of a text are doubled where there is exactly one, which
is right before a tag only.
-/

namespace RiskScan.Markup

/-- Whether no backslash stands before an opening bracket that begins no tag of the text. -/
def steadyFrom (pending : Nat) : List Char → Bool
  | [] => true
  | '\\' :: rest => steadyFrom (pending + 1) rest
  | '[' :: rest => ((tag? rest).isSome || pending == 0) && steadyFrom 0 rest
  | _ :: rest => steadyFrom 0 rest

/-- What is shown of an escaped text before the backslashes at its end, where no tag reaches beyond
it. -/
def shownFrom (pending : Nat) : List Char → List Char
  | [] => []
  | '\\' :: rest => shownFrom (pending + 1) rest
  | '[' :: rest =>
    backslashes (if (tag? rest).isSome then pending else pending - 1) ++ '[' :: shownFrom 0 rest
  | c :: rest => backslashes pending ++ c :: shownFrom 0 rest

section

variable {pending : Nat} {text rest : List Char} {c : Char}

/-! ### Escaping character by character -/

theorem escapeFrom_slash : escapeFrom pending ('\\' :: rest) = escapeFrom (pending + 1) rest := by
  rw [escapeFrom]

theorem escapeFrom_other (hslash : c ≠ '\\') (hbracket : c ≠ '[') :
    escapeFrom pending (c :: rest) = backslashes pending ++ c :: escapeFrom 0 rest := by
  rw [escapeFrom]
  · exact hslash
  · exact hbracket

theorem escapeFrom_append_of_not_mem (h : '[' ∉ text) (hslash : c ≠ '\\') (hbracket : c ≠ '[') :
    escapeFrom pending (text ++ c :: rest) = backslashes pending ++ text ++
      c :: escapeFrom 0 rest := by
  induction text generalizing pending with
  | nil => simp [escapeFrom_other hslash hbracket]
  | cons d text ih =>
    rw [List.mem_cons, not_or] at h
    by_cases hd : d = '\\'
    · subst hd
      rw [List.cons_append, escapeFrom_slash, ih h.2, backslashes_succ_append]
    · rw [List.cons_append, escapeFrom_other hd (Ne.symm h.1), ih h.2]
      simp

theorem escapeFrom_bracket : escapeFrom pending ('[' :: rest) =
    backslashes (if (tag? rest).isSome then 2 * pending + 1 else pending) ++
      '[' :: escapeFrom 0 rest := by
  rw [escapeFrom]
  split
  · rename_i body after h
    obtain ⟨rfl, -, hbody⟩ := of_tag?_eq_some h
    rw [escapeFrom_append_of_not_mem (ne_of_find?_eq_none hbody) (by decide) (by decide)]
    simp [h]
  · rename_i h
    rw [h]
    rfl

theorem escapeFrom_of_not_mem (h : '[' ∉ text) :
    escapeFrom pending text = backslashes pending ++ text := by
  induction text generalizing pending with
  | nil => simp [escapeFrom]
  | cons c rest ih =>
    rw [List.mem_cons, not_or] at h
    by_cases hslash : c = '\\'
    · subst hslash
      rw [escapeFrom_slash, ih h.2, backslashes_succ_append]
    · rw [escapeFrom_other hslash (Ne.symm h.1), ih h.2]
      rfl

theorem exists_escapeFrom_succ (pending : Nat) (text : List Char) :
    ∃ more, escapeFrom (pending + 1) text = '\\' :: more := by
  induction text generalizing pending with
  | nil => exact ⟨_, by rw [escapeFrom, backslashes_succ]⟩
  | cons c rest ih =>
    by_cases hslash : c = '\\'
    · subst hslash
      rw [escapeFrom_slash]
      exact ih (pending + 1)
    · by_cases hbracket : c = '['
      · subst hbracket
        rw [escapeFrom_bracket]
        split
        · exact ⟨_, by rw [backslashes_succ, List.cons_append]⟩
        · exact ⟨_, by rw [backslashes_succ, List.cons_append]⟩
      · exact ⟨_, by rw [escapeFrom_other hslash hbracket, backslashes_succ, List.cons_append]⟩

theorem mem_escapeFrom {d : Char} (h : d ∈ escapeFrom pending text) : d = '\\' ∨ d ∈ text := by
  fun_induction shownFrom pending text with
  | case1 pending =>
    rw [escapeFrom] at h
    exact .inl (List.eq_of_mem_replicate h)
  | case2 pending rest ih =>
    rw [escapeFrom_slash] at h
    exact (ih h).imp_right (List.mem_cons_of_mem _)
  | case3 pending rest ih =>
    rw [escapeFrom_bracket, List.mem_append, List.mem_cons] at h
    obtain hslash | rfl | hrest := h
    · exact .inl (List.eq_of_mem_replicate hslash)
    · exact .inr List.mem_cons_self
    · exact (ih hrest).imp_right (List.mem_cons_of_mem _)
  | case4 pending c rest hslash hbracket ih =>
    rw [escapeFrom_other hslash hbracket, List.mem_append, List.mem_cons] at h
    obtain hslash | rfl | hrest := h
    · exact .inl (List.eq_of_mem_replicate hslash)
    · exact .inr List.mem_cons_self
    · exact (ih hrest).imp_right (List.mem_cons_of_mem _)

/-! ### Brackets and backslashes of an escaped text -/

theorem opens_escapeFrom : opens (escapeFrom 0 text) = opens text := by
  cases text with
  | nil => rw [escapeFrom]; rfl
  | cons c rest =>
    by_cases hslash : c = '\\'
    · subst hslash
      obtain ⟨more, hmore⟩ := exists_escapeFrom_succ 0 rest
      rw [escapeFrom_slash, hmore]
      rfl
    · by_cases hbracket : c = '['
      · subst hbracket
        rw [escapeFrom_bracket]
        split
        · rfl
        · rfl
      · rw [escapeFrom_other hslash hbracket]
        rfl

theorem find?_backslashes_append (count : Nat) :
    (backslashes count ++ text).find? isBracket = text.find? isBracket := by
  rw [List.find?_append, List.find?_eq_none.mpr, Option.none_or]
  intro c hc
  rw [List.eq_of_mem_replicate hc]
  decide

theorem find?_escapeFrom : (escapeFrom pending text).find? isBracket = text.find? isBracket := by
  fun_induction shownFrom pending text with
  | case1 pending =>
    rw [escapeFrom, ← List.append_nil (backslashes pending), find?_backslashes_append]
  | case2 pending rest ih => rw [escapeFrom_slash, ih]; rfl
  | case3 pending rest ih =>
    rw [escapeFrom_bracket, find?_backslashes_append]
    rfl
  | case4 pending c rest hslash hbracket ih =>
    rw [escapeFrom_other hslash hbracket, find?_backslashes_append, List.find?_cons,
      List.find?_cons, ih]

theorem isSome_tag?_escapeFrom_append (hopens : opens rest = false)
    (hcross : opens text = true → text.find? isBracket = none → closes rest = false) :
    (tag? (escapeFrom 0 text ++ rest)).isSome = (tag? text).isSome := by
  rw [isSome_tag?_append hopens]
  · rw [isSome_tag?, isSome_tag?, opens_escapeFrom, closes, closes, find?_escapeFrom]
  · rw [opens_escapeFrom, find?_escapeFrom]
    exact hcross

theorem trailingFrom_backslashes_append (count : Nat) :
    trailingFrom pending (backslashes count ++ text) = trailingFrom (pending + count) text := by
  induction count generalizing pending with
  | zero => rfl
  | succ count ih =>
    rw [backslashes_succ, List.cons_append, trailingFrom_slash, ih]
    congr 1
    omega

theorem trailingFrom_escapeFrom : trailingFrom 0 (escapeFrom pending text) =
    trailingFrom pending text := by
  fun_induction shownFrom pending text with
  | case1 pending =>
    rw [escapeFrom, ← List.append_nil (backslashes pending), trailingFrom_backslashes_append,
      Nat.zero_add]
  | case2 pending rest ih => rw [escapeFrom_slash, ih, trailingFrom_slash]
  | case3 pending rest ih =>
    rw [escapeFrom_bracket, trailingFrom_backslashes_append, trailingFrom_other (by decide), ih,
      trailingFrom_other (by decide)]
  | case4 pending c rest hslash hbracket ih =>
    rw [escapeFrom_other hslash hbracket, trailingFrom_backslashes_append,
      trailingFrom_other hslash, ih, trailingFrom_other hslash]

theorem trailingFrom_append_slash : trailingFrom pending (text ++ ['\\']) =
    trailingFrom pending text + 1 := by
  fun_induction trailingFrom pending text with
  | case1 pending => rfl
  | case2 pending rest ih => exact ih
  | case3 pending c rest hslash ih => rw [List.cons_append, trailingFrom_other hslash, ih]

theorem trailingFrom_append_other (h : c ≠ '\\') : trailingFrom pending (text ++ [c]) = 0 := by
  fun_induction trailingFrom pending text with
  | case1 pending => exact trailingFrom_other h
  | case2 pending rest ih => exact ih
  | case3 pending d rest hslash ih => rw [List.cons_append, trailingFrom_other hslash, ih]

theorem exists_of_trailingFrom_pos (h : 0 < trailingFrom 0 text) :
    ∃ init, text = init ++ ['\\'] := by
  obtain rfl | ⟨init, c, rfl⟩ := List.eq_nil_or_concat text
  · exact absurd h (by decide)
  · rw [List.concat_eq_append] at h ⊢
    by_cases hc : c = '\\'
    · exact ⟨init, by rw [hc]⟩
    · rw [trailingFrom_append_other hc] at h
      exact absurd h (by decide)

theorem endsInLoneBackslash_iff : endsInLoneBackslash text = true ↔ trailingFrom 0 text = 1 := by
  obtain rfl | ⟨init, c, rfl⟩ := List.eq_nil_or_concat text
  · decide
  · by_cases hc : c = '\\'
    · subst hc
      obtain rfl | ⟨init, d, rfl⟩ := List.eq_nil_or_concat init
      · decide
      · by_cases hd : d = '\\'
        · subst hd
          rw [List.concat_eq_append, List.concat_eq_append, trailingFrom_append_slash,
            trailingFrom_append_slash]
          simp [endsInLoneBackslash]
        · rw [List.concat_eq_append, List.concat_eq_append, trailingFrom_append_slash,
            trailingFrom_append_other hd]
          simp [endsInLoneBackslash, hd]
    · rw [List.concat_eq_append, trailingFrom_append_other hc]
      simp [endsInLoneBackslash, hc]

end

/-- The number of backslashes at the end of an escaped text, by the number at the end of the
text. -/
def escapedTrailing (trailing : Nat) : Nat :=
  if trailing = 1 then 2 else trailing

theorem escapedTrailing_cases (trailing : Nat) :
    trailing = 1 ∧ escapedTrailing trailing = 2 ∨ trailing ≠ 1 ∧
    escapedTrailing trailing = trailing := by
  unfold escapedTrailing
  split <;> omega

theorem escapedTrailing_eq_self_iff {trailing : Nat} : escapedTrailing trailing = trailing ↔
    trailing ≠ 1 := by
  have hcases := escapedTrailing_cases trailing
  omega

theorem toList_escape (text : String) :
    ∃ count, (escape text).toList = escapeFrom 0 text.toList ++ backslashes count ∧
      trailingFrom 0 text.toList + count = escapedTrailing (trailingFrom 0 text.toList) := by
  unfold escape escapedTrailing
  dsimp only
  rw [String.toList_ofList]
  by_cases h : trailingFrom 0 text.toList = 1
  · have hlone := endsInLoneBackslash_iff.mpr (trailingFrom_escapeFrom.trans h)
    exact ⟨1, by rw [if_pos hlone]; rfl, by rw [if_pos h, h]⟩
  · have hlone : ¬endsInLoneBackslash (escapeFrom 0 text.toList) = true :=
      fun hlone => h (trailingFrom_escapeFrom.symm.trans (endsInLoneBackslash_iff.mp hlone))
    exact ⟨0, by rw [if_neg hlone]; simp, by rw [if_neg h]; rfl⟩

theorem newline_not_mem_escape {text : String} (h : '\n' ∉ text.toList) :
    '\n' ∉ (escape text).toList := by
  obtain ⟨count, hescape, -⟩ := toList_escape text
  rw [hescape, List.mem_append, not_or]
  refine ⟨fun hmem => ?_, fun hmem => absurd (List.eq_of_mem_replicate hmem) (by decide)⟩
  exact h ((mem_escapeFrom hmem).resolve_left (by decide))

/-! ### What is shown of an escaped text -/

/-- No continuations make the two texts equal. -/
def Apart (first second : List Char) : Prop :=
  ∀ more others, first ++ more ≠ second ++ others

namespace Apart

variable {first second : List Char}

theorem append_left (h : Apart first second) (before : List Char) :
    Apart (before ++ first) (before ++ second) := by
  intro more others heq
  rw [List.append_assoc, List.append_assoc] at heq
  exact h more others (List.append_cancel_left heq)

theorem cons (h : Apart first second) (c : Char) : Apart (c :: first) (c :: second) :=
  h.append_left [c]

theorem of_lt {fewer more : Nat} (h : fewer < more) :
    Apart (backslashes fewer ++ '[' :: first) (backslashes more ++ second) := by
  obtain ⟨extra, rfl⟩ := Nat.exists_eq_add_of_lt h
  rw [Nat.add_assoc, ← backslashes_append, List.append_assoc]
  refine append_left (fun more others heq => ?_) _
  rw [backslashes_succ, List.cons_append, List.cons_append, List.cons_append] at heq
  exact absurd (List.cons.inj heq).1 (by decide)

end Apart

/-- At least two characters of a text are not shown, or something else is shown in their place. -/
def FallsShort (shown text : List Char) : Prop :=
  shown.length + 2 ≤ text.length ∨ Apart shown text

theorem FallsShort.append_left {shown text : List Char} (h : FallsShort shown text)
    (before : List Char) :
    FallsShort (before ++ shown) (before ++ text) := by
  refine h.imp (fun hlength => ?_) (Apart.append_left · before)
  rw [List.length_append, List.length_append]
  omega

section

variable {pending : Nat} {text rest before after : List Char} {c : Char}

theorem readFrom_escapeFrom (hopens : opens rest = false)
    (hcross : unclosed text = true → closes rest = false) :
    readFrom 0 (escapeFrom pending text ++ rest) =
      chars (shownFrom pending text) ++ readFrom (trailingFrom pending text) rest := by
  fun_induction shownFrom pending text with
  | case1 pending => rw [escapeFrom, readFrom_backslashes, Nat.zero_add]; rfl
  | case2 pending text ih => rw [escapeFrom_slash, ih hcross, trailingFrom_slash]
  | case3 pending text ih =>
    have htext : unclosed text = true → closes rest = false := fun h =>
      hcross (unclosed_bracket_iff.mpr (.inr h))
    have hsome : (tag? (escapeFrom 0 text ++ rest)).isSome = (tag? text).isSome := by
      refine isSome_tag?_escapeFrom_append hopens fun hopen hbare => ?_
      exact hcross (unclosed_bracket_iff.mpr (.inl ⟨hopen, hbare⟩))
    rw [escapeFrom_bracket, trailingFrom_other (by decide), List.append_assoc, readFrom_backslashes,
      List.cons_append, Nat.zero_add]
    by_cases htag : (tag? text).isSome = true
    · rw [if_pos htag, if_pos htag, readFrom_of_odd (hsome.trans htag) (by omega), ih htext,
        show (2 * pending + 1) / 2 = pending by omega]
      simp
    · rw [if_neg htag, if_neg htag, readFrom_of_none, ih htext]
      · simp
      · rw [← hsome, Option.not_isSome_iff_eq_none] at htag
        exact htag
  | case4 pending c text hslash hbracket ih =>
    rw [unclosed_other hbracket] at hcross
    rw [escapeFrom_other hslash hbracket, List.append_assoc, readFrom_backslashes, List.cons_append,
      readFrom_other hslash hbracket, ih hcross, trailingFrom_other hslash, Nat.zero_add]
    simp

/-- A steady text is shown as it is, up to the backslashes at its end. -/
theorem shownFrom_append (h : steadyFrom pending text = true) :
    shownFrom pending text ++ backslashes (trailingFrom pending text) =
      backslashes pending ++ text := by
  fun_induction steadyFrom pending text with
  | case1 pending => simp [shownFrom, trailingFrom]
  | case2 pending text ih =>
    rw [shownFrom, trailingFrom_slash, ih h, backslashes_succ_append]
  | case3 pending text ih =>
    rw [Bool.and_eq_true, Bool.or_eq_true, beq_iff_eq] at h
    rw [shownFrom, trailingFrom_other (by decide), List.append_assoc, List.cons_append, ih h.2]
    obtain htag | rfl := h.1
    · rw [if_pos htag]
      simp
    · simp
  | case4 pending c text hslash hbracket ih =>
    rw [shownFrom, trailingFrom_other hslash, List.append_assoc, List.cons_append, ih h]
    · simp
    · exact hslash
    · exact hbracket

theorem shownFrom_zero_append (h : steadyFrom 0 text = true) :
    shownFrom 0 text ++ backslashes (trailingFrom 0 text) = text := by
  rw [shownFrom_append h, backslashes_zero, List.nil_append]

theorem apart_of_not_steady (h : steadyFrom pending text = false) :
    Apart (shownFrom pending text) (backslashes pending ++ text) := by
  fun_induction steadyFrom pending text with
  | case1 pending => exact absurd h (by decide)
  | case2 pending text ih =>
    rw [← backslashes_succ_append]
    exact ih h
  | case3 pending text ih =>
    rw [shownFrom]
    by_cases hkept : (if (tag? text).isSome then pending else pending - 1) = pending
    · rw [hkept]
      refine ((ih ?_).cons '[').append_left _
      cases htext : steadyFrom 0 text with
      | false => rfl
      | true =>
        exfalso
        rw [htext, Bool.and_true, Bool.or_eq_false_iff, beq_eq_false_iff_ne] at h
        rw [h.1] at hkept
        simp only [Bool.false_eq_true, if_false] at hkept
        omega
    · have hle : (if (tag? text).isSome then pending else pending - 1) ≤ pending := by
        split <;> omega
      exact Apart.of_lt (Nat.lt_of_le_of_ne hle hkept)
  | case4 pending c text hslash hbracket ih =>
    rw [shownFrom]
    · exact ((ih h).cons c).append_left _
    · exact hslash
    · exact hbracket

theorem length_shownFrom_le (pending : Nat) (text : List Char) :
    (shownFrom pending text).length + trailingFrom pending text ≤ pending + text.length := by
  fun_induction shownFrom pending text with
  | case1 pending => simp [trailingFrom]
  | case2 pending text ih =>
    rw [trailingFrom_slash, List.length_cons]
    omega
  | case3 pending text ih =>
    rw [trailingFrom_other (by decide), List.length_append, length_backslashes, List.length_cons,
      List.length_cons]
    split <;> omega
  | case4 pending c text hslash hbracket ih =>
    rw [trailingFrom_other hslash, List.length_append, length_backslashes, List.length_cons,
      List.length_cons]
    omega

/-- A text that ends inside of a tag that is completed after it is not shown as it is. -/
theorem exists_readFrom_escapeFrom (pending : Nat) (h : unclosed text = true)
    (hbefore : before.find? isBracket = none) (hopens : opens (before ++ ']' :: after) = false) :
    ∃ pieces, readFrom 0 (escapeFrom pending text ++ (before ++ ']' :: after)) =
        pieces ++ readFrom 0 after ∧
      FallsShort (textOf pieces) (backslashes pending ++ text) := by
  fun_induction shownFrom pending text with
  | case1 pending => exact absurd h (by decide)
  | case2 pending text ih =>
    obtain ⟨pieces, hread, hpieces⟩ := ih h
    exact ⟨pieces, by rw [escapeFrom_slash, hread], by rwa [← backslashes_succ_append]⟩
  | case3 pending text ih =>
    rw [escapeFrom_bracket, List.append_assoc, readFrom_backslashes, List.cons_append, Nat.zero_add]
    by_cases hhere : opens text = true ∧ text.find? isBracket = none
    · -- the tag that is completed after the text begins with this bracket
      obtain ⟨hopen, hbare⟩ := hhere
      have hnone : (tag? text).isSome = false := by simp [isSome_tag?, closes, hbare]
      have hbody : (text ++ before).find? isBracket = none := by
        rw [List.find?_append, hbare, hbefore, Option.none_or]
      have hsome : tag? (escapeFrom 0 text ++ (before ++ ']' :: after)) =
          some (text ++ before, after) := by
        rw [escapeFrom_of_not_mem (ne_of_find?_eq_none hbare), backslashes_zero, List.nil_append,
          ← List.append_assoc]
        exact tag?_of_body (by rwa [opens_append (ne_nil_of_opens hopen)]) hbody after
      rw [hnone, readFrom_of_some hsome]
      refine ⟨_, rfl, ?_⟩
      have hlength := List.length_pos_iff.mpr (ne_nil_of_opens hopen)
      by_cases hodd : pending % 2 = 1
      · refine .inr ?_
        simp only [hodd, Bool.false_eq_true, if_false, if_true, textOf_append, textOf_chars]
        exact Apart.of_lt (by omega)
      · refine .inl ?_
        simp [hodd]
        omega
    · have htext : unclosed text = true := (unclosed_bracket_iff.mp h).resolve_left hhere
      obtain ⟨pieces, hread, hpieces⟩ := ih htext
      have hsome :=
        isSome_tag?_escapeFrom_append hopens fun hopen hbare => absurd ⟨hopen, hbare⟩ hhere
      by_cases htag : (tag? text).isSome = true
      · rw [if_pos htag, readFrom_of_odd (hsome.trans htag) (by omega), hread,
          show (2 * pending + 1) / 2 = pending by omega]
        refine ⟨chars (backslashes pending) ++ .shown '[' :: pieces, by simp, ?_⟩
        rw [textOf_append, textOf_chars, textOf_shown]
        exact (hpieces.append_left ['[']).append_left _
      · rw [if_neg htag, readFrom_of_none, hread]
        · refine ⟨chars (backslashes (pending - 1)) ++ .shown '[' :: pieces, by simp, ?_⟩
          rw [textOf_append, textOf_chars, textOf_shown]
          obtain rfl | hpending := Nat.eq_zero_or_pos pending
          · exact hpieces.append_left ['[']
          · exact .inr (Apart.of_lt (by omega))
        · rw [← hsome, Option.not_isSome_iff_eq_none] at htag
          exact htag
  | case4 pending c text hslash hbracket ih =>
    rw [unclosed_other hbracket] at h
    obtain ⟨pieces, hread, hpieces⟩ := ih h
    refine ⟨chars (backslashes pending) ++ .shown c :: pieces, ?_, ?_⟩
    · rw [escapeFrom_other hslash hbracket, List.append_assoc, readFrom_backslashes,
        List.cons_append, readFrom_other hslash hbracket, hread, Nat.zero_add]
      simp
    · rw [textOf_append, textOf_chars, textOf_shown]
      exact (hpieces.append_left [c]).append_left _

end

end RiskScan.Markup
