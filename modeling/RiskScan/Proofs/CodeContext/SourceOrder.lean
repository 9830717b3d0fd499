import Mathlib.Data.List.DropRight
import RiskScan.CodeContext
import RiskScan.Proofs.Pattern.Tokens
/-!
# Extracted lists in the order of the text

A list that comes from a single form has its tokens in the order of the text, because a search only
goes forward. Leaving out repetitions keeps this order, since a token stays where it comes first.
The imports come from three forms that are searched for one after the other, so they are in order
only where the text has all imports of a form before those of the later forms.
-/

namespace RiskScan

namespace Text

theorem trim_eq_self {isDropped : Char → Bool} {text : List Char}
    (hfirst : ∀ c ∈ text.head?, isDropped c = false)
    (hlast : ∀ c ∈ text.getLast?, isDropped c = false) : trim isDropped text = text := by
  have hfront : text.dropWhile isDropped = text := by
    refine List.dropWhile_eq_self_iff.mpr fun hpos => ?_
    rw [hfirst text[0] (by rw [List.head?_eq_getElem?]; exact List.getElem?_eq_getElem hpos)]
    exact Bool.false_ne_true
  have hback : text.rdropWhile isDropped = text := by
    refine List.rdropWhile_eq_self_iff.mpr fun hne => ?_
    rw [hlast (text.getLast hne) (List.getLast?_eq_getLast_of_ne_nil hne)]
    exact Bool.false_ne_true
  rw [trim, hfront]
  exact hback

end Text

namespace CodeContext

open Cursor Pattern Text

/-! ### Leaving out repetitions -/

section Distinct

variable {texts : List String} {text : String}

theorem distinct_concat (texts : List String) (text : String) : distinct (texts ++ [text]) =
    if (distinct texts).contains text then distinct texts else distinct texts ++ [text] := by
  unfold distinct
  rw [List.foldl_append]
  rfl

theorem mem_distinct : text ∈ distinct texts ↔ text ∈ texts := by
  induction texts using List.reverseRecOn with
  | nil => rfl
  | append_singleton texts last ih =>
    rw [distinct_concat, List.mem_append, List.mem_singleton]
    split
    next hlast =>
      rw [ih, iff_self_or]
      rintro rfl
      exact ih.mp (List.contains_iff_mem.mp hlast)
    next => rw [List.mem_append, List.mem_singleton, ih]

theorem nodup_distinct (texts : List String) : (distinct texts).Nodup := by
  induction texts using List.reverseRecOn with
  | nil => exact .nil
  | append_singleton texts last ih =>
    rw [distinct_concat]
    split
    next => exact ih
    next hlast =>
      exact List.nodup_append_comm.mp (List.nodup_cons.mpr ⟨mt List.contains_iff_mem.mpr hlast, ih⟩)

/-- What is kept of some items is, for each text, the first item that has it. -/
theorem exists_firsts {α : Type} (textOf : α → String) (items : List α) :
    ∃ firsts : List α, firsts.Sublist items ∧ distinct (items.map textOf) = firsts.map textOf ∧
      ∀ first ∈ firsts, ∃ before after, items = before ++ first :: after ∧
      textOf first ∉ before.map textOf := by
  induction items using List.reverseRecOn with
  | nil => exact ⟨[], .slnil, rfl, List.forall_mem_nil _⟩
  | append_singleton items last ih =>
    obtain ⟨firsts, hsublist, hfirsts, hbefore⟩ := ih
    have hearlier : ∀ first ∈ firsts, ∃ before after, items ++ [last] = before ++ first :: after ∧
        textOf first ∉ before.map textOf := by
      intro first hfirst
      obtain ⟨before, after, rfl, hnew⟩ := hbefore first hfirst
      exact ⟨before, after ++ [last], by simp, hnew⟩
    rw [List.map_append, List.map_singleton, distinct_concat]
    split
    next => exact ⟨firsts, hsublist.trans (List.sublist_append_left items [last]),
      hfirsts, hearlier⟩
    next hnew =>
      refine ⟨firsts ++ [last], hsublist.append (.refl [last]), by simp [hfirsts], ?_⟩
      refine List.forall_mem_append.mpr
        ⟨hearlier, List.forall_mem_singleton.mpr ⟨items, [], rfl, ?_⟩⟩
      exact fun hmem => hnew (List.contains_iff_mem.mpr (mem_distinct.mpr hmem))

end Distinct

/-! ### Hooks -/

variable {content token : String} {text taken : List Char} {start : Nat}

theorem isWord_of_capital {c : Char} (h : (CharClass.range 'A' 'Z').holds c = true) :
    isWord c = true := by
  have hbounds : 'A' ≤ c ∧ c ≤ 'Z' := by simpa [CharClass.holds] using h
  have hascii : c.toNat < 0x80 :=
    Nat.lt_of_le_of_lt (UInt32.le_iff_toNat_le.mp hbounds.2) (by decide)
  have hupper : c.isUpper = true := decide_eq_true hbounds
  have halphanum : c.isAlphanum = (c.isUpper || c.isLower || c.isDigit) := rfl
  rw [isWord, if_pos hascii, halphanum, hupper]
  rfl

theorem isWord_of_takes_hookForm (h : hookForm.Takes taken) : ∀ c ∈ taken, isWord c = true := by
  obtain ⟨_, _, rfl, ⟨_, _, rfl, ⟨_, _, ⟨c, hcapital, rfl⟩, hword, rfl⟩, rfl⟩, rfl⟩ := h
  rw [List.nil_append, List.forall_mem_append, List.forall_mem_append, List.forall_mem_singleton]
  exact ⟨List.all_eq_true.mp rfl, isWord_of_capital hcapital, hword⟩

theorem atWordBoundary_of_hook (h : hookForm.TokenAt text token start) :
    (inText text start).atWordBoundary = true := by
  obtain ⟨stop, hstop, -⟩ := Option.map_eq_some_iff.mp h.ends
  rw [matchEnd?_eq] at hstop
  by_contra hnot
  have hnone : hookForm.stops (inText text start) = [] := by
    have hstops : hookForm.stops (inText text start) =
        (stops .wordBoundary (inText text start)).flatMap (stops _) := rfl
    rw [hstops, stops, if_neg hnot, List.flatMap_nil]
  rw [hnone] at hstop
  cases hstop

/-- Hooks do not overlap: inside of one, no other begins. -/
theorem not_within_hook {other : Nat} {inner : String} (h : hookForm.TokenAt text token start)
    (hinner : hookForm.TokenAt text inner other) (hlt : start < other) :
    start + token.toList.length ≤ other := by
  by_contra hinside
  obtain ⟨rest, hrest⟩ := h.here
  have hword : ∀ place, start ≤ place → place ≤ other → ∃ c, text[place]? = some c ∧
      isWord c = true := by
    intro place hle hge
    have hget : place - start < token.toList.length := by omega
    refine ⟨token.toList[place - start], ?_,
      isWord_of_takes_hookForm h.takes _ (List.getElem_mem hget)⟩
    rw [← List.getElem?_eq_getElem hget, ← List.getElem?_append_left hget, hrest,
      List.getElem?_drop, Nat.add_sub_cancel' hle]
  -- on both sides of the inner beginning there is a character of the outer hook, so there is no
  -- boundary
  obtain ⟨c, hc, hcword⟩ := hword (other - 1) (by omega) (by omega)
  obtain ⟨d, hd, hdword⟩ := hword other (by omega) (by omega)
  have hbefore : (text.take other).getLast? = some c := by
    rw [← Nat.sub_add_cancel (Nat.zero_lt_of_lt hlt), List.take_add_one, hc, Option.toList_some,
      List.getLast?_concat]
  have hboundary := atWordBoundary_of_hook hinner
  rw [atWordBoundary, inText, hbefore, drop_eq_cons hd] at hboundary
  simp [hcword, hdword] at hboundary

/-- Every hook of a text is found. -/
theorem mem_startsIn_of_hook (h : hookForm.TokenAt content.toList token start) :
    start ∈ hookForm.startsIn content := by
  have hleast : 0 < hookForm.least := by decide
  have hspans : hookForm.Spans content.toList start (start + token.toList.length) :=
    ⟨h.ends, h.lt_length.le⟩
  obtain hmem | ⟨earlier, -, stop, hearlier, hlt, hinside⟩ :=
    (foundFrom_spans hleast content).mem_or_within (Nat.zero_le start) hspans
  · exact hmem
  · obtain ⟨-, -, htoken⟩ := hearlier.tokenAt hleast
    have hstop := Option.some.inj (hearlier.1.symm.trans htoken.ends)
    have hbehind := not_within_hook htoken h hlt
    omega

/-- The token is the hook at this place, and at no earlier one. -/
def FirstHookAt (text : List Char) (token : String) (start : Nat) : Prop :=
  hookForm.TokenAt text token start ∧ ∀ other, hookForm.TokenAt text token other → start ≤ other

/-- The hooks of a text are listed in the order in which they first occur. -/
theorem hooks_inOrder (content : String) : InOrder (FirstHookAt content.toList)
    (ofContent content).hooks := by
  have hleast : 0 < hookForm.least := by decide
  obtain ⟨hincreasing, -⟩ := find_inOrder hleast content
  obtain ⟨firsts, hsublist, hfirsts, hbefore⟩ :=
    exists_firsts (fun found : Match => String.ofList found.text) (hookForm.matchesIn content)
  refine ⟨firsts.map Match.start, hincreasing.sublist (hsublist.map Match.start), ?_⟩
  have hhooks : (ofContent content).hooks = firsts.map fun found => String.ofList found.text :=
    hfirsts
  rw [hhooks, List.forall₂_map_left_iff, List.forall₂_map_right_iff, List.forall₂_same]
  intro first hfirst
  have htoken := tokenAt_of_mem hleast (hsublist.subset hfirst)
  refine ⟨htoken, fun other hother => ?_⟩
  obtain ⟨found, hfound, rfl⟩ := List.mem_map.mp (mem_startsIn_of_hook hother)
  have hsame := (tokenAt_of_mem hleast hfound).unique hother
  obtain ⟨before, after, hsplit, hnew⟩ := hbefore first hfirst
  rw [startsIn, hsplit, List.map_append, List.map_cons, List.pairwise_append,
    List.pairwise_cons] at hincreasing
  rw [hsplit, List.mem_append, List.mem_cons] at hfound
  obtain hfound | rfl | hfound := hfound
  -- an earlier match would have the same text, and later matches begin later
  · exact absurd (List.mem_map.mpr ⟨found, hfound, hsame⟩) hnew
  · exact Nat.le_refl _
  · exact (hincreasing.2.1.1 _ (List.mem_map_of_mem hfound)).le

/-! ### Imports -/

/-- No blanks are left off what begins with a word and ends in a character that is none. -/
theorem strip_eq_self_of_takes (first : Char) (opening : List Char) (pieces : List Pattern)
    (closing : Pattern) (hfirst : isBlank first = false)
    (hclosing : ∀ back, closing.Takes back → ∃ c, back = [c] ∧ isBlank c = false)
    (h : (all (.text (first :: opening) :: pieces ++ [closing])).Takes taken) :
    strip taken = taken := by
  refine trim_eq_self ?_ ?_
  · obtain ⟨front, back, rfl, -, rfl⟩ := takes_all_cons h
    intro c hc
    obtain rfl := Option.some.inj hc
    exact hfirst
  · obtain ⟨front, back, -, hback, rfl⟩ := takes_all_concat h
    obtain ⟨c, rfl, hblank⟩ := hclosing back hback
    rw [List.getLast?_concat]
    intro last hlast
    rwa [← Option.some.inj hlast]

theorem not_isBlank_of_quote (back : List Char) (h : quote.Takes back) : ∃ c, back = [c] ∧
    isBlank c = false := by
  obtain ⟨c, hquote, rfl⟩ := h
  have hnone : quotes.all (fun c => !isBlank c) = true := rfl
  have hblank := List.all_eq_true.mp hnone c (List.contains_iff_mem.mp hquote)
  exact ⟨c, rfl, by simpa using hblank⟩

/-- An import is listed as it stands in the text. -/
theorem strip_eq_self_of_import {form : Pattern} (hform : form ∈ importForms)
    (h : form.Takes taken) :
    strip taken = taken := by
  simp only [importForms, List.mem_cons, List.not_mem_nil, or_false] at hform
  obtain rfl | rfl | rfl := hform
  · exact strip_eq_self_of_takes 'i'
      _ [someBlanks, .lazyRun (.except [';']), literal "from", someBlanks, quote,
      unquoted 0] quote rfl not_isBlank_of_quote h
  · exact strip_eq_self_of_takes 'i' _ [someBlanks, quote, unquoted 1] quote rfl
      not_isBlank_of_quote h
  · refine strip_eq_self_of_takes 'r' _ [blanks, quote, unquoted 1, quote, blanks]
      (literal ")") rfl ?_ h
    rintro _ rfl
    exact ⟨_, rfl, rfl⟩

theorem least_importForms : ∀ form ∈ importForms, 0 < form.least := by decide

/-- The places of the imports, in the order in which these are listed. -/
def importStarts (content : String) : List Nat :=
  importForms.flatMap fun form => form.startsIn content

/-- The token is an import that begins at this place. -/
def ImportAt (text : List Char) (token : String) (start : Nat) : Prop :=
  ∃ form ∈ importForms, form.TokenAt text token start

theorem imports_at_starts (content : String) :
    List.Forall₂ (ImportAt content.toList) (ofContent content).imports (importStarts content) := by
  have hform : ∀ form ∈ importForms,
      List.Forall₂ (ImportAt content.toList) ((form.find content).map stripped)
      (form.startsIn content) := by
    intro form hmem
    rw [List.forall₂_map_left_iff]
    refine (find_inOrder (least_importForms form hmem) content).2.imp fun token start htoken => ?_
    have hstripped : stripped token = token := by
      rw [stripped, strip_eq_self_of_import hmem htoken.takes, String.ofList_toList]
    rw [hstripped]
    exact ⟨form, hmem, htoken⟩
  have hall : ∀ forms : List Pattern, (∀ form ∈ forms, form ∈ importForms) →
      List.Forall₂ (ImportAt content.toList)
        (forms.flatMap fun form => (form.find content).map stripped)
        (forms.flatMap fun form => form.startsIn content) := by
    intro forms hforms
    induction forms with
    | nil => exact .nil
    | cons form forms ih =>
      obtain ⟨hhere, hlater⟩ := List.forall_mem_cons.mp hforms
      exact List.rel_append (hform form hhere) (ih hlater)
  exact hall importForms fun _ => id

/-- The imports are in order exactly if those of a form all begin before those of the later
forms. -/
theorem pairwise_importStarts_iff (content : String) : (importStarts content).Pairwise (· < ·) ↔
    importForms.Pairwise fun form later =>
      ∀ first ∈ form.startsIn content, ∀ second ∈ later.startsIn content, first < second := by
  rw [importStarts, List.pairwise_flatMap, and_iff_right_iff_imp]
  intro _ form hmem
  exact (find_inOrder (least_importForms form hmem) content).1

/-! ### All lists -/

/-- The lists that hold whatever a single form finds. -/
def plainLists : List (Pattern × (CodeContext → List String)) :=
  [(exportForm, exports), (functionForm, functions), (classForm, classes),
    (eventListenerForm, eventListeners),
    (asyncForm, asyncOperations), (stateForm, stateManagement), (errorForm, errorHandling)]

theorem plainLists_inOrder {form : Pattern} {list : CodeContext → List String}
    (h : (form, list) ∈ plainLists) (content : String) : InOrder (form.TokenAt content.toList)
    (list (ofContent content)) := by
  have hleast : ∀ entry ∈ plainLists, 0 < entry.1.least := by decide
  have hfind : ∀ entry ∈ plainLists, entry.2 (ofContent content) = entry.1.find content := by
    simp [plainLists, ofContent]
  have heq : list (ofContent content) = form.find content := hfind _ h
  rw [heq]
  exact ⟨form.startsIn content, find_inOrder (hleast _ h) content⟩

/-- Every list of a text but the imports has its tokens in the order of the text, the hooks that of
their first occurrences and each of them once. The imports stand in the text at the places of their
matches, which are in order exactly if the text has all imports of a form before those of the later
forms. -/
theorem extracts_in_source_order (content : String) :
    (∀ form list, (form, list) ∈ plainLists →
      InOrder (form.TokenAt content.toList) (list (ofContent content))) ∧
    (InOrder (FirstHookAt content.toList) (ofContent content).hooks ∧
      (ofContent content).hooks.Nodup ∧
      ∀ token, token ∈ (ofContent content).hooks ↔
      ∃ start, hookForm.TokenAt content.toList token start) ∧
    List.Forall₂ (ImportAt content.toList) (ofContent content).imports (importStarts content) ∧
    ((importStarts content).Pairwise (· < ·) ↔ importForms.Pairwise fun form later =>
      ∀ first ∈ form.startsIn content, ∀ second ∈ later.startsIn content, first < second) := by
  refine ⟨fun form list h => plainLists_inOrder h content,
    ⟨hooks_inOrder content, nodup_distinct _, ?_⟩,
    imports_at_starts content, pairwise_importStarts_iff content⟩
  intro token
  have hleast : 0 < hookForm.least := by decide
  have hhooks : token ∈ (ofContent content).hooks ↔ token ∈ hookForm.find content := mem_distinct
  rw [hhooks, find, List.mem_map]
  constructor
  · rintro ⟨found, hfound, rfl⟩
    exact ⟨found.start, tokenAt_of_mem hleast hfound⟩
  · rintro ⟨start, htoken⟩
    obtain ⟨found, hfound, rfl⟩ := List.mem_map.mp (mem_startsIn_of_hook htoken)
    exact ⟨found, hfound, (tokenAt_of_mem hleast hfound).unique htoken⟩

/-- A call that imports something, and below it an import for its effects. -/
def callBeforeImport : String := "require('a')\nimport 'b'"

/-- The import that comes second in the text is listed first, and there is only one place for
each. -/
theorem not_in_source_order_of_call : (ofContent callBeforeImport).imports =
    ["import 'b'", "require('a')"] ∧
    ¬ InOrder (fun token start => token.toList <+: callBeforeImport.toList.drop start)
      (ofContent callBeforeImport).imports := by
  have himports : (ofContent callBeforeImport).imports =
      ["import 'b'", "require('a')"] := by decide +kernel
  refine ⟨himports, ?_⟩
  rw [himports]
  rintro ⟨starts, hincreasing, hstarts⟩
  obtain ⟨first, _, hfirst, hrest, rfl⟩ := List.forall₂_cons_left_iff.mp hstarts
  obtain ⟨second, _, hsecond, -, rfl⟩ := List.forall₂_cons_left_iff.mp hrest
  have hlt : first < second := (List.pairwise_cons.mp hincreasing).1 second List.mem_cons_self
  have hinside : second < callBeforeImport.toList.length := by
    by_contra hbehind
    rw [List.drop_eq_nil_of_le (Nat.le_of_not_lt hbehind)] at hsecond
    exact absurd (List.prefix_nil.mp hsecond) (by decide)
  have hnone : ∀ second < callBeforeImport.toList.length, ∀ first < second,
      "import 'b'".toList <+: callBeforeImport.toList.drop first →
        ¬ "require('a')".toList <+: callBeforeImport.toList.drop second := by
    decide +kernel
  exact hnone second hinside first hlt hfirst hsecond

end CodeContext

end RiskScan
