import Verdict.Operator.Basic

/-!
# Lists written and taken apart

A list is cut at its commas that are not escaped, and its items are trimmed. So items come back as
they were written if they are their own trim, have no such comma and escape none behind them; the
blanks put around them do not matter, and escapes stay as they are. In the other direction nothing
gets lost: the pieces joined by commas are the text again, and a comma that is left in one of them has
an odd run of backslashes before it.

Whether a character is escaped is carried along the whole text, but a comma where it is cut is not
escaped and does not escape, so that each piece begins afresh.

* `splitUnescaped_intercalate` -- pieces without unescaped marks come back from their joining.
* `hasUnescaped_of_mem_splitUnescaped`, `odd_of_not_hasUnescaped` -- the marks left in a piece.
* `itemsOf_listText` -- the items of a list that was written.
* `listHolds_listText` -- **both rules find the items that were written, and no others.**
-/

namespace Verdict

namespace Text

/-! ## 1. Pieces joined and cut -/

section Pieces

variable {mark : Char}

/-- A character that is no unescaped mark goes to the first piece of what is behind it. -/
theorem splitUnescaped_cons {escaped : Bool} {c : Char} (h : (c == mark && !escaped) = false)
    (cs : List Char) : splitUnescaped mark escaped (c :: cs)
      = (splitUnescaped mark (escapesNext escaped c) cs).modifyHead (c :: ·) := by
  have hne := splitUnescaped_ne_nil mark (escapesNext escaped c) cs
  simp only [splitUnescaped, h, Bool.false_eq_true, if_false]
  split
  · contradiction
  · rename_i hpieces
    rw [hpieces, List.modifyHead_cons]

theorem splitUnescaped_mark (hmark : mark ≠ '\\') (cs : List Char) :
    splitUnescaped mark false (mark :: cs) = [] :: splitUnescaped mark false cs := by
  rw [splitUnescaped, escapesNext_of_ne hmark, beq_self_eq_true]
  rfl

/-- A text in front without unescaped marks goes to the first piece of what is behind it. -/
theorem splitUnescaped_append {escaped : Bool} {piece : List Char}
    (h : hasUnescaped mark escaped piece = false) (cs : List Char) :
    splitUnescaped mark escaped (piece ++ cs)
      = (splitUnescaped mark (endsEscaped escaped piece) cs).modifyHead (piece ++ ·) := by
  induction piece generalizing escaped with
  | nil =>
    show splitUnescaped mark escaped cs = (splitUnescaped mark escaped cs).modifyHead id
    rw [List.modifyHead_id, id]
  | cons c piece ih =>
    obtain ⟨hc, hpiece⟩ := Bool.or_eq_false_iff.mp h
    rw [List.cons_append, splitUnescaped_cons hc, ih hpiece, endsEscaped, List.modifyHead_modifyHead]
    rfl

/-- **Pieces come back from their joining**, if they have no unescaped marks and do not escape the
    marks put behind them. -/
theorem splitUnescaped_intercalate (hmark : mark ≠ '\\') {pieces : List (List Char)}
    (hne : pieces ≠ []) (h : ∀ piece ∈ pieces,
      hasUnescaped mark false piece = false ∧ endsEscaped false piece = false) :
    splitUnescaped mark false ([mark].intercalate pieces) = pieces := by
  induction pieces with
  | nil => contradiction
  | cons piece more ih =>
    obtain ⟨hpiece, hend⟩ := h piece List.mem_cons_self
    cases more with
    | nil =>
      have hjoined : [mark].intercalate [piece] = piece ++ [] := by
        simp only [List.intercalate, List.intersperse_singleton, List.flatten_cons, List.flatten_nil]
      rw [hjoined, splitUnescaped_append hpiece, splitUnescaped, List.modifyHead_cons,
        List.append_nil]
    | cons next more =>
      have hjoined : [mark].intercalate (piece :: next :: more)
          = piece ++ mark :: [mark].intercalate (next :: more) := by
        simp only [List.intercalate, List.intersperse_cons_cons, List.flatten_cons,
          List.cons_append, List.nil_append]
      have hmore := ih (List.cons_ne_nil _ _) fun p hp => h p (List.mem_cons_of_mem _ hp)
      rw [hjoined, splitUnescaped_append hpiece, hend, splitUnescaped_mark hmark, hmore,
        List.modifyHead_cons, List.append_nil]

/-- The first piece begins as the text does, each of the others afresh. -/
theorem exists_pieces (hmark : mark ≠ '\\') (escaped : Bool) (cs : List Char) :
    ∃ first more, splitUnescaped mark escaped cs = first :: more ∧
      hasUnescaped mark escaped first = false ∧
      ∀ piece ∈ more, hasUnescaped mark false piece = false := by
  induction cs generalizing escaped with
  | nil => exact ⟨[], [], rfl, rfl, nofun⟩
  | cons c cs ih =>
    obtain ⟨first, more, hpieces, hfirst, hmore⟩ := ih (escapesNext escaped c)
    cases hc : c == mark && !escaped with
    | true =>
      obtain ⟨hmarked, hescaped⟩ := Bool.and_eq_true_iff.mp hc
      rw [beq_iff_eq.mp hmarked, escapesNext_of_ne hmark] at hpieces hfirst
      rw [beq_iff_eq.mp hmarked, (Bool.not_eq_true' _).mp hescaped, splitUnescaped_mark hmark,
        hpieces]
      refine ⟨[], first :: more, rfl, rfl, fun piece hp => ?_⟩
      rcases List.mem_cons.mp hp with rfl | hp
      · exact hfirst
      · exact hmore piece hp
    | false =>
      rw [splitUnescaped_cons hc, hpieces]
      refine ⟨c :: first, more, rfl, ?_, hmore⟩
      rw [hasUnescaped, hc, hfirst, Bool.or_self]

/-- **No piece has an unescaped mark.** -/
theorem hasUnescaped_of_mem_splitUnescaped (hmark : mark ≠ '\\') {cs piece : List Char}
    (h : piece ∈ splitUnescaped mark false cs) : hasUnescaped mark false piece = false := by
  obtain ⟨first, more, hpieces, hfirst, hmore⟩ := exists_pieces hmark false cs
  rw [hpieces] at h
  rcases List.mem_cons.mp h with rfl | h
  · exact hfirst
  · exact hmore piece h

/-- **A mark that is no unescaped one has an odd run of backslashes before it.** -/
theorem odd_of_not_hasUnescaped {before behind : List Char} {k : Nat}
    (h : hasUnescaped mark false (before ++ List.replicate k '\\' ++ mark :: behind) = false)
    (hlast : before.getLast? ≠ some '\\') : k % 2 = 1 := by
  rw [hasUnescaped_append, endsEscaped_append_replicate hlast] at h
  have hmark := (Bool.or_eq_false_iff.mp (Bool.or_eq_false_iff.mp h).2).1
  rw [beq_self_eq_true, Bool.true_and, Bool.not_eq_false'] at hmark
  exact of_decide_eq_true hmark

end Pieces

/-! ## 2. Blanks around an item -/

theorem skipBlank_append {blanks : List Char} (h : AllBlank blanks) (cs : List Char) :
    skipBlank (blanks ++ cs) = skipBlank cs := List.dropWhile_append_of_pos h

theorem trim_append {blanks : List Char} (h : AllBlank blanks) (cs : List Char) :
    trim (cs ++ blanks) = trim cs := by
  have hreverse : AllBlank blanks.reverse := fun c hc => h c (List.mem_reverse.mp hc)
  have hcut : skipBlank (cs ++ blanks) = skipBlank cs ++ blanks ∨
      skipBlank cs = [] ∧ skipBlank (cs ++ blanks) = [] := by
    unfold skipBlank
    rw [List.dropWhile_append]
    split
    · rename_i hnil
      refine .inr ⟨List.isEmpty_iff.mp hnil, ?_⟩
      rw [← List.append_nil blanks]
      exact skipBlank_append h []
    · exact .inl rfl
  rcases hcut with hcut | ⟨hnil, hcut⟩
  · rw [trim, hcut, List.reverse_append, skipBlank_append hreverse, trim]
  · rw [trim, hcut, trim, hnil]

/-- Blanks around a text do not change its trim. -/
theorem trim_between {before behind : List Char} (hbefore : AllBlank before)
    (hbehind : AllBlank behind) (cs : List Char) : trim (before ++ cs ++ behind) = trim cs := by
  rw [trim_append hbehind, trim, skipBlank_append hbefore, trim]

/-- Blanks have no mark, and escape nothing. -/
theorem plain_of_allBlank {mark : Char} (hmark : isBlank mark = false) {blanks : List Char}
    (h : AllBlank blanks) :
    hasUnescaped mark false blanks = false ∧ endsEscaped false blanks = false := by
  induction blanks with
  | nil => exact ⟨rfl, rfl⟩
  | cons c blanks ih =>
    have hc : isBlank c = true := h c List.mem_cons_self
    have hne : ∀ d, isBlank d = false → c ≠ d := by
      intro d hd he
      rw [he, hd] at hc
      cases hc
    have hnext : escapesNext false c = false := escapesNext_of_ne (hne '\\' (by decide)) false
    obtain ⟨hmarks, hend⟩ := ih fun d hd => h d (List.mem_cons_of_mem _ hd)
    rw [hasUnescaped, endsEscaped, hnext, hmarks, hend, beq_eq_false_iff_ne.mpr (hne mark hmark)]
    exact ⟨rfl, rfl⟩

end Text

open Text

/-! ## 3. Lists -/

/-- An item as it is written in a list, with blanks around it. -/
structure ListEntry where
  before : List Char
  item : String
  behind : List Char
  blank_before : AllBlank before
  blank_behind : AllBlank behind
  trimmed : trim item.toList = item.toList
  no_comma : hasUnescaped ',' false item.toList = false
  closed : endsEscaped false item.toList = false

/-- The characters of an entry. -/
def ListEntry.chars (entry : ListEntry) : List Char :=
  entry.before ++ entry.item.toList ++ entry.behind

/-- The text of a list. -/
def listText (entries : List ListEntry) : String :=
  String.ofList ([','].intercalate (entries.map ListEntry.chars))

theorem ListEntry.plain (entry : ListEntry) :
    hasUnescaped ',' false entry.chars = false ∧ endsEscaped false entry.chars = false := by
  have hcomma : isBlank ',' = false := by decide
  obtain ⟨hbefore, hbefore'⟩ := plain_of_allBlank hcomma entry.blank_before
  obtain ⟨hbehind, hbehind'⟩ := plain_of_allBlank hcomma entry.blank_behind
  rw [chars, hasUnescaped_append, hasUnescaped_append, endsEscaped_append, endsEscaped_append,
    endsEscaped_append, hbefore', entry.closed, hbefore, entry.no_comma, hbehind, hbehind']
  exact ⟨rfl, rfl⟩

/-- **The items of a list that was written are those it was written from.** -/
theorem itemsOf_listText {entries : List ListEntry} (h : entries ≠ []) :
    itemsOf (listText entries) = entries.map ListEntry.item := by
  have hpieces : splitUnescaped ',' false (listText entries).toList
      = entries.map ListEntry.chars := by
    rw [listText, String.toList_ofList]
    refine splitUnescaped_intercalate (by decide) (fun hnil => h (List.map_eq_nil_iff.mp hnil)) ?_
    intro piece hp
    obtain ⟨entry, -, rfl⟩ := List.mem_map.mp hp
    exact entry.plain
  rw [itemsOf, hpieces, List.map_map]
  refine List.map_congr_left fun entry _ => ?_
  show String.ofList (trim entry.chars) = entry.item
  rw [ListEntry.chars, trim_between entry.blank_before entry.blank_behind, entry.trimmed,
    String.ofList_toList]

/-- **Taking a list apart undoes its writing.** Of a list that is written from items with blanks
    around them, both rules find exactly these items, whatever text is asked for. And of any text the
    items are pieces that are trimmed: the pieces joined by commas are the text again, and in none of
    them stands a comma behind an even run of backslashes. -/
theorem listHolds_listText :
    (∀ entries : List ListEntry, entries ≠ [] → ∀ x : String,
      ∃ b, Comparison.isInList.rule (.text x) (.text (listText entries)) = .ok b ∧
        Comparison.listHolds.rule (.text (listText entries)) (.text x) = .ok b ∧
        (b = true ↔ x ∈ entries.map ListEntry.item)) ∧
      ∀ list : String,
        let pieces := splitUnescaped ',' false list.toList
        itemsOf list = pieces.map (fun piece => String.ofList (trim piece)) ∧
          [','].intercalate pieces = list.toList ∧
          ∀ piece ∈ pieces, ∀ before k behind,
            piece = before ++ List.replicate k '\\' ++ ',' :: behind →
            before.getLast? ≠ some '\\' → k % 2 = 1 := by
  refine ⟨fun entries hne x => ?_, fun list => ⟨rfl, intercalate_splitUnescaped ',' false _, ?_⟩⟩
  · refine ⟨holdsItem (listText entries) x, rfl, rfl, ?_⟩
    rw [holdsItem_iff, itemsOf_listText hne]
  · intro piece hp before k behind hpiece hlast
    have hplain := hasUnescaped_of_mem_splitUnescaped (by decide) hp
    rw [hpiece] at hplain
    exact odd_of_not_hasUnescaped hplain hlast

/-- Two items with a space around each, the first with an escaped comma. -/
def spacedEntries : List ListEntry :=
  have hspace : AllBlank [' '] := fun c hc => List.mem_singleton.mp hc ▸ by decide
  [⟨[' '], "a\\,b", [' '], hspace, hspace, by decide, by decide, by decide⟩,
   ⟨[' '], "c", [' '], hspace, hspace, by decide, by decide, by decide⟩]

theorem listHolds_listText_spaced :
    spacedEntries ≠ [] ∧ listText spacedEntries = " a\\,b , c " ∧
      Comparison.isInList.rule (.text "a\\,b") (.text (listText spacedEntries)) = .ok true := by
  have hne : spacedEntries ≠ [] := List.cons_ne_nil _ _
  obtain ⟨b, hrule, -, hb⟩ := listHolds_listText.1 spacedEntries hne "a\\,b"
  have hmem : "a\\,b" ∈ spacedEntries.map ListEntry.item := List.mem_cons_self
  rw [hb.mpr hmem] at hrule
  exact ⟨hne, rfl, hrule⟩

end Verdict
