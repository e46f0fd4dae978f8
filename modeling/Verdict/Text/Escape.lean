/-!
# Escapes by a backslash

A backslash takes the special meaning from the character after it, also from a second backslash.
Whether a character is escaped is thus a PARITY carried along the text: it is escaped when an odd
run of backslashes stands before it. Escapes are kept as they are written; nothing is removed.

* `endsEscaped_append_replicate`: it is escaped exactly when that run is odd.
* `hasUnescaped` finds a mark that is not escaped: the quote that would end a literal early.
* `splitUnescaped` cuts at such marks; `intercalate_splitUnescaped` says that the pieces, joined by
  the mark, are the text again.
-/

namespace Verdict.Text

/-! ## 1. The parity -/

/-- Whether the character after `c` is escaped, given whether `c` is. -/
def escapesNext (escaped : Bool) (c : Char) : Bool := c == '\\' && !escaped

/-- Whether a character written after the text would be escaped. -/
def endsEscaped (escaped : Bool) : List Char → Bool
  | [] => escaped
  | c :: cs => endsEscaped (escapesNext escaped c) cs

theorem endsEscaped_append (escaped : Bool) (cs ds : List Char) :
    endsEscaped escaped (cs ++ ds) = endsEscaped (endsEscaped escaped cs) ds := by
  induction cs generalizing escaped with
  | nil => rfl
  | cons c cs ih => exact ih (escapesNext escaped c)

/-- Only a backslash escapes what is behind it. -/
theorem escapesNext_of_ne {c : Char} (h : c ≠ '\\') (escaped : Bool) :
    escapesNext escaped c = false := by
  rw [escapesNext, beq_eq_false_iff_ne.mpr h, Bool.false_and]

theorem endsEscaped_replicate (k : Nat) :
    endsEscaped false (List.replicate k '\\') = decide (k % 2 = 1) := by
  induction k with
  | zero => rfl
  | succ k ih =>
    have hone : endsEscaped (endsEscaped false (List.replicate k '\\')) ['\\']
        = !endsEscaped false (List.replicate k '\\') := by
      cases endsEscaped false (List.replicate k '\\') <;> rfl
    rw [List.replicate_succ', endsEscaped_append, hone, ih]
    by_cases hk : k % 2 = 1
    · have hk' : ¬ (k + 1) % 2 = 1 := by omega
      simp only [hk, hk', decide_true, decide_false, Bool.not_true]
    · have hk' : (k + 1) % 2 = 1 := by omega
      simp only [hk, hk', decide_true, decide_false, Bool.not_false]

/-- Only the backslashes right before a place decide whether it is escaped. -/
theorem endsEscaped_append_replicate {before : List Char} (h : before.getLast? ≠ some '\\')
    (k : Nat) : endsEscaped false (before ++ List.replicate k '\\') = decide (k % 2 = 1) := by
  have hbefore : endsEscaped false before = false := by
    cases hl : before.getLast? with
    | none =>
      rw [List.getLast?_eq_none_iff.mp hl]
      rfl
    | some c =>
      obtain ⟨front, rfl⟩ := List.getLast?_eq_some_iff.mp hl
      have hc : c ≠ '\\' := fun hc => h (hl.trans (congrArg some hc))
      rw [endsEscaped_append]
      exact escapesNext_of_ne hc _
  rw [endsEscaped_append, hbefore, endsEscaped_replicate]

/-! ## 2. Marks that are not escaped -/

/-- Does the mark occur unescaped? The flag says whether the first character is escaped. -/
def hasUnescaped (mark : Char) (escaped : Bool) : List Char → Bool
  | [] => false
  | c :: cs => c == mark && !escaped || hasUnescaped mark (escapesNext escaped c) cs

theorem hasUnescaped_append (mark : Char) (escaped : Bool) (cs ds : List Char) :
    hasUnescaped mark escaped (cs ++ ds)
      = (hasUnescaped mark escaped cs || hasUnescaped mark (endsEscaped escaped cs) ds) := by
  induction cs generalizing escaped with
  | nil => rfl
  | cons c cs ih => simp only [List.cons_append, hasUnescaped, endsEscaped, ih, Bool.or_assoc]

/-! ## 3. Cutting at marks -/

/-- The pieces between the unescaped marks; one piece more than there are such marks. -/
def splitUnescaped (mark : Char) (escaped : Bool) : List Char → List (List Char)
  | [] => [[]]
  | c :: cs =>
    let pieces := splitUnescaped mark (escapesNext escaped c) cs
    if c == mark && !escaped then [] :: pieces
    else
      match pieces with
      | [] => [[c]]
      | piece :: more => (c :: piece) :: more

theorem splitUnescaped_ne_nil (mark : Char) (escaped : Bool) (cs : List Char) :
    splitUnescaped mark escaped cs ≠ [] := by
  cases cs with
  | nil => exact List.cons_ne_nil _ _
  | cons c cs =>
    simp only [splitUnescaped]
    split
    · exact List.cons_ne_nil _ _
    · split <;> exact List.cons_ne_nil _ _

/-- **Nothing is lost**: the pieces joined by the mark are the text. -/
theorem intercalate_splitUnescaped (mark : Char) (escaped : Bool) (cs : List Char) :
    [mark].intercalate (splitUnescaped mark escaped cs) = cs := by
  induction cs generalizing escaped with
  | nil => rfl
  | cons c cs ih =>
    have hne := splitUnescaped_ne_nil mark (escapesNext escaped c) cs
    have hcs := ih (escapesNext escaped c)
    simp only [splitUnescaped]
    cases hp : splitUnescaped mark (escapesNext escaped c) cs with
    | nil => exact absurd hp hne
    | cons piece more =>
      rw [hp] at hcs
      split
      · rename_i hc
        have hmark : c = mark := by
          simp only [Bool.and_eq_true, beq_iff_eq] at hc; exact hc.1
        subst hmark
        rw [← hcs]
        simp only [List.intercalate, List.intersperse_cons_cons, List.flatten_cons,
          List.nil_append, List.cons_append]
      · rw [← hcs]
        cases more <;>
          simp only [List.intercalate, List.intersperse_cons_cons, List.intersperse_singleton,
            List.flatten_cons, List.flatten_nil, List.append_nil, List.cons_append]

end Verdict.Text
