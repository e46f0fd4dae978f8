import Verdict.Regex.Expr

/-!
# A library with a table

What is proved about every library that reads some expressions as they are written is of use only if
there is such a library. The one with a table has compiled some expressions beforehand and takes no
other text. The trees among them it reads and takes as the assumptions on a library say.
-/

namespace Verdict

namespace RegexLibrary

/-- The library that takes the texts of some compiled expressions, and no other text. -/
@[reducible] def table (known : List Regex) : RegexLibrary where
  compile? text := known.find? (·.source == text)
  source_eq {text re} h := by
    have hsource : (re.source == text) = true :=
      List.find?_some (p := fun re : Regex => re.source == text) h
    exact beq_iff_eq.mp hsource

variable {known : List Regex} {e : Expr}

/-- What stands first in the table is found by its text. -/
theorem compile?_table_head (re : Regex) (known : List Regex) :
    (table (re :: known)).compile? re.source = some re :=
  List.find?_cons_of_pos (p := fun other : Regex => other.source == re.source)
    (beq_self_eq_true re.source)

/-- A tree in the table is read as it is written. -/
theorem reads_table (h : (table known).compile? e.text = some e.regex) (hnames : e.names.Nodup) :
    @Reads (table known) e := by
  intro _ re hre
  obtain rfl := Option.some.inj (h.symm.trans hre)
  exact ⟨hnames, fun _ => rfl⟩

/-- A tree in the table is taken. -/
theorem accepts_table (h : (table known).compile? e.text = some e.regex) :
    @Accepts (table known) e := fun _ _ => ⟨e.regex, h⟩

/-- With the tree alone in the table both assumptions hold, however the tree is given. -/
theorem accepts_reads_table {tree : Expr} (htree : e = tree) (hnames : e.names.Nodup) :
    @Accepts (table [tree.regex]) e ∧ @Reads (table [tree.regex]) e := by
  subst htree
  have hknown := compile?_table_head e.regex []
  exact ⟨accepts_table hknown, reads_table hknown hnames⟩

end RegexLibrary

end Verdict
