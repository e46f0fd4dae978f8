/-!
# Values of variables

A variable is looked up by its name and has a text for a value, or none. What the text means is
decided where it is used, by the operand it is compared with.

* `ofBindings_append_self`: of two bindings of a name the later one counts.
-/

namespace Verdict

/-- The text that a name stands for, where it stands for one. -/
abbrev Lookup := String → Option String

namespace Lookup

/-- No name stands for anything. -/
def empty : Lookup := fun _ => none

/-- One more name bound. -/
def bind (lookup : Lookup) (name value : String) : Lookup :=
  fun other => if other = name then some value else lookup other

/-- The names of a list of bindings. -/
def ofBindings (bindings : List (String × String)) : Lookup :=
  bindings.foldl (fun lookup b => lookup.bind b.1 b.2) empty

theorem bind_self (lookup : Lookup) (name value : String) :
    lookup.bind name value name = some value := by simp only [bind, ↓reduceIte]

theorem bind_of_ne (lookup : Lookup) {name other : String} (value : String) (h : other ≠ name) :
    lookup.bind name value other = lookup other := by simp only [bind, h, ↓reduceIte]

/-- **The last binding of a name counts.** -/
theorem ofBindings_append_self (bindings : List (String × String)) (name value : String) :
    ofBindings (bindings ++ [(name, value)]) name = some value := by
  simp only [ofBindings, List.foldl_append, List.foldl_cons, List.foldl_nil, bind_self]

end Lookup

end Verdict
