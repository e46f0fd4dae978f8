import Verdict.Pattern.Reader
import Verdict.Pattern.Walk
import Verdict.Regex.Basic

/-!
# The library of this program

The expressions that the program itself is run with are the patterns of this folder. They are an
instance of `RegexLibrary` as good as any other that compiles expressions of the same language. What
is proved for all inputs is proved for every library; only some runs on fixed texts are of this one.
-/

namespace Verdict.Pattern

/-- The ways to match at a place, with what is left behind them and what their groups have
    captured. -/
def Layout.ways (layout : Layout) (names : List String) (text rest : List Char) :
    List Regex.Match :=
  (layout.matches text.toArray (text.length - rest.length)).map fun found =>
    ⟨text.drop found.stop, names.filterMap fun name =>
      (found.captured? name).map fun (start, stop) => (name, (text.drop start).take (stop - start))⟩

theorem Layout.suffix_of_mem {layout : Layout} {names : List String} {text rest : List Char}
    {m : Regex.Match} (hrest : rest <:+ text) (h : m ∈ layout.ways names text rest) :
    m.rest <:+ rest := by
  obtain ⟨found, hfound, rfl⟩ := List.mem_map.mp h
  have hle := (mem_matches_le (by rw [List.size_toArray]; exact Nat.sub_le _ _) hfound).1
  have hdrop := List.suffix_iff_eq_drop.mp hrest
  have hstop : text.drop found.stop
      = rest.drop (found.stop - (text.length - rest.length)) := by
    conv => rhs; rw [hdrop]
    rw [List.drop_drop, ← List.suffix_iff_eq_drop.mp hrest, Nat.add_sub_cancel' hle]
  exact hstop ▸ List.drop_suffix _ _

theorem Layout.names_of_mem {layout : Layout} {names : List String} {text rest : List Char}
    {m : Regex.Match} {group : String × List Char} (h : m ∈ layout.ways names text rest)
    (hg : group ∈ m.groups) : group.1 ∈ names := by
  obtain ⟨found, -, rfl⟩ := List.mem_map.mp h
  obtain ⟨name, hname, hgroup⟩ := List.mem_filterMap.mp hg
  obtain ⟨places, -, rfl⟩ := Option.map_eq_some_iff.mp hgroup
  exact hname

/-- **A pattern as a compiled expression.** It is laid out once. -/
def regex (pattern : Pattern) : Regex :=
  let layout := pattern.node.layout
  { source := pattern.source
    names := pattern.names
    ways := layout.ways pattern.names
    suffix_of_mem := Layout.suffix_of_mem
    names_of_mem := Layout.names_of_mem }

/-- Does the pattern match somewhere in the text? -/
def search (pattern : Pattern) : List Char → Bool :=
  let re := pattern.regex
  fun text => re.isMatch text

/-- The patterns of this folder as the library. -/
instance : RegexLibrary where
  compile? cs := (read? cs).map regex
  source_eq h := by
    obtain ⟨pattern, hread, rfl⟩ := Option.map_eq_some_iff.mp h
    exact source_of_read? hread

end Verdict.Pattern
