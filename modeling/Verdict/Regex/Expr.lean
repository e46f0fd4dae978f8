import Verdict.Regex.Basic
import Verdict.Text.Blank

/-!
# Expressions as trees

The text of an expression is put together from other texts, and what the library makes of it is told
by its structure. A tree has both: `Expr.text` writes it, and `Expr.ways` says what it means, all the
ways to match at a place in the order of preference: of two branches the left one first, of a
repetition one pass more first, or one pass less if it is lazy. A pass over nothing is no pass.

A compiled expression may be a part of a tree (`Expr.own`). It is put there as text, between the
brackets of a group, and what it matches is up to itself.

That the library reads the text of a tree as the tree is meant is not proved here but assumed where it
is needed, tree by tree (`RegexLibrary.Reads`). The tree has to be one that its text stands for
(`Expr.WellFormed`): a branch of a choice is no choice, and only one item is repeated.

* `Expr.suffix_of_mem_ways`, `Expr.names_of_mem_ways`: a tree is itself a compiled expression.
* `Expr.mem_ways_seq`, `Expr.mem_ways_many`: what matches a sequence, and a repetition.
-/

namespace Verdict

/-! ## 1. Characters -/

/-- A member of a set in square brackets: a character, escaped if it has to be, a range, or a hyphen
    that stands last. -/
inductive Member
  | char (c : Char)
  | range (first last : Char)
  | hyphen
deriving DecidableEq

def Member.text : Member → List Char
  | char c => Regex.escape [c]
  | range first last => [first, '-', last]
  | hyphen => ['-']

def Member.holds : Member → Char → Bool
  | char c, d => d == c
  | range first last, d => decide (first ≤ d) && decide (d ≤ last)
  | hyphen, d => d == '-'

/-- A class of characters: one character, escaped if it has to be, a hyphen, any character, a blank, or
    the members of a set or all characters but these. -/
inductive CharClass
  | char (c : Char)
  | hyphen
  | any
  | blank
  | set (members : List Member)
  | complement (members : List Member)

def CharClass.text : CharClass → List Char
  | char c => Regex.escape [c]
  | hyphen => ['-']
  | any => ['.']
  | blank => ['\\', 's']
  | set members => '[' :: members.flatMap Member.text ++ [']']
  | complement members => '[' :: '^' :: members.flatMap Member.text ++ [']']

def CharClass.holds : CharClass → Char → Bool
  | char c, d => d == c
  | hyphen, d => d == '-'
  | any, _ => true
  | blank, d => Text.isBlank d
  | set members, d => members.any (·.holds d)
  | complement members, d => !members.any (·.holds d)

/-- A set has members, and a hyphen only as the last of them. A point is any character where it may be
    a line end. -/
def CharClass.WellFormed (dotAll : Bool) : CharClass → Prop
  | any => dotAll = true
  | set members | complement members => members ≠ [] ∧ Member.hyphen ∉ members.dropLast
  | _ => True

/-! ## 2. Trees -/

/-- An expression as a tree, with its groups as they are written. -/
inductive Expr
  | empty
  | one (cls : CharClass)
  | start
  | finish
  | seq (first second : Expr)
  | choice (left right : Expr)
  | option (body : Expr)
  | many (lazy : Bool) (body : Expr)
  | plus (body : Expr)
  | group (body : Expr)
  | dotAll (body : Expr)
  | capture (name : String) (body : Expr)
  | own (re : Regex)

/-- A way to match behind another one. -/
def Regex.Match.behind (later earlier : Match) : Match :=
  ⟨later.rest, later.groups ++ earlier.groups⟩

namespace Expr

open Regex (Match)

/-- The text of an expression. -/
def text : Expr → List Char
  | empty => []
  | one cls => cls.text
  | start => ['^']
  | finish => ['$']
  | seq first second => first.text ++ second.text
  | choice left right => left.text ++ '|' :: right.text
  | option body => body.text ++ ['?']
  | many lazy body => body.text ++ (if lazy then ['*', '?'] else ['*'])
  | plus body => body.text ++ ['+']
  | group body => "(?:".toList ++ body.text ++ [')']
  | dotAll body => "(?s:".toList ++ body.text ++ [')']
  | capture name body => "(?P<".toList ++ name.toList ++ '>' :: body.text ++ [')']
  | own re => "(?:".toList ++ re.source ++ [')']

/-- The names of its groups, in the order they are written. -/
def names : Expr → List String
  | empty | one _ | start | finish => []
  | seq first second => first.names ++ second.names
  | choice left right => left.names ++ right.names
  | option body | many _ body | plus body | group body | dotAll body => body.names
  | capture name body => name :: body.names
  | own re => re.names

/-- The expression for a text, each character escaped if it has to be. -/
def word : List Char → Expr
  | [] => empty
  | c :: cs => seq (one (.char c)) (word cs)

/-- A choice between some branches. -/
def choices (first : Expr) : List Expr → Expr
  | [] => first
  | second :: rest => choice first (choices second rest)

theorem text_word (cs : List Char) : (word cs).text = Regex.escape cs := by
  induction cs with
  | nil => rfl
  | cons c cs ih =>
    have hword : (word (c :: cs)).text = Regex.escape [c] ++ (word cs).text := rfl
    rw [hword, ih, ← Regex.escape_cons]

/-! ## 3. What they mean -/

/-- The ways to match one thing and then another. -/
def andThen (first second : List Char → List Match) (cs : List Char) : List Match :=
  (first cs).flatMap fun m => (second m.rest).map (·.behind m)

/-- The ways to pass over a body again and again. A pass takes something, so that the fuel never runs
    out where it is as much as there is of the text. -/
def passes (body : List Char → List Match) (lazy : Bool) : Nat → List Char → List Match
  | 0, cs => [⟨cs, []⟩]
  | fuel + 1, cs =>
    let onward (cs : List Char) := (body cs).filter (·.rest.length < cs.length)
    let more := andThen onward (passes body lazy fuel) cs
    if lazy then ⟨cs, []⟩ :: more else more ++ [⟨cs, []⟩]

/-- **The ways to match** from where a rest of a text is left, the preferred one first. -/
def ways (text : List Char) : Expr → List Char → List Match
  | empty, cs => [⟨cs, []⟩]
  | one cls, cs =>
    match cs with
    | [] => []
    | c :: cs => if cls.holds c then [⟨cs, []⟩] else []
  | start, cs => if cs.length = text.length then [⟨cs, []⟩] else []
  | finish, cs => if cs.isEmpty then [⟨cs, []⟩] else []
  | seq first second, cs => andThen (first.ways text) (second.ways text) cs
  | choice left right, cs => left.ways text cs ++ right.ways text cs
  | option body, cs => body.ways text cs ++ [⟨cs, []⟩]
  | many lazy body, cs => passes (body.ways text) lazy cs.length cs
  | plus body, cs =>
    andThen (body.ways text) (fun ds => passes (body.ways text) false ds.length ds) cs
  | group body, cs => body.ways text cs
  | dotAll body, cs => body.ways text cs
  | capture name body, cs => (body.ways text cs).map fun m =>
      ⟨m.rest, (name, cs.take (cs.length - m.rest.length)) :: m.groups⟩
  | own re, cs => re.ways text cs

variable {text cs : List Char} {m : Match}

theorem mem_ways_one {cls : CharClass} : m ∈ (one cls).ways text cs ↔
    ∃ c ds, cls.holds c = true ∧ cs = c :: ds ∧ m = ⟨ds, []⟩ := by
  cases cs with
  | nil => exact iff_of_false List.not_mem_nil fun ⟨_, _, _, h, _⟩ => List.cons_ne_nil _ _ h.symm
  | cons c cs =>
    simp only [ways, List.mem_ite_nil_right, List.mem_singleton]
    constructor
    · rintro ⟨hc, hm⟩
      exact ⟨c, cs, hc, rfl, hm⟩
    · rintro ⟨_, _, hc, hcs, hm⟩
      cases hcs
      exact ⟨hc, hm⟩

/-- A place of the text is matched by taking nothing, or not at all. -/
theorem eq_of_mem_place {p : Prop} [Decidable p] (h : m ∈ if p then [Match.mk cs []] else []) :
    m = ⟨cs, []⟩ :=
  List.mem_singleton.mp (List.mem_ite_nil_right.mp h).2

theorem mem_andThen {first second : List Char → List Match} : m ∈ andThen first second cs ↔
    ∃ earlier ∈ first cs, ∃ later ∈ second earlier.rest, later.behind earlier = m := by
  simp only [andThen, List.mem_flatMap, List.mem_map]

theorem mem_ways_seq {first second : Expr} : m ∈ (seq first second).ways text cs ↔
    ∃ earlier ∈ first.ways text cs, ∃ later ∈ second.ways text earlier.rest,
      later.behind earlier = m := mem_andThen

/-- What all ways to match keep, they keep over any number of passes. -/
theorem passes_induction {body : List Char → List Match} {motive : List Char → Match → Prop}
    (stop : ∀ cs, motive cs ⟨cs, []⟩)
    (pass : ∀ {cs earlier later}, earlier ∈ body cs → motive earlier.rest later →
      motive cs (later.behind earlier))
    {lazy : Bool} {fuel : Nat} (h : m ∈ passes body lazy fuel cs) : motive cs m := by
  induction fuel generalizing cs m with
  | zero =>
    rw [List.mem_singleton.mp h]
    exact stop cs
  | succ fuel ih =>
    have hcases : m = ⟨cs, []⟩ ∨
        m ∈ andThen (fun cs => (body cs).filter (·.rest.length < cs.length))
          (passes body lazy fuel) cs := by
      cases lazy with
      | true => exact List.mem_cons.mp h
      | false => exact (List.mem_append.mp h).symm.imp_left List.mem_singleton.mp
    rcases hcases with rfl | hmore
    · exact stop cs
    · obtain ⟨earlier, he, later, hl, rfl⟩ := mem_andThen.mp hmore
      exact pass (List.mem_filter.mp he).1 (ih hl)

/-- What leaves ends of the text behind, one after the other, leaves an end of it behind. -/
theorem suffix_of_mem_andThen {first second : List Char → List Match}
    (hfirst : ∀ {cs m}, cs <:+ text → m ∈ first cs → m.rest <:+ cs)
    (hsecond : ∀ {cs m}, cs <:+ text → m ∈ second cs → m.rest <:+ cs) (hcs : cs <:+ text)
    (h : m ∈ andThen first second cs) : m.rest <:+ cs := by
  obtain ⟨earlier, he, later, hl, rfl⟩ := mem_andThen.mp h
  have hsuffix := hfirst hcs he
  exact (hsecond (hsuffix.trans hcs) hl).trans hsuffix

theorem suffix_of_mem_passes {body : List Char → List Match}
    (hbody : ∀ {cs m}, cs <:+ text → m ∈ body cs → m.rest <:+ cs) {lazy : Bool} {fuel : Nat}
    (hcs : cs <:+ text) (h : m ∈ passes body lazy fuel cs) : m.rest <:+ cs := by
  refine passes_induction (motive := fun cs m => cs <:+ text → m.rest <:+ cs)
    (fun cs _ => List.suffix_refl cs) (fun he hl hcs => ?_) h hcs
  have hsuffix := hbody hcs he
  exact (hl (hsuffix.trans hcs)).trans hsuffix

/-- A match leaves an end of the text behind. -/
theorem suffix_of_mem_ways {e : Expr} (hcs : cs <:+ text) (h : m ∈ e.ways text cs) :
    m.rest <:+ cs := by
  induction e generalizing cs m with
  | empty =>
    obtain rfl := List.mem_singleton.mp h
    exact List.suffix_refl cs
  | one cls =>
    obtain ⟨c, ds, -, rfl, rfl⟩ := mem_ways_one.mp h
    exact List.suffix_cons c ds
  | start | finish =>
    obtain rfl := eq_of_mem_place h
    exact List.suffix_refl cs
  | seq first second ih₁ ih₂ => exact suffix_of_mem_andThen ih₁ ih₂ hcs h
  | choice left right ih₁ ih₂ =>
    exact (List.mem_append.mp h).elim (ih₁ hcs) (ih₂ hcs)
  | option body ih =>
    rcases List.mem_append.mp h with h | h
    · exact ih hcs h
    · obtain rfl := List.mem_singleton.mp h
      exact List.suffix_refl cs
  | many lazy body ih => exact suffix_of_mem_passes ih hcs h
  | plus body ih => exact suffix_of_mem_andThen ih (suffix_of_mem_passes ih) hcs h
  | group body ih => exact ih hcs h
  | dotAll body ih => exact ih hcs h
  | capture name body ih =>
    obtain ⟨inner, hinner, rfl⟩ := List.mem_map.mp h
    exact ih (m := inner) hcs hinner
  | own re => exact re.suffix_of_mem hcs h

theorem mem_groups_behind {later earlier : Match} {group : String × List Char} :
    group ∈ (later.behind earlier).groups ↔ group ∈ later.groups ∨ group ∈ earlier.groups :=
  List.mem_append

theorem forall_mem_groups_nil {rest : List Char} {p : String × List Char → Prop} :
    ∀ group ∈ (⟨rest, []⟩ : Match).groups, p group :=
  fun _ hgroup => absurd hgroup List.not_mem_nil

theorem names_of_mem_passes {body : List Char → List Match} {names : List String}
    (hbody : ∀ {cs m}, m ∈ body cs → ∀ group ∈ m.groups, group.1 ∈ names) {lazy : Bool}
    {fuel : Nat} (h : m ∈ passes body lazy fuel cs) : ∀ group ∈ m.groups, group.1 ∈ names := by
  refine passes_induction (motive := fun _ m => ∀ group ∈ m.groups, group.1 ∈ names)
    (fun _ => forall_mem_groups_nil) (fun he hl group hgroup => ?_) h
  exact (mem_groups_behind.mp hgroup).elim (hl group) (hbody he group)

/-- Only groups of the expression capture. -/
theorem names_of_mem_ways {e : Expr} (h : m ∈ e.ways text cs) :
    ∀ group ∈ m.groups, group.1 ∈ e.names := by
  induction e generalizing cs m with
  | empty => exact List.mem_singleton.mp h ▸ forall_mem_groups_nil
  | one cls =>
    obtain ⟨c, ds, -, rfl, rfl⟩ := mem_ways_one.mp h
    exact forall_mem_groups_nil
  | start | finish => exact eq_of_mem_place h ▸ forall_mem_groups_nil
  | seq first second ih₁ ih₂ =>
    obtain ⟨earlier, he, later, hl, rfl⟩ := mem_ways_seq.mp h
    intro group hgroup
    refine List.mem_append.mpr ((mem_groups_behind.mp hgroup).symm.imp ?_ ?_)
    · exact fun hg => ih₁ he group hg
    · exact fun hg => ih₂ hl group hg
  | choice left right ih₁ ih₂ =>
    intro group hgroup
    refine List.mem_append.mpr ((List.mem_append.mp h).imp ?_ ?_)
    · exact fun h => ih₁ h group hgroup
    · exact fun h => ih₂ h group hgroup
  | option body ih =>
    rcases List.mem_append.mp h with h | h
    · exact ih h
    · exact List.mem_singleton.mp h ▸ forall_mem_groups_nil
  | many lazy body ih => exact names_of_mem_passes (fun h => ih h) h
  | plus body ih =>
    obtain ⟨earlier, he, later, hl, rfl⟩ := mem_andThen.mp h
    intro group hgroup
    refine (mem_groups_behind.mp hgroup).elim ?_ (ih he group)
    exact names_of_mem_passes (fun h => ih h) hl group
  | group body ih => exact ih h
  | dotAll body ih => exact ih h
  | capture name body ih =>
    obtain ⟨inner, hinner, rfl⟩ := List.mem_map.mp h
    intro group hgroup
    rcases List.mem_cons.mp hgroup with rfl | hgroup
    · exact List.mem_cons_self
    · exact List.mem_cons_of_mem _ (ih hinner group hgroup)
  | own re => exact fun group hgroup => re.names_of_mem h hgroup

/-- **A tree as a compiled expression.** -/
def regex (e : Expr) : Regex where
  source := e.text
  names := e.names
  ways text := e.ways text
  suffix_of_mem := suffix_of_mem_ways
  names_of_mem h hgroup := names_of_mem_ways h _ hgroup

/-- What begins with the start of a text is matched from its first character or not at all. -/
theorem captures?_seq_start (e : Expr) (cs : List Char) :
    (seq start e).regex.captures? cs = ((seq start e).ways cs cs).head? := by
  refine leftmost?_of_front (fun rest _ hlt => ?_)
  have hstart : start.ways cs rest = [] := if_neg (Nat.ne_of_lt hlt)
  show (andThen (start.ways cs) _ rest).head? = none
  rw [andThen, hstart]
  rfl

/-! ## 4. Trees that their texts stand for -/

/-- Is the expression one item, which may be repeated? -/
def isItem : Expr → Bool
  | one _ | group _ | dotAll _ | capture _ _ | own _ => true
  | _ => false

/-- Is the expression one branch, which may stand beside others in a sequence? -/
def isBranch : Expr → Bool
  | choice _ _ => false
  | _ => true

/-- Does every match take something, as it is written? -/
def takes : Expr → Bool
  | one _ => true
  | seq first second => first.takes || second.takes
  | choice left right => left.takes && right.takes
  | plus body | group body | dotAll body | capture _ body => body.takes
  | _ => false

/-- **The text of the tree stands for it.** A choice stands in a group, only one item is repeated,
    and only if it takes something on each pass, and a compiled expression is one that the library has
    made of its text. -/
def WellFormed [RegexLibrary] (dotAll : Bool) : Expr → Prop
  | empty | start | finish => True
  | one cls => cls.WellFormed dotAll
  | seq first second => first.isBranch = true ∧ second.isBranch = true ∧
      first.WellFormed dotAll ∧ second.WellFormed dotAll
  | choice left right => left.WellFormed dotAll ∧ right.WellFormed dotAll
  | option body => body.isItem = true ∧ body.WellFormed dotAll
  | many _ body | plus body => body.isItem = true ∧ body.takes = true ∧ body.WellFormed dotAll
  | group body | capture _ body => body.WellFormed dotAll
  | .dotAll body => body.WellFormed true
  | own re => dotAll = false ∧ RegexLibrary.compile? re.source = some re

end Expr

/-! ## 5. What the library makes of a tree -/

namespace RegexLibrary

variable [RegexLibrary]

/-- **The library reads the expression as it is written.** What it makes of the text of a well-formed
    tree has no two groups of one name, and finds in every text what the tree does. -/
def Reads (e : Expr) : Prop :=
  e.WellFormed false → ∀ re, compile? e.text = some re →
    e.names.Nodup ∧ ∀ text, re.captures? text = e.regex.captures? text

/-- **The library takes the expression**: the text of a well-formed tree with no two groups of one
    name is compiled, so that it is not too large for the library either. -/
def Accepts (e : Expr) : Prop :=
  e.WellFormed false → e.names.Nodup → ∃ re, compile? e.text = some re

end RegexLibrary

end Verdict
