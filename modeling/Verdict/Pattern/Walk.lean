import Verdict.Pattern.Factored

/-!
# Preferred matches

Several matches of a pattern may begin at one place. They are searched with a PREFERENCE: of two
branches the left one first, of a repetition one pass more first, or one pass less if it is lazy.
`Layout.matches` lists them in that order.

For this the pattern is laid out as numbered POINTS, each of which leads on to others. A walk goes
from point to point and from place to place of the text; where the way forks it takes the preferred
one and comes back for the other. A walk is given up when it comes to a point at a place where it has
been before, since what lies behind that point is already being tried. So a repetition whose body may
be passed over nothing has no endless walk; and a pass that goes back to points of the pass before it
finds them taken, and goes on with what they left.

A walk marks the places where it comes into a group with a name and out of it, and so tells what its
groups have captured when it finishes.

* `mem_walk_le`, `mem_matches_le`: a match ends no earlier than it begins, and inside the text.
-/

namespace Verdict.Pattern

/-! ## 1. Points -/

/-- A point of a pattern: what has to be met there, and the points it leads on to. -/
inductive Point
  | read (set : CharSet) (next : Nat)
  | check (condition : Edge) (next : Nat)
  | mark (name : String) (next : Nat)
  | fork (first second : Nat)
  | finish

/-- The points laid out so far; a point is named by its index. -/
abbrev Points := Array Point

/-- A fork between one pass more and leaving the repetition. -/
def Point.again (greedy : Bool) (pass leave : Nat) : Point :=
  if greedy then .fork pass leave else .fork leave pass

namespace Points

/-- One more point, with its index. -/
def add (points : Points) (point : Point) : Nat × Points := (points.size, points.push point)

/-- So many copies of a part one after the other before the point `next`. -/
def copies (lay : Nat → Points → Nat × Points) : Nat → Nat → Points → Nat × Points
  | 0, next, points => (next, points)
  | k + 1, next, points =>
    let (entry, points) := lay next points
    copies lay k entry points

/-- So many copies of a part, each of which may be left out with all that follow it. -/
def optionalCopies (lay : Nat → Points → Nat × Points) (greedy : Bool) (next : Nat) :
    Nat → Points → Nat × Points
  | 0, points => (next, points)
  | k + 1, points =>
    let (rest, points) := optionalCopies lay greedy next k points
    let (pass, points) := lay rest points
    points.add (.again greedy pass next)

/-- A part whose end leads back to a fork before it: the point where the part begins, and the fork. -/
def loop (lay : Nat → Points → Nat × Points) (greedy : Bool) (next : Nat) (points : Points) :
    Nat × Nat × Points :=
  -- the fork gets its index before the part that leads back to it is laid out
  let (fork, points) := points.add (.fork next next)
  let (pass, points) := lay fork points
  (pass, fork, points.setIfInBounds fork (.again greedy pass next))

end Points

/-- The points of a pattern before the point `next`, and where it begins. A repetition begins at the
    fork it comes back to. Where its body may match over nothing the two forks are kept apart, so that
    a first pass over nothing still leads on. Around a group with a name there are marks. -/
def Node.lay : Node → Nat → Points → Nat × Points
  | empty, next, points => (next, points)
  | chars set, next, points => points.add (.read set next)
  | edge condition, next, points => points.add (.check condition next)
  | seq first second, next, points =>
    let (middle, points) := second.lay next points
    first.lay middle points
  | choice left right, next, points =>
    let (second, points) := right.lay next points
    let (first, points) := left.lay next points
    points.add (.fork first second)
  | repeated body least (some most) greedy, next, points =>
    let (rest, points) := Points.optionalCopies (body.lay) greedy next (most - least) points
    Points.copies (body.lay) least rest points
  | repeated body (least + 1) none greedy, next, points =>
    let (pass, _, points) := Points.loop (body.lay) greedy next points
    Points.copies (body.lay) least pass points
  | repeated body 0 none greedy, next, points =>
    let (pass, fork, points) := Points.loop (body.lay) greedy next points
    if body.nullable then points.add (.again greedy pass next) else (fork, points)
  | group .plain body, next, points => body.lay next points
  | group (.capture none) body, next, points => body.lay next points
  | group (.capture (some name)) body, next, points =>
    let (behind, points) := points.add (.mark name next)
    let (inside, points) := body.lay behind points
    points.add (.mark name inside)

/-- A pattern laid out: its points, and the one where it begins. -/
structure Layout where
  points : Points
  entry : Nat

/-- The pattern laid out, in the form with common beginnings drawn out. -/
def Node.layout (node : Node) : Layout :=
  let (entry, points) := node.factored.lay 0 #[.finish]
  ⟨points, entry⟩

/-! ## 2. Walks -/

/-- A walk that is still to be made: the point to go to next, the place of the text to go there at,
    and the places marked before with the names of their groups, the last one first. -/
structure Way where
  point : Nat
  place : Nat
  marks : List (String × Nat)

/-- A walk that has finished: where it ended, and the places marked, the last one first. -/
structure Found where
  stop : Nat
  marks : List (String × Nat)

/-- What a group has captured on its last pass, if there was one. -/
def Found.captured? (found : Found) (name : String) : Option (Nat × Nat) :=
  match found.marks.filter (·.1 == name) with
  | (_, stop) :: (_, start) :: _ => some (start, stop)
  | _ => none

/-- The walks that finish, in order. `passed` has for each place the points passed there, as the bits
    of a number. The fuel counts steps. -/
def walk (points : Points) (text : Array Char) :
    Nat → List Way → Array Nat → List Found
  | 0, _, _ => []
  | _ + 1, [], _ => []
  | fuel + 1, ⟨point, place, marks⟩ :: ways, passed =>
    if (passed.getD place 0).testBit point then walk points text fuel ways passed
    else
      let passed := passed.modify place (· ||| 1 <<< point)
      match points[point]? with
      | some (.read set next) =>
        if text[place]?.any set.mem then
          walk points text fuel (⟨next, place + 1, marks⟩ :: ways) passed
        else walk points text fuel ways passed
      | some (.check condition next) =>
        if condition.holds text place then
          walk points text fuel (⟨next, place, marks⟩ :: ways) passed
        else walk points text fuel ways passed
      | some (.mark name next) =>
        walk points text fuel (⟨next, place, (name, place) :: marks⟩ :: ways) passed
      | some (.fork first second) =>
        walk points text fuel (⟨first, place, marks⟩ :: ⟨second, place, marks⟩ :: ways) passed
      | some .finish => ⟨place, marks⟩ :: walk points text fuel ways passed
      | none => walk points text fuel ways passed

theorem mem_walk_le {points : Points} {text : Array Char} {fuel i : Nat} {found : Found}
    {ways : List Way} {passed : Array Nat}
    (hw : ∀ way ∈ ways, i ≤ way.place ∧ way.place ≤ text.size)
    (hk : found ∈ walk points text fuel ways passed) : i ≤ found.stop ∧ found.stop ≤ text.size := by
  fun_induction walk points text fuel ways passed with
  | case1 => cases hk
  | case2 => cases hk
  | case3 _ _ _ _ _ _ _ ih => exact ih (List.forall_mem_cons.mp hw).2 hk
  | case4 _ point place marks ways _ _ _ set next _ hread ih =>
    obtain ⟨hp, hws⟩ := List.forall_mem_cons.mp hw
    refine ih (List.forall_mem_cons.mpr ⟨?_, hws⟩) hk
    have hlt : place < text.size := by
      by_cases h : place < text.size
      · exact h
      · rw [Array.getElem?_eq_none (Nat.le_of_not_lt h)] at hread; cases hread
    exact ⟨Nat.le_succ_of_le hp.1, hlt⟩
  | case5 _ _ _ _ _ _ _ _ _ _ _ _ ih => exact ih (List.forall_mem_cons.mp hw).2 hk
  | case6 _ point place marks ways _ _ _ condition next _ _ ih =>
    obtain ⟨hp, hws⟩ := List.forall_mem_cons.mp hw
    exact ih (List.forall_mem_cons.mpr ⟨hp, hws⟩) hk
  | case7 _ _ _ _ _ _ _ _ _ _ _ _ ih => exact ih (List.forall_mem_cons.mp hw).2 hk
  | case8 _ point place marks ways _ _ _ name next _ ih =>
    obtain ⟨hp, hws⟩ := List.forall_mem_cons.mp hw
    exact ih (List.forall_mem_cons.mpr ⟨hp, hws⟩) hk
  | case9 _ point place marks ways _ _ _ first second _ ih =>
    obtain ⟨hp, hws⟩ := List.forall_mem_cons.mp hw
    exact ih (List.forall_mem_cons.mpr ⟨hp, List.forall_mem_cons.mpr ⟨hp, hws⟩⟩) hk
  | case10 _ point place marks ways _ _ _ _ ih =>
    obtain ⟨hp, hws⟩ := List.forall_mem_cons.mp hw
    rcases List.mem_cons.mp hk with rfl | hk
    · exact hp
    · exact ih hws hk
  | case11 _ _ _ _ _ _ _ _ _ ih => exact ih (List.forall_mem_cons.mp hw).2 hk

/-- **The matches that begin at a place,** the preferred ones first. A step is made for the way it
    begins with and for at most two ways from each point at each place. -/
def Layout.matches (layout : Layout) (text : Array Char) (start : Nat) : List Found :=
  let places := text.size + 1
  walk layout.points text (2 * layout.points.size * places + 2) [⟨layout.entry, start, []⟩]
    (Array.replicate places 0)

theorem mem_matches_le {layout : Layout} {text : Array Char} {start : Nat} {found : Found}
    (hs : start ≤ text.size) (h : found ∈ layout.matches text start) :
    start ≤ found.stop ∧ found.stop ≤ text.size := by
  refine mem_walk_le (fun way hway => ?_) h
  rw [List.mem_singleton.mp hway]
  exact ⟨Nat.le_refl _, hs⟩

end Verdict.Pattern
