import Verdict.Proofs.Front
import Verdict.Proofs.Languages

/-!
# What the expression for a front captures

A match of the expression for a front is an operator by itself, or a piece: a lead, perhaps an operand,
closing brackets. Behind it there is a gap, of which a blank is taken too. The parts are told apart by
the names of the groups that have captured them. So it is for every registry and every form of names,
whatever that form matches and captures itself, as long as no two groups have one name.

* `CapturesPiece` -- what a match of a piece has captured, and of what it is made.
* `Registry.captures?_front` -- a front is matched from the first character of a text.
* `Registry.captures_of_mem` -- **what a match of a front has captured.**
* `Registry.onward_scanFront` -- reading with the expression goes on with each front.
-/

namespace Verdict

open Text
open Regex (Match)

/-! ## 1. Parts of a front -/

namespace Expr

variable {text cs : List Char} {m : Match} {e : Expr} {name : String}

/-- A gap is matched in one way, and of a blank nothing is left. -/
theorem ways_gap (text cs : List Char) :
    gap.ways text cs = if cs.head?.all isBlank then [⟨cs.tail, []⟩] else [] := by
  cases cs with
  | nil => rfl
  | cons c cs =>
    show (if isBlank c then [(⟨cs, []⟩ : Match)] else []) ++ [] = _
    rw [List.append_nil]
    rfl

theorem mem_ways_gap : m ∈ gap.ways text cs ↔ AtGap cs ∧ m = ⟨cs.tail, []⟩ := by
  rw [ways_gap, ← all_head?_isBlank_iff]
  split
  · rename_i hgap
    rw [List.mem_singleton, and_iff_right hgap]
  · rename_i hgap
    exact iff_of_false List.not_mem_nil fun h => hgap h.1

/-- A group captures what its body takes. -/
theorem exists_of_mem_capture (hcs : cs <:+ text) (h : m ∈ (capture name e).ways text cs) :
    ∃ w, ∃ inner ∈ e.ways text cs, w ++ inner.rest = cs ∧
      m = ⟨inner.rest, (name, w) :: inner.groups⟩ := by
  obtain ⟨inner, hinner, rfl⟩ := List.mem_map.mp h
  exact ⟨_, inner, hinner, (List.suffix_iff_eq_append.mp (suffix_of_mem_ways hcs hinner)), rfl⟩

/-- What has no groups captures nothing but what it is captured by. -/
theorem exists_of_mem_capture_plain (hnames : e.names = []) (hcs : cs <:+ text)
    (h : m ∈ (capture name e).ways text cs) : ∃ w rest, w ++ rest = cs ∧ m = ⟨rest, [(name, w)]⟩ ∧
      ⟨rest, []⟩ ∈ e.ways text cs := by
  obtain ⟨w, ⟨rest, groups⟩, hinner, hw, rfl⟩ := exists_of_mem_capture hcs h
  obtain rfl : groups = [] := List.eq_nil_iff_forall_not_mem.mpr fun group hgroup => by
    have hname := names_of_mem_ways hinner group hgroup
    rw [hnames] at hname
    cases hname
  exact ⟨w, rest, hw, rfl, hinner⟩

theorem exists_of_mem_close (hcs : cs <:+ text) (h : m ∈ close.ways text cs) :
    ∃ w rest, (∀ c ∈ w, c = ')') ∧ w ++ rest = cs ∧ m = ⟨rest, [("close", w)]⟩ := by
  obtain ⟨w, rest, rfl, rfl, hinner⟩ := exists_of_mem_capture_plain rfl hcs h
  obtain ⟨-, w', hw, hcs⟩ := ((denotes_one (.char ')')).many text _ _).mp hinner
  obtain rfl := List.append_cancel_right hcs
  exact ⟨w', rest, fun c hc => beq_iff_eq.mp (CharClass.mem_kstar.mp hw c hc), rfl, rfl⟩

theorem exists_of_mem_body {own : Option Regex} (hcs : cs <:+ text)
    (h : m ∈ (body own).ways text cs) : m = ⟨cs, []⟩ ∨ ∃ w rest groups, w ++ rest = cs ∧
      m = ⟨rest, ("body", w) :: groups⟩ ∧
      ∀ group ∈ groups, group.1 ∈ own.elim [] Regex.names := by
  rcases List.mem_append.mp h with h | h
  · obtain ⟨w, ⟨rest, groups⟩, hinner, hw, rfl⟩ := exists_of_mem_capture hcs h
    have hnames : (choices (group literal) [group number, group truth, nameItem own]).names
        = own.elim [] Regex.names := by
      cases own <;> rfl
    exact .inr ⟨w, rest, groups, hw, rfl, fun group hgroup =>
      hnames ▸ names_of_mem_ways hinner group hgroup⟩
  · exact .inl (List.mem_singleton.mp h)

end Expr

/-! ## 2. Pieces -/

/-- **What a match of a piece has captured**: closing brackets, an operand if it has one, and with it
    what groups of the form of names have captured, and a lead. These are all that it takes. -/
inductive CapturesPiece (own : Option Regex) : List Char → Match → Prop
  | bare {lead close rest : List Char} (hclose : ∀ c ∈ close, c = ')') :
      CapturesPiece own (lead ++ (close ++ rest)) ⟨rest, [("close", close), ("lead", lead)]⟩
  | operand {lead body close rest : List Char} {groups : List (String × List Char)}
      (hclose : ∀ c ∈ close, c = ')')
      (hgroups : ∀ group ∈ groups, group.1 ∈ own.elim [] Regex.names) :
      CapturesPiece own (lead ++ (body ++ (close ++ rest)))
        ⟨rest, ("close", close) :: ("body", body) :: (groups ++ [("lead", lead)])⟩

theorem CapturesPiece.rest_suffix {own : Option Regex} {cs : List Char} {m : Match}
    (h : CapturesPiece own cs m) : m.rest <:+ cs := by
  cases h with
  | bare => exact (List.suffix_append _ _).trans (List.suffix_append _ _)
  | operand =>
    exact ((List.suffix_append _ _).trans (List.suffix_append _ _)).trans (List.suffix_append _ _)

namespace Registry

open Verdict.Expr

variable {r : Registry} {own : Option Regex} {text cs : List Char} {m : Match}

theorem capturesPiece_of_mem (hcs : cs <:+ text) (h : m ∈ (r.piece own).ways text cs) :
    CapturesPiece own cs m := by
  obtain ⟨first, hfirst, more, hmore, rfl⟩ := mem_ways_seq.mp h
  obtain ⟨second, hsecond, third, hthird, rfl⟩ := mem_ways_seq.mp hmore
  obtain ⟨lead, rest, rfl, rfl, -⟩ :=
    exists_of_mem_capture_plain (List.cons.inj r.names_lead).2 hcs hfirst
  have hrest : rest <:+ text := (List.suffix_append lead rest).trans hcs
  rcases exists_of_mem_body hrest hsecond with rfl | ⟨body, rest, groups, rfl, rfl, hgroups⟩
  · obtain ⟨close, rest, hclose, rfl, rfl⟩ := exists_of_mem_close hrest hthird
    exact .bare hclose
  · obtain ⟨close, rest, hclose, rfl, rfl⟩ :=
      exists_of_mem_close ((List.suffix_append body rest).trans hrest) hthird
    exact .operand hclose hgroups

/-! ## 3. Fronts -/

/-- **What a match of a front has captured**: an operator, or the parts of a piece. Behind it there is
    a gap, and what is left is what is behind a blank. -/
inductive Captures (own : Option Regex) (cs : List Char) : Match → Prop
  | operator {w ds : List Char} (hcs : w ++ ds = cs) (hgap : AtGap ds) :
      Captures own cs ⟨ds.tail, [("operator", w)]⟩
  | piece {ds : List Char} {groups : List (String × List Char)}
      (h : CapturesPiece own cs ⟨ds, groups⟩) (hgap : AtGap ds) : Captures own cs ⟨ds.tail, groups⟩

theorem mem_ways_front : m ∈ (r.front own).ways cs cs ↔
    ∃ ds groups, ⟨ds, groups⟩ ∈ (r.operatorOrPiece own).ways cs cs ∧ AtGap ds ∧
      m = ⟨ds.tail, groups⟩ := by
  have hstart : start.ways cs cs = [⟨cs, []⟩] := if_pos rfl
  constructor
  · intro h
    obtain ⟨first, hfirst, more, hmore, rfl⟩ := mem_ways_seq.mp h
    rw [hstart, List.mem_singleton] at hfirst
    subst hfirst
    obtain ⟨⟨ds, groups⟩, hinner, last, hlast, rfl⟩ := mem_ways_seq.mp hmore
    obtain ⟨hgap, rfl⟩ := mem_ways_gap.mp hlast
    exact ⟨ds, groups, hinner, hgap, congrArg (Match.mk ds.tail) (List.append_nil groups)⟩
  · rintro ⟨ds, groups, hinner, hgap, rfl⟩
    refine mem_ways_seq.mpr ⟨⟨cs, []⟩, hstart ▸ List.mem_singleton.mpr rfl, ⟨ds.tail, groups⟩,
      mem_ways_seq.mpr ⟨_, hinner, ⟨ds.tail, []⟩, mem_ways_gap.mpr ⟨hgap, rfl⟩, rfl⟩, ?_⟩
    exact congrArg (Match.mk ds.tail) (List.append_nil groups)

theorem captures_of_mem (h : m ∈ (r.front own).ways cs cs) : Captures own cs m := by
  obtain ⟨ds, groups, hinner, hgap, rfl⟩ := mem_ways_front.mp h
  have hpiece : ⟨ds, groups⟩ ∈ (r.piece own).ways cs cs → Captures own cs ⟨ds.tail, groups⟩ :=
    fun h => .piece (capturesPiece_of_mem (List.suffix_refl cs) h) hgap
  unfold operatorOrPiece at hinner
  split at hinner
  · exact hpiece hinner
  · rename_i first rest hoperators
    rcases List.mem_append.mp hinner with hop | hinner
    · obtain ⟨w, rest, hcs, he, -⟩ :=
        exists_of_mem_capture_plain (names_operators hoperators) (List.suffix_refl cs) hop
      cases he
      exact .operator hcs hgap
    · exact hpiece hinner

/-- The expression matches from the first character of a text or not at all. -/
theorem captures?_front (r : Registry) (own : Option Regex) (cs : List Char) :
    (r.front own).regex.captures? cs = ((r.front own).ways cs cs).head? :=
  captures?_seq_start _ cs

/-- **What is left behind a front** is an end of the text, and not all of it. -/
theorem Captures.rest_suffix {c : Char} {cs : List Char} (hc : isBlank c = false)
    (h : Captures own (c :: cs) m) : m.rest <:+ cs := by
  have htail : ∀ {ds : List Char}, ds <:+ c :: cs → AtGap ds → ds.tail <:+ cs := by
    intro ds hds hgap
    have hlt := length_lt_of_suffix hc hds hgap
    rcases List.suffix_cons_iff.mp hds with rfl | hds
    · exact absurd hlt (Nat.lt_irrefl _)
    · exact (List.tail_suffix ds).trans hds
  cases h with
  | operator hcs hgap => exact htail ⟨_, hcs⟩ hgap
  | piece h hgap => exact htail h.rest_suffix hgap

/-- So reading with an expression that matches like this one goes on with each front. -/
theorem onward_scanFront (g : Grammar) {front : Regex}
    (h : ∀ cs, front.captures? cs = (r.front own).regex.captures? cs) :
    Onward (g.scanFront front) := by
  intro c cs rest es hc hread
  rw [Grammar.scanFront, h, captures?_front] at hread
  split at hread
  · rename_i m hm
    obtain ⟨elements, -, hfront⟩ := map_eq_ok_iff.mp hread
    cases hfront
    exact (captures_of_mem (List.mem_of_head? hm)).rest_suffix hc
  · cases hread

/-! ## 4. Groups by their names -/

/-- No two groups of the expression have one name if it is so in the form of names, and that has none
    of the names by which the parts of a front are told apart. -/
theorem nodup_names_front_iff : (r.front own).names.Nodup ↔ (own.elim [] Regex.names).Nodup ∧
    ∀ name ∈ r.reservedNames, name ∉ own.elim [] Regex.names := by
  have hperm : (r.front own).names.Perm (r.reservedNames ++ own.elim [] Regex.names) := by
    rw [names_front, reservedNames, List.append_assoc]
    exact (((List.perm_append_singleton "close" _).cons _).cons _).append_left _
  have hreserved : r.reservedNames.Nodup := by
    rw [reservedNames]
    cases r.names.isEmpty <;> decide
  rw [hperm.nodup_iff, List.nodup_append', and_iff_right hreserved]
  exact and_congr_right fun _ => ⟨fun h name hm hown => h hm hown, fun h name hm => h name hm⟩

theorem nodup_names_front (r : Registry) : (r.front none).names.Nodup :=
  nodup_names_front_iff.mpr ⟨List.nodup_nil, fun _ _ => List.not_mem_nil⟩

end Registry

/-- What a group has captured that is none of some others. -/
theorem lookup_append_of_not_mem {groups more : List (String × List Char)} {names : List String}
    (hgroups : ∀ group ∈ groups, group.1 ∈ names) {name : String} (hname : name ∉ names) :
    (groups ++ more).lookup name = more.lookup name := by
  have hnone : groups.lookup name = none := List.lookup_eq_none_iff.mpr fun group hgroup =>
    bne_iff_ne.mpr fun he => hname (he ▸ hgroups group hgroup)
  rw [List.lookup_append, hnone, Option.none_or]

/-- **The parts of a piece**, as they are found by the names of the groups. -/
theorem CapturesPiece.exists_piece {own : Option Regex} {cs : List Char} {m : Match}
    (h : CapturesPiece own cs m) (hoperator : "operator" ∉ own.elim [] Regex.names)
    (hlead : "lead" ∉ own.elim [] Regex.names) : ∃ piece : Piece,
      piece.lead ++ piece.tail.chars = cs ∧ piece.tail.rest = m.rest ∧
        m.group? "operator" = none ∧ m.group? "lead" = some piece.lead ∧
        m.group? "body" = piece.tail.lexeme ∧
        m.group? "close" = some (List.replicate piece.tail.closing ')') := by
  have hbrackets : ∀ {close : List Char}, (∀ c ∈ close, c = ')') →
      List.replicate close.length ')' = close := fun hclose =>
    (List.eq_replicate_iff.mpr ⟨rfl, hclose⟩).symm
  cases h with
  | @bare lead close rest hclose =>
    refine ⟨⟨lead, ⟨none, close.length, rest⟩⟩, ?_, rfl, rfl, rfl, rfl, ?_⟩
    · show lead ++ (List.replicate close.length ')' ++ rest) = _
      rw [hbrackets hclose]
    · rw [hbrackets hclose]
      rfl
  | @operand lead body close rest groups hclose hgroups =>
    refine ⟨⟨lead, ⟨some body, close.length, rest⟩⟩, ?_, rfl, ?_, ?_, rfl, ?_⟩
    · show lead ++ (body ++ (List.replicate close.length ')' ++ rest)) = _
      rw [hbrackets hclose]
    · exact lookup_append_of_not_mem hgroups hoperator
    · exact lookup_append_of_not_mem hgroups hlead
    · rw [hbrackets hclose]
      rfl

end Verdict
