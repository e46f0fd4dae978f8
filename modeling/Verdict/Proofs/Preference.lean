import Verdict.Proofs.Languages
import Verdict.Proofs.Pieces

/-!
# The preferred way to match

Of all the ways to match an expression the first one counts behind which the rest of a larger one can be
matched too. What comes of it is asked of each way in turn, until there is an answer: the way is the
preferred one (`List.findSome?`). Here the question is passed on from an expression to its parts.

* `findSome?_seq`, `findSome?_choice`, `findSome?_capture` -- a question to an expression, by its parts.
* `Denotes.findSome?_ways` -- where only one end can have an answer, the order is no matter.
* `findSome?_many_parts` -- **a greedy repetition of words**, the longest run first.
* `ways_many_any` -- a lazy one of any characters, the shortest run first.
-/

namespace Verdict

open Text
open Regex (Match)

theorem findSome?_congr {α β : Type} {f g : α → Option β} {l : List α} (h : ∀ a ∈ l, f a = g a) :
    l.findSome? f = l.findSome? g := by
  rw [← List.head?_filterMap, ← List.head?_filterMap, List.filterMap_congr h]

theorem findSome?_flatMap {α β γ : Type} (l : List α) (f : α → List β) (k : β → Option γ) :
    (l.flatMap f).findSome? k = l.findSome? fun a => (f a).findSome? k := by
  rw [← List.head?_filterMap, List.filterMap_flatMap, List.head?_flatMap]
  simp only [List.head?_filterMap]

theorem findSome?_singleton {α β : Type} (a : α) (k : α → Option β) : [a].findSome? k = k a := by
  rw [List.findSome?_cons]
  cases k a <;> rfl

theorem findSome?_some {α : Type} (l : List α) : l.findSome? some = l.head? := by
  rw [← List.head?_filterMap, List.filterMap_some]

namespace Expr

variable {α : Type} {text cs : List Char} {e first second : Expr} {l : Language Char}

/-! ## 1. Parts -/

theorem findSome?_andThen (first second : List Char → List Match) (cs : List Char)
    (k : Match → Option α) : (andThen first second cs).findSome? k =
      (first cs).findSome? fun m => (second m.rest).findSome? fun later => k (later.behind m) := by
  rw [andThen, findSome?_flatMap]
  simp only [List.findSome?_map, Function.comp_def]

theorem findSome?_seq (text cs : List Char) (first second : Expr) (k : Match → Option α) :
    ((seq first second).ways text cs).findSome? k = (first.ways text cs).findSome? fun m =>
      (second.ways text m.rest).findSome? fun later => k (later.behind m) :=
  findSome?_andThen _ _ cs k

theorem findSome?_choice (text cs : List Char) (left right : Expr) (k : Match → Option α) :
    ((choice left right).ways text cs).findSome? k =
      ((left.ways text cs).findSome? k).or ((right.ways text cs).findSome? k) :=
  List.findSome?_append

theorem findSome?_option (text cs : List Char) (body : Expr) (k : Match → Option α) :
    ((option body).ways text cs).findSome? k =
      ((body.ways text cs).findSome? k).or (k ⟨cs, []⟩) := by
  rw [ways, List.findSome?_append, findSome?_singleton]

theorem findSome?_capture (text cs : List Char) (name : String) (body : Expr)
    (k : Match → Option α) : ((capture name body).ways text cs).findSome? k =
      (body.ways text cs).findSome? fun m =>
        k ⟨m.rest, (name, cs.take (cs.length - m.rest.length)) :: m.groups⟩ := by
  rw [ways, List.findSome?_map]
  rfl

/-- Where nothing is captured the answer is up to what is left. -/
theorem findSome?_of_names (hnames : e.names = []) (text cs : List Char) (k : Match → Option α) :
    (e.ways text cs).findSome? k = (e.ways text cs).findSome? fun m => k ⟨m.rest, []⟩ := by
  refine findSome?_congr fun m hm => ?_
  have hgroups : m.groups = [] := List.eq_nil_iff_forall_not_mem.mpr fun group hgroup => by
    have hname := names_of_mem_ways hm group hgroup
    rw [hnames] at hname
    cases hname
  rw [← hgroups]

/-! ## 2. One end -/

/-- **Where only one end can have an answer**, the answer is that of this end. -/
theorem Denotes.findSome?_ways (h : Denotes e l) {k : List Char → Option α}
    {found : Option (List Char)}
    (hends : ∀ rest, k rest ≠ none → ((∃ w ∈ l, w ++ rest = cs) ↔ found = some rest)) :
    (e.ways text cs).findSome? (fun m => k m.rest) = found.bind k := by
  have hother : ∀ m ∈ e.ways text cs, k m.rest ≠ none → found = some m.rest := fun m hm hk =>
    (hends m.rest hk).mp ((h text cs m).mp hm).2
  cases found with
  | none =>
    refine List.findSome?_eq_none_iff.mpr fun m hm => ?_
    by_contra hk
    cases hother m hm hk
  | some rest =>
    show _ = k rest
    cases hk : k rest with
    | none =>
      refine List.findSome?_eq_none_iff.mpr fun m hm => ?_
      by_contra hne
      obtain rfl := Option.some.inj (hother m hm hne)
      exact hne hk
    | some answer =>
      have hsome : k rest ≠ none := by
        rw [hk]
        exact Option.some_ne_none answer
      have hway : (⟨rest, []⟩ : Match) ∈ e.ways text cs :=
        (h text cs _).mpr ⟨rfl, (hends rest hsome).mpr rfl⟩
      refine findSome?_eq_of_forall hway hk fun m hm => ?_
      by_cases hne : k m.rest = none
      · exact .inl hne
      · obtain rfl := Option.some.inj (hother m hm hne)
        exact .inr hk

/-! ## 3. Words -/

/-- A text is matched where it stands at the front, and in one way. -/
theorem ways_word (text w cs : List Char) : (Expr.word w).ways text cs =
    if w.isPrefixOf cs then [⟨cs.drop w.length, []⟩] else [] := by
  induction w generalizing cs with
  | nil => rfl
  | cons c w ih =>
    cases cs with
    | nil => rfl
    | cons d ds =>
      show andThen (fun cs => (one (.char c)).ways text cs) (fun cs => (Expr.word w).ways text cs)
        (d :: ds) = _
      have hone : (one (.char c)).ways text (d :: ds) = if d == c then [⟨ds, []⟩] else [] := rfl
      rw [andThen, hone, List.isPrefixOf, Bool.beq_comm (a := c)]
      by_cases hd : (d == c) = true
      · rw [if_pos hd, hd, Bool.true_and, List.flatMap_singleton, ih]
        split <;> rfl
      · rw [if_neg hd, Bool.eq_false_iff.mpr hd]
        rfl

theorem ways_choices (text cs : List Char) (first : Expr) (rest : List Expr) :
    (choices first rest).ways text cs = (first :: rest).flatMap (·.ways text cs) := by
  induction rest generalizing first with
  | nil => rw [choices, List.flatMap_singleton]
  | cons second rest ih =>
    rw [List.flatMap_cons, ← ih]
    rfl

/-! ## 4. Runs -/

section Greedy

variable {parts : List (List Char)} {finish : List Char → Option α}

/-- The tries behind some characters of a lead are those of the text behind them. -/
theorem getElem?_firstTry {k : Nat} {cs : List Char} (hk : k ≤ cs.length)
    (hparts : ∀ c ∈ cs.take k, parts.any (·.contains c) = true) :
    (firstTry parts finish cs)[k]? = (firstTry parts finish (cs.drop k)).head? := by
  induction k generalizing cs with
  | zero => rw [List.drop_zero, List.head?_eq_getElem?]
  | succ k ih =>
    cases cs with
    | nil => cases hk
    | cons c cs =>
      obtain ⟨hc, hrest⟩ := List.forall_mem_cons.mp hparts
      rw [firstTry, if_pos hc, List.getElem?_cons_succ, List.drop_succ_cons]
      exact ih (Nat.le_of_succ_le_succ hk) hrest

/-- **The first try**: a part of the lead that fits, and the first try behind it, or else the end of
    the lead. -/
theorem head?_firstTry_eq (hne : ∀ part ∈ parts, part ≠ []) (cs : List Char) :
    (firstTry parts finish cs).head?.join = (parts.findSome? fun part =>
      if part.isPrefixOf cs then (firstTry parts finish (cs.drop part.length)).head?.join
      else none).or (finish cs) := by
  cases cs with
  | nil =>
    have hnone : (parts.findSome? fun part => if part.isPrefixOf [] then
        (firstTry parts finish (List.drop part.length [])).head?.join else none) = none :=
      List.findSome?_eq_none_iff.mpr fun part hp => by
        obtain ⟨c, ds, rfl⟩ := List.exists_cons_of_ne_nil (hne part hp)
        rfl
    rw [hnone]
    rfl
  | cons c cs =>
    rw [firstTry]
    split
    · rename_i hc
      show (Option.orElse _ _) = _
      rw [Option.orElse_eq_or]
      congr 1
      refine findSome?_congr fun part hp => ?_
      split
      · rename_i hprefix
        obtain ⟨d, ds, rfl⟩ := List.exists_cons_of_ne_nil (hne part hp)
        obtain ⟨more, hmore⟩ := List.isPrefixOf_iff_prefix.mp hprefix
        obtain ⟨rfl, rfl⟩ := List.cons.inj hmore
        have htake : (ds ++ more).take ds.length = ds := List.take_left
        have hchars : ∀ e ∈ (ds ++ more).take ds.length, parts.any (·.contains e) = true :=
          fun e he => List.any_eq_true.mpr ⟨d :: ds, hp,
            List.contains_iff_mem.mpr (List.mem_cons_of_mem d (htake ▸ he))⟩
        exact congrArg Option.join (getElem?_firstTry (by simp) hchars)
      · rfl
    · rename_i hc
      have hnone : (parts.findSome? fun part => if part.isPrefixOf (c :: cs) then
          (firstTry parts finish (List.drop part.length (c :: cs))).head?.join else none) = none :=
        List.findSome?_eq_none_iff.mpr fun part hp => by
          rw [if_neg]
          intro hprefix
          obtain ⟨d, ds, rfl⟩ := List.exists_cons_of_ne_nil (hne part hp)
          obtain ⟨more, hmore⟩ := List.isPrefixOf_iff_prefix.mp hprefix
          obtain ⟨rfl, -⟩ := List.cons.inj hmore
          exact hc (List.any_eq_true.mpr ⟨_, hp, List.contains_iff_mem.mpr List.mem_cons_self⟩)
      rw [hnone]
      rfl

/-- Passes over parts of a lead, as many as there can be, and then fewer. -/
theorem findSome?_passes_parts (hne : ∀ part ∈ parts, part ≠ []) {body : List Char → List Match}
    (hbody : ∀ ds, body ds = parts.flatMap fun part =>
      if part.isPrefixOf ds then [⟨ds.drop part.length, []⟩] else [])
    {fuel : Nat} {cs : List Char} (hfuel : cs.length ≤ fuel) :
    (passes body false fuel cs).findSome? (fun m => finish m.rest)
      = (firstTry parts finish cs).head?.join := by
  induction fuel generalizing cs with
  | zero =>
    rw [List.length_eq_zero_iff.mp (Nat.le_zero.mp hfuel), passes, findSome?_singleton]
    rfl
  | succ fuel ih =>
    have hless : ∀ part ∈ parts, part.isPrefixOf cs = true →
        (cs.drop part.length).length < cs.length := by
      intro part hp hprefix
      have hpos := List.length_pos_iff.mpr (hne part hp)
      have hle := (List.isPrefixOf_iff_prefix.mp hprefix).length_le
      rw [List.length_drop]
      omega
    have hall : (body cs).filter (·.rest.length < cs.length) = body cs := by
      refine List.filter_eq_self.mpr fun m hm => ?_
      rw [hbody, List.mem_flatMap] at hm
      obtain ⟨part, hp, hm⟩ := hm
      split at hm
      · rename_i hprefix
        rw [List.mem_singleton.mp hm]
        exact decide_eq_true (hless part hp hprefix)
      · cases hm
    have hpasses : passes body false (fuel + 1) cs =
        andThen (fun cs => (body cs).filter (·.rest.length < cs.length))
          (passes body false fuel) cs ++ [⟨cs, []⟩] := rfl
    rw [hpasses, List.findSome?_append, findSome?_singleton, head?_firstTry_eq hne,
      findSome?_andThen, hall, hbody, findSome?_flatMap]
    congr 1
    refine findSome?_congr fun part hp => ?_
    split
    · rename_i hprefix
      have hlt := hless part hp hprefix
      rw [findSome?_singleton]
      exact ih (Nat.le_of_lt_succ (Nat.lt_of_lt_of_le hlt hfuel))
    · rfl

end Greedy

/-- **A greedy repetition of words.** The runs are tried as those of a lead are, the longest first, and
    at each place one word after the other. -/
theorem findSome?_many_parts {first : List Char} {rest : List (List Char)}
    (hne : ∀ part ∈ first :: rest, part ≠ []) (text cs : List Char)
    (finish : List Char → Option α) :
    ((many false (group (choices (Expr.word first) (rest.map Expr.word)))).ways text cs).findSome?
      (fun m => finish m.rest) = (firstTry (first :: rest) finish cs).head?.join := by
  refine findSome?_passes_parts hne (fun ds => ?_) (Nat.le_refl _)
  show (choices (Expr.word first) (rest.map Expr.word)).ways text ds = _
  rw [ways_choices, ← List.map_cons, List.flatMap_map]
  simp only [ways_word]

/-- **A lazy repetition of any characters**, the shortest run first. -/
theorem ways_many_any (text cs : List Char) :
    (many true (one .any)).ways text cs = cs.tails.map (⟨·, []⟩) := by
  show passes ((one .any).ways text) true cs.length cs = _
  induction cs with
  | nil => rfl
  | cons c cs ih =>
    have hone : ((one .any).ways text (c :: cs)).filter (·.rest.length < (c :: cs).length)
        = [⟨cs, []⟩] :=
      List.filter_eq_self.mpr fun m hm => by
        rw [List.mem_singleton.mp hm]
        exact decide_eq_true (Nat.lt_succ_self cs.length)
    show _ :: andThen (fun cs => ((one .any).ways text cs).filter (·.rest.length < cs.length))
      (passes ((one .any).ways text) true cs.length) (c :: cs) = _
    rw [andThen, hone, List.flatMap_singleton, ih, List.map_map, List.tails_cons, List.map_cons]
    rfl

end Expr

end Verdict
