import Mathlib.Data.String.Basic
import Verdict.Proofs.ScannedText

/-!
# Reading with a cursor

A scanner goes through a text with a CURSOR, a place of the text counted in bytes. A round passes over
blanks, matches the expression for a front against the rest, and moves the cursor behind what is
matched. Nothing here takes it for granted that the rounds come to an end, or that the cursor is a
place between two characters: where it is none there is no round, and where the rounds never end there
is no scan. Both cannot happen, whatever the registry and the form of names are, because a match ends
at a gap and what it is taken from begins with no blank.

* `Course` -- the course of a cursor, whatever may be taken at the front of a text.
* `Course.step` -- **one match takes a character that is no blank**, and whole characters.
* `Course.advances` -- so the cursor goes on with each match, and there are not many of them.
* `Grammar.round?` -- one round of a scanner; `Grammar.Scan` -- the rounds up to the last one.
* `Grammar.exists_scan` -- **a scan ends, and with what reading the text gives.**
* `Registry.onTo_front` -- no match of the expression for a front is over nothing.
* `Grammar.scan_advances` -- **all this for every scanner** of a registry and a form of names.
-/

namespace Verdict

open Text

/-! ## 1. Places in bytes -/

namespace Text

/-- The text from a byte on, if a character begins there or the text ends there. -/
def fromByte? : Nat → List Char → Option (List Char)
  | 0, cs => some cs
  | _ + 1, [] => none
  | n + 1, c :: cs => if c.utf8Size ≤ n + 1 then fromByte? (n + 1 - c.utf8Size) cs else none

theorem fromByte?_utf8Len (before rest : List Char) :
    fromByte? (String.utf8Len before) (before ++ rest) = some rest := by
  induction before with
  | nil => cases rest <;> rfl
  | cons c before ih =>
    have hpos := c.utf8Size_pos
    obtain ⟨n, hn⟩ : ∃ n, String.utf8Len (c :: before) = n + 1 :=
      ⟨String.utf8Len before + c.utf8Size - 1, by rw [String.utf8Len_cons]; omega⟩
    have hbefore : n + 1 - c.utf8Size = String.utf8Len before := by
      rw [← hn, String.utf8Len_cons, Nat.add_sub_cancel]
    have hle : c.utf8Size ≤ n + 1 := hn ▸ Nat.le_add_left _ _
    rw [hn, List.cons_append, fromByte?, if_pos hle, hbefore, ih]

/-- **A place between two characters** is one with a whole text before it. -/
theorem fromByte?_eq_some_iff {n : Nat} {cs rest : List Char} :
    fromByte? n cs = some rest ↔ ∃ before, before ++ rest = cs ∧ String.utf8Len before = n := by
  constructor
  · intro h
    fun_induction fromByte? n cs with
    | case1 cs =>
      cases h
      exact ⟨[], rfl, rfl⟩
    | case2 => cases h
    | case3 n c cs hle ih =>
      obtain ⟨before, hcs, hn⟩ := ih h
      refine ⟨c :: before, congrArg (c :: ·) hcs, ?_⟩
      rw [String.utf8Len_cons, hn, Nat.sub_add_cancel hle]
    | case4 => cases h
  · rintro ⟨before, rfl, rfl⟩
    exact fromByte?_utf8Len before rest

theorem fromByte?_append {n : Nat} {cs front rest : List Char}
    (h : fromByte? n cs = some (front ++ rest)) :
    fromByte? (n + String.utf8Len front) cs = some rest := by
  obtain ⟨before, hcs, hn⟩ := fromByte?_eq_some_iff.mp h
  refine fromByte?_eq_some_iff.mpr ⟨before ++ front, ?_, ?_⟩
  · rw [List.append_assoc, hcs]
  · rw [String.utf8Len_append, hn]

theorem fromByte?_zero (cs : List Char) : fromByte? 0 cs = some cs := fromByte?_utf8Len [] cs

theorem utf8Len_pos_of_mem {c : Char} {cs : List Char} (h : c ∈ cs) : 0 < String.utf8Len cs := by
  obtain ⟨before, behind, rfl⟩ := List.append_of_mem h
  have hpos := c.utf8Size_pos
  rw [String.utf8Len_append, String.utf8Len_cons]
  omega

end Text

/-! ## 2. The course of a cursor -/

/-- A match, by the byte where it begins and the byte where it ends. -/
structure Match where
  start : Nat
  stop : Nat
deriving DecidableEq

/-- A match of whole characters of a text, of which one at least is no blank. -/
def Match.TakesFrom (m : Match) (cs : List Char) : Prop :=
  ∃ before taken behind, before ++ taken ++ behind = cs ∧ m.start = String.utf8Len before ∧
    m.stop = String.utf8Len (before ++ taken) ∧ ∃ c ∈ taken, isBlank c = false

/-- The match of the first `k` characters behind the blanks at a byte, with a rest of the text from
    there on. -/
def Match.ofRest (cursor : Nat) (rest : List Char) (k : Nat) : Match :=
  let start := cursor + String.utf8Len (rest.takeWhile isBlank)
  ⟨start, start + String.utf8Len ((skipBlank rest).take k)⟩

/-- **The course of a cursor** through a text, from a byte on, by its matches. It passes over blanks,
    and behind each match it goes on. How many characters may be taken at the front of a text is said
    by `ends`, and where that leaves a choice there are several courses. -/
inductive Course (ends : List Char → Nat → Prop) (cs : List Char) : Nat → List Match → Prop
  | nil {cursor : Nat} : Course ends cs cursor []
  | cons {cursor k : Nat} {rest : List Char} {ms : List Match}
      (hrest : fromByte? cursor cs = some rest) (hne : skipBlank rest ≠ [])
      (hends : ends (skipBlank rest) k)
      (hmore : Course ends cs (Match.ofRest cursor rest k).stop ms) :
      Course ends cs cursor (.ofRest cursor rest k :: ms)

/-- Whatever is taken from a text that begins with no blank is something, and within the text. -/
def OnTo (ends : List Char → Nat → Prop) : Prop :=
  ∀ (c : Char) (cs : List Char) (k : Nat), isBlank c = false → ends (c :: cs) k →
    0 < k ∧ k ≤ (c :: cs).length

/-- Matches in a text that take whole characters and some that are no blanks, that end one behind the
    other, and that are no more than the characters of the text. -/
structure Advances (text : String) (ms : List Match) : Prop where
  takes : ∀ m ∈ ms, m.TakesFrom text.toList
  stops : (0 :: ms.map Match.stop).Pairwise (· < ·)
  few : ms.length ≤ text.length

section Course

variable {ends : List Char → Nat → Prop} {cs rest : List Char} {cursor k : Nat} {ms : List Match}

/-- The blanks before a match, what it takes, and what is behind it. -/
theorem blanks_append_taken_append (rest : List Char) (k : Nat) : rest.takeWhile isBlank ++
    ((skipBlank rest).take k ++ (skipBlank rest).drop k) = rest := by
  rw [List.take_append_drop]
  exact List.takeWhile_append_dropWhile

/-- What is taken has the character behind the blanks. -/
theorem OnTo.exists_taken (h : OnTo ends) (hne : skipBlank rest ≠ [])
    (hends : ends (skipBlank rest) k) : ∃ c ∈ (skipBlank rest).take k, isBlank c = false := by
  obtain ⟨c, ds, hcs⟩ := List.exists_cons_of_ne_nil hne
  have hc := isBlank_of_skipBlank hcs
  obtain ⟨hpos, -⟩ := h c ds k hc (hcs ▸ hends)
  obtain ⟨k, rfl⟩ := Nat.exists_eq_succ_of_ne_zero hpos.ne'
  rw [hcs, List.take_succ_cons]
  exact ⟨c, List.mem_cons_self, hc⟩

theorem Match.takesFrom_ofRest (hrest : fromByte? cursor cs = some rest)
    (htaken : ∃ c ∈ (skipBlank rest).take k, isBlank c = false) :
    (Match.ofRest cursor rest k).TakesFrom cs := by
  obtain ⟨before, hbefore, hcursor⟩ := fromByte?_eq_some_iff.mp hrest
  refine ⟨before ++ rest.takeWhile isBlank, (skipBlank rest).take k, (skipBlank rest).drop k,
    ?_, ?_, ?_, htaken⟩
  · rw [List.append_assoc, List.append_assoc, blanks_append_taken_append, hbefore]
  · rw [String.utf8Len_append, hcursor]
    rfl
  · rw [String.utf8Len_append, String.utf8Len_append, hcursor]
    rfl

/-- Behind a match the cursor is a place between two characters again. -/
theorem Match.fromByte?_stop (hrest : fromByte? cursor cs = some rest) (k : Nat) :
    fromByte? (Match.ofRest cursor rest k).stop cs = some ((skipBlank rest).drop k) := by
  rw [← blanks_append_taken_append rest k] at hrest
  exact fromByte?_append (fromByte?_append hrest)

/-- **What one match does**: it takes whole characters of which one is no blank, so the cursor goes
    on, and fewer of these are left behind it. -/
theorem Course.step (h : OnTo ends) (hrest : fromByte? cursor cs = some rest)
    (hne : skipBlank rest ≠ []) (hends : ends (skipBlank rest) k) :
    (Match.ofRest cursor rest k).TakesFrom cs ∧ cursor < (Match.ofRest cursor rest k).stop ∧
      ((skipBlank rest).drop k).countP (!isBlank ·) < rest.countP (!isBlank ·) := by
  have htaken := h.exists_taken hne hends
  refine ⟨Match.takesFrom_ofRest hrest htaken, ?_, ?_⟩
  · obtain ⟨c, hc, -⟩ := htaken
    have hbytes := utf8Len_pos_of_mem hc
    show cursor < cursor + _ + _
    omega
  · have hcount : 0 < ((skipBlank rest).take k).countP (!isBlank ·) :=
      List.countP_pos_iff.mpr (htaken.imp fun c hc => ⟨hc.1, by rw [hc.2]; rfl⟩)
    have hsum := congrArg (List.countP (!isBlank ·)) (blanks_append_taken_append rest k)
    simp only [List.countP_append] at hsum
    omega

theorem Course.takesFrom (hends : OnTo ends) (h : Course ends cs cursor ms) :
    ∀ m ∈ ms, m.TakesFrom cs := by
  induction h with
  | nil => exact fun _ hm => absurd hm List.not_mem_nil
  | cons hrest hne hk _ ih =>
    exact List.forall_mem_cons.mpr ⟨(Course.step hends hrest hne hk).1, ih⟩

theorem Course.stops (hends : OnTo ends) (h : Course ends cs cursor ms) :
    (cursor :: ms.map Match.stop).Pairwise (· < ·) := by
  induction h with
  | nil => exact List.pairwise_singleton _ _
  | cons hrest hne hk _ ih =>
    obtain ⟨-, hlt, -⟩ := Course.step hends hrest hne hk
    refine List.pairwise_cons.mpr ⟨fun stop hstop => ?_, ih⟩
    rcases List.mem_cons.mp hstop with rfl | hstop
    · exact hlt
    · exact hlt.trans (List.rel_of_pairwise_cons ih hstop)

/-- There are no more matches than characters that are no blanks. -/
theorem Course.length_le (hends : OnTo ends) (h : Course ends cs cursor ms)
    (hrest : fromByte? cursor cs = some rest) : ms.length ≤ rest.countP (!isBlank ·) := by
  induction h generalizing rest with
  | nil => exact Nat.zero_le _
  | cons hcut hne hk _ ih =>
    obtain rfl := Option.some.inj (hrest.symm.trans hcut)
    obtain ⟨-, -, hless⟩ := Course.step hends hrest hne hk
    exact Nat.lt_of_le_of_lt (ih (Match.fromByte?_stop hrest _)) hless

/-- **On each course the cursor goes on**, and no course is long. -/
theorem Course.advances (hends : OnTo ends) {text : String} (h : Course ends text.toList 0 ms) :
    Advances text ms where
  takes := h.takesFrom hends
  stops := h.stops hends
  few := calc
    ms.length ≤ text.toList.countP (!isBlank ·) := h.length_le hends (fromByte?_zero _)
    _ ≤ text.toList.length := List.countP_le_length
    _ = text.length := String.length_toList

end Course

/-! ## 3. Rounds -/

/-- A match of an expression takes so many characters of a text. -/
def Regex.EndsAt (re : Regex) (cs : List Char) (k : Nat) : Prop :=
  ∃ m, re.captures? cs = some m ∧ cs.length - m.rest.length = k

namespace Grammar

/-- What a round comes to: the end of the scan, or a match with its elements. -/
inductive Round
  | ended (result : Except Fault Condition)
  | taken (m : Match) (elements : Except Fault Condition)

/-- What a round comes to with a rest of the text from the cursor on. -/
def roundAt (g : Grammar) (front : Regex) (cursor : Nat) (rest : List Char) : Round :=
  let ds := skipBlank rest
  if ds.isEmpty then .ended (.ok [])
  else
    match front.captures? ds with
    | none => .ended (.error (.unknownElement (String.ofList (chunk ds))))
    | some m => .taken (.ofRest cursor rest (ds.length - m.rest.length)) (g.matchElements m)

/-- **A round**, with the cursor at a byte of a text. There is none where the cursor is inside a
    character or past the end. -/
def round? (g : Grammar) (front : Regex) (cs : List Char) (cursor : Nat) : Option Round :=
  (fromByte? cursor cs).map (g.roundAt front cursor)

/-- **A scan** of a text from a byte on: its matches, and its result. A match whose elements are
    refused is the last one. -/
inductive Scan (g : Grammar) (front : Regex) (cs : List Char) :
    Nat → List Match → Except Fault Condition → Prop
  | ended {cursor : Nat} {result : Except Fault Condition}
      (h : g.round? front cs cursor = some (.ended result)) : Scan g front cs cursor [] result
  | refused {cursor : Nat} {m : Match} {x : Fault}
      (h : g.round? front cs cursor = some (.taken m (.error x))) :
      Scan g front cs cursor [m] (.error x)
  | taken {cursor : Nat} {m : Match} {es : Condition} {ms : List Match}
      {result : Except Fault Condition} (h : g.round? front cs cursor = some (.taken m (.ok es)))
      (hmore : Scan g front cs m.stop ms result) :
      Scan g front cs cursor (m :: ms) (result.map (es ++ ·))

variable {g : Grammar} {front : Regex} {cs rest : List Char} {cursor : Nat} {m : Match}

/-! ## 4. The whole scan -/

/-- A round with a match is a step of the course. -/
theorem exists_of_round? {elements : Except Fault Condition}
    (h : g.round? front cs cursor = some (.taken m elements)) : ∃ rest k,
      fromByte? cursor cs = some rest ∧ skipBlank rest ≠ [] ∧ front.EndsAt (skipBlank rest) k ∧
        m = .ofRest cursor rest k := by
  obtain ⟨rest, hrest, hround⟩ := Option.map_eq_some_iff.mp h
  simp only [roundAt] at hround
  split at hround
  · cases hround
  · rename_i hne
    split at hround
    · cases hround
    · rename_i found hfound
      cases hround
      exact ⟨rest, _, hrest, mt List.isEmpty_iff.mpr hne, ⟨found, hfound, rfl⟩, rfl⟩

theorem Scan.course {ms : List Match} {result : Except Fault Condition}
    (h : g.Scan front cs cursor ms result) : Course front.EndsAt cs cursor ms := by
  induction h with
  | ended => exact .nil
  | refused h =>
    obtain ⟨rest, k, hrest, hne, hends, rfl⟩ := exists_of_round? h
    exact .cons hrest hne hends .nil
  | taken h _ ih =>
    obtain ⟨rest, k, hrest, hne, hends, rfl⟩ := exists_of_round? h
    exact .cons hrest hne hends ih

/-- A scan has no choice. -/
theorem Scan.unique {ms ms' : List Match} {result result' : Except Fault Condition}
    (h : g.Scan front cs cursor ms result) (h' : g.Scan front cs cursor ms' result') :
    ms' = ms ∧ result' = result := by
  induction h generalizing ms' result' with
  | ended h =>
    cases h' with
    | ended h' =>
      cases h.symm.trans h'
      exact ⟨rfl, rfl⟩
    | refused h' => cases h.symm.trans h'
    | taken h' => cases h.symm.trans h'
  | refused h =>
    cases h' with
    | ended h' => cases h.symm.trans h'
    | refused h' =>
      cases h.symm.trans h'
      exact ⟨rfl, rfl⟩
    | taken h' => cases h.symm.trans h'
  | taken h _ ih =>
    cases h' with
    | ended h' => cases h.symm.trans h'
    | refused h' => cases h.symm.trans h'
    | taken h' hmore' =>
      cases h.symm.trans h'
      obtain ⟨rfl, rfl⟩ := ih hmore'
      exact ⟨rfl, rfl⟩

/-- Where matches take something, reading with the expression goes on with each front. -/
theorem onward_of_onTo (h : OnTo front.EndsAt) : Onward (g.scanFront front) := by
  intro c cs rest es hc hread
  rw [scanFront] at hread
  split at hread
  · rename_i m hm
    obtain ⟨elements, -, he⟩ := map_eq_ok_iff.mp hread
    cases he
    obtain ⟨hpos, -⟩ := h c cs _ hc ⟨m, hm, rfl⟩
    rcases List.suffix_cons_iff.mp (Regex.suffix_of_captures? hm) with hrest | hrest
    · rw [hrest, Nat.sub_self] at hpos
      cases hpos
    · exact hrest
  · cases hread

/-- **A scan ends, and with what reading gives**, from every place between two characters. -/
theorem exists_scan (g : Grammar) (honTo : OnTo front.EndsAt) (h : fromByte? cursor cs = some rest) :
    ∃ ms, g.Scan front cs cursor ms (readBy (g.scanFront front) 0 rest) := by
  induction hn : rest.countP (!isBlank ·) using Nat.strongRecOn generalizing cursor rest with
  | ind n ih =>
    subst hn
    have hround : g.round? front cs cursor = some (g.roundAt front cursor rest) := by
      rw [round?, h]
      rfl
    rw [← readBy_skipBlank]
    cases hcs : skipBlank rest with
    | nil =>
      simp only [roundAt, hcs] at hround
      exact ⟨[], .ended hround⟩
    | cons c ds =>
      have hc := isBlank_of_skipBlank hcs
      simp only [roundAt, hcs, List.isEmpty_cons, Bool.false_eq_true, if_false] at hround
      have hread := (onward_of_onTo (g := g) honTo).readBy_cons hc ds
      cases hm : front.captures? (c :: ds) with
      | none =>
        simp only [hm] at hround
        simp only [scanFront, hm] at hread
        exact ⟨[], .ended (hread ▸ hround)⟩
      | some m =>
        simp only [hm] at hround
        simp only [scanFront, hm] at hread
        have hends : front.EndsAt (skipBlank rest) ((c :: ds).length - m.rest.length) :=
          ⟨m, hcs.symm ▸ hm, hcs ▸ rfl⟩
        obtain ⟨-, -, hless⟩ := Course.step honTo h (hcs.symm ▸ List.cons_ne_nil c ds) hends
        have hnext := Match.fromByte?_stop h ((c :: ds).length - m.rest.length)
        have hrest : (c :: ds).drop ((c :: ds).length - m.rest.length) = m.rest :=
          (List.suffix_iff_eq_drop.mp (Regex.suffix_of_captures? hm)).symm
        rw [hcs, hrest] at hnext hless
        rw [hread]
        cases he : g.matchElements m with
        | error x => exact ⟨[_], .refused (he ▸ hround)⟩
        | ok es =>
          obtain ⟨ms, hscan⟩ := ih _ hless hnext rfl
          exact ⟨_ :: ms, .taken (he ▸ hround) hscan⟩

end Grammar

/-! ## 5. Every registry and every form -/

open RegexLibrary (Reads)

section Scanners

variable [RegexLibrary] {r : Registry} {own : Option Regex} {scanner : Scanner}

/-- **The expression for a front takes something**, whatever the names are and whatever the form of
    names matches. -/
theorem Registry.onTo_front (hown : ∀ re ∈ own, RegexLibrary.compile? re.source = some re)
    (hreads : Reads (r.front own)) (h : Scanner.ofRegistry r own = .ok scanner) :
    OnTo scanner.front.EndsAt := by
  rintro c cs k hc ⟨m, hm, rfl⟩
  rw [(Scanner.reads_front hown hreads h).2, captures?_front] at hm
  have hle := ((captures_of_mem (List.mem_of_head? hm)).rest_suffix hc).length_le
  rw [List.length_cons]
  omega

/-- **A scan goes on and ends**, for every form of names with which there is a scanner. A match of its
    expression takes something from every text that begins with no blank. Each text has one scan, with
    matches that go on, and the result of it is what reading the text gives. -/
theorem Grammar.scan_advances (hown : ∀ re ∈ own, RegexLibrary.compile? re.source = some re)
    (hreads : Reads (r.front own)) (h : Scanner.ofRegistry r own = .ok scanner) (text : String) :
    OnTo scanner.front.EndsAt ∧ ∃ ms, Advances text ms ∧ ∀ ms' result,
      (Grammar.mk r (some scanner)).Scan scanner.front text.toList 0 ms' result ↔
        ms' = ms ∧ result = (Grammar.mk r (some scanner)).elements text.toList := by
  have honTo := Registry.onTo_front hown hreads h
  refine ⟨honTo, ?_⟩
  obtain ⟨ms, hscan⟩ := exists_scan (Grammar.mk r (some scanner)) honTo (fromByte?_zero text.toList)
  refine ⟨ms, hscan.course.advances honTo, fun ms' result => ⟨hscan.unique, ?_⟩⟩
  rintro ⟨rfl, rfl⟩
  exact hscan

end Scanners

/-- A form of names that matches over nothing, and over blanks and brackets. -/
theorem Grammar.scan_advances_loose : letI := RegexLibrary.table Regex.looseSamples
    Scanner.ofRegistry .connected (some Expr.loose.regex) = .ok .loose ∧
      Expr.loose.regex.MatchesWhole [] ∧ Expr.loose.regex.MatchesWhole " (".toList ∧
      OnTo Scanner.loose.front.EndsAt ∧ ∃ ms, Advances " ()  !(a b )\té " ms ∧ ∀ ms' result,
        (Grammar.mk .connected (some .loose)).Scan Scanner.loose.front " ()  !(a b )\té ".toList 0
            ms' result ↔
          ms' = ms ∧ result
            = (Grammar.mk .connected (some .loose)).elements " ()  !(a b )\té ".toList := by
  let library := RegexLibrary.table Regex.looseSamples
  have hown : ∀ re ∈ some Expr.loose.regex, RegexLibrary.compile? re.source = some re :=
    fun re he => Option.some.inj he ▸ rfl
  have hreads : Reads (Registry.connected.front (some Expr.loose.regex)) :=
    RegexLibrary.reads_table compile?_looseSamples (by decide)
  exact ⟨ofRegistry_loose, ⟨⟨[], []⟩, by decide, rfl⟩, ⟨⟨[], []⟩, by decide, rfl⟩,
    Grammar.scan_advances hown hreads ofRegistry_loose _⟩

end Verdict
