import Verdict.Proofs.Mirroring

/-!
# Equality of variables

Two variables are compared as numbers, as truth values or as texts, and each pair of values picks one
of these by itself. So it is no matter of course that equality can be carried on from a pair to the
next: the first two values may be compared as numbers, and the next two as texts.

It can because all three ways come to one: a value is told apart by its STANDING (`standing`), which
is its place on the line of numbers if it reads as a number, and otherwise its text. Only a value that
reads as the number that is none has no place, and is not even equal to itself.

* `sameAs_iff_place` -- two numbers are the same where they are at one place.
* `equal_alike` -- **two values are equal where they have one standing**, however they are read.
* `comparisonOf_equal_equivalence` -- so equality of variables is an equivalence.
-/

namespace Verdict

/-! ## 1. Standings -/

namespace Number

/-- The place of a number on the line, if it is a number. -/
def place? : Number → Option Int
  | nan => none
  | real negative m => some (place negative m)

theorem place?_eq_none_iff {x : Number} : x.place? = none ↔ x = nan := by
  cases x with
  | nan => exact iff_of_true rfl rfl
  | real negative m =>
    constructor
    · intro h
      cases h
    · intro h
      cases h

/-- **The same numbers** are those at one place. -/
theorem sameAs_iff_place {x y : Number} :
    x.sameAs y = true ↔ ∃ p, x.place? = some p ∧ y.place? = some p := by
  cases x with
  | nan =>
    constructor
    · intro h
      cases h
    · rintro ⟨p, h, -⟩
      cases h
  | real s m =>
    cases y with
    | nan =>
      constructor
      · intro h
        cases h
      · rintro ⟨p, -, h⟩
        cases h
    | real t n =>
      have hsame : (real s m).sameAs (real t n) = true ↔ place s m = place t n := by
        rw [sameAs, compare?, beq_iff_eq, Option.some.injEq, Std.compare_eq_iff_eq]
      rw [hsame]
      constructor
      · exact fun h => ⟨place t n, congrArg some h, rfl⟩
      · rintro ⟨p, hx, hy⟩
        exact Option.some.inj (hx.trans hy.symm)

end Number

/-- What a value is told apart by: its place on the line of numbers, or else its text. -/
inductive Standing
  | place (p : Int)
  | text (s : String)
deriving DecidableEq

/-- **The standing of a value.** -/
def standing (value : String) : Standing :=
  match (Number.read? value.toList).bind Number.place? with
  | some p => .place p
  | none => .text value

section Standings

variable {s t : String} {x y : Number}

theorem standing_of_place {p : Int} (h : Number.read? s.toList = some x) (hp : x.place? = some p) :
    standing s = .place p := by
  rw [standing, h, Option.bind_some, hp]

theorem standing_of_none (h : Number.read? s.toList = none) : standing s = .text s := by
  rw [standing, h, Option.bind_none]

/-- A value that reads as no place stands by its text. -/
theorem standing_of_nan (h : Number.read? s.toList = some .nan) : standing s = .text s := by
  rw [standing, h, Option.bind_some, Number.place?]

end Standings

/-! ## 2. Two values read alike -/

/-- One of two values is no number. -/
def OneNoNumber (s t : String) : Prop :=
  Number.read? s.toList = none ∨ Number.read? t.toList = none

/-- **How two values are read alike**: as numbers if both are, and otherwise as truth values or as
    texts. -/
inductive ReadAlike (s t : String) : Value × Value → Prop
  | numbers {x y : Number} (hs : Number.read? s.toList = some x)
      (ht : Number.read? t.toList = some y) : ReadAlike s t (.number x, .number y)
  | truths {p q : Bool} (h : OneNoNumber s t) (hs : s = truthWord p) (ht : t = truthWord q) :
      ReadAlike s t (.truth p, .truth q)
  | texts (h : OneNoNumber s t) : ReadAlike s t (.text s, .text t)

theorem eq_of_readTruthText? {s : String} {b : Bool} (h : readTruthText? s = some b) :
    s = truthWord b := by
  rw [readTruthText?] at h
  split at h
  · cases h
    assumption
  · split at h
    · cases h
      assumption
    · cases h

theorem readAlike (s t : String) : ReadAlike s t (alike s t) := by
  rw [alike]
  split
  · rename_i hs ht
    exact .numbers hs ht
  · rename_i hnumbers
    have h : OneNoNumber s t := by
      cases hs : Number.read? s.toList with
      | none => exact .inl hs
      | some x => exact .inr (Option.eq_none_iff_forall_ne_some.mpr fun y ht => hnumbers x y hs ht)
    split
    · rename_i hs ht
      exact .truths h (eq_of_readTruthText? hs) (eq_of_readTruthText? ht)
    · exact .texts h

theorem truthWord_inj {p q : Bool} (h : truthWord p = truthWord q) : p = q := by
  revert h
  cases p <;> cases q <;> decide

section Equality

variable {s t : String} {x y : Number}

theorem eq_of_standing (h : standing t = .text s) : s = t := by
  rw [standing] at h
  split at h
  · cases h
  · cases h
    rfl

/-- Of two values one of which is no number, the same standing is the same text. -/
theorem standing_eq_iff (h : OneNoNumber s t) : standing s = standing t ↔ s = t := by
  refine ⟨fun he => ?_, congrArg standing⟩
  rcases h with hs | ht
  · rw [standing_of_none hs] at he
    exact eq_of_standing he.symm
  · rw [standing_of_none ht] at he
    exact (eq_of_standing he).symm

/-- Of two numbers, the first of which has a place, the same standing is the same number. -/
theorem sameAs_iff_standing (hs : Number.read? s.toList = some x)
    (ht : Number.read? t.toList = some y) (hx : x ≠ .nan) :
    x.sameAs y = true ↔ standing s = standing t := by
  obtain ⟨p, hp⟩ := Option.ne_none_iff_exists'.mp (mt Number.place?_eq_none_iff.mp hx)
  rw [Number.sameAs_iff_place, hp, standing_of_place hs hp]
  cases hq : y.place? with
  | none =>
    rw [Number.place?_eq_none_iff.mp hq] at ht
    rw [standing_of_nan ht]
    constructor
    · rintro ⟨r, -, h⟩
      cases h
    · intro h
      cases h
  | some q =>
    rw [standing_of_place ht hq, Standing.place.injEq]
    constructor
    · rintro ⟨r, hr, hq⟩
      exact Option.some.inj (hr.trans hq.symm)
    · exact fun h => ⟨q, congrArg some h, rfl⟩

/-- **Two values are equal where they have one standing**, whichever way they are read. -/
theorem equal_alike (hs : Number.read? s.toList ≠ some .nan) :
    Rule.equal (alike s t).1 (alike s t).2 = .ok (decide (standing s = standing t)) := by
  have hread := readAlike s t
  generalize alike s t = values at hread ⊢
  cases hread with
  | @numbers x y hx hy =>
    have hne : x ≠ .nan := fun he => hs (hx.trans (congrArg some he))
    refine congrArg Except.ok (Bool.eq_iff_iff.mpr ?_)
    rw [decide_eq_true_iff]
    exact sameAs_iff_standing hx hy hne
  | @truths p q h hp hq =>
    refine congrArg Except.ok (Bool.eq_iff_iff.mpr ?_)
    rw [decide_eq_true_iff, beq_iff_eq, standing_eq_iff h, hp, hq]
    exact ⟨congrArg truthWord, truthWord_inj⟩
  | texts h =>
    refine congrArg Except.ok (Bool.eq_iff_iff.mpr ?_)
    rw [decide_eq_true_iff, beq_iff_eq, standing_eq_iff h]

end Equality

/-! ## 3. Equality of variables -/

/-- A variable has a value, and that does not read as the number that is none. -/
structure Lookup.Holds (lookup : Lookup) (name value : String) : Prop where
  defined : lookup name = some value
  number : Number.read? value.toList ≠ some .nan

section Variables

variable {lookup : Lookup} {a b c s t u : String}

/-- Two variables with values, compared by a rule. -/
theorem comparisonOf_values (hs : lookup a = some s) (ht : lookup b = some t)
    (operator : Comparison) :
    comparisonOf lookup [.operand (.var a), .comparison operator, .operand (.var b)]
      = operator.rule (alike s t).1 (alike s t).2 := compareOperands_values hs ht operator

/-- **Variables are equal where their values have one standing.** -/
theorem comparisonOf_equal (hs : lookup.Holds a s) (ht : lookup b = some t) :
    comparisonOf lookup [.operand (.var a), .comparison .equal, .operand (.var b)]
      = .ok (decide (standing s = standing t)) :=
  (comparisonOf_values hs.defined ht .equal).trans (equal_alike hs.number)

/-- Variables differ where they are not equal. -/
theorem comparisonOf_notEqual (hs : lookup a = some s) (ht : lookup b = some t) :
    comparisonOf lookup [.operand (.var a), .comparison .notEqual, .operand (.var b)]
      = (comparisonOf lookup [.operand (.var a), .comparison .equal, .operand (.var b)]).map
          (!·) := by
  rw [comparisonOf_values hs ht, comparisonOf_values hs ht]
  rfl

/-- **Equality of variables is an equivalence of their values**, whatever mix of numbers, truth values
    and texts these are: a variable equals itself, two variables are compared alike from either side,
    and what equals the same equals each other. Two of them are equal exactly where their values are
    at one place of the line of numbers, or are one text; and they differ exactly where they are not
    equal. -/
theorem comparisonOf_equal_equivalence (hs : lookup.Holds a s) (ht : lookup.Holds b t)
    (hu : lookup.Holds c u) :
    let compared (x : String) (operator : Comparison) (y : String) :=
      comparisonOf lookup [.operand (.var x), .comparison operator, .operand (.var y)]
    compared a .equal a = .ok true ∧
      (∃ truth, compared a .equal b = .ok truth ∧ compared b .equal a = .ok truth ∧
        compared a .notEqual b = .ok (!truth) ∧ (truth = true ↔ standing s = standing t)) ∧
      (compared a .equal b = .ok true → compared b .equal c = .ok true →
        compared a .equal c = .ok true) := by
  intro compared
  have hab : compared a .equal b = .ok (decide (standing s = standing t)) :=
    comparisonOf_equal hs ht.defined
  have hba : compared b .equal a = .ok (decide (standing t = standing s)) :=
    comparisonOf_equal ht hs.defined
  have hbc : compared b .equal c = .ok (decide (standing t = standing u)) :=
    comparisonOf_equal ht hu.defined
  have hac : compared a .equal c = .ok (decide (standing s = standing u)) :=
    comparisonOf_equal hs hu.defined
  have hdiffer : compared a .notEqual b = (compared a .equal b).map (!·) :=
    comparisonOf_notEqual hs.defined ht.defined
  refine ⟨?_, ⟨_, hab, ?_, ?_, decide_eq_true_iff⟩, fun hst htu => ?_⟩
  · exact (comparisonOf_equal hs hs.defined).trans (congrArg Except.ok (decide_eq_true rfl))
  · rw [hba]
    exact congrArg Except.ok (decide_eq_decide.mpr eq_comm)
  · rw [hdiffer, hab]
    rfl
  · rw [hab] at hst
    rw [hbc] at htu
    rw [hac]
    have hst : standing s = standing t := of_decide_eq_true (Except.ok.inj hst)
    have htu : standing t = standing u := of_decide_eq_true (Except.ok.inj htu)
    exact congrArg Except.ok (decide_eq_true (hst.trans htu))

end Variables

/-- Three texts of one number. -/
theorem comparisonOf_equal_equivalence_spelled :
    let lookup := ((Lookup.empty.bind "ab" "10").bind "cd" "1e1").bind "ef" "+10.0"
    lookup.Holds "ab" "10" ∧ lookup.Holds "cd" "1e1" ∧ lookup.Holds "ef" "+10.0" ∧
      comparisonOf lookup [.operand (.var "ab"), .comparison .equal, .operand (.var "cd")]
        = .ok true ∧
      comparisonOf lookup [.operand (.var "cd"), .comparison .equal, .operand (.var "ef")]
        = .ok true ∧
      comparisonOf lookup [.operand (.var "ab"), .comparison .equal, .operand (.var "ef")]
        = .ok true := by
  intro lookup
  have hab : lookup.Holds "ab" "10" := ⟨rfl, by decide +kernel⟩
  have hcd : lookup.Holds "cd" "1e1" := ⟨rfl, by decide +kernel⟩
  have hef : lookup.Holds "ef" "+10.0" := ⟨rfl, by decide +kernel⟩
  have hstanding : standing "10" = standing "1e1" ∧ standing "1e1" = standing "+10.0" := by
    decide +kernel
  have hfirst := (comparisonOf_equal hab hcd.defined).trans
    (congrArg Except.ok (decide_eq_true hstanding.1))
  have hsecond := (comparisonOf_equal hcd hef.defined).trans
    (congrArg Except.ok (decide_eq_true hstanding.2))
  obtain ⟨-, -, htrans⟩ := comparisonOf_equal_equivalence hab hcd hef
  exact ⟨hab, hcd, hef, hfirst, hsecond, htrans hfirst hsecond⟩

/-- A value that reads as the number that is none is not equal to itself. -/
example :
    comparisonOf (Lookup.empty.bind "ab" "nan")
      [.operand (.var "ab"), .comparison .equal, .operand (.var "ab")] = .ok false := rfl

end Verdict
