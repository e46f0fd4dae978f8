import Mathlib.Data.List.Basic
import Verdict.Proofs.FolderRuns

/-!
# Asking a folder on

A folder can be asked on after a fault: the last token is still the one before, while the elements read
stay read. This file follows a folder through any number of questions, whatever the answers are. It
never reads an element twice and never passes one over: what it has read and what is left make up the
condition (`Folder.HasRead`). Each answer before the end reads one, two or three elements, and only a
token changes the last one (`Folder.Reads`). So after as many questions as there are elements the end
is reached, and there the answer is the same for good.

* `exists_reads_of_next` -- what one answer reads.
* `exists_hasRead_asked` -- what any number of answers have read.
* `answers_of_nil`, `atEnd_cases` -- the end, where only one answer is left.
* `asked_settles` -- **every row of answers comes to rest.**
-/

namespace Verdict

namespace Folder

/-! ## 1. One answer -/

/-- **What an answer reads**: a front of the elements, up to the element read last. The last token is
    the token that was answered, or the one before if none was. -/
structure Reads (f : Folder) (front : Condition) (answer : Answer) : Prop where
  elements : f.rest = front ++ answer.2.rest
  previous : answer.2.previous = front.getLast?
  last : answer.2.last = f.last ∨
    ∃ token, answer.1 = .ok (some token) ∧ answer.2.last = some token

section Passing

variable {f : Folder} {front rest : Condition} {e : Element}

theorem reads_fault (h : f.rest = front ++ rest) (he : front.getLast? = some e) (x : Fault) :
    f.Reads front (.error x, f.pass e rest) :=
  ⟨h, he.symm, .inl rfl⟩

theorem reads_emit (h : f.rest = front ++ rest) (he : front.getLast? = some e) (token : Token) :
    f.Reads front ((f.pass e rest).emit token) :=
  ⟨h, he.symm, .inr ⟨token, rfl, rfl⟩⟩

theorem reads_emitTruth (h : f.rest = front ++ rest) (he : front.getLast? = some e)
    (truth : Except Fault Bool) : f.Reads front ((f.pass e rest).emitTruth truth) := by
  cases truth with
  | error x => exact reads_fault h he x
  | ok b => exact reads_emit h he (.truth b)

theorem reads_afterTruth (h : f.rest = e :: rest) : f.Reads [e] (f.afterTruth e rest) := by
  unfold afterTruth
  split
  · exact reads_emit h rfl _
  · exact reads_emit h rfl _
  · exact reads_fault h rfl _

theorem reads_afterNegation (lookup : Lookup) (h : f.rest = e :: rest) :
    f.Reads [e] (f.afterNegation lookup e rest) := by
  unfold afterNegation
  split
  · exact reads_emit h rfl _
  · exact reads_emitTruth h rfl _
  · exact reads_fault h rfl _

/-- Where a condition may begin, a comparison takes three elements, and two if it is cut off. -/
theorem exists_reads_atBeginning (lookup : Lookup) (h : f.rest = e :: rest) :
    ∃ front, f.Reads front (f.atBeginning lookup e rest) ∧ 1 ≤ front.length ∧ front.length ≤ 3 := by
  unfold atBeginning
  split
  · exact ⟨[_], reads_emit h rfl _, by simp, by simp⟩
  · exact ⟨[_], reads_emit h rfl _, by simp, by simp⟩
  · split
    · rename_i operator right rest
      exact ⟨[e, .comparison operator, right], reads_emitTruth h rfl _, by simp, by simp⟩
    · rename_i operator
      exact ⟨[e, .comparison operator], reads_emitTruth h rfl _, by simp, by simp⟩
    · exact ⟨[e], reads_emitTruth h rfl _, by simp, by simp⟩

end Passing

/-- **An answer before the end reads one, two or three elements.** -/
theorem exists_reads_of_next (lookup : Lookup) {f : Folder} (h : f.rest ≠ []) :
    ∃ front, f.Reads front (f.next lookup) ∧ 1 ≤ front.length ∧ front.length ≤ 3 := by
  obtain ⟨e, rest, hr⟩ := List.exists_cons_of_ne_nil h
  by_cases hl : Ended f.last
  · rw [next_of_ended hr hl]
    exact ⟨[e], reads_afterTruth hr, by simp, by simp⟩
  · rcases begins_or_negation hl with hb | hn
    · rw [next_of_begins hr hb]
      exact exists_reads_atBeginning lookup hr
    · rw [next_of_negation hr hn]
      exact ⟨[e], reads_afterNegation lookup hr, by simp, by simp⟩

/-! ## 2. Any number of questions -/

/-- The folder behind `n` questions, whatever the answers were. -/
def asked (lookup : Lookup) (f : Folder) : Nat → Folder
  | 0 => f
  | n + 1 => asked lookup (f.next lookup).2 n

/-- **How far a folder has read**: the elements it has read and those that are left are the condition,
    the element read last is the last of these, and before the first there is no token. -/
structure HasRead (c read : Condition) (f : Folder) : Prop where
  elements : read ++ f.rest = c
  previous : f.previous = read.getLast?
  untouched : read = [] → f.last = none

variable {lookup : Lookup} {f : Folder} {c read : Condition}

theorem asked_add (lookup : Lookup) (f : Folder) (m n : Nat) :
    f.asked lookup (m + n) = (f.asked lookup m).asked lookup n := by
  induction m generalizing f with
  | zero => rw [Nat.zero_add, asked]
  | succ m ih => rw [Nat.succ_add, asked, asked, ih]

theorem asked_succ (lookup : Lookup) (f : Folder) (n : Nat) :
    f.asked lookup (n + 1) = ((f.asked lookup n).next lookup).2 := asked_add lookup f n 1

/-- More questions do not change the answers there were. -/
theorem answers_add (lookup : Lookup) (f : Folder) (m n : Nat) :
    f.answers lookup (m + n) = f.answers lookup m ++ (f.asked lookup m).answers lookup n := by
  induction m generalizing f with
  | zero => rw [Nat.zero_add, answers, asked, List.nil_append]
  | succ m ih => rw [Nat.succ_add, answers, answers, asked, ih, List.cons_append]

theorem hasRead_start (c : Condition) : HasRead c [] (start c) := ⟨rfl, rfl, fun _ => rfl⟩

theorem HasRead.reads {front : Condition} {answer : Answer} (h : HasRead c read f)
    (ha : f.Reads front answer) (hne : 1 ≤ front.length) :
    HasRead c (read ++ front) answer.2 where
  elements := by rw [List.append_assoc, ← ha.elements, h.elements]
  previous := by rw [List.getLast?_append_of_ne_nil _ (List.ne_nil_of_length_pos hne), ha.previous]
  untouched := by
    intro hnil
    have hfront := (List.append_eq_nil_iff.mp hnil).2
    exact absurd hfront (List.ne_nil_of_length_pos hne)

/-- Each question leads from one place of the condition to another one or, at the end, nowhere. -/
theorem exists_hasRead_asked (lookup : Lookup) (c : Condition) (n : Nat) :
    ∃ read, HasRead c read ((start c).asked lookup n) := by
  induction n with
  | zero => exact ⟨[], hasRead_start c⟩
  | succ n ih =>
    obtain ⟨read, h⟩ := ih
    rw [asked_succ]
    by_cases hr : ((start c).asked lookup n).rest = []
    · rw [next_of_nil lookup hr]
      exact ⟨read, h⟩
    · obtain ⟨front, hfront, hpos, -⟩ := exists_reads_of_next lookup hr
      exact ⟨read ++ front, h.reads hfront hpos⟩

/-- Every question uses up an element, as long as there is one. -/
theorem length_asked_le (lookup : Lookup) (f : Folder) (n : Nat) :
    (f.asked lookup n).rest.length ≤ f.rest.length - n := by
  induction n with
  | zero => exact Nat.le_refl _
  | succ n ih =>
    rw [asked_succ]
    by_cases hr : (f.asked lookup n).rest = []
    · rw [next_of_nil lookup hr, hr]
      exact Nat.zero_le _
    · have hlt := length_next_lt lookup hr
      omega

/-! ## 3. The end -/

theorem asked_of_nil (lookup : Lookup) (h : f.rest = []) (n : Nat) : f.asked lookup n = f := by
  induction n with
  | zero => rfl
  | succ n ih => rw [asked, next_of_nil lookup h, ih]

theorem answers_of_nil (lookup : Lookup) (h : f.rest = []) (n : Nat) :
    f.answers lookup n = List.replicate n f.atEnd := by
  induction n with
  | zero => rfl
  | succ n ih => rw [answers, next_of_nil lookup h, ih, List.replicate_succ]

/-- **The answer at the end**: nothing where the elements may end, and otherwise the fault that they
    end with the last one of them, which there always is. -/
theorem atEnd_cases (h : HasRead c read f) (hr : f.rest = []) :
    (MayEnd f.last ∧ f.atEnd = .ok none) ∨
      ¬ MayEnd f.last ∧ ∃ e, c.getLast? = some e ∧
        f.atEnd = .error (.badChain (.cannotEndWith e.text)) := by
  by_cases hend : MayEnd f.last
  · exact .inl ⟨hend, (atEnd_eq_ok_iff f).mpr hend⟩
  · have hne : read ≠ [] := fun hnil => hend (.inl (h.untouched hnil))
    have hread : read = c := by
      have helements := h.elements
      rwa [hr, List.append_nil] at helements
    obtain ⟨e, he⟩ := Option.isSome_iff_exists.mp (List.getLast?_isSome.mpr hne)
    have htext : f.previousText = e.text := by rw [previousText, h.previous, he]; rfl
    refine .inr ⟨hend, e, hread ▸ he, ?_⟩
    rw [← htext]
    unfold atEnd
    cases hl : f.last with
    | none => exact absurd (.inl hl) hend
    | some token =>
      cases token with
      | truth b => exact absurd (.inr (hl ▸ trivial)) hend
      | closing => exact absurd (.inr (hl ▸ trivial)) hend
      | junction j => rfl
      | negation => rfl
      | opening => rfl

/-- **A folder that is asked on comes to rest.** Behind any number of questions, faults among the
    answers or not: what it has read is a front of the condition, and as long as something is left the
    next answer reads one, two or three more of its elements; the last token only changes with an
    answer that is a token, and then to that; at the end nothing changes any more, and the answer stays
    the same, nothing or the fault that the condition ends with its last element, whichever the last
    token asks for. And the end is reached after at most one question for each element. -/
theorem asked_settles (lookup : Lookup) (c : Condition) (n : Nat) :
    let f := (start c).asked lookup n
    let g := (start c).asked lookup (n + 1)
    ∃ read, HasRead c read f ∧
      (f.rest ≠ [] →
        ∃ front, HasRead c (read ++ front) g ∧ 1 ≤ front.length ∧ front.length ≤ 3) ∧
      (g.last = f.last ∨ ∃ token, (f.next lookup).1 = .ok (some token) ∧ g.last = some token) ∧
      (f.rest = [] →
        (MayEnd f.last ∧ (f.next lookup).1 = .ok none ∨
          ¬ MayEnd f.last ∧ ∃ e, c.getLast? = some e ∧
            (f.next lookup).1 = .error (.badChain (.cannotEndWith e.text))) ∧
        ∀ more, (start c).asked lookup (n + more) = f ∧
          (start c).answers lookup (n + more)
            = (start c).answers lookup n ++ List.replicate more (f.next lookup).1) ∧
      (c.length ≤ n → f.rest = []) := by
  intro f g
  obtain ⟨read, hread⟩ := exists_hasRead_asked lookup c n
  have hg : g = (f.next lookup).2 := asked_succ lookup (start c) n
  refine ⟨read, hread, ?_, ?_, ?_, ?_⟩
  · intro hr
    obtain ⟨front, hfront, hpos, hle⟩ := exists_reads_of_next lookup hr
    exact ⟨front, hg ▸ hread.reads hfront hpos, hpos, hle⟩
  · rw [hg]
    by_cases hr : f.rest = []
    · rw [next_of_nil lookup hr]
      exact .inl rfl
    · obtain ⟨front, hfront, -⟩ := exists_reads_of_next lookup hr
      exact hfront.last
  · intro hr
    rw [next_of_nil lookup hr]
    refine ⟨atEnd_cases hread hr, fun more => ⟨?_, ?_⟩⟩
    · rw [asked_add]
      exact asked_of_nil lookup hr more
    · rw [answers_add]
      exact congrArg _ (answers_of_nil lookup hr more)
  · intro hn
    have hle : f.rest.length ≤ c.length - n := length_asked_le lookup (start c) n
    exact List.length_eq_zero_iff.mp (by omega)

/-- The fault in the middle leaves the negation as the last token, and the condition at its end. -/
example : (start [.negation .not, .connective .and]).answers Lookup.empty 4
    = [.ok (some .negation), .error (.badChain (.cannotNegate "&&")),
      .error (.badChain (.cannotEndWith "&&")), .error (.badChain (.cannotEndWith "&&"))] := rfl

end Folder

end Verdict
