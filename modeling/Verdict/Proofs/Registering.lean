import Verdict.Proofs.Appending

/-!
# What a name stands for after changes

A registry is changed step by step: an operator is registered, or a name is removed, in one of its
three sets. What a set holds under a name is told by the last step that has the name, and by no other
step: what other names it had in between, and what the other sets hold, does not count.

A source text that is a name by itself is then read by that. The comparison of that name counts
first, then the connective, then the negation. If no set holds it, a keyword is a truth value, a
variable or no element, and a symbol is none: if all its characters occur in symbols it is taken for
an operator and found to be none, and else it is not taken for anything.

* `find?_apply`, `find?_foldl_apply` -- one step, and all steps, in one set.
* `find?_after` -- the sets are independent of each other.
* `read_operator`, `read_keyword`, `read_symbol` -- the three ways to read a name.
* `read_name` -- **what a name stands for after any steps.**
-/

namespace Verdict

open Text

/-! ## 1. Steps in one set -/

namespace OperatorSet

variable {α : Type} [Named α]

/-- A step that changes a set. -/
inductive Change (α : Type)
  | register (operator : α)
  | remove (name : String)

namespace Change

/-- The name a step has. -/
def name : Change α → String
  | register operator => nameOf operator
  | remove name => name

/-- What a step leaves under its name. -/
def held? : Change α → Option α
  | register operator => some operator
  | remove _ => none

/-- The set behind a step. -/
def apply (set : List α) : Change α → List α
  | register operator => insert operator set
  | remove name => erase name set

end Change

/-- What a set holds under a name after some steps: what the last step with the name left, or what was
    held before if there is none. -/
def heldAfter? (name : String) (before : Option α) (changes : List (Change α)) : Option α :=
  match changes.reverse.find? (·.name == name) with
  | some change => change.held?
  | none => before

theorem find?_apply (name : String) (set : List α) (change : Change α) :
    find? name (change.apply set) = if change.name = name then change.held? else find? name set := by
  cases change with
  | register operator => exact find?_insert name operator set
  | remove removed => exact find?_erase name removed set

/-- The first of several steps counts only where no later one has the name. -/
theorem heldAfter?_cons (name : String) (before : Option α) (change : Change α)
    (changes : List (Change α)) :
    heldAfter? name before (change :: changes)
      = heldAfter? name (if change.name = name then change.held? else before) changes := by
  rw [heldAfter?, heldAfter?, List.reverse_cons, List.find?_append]
  cases changes.reverse.find? (·.name == name) with
  | some later => rfl
  | none =>
    by_cases h : change.name = name
    · simp only [List.find?_cons, h, beq_self_eq_true, if_true, Option.none_or]
    · have hb : (change.name == name) = false := beq_eq_false_iff_ne.mpr h
      simp only [List.find?_cons, hb, List.find?_nil, if_neg h, Option.none_or]

/-- **The last step with a name decides what is held under it.** -/
theorem find?_foldl_apply (name : String) (set : List α) (changes : List (Change α)) :
    find? name (changes.foldl Change.apply set) = heldAfter? name (find? name set) changes := by
  induction changes generalizing set with
  | nil => rfl
  | cons change changes ih => rw [List.foldl_cons, ih, find?_apply, heldAfter?_cons]

end OperatorSet

/-! ## 2. Steps in a registry -/

namespace Registry

/-- A step that changes one of the sets. -/
inductive Change
  | comparison (change : OperatorSet.Change Comparison)
  | connective (change : OperatorSet.Change Connective)
  | negation (change : OperatorSet.Change Negation)

namespace Change

/-- The registry behind a step. -/
def apply (r : Registry) : Change → Registry
  | comparison (.register operator) => r.addComparison operator
  | comparison (.remove name) => r.removeComparison name
  | connective (.register operator) => r.addConnective operator
  | connective (.remove name) => r.removeConnective name
  | negation (.register operator) => r.addNegation operator
  | negation (.remove name) => r.removeNegation name

def comparison? : Change → Option (OperatorSet.Change Comparison)
  | comparison change => some change
  | _ => none

def connective? : Change → Option (OperatorSet.Change Connective)
  | connective change => some change
  | _ => none

def negation? : Change → Option (OperatorSet.Change Negation)
  | negation change => some change
  | _ => none

end Change

/-- The registry behind some steps. -/
def after (r : Registry) (changes : List Change) : Registry := changes.foldl Change.apply r

/-- The comparison of a name by the last step that has the name in the set of comparisons. -/
def comparisonAfter? (r : Registry) (changes : List Change) (name : String) : Option Comparison :=
  OperatorSet.heldAfter? name (r.comparison? name) (changes.filterMap Change.comparison?)

def connectiveAfter? (r : Registry) (changes : List Change) (name : String) : Option Connective :=
  OperatorSet.heldAfter? name (r.connective? name) (changes.filterMap Change.connective?)

def negationAfter? (r : Registry) (changes : List Change) (name : String) : Option Negation :=
  OperatorSet.heldAfter? name (r.negation? name) (changes.filterMap Change.negation?)

/-- The operator of a name after some steps: a comparison, else a connective, else a negation. -/
def operatorAfter? (r : Registry) (changes : List Change) (name : String) : Option Element :=
  (r.comparisonAfter? changes name).map .comparison <|>
    (r.connectiveAfter? changes name).map .connective <|>
    (r.negationAfter? changes name).map .negation

/-- **Each set goes through its own steps**, whatever steps of the other sets are between them. -/
theorem find?_after {α : Type} [Named α] {set : Registry → List α}
    {step? : Change → Option (OperatorSet.Change α)}
    (own : ∀ r change step, step? change = some step → set (change.apply r) = step.apply (set r))
    (other : ∀ r change, step? change = none → set (change.apply r) = set r)
    (r : Registry) (changes : List Change) (name : String) :
    OperatorSet.find? name (set (r.after changes))
      = OperatorSet.heldAfter? name (OperatorSet.find? name (set r)) (changes.filterMap step?) := by
  rw [← OperatorSet.find?_foldl_apply]
  refine congrArg (OperatorSet.find? name) ?_
  induction changes generalizing r with
  | nil => rfl
  | cons change changes ih =>
    rw [after, List.foldl_cons, ← after, ih, List.filterMap_cons]
    cases hs : step? change with
    | none => rw [other r change hs]
    | some step => rw [own r change step hs, List.foldl_cons]

theorem comparison?_after (r : Registry) (changes : List Change) (name : String) :
    (r.after changes).comparison? name = r.comparisonAfter? changes name := by
  refine find?_after (fun r change step h => ?_) (fun r change h => ?_) r changes name
  · rcases change with ⟨_ | _⟩ | _ | _ <;> cases h <;> rfl
  · rcases change with _ | ⟨_ | _⟩ | ⟨_ | _⟩ <;> first | rfl | cases h

theorem connective?_after (r : Registry) (changes : List Change) (name : String) :
    (r.after changes).connective? name = r.connectiveAfter? changes name := by
  refine find?_after (fun r change step h => ?_) (fun r change h => ?_) r changes name
  · rcases change with _ | ⟨_ | _⟩ | _ <;> cases h <;> rfl
  · rcases change with ⟨_ | _⟩ | _ | ⟨_ | _⟩ <;> first | rfl | cases h

theorem negation?_after (r : Registry) (changes : List Change) (name : String) :
    (r.after changes).negation? name = r.negationAfter? changes name := by
  refine find?_after (fun r change step h => ?_) (fun r change h => ?_) r changes name
  · rcases change with _ | _ | ⟨_ | _⟩ <;> cases h <;> rfl
  · rcases change with ⟨_ | _⟩ | ⟨_ | _⟩ | _ <;> first | rfl | cases h

/-- The operator that a chunk names after some steps. -/
theorem operator?_after (r : Registry) (changes : List Change) (w : List Char) :
    (r.after changes).grammar.operator? w = r.operatorAfter? changes (String.ofList w) := by
  rw [operatorAfter?, ← comparison?_after, ← connective?_after, ← negation?_after]
  rfl

end Registry

/-! ## 3. Names by themselves -/

/-- Where no part of a lead begins, the lead is empty. -/
theorem Piece.read?_of_head? {parts : List (List Char)} {c : Char} (h : ∀ part ∈ parts, c ∉ part)
    (finish : List Char → Option Tail) (cs : List Char) :
    Piece.read? parts finish (c :: cs) = (finish (c :: cs)).map fun tail => ⟨[], tail⟩ := by
  have hc : parts.any (·.contains c) = false :=
    List.any_eq_false.mpr fun part hp hc => h part hp (List.contains_iff_mem.mp hc)
  have htries : ∀ f : List Char → Option (List Char × Tail),
      firstTry parts f (c :: cs) = [f (c :: cs)] := by
    intro f
    rw [firstTry, hc, if_neg Bool.false_ne_true]
  rw [Piece.read?, htries, List.head?_cons, Option.join_some, Option.map_map]
  refine congrArg (fun f => Option.map f (finish (c :: cs))) (funext fun tail => ?_)
  show Piece.mk ((c :: cs).take ((c :: cs).length - (c :: cs).length)) tail = _
  rw [Nat.sub_self, List.take_zero]

namespace Grammar

variable {r : Registry} {name : OperatorName}

/-- A name is one chunk. -/
theorem chunk_name (name : OperatorName) :
    chunk name.chars = name.chars ∧ afterChunk name.chars = [] := by
  have hblank : ∀ c ∈ name.chars, isBlank c = false :=
    fun c hc => (isWordPart_iff.mp (OperatorName.isWordPart_of_mem hc)).1
  have hcut := chunk_append hblank atGap_nil
  rwa [List.append_nil] at hcut

/-- A name begins with no blank. -/
theorem exists_head_name (name : OperatorName) :
    ∃ c cs, name.chars = c :: cs ∧ isBlank c = false := by
  obtain ⟨c, cs, hcs⟩ := List.exists_cons_of_ne_nil name.chars_ne_nil
  have hc : c ∈ name.chars := hcs ▸ List.mem_cons_self
  exact ⟨c, cs, hcs, (isWordPart_iff.mp (OperatorName.isWordPart_of_mem hc)).1⟩

/-- A name is read as the one front it is. -/
theorem read_of_readFront {e : Element} (h : r.grammar.readFront name.chars = .ok ([e], [])) :
    r.grammar.read name.text = .ok [e] := by
  obtain ⟨c, cs, hcs, hc⟩ := exists_head_name name
  exact read_of_front hcs hc (List.cons_ne_nil _ _) (hcs ▸ h)

theorem read_of_fault {x : Fault} (h : r.grammar.readFront name.chars = .error x) :
    r.grammar.read name.text = .error x := by
  obtain ⟨c, cs, hcs, hc⟩ := exists_head_name name
  exact read_of_front_fault hcs hc (hcs ▸ h)

/-- The names of a registry are those that name an operator. -/
theorem mem_names_iff : name ∈ r.names ↔ r.grammar.operator? name.chars ≠ none := by
  constructor
  · intro h hnone
    obtain ⟨e, he, -⟩ := exists_operator? h
    rw [he] at hnone
    cases hnone
  · intro h
    obtain ⟨e, he⟩ := Option.ne_none_iff_exists'.mp h
    have hheld : ∀ {α : Type} [Named α] {set : List α} {operator : α},
        OperatorSet.find? (String.ofList name.chars) set = some operator →
        name ∈ set.map Named.name := by
      intro α _ set operator hf
      obtain ⟨hm, hname⟩ := OperatorSet.mem_of_find? hf
      rw [OperatorName.chars, String.ofList_toList] at hname
      exact List.mem_map.mpr ⟨operator, hm, OperatorName.eq_of_text hname⟩
    simp only [operator?, Option.orElse_eq_orElse, Option.orElse_eq_or, Option.or_eq_some_iff,
      Option.map_eq_some_iff] at he
    obtain ⟨_, hset, -⟩ | ⟨-, ⟨_, hset, -⟩ | ⟨-, _, hset, -⟩⟩ := he
    · exact List.mem_append_left _ (List.mem_append_left _ (hheld hset))
    · exact List.mem_append_left _ (List.mem_append_right _ (hheld hset))
    · exact List.mem_append_right _ (hheld hset)

/-- **A name that names an operator** is read as that. -/
theorem read_operator {e : Element} (h : r.grammar.operator? name.chars = some e) :
    r.grammar.read name.text = .ok [e] := by
  have hm : name ∈ r.names := mem_names_iff.mpr fun hnone => by rw [h] at hnone; cases hnone
  refine read_of_readFront ?_
  rw [readFront, (chunk_name name).1, (chunk_name name).2, if_pos (isOperatorChunk_name hm),
    readOperator, h]
  rfl

/-! ## 4. Names that name no operator -/

/-- A name is taken for an operator if all its characters occur in symbols, or if it is one. -/
theorem isOperatorChunk_of_not_mem (hm : name ∉ r.names) :
    r.grammar.isOperatorChunk name.chars = name.chars.all r.grammar.isSymbolic := by
  have hkeyword : (r.names.any fun other => other.isKeyword && other.chars == name.chars) = false := by
    refine List.any_eq_false.mpr fun other hother he => ?_
    obtain ⟨-, he⟩ := Bool.and_eq_true_iff.mp he
    exact hm (OperatorName.eq_of_text (String.toList_inj.mp (beq_iff_eq.mp he)) ▸ hother)
  rw [isOperatorChunk, List.isEmpty_eq_false_iff.mpr name.chars_ne_nil]
  show (_ || r.names.any _) = _
  rw [hkeyword, Bool.or_false]
  rfl

/-- A character of a lead is the opening bracket, or occurs in a symbol. -/
theorem isSymbolic_of_leadParts {part : List Char} {c : Char} (hp : part ∈ r.grammar.leadParts)
    (hc : c ∈ part) : c = '(' ∨ r.grammar.isSymbolic c = true := by
  rcases List.mem_cons.mp hp with rfl | hp
  · exact .inl (List.mem_singleton.mp hc)
  · obtain ⟨operator, ho, rfl⟩ := List.mem_map.mp hp
    obtain ⟨ho, hsymbol⟩ := mem_symbolNegations.mp ho
    have hname : operator.name ∈ r.names := List.mem_append_right _ (List.mem_map_of_mem ho)
    exact .inr (List.any_eq_true.mpr ⟨_, hname, by
      rw [hsymbol, List.contains_iff_mem.mpr hc, Bool.and_self]⟩)

/-- What a keyword that names no operator is read as. -/
def keywordReading (name : String) : Except Fault Condition :=
  if name = "true" then .ok [.operand (.truth true)]
  else if name = "false" then .ok [.operand (.truth false)]
  else if 2 ≤ name.toList.length then .ok [.operand (.var name)]
  else .error (.unknownElement name)

/-- A keyword that names no operator is a word: the operand it has the form of, or none. -/
theorem readFront_keyword (hk : name.isKeyword = true) (hm : name ∉ r.names) :
    r.grammar.readFront name.chars =
      if isLiteralWord name.chars || isPlainName name.chars then
        (Operand.ofLexeme isPlainName name.chars).map fun o => ([.operand o], [])
      else .error (.unknownElement name.text) := by
  obtain ⟨c, cs, hcs⟩ := List.exists_cons_of_ne_nil name.chars_ne_nil
  have halpha : c.isAlpha = true := OperatorName.isAlpha_head?_of_isKeyword hk (by rw [hcs]; rfl)
  have halnum : c.isAlphanum = true := by rw [Char.isAlphanum, halpha, Bool.true_or]
  have hsymbolic : r.grammar.isSymbolic c = false := Bool.eq_false_iff.mpr fun hs => by
    rw [isAlphanum_of_isSymbolChar (isSymbolChar_of_isSymbolic hs)] at halnum
    cases halnum
  have hop : r.grammar.isOperatorChunk name.chars = false := by
    rw [isOperatorChunk_of_not_mem hm, hcs, List.all_cons, hsymbolic, Bool.false_and]
  have hhead : ∀ part ∈ r.grammar.leadParts, c ∉ part := by
    intro part hp hc
    rcases isSymbolic_of_leadParts hp hc with rfl | hs
    · exact absurd halpha (by decide)
    · rw [hsymbolic] at hs
      cases hs
  have hfinish := pieceTail_word (w := name.chars) (fun c hc => OperatorName.isWordPart_of_mem hc)
    (fun d hd => by
      rw [hcs] at hd
      exact Option.some.inj hd ▸ isQuote_of_wordHead (.inl halnum)) atGap_nil 0
  rw [List.replicate_zero, List.append_nil, List.append_nil, if_neg name.chars_ne_nil] at hfinish
  have hpiece : Piece.read? r.grammar.leadParts pieceTail name.chars
      = (pieceTail name.chars).map fun tail => ⟨[], tail⟩ := by
    rw [hcs, Piece.read?_of_head? hhead]
  rw [readFront, (chunk_name name).1, hop, if_neg Bool.false_ne_true, hpiece, hfinish]
  cases isLiteralWord name.chars || isPlainName name.chars with
  | true =>
    show (r.grammar.pieceElements ⟨[], ⟨some name.chars, 0, []⟩⟩).map _ = _
    have hname : r.grammar.isName = isPlainName := rfl
    simp only [pieceElements, hname]
    cases Operand.ofLexeme isPlainName name.chars <;> rfl
  | false =>
    show Except.error (Fault.unknownElement (String.ofList name.text.toList)) = _
    rw [String.ofList_toList]
    rfl

/-- A keyword has the form of a name if it is not too short for that. -/
theorem isPlainName_of_isKeyword (hk : name.isKeyword = true) :
    isPlainName name.chars = decide (2 ≤ name.chars.length) := by
  unfold OperatorName.isKeyword Verdict.isKeyword at hk
  split at hk
  · cases hk
  · rename_i c cs hcs
    obtain ⟨hc, hall⟩ := Bool.and_eq_true_iff.mp hk
    rw [hcs, isPlainName, hc]
    cases cs with
    | nil => rfl
    | cons d ds =>
      have htail : (d :: ds).all isNameTail = true := List.all_eq_true.mpr fun e he => by
        rw [isNameTail, Bool.or_eq_true]
        exact .inl (List.all_eq_true.mp hall e he)
      rw [htail, List.isEmpty_cons]
      exact (decide_eq_true (Nat.le_add_left 2 ds.length)).symm

/-- A keyword is no literal, unless it is a truth value. -/
theorem isLiteralWord_of_isKeyword (hk : name.isKeyword = true) (ht : name.text ≠ "true")
    (hf : name.text ≠ "false") : isLiteralWord name.chars = false := by
  obtain ⟨c, cs, hcs⟩ := List.exists_cons_of_ne_nil name.chars_ne_nil
  have halpha : c.isAlpha = true := OperatorName.isAlpha_head?_of_isKeyword hk (by rw [hcs]; rfl)
  have hnumber : Number.isLiteral name.chars = false := Bool.eq_false_iff.mpr fun hl => by
    rw [not_alpha_of_numberHead (Number.head?_of_isLiteral hl (by rw [hcs]; rfl))] at halpha
    cases halpha
  have hne : ∀ {s : String}, name.text ≠ s → name.chars ≠ s.toList :=
    fun hs he => hs (String.toList_inj.mp he)
  rw [isLiteralWord, hnumber, readTruth?_of_ne (hne ht) (hne hf)]
  rfl

/-- A keyword that is read as an operand is read as that one element. -/
theorem read_of_wordOf (hk : name.isKeyword = true) (hm : name ∉ r.names) {o : Operand}
    (hword : WordOf o name.chars) : r.grammar.read name.text = .ok [.operand o] := by
  refine read_of_readFront ?_
  rw [readFront_keyword hk hm, if_pos (Bool.or_eq_true_iff.mpr hword.formed), hword.operand]
  rfl

/-- **A keyword that names no operator** is a truth value or the name of a variable, if it is not too
    short for that. -/
theorem read_keyword (hk : name.isKeyword = true) (hm : name ∉ r.names) :
    r.grammar.read name.text = keywordReading name.text := by
  have htruth : ∀ b, name.text = truthWord b → WordOf (.truth b) name.chars := by
    intro b hb
    rw [OperatorName.chars, hb]
    exact wordOf_truth b
  unfold keywordReading
  split
  · rename_i ht
    exact read_of_wordOf hk hm (htruth true ht)
  · rename_i ht
    split
    · rename_i hf
      exact read_of_wordOf hk hm (htruth false hf)
    · rename_i hf
      have hname := isPlainName_of_isKeyword hk
      split
      · rename_i hlong
        rw [OperatorName.chars, decide_eq_true hlong] at hname
        exact read_of_wordOf hk hm (wordOf_var ⟨hname, ht, hf⟩)
      · rename_i hshort
        rw [OperatorName.chars, decide_eq_false hshort] at hname
        refine read_of_fault ?_
        rw [readFront_keyword hk hm, isLiteralWord_of_isKeyword hk ht hf, OperatorName.chars, hname]
        rfl

/-- Symbols of which one occurs in no symbol of the registry are no piece: a lead does not go over
    that one, and behind a lead no symbols make an operand. -/
theorem piece_read?_symbol (hs : name.isSymbol = true)
    (hall : ¬ name.chars.all r.grammar.isSymbolic = true) :
    Piece.read? r.grammar.leadParts pieceTail name.chars = none := by
  have hsymbols : ∀ c ∈ name.chars, isSymbolChar c = true :=
    fun c hc => OperatorName.isSymbolChar_of_isSymbol hs hc
  refine Option.eq_none_iff_forall_ne_some.mpr fun piece hpiece => ?_
  obtain ⟨ds, hds, hlead, hfinish⟩ := exists_place_of_piece hpiece
  cases ds with
  | nil =>
    rw [List.append_nil] at hds
    refine hall (List.all_eq_true.mpr fun c hc => ?_)
    obtain ⟨part, hp, hcp⟩ := List.any_eq_true.mp (hlead c (hds ▸ hc))
    rcases isSymbolic_of_leadParts hp (List.contains_iff_mem.mp hcp) with rfl | hsymbolic
    · exact absurd (hsymbols _ hc) (by decide)
    · exact hsymbolic
  | cons d ds =>
    have hparts : ∀ c ∈ d :: ds, isSymbolChar c = true :=
      fun c hc => hsymbols c (hds ▸ List.mem_append_right _ hc)
    have hform := no_form_of_symbols hparts
    have hword := pieceTail_word (w := d :: ds)
      (fun c hc => isWordPart_of_isSymbolChar (hparts c hc))
      (fun c hc => isQuote_of_isSymbolChar (hparts c (List.mem_of_mem_head? hc))) atGap_nil 0
    rw [List.replicate_zero, List.append_nil, List.append_nil, hform.1, hform.2,
      if_neg (List.cons_ne_nil _ _)] at hword
    rw [hword] at hfinish
    cases hfinish

/-- **A symbol that names no operator** is no element: taken for an operator if all its characters
    occur in symbols, and else for an operand. -/
theorem read_symbol (hs : name.isSymbol = true) (hm : name ∉ r.names) :
    r.grammar.read name.text =
      if name.chars.all r.grammar.isSymbolic then .error (.badName name.text)
      else .error (.unknownElement name.text) := by
  have hop := isOperatorChunk_of_not_mem hm
  have htext : String.ofList name.chars = name.text := String.ofList_toList
  split
  · rename_i hall
    rw [hall] at hop
    have hnone : r.grammar.operator? name.chars = none :=
      Classical.byContradiction fun hne => hm (mem_names_iff.mpr hne)
    refine read_of_fault ?_
    rw [readFront, (chunk_name name).1, if_pos hop, readOperator_of_isOperatorChunk hop hnone, htext]
    rfl
  · rename_i hall
    rw [Bool.eq_false_iff.mpr hall] at hop
    refine read_of_fault ?_
    rw [readFront, (chunk_name name).1, hop, if_neg Bool.false_ne_true, piece_read?_symbol hs hall,
      htext]

/-! ## 5. Names after changes -/

/-- Does a character occur in a symbol that names an operator after some steps? -/
def OccursInSymbol (base : Registry) (changes : List Registry.Change) (c : Char) : Prop :=
  ∃ other : OperatorName,
    other.isSymbol = true ∧ c ∈ other.chars ∧ base.operatorAfter? changes other.text ≠ none

theorem isSymbolic_after (base : Registry) (changes : List Registry.Change) (c : Char) :
    (base.after changes).grammar.isSymbolic c = true ↔ OccursInSymbol base changes c := by
  rw [isSymbolic, List.any_eq_true]
  refine exists_congr fun other => ?_
  rw [Bool.and_eq_true, List.contains_iff_mem]
  have hm : other ∈ (base.after changes).names ↔ base.operatorAfter? changes other.text ≠ none := by
    rw [mem_names_iff, Registry.operator?_after, OperatorName.chars, String.ofList_toList]
  constructor
  · rintro ⟨h, hs, hc⟩
    exact ⟨hs, hc, hm.mp h⟩
  · rintro ⟨hs, hc, h⟩
    exact ⟨hm.mpr h, hs, hc⟩

/-- What a name stands for after any steps, where a text is read by hand. -/
theorem grammar_read_name (base : Registry) (changes : List Registry.Change) (name : OperatorName) :
    (∀ e, base.operatorAfter? changes name.text = some e →
      (base.after changes).grammar.read name.text = .ok [e]) ∧
    (base.operatorAfter? changes name.text = none →
      (name.isKeyword = true →
        (base.after changes).grammar.read name.text = keywordReading name.text) ∧
      (name.isSymbol = true →
        ((∀ c ∈ name.chars, OccursInSymbol base changes c) →
          (base.after changes).grammar.read name.text = .error (.badName name.text)) ∧
        (¬ (∀ c ∈ name.chars, OccursInSymbol base changes c) →
          (base.after changes).grammar.read name.text = .error (.unknownElement name.text)))) := by
  have hname : (base.after changes).grammar.operator? name.chars
      = base.operatorAfter? changes name.text := by
    rw [Registry.operator?_after, OperatorName.chars, String.ofList_toList]
  have hsymbols : name.chars.all (base.after changes).grammar.isSymbolic = true ↔
      ∀ c ∈ name.chars, OccursInSymbol base changes c := by
    simp only [List.all_eq_true, isSymbolic_after]
  refine ⟨fun e he => read_operator (hname.trans he), fun hnone => ?_⟩
  have hm : name ∉ (base.after changes).names := fun hm => mem_names_iff.mp hm (hname.trans hnone)
  refine ⟨fun hk => read_keyword hk hm, fun hs => ⟨fun h => ?_, fun h => ?_⟩⟩
  · rw [read_symbol hs hm, if_pos (hsymbols.mpr h)]
  · rw [read_symbol hs hm, if_neg fun hall => h (hsymbols.mp hall)]

open RegexLibrary (Accepts Reads)

/-- **What a name stands for after any steps.** The names left make a scanner, whatever punctuation
    they are of, if there is room for them in the library. A name stands for the operator that the last
    steps with it left, and if they left none, for what its characters make of it. -/
theorem read_name [RegexLibrary] (base : Registry) (changes : List Registry.Change)
    (haccepts : Accepts ((base.after changes).front none))
    (hreads : Reads ((base.after changes).front none)) (name : OperatorName) :
    ∃ g, ofRegistry (base.after changes) none = .ok g ∧
      (∀ e, base.operatorAfter? changes name.text = some e → g.read name.text = .ok [e]) ∧
      (base.operatorAfter? changes name.text = none →
        (name.isKeyword = true → g.read name.text = keywordReading name.text) ∧
        (name.isSymbol = true →
          ((∀ c ∈ name.chars, OccursInSymbol base changes c) →
            g.read name.text = .error (.badName name.text)) ∧
          (¬ (∀ c ∈ name.chars, OccursInSymbol base changes c) →
            g.read name.text = .error (.unknownElement name.text)))) := by
  obtain ⟨g, hg⟩ := exists_scanner haccepts
  refine ⟨g, hg, ?_⟩
  simp only [read_scanner hreads hg]
  exact grammar_read_name base changes name

/-- Steps with names of awkward punctuation: one connective is registered twice under a name, and a
    negation of that name is registered and removed. -/
def awkwardSteps : List Registry.Change :=
  [.connective (.register ⟨⟨"^-]", by decide⟩, .and⟩), .negation (.register ⟨⟨"^-]", by decide⟩⟩),
    .connective (.register ⟨⟨"^-]", by decide⟩, .or⟩), .negation (.register ⟨⟨"~[&", by decide⟩⟩),
    .negation (.remove "^-]")]

/-- The name stands for the connective that was registered last. -/
theorem read_name_awkward :
    letI := RegexLibrary.table [((Registry.empty.after awkwardSteps).front none).regex]
    ∃ g, ofRegistry (Registry.empty.after awkwardSteps) none = .ok g ∧
      g.read "^-]" = .ok [.connective ⟨⟨"^-]", by decide⟩, .or⟩] ∧
      g.read "^]~" = .error (.badName "^]~") := by
  let tree := (Registry.empty.after awkwardSteps).front none
  let library := RegexLibrary.table [tree.regex]
  obtain ⟨haccepts, hreads⟩ : Accepts tree ∧ Reads tree :=
    RegexLibrary.accepts_reads_table rfl (Registry.nodup_names_front _)
  obtain ⟨g, hg, hheld, -⟩ := read_name .empty awkwardSteps haccepts hreads ⟨"^-]", by decide⟩
  obtain ⟨g', hg', -, hnone⟩ := read_name .empty awkwardSteps haccepts hreads ⟨"^]~", by decide⟩
  obtain rfl := Except.ok.inj (hg.symm.trans hg')
  have hchars : "^]~".toList.all (Registry.empty.after awkwardSteps).grammar.isSymbolic = true := by
    decide
  exact ⟨g, hg, hheld _ rfl, ((hnone rfl).2 (by decide)).1 fun c hc =>
    (isSymbolic_after .empty awkwardSteps c).mp (List.all_eq_true.mp hchars c hc)⟩

end Grammar

end Verdict
