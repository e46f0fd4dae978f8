/-!
# Occurrences of one text in another

Texts are compared character by character, without normalization, so that a letter with a combining
mark differs from the composed letter.

* `occursIn_iff`: a text occurs in another when something can be put before and after it.
* `prefix_drop_of_mem_places`: at each place that is found the text does stand.
* `le_of_find?_places`: the first place found is the leftmost.
* `mem_places_append`: only an occurrence that reaches over the character before another one hides it.
-/

namespace Verdict.Text

/-! ## 1. Anywhere -/

/-- Does `needle` occur in the text? -/
def occursIn (needle : List Char) : List Char → Bool
  | [] => needle.isEmpty
  | c :: cs => needle.isPrefixOf (c :: cs) || occursIn needle cs

theorem occursIn_iff (needle cs : List Char) :
    occursIn needle cs = true ↔ ∃ before after, before ++ needle ++ after = cs := by
  induction cs with
  | nil =>
    constructor
    · intro h
      exact ⟨[], [], by simpa only [occursIn, List.isEmpty_iff, List.nil_append,
        List.append_nil] using h⟩
    · rintro ⟨before, after, h⟩
      simp only [List.append_eq_nil_iff] at h
      simp only [occursIn, h.1.2, List.isEmpty_nil]
  | cons c cs ih =>
    simp only [occursIn, Bool.or_eq_true, List.isPrefixOf_iff_prefix, ih]
    constructor
    · rintro (⟨after, h⟩ | ⟨before, after, h⟩)
      · exact ⟨[], after, h⟩
      · exact ⟨c :: before, after, by rw [List.cons_append, List.cons_append, h]⟩
    · rintro ⟨before, after, h⟩
      cases before with
      | nil => exact .inl ⟨after, h⟩
      | cons b before =>
        simp only [List.cons_append, List.cons.injEq] at h
        exact .inr ⟨before, after, h.2⟩

/-! ## 2. Places, from left to right -/

/-- The places where a text begins that do not overlap, counted from `start`: after a place is
    found the search goes on behind the text. `skip` characters are passed before it goes on. -/
def placesFrom (needle : List Char) (start skip : Nat) : List Char → List Nat
  | [] => if needle.isEmpty && skip == 0 then [start] else []
  | c :: cs =>
    match skip with
    | skip + 1 => placesFrom needle (start + 1) skip cs
    | 0 =>
      if needle.isPrefixOf (c :: cs) then
        start :: placesFrom needle (start + 1) (needle.length - 1) cs
      else placesFrom needle (start + 1) 0 cs

/-- The places of a text in another that do not overlap, leftmost first. -/
def places (needle cs : List Char) : List Nat := placesFrom needle 0 0 cs

theorem prefix_drop_of_mem_placesFrom {needle cs : List Char} {start skip k : Nat}
    (h : k ∈ placesFrom needle start skip cs) : start ≤ k ∧ needle <+: cs.drop (k - start) := by
  induction cs generalizing start skip with
  | nil =>
    simp only [placesFrom] at h
    split at h
    · rename_i hn
      simp only [Bool.and_eq_true, List.isEmpty_iff] at hn
      rw [List.mem_singleton.mp h, hn.1]
      exact ⟨Nat.le_refl _, List.nil_prefix⟩
    · exact absurd h List.not_mem_nil
  | cons c cs ih =>
    have onward : ∀ {skip}, k ∈ placesFrom needle (start + 1) skip cs →
        start ≤ k ∧ needle <+: (c :: cs).drop (k - start) := by
      intro skip hk
      obtain ⟨hle, hp⟩ := ih hk
      have hd : k - start = (k - (start + 1)) + 1 := by omega
      rw [hd, List.drop_succ_cons]
      exact ⟨by omega, hp⟩
    cases skip with
    | succ skip => exact onward h
    | zero =>
      simp only [placesFrom] at h
      split at h
      · rename_i hn
        rcases List.mem_cons.mp h with rfl | hk
        · rw [Nat.sub_self]
          exact ⟨Nat.le_refl _, List.isPrefixOf_iff_prefix.mp hn⟩
        · exact onward hk
      · exact onward h

theorem prefix_drop_of_mem_places {needle cs : List Char} {k : Nat} (h : k ∈ places needle cs) :
    needle <+: cs.drop k := (prefix_drop_of_mem_placesFrom h).2

theorem le_length_of_mem_places {needle cs : List Char} {k : Nat} (hn : needle ≠ [])
    (h : k ∈ places needle cs) : k + needle.length ≤ cs.length := by
  have hp := (prefix_drop_of_mem_places h).length_le
  rw [List.length_drop] at hp
  have hpos := List.length_pos_iff.mpr hn
  omega

theorem pairwise_placesFrom (needle : List Char) (start skip : Nat) (cs : List Char) :
    (placesFrom needle start skip cs).Pairwise (· < ·) := by
  induction cs generalizing start skip with
  | nil =>
    simp only [placesFrom]
    split
    · exact List.pairwise_singleton _ _
    · exact .nil
  | cons c cs ih =>
    cases skip with
    | succ skip => exact ih _ _
    | zero =>
      simp only [placesFrom]
      split
      · exact .cons (fun k hk => (prefix_drop_of_mem_placesFrom hk).1) (ih _ _)
      · exact ih _ _

/-- The place that is found first is before all others. -/
theorem le_of_find?_places {needle cs : List Char} {p : Nat → Bool} {first k : Nat}
    (h : (places needle cs).find? p = some first) (hk : k ∈ places needle cs) (hp : p k = true) :
    first ≤ k := by
  obtain ⟨-, before, after, hplaces, hbefore⟩ := List.find?_eq_some_iff_append.mp h
  have hsorted := pairwise_placesFrom needle 0 0 cs
  rw [show placesFrom needle 0 0 cs = places needle cs from rfl, hplaces] at hsorted
  rw [hplaces] at hk
  rcases List.mem_append.mp hk with hk | hk
  · have hno := hbefore k hk
    rw [hp] at hno
    cases hno
  · rcases List.mem_cons.mp hk with rfl | hk
    · exact Nat.le_refl _
    · exact Nat.le_of_lt (List.rel_of_pairwise_cons (List.pairwise_append.mp hsorted).2.1 hk)

/-! ## 3. What the search does not miss -/

/-- The search comes by an occurrence at its front if it passes over no more than what is before. A
    place it found there cannot reach into the occurrence: it would hold the character before. -/
theorem mem_placesFrom_append {needle before : List Char} (hn : needle ≠ [])
    (hb : ∀ c, before.getLast? = some c → c ∉ needle) (after : List Char) {start skip : Nat}
    (hs : skip ≤ before.length) :
    start + before.length ∈ placesFrom needle start skip (before ++ (needle ++ after)) := by
  induction before generalizing start skip with
  | nil =>
    obtain ⟨c, cs, rfl⟩ := List.exists_cons_of_ne_nil hn
    have hskip : skip = 0 := Nat.le_zero.mp hs
    have hp : (c :: cs).isPrefixOf (c :: (cs ++ after)) = true :=
      List.isPrefixOf_iff_prefix.mpr (List.prefix_append (c :: cs) after)
    rw [hskip, List.nil_append, List.cons_append, placesFrom, if_pos hp]
    exact List.mem_cons_self
  | cons b before ih =>
    have hlast : ∀ c, before.getLast? = some c → c ∉ needle := by
      intro c hc
      refine hb c ?_
      rw [List.getLast?_cons, hc, Option.getD_some]
    have onward : ∀ {skip}, skip ≤ before.length → start + (before.length + 1) ∈
        placesFrom needle (start + 1) skip (before ++ (needle ++ after)) := by
      intro skip hs
      rw [Nat.add_comm before.length 1, ← Nat.add_assoc]
      exact ih hlast hs
    rw [List.cons_append, List.length_cons] at *
    cases skip with
    | succ skip => exact onward (Nat.le_of_succ_le_succ hs)
    | zero =>
      rw [placesFrom]
      split
      · rename_i hp
        refine List.mem_cons_of_mem _ (onward (Nat.le_of_not_lt fun hlt => ?_))
        -- the place reaches over all that is before the occurrence
        have hpre : b :: before <+: needle := by
          have hwhole : b :: before <+: b :: (before ++ (needle ++ after)) := ⟨needle ++ after, rfl⟩
          refine List.prefix_of_prefix_length_le hwhole (List.isPrefixOf_iff_prefix.mp hp) ?_
          rw [List.length_cons]
          omega
        have hne := List.cons_ne_nil b before
        exact hb _ (List.getLast?_eq_some_getLast hne) (hpre.subset (List.getLast_mem hne))
      · exact onward (Nat.zero_le _)

/-- **An occurrence is found** if the character before it is none of its own. -/
theorem mem_places_append {needle before : List Char} (hn : needle ≠ [])
    (hb : ∀ c, before.getLast? = some c → c ∉ needle) (after : List Char) :
    before.length ∈ places needle (before ++ (needle ++ after)) := by
  have h : 0 + before.length ∈ places needle (before ++ (needle ++ after)) :=
    mem_placesFrom_append hn hb after (Nat.zero_le _)
  rwa [Nat.zero_add] at h

end Verdict.Text
