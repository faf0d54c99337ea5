import Mathlib.Data.List.Infix

/-! # Replacing a word in a text

A text is cut at the occurrences of a word, taken from the left and not overlapping, and the pieces are joined by
the replacement. Two words overlap if they can be laid over each other so that they share letters. A word that
does not overlap the replacement occurs afterwards only where it occurred in a piece, so the word that was
replaced is gone, and no other word was formed.

Where only the first occurrence is replaced, the text before it, in which the word starts nowhere, stays
(`Foundation.Replacement.replaceFirst_append`).
-/

namespace Foundation.Replacement

variable {Letter : Type*}

section Cutting

variable [DecidableEq Letter]

/-- The pieces of a text between the occurrences of a word, after the first `skip` letters. -/
def pieces (word : List Letter) : ℕ → List Letter → List (List Letter)
  | _, [] => [[]]
  | skip + 1, _ :: rest => pieces word skip rest
  | 0, letter :: rest =>
      if word <+: letter :: rest then [] :: pieces word (word.length - 1) rest
      else (pieces word 0 rest).modifyHead (letter :: ·)

/-- A text with each occurrence of a word replaced. -/
def replace (word replacement text : List Letter) : List Letter :=
  replacement.intercalate (pieces word 0 text)

theorem pieces_cons (word : List Letter) (skip : ℕ) (text : List Letter) :
    ∃ head tail, pieces word skip text = head :: tail := by
  fun_induction pieces word skip text with
  | case1 => exact ⟨[], [], rfl⟩
  | case2 skip _ rest ih => exact ih
  | case3 => exact ⟨_, _, rfl⟩
  | case4 letter rest _ ih =>
      obtain ⟨head, tail, same⟩ := ih
      exact ⟨letter :: head, tail, by rw [same]; rfl⟩

theorem intercalate_pieces {word : List Letter} (some_ : word ≠ []) (skip : ℕ) (text : List Letter) :
    word.intercalate (pieces word skip text) = text.drop skip := by
  fun_induction pieces word skip text with
  | case1 => simp
  | case2 skip _ rest ih => rw [ih, List.drop_succ_cons]
  | case3 letter rest found ih =>
      obtain ⟨head, tail, same⟩ := pieces_cons word (word.length - 1) rest
      obtain ⟨after, whole⟩ := found
      rw [same, List.intercalate_cons_cons, ← same, ih, List.nil_append, List.drop_zero]
      cases word with
      | nil => exact absurd rfl some_
      | cons first others =>
          have rest_ : rest = others ++ after := (List.cons.inj whole).2.symm
          rw [← whole, rest_]
          simp
  | case4 letter rest _ ih =>
      obtain ⟨head, tail, same⟩ := pieces_cons word 0 rest
      rw [same, List.drop_zero] at ih
      rw [same, List.drop_zero, List.modifyHead_cons, ← ih]
      cases tail with
      | nil => simp
      | cons second others => simp [List.intercalate_cons_cons]

theorem head_pieces {word : List Letter} (some_ : word ≠ []) {skip : ℕ} {text head : List Letter}
    {tail : List (List Letter)} (same : pieces word skip text = head :: tail) : head <+: text.drop skip := by
  rw [← intercalate_pieces some_, same]
  cases tail with
  | nil => simp
  | cons second others =>
      rw [List.intercalate_cons_cons]
      rw [List.append_assoc]
      exact List.prefix_append _ _

theorem not_in_pieces {word : List Letter} (some_ : word ≠ []) (skip : ℕ) (text : List Letter) :
    ∀ piece ∈ pieces word skip text, ¬ word <:+: piece := by
  fun_induction pieces word skip text with
  | case1 =>
      intro piece listed occurs
      rw [List.mem_singleton.mp listed] at occurs
      exact some_ (List.infix_nil.mp occurs)
  | case2 skip _ rest ih => exact ih
  | case3 letter rest _ ih =>
      intro piece listed
      rcases List.mem_cons.mp listed with rfl | later
      · exact fun occurs => some_ (List.infix_nil.mp occurs)
      · exact ih piece later
  | case4 letter rest absent ih =>
      obtain ⟨head, tail, same⟩ := pieces_cons word 0 rest
      rw [same, List.modifyHead_cons]
      rw [same] at ih
      intro piece listed
      rcases List.mem_cons.mp listed with rfl | later
      · intro occurs
        rcases List.infix_cons_iff.mp occurs with first | within
        · have begins : letter :: head <+: letter :: rest :=
            (List.cons_prefix_cons).mpr ⟨rfl, head_pieces some_ same⟩
          exact absent (first.trans begins)
        · exact ih head List.mem_cons_self within
      · exact ih piece (List.mem_cons_of_mem _ later)

theorem pieces_of_absent {word text : List Letter} (absent : ¬ word <:+: text) : pieces word 0 text = [text] := by
  induction text with
  | nil => rfl
  | cons letter rest ih =>
      rw [pieces, if_neg fun first => absent first.isInfix,
        ih fun occurs => absent (List.infix_cons_iff.mpr (.inr occurs))]
      rfl

theorem replace_of_absent {word text : List Letter} (replacement : List Letter) (absent : ¬ word <:+: text) :
    replace word replacement text = text := by
  rw [replace, pieces_of_absent absent, List.intercalate_singleton]

end Cutting

section Overlaps

/-- Two words can be laid over each other so that they share letters: an end of one is a beginning of the other, or
one lies within the other. -/
def Overlaps (first second : List Letter) : Prop :=
  (∃ shared ≠ [], shared <:+ first ∧ shared <+: second) ∨
    (∃ shared ≠ [], shared <+: first ∧ shared <:+ second) ∨ first <:+: second ∨ second <:+: first

theorem not_overlaps_of_disjoint {first second : List Letter} (some_ : first ≠ []) (others : second ≠ [])
    (disjoint : ∀ letter ∈ first, letter ∉ second) : ¬ Overlaps first second := by
  rintro (⟨shared, letters, ends, begins⟩ | ⟨shared, letters, begins, ends⟩ | within | around)
  · obtain ⟨letter, listed⟩ := List.exists_mem_of_ne_nil shared letters
    exact disjoint letter (ends.mem listed) (begins.mem listed)
  · obtain ⟨letter, listed⟩ := List.exists_mem_of_ne_nil shared letters
    exact disjoint letter (begins.mem listed) (ends.mem listed)
  · obtain ⟨letter, listed⟩ := List.exists_mem_of_ne_nil first some_
    exact disjoint letter listed (within.mem listed)
  · obtain ⟨letter, listed⟩ := List.exists_mem_of_ne_nil second others
    exact disjoint letter (around.mem listed) listed

theorem infix_intercalate {separator part : List Letter} {parts : List (List Letter)}
    (listed : part ∈ parts) : part <:+: separator.intercalate parts := by
  induction parts with
  | nil => cases listed
  | cons first rest ih =>
      cases rest with
      | nil =>
          rw [List.mem_singleton.mp listed, List.intercalate_singleton]
      | cons second others =>
          rw [List.intercalate_cons_cons]
          rcases List.mem_cons.mp listed with rfl | later
          · exact ⟨[], separator ++ separator.intercalate (second :: others), by simp⟩
          · exact (ih later).trans (List.suffix_append _ _).isInfix

variable {word separator : List Letter}

theorem infix_around (apart : ¬ Overlaps word separator) {before behind : List Letter}
    (occurs : word <:+: before ++ (separator ++ behind)) : word <:+: before ∨ word <:+: behind := by
  simp only [Overlaps, not_or, not_exists, not_and] at apart
  obtain ⟨noEnd, noBeginning, notWithin, notAround⟩ := apart
  rcases List.infix_append_iff_ne_nil.mp occurs with inside | after | ⟨left, right, _, present, rfl, _, begins⟩
  · exact .inl inside
  · rcases List.infix_append_iff_ne_nil.mp after with inside | inside | ⟨left, right, present, _, rfl, ends, _⟩
    · exact absurd inside notWithin
    · exact .inr inside
    · exact absurd ends (noBeginning left present (List.prefix_append _ _))
  · rcases List.prefix_or_prefix_of_prefix begins (List.prefix_append separator behind) with short | long
    · exact absurd short (noEnd right present (List.suffix_append _ _))
    · exact absurd (long.isInfix.trans (List.suffix_append left right).isInfix) notAround

theorem infix_intercalate_iff (some_ : word ≠ []) (apart : ¬ Overlaps word separator)
    {parts : List (List Letter)} :
    word <:+: separator.intercalate parts ↔ ∃ part ∈ parts, word <:+: part := by
  constructor
  · intro occurs
    induction parts with
    | nil => exact absurd (List.infix_nil.mp (by simpa using occurs)) some_
    | cons first rest ih =>
        cases rest with
        | nil => exact ⟨first, List.mem_cons_self, by simpa using occurs⟩
        | cons second others =>
            rw [List.intercalate_cons_cons, List.append_assoc] at occurs
            rcases infix_around apart occurs with inside | later
            · exact ⟨first, List.mem_cons_self, inside⟩
            · obtain ⟨part, listed, within⟩ := ih later
              exact ⟨part, List.mem_cons_of_mem _ listed, within⟩
  · rintro ⟨part, listed, within⟩
    exact within.trans (infix_intercalate listed)

end Overlaps

section Words

variable [DecidableEq Letter] {word other replacement text : List Letter}

theorem infix_of_replace (some_ : word ≠ []) (letters : other ≠ []) (apart : ¬ Overlaps other replacement)
    (occurs : other <:+: replace word replacement text) : other <:+: text := by
  obtain ⟨piece, listed, within⟩ := (infix_intercalate_iff letters apart).mp occurs
  have whole : word.intercalate (pieces word 0 text) = text := intercalate_pieces some_ 0 text
  rw [← whole]
  exact within.trans (infix_intercalate listed)

theorem not_infix_replace (some_ : word ≠ []) (apart : ¬ Overlaps word replacement) :
    ¬ word <:+: replace word replacement text := by
  intro occurs
  obtain ⟨piece, listed, within⟩ := (infix_intercalate_iff some_ apart).mp occurs
  exact not_in_pieces some_ 0 text piece listed within

end Words

section Starts

/-- A word starts within a text, which is followed by another. -/
def StartsIn (word text behind : List Letter) : Prop :=
  ∃ before rest, text = before ++ rest ∧ rest ≠ [] ∧ word <+: rest ++ behind

variable {word text behind : List Letter}

theorem startsIn_nil : ¬ StartsIn word [] behind := by
  intro ⟨before, rest, whole, some_, _⟩
  exact some_ (List.append_eq_nil_iff.mp whole.symm).2

theorem startsIn_cons {letter : Letter} {text : List Letter} :
    StartsIn word (letter :: text) behind ↔ word <+: letter :: (text ++ behind) ∨ StartsIn word text behind := by
  constructor
  · intro ⟨before, rest, whole, some_, begins⟩
    cases before with
    | nil =>
        rw [List.nil_append] at whole
        rw [← whole] at begins
        exact .inl begins
    | cons first others => exact .inr ⟨others, rest, (List.cons.inj whole).2, some_, begins⟩
  · rintro (begins | ⟨before, rest, whole, some_, begins⟩)
    · exact ⟨[], letter :: text, rfl, List.cons_ne_nil _ _, begins⟩
    · exact ⟨letter :: before, rest, by rw [whole]; rfl, some_, begins⟩

theorem startsIn_append {first second : List Letter} :
    StartsIn word (first ++ second) behind ↔ StartsIn word first (second ++ behind) ∨ StartsIn word second behind := by
  induction first with
  | nil => exact (or_iff_right startsIn_nil).symm
  | cons letter rest ih => rw [List.cons_append, startsIn_cons, startsIn_cons, ih, List.append_assoc, or_assoc]

theorem not_startsIn {letter : Letter} {others : List Letter} (absent : letter ∉ text) :
    ¬ StartsIn (letter :: others) text behind := by
  intro ⟨before, rest, whole, some_, begins⟩
  cases rest with
  | nil => exact some_ rfl
  | cons first later =>
      rw [List.cons_append, List.cons_prefix_cons] at begins
      rw [whole, begins.1] at absent
      exact absent (List.mem_append_right _ List.mem_cons_self)

theorem infix_iff_startsIn (some_ : word ≠ []) : word <:+: text ↔ StartsIn word text [] := by
  constructor
  · intro ⟨before, after, whole⟩
    refine ⟨before, word ++ after, by rw [← whole, List.append_assoc], ?_, ?_⟩
    · intro empty
      exact some_ (List.append_eq_nil_iff.mp empty).1
    · rw [List.append_nil]
      exact List.prefix_append _ _
  · intro ⟨before, rest, whole, _, begins⟩
    rw [List.append_nil] at begins
    rw [whole]
    exact begins.isInfix.trans (List.suffix_append _ _).isInfix

variable [DecidableEq Letter] {replacement : List Letter}

/-- A text with the first occurrence of a word replaced, if there is one. -/
def replaceFirst (word replacement : List Letter) : List Letter → Option (List Letter)
  | [] => none
  | letter :: rest =>
      if word <+: letter :: rest then some (replacement ++ (letter :: rest).drop word.length)
      else (replaceFirst word replacement rest).map (letter :: ·)

theorem replaceFirst_append (absent : ¬ StartsIn word text behind) :
    replaceFirst word replacement (text ++ behind) = (replaceFirst word replacement behind).map (text ++ ·) := by
  induction text with
  | nil => exact Option.map_id'.symm
  | cons letter rest ih =>
      rw [startsIn_cons, not_or] at absent
      rw [List.cons_append, replaceFirst, if_neg absent.1, ih absent.2, Option.map_map]
      rfl

theorem replaceFirst_here (some_ : word ≠ []) : replaceFirst word replacement (word ++ behind) =
    some (replacement ++ behind) := by
  cases word with
  | nil => exact absurd rfl some_
  | cons letter rest =>
      rw [List.cons_append, replaceFirst, ← List.cons_append, if_pos (List.prefix_append _ _), List.drop_left]

end Starts

section Walking

variable [DecidableEq Letter] {word text behind replacement : List Letter}

theorem pieces_drop (word passed behind : List Letter) :
    pieces word passed.length (passed ++ behind) = pieces word 0 behind := by
  induction passed with
  | nil => rfl
  | cons letter rest ih => exact ih

theorem replace_here (some_ : word ≠ []) (replacement behind : List Letter) :
    replace word replacement (word ++ behind) = replacement ++ replace word replacement behind := by
  cases word with
  | nil => exact absurd rfl some_
  | cons letter rest =>
      obtain ⟨head, tail, same⟩ := pieces_cons (letter :: rest) 0 behind
      have found : letter :: rest <+: letter :: (rest ++ behind) := ⟨behind, rfl⟩
      unfold replace
      rw [List.cons_append, pieces, if_pos found, List.length_cons, Nat.add_sub_cancel, pieces_drop, same,
        List.intercalate_cons_cons, List.nil_append]

theorem replace_cons {letter : Letter} (other : ¬ word <+: letter :: text) :
    replace word replacement (letter :: text) = letter :: replace word replacement text := by
  obtain ⟨head, tail, same⟩ := pieces_cons word 0 text
  unfold replace
  rw [pieces, if_neg other, same, List.modifyHead_cons]
  cases tail with
  | nil => simp
  | cons second others =>
      rw [List.intercalate_cons_cons, List.intercalate_cons_cons, List.cons_append, List.cons_append]

theorem replace_append (absent : ¬ StartsIn word text behind) :
    replace word replacement (text ++ behind) = text ++ replace word replacement behind := by
  induction text with
  | nil => rfl
  | cons letter rest ih =>
      rw [startsIn_cons, not_or] at absent
      rw [List.cons_append, replace_cons absent.1, ih absent.2, List.cons_append]

end Walking

end Foundation.Replacement
