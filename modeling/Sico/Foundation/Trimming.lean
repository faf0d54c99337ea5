import Mathlib.Data.List.DropRight
import Mathlib.Data.List.Infix

/-! # Lists without blanks at their ends

What is left of a list when the blanks in front of it and behind it are dropped, and occurrences across a separator.
-/

namespace Foundation

variable {Letter : Type*}

section Trimming

variable (blank : Letter → Bool) {letters : List Letter} {letter : Letter}

/-- The letters between the blanks at both ends. -/
def trim (letters : List Letter) : List Letter := (letters.dropWhile blank).rdropWhile blank

theorem head?_dropWhile (letters : List Letter) (found : (letters.dropWhile blank).head? = some letter) :
    blank letter = false := by
  have solid := List.head?_dropWhile_not blank letters
  rw [found] at solid
  simpa using solid

theorem getLast?_trim (ends : (trim blank letters).getLast? = some letter) : blank letter = false := by
  have filled : trim blank letters ≠ [] := by
    intro empty
    rw [empty] at ends
    cases ends
  have solid := List.rdropWhile_last_not blank _ filled
  rw [List.getLast?_eq_some_getLast filled] at ends
  rw [← Option.some.inj ends]
  exact Bool.eq_false_iff.mpr solid

theorem head?_trim (letters : List Letter) (starts : (trim blank letters).head? = some letter) :
    blank letter = false := by
  obtain ⟨behind, whole⟩ := List.rdropWhile_prefix blank (letters.dropWhile blank)
  refine head?_dropWhile blank letters ?_
  obtain ⟨rest, kept⟩ := List.head?_eq_some_iff.mp starts
  unfold trim at kept
  rw [← whole, kept]
  rfl

theorem trim_eq_self (starts : ∀ letter, letters.head? = some letter → blank letter = false)
    (ends : ∀ letter, letters.getLast? = some letter → blank letter = false) : trim blank letters = letters := by
  have front : letters.dropWhile blank = letters := by
    cases letters with
    | nil => rfl
    | cons first rest => exact List.dropWhile_cons_of_neg (by rw [starts first rfl]; exact Bool.false_ne_true)
  rw [trim, front, List.rdropWhile_eq_self_iff]
  intro filled
  rw [ends _ (List.getLast?_eq_some_getLast filled)]
  exact Bool.false_ne_true

theorem trim_isInfix (letters : List Letter) : trim blank letters <:+: letters :=
  (List.rdropWhile_prefix blank _).isInfix.trans (List.dropWhile_suffix blank).isInfix

theorem mem_trim (listed : letter ∈ letters) (solid : blank letter = false) : letter ∈ trim blank letters := by
  have later : letter ∈ letters.dropWhile blank := by
    rw [← List.takeWhile_append_dropWhile (p := blank) (l := letters), List.mem_append] at listed
    rcases listed with front | later
    · rw [List.mem_takeWhile_imp front] at solid
      cases solid
    · exact later
  rw [← List.rdropWhile_append_rtakeWhile (p := blank) (l := letters.dropWhile blank), List.mem_append] at later
  rcases later with kept | behind
  · exact kept
  · rw [List.mem_rtakeWhile_imp behind] at solid
    cases solid

end Trimming

section Separators

theorem infix_append_cons {needle : List Letter} {separator : Letter} (apart : separator ∉ needle)
    (first second : List Letter) :
    needle <:+: first ++ separator :: second ↔ needle <:+: first ∨ needle <:+: second := by
  constructor
  · intro occurs
    induction first with
    | nil =>
        rcases List.infix_cons_iff.mp occurs with starts | later
        · cases needle with
          | nil => exact .inl List.nil_infix
          | cons head rest =>
              rw [List.cons_prefix_cons] at starts
              exact absurd (starts.1 ▸ List.mem_cons_self) apart
        · exact .inr later
    | cons head rest ih =>
        rcases List.infix_cons_iff.mp occurs with starts | later
        · left
          refine List.IsPrefix.isInfix (List.prefix_of_prefix_length_le starts ⟨separator :: second, rfl⟩ ?_)
          by_contra long
          obtain ⟨behind, whole⟩ := starts
          have reads : (needle ++ behind)[(head :: rest).length]? = some separator := by
            have text : needle ++ behind = (head :: rest) ++ separator :: second := whole
            rw [text, List.getElem?_append_right (Nat.le_refl _), Nat.sub_self]
            rfl
          rw [List.getElem?_append_left (Nat.not_le.mp long)] at reads
          exact apart (List.mem_of_getElem? reads)
        · rcases ih later with front | behind
          · exact .inl (List.infix_cons front)
          · exact .inr behind
  · rintro (front | behind)
    · exact front.trans (List.prefix_append _ _).isInfix
    · exact behind.trans (List.suffix_cons _ _).isInfix |>.trans (List.suffix_append _ _).isInfix

end Separators

end Foundation
