import Mathlib.Data.List.Basic
import Mathlib.Data.Int.Notation

/-! # Numerals in texts

A number is told by its numeral. A numeral has no sign within and ends with a digit, so that
it can be told from what stands before it in a text, and a separator that occurs in neither of
two texts tells what stands before it from what stands behind it.
-/

namespace Foundation

theorem toString_nat_injective {first second : ℕ} (same : toString first = toString second) :
    first = second := by
  have digits := congrArg (fun text => Nat.ofDigitChars 10 text.toList 0) same
  simpa [Nat.toString_eq_repr, Nat.toList_repr] using digits

theorem notMem_toString_nat {c : Char} (other : c.isDigit = false) (number : ℕ) : c ∉ (toString number).toList := by
  intro listed
  rw [Nat.toString_eq_repr, Nat.toList_repr] at listed
  have digit := Nat.isDigit_of_mem_toDigits (by decide) (by decide) listed
  rw [other] at digit
  cases digit

theorem minus_notMem_toString (number : ℕ) : '-' ∉ (toString number).toList := notMem_toString_nat rfl number

theorem head?_toString_nat {number : ℕ} (positive : 0 < number) : (toString number).toList.head? ≠ some '0' := by
  rw [Nat.toString_eq_repr, Nat.toList_repr]
  induction number using Nat.strongRecOn with
  | ind number ih =>
      rw [Nat.toDigits_eq_if (by decide)]
      split
      · rename_i small
        have each : ∀ digit < 10, 0 < digit → [Nat.digitChar digit].head? ≠ some '0' := by decide
        exact each number small positive
      · rename_i large
        have shorter := ih (number / 10) (by omega) (by omega)
        rwa [List.head?_append_of_ne_nil _ Nat.toDigits_ne_nil]

theorem toString_int_eq (number : ℤ) :
    (toString number).toList =
      if 0 ≤ number then (toString number.toNat).toList else '-' :: (toString (-number).toNat).toList := by
  rw [Int.toString_eq_repr, Int.repr_eq_if]
  split
  · rfl
  · rw [String.toList_append]
    rfl

theorem notMem_toString_int {c : Char} (other : c.isDigit = false) (unsigned : c ≠ '-') (number : ℤ) :
    c ∉ (toString number).toList := by
  rw [toString_int_eq]
  split
  · exact notMem_toString_nat other _
  · intro listed
    rcases List.mem_cons.mp listed with sign | digit
    · exact unsigned sign
    · exact notMem_toString_nat other _ digit

theorem toString_int_injective {first second : ℤ} (same : toString first = toString second) :
    first = second := by
  have texts := congrArg String.toList same
  rw [toString_int_eq, toString_int_eq] at texts
  split at texts <;> split at texts
  · have := toString_nat_injective (String.toList_inj.mp texts)
    omega
  · exact absurd (texts ▸ List.mem_cons_self) (minus_notMem_toString first.toNat)
  · exact absurd (texts ▸ List.mem_cons_self) (minus_notMem_toString second.toNat)
  · have := toString_nat_injective (String.toList_inj.mp (List.cons.inj texts).2)
    omega

theorem getLast?_toString_nat (number : ℕ) :
    ∃ digit, (toString number).toList.getLast? = some digit ∧ digit.isDigit := by
  rw [Nat.toString_eq_repr, Nat.toList_repr]
  cases last : (Nat.toDigits 10 number).getLast? with
  | none => exact absurd (List.getLast?_eq_none_iff.mp last) Nat.toDigits_ne_nil
  | some digit =>
      exact ⟨digit, rfl, Nat.isDigit_of_mem_toDigits (by decide) (by decide)
        (List.mem_of_getLast? last)⟩

theorem getLast?_toString_int (number : ℤ) :
    ∃ digit, (toString number).toList.getLast? = some digit ∧ digit.isDigit := by
  rw [toString_int_eq]
  split
  · exact getLast?_toString_nat number.toNat
  · obtain ⟨digit, last, isDigit⟩ := getLast?_toString_nat (-number).toNat
    refine ⟨digit, ?_, isDigit⟩
    rw [List.getLast?_cons, last]
    rfl

theorem append_cons_inj {Letter : Type*} {separator : Letter} {first second rest other : List Letter}
    (before : separator ∉ first) (alsoBefore : separator ∉ second)
    (same : first ++ separator :: rest = second ++ separator :: other) :
    first = second ∧ rest = other := by
  induction first generalizing second with
  | nil =>
      cases second with
      | nil => exact ⟨rfl, (List.cons.inj same).2⟩
      | cons head tail => exact absurd ((List.cons.inj same).1 ▸ List.mem_cons_self) alsoBefore
  | cons char tail ih =>
      cases second with
      | nil => exact absurd ((List.cons.inj same).1 ▸ List.mem_cons_self) before
      | cons head others =>
          obtain ⟨rfl, behind⟩ := List.cons.inj same
          obtain ⟨rfl, equal⟩ := ih (fun member => before (List.mem_cons_of_mem _ member))
            (fun member => alsoBefore (List.mem_cons_of_mem _ member)) behind
          exact ⟨rfl, equal⟩

end Foundation
