import Mathlib.Algebra.Ring.Int.Defs

/-! # Fallible computations, texts and fixed-width integers

A fallible computation is a sequence of steps and refusals, taken apart by what it
means for each to succeed. Texts are handled by their characters, and a signed
integer of a given width is an integer with bounds.
-/

namespace Foundation

section Fallible

universe u

/-- The check that fails with `error` when `test` holds. -/
def refuseIf {Error : Type*} (test : Prop) [Decidable test] (error : Error) : Except Error Unit :=
  if test then .error error else .ok ()

@[simp] theorem refuseIf_eq_ok {Error : Type*} {test : Prop} [Decidable test] {error : Error}
    {done : Unit} : refuseIf test error = .ok done ↔ ¬ test := by
  unfold refuseIf
  split <;> simp [*]

theorem bind_eq_ok {Error : Type*} {Value Result : Type u} {first : Except Error Value}
    {next : Value → Except Error Result} {result : Result} :
    first >>= next = .ok result ↔ ∃ value, first = .ok value ∧ next value = .ok result := by
  cases first with
  | error _ => simp [bind, Except.bind]
  | ok _ => simp [bind, Except.bind]

theorem map_eq_ok {Error : Type*} {Value Result : Type*} {computed : Except Error Value}
    {image : Value → Result} {result : Result} :
    computed.map image = .ok result ↔ ∃ value, computed = .ok value ∧ image value = result := by
  cases computed with
  | error _ => simp [Except.map]
  | ok _ => simp [Except.map]

end Fallible

/-- The characters with the Unicode property White_Space. -/
def isSpace (c : Char) : Bool :=
  c ∈ ['\t', '\n', '\x0b', '\x0c', '\r', ' ', '\u0085', '\u00a0', '\u1680', '\u2028', '\u2029',
    '\u202f', '\u205f', '\u3000'] || ('\u2000' ≤ c && c ≤ '\u200a')

/-- The text without the blanks around it. -/
def trimSpace (text : String) : String :=
  String.ofList (((text.toList.dropWhile isSpace).reverse.dropWhile isSpace).reverse)

/-- Whether `n` fits a signed integer of `bits + 1` bits. -/
def fitsSigned (bits : ℕ) (n : ℤ) : Bool := -(2 ^ bits : ℤ) ≤ n ∧ n < 2 ^ bits

/-- The nearest value of a signed integer of `bits + 1` bits. -/
def clampSigned (bits : ℕ) (n : ℤ) : ℤ :=
  if n < -(2 ^ bits : ℤ) then -(2 ^ bits : ℤ) else if 2 ^ bits ≤ n then 2 ^ bits - 1 else n

/-- The number a nonempty row of decimal digits denotes. -/
def digitsValue (digits : List Char) : Option ℕ :=
  if digits ≠ [] ∧ digits.all Char.isDigit then
    some (digits.foldl (fun value digit => 10 * value + (digit.toNat - '0'.toNat)) 0)
  else
    none

/-- The integer a decimal text with an optional sign denotes. -/
def decimalValue (text : String) : Option ℤ :=
  match text.toList with
  | '-' :: digits => (digitsValue digits).map fun value => -(value : ℤ)
  | '+' :: digits => (digitsValue digits).map fun value => (value : ℤ)
  | digits => (digitsValue digits).map fun value => (value : ℤ)

end Foundation
