import Mathlib.Data.List.DropRight

/-! # Base64 with the letters of file names

Three bytes are written as four letters of six bits each, and what is missing in the last three is marked by
`=`. A reader goes through a text with what is left over from the letter before; it passes over characters that
are no letters, and reads no further than the marks at the end. The marks of a written text may be taken off:
the length of what is left tells how many there were.
-/

namespace Foundation.Base64

section Letters

def alphabet : List Char := "ABCDEFGHIJKLMNOPQRSTUVWXYZabcdefghijklmnopqrstuvwxyz0123456789-_".toList

def letter (sextet : ℕ) : Char := alphabet.getD sextet 'A'

/-- The six bits of a letter, of this alphabet or of the common one. -/
def sextet (char : Char) : Option ℕ :=
  if char = '+' then some 62 else if char = '/' then some 63 else alphabet.idxOf? char

theorem letter_sound :
    ∀ number < 64, sextet (letter number) = some number ∧ letter number ≠ '=' ∧ (letter number).toNat < 128 := by
  decide +kernel

theorem sextet_letter {number : ℕ} (small : number < 64) : sextet (letter number) = some number :=
  (letter_sound number small).1

theorem letter_ne {number : ℕ} (small : number < 64) : letter number ≠ '=' := (letter_sound number small).2.1

theorem letter_ascii {number : ℕ} (small : number < 64) : (letter number).toNat < 128 :=
  (letter_sound number small).2.2

end Letters

section Writing

def encode : List ℕ → List Char
  | [] => []
  | [first] => [letter (first / 4), letter (first % 4 * 16), '=', '=']
  | [first, second] =>
      [letter (first / 4), letter (first % 4 * 16 + second / 16), letter (second % 16 * 4), '=']
  | first :: second :: third :: rest =>
      letter (first / 4) :: letter (first % 4 * 16 + second / 16) :: letter (second % 16 * 4 + third / 64) ::
        letter (third % 64) :: encode rest

/-- A text without the marks at its end. -/
def unpadded (text : List Char) : List Char := text.rdropWhile (· = '=')

/-- A text with the marks that its length asks for. -/
def padded (text : List Char) : List Char := text ++ List.replicate ((4 - text.length % 4) % 4) '='

end Writing

section Reading

/-- What a reader tells of a text: `position` counts the letters of the group at hand, `left` are the bits that
are left over, and `pads` counts the marks that were read. -/
def decodeFrom (position left pads : ℕ) : List Char → Option (List ℕ)
  | [] => if position = 0 then some [] else none
  | char :: rest =>
      if char = '=' then
        if position < 2 then decodeFrom position left pads rest
        else if 4 ≤ position + (pads + 1) then some []
        else decodeFrom position left (pads + 1) rest
      else
        match sextet char with
        | none => decodeFrom position left pads rest
        | some bits =>
            match position with
            | 0 => decodeFrom 1 bits 0 rest
            | 1 => (decodeFrom 2 (bits % 16) 0 rest).map fun later => (left * 4 + bits / 16) :: later
            | 2 => (decodeFrom 3 (bits % 4) 0 rest).map fun later => (left * 16 + bits / 4) :: later
            | _ => (decodeFrom 0 0 0 rest).map fun later => (left * 64 + bits) :: later

/-- The bytes of a text, which has only ASCII characters. -/
def decode (text : List Char) : Option (List ℕ) :=
  if text.all fun char => char.toNat < 128 then decodeFrom 0 0 0 text else none

end Reading

section RoundTrip

theorem decodeFrom_letter_zero {bits : ℕ} (small : bits < 64) (left pads : ℕ) (rest : List Char) :
    decodeFrom 0 left pads (letter bits :: rest) = decodeFrom 1 bits 0 rest := by
  rw [decodeFrom, if_neg (letter_ne small), sextet_letter small]
  rfl

theorem decodeFrom_letter_one {bits : ℕ} (small : bits < 64) (left pads : ℕ) (rest : List Char) :
    decodeFrom 1 left pads (letter bits :: rest) =
      (decodeFrom 2 (bits % 16) 0 rest).map fun later => (left * 4 + bits / 16) :: later := by
  rw [decodeFrom, if_neg (letter_ne small), sextet_letter small]
  rfl

theorem decodeFrom_letter_two {bits : ℕ} (small : bits < 64) (left pads : ℕ) (rest : List Char) :
    decodeFrom 2 left pads (letter bits :: rest) =
      (decodeFrom 3 (bits % 4) 0 rest).map fun later => (left * 16 + bits / 4) :: later := by
  rw [decodeFrom, if_neg (letter_ne small), sextet_letter small]
  rfl

theorem decodeFrom_letter_three {bits : ℕ} (small : bits < 64) (left pads : ℕ) (rest : List Char) :
    decodeFrom 3 left pads (letter bits :: rest) = (decodeFrom 0 0 0 rest).map fun later => (left * 64 + bits) :: later := by
  rw [decodeFrom, if_neg (letter_ne small), sextet_letter small]
  rfl

theorem decodeFrom_encode {bytes : List ℕ} (small : ∀ byte ∈ bytes, byte < 256) (left pads : ℕ) :
    decodeFrom 0 left pads (encode bytes) = some bytes := by
  induction bytes using encode.induct generalizing left pads with
  | case1 => rfl
  | case2 first =>
      have one := small first (by simp)
      rw [encode, decodeFrom_letter_zero (by omega), decodeFrom_letter_one (by omega)]
      have whole : first / 4 * 4 + first % 4 * 16 / 16 = first := by omega
      simp only [decodeFrom, if_true, whole]
      rfl
  | case3 first second =>
      have one := small first (by simp)
      have two := small second (by simp)
      rw [encode, decodeFrom_letter_zero (by omega), decodeFrom_letter_one (by omega),
        decodeFrom_letter_two (by omega)]
      have whole : first / 4 * 4 + (first % 4 * 16 + second / 16) / 16 = first := by omega
      have alsoWhole : (first % 4 * 16 + second / 16) % 16 * 16 + second % 16 * 4 / 4 = second := by omega
      simp only [decodeFrom, if_true, whole, alsoWhole]
      rfl
  | case4 first second third rest ih =>
      have one := small first (by simp)
      have two := small second (by simp)
      have three := small third (by simp)
      rw [encode, decodeFrom_letter_zero (by omega), decodeFrom_letter_one (by omega),
        decodeFrom_letter_two (by omega), decodeFrom_letter_three (by omega), ih]
      · have whole : first / 4 * 4 + (first % 4 * 16 + second / 16) / 16 = first := by omega
        have alsoWhole : (first % 4 * 16 + second / 16) % 16 * 16 + (second % 16 * 4 + third / 64) / 4 = second := by
          omega
        have last : (second % 16 * 4 + third / 64) % 4 * 64 + third % 64 = third := by omega
        rw [whole, alsoWhole, last]
        rfl
      · exact fun byte listed => small byte (by simp [listed])

theorem encode_eq {bytes : List ℕ} (small : ∀ byte ∈ bytes, byte < 256) :
    ∃ letters count, encode bytes = letters ++ List.replicate count '=' ∧
      (∀ char ∈ letters, char ≠ '=' ∧ char.toNat < 128) ∧ (letters.length + count) % 4 = 0 ∧ count < 4 := by
  have isLetter : ∀ {bits}, bits < 64 → letter bits ≠ '=' ∧ (letter bits).toNat < 128 :=
    fun few => ⟨letter_ne few, letter_ascii few⟩
  induction bytes using encode.induct with
  | case1 => exact ⟨[], 0, rfl, by simp, by simp, by omega⟩
  | case2 first =>
      have one := small first (by simp)
      refine ⟨[letter (first / 4), letter (first % 4 * 16)], 2, rfl, ?_, by simp, by omega⟩
      simp only [List.forall_mem_cons, List.not_mem_nil, false_implies, implies_true, and_true]
      exact ⟨isLetter (by omega), isLetter (by omega)⟩
  | case3 first second =>
      have one := small first (by simp)
      have two := small second (by simp)
      refine ⟨[letter (first / 4), letter (first % 4 * 16 + second / 16), letter (second % 16 * 4)], 1, rfl, ?_,
        by simp, by omega⟩
      simp only [List.forall_mem_cons, List.not_mem_nil, false_implies, implies_true, and_true]
      exact ⟨isLetter (by omega), isLetter (by omega), isLetter (by omega)⟩
  | case4 first second third rest ih =>
      have one := small first (by simp)
      have two := small second (by simp)
      have three := small third (by simp)
      obtain ⟨letters, count, same, each, total, few⟩ := ih fun byte listed => small byte (by simp [listed])
      refine ⟨_ :: _ :: _ :: _ :: letters, count, by rw [encode, same]; rfl, ?_, ?_, few⟩
      · simp only [List.forall_mem_cons]
        exact ⟨isLetter (by omega), isLetter (by omega), isLetter (by omega), isLetter (by omega), each⟩
      · simp only [List.length_cons]
        omega

theorem unpadded_append {letters : List Char} (each : ∀ char ∈ letters, char ≠ '=') (count : ℕ) :
    unpadded (letters ++ List.replicate count '=') = letters := by
  induction count with
  | zero =>
      rw [List.replicate_zero, List.append_nil, unpadded, List.rdropWhile_eq_self_iff]
      intro some_ marked
      exact each _ (List.getLast_mem some_) (of_decide_eq_true marked)
  | succ count ih =>
      rw [List.replicate_succ', ← List.append_assoc, unpadded, List.rdropWhile_concat_pos _ _ _ (by simp)]
      exact ih

theorem padded_unpadded_encode {bytes : List ℕ} (small : ∀ byte ∈ bytes, byte < 256) :
    padded (unpadded (encode bytes)) = encode bytes := by
  obtain ⟨letters, count, same, each, total, few⟩ := encode_eq small
  rw [same, unpadded_append (fun char listed => (each char listed).1), padded]
  congr 2
  omega

theorem encode_ascii {bytes : List ℕ} (small : ∀ byte ∈ bytes, byte < 256) :
    ∀ char ∈ encode bytes, char.toNat < 128 := by
  obtain ⟨letters, count, same, each, -, -⟩ := encode_eq small
  intro char listed
  rw [same] at listed
  rcases List.mem_append.mp listed with inside | mark
  · exact (each char inside).2
  · rw [List.eq_of_mem_replicate mark]
    decide

theorem decode_padded_unpadded {bytes : List ℕ} (small : ∀ byte ∈ bytes, byte < 256) :
    decode (padded (unpadded (encode bytes))) = some bytes := by
  rw [padded_unpadded_encode small, decode, if_pos, decodeFrom_encode small]
  rw [List.all_eq_true]
  exact fun char listed => decide_eq_true (encode_ascii small char listed)

end RoundTrip

end Foundation.Base64
