import Mathlib.Data.List.Basic

/-! # Bytes of texts

A text is encoded by the bytes of its letters in UTF-8: texts with the same bytes are the same, and only the letter
NUL has the byte zero. Bytes are told by two hexadecimal digits each.

A hash function has collisions, if it has values of one length: what may be assumed of one is that the messages at
hand have none.
-/

namespace Foundation

section Encoding

def encoded (text : List Char) : List UInt8 := text.flatMap String.utf8EncodeChar

theorem encoded_injective {first second : List Char} (same : encoded first = encoded second) : first = second := by
  have bytes : (String.ofList first).toByteArray = (String.ofList second).toByteArray := by
    rw [String.toByteArray_ofList, String.toByteArray_ofList, List.utf8Encode, List.utf8Encode]
    exact congrArg List.toByteArray same
  exact String.ofList_injective (String.toByteArray_inj.mp bytes)

/-- The text of some bytes, if they are those of one. -/
def decoded (bytes : List UInt8) : Option String := String.fromUTF8? bytes.toByteArray

theorem decoded_encoded (text : String) : decoded (encoded text.toList) = some text := by
  have bytes : (encoded text.toList).toByteArray = text.toByteArray := by
    rw [encoded, ← List.utf8Encode, ← String.toByteArray_ofList, String.ofList_toList]
  rw [decoded, bytes]
  exact dif_pos text.isValidUTF8

theorem toNat_ofNat_byte {byte : ℕ} (small : byte < 256) : (UInt8.ofNat byte).toNat = byte :=
  UInt8.toNat_ofNat_of_lt small

theorem zero_notMem_utf8EncodeChar {letter : Char} (solid : letter ≠ '\x00') : 0 ∉ String.utf8EncodeChar letter := by
  have positive : 0 < letter.val.toNat := by
    rw [Nat.pos_iff_ne_zero]
    intro zero
    exact solid (Char.ext (UInt32.toNat_inj.mp zero))
  have byte : ∀ {number : ℕ}, 0 < number → number < 256 → (0 : UInt8) ≠ UInt8.ofNat number := by
    intro number some_ small zero
    have none_ := congrArg UInt8.toNat zero
    rw [toNat_ofNat_byte small] at none_
    exact absurd none_ (Nat.ne_of_lt some_)
  unfold String.utf8EncodeChar
  dsimp only
  intro listed
  split at listed
  · next one =>
      exact byte positive (by omega) (List.mem_singleton.mp listed)
  split at listed
  · simp only [List.mem_cons, List.not_mem_nil, or_false] at listed
    rcases listed with zero | zero
    · exact byte (by omega) (by omega) zero
    · exact byte (by omega) (by omega) zero
  split at listed
  · simp only [List.mem_cons, List.not_mem_nil, or_false] at listed
    rcases listed with zero | zero | zero
    · exact byte (by omega) (by omega) zero
    · exact byte (by omega) (by omega) zero
    · exact byte (by omega) (by omega) zero
  · simp only [List.mem_cons, List.not_mem_nil, or_false] at listed
    rcases listed with zero | zero | zero | zero
    · exact byte (by omega) (by omega) zero
    · exact byte (by omega) (by omega) zero
    · exact byte (by omega) (by omega) zero
    · exact byte (by omega) (by omega) zero

theorem zero_notMem_encoded {text : List Char} (solid : '\x00' ∉ text) : 0 ∉ encoded text := by
  intro listed
  obtain ⟨letter, inside, zero⟩ := List.mem_flatMap.mp listed
  exact zero_notMem_utf8EncodeChar (fun same => solid (same ▸ inside)) zero

end Encoding

section Digests

/-- The hexadecimal text of some bytes. -/
def hexdigest (bytes : List UInt8) : String :=
  String.ofList (bytes.flatMap fun byte => [Nat.digitChar (byte.toNat / 16), Nat.digitChar (byte.toNat % 16)])

theorem digitChar_injective {first second : ℕ} (small : first < 16) (alsoSmall : second < 16)
    (same : Nat.digitChar first = Nat.digitChar second) : first = second := by
  have each : ∀ first < 16, ∀ second < 16, Nat.digitChar first = Nat.digitChar second → first = second := by decide
  exact each first small second alsoSmall same

theorem hexdigest_injective {first second : List UInt8} (same : hexdigest first = hexdigest second) :
    first = second := by
  have letters := String.ofList_injective same
  induction first generalizing second with
  | nil =>
      cases second with
      | nil => rfl
      | cons byte rest => cases letters
  | cons byte rest ih =>
      cases second with
      | nil => cases letters
      | cons other others =>
          simp only [List.flatMap_cons, List.cons_append, List.nil_append, List.cons.injEq] at letters
          obtain ⟨high, low, behind⟩ := letters
          have bound := byte.toNat_lt
          have alsoBound := other.toNat_lt
          have highs := digitChar_injective (by omega) (by omega) high
          have lows := digitChar_injective (by omega) (by omega) low
          have equal : byte = other := UInt8.toNat_inj.mp (by omega)
          rw [equal, ih (congrArg String.ofList behind) behind]

/-- No two of some messages have the same digest. -/
def NoCollisions (hash : List UInt8 → List UInt8) (messages : List (List UInt8)) : Prop :=
  ∀ first ∈ messages, ∀ second ∈ messages, hash first = hash second → first = second

instance (hash : List UInt8 → List UInt8) (messages : List (List UInt8)) : Decidable (NoCollisions hash messages) :=
  inferInstanceAs (Decidable (∀ first ∈ messages, ∀ second ∈ messages, hash first = hash second → first = second))

end Digests

end Foundation
