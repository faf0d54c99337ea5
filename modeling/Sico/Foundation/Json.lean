import Sico.Foundation.Basic

/-! # JSON documents

Documents are trees. A number keeps its literal unless it is an integer, since
typed decoders accept integer literals only and the untyped ones keep the text.
Object members stay in document order with repetitions, and it is up to a
decoder which of several members of one name it reads.
-/

namespace Foundation

/-- A JSON document. -/
inductive Json where
  | null
  | bool (value : Bool)
  | int (value : ℤ)
  | float (literal : String)
  | str (value : String)
  | arr (items : List Json)
  | obj (members : List (String × Json))
  deriving Repr, Inhabited

/-- The text handed to a decoder: nothing but blanks, no leading document, or a
leading document. A streaming decoder reads the first document and leaves the
rest, which `trailing` says there is. -/
inductive RawJson where
  | blank
  | malformed
  | doc (value : Json) (trailing : Bool)
  deriving Repr, Inhabited

/-- The letter that a field name of a typed decoder is compared by. The long s
and the Kelvin sign are the two characters outside ASCII that fold into it. -/
def foldRune (c : Char) : Char :=
  if c = 'ſ' then 's' else if c = 'K' then 'k' else c.toLower

/-- The field a member name selects: typed decoders ignore case. -/
def fieldName (name : String) : String := String.ofList (name.toList.map foldRune)

namespace Json

/-- Decoding into a text: `null` leaves it as it is. -/
def intoText (current : String) : Json → Option String
  | .null => some current
  | .str value => some value
  | _ => none

/-- Decoding into a signed integer of `bits + 1` bits: `null` leaves it as it
is, a fraction or an exponent and a value out of range are refused. -/
def intoSigned (bits : ℕ) (current : ℤ) : Json → Option ℤ
  | .null => some current
  | .int value => if fitsSigned bits value then some value else none
  | _ => none

/-- Decoding into a pointer to a signed 64-bit integer: `null` is the nil pointer. -/
def intoPointer (_ : Option ℤ) : Json → Option (Option ℤ)
  | .null => some none
  | .int value => if fitsSigned 63 value then some (some value) else none
  | _ => none

/-- A field of a typed decoder: every member it reads is decoded into it in turn, and
one that does not fit fails the document. -/
def readField {Value : Type*} (into : Value → Json → Option Value) (zero : Value) (name : String)
    (members : List (String × Json)) : Option Value :=
  ((members.filter fun member => fieldName member.1 = name).map Prod.snd).foldlM into zero

theorem readField_absent {Value : Type*} {members : List (String × Json)} {name : String}
    (absent : ∀ member ∈ members, fieldName member.1 ≠ name) (into : Value → Json → Option Value) (zero : Value) :
    readField into zero name members = some zero := by
  have none_ : members.filter (fun member => fieldName member.1 = name) = [] :=
    List.filter_eq_nil_iff.mpr fun member inside same => absent member inside (of_decide_eq_true same)
  rw [readField, none_]
  rfl

theorem readField_eq {Value : Type*} {members : List (String × Json)}
    (distinct : (members.map fun member => fieldName member.1).Nodup) (into : Value → Json → Option Value)
    (zero : Value) {key name : String} {value : Json} (named : fieldName key = name) (inside : (key, value) ∈ members) :
    readField into zero name members = into zero value := by
  have read : members.filter (fun member => fieldName member.1 = name) = [(key, value)] := by
    induction members with
    | nil => cases inside
    | cons first rest ih =>
        rw [List.map_cons, List.nodup_cons, List.mem_map] at distinct
        rcases List.mem_cons.mp inside with rfl | later
        · have absent : rest.filter (fun member => fieldName member.1 = name) = [] := by
            refine List.filter_eq_nil_iff.mpr fun member here same => distinct.1 ⟨member, here, ?_⟩
            rw [of_decide_eq_true same, named]
          rw [List.filter_cons, if_pos (decide_eq_true named), absent]
        · have other : fieldName first.1 ≠ name := fun same =>
            distinct.1 ⟨(key, value), later, named.trans same.symm⟩
          rw [List.filter_cons_of_neg (by simpa using other)]
          exact ih distinct.2 later
  rw [readField, read]
  exact bind_pure (into zero value)

mutual

/-- Whether two documents are the same. -/
def same : Json → Json → Bool
  | .null, .null => true
  | .bool first, .bool second => first = second
  | .int first, .int second => first = second
  | .float first, .float second => first = second
  | .str first, .str second => first = second
  | .arr first, .arr second => sameItems first second
  | .obj first, .obj second => sameMembers first second
  | _, _ => false

def sameItems : List Json → List Json → Bool
  | [], [] => true
  | first :: others, second :: rest => same first second && sameItems others rest
  | _, _ => false

def sameMembers : List (String × Json) → List (String × Json) → Bool
  | [], [] => true
  | (name, first) :: others, (title, second) :: rest =>
      name = title && same first second && sameMembers others rest
  | _, _ => false

end

mutual

theorem same_iff : (first second : Json) → (same first second = true ↔ first = second)
  | .null, second => by cases second <;> simp [same]
  | .bool _, second => by cases second <;> simp [same]
  | .int _, second => by cases second <;> simp [same]
  | .float _, second => by cases second <;> simp [same]
  | .str _, second => by cases second <;> simp [same]
  | .arr items, second => by
      cases second with
      | arr others => rw [same, sameItems_iff items others, Json.arr.injEq]
      | _ => simp [same]
  | .obj members, second => by
      cases second with
      | obj others => rw [same, sameMembers_iff members others, Json.obj.injEq]
      | _ => simp [same]

theorem sameItems_iff : (first second : List Json) → (sameItems first second = true ↔ first = second)
  | [], second => by cases second <;> simp [sameItems]
  | item :: items, second => by
      cases second with
      | nil => simp [sameItems]
      | cons other others =>
          rw [sameItems, Bool.and_eq_true, same_iff item other, sameItems_iff items others, List.cons.injEq]

theorem sameMembers_iff :
    (first second : List (String × Json)) → (sameMembers first second = true ↔ first = second)
  | [], second => by cases second <;> simp [sameMembers]
  | (name, value) :: members, second => by
      cases second with
      | nil => simp [sameMembers]
      | cons other others =>
          obtain ⟨title, held⟩ := other
          rw [sameMembers, Bool.and_eq_true, Bool.and_eq_true, decide_eq_true_eq, same_iff value held,
            sameMembers_iff members others, List.cons.injEq, Prod.mk.injEq]

end

instance : DecidableEq Json := fun first second => decidable_of_iff (same first second = true) (same_iff first second)

end Json

end Foundation
