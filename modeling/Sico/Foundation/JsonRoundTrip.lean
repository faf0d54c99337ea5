import Sico.Foundation.JsonText

/-! # Documents and their texts

What is written for a document is read as that document (`Foundation.Json.loads_dumps`), and it is one
line (`Foundation.Json.isPrintable_dumps`), where floating-point numbers are known by their texts and
members have distinct names.
-/

namespace Foundation.Json

section RoundTrip

variable (floatText : String → String)

/-- A text that floating-point numbers are known by. -/
def IsFloatText (literal : String) : Prop :=
  literal ∈ ["NaN", "Infinity", "-Infinity"] ∨ (isFractional literal.toList ∧ floatText literal = literal)

mutual

/-- A document whose floating-point numbers are known by their texts and whose members have distinct names. -/
def Proper : Json → Prop
  | .float literal => IsFloatText floatText literal
  | .arr items => ProperItems items
  | .obj members => (members.map Prod.fst).Nodup ∧ ProperMembers members
  | _ => True

def ProperItems : List Json → Prop
  | [] => True
  | item :: rest => Proper item ∧ ProperItems rest

def ProperMembers : List (String × Json) → Prop
  | [] => True
  | (_, value) :: rest => Proper value ∧ ProperMembers rest

end

variable {floatText}

theorem properMembers_iff {members : List (String × Json)} :
    ProperMembers floatText members ↔ ∀ member ∈ members, Proper floatText member.2 := by
  induction members with
  | nil => simp [ProperMembers]
  | cons member rest ih =>
      obtain ⟨name, value⟩ := member
      rw [ProperMembers, ih, List.forall_mem_cons]

theorem properItems_iff {items : List Json} :
    ProperItems floatText items ↔ ∀ item ∈ items, Proper floatText item := by
  induction items with
  | nil => simp [ProperItems]
  | cons item rest ih => rw [ProperItems, ih, List.forall_mem_cons]

theorem properItems_texts (texts : List String) : ProperItems floatText (texts.map .str) := by
  rw [properItems_iff, List.forall_mem_map]
  intro text _
  trivial

theorem put_of_new {members : List (String × Json)} {name : String} (value : Json)
    (isNew : name ∉ members.map Prod.fst) : Members.put members name value = members ++ [(name, value)] := by
  induction members with
  | nil => rfl
  | cons member rest ih =>
      rw [List.map_cons, List.mem_cons, not_or] at isNew
      rw [Members.put, if_neg (Ne.symm isNew.1), ih isNew.2, List.cons_append]

theorem update_of_distinct {first second : List (String × Json)} (distinct : ((first ++ second).map Prod.fst).Nodup) :
    Members.update first second = first ++ second := by
  unfold Members.update
  induction second generalizing first with
  | nil => exact (List.append_nil first).symm
  | cons member rest ih =>
      have isNew : member.1 ∉ first.map Prod.fst := by
        rw [List.map_append, List.map_cons] at distinct
        intro listed
        exact (List.nodup_append.mp distinct).2.2 _ listed _ List.mem_cons_self rfl
      rw [List.foldl_cons, put_of_new member.2 isNew, ih (by simpa using distinct), List.append_assoc]
      rfl

/-- What follows a number does not go on with it. -/
def Stops (rest : List Char) : Prop := ∀ letter ∈ rest.head?, isNumberLetter letter = false

theorem dumps_float_cases {literal : String} (known : IsFloatText floatText literal) {rest : List Char}
    (stops : Stops rest) : scalar floatText (literal.toList ++ rest) = some (.float literal, rest) := by
  rcases known with word | ⟨fractional, same⟩
  · have either : literal = "NaN" ∨ literal = "Infinity" ∨ literal = "-Infinity" := by simpa using word
    rcases either with rfl | rfl | rfl <;> rfl
  · rw [scalar_fractional fractional stops, String.ofList_toList, same]

/-- The first letter of a document is no blank, and ends no list. -/
def StartsDocument (text : List Char) : Prop :=
  ∃ letter rest, text = letter :: rest ∧ isSpacing letter = false ∧ letter ≠ ']'

theorem startsDocument_of_number {token : List Char} (starts : StartsNumber token) : StartsDocument token := by
  obtain ⟨digit, rest, isDigit, rfl | rfl⟩ := starts.cases
  · refine ⟨digit, rest, rfl, ?_, ne_of_isDigit isDigit rfl⟩
    unfold isSpacing
    have apart (letter : Char) (other : letter.isDigit = false) : digit ≠ letter := ne_of_isDigit isDigit other
    simp [apart]
  · exact ⟨'-', digit :: rest, rfl, rfl, by decide⟩

theorem startsDocument_dumps {value : Json} (proper : Proper floatText value) : StartsDocument (dumps value) := by
  cases value with
  | null => exact ⟨'n', ['u', 'l', 'l'], rfl, rfl, by decide⟩
  | bool value =>
      cases value with
      | true => exact ⟨'t', ['r', 'u', 'e'], rfl, rfl, by decide⟩
      | false => exact ⟨'f', ['a', 'l', 's', 'e'], rfl, rfl, by decide⟩
  | int value =>
      rw [dumps]
      exact startsDocument_of_number (startsNumber_int value)
  | float literal =>
      rw [Proper] at proper
      rw [dumps]
      rcases proper with word | ⟨fractional, -⟩
      · have either : literal = "NaN" ∨ literal = "Infinity" ∨ literal = "-Infinity" := by simpa using word
        rcases either with rfl | rfl | rfl
        · exact ⟨'N', ['a', 'N'], rfl, rfl, by decide⟩
        · exact ⟨'I', _, rfl, rfl, by decide⟩
        · exact ⟨'-', _, rfl, rfl, by decide⟩
      · exact startsDocument_of_number (startsNumber_fractional fractional)
  | str value => exact ⟨'"', value.toList.flatMap escape ++ ['"'], by rw [dumps, quoted], rfl, by decide⟩
  | arr items => exact ⟨'[', dumpsItems items ++ [']'], by rw [dumps], rfl, by decide⟩
  | obj members => exact ⟨'{', dumpsMembers members ++ ['}'], by rw [dumps], rfl, by decide⟩

theorem skipSpacing_eq {text : List Char} (starts : StartsDocument text) (rest : List Char) :
    skipSpacing (text ++ rest) = text ++ rest := by
  obtain ⟨letter, others, rfl, solid, -⟩ := starts
  exact List.dropWhile_cons_of_neg (by rw [solid]; exact Bool.false_ne_true)

theorem scan_scalar {letter : Char} {rest : List Char} (fuel : ℕ) (other : letter ∉ ['"', '[', '{']) :
    scan floatText (fuel + 1) (letter :: rest) = scalar floatText (letter :: rest) := by
  simp only [List.mem_cons, List.not_mem_nil, or_false, not_or] at other
  rw [scan, if_neg other.1, if_neg other.2.1, if_neg other.2.2]

theorem scan_number {token rest : List Char} (fuel : ℕ) (starts : StartsNumber token) :
    scan floatText (fuel + 1) (token ++ rest) = scalar floatText (token ++ rest) := by
  obtain ⟨digit, digits, isDigit, rfl | rfl⟩ := starts.cases
  · apply scan_scalar
    have apart (letter : Char) (other : letter.isDigit = false) : digit ≠ letter := ne_of_isDigit isDigit other
    simp [apart]
  · exact scan_scalar fuel (by decide)

theorem scan_string (fuel : ℕ) (text : String) (rest : List Char) :
    scan floatText (fuel + 1) (quoted text ++ rest) = some (.str text, rest) := by
  have body : text.toList.flatMap escape ++ ['"'] ++ rest = text.toList.flatMap escape ++ '"' :: rest := by
    rw [List.append_assoc, List.singleton_append]
  have enough : text.toList.length < (text.toList.flatMap escape ++ '"' :: rest).length := by
    have shorter := length_le_flatMap_escape text.toList
    rw [List.length_append, List.length_cons]
    omega
  rw [quoted, List.cons_append, scan, if_pos rfl, body, stringBody_quoted _ _ _ enough, Option.map_some,
    String.ofList_toList]

theorem skipSpacing_blank {text : List Char} (starts : StartsDocument text) (rest : List Char) :
    skipSpacing (' ' :: (text ++ rest)) = text ++ rest := by
  rw [skipSpacing, List.dropWhile_cons_of_pos rfl]
  exact skipSpacing_eq starts rest

theorem scanMembers_name (fuel : ℕ) (name : String) (text : List Char) :
    scanMembers floatText (fuel + 1) ('"' :: (name.toList.flatMap escape ++ '"' :: ':' :: text)) =
      match scan floatText fuel (skipSpacing text) with
      | none => none
      | some (value, rest) =>
          match skipSpacing rest with
          | '}' :: behind => some ([(String.ofList name.toList, value)], behind)
          | ',' :: behind =>
              (scanMembers floatText fuel (skipSpacing behind)).map fun read =>
                ((String.ofList name.toList, value) :: read.1, read.2)
          | _ => none := by
  have enough : name.toList.length < (name.toList.flatMap escape ++ '"' :: ':' :: text).length := by
    have shorter := length_le_flatMap_escape name.toList
    rw [List.length_append, List.length_cons]
    omega
  rw [scanMembers, if_neg (not_not.mpr rfl), stringBody_quoted _ _ _ enough]
  rfl

mutual

theorem scan_dumps : (value : Json) → Proper floatText value → (fuel : ℕ) → (rest : List Char) →
    (dumps value).length < fuel → Stops rest → scan floatText fuel (dumps value ++ rest) = some (value, rest)
  | value, proper, 0, rest, enough, stops => absurd enough (Nat.not_lt_zero _)
  | .null, proper, fuel + 1, rest, enough, stops => by
      rw [dumps]
      exact scan_scalar fuel (by decide)
  | .bool true, proper, fuel + 1, rest, enough, stops => by
      rw [dumps]
      exact scan_scalar fuel (by decide)
  | .bool false, proper, fuel + 1, rest, enough, stops => by
      rw [dumps]
      exact scan_scalar fuel (by decide)
  | .int value, proper, fuel + 1, rest, enough, stops => by
      rw [dumps, scan_number fuel (startsNumber_int value), scalar_int value stops]
  | .float literal, proper, fuel + 1, rest, enough, stops => by
      rw [Proper] at proper
      rw [dumps, ← dumps_float_cases proper stops]
      rcases proper with word | ⟨fractional, -⟩
      · have either : literal = "NaN" ∨ literal = "Infinity" ∨ literal = "-Infinity" := by simpa using word
        rcases either with rfl | rfl | rfl
        · exact scan_scalar fuel (by decide)
        · exact scan_scalar fuel (by decide)
        · exact scan_scalar fuel (by decide)
      · exact scan_number fuel (startsNumber_fractional fractional)
  | .str value, proper, fuel + 1, rest, enough, stops => by
      rw [dumps, scan_string]
  | .arr [], proper, fuel + 1, rest, enough, stops => rfl
  | .arr (item :: items), proper, fuel + 1, rest, enough, stops => by
      rw [Proper] at proper
      rw [dumps, List.length_cons, List.length_append, List.length_singleton] at enough
      have read := scanItems_dumps item items proper fuel rest (by omega)
      obtain ⟨letter, others, starts, solid, notEnd⟩ := startsDocument_dumps proper.1
      have text : dumpsItems (item :: items) ++ ']' :: rest = letter :: (others ++
          ((if items = [] then [] else ',' :: ' ' :: dumpsItems items) ++ ']' :: rest)) := by
        rw [dumpsItems, starts]
        simp only [List.cons_append, List.append_assoc]
      rw [dumps, List.cons_append, List.append_assoc, List.singleton_append, scan, if_neg (by decide), if_pos rfl]
      rw [text] at read ⊢
      rw [skipSpacing, List.dropWhile_cons_of_neg (by rw [solid]; exact Bool.false_ne_true)]
      dsimp only
      rw [if_neg notEnd, read]
      rfl
  | .obj [], proper, fuel + 1, rest, enough, stops => rfl
  | .obj ((name, value) :: members), proper, fuel + 1, rest, enough, stops => by
      rw [Proper] at proper
      rw [dumps, List.length_cons, List.length_append, List.length_singleton] at enough
      have read := scanMembers_dumps name value members proper.2 fuel rest (by omega)
      have text : dumpsMembers ((name, value) :: members) ++ '}' :: rest = '"' :: (name.toList.flatMap escape ++
          '"' :: ':' :: ' ' :: (dumps value ++
            ((if members = [] then [] else ',' :: ' ' :: dumpsMembers members) ++ '}' :: rest))) := by
        rw [dumpsMembers, quoted]
        simp only [List.cons_append, List.append_assoc, List.nil_append]
      rw [dumps, List.cons_append, List.append_assoc, List.singleton_append, scan, if_neg (by decide),
        if_neg (by decide), if_pos rfl]
      rw [text] at read ⊢
      rw [skipSpacing, List.dropWhile_cons_of_neg (by decide)]
      dsimp only
      rw [if_neg (by decide), read, Option.map_some]
      exact congrArg (fun members => some (Json.obj members, rest)) (update_of_distinct proper.1)

theorem scanItems_dumps : (item : Json) → (items : List Json) → ProperItems floatText (item :: items) →
    (fuel : ℕ) → (rest : List Char) → (dumpsItems (item :: items)).length + 1 < fuel →
      scanItems floatText fuel (dumpsItems (item :: items) ++ ']' :: rest) = some (item :: items, rest)
  | item, items, proper, 0, rest, enough => absurd enough (Nat.not_lt_zero _)
  | item, [], proper, fuel + 1, rest, enough => by
      rw [ProperItems] at proper
      rw [dumpsItems, if_pos rfl, List.append_nil] at enough ⊢
      rw [scanItems, scan_dumps item proper.1 fuel (']' :: rest) (by omega) (by intro letter here; cases here; rfl)]
      rfl
  | item, next :: items, proper, fuel + 1, rest, enough => by
      rw [ProperItems] at proper
      rw [dumpsItems, if_neg (List.cons_ne_nil _ _)] at enough ⊢
      rw [List.length_append, List.length_cons, List.length_cons] at enough
      rw [List.append_assoc, scanItems, scan_dumps item proper.1 fuel _ (by omega) (by intro letter here; cases here; rfl)]
      have read := scanItems_dumps next items proper.2 fuel rest (by omega)
      have skip : skipSpacing (' ' :: (dumpsItems (next :: items) ++ ']' :: rest)) =
          dumpsItems (next :: items) ++ ']' :: rest := by
        have ahead := proper.2
        rw [ProperItems] at ahead
        rw [dumpsItems, List.append_assoc]
        exact skipSpacing_blank (startsDocument_dumps ahead.1) _
      change (scanItems floatText fuel (skipSpacing (' ' :: (dumpsItems (next :: items) ++ ']' :: rest)))).map
        (fun read => (item :: read.1, read.2)) = _
      rw [skip, read]
      rfl

theorem scanMembers_dumps : (name : String) → (value : Json) → (members : List (String × Json)) →
    ProperMembers floatText ((name, value) :: members) → (fuel : ℕ) → (rest : List Char) →
      (dumpsMembers ((name, value) :: members)).length + 1 < fuel →
        scanMembers floatText fuel (dumpsMembers ((name, value) :: members) ++ '}' :: rest) =
          some ((name, value) :: members, rest)
  | name, value, members, proper, 0, rest, enough => absurd enough (Nat.not_lt_zero _)
  | name, value, [], proper, fuel + 1, rest, enough => by
      rw [ProperMembers] at proper
      rw [dumpsMembers, if_pos rfl, List.append_nil] at enough
      rw [List.length_append, List.length_cons, List.length_cons] at enough
      have read := scan_dumps value proper.1 fuel ('}' :: rest) (by omega) (by intro letter here; cases here; rfl)
      have text : dumpsMembers [(name, value)] ++ '}' :: rest = '"' :: (name.toList.flatMap escape ++
          '"' :: ':' :: ' ' :: (dumps value ++ '}' :: rest)) := by
        rw [dumpsMembers, quoted, if_pos rfl]
        simp only [List.cons_append, List.append_assoc, List.nil_append]
      rw [text, scanMembers_name, skipSpacing_blank (startsDocument_dumps proper.1), read, String.ofList_toList]
      rfl
  | name, value, (title, held) :: members, proper, fuel + 1, rest, enough => by
      rw [ProperMembers] at proper
      rw [dumpsMembers, if_neg (List.cons_ne_nil _ _)] at enough
      simp only [List.length_append, List.length_cons] at enough
      have read := scan_dumps value proper.1 fuel
        (',' :: ' ' :: (dumpsMembers ((title, held) :: members) ++ '}' :: rest)) (by omega)
        (by intro letter here; cases here; rfl)
      have others := scanMembers_dumps title held members proper.2 fuel rest (by omega)
      have text : dumpsMembers ((name, value) :: (title, held) :: members) ++ '}' :: rest =
          '"' :: (name.toList.flatMap escape ++ '"' :: ':' :: ' ' :: (dumps value ++
            ',' :: ' ' :: (dumpsMembers ((title, held) :: members) ++ '}' :: rest))) := by
        rw [dumpsMembers, quoted, if_neg (List.cons_ne_nil _ _)]
        simp only [List.cons_append, List.append_assoc, List.nil_append]
      have skip : skipSpacing (' ' :: (dumpsMembers ((title, held) :: members) ++ '}' :: rest)) =
          dumpsMembers ((title, held) :: members) ++ '}' :: rest := by
        rw [dumpsMembers, quoted]
        rfl
      rw [text, scanMembers_name, skipSpacing_blank (startsDocument_dumps proper.1), read]
      change (scanMembers floatText fuel
        (skipSpacing (' ' :: (dumpsMembers ((title, held) :: members) ++ '}' :: rest)))).map
          (fun read => ((String.ofList name.toList, value) :: read.1, read.2)) = _
      rw [skip, others, Option.map_some, String.ofList_toList]

end

theorem loads_dumps {value : Json} (proper : Proper floatText value) : loads floatText (dumps value) = some value := by
  have starts := startsDocument_dumps proper
  have read := scan_dumps value proper ((dumps value).length + 1) [] (Nat.lt_succ_self _) (by intro letter here; cases here)
  have skip := skipSpacing_eq starts []
  rw [List.append_nil] at read skip
  unfold loads
  rw [skip, read]
  rfl

end RoundTrip

section Printable

/-- Whether a letter is no control. -/
def IsPrintable (letter : Char) : Prop := 32 ≤ letter.toNat

theorem isPrintable_of_isNumberLetter {letter : Char} (number : isNumberLetter letter) : IsPrintable letter := by
  unfold isNumberLetter at number
  rw [Bool.or_eq_true, decide_eq_true_eq] at number
  rcases number with digit | mark
  · have low : '0'.val ≤ letter.val := by
      unfold Char.isDigit at digit
      simp only [Bool.and_eq_true, decide_eq_true_eq] at digit
      exact digit.1
    have zero : '0'.toNat ≤ letter.toNat := low
    exact Nat.le_trans (by decide) zero
  · simp only [List.mem_cons, List.not_mem_nil, or_false] at mark
    unfold IsPrintable
    rcases mark with rfl | rfl | rfl | rfl | rfl <;> decide

theorem isPrintable_of_all {letters : List Char} (all : letters.all (fun letter => decide (32 ≤ letter.toNat)) = true) :
    ∀ letter ∈ letters, IsPrintable letter := by
  intro letter listed
  have printable : 32 ≤ letter.toNat := of_decide_eq_true (List.all_eq_true.mp all letter listed)
  exact printable

theorem isPrintable_escape (letter : Char) : ∀ written ∈ escape letter, IsPrintable written := by
  have digit : ∀ digit < 16, 32 ≤ (Nat.digitChar digit).toNat := by decide
  let Printed (text : List Char) : Prop := ∀ written ∈ text, IsPrintable written
  change Printed (escape letter)
  unfold escape
  refine iteInduction (fun _ => isPrintable_of_all rfl) fun _ => ?_
  refine iteInduction (fun _ => isPrintable_of_all rfl) fun _ => ?_
  refine iteInduction (fun _ => isPrintable_of_all rfl) fun _ => ?_
  refine iteInduction (fun _ => isPrintable_of_all rfl) fun _ => ?_
  refine iteInduction (fun _ => isPrintable_of_all rfl) fun _ => ?_
  refine iteInduction (fun _ => isPrintable_of_all rfl) fun _ => ?_
  refine iteInduction (fun _ => isPrintable_of_all rfl) fun _ => ?_
  refine iteInduction (fun control => ?_) fun plain => ?_
  · apply isPrintable_of_all
    simp only [List.all_cons, List.all_nil, Bool.and_true, Bool.and_eq_true, decide_eq_true_eq]
    exact ⟨by decide, by decide, by decide, by decide, digit _ (by omega), digit _ (by omega)⟩
  · intro written inside
    rw [List.mem_singleton.mp inside]
    exact not_lt.mp plain

theorem isPrintable_quoted (text : String) : ∀ letter ∈ quoted text, IsPrintable letter := by
  intro letter listed
  unfold quoted at listed
  rcases List.mem_cons.mp listed with rfl | inside
  · exact (by decide : 32 ≤ '"'.toNat)
  · rcases List.mem_append.mp inside with body | last
    · obtain ⟨origin, _, written⟩ := List.mem_flatMap.mp body
      exact isPrintable_escape origin letter written
    · rw [List.mem_singleton.mp last]
      exact (by decide : 32 ≤ '"'.toNat)

variable {floatText : String → String}

theorem isPrintable_append {first second : List Char} (front : ∀ letter ∈ first, IsPrintable letter)
    (back : ∀ letter ∈ second, IsPrintable letter) : ∀ letter ∈ first ++ second, IsPrintable letter := by
  intro letter listed
  exact (List.mem_append.mp listed).elim (front letter) (back letter)

theorem isPrintable_cons {first : Char} {second : List Char} (front : 32 ≤ first.toNat)
    (back : ∀ letter ∈ second, IsPrintable letter) : ∀ letter ∈ first :: second, IsPrintable letter :=
  List.forall_mem_cons.mpr ⟨front, back⟩

theorem isPrintable_nil : ∀ letter ∈ ([] : List Char), IsPrintable letter := by
  intro letter listed
  cases listed

mutual

theorem isPrintable_dumps : (value : Json) → Proper floatText value → ∀ letter ∈ dumps value, IsPrintable letter
  | .null, _ => by
      rw [dumps]
      exact isPrintable_of_all rfl
  | .bool value, _ => by
      rw [dumps]
      cases value with
      | true => exact isPrintable_of_all rfl
      | false => exact isPrintable_of_all rfl
  | .int value, _ => by
      rw [dumps]
      intro letter listed
      apply isPrintable_of_isNumberLetter
      by_contra other
      by_cases digit : letter.isDigit
      · exact other (isNumberLetter_of_isDigit digit)
      · by_cases minus : letter = '-'
        · rw [minus] at other
          exact other rfl
        · exact notMem_toString_int (Bool.eq_false_iff.mpr digit) minus value listed
  | .float literal, proper => by
      rw [Proper] at proper
      rw [dumps]
      rcases proper with word | ⟨fractional, -⟩
      · have either : literal = "NaN" ∨ literal = "Infinity" ∨ literal = "-Infinity" := by simpa using word
        rcases either with rfl | rfl | rfl
        · exact isPrintable_of_all rfl
        · exact isPrintable_of_all rfl
        · exact isPrintable_of_all rfl
      · intro letter listed
        exact isPrintable_of_isNumberLetter (isFractional_letters fractional letter listed)
  | .str value, _ => by
      rw [dumps]
      exact isPrintable_quoted value
  | .arr items, proper => by
      rw [Proper] at proper
      rw [dumps]
      exact isPrintable_cons (by decide) (isPrintable_append (isPrintable_dumpsItems items proper)
        (isPrintable_cons (by decide) isPrintable_nil))
  | .obj members, proper => by
      rw [Proper] at proper
      rw [dumps]
      exact isPrintable_cons (by decide) (isPrintable_append (isPrintable_dumpsMembers members proper.2)
        (isPrintable_cons (by decide) isPrintable_nil))

theorem isPrintable_dumpsItems : (items : List Json) → ProperItems floatText items →
    ∀ letter ∈ dumpsItems items, IsPrintable letter
  | [], _ => by
      rw [dumpsItems]
      exact isPrintable_nil
  | item :: rest, proper => by
      rw [ProperItems] at proper
      rw [dumpsItems]
      apply isPrintable_append (isPrintable_dumps item proper.1)
      split
      · exact isPrintable_nil
      · exact isPrintable_cons (by decide) (isPrintable_cons (by decide) (isPrintable_dumpsItems rest proper.2))

theorem isPrintable_dumpsMembers : (members : List (String × Json)) → ProperMembers floatText members →
    ∀ letter ∈ dumpsMembers members, IsPrintable letter
  | [], _ => by
      rw [dumpsMembers]
      exact isPrintable_nil
  | (name, value) :: rest, proper => by
      rw [ProperMembers] at proper
      rw [dumpsMembers]
      apply isPrintable_append
      · apply isPrintable_append (isPrintable_quoted name)
        exact isPrintable_cons (by decide) (isPrintable_cons (by decide) (isPrintable_dumps value proper.1))
      · split
        · exact isPrintable_nil
        · exact isPrintable_cons (by decide) (isPrintable_cons (by decide) (isPrintable_dumpsMembers rest proper.2))

end

end Printable

end Foundation.Json
