import Mathlib.Data.List.TakeWhile
import Sico.Foundation.Json
import Sico.Foundation.Members
import Sico.Foundation.Numerals

/-! # The text of a JSON document

A document is written on one line: letters other than controls, quotes and backslashes stand for
themselves. What is read is taken letter by letter, with blanks between the parts of a document. Of
several members with one name the last one counts.

A floating-point number is known by the text that is written for it; the text that a literal is known
by is a parameter of the reader. Strings and numbers are read as they were written.
-/

namespace Foundation.Json

section Writing

def escape (letter : Char) : List Char :=
  if letter = '"' then ['\\', '"']
  else if letter = '\\' then ['\\', '\\']
  else if letter = '\n' then ['\\', 'n']
  else if letter = '\r' then ['\\', 'r']
  else if letter = '\t' then ['\\', 't']
  else if letter = '\x08' then ['\\', 'b']
  else if letter = '\x0c' then ['\\', 'f']
  else if letter.toNat < 32 then
    ['\\', 'u', '0', '0', Nat.digitChar (letter.toNat / 16), Nat.digitChar (letter.toNat % 16)]
  else [letter]

def quoted (text : String) : List Char := '"' :: (text.toList.flatMap escape ++ ['"'])

mutual

def dumps : Json → List Char
  | .null => ['n', 'u', 'l', 'l']
  | .bool value => if value then ['t', 'r', 'u', 'e'] else ['f', 'a', 'l', 's', 'e']
  | .int value => (toString value).toList
  | .float literal => literal.toList
  | .str value => quoted value
  | .arr items => '[' :: (dumpsItems items ++ [']'])
  | .obj members => '{' :: (dumpsMembers members ++ ['}'])

def dumpsItems : List Json → List Char
  | [] => []
  | item :: rest => dumps item ++ if rest = [] then [] else ',' :: ' ' :: dumpsItems rest

def dumpsMembers : List (String × Json) → List Char
  | [] => []
  | (name, value) :: rest =>
      quoted name ++ ':' :: ' ' :: dumps value ++ if rest = [] then [] else ',' :: ' ' :: dumpsMembers rest

end

end Writing

section Reading

def isSpacing (letter : Char) : Bool := letter ∈ [' ', '\t', '\n', '\r']

def skipSpacing (text : List Char) : List Char := text.dropWhile isSpacing

def hexValue (letter : Char) : Option ℕ :=
  if letter.isDigit then some (letter.toNat - '0'.toNat)
  else if 'a' ≤ letter ∧ letter ≤ 'f' then some (letter.toNat - 'a'.toNat + 10)
  else if 'A' ≤ letter ∧ letter ≤ 'F' then some (letter.toNat - 'A'.toNat + 10)
  else none

/-- A code of four hexadecimal digits, and what is left behind them. -/
def codeUnit (text : List Char) : Option (ℕ × List Char) :=
  match text with
  | a :: b :: c :: d :: rest => do
      let a ← hexValue a
      let b ← hexValue b
      let c ← hexValue c
      let d ← hexValue d
      return (((a * 16 + b) * 16 + c) * 16 + d, rest)
  | _ => none

/-- The letter that a text behind `\u` stands for: two codes make one where the first is the first half
of a pair. A half that stands alone is no letter. -/
def codeLetter (text : List Char) : Option (Char × List Char) := do
  let (first, rest) ← codeUnit text
  if 0xD800 ≤ first ∧ first ≤ 0xDBFF then
    match rest with
    | '\\' :: 'u' :: behind => do
        let (second, rest) ← codeUnit behind
        if 0xDC00 ≤ second ∧ second ≤ 0xDFFF then
          return (Char.ofNat (0x10000 + (first - 0xD800) * 0x400 + (second - 0xDC00)), rest)
        else none
    | _ => none
  else if 0xDC00 ≤ first ∧ first ≤ 0xDFFF then none
  else return (Char.ofNat first, rest)

/-- The letter that a text behind a backslash stands for. -/
def escaped (text : List Char) : Option (Char × List Char) :=
  match text with
  | '"' :: rest => some ('"', rest)
  | '\\' :: rest => some ('\\', rest)
  | '/' :: rest => some ('/', rest)
  | 'n' :: rest => some ('\n', rest)
  | 'r' :: rest => some ('\r', rest)
  | 't' :: rest => some ('\t', rest)
  | 'b' :: rest => some ('\x08', rest)
  | 'f' :: rest => some ('\x0c', rest)
  | 'u' :: rest => codeLetter rest
  | _ => none

/-- The letters of a string up to its closing quote. -/
def stringBody : ℕ → List Char → Option (List Char × List Char)
  | 0, _ => none
  | _ + 1, [] => none
  | fuel + 1, letter :: rest =>
      if letter = '"' then some ([], rest)
      else if letter = '\\' then do
        let (letter, rest) ← escaped rest
        let (letters, rest) ← stringBody fuel rest
        return (letter :: letters, rest)
      else if letter.toNat < 32 then none
      else do
        let (letters, rest) ← stringBody fuel rest
        return (letter :: letters, rest)

def isNumberLetter (letter : Char) : Bool := letter.isDigit || letter ∈ ['-', '+', '.', 'e', 'E']

def unsigned : List Char → List Char
  | '-' :: digits => digits
  | digits => digits

def isNatural (digits : List Char) : Bool :=
  digits.all Char.isDigit && !digits.isEmpty && (digits = ['0'] || digits.head? ≠ some '0')

def isIntegral (token : List Char) : Bool := isNatural (unsigned token)

/-- The part of a token behind an exponent mark: digits, with a sign perhaps. -/
def isExponent : List Char → Bool
  | '-' :: digits => digits.all Char.isDigit && !digits.isEmpty
  | '+' :: digits => digits.all Char.isDigit && !digits.isEmpty
  | digits => digits.all Char.isDigit && !digits.isEmpty

/-- The part of a token behind its digits before the point: a fraction, an exponent or both. -/
def isFraction : List Char → Bool
  | '.' :: rest =>
      let behind := rest.dropWhile Char.isDigit
      !(rest.takeWhile Char.isDigit).isEmpty &&
        (behind.isEmpty || (behind.head? ∈ [some 'e', some 'E'] && isExponent (behind.drop 1)))
  | letter :: rest => (letter ∈ ['e', 'E']) && isExponent rest
  | [] => false

def isFractional (token : List Char) : Bool :=
  isNatural ((unsigned token).takeWhile Char.isDigit) && isFraction ((unsigned token).dropWhile Char.isDigit)

def integer (token : List Char) : ℤ :=
  if token.head? = some '-' then -(Nat.ofDigitChars 10 (unsigned token) 0 : ℤ)
  else (Nat.ofDigitChars 10 (unsigned token) 0 : ℤ)

def constants : List (List Char × Json) :=
  [(['n', 'u', 'l', 'l'], .null), (['t', 'r', 'u', 'e'], .bool true), (['f', 'a', 'l', 's', 'e'], .bool false),
    (['N', 'a', 'N'], .float "NaN"), (['I', 'n', 'f', 'i', 'n', 'i', 't', 'y'], .float "Infinity"),
    (['-', 'I', 'n', 'f', 'i', 'n', 'i', 't', 'y'], .float "-Infinity")]

-- the text that the number of a literal is known by
variable (floatText : String → String)

def number (text : List Char) : Option (Json × List Char) :=
  let token := text.takeWhile isNumberLetter
  if isIntegral token then some (.int (integer token), text.dropWhile isNumberLetter)
  else if isFractional token then some (.float (floatText (String.ofList token)), text.dropWhile isNumberLetter)
  else none

def scalar (text : List Char) : Option (Json × List Char) :=
  match constants.find? fun constant => constant.1.isPrefixOf text with
  | some constant => some (constant.2, text.drop constant.1.length)
  | none => number floatText text

mutual

/-- The document at the start of a text, and what is left behind it. -/
def scan : ℕ → List Char → Option (Json × List Char)
  | 0, _ => none
  | _ + 1, [] => none
  | fuel + 1, letter :: rest =>
      if letter = '"' then (stringBody rest.length rest).map fun read => (.str (String.ofList read.1), read.2)
      else if letter = '[' then
        match skipSpacing rest with
        | [] => none
        | next :: behind =>
            if next = ']' then some (.arr [], behind)
            else (scanItems fuel (next :: behind)).map fun read => (.arr read.1, read.2)
      else if letter = '{' then
        match skipSpacing rest with
        | [] => none
        | next :: behind =>
            if next = '}' then some (.obj [], behind)
            else (scanMembers fuel (next :: behind)).map fun read => (.obj (Members.update [] read.1), read.2)
      else scalar floatText (letter :: rest)

/-- The items of an array, up to its end. -/
def scanItems : ℕ → List Char → Option (List Json × List Char)
  | 0, _ => none
  | fuel + 1, text =>
      match scan fuel text with
      | none => none
      | some (item, rest) =>
          match skipSpacing rest with
          | ']' :: behind => some ([item], behind)
          | ',' :: behind => (scanItems fuel (skipSpacing behind)).map fun read => (item :: read.1, read.2)
          | _ => none

/-- The members of an object, up to its end. -/
def scanMembers : ℕ → List Char → Option (List (String × Json) × List Char)
  | 0, _ => none
  | _ + 1, [] => none
  | fuel + 1, quote :: text =>
      if quote ≠ '"' then none
      else
        match stringBody text.length text with
        | none => none
        | some (name, rest) =>
            match skipSpacing rest with
            | ':' :: behind =>
                match scan fuel (skipSpacing behind) with
                | none => none
                | some (value, rest) =>
                    match skipSpacing rest with
                    | '}' :: behind => some ([(String.ofList name, value)], behind)
                    | ',' :: behind =>
                        (scanMembers fuel (skipSpacing behind)).map fun read =>
                          ((String.ofList name, value) :: read.1, read.2)
                    | _ => none
            | _ => none

end

/-- The document that a text is, with blanks around it. -/
def loads (text : List Char) : Option Json :=
  match scan floatText (text.length + 1) (skipSpacing text) with
  | none => none
  | some (value, rest) => if skipSpacing rest = [] then some value else none

end Reading

section Strings

theorem digitChar_hexValue : ∀ digit < 16, hexValue (Nat.digitChar digit) = some digit := by decide

theorem stringBody_escape (fuel : ℕ) (letter : Char) (rest : List Char) :
    stringBody (fuel + 1) (escape letter ++ rest) =
      (stringBody fuel rest).map fun read => (letter :: read.1, read.2) := by
  have through (behind : List Char) (read : escaped behind = some (letter, rest)) :
      stringBody (fuel + 1) ('\\' :: behind) =
        (stringBody fuel rest).map fun read => (letter :: read.1, read.2) := by
    rw [stringBody, if_neg (by decide), if_pos rfl, read]
    dsimp only [bind, Option.bind]
    cases stringBody fuel rest <;> rfl
  unfold escape
  by_cases quote : letter = '"'
  · rw [if_pos quote]
    exact through _ (by rw [quote]; rfl)
  rw [if_neg quote]
  by_cases backslash : letter = '\\'
  · rw [if_pos backslash]
    exact through _ (by rw [backslash]; rfl)
  rw [if_neg backslash]
  by_cases newline : letter = '\n'
  · rw [if_pos newline]
    exact through _ (by rw [newline]; rfl)
  rw [if_neg newline]
  by_cases return_ : letter = '\r'
  · rw [if_pos return_]
    exact through _ (by rw [return_]; rfl)
  rw [if_neg return_]
  by_cases tab : letter = '\t'
  · rw [if_pos tab]
    exact through _ (by rw [tab]; rfl)
  rw [if_neg tab]
  by_cases back : letter = '\x08'
  · rw [if_pos back]
    exact through _ (by rw [back]; rfl)
  rw [if_neg back]
  by_cases form : letter = '\x0c'
  · rw [if_pos form]
    exact through _ (by rw [form]; rfl)
  rw [if_neg form]
  by_cases control : letter.toNat < 32
  · rw [if_pos control]
    apply through
    have high := digitChar_hexValue (letter.toNat / 16) (by omega)
    have low := digitChar_hexValue (letter.toNat % 16) (by omega)
    have code : ((0 * 16 + 0) * 16 + letter.toNat / 16) * 16 + letter.toNat % 16 = letter.toNat := by omega
    have unit : codeUnit ('0' :: '0' :: Nat.digitChar (letter.toNat / 16) ::
        Nat.digitChar (letter.toNat % 16) :: rest) = some (letter.toNat, rest) := by
      unfold codeUnit
      dsimp only [bind, Option.bind]
      rw [high, low]
      dsimp only [hexValue]
      exact congrArg (fun code => some (code, rest)) code
    change codeLetter ('0' :: '0' :: Nat.digitChar (letter.toNat / 16) ::
      Nat.digitChar (letter.toNat % 16) :: rest) = _
    unfold codeLetter
    rw [unit]
    dsimp only [bind, Option.bind]
    rw [if_neg (by omega), if_neg (by omega), Char.ofNat_toNat]
    rfl
  · rw [if_neg control, List.singleton_append, stringBody, if_neg quote, if_neg backslash, if_neg control]
    cases stringBody fuel rest <;> rfl

theorem stringBody_quoted (letters : List Char) (fuel : ℕ) (rest : List Char) (enough : letters.length < fuel) :
    stringBody fuel (letters.flatMap escape ++ '"' :: rest) = some (letters, rest) := by
  induction letters generalizing fuel with
  | nil =>
      obtain ⟨fuel, rfl⟩ := Nat.exists_eq_add_of_lt enough
      rfl
  | cons letter letters ih =>
      rw [List.length_cons] at enough
      cases fuel with
      | zero => omega
      | succ fuel =>
          rw [List.flatMap_cons, List.append_assoc, stringBody_escape, ih fuel (by omega)]
          rfl

theorem length_ite_pos {test : Prop} [Decidable test] {first second : List Char} (one : 0 < first.length)
    (two : 0 < second.length) : 0 < (if test then first else second).length :=
  iteInduction (motive := fun text : List Char => 0 < text.length) (fun _ => one) (fun _ => two)

theorem length_le_flatMap_escape (letters : List Char) : letters.length ≤ (letters.flatMap escape).length := by
  induction letters with
  | nil => exact Nat.le_refl 0
  | cons letter letters ih =>
      have some_ : 0 < (escape letter).length := by
        unfold escape
        repeat' apply length_ite_pos
        all_goals exact Nat.succ_pos _
      rw [List.flatMap_cons, List.length_append, List.length_cons]
      omega

end Strings

section Numbers

variable {floatText : String → String}

theorem takeWhile_append_stops {test : Char → Bool} {token rest : List Char} (all : ∀ letter ∈ token, test letter)
    (stops : ∀ letter ∈ rest.head?, test letter = false) :
    (token ++ rest).takeWhile test = token ∧ (token ++ rest).dropWhile test = rest := by
  induction token with
  | nil =>
      cases rest with
      | nil => exact ⟨rfl, rfl⟩
      | cons letter rest =>
          have stop := stops letter rfl
          exact ⟨List.takeWhile_cons_of_neg (by simp [stop]), List.dropWhile_cons_of_neg (by simp [stop])⟩
  | cons letter token ih =>
      obtain ⟨taken, dropped⟩ := ih fun other listed => all other (List.mem_cons_of_mem _ listed)
      have here := all letter List.mem_cons_self
      rw [List.cons_append, List.takeWhile_cons_of_pos here, List.dropWhile_cons_of_pos here, taken, dropped]
      exact ⟨rfl, rfl⟩

theorem isNumberLetter_of_isDigit {letter : Char} (digit : letter.isDigit) : isNumberLetter letter = true := by
  unfold isNumberLetter
  rw [digit]
  rfl

theorem unsigned_cons {letter : Char} {rest : List Char} (other : letter ≠ '-') :
    unsigned (letter :: rest) = letter :: rest := by
  unfold unsigned
  split
  · next digits same => exact absurd (List.cons.inj same).1 other
  · rfl

def StartsNumber (token : List Char) : Prop := ∃ digit rest, unsigned token = digit :: rest ∧ digit.isDigit

theorem StartsNumber.cases {token : List Char} (starts : StartsNumber token) :
    ∃ digit rest, digit.isDigit ∧ (token = digit :: rest ∨ token = '-' :: digit :: rest) := by
  obtain ⟨digit, rest, same, isDigit⟩ := starts
  refine ⟨digit, rest, isDigit, ?_⟩
  unfold unsigned at same
  split at same
  · right
    rw [same]
  · left
    exact same

theorem ne_of_isDigit {digit letter : Char} (isDigit : digit.isDigit) (other : letter.isDigit = false) :
    digit ≠ letter := by
  rintro rfl
  rw [isDigit] at other
  cases other

theorem find?_constants {token rest : List Char} (starts : StartsNumber token) :
    (constants.find? fun constant => constant.1.isPrefixOf (token ++ rest)) = none := by
  obtain ⟨digit, digits, isDigit, rfl | rfl⟩ := starts.cases
  · have apart (letter : Char) (other : letter.isDigit = false) : (letter == digit) = false :=
      beq_false_of_ne (ne_of_isDigit isDigit other).symm
    simp [constants, List.isPrefixOf, apart]
  · have apart : ('I' == digit) = false := beq_false_of_ne (ne_of_isDigit isDigit rfl).symm
    simp [constants, List.isPrefixOf, apart]

theorem scalar_token {token rest : List Char} (starts : StartsNumber token)
    (letters : ∀ letter ∈ token, isNumberLetter letter) (stops : ∀ letter ∈ rest.head?, isNumberLetter letter = false) :
    scalar floatText (token ++ rest) =
      if isIntegral token then some (.int (integer token), rest)
      else if isFractional token then some (.float (floatText (String.ofList token)), rest)
      else none := by
  obtain ⟨taken, dropped⟩ := takeWhile_append_stops letters stops
  unfold scalar
  rw [find?_constants starts]
  unfold number
  rw [taken, dropped]

theorem isNatural_toDigits (number : ℕ) : isNatural (Nat.toDigits 10 number) = true := by
  have digits : (Nat.toDigits 10 number).all Char.isDigit = true := by
    rw [List.all_eq_true]
    exact fun letter listed => Nat.isDigit_of_mem_toDigits (by decide) (by decide) listed
  have some_ : (Nat.toDigits 10 number).isEmpty = false := by
    cases same : Nat.toDigits 10 number with
    | nil => exact absurd same Nat.toDigits_ne_nil
    | cons letter rest => rfl
  have leading : ∀ number, number ≠ 0 → (Nat.toDigits 10 number).head? ≠ some '0' := by
    intro number
    induction number using Nat.strong_induction_on with
    | h number ih =>
        intro nonzero
        by_cases small : number < 10
        · rw [Nat.toDigits_of_lt_base small]
          intro zero
          have all : ∀ digit < 10, digit ≠ 0 → Nat.digitChar digit ≠ '0' := by decide
          exact all number small nonzero (Option.some.inj zero)
        · rw [Nat.toDigits_of_base_le (by decide) (not_lt.mp small), List.head?_append]
          have shorter := ih (number / 10) (by omega) (by omega)
          cases same : (Nat.toDigits 10 (number / 10)).head? with
          | none => exact absurd (List.head?_eq_none_iff.mp same) Nat.toDigits_ne_nil
          | some letter =>
              rw [same] at shorter
              exact shorter
  unfold isNatural
  rw [digits, some_]
  by_cases zero : number = 0
  · rw [zero]
    decide
  · rw [decide_eq_true (leading number zero), Bool.or_true]
    rfl

theorem unsigned_toString (value : ℤ) : unsigned (toString value).toList = Nat.toDigits 10 value.natAbs ∧
    ((toString value).toList.head? = some '-' ↔ value < 0) := by
  rw [toString_int_eq]
  split
  · next natural =>
      have same : value.toNat = value.natAbs := by omega
      rw [Nat.toString_eq_repr, Nat.toList_repr, same]
      cases digits : Nat.toDigits 10 value.natAbs with
      | nil => exact absurd digits Nat.toDigits_ne_nil
      | cons digit rest =>
          have isDigit : digit.isDigit := by
            apply Nat.isDigit_of_mem_toDigits (b := 10) (n := value.natAbs) (by decide) (by decide)
            rw [digits]
            exact List.mem_cons_self
          have other : digit ≠ '-' := ne_of_isDigit isDigit rfl
          refine ⟨unsigned_cons other, ?_⟩
          constructor
          · intro sign
            exact absurd (Option.some.inj sign) other
          · intro negative
            omega
  · next negative =>
      have same : (-value).toNat = value.natAbs := by omega
      rw [Nat.toString_eq_repr, Nat.toList_repr, same]
      exact ⟨rfl, fun _ => by omega, fun _ => rfl⟩

theorem startsNumber_int (value : ℤ) : StartsNumber (toString value).toList := by
  unfold StartsNumber
  rw [(unsigned_toString value).1]
  cases same : Nat.toDigits 10 value.natAbs with
  | nil => exact absurd same Nat.toDigits_ne_nil
  | cons digit rest =>
      refine ⟨digit, rest, rfl, ?_⟩
      apply Nat.isDigit_of_mem_toDigits (b := 10) (n := value.natAbs) (by decide) (by decide)
      rw [same]
      exact List.mem_cons_self

theorem scalar_int (value : ℤ) {rest : List Char} (stops : ∀ letter ∈ rest.head?, isNumberLetter letter = false) :
    scalar floatText ((toString value).toList ++ rest) = some (.int value, rest) := by
  obtain ⟨digits, sign⟩ := unsigned_toString value
  have natural := isNatural_toDigits value.natAbs
  have letters : ∀ letter ∈ (toString value).toList, isNumberLetter letter := by
    intro letter listed
    by_contra other
    by_cases digit : letter.isDigit
    · exact other (isNumberLetter_of_isDigit digit)
    · by_cases minus : letter = '-'
      · rw [minus] at other
        exact other rfl
      · exact notMem_toString_int (Bool.eq_false_iff.mpr digit) minus value listed
  rw [scalar_token (startsNumber_int value) letters stops]
  unfold isIntegral
  rw [digits, if_pos natural]
  unfold integer
  rw [digits, Nat.ofDigitChars_ten_toDigits]
  by_cases negative : value < 0
  · rw [if_pos (sign.mpr negative)]
    congr
    omega
  · rw [if_neg (fun minus => negative (sign.mp minus))]
    congr
    omega

theorem isExponent_letters {text : List Char} (exponent : isExponent text) :
    ∀ letter ∈ text, isNumberLetter letter = true := by
  have digits {text : List Char} (all : (text.all Char.isDigit && !text.isEmpty) = true) :
      ∀ letter ∈ text, isNumberLetter letter = true := by
    rw [Bool.and_eq_true, List.all_eq_true] at all
    exact fun letter listed => isNumberLetter_of_isDigit (all.1 letter listed)
  unfold isExponent at exponent
  split at exponent
  · exact List.forall_mem_cons.mpr ⟨rfl, digits exponent⟩
  · exact List.forall_mem_cons.mpr ⟨rfl, digits exponent⟩
  · exact digits exponent

theorem isFraction_letters {text : List Char} (fraction : isFraction text) :
    (∀ letter ∈ text, isNumberLetter letter = true) ∧ ∃ letter rest, text = letter :: rest ∧ letter.isDigit = false := by
  unfold isFraction at fraction
  split at fraction
  · next rest =>
      refine ⟨List.forall_mem_cons.mpr ⟨rfl, ?_⟩, '.', rest, rfl, rfl⟩
      rw [← List.takeWhile_append_dropWhile (p := Char.isDigit) (l := rest)]
      simp only [Bool.and_eq_true, Bool.or_eq_true, List.isEmpty_iff, decide_eq_true_eq] at fraction
      intro letter listed
      rcases List.mem_append.mp listed with digit | behind
      · exact isNumberLetter_of_isDigit (List.mem_takeWhile_imp digit)
      · rcases fraction.2 with none_ | ⟨mark, exponent⟩
        · rw [none_] at behind
          cases behind
        · cases same : rest.dropWhile Char.isDigit with
          | nil =>
              rw [same] at behind
              cases behind
          | cons first others =>
              rw [same] at behind mark exponent
              rcases List.mem_cons.mp behind with rfl | later
              · have either : letter = 'e' ∨ letter = 'E' := by simpa using mark
                rcases either with rfl | rfl <;> rfl
              · exact isExponent_letters exponent letter later
  · next letter rest _ =>
      rw [Bool.and_eq_true, decide_eq_true_eq] at fraction
      obtain ⟨mark, exponent⟩ := fraction
      have either : letter = 'e' ∨ letter = 'E' := by simpa using mark
      refine ⟨List.forall_mem_cons.mpr ⟨?_, isExponent_letters exponent⟩, letter, rest, rfl, ?_⟩
      · rcases either with rfl | rfl <;> rfl
      · rcases either with rfl | rfl <;> rfl
  · cases fraction

theorem startsNumber_fractional {token : List Char} (fractional : isFractional token) : StartsNumber token := by
  unfold isFractional isNatural at fractional
  simp only [Bool.and_eq_true, List.all_eq_true, Bool.not_eq_true', List.isEmpty_eq_false_iff] at fractional
  obtain ⟨digit, digits, front⟩ := List.exists_cons_of_ne_nil fractional.1.1.2
  refine ⟨digit, digits ++ (unsigned token).dropWhile Char.isDigit, ?_, ?_⟩
  · rw [← List.cons_append, ← front, List.takeWhile_append_dropWhile]
  · apply fractional.1.1.1
    rw [front]
    exact List.mem_cons_self

theorem isFractional_letters {token : List Char} (fractional : isFractional token) :
    ∀ letter ∈ token, isNumberLetter letter = true := by
  unfold isFractional isNatural at fractional
  simp only [Bool.and_eq_true, List.all_eq_true] at fractional
  obtain ⟨⟨⟨digits, -⟩, -⟩, fraction⟩ := fractional
  have parts : (unsigned token).takeWhile Char.isDigit ++ (unsigned token).dropWhile Char.isDigit = unsigned token :=
    List.takeWhile_append_dropWhile
  have behind : ∀ letter ∈ unsigned token, isNumberLetter letter = true := by
    intro letter listed
    rw [← parts] at listed
    rcases List.mem_append.mp listed with digit | rest
    · exact isNumberLetter_of_isDigit (digits letter digit)
    · exact (isFraction_letters fraction).1 letter rest
  unfold unsigned at behind
  split at behind
  · exact List.forall_mem_cons.mpr ⟨rfl, behind⟩
  · exact behind

theorem scalar_fractional {token rest : List Char} (fractional : isFractional token)
    (stops : ∀ letter ∈ rest.head?, isNumberLetter letter = false) :
    scalar floatText (token ++ rest) = some (.float (floatText (String.ofList token)), rest) := by
  have whole := fractional
  unfold isFractional at whole
  rw [Bool.and_eq_true] at whole
  obtain ⟨-, mark, others, same, notDigit⟩ := isFraction_letters whole.2
  have parts : (unsigned token).takeWhile Char.isDigit ++ (unsigned token).dropWhile Char.isDigit = unsigned token :=
    List.takeWhile_append_dropWhile
  have notIntegral : ¬ isIntegral token = true := by
    unfold isIntegral isNatural
    simp only [Bool.and_eq_true, List.all_eq_true]
    rintro ⟨⟨all, -⟩, -⟩
    have digit := all mark (by
      rw [← parts, same]
      exact List.mem_append_right _ List.mem_cons_self)
    rw [notDigit] at digit
    cases digit
  rw [scalar_token (startsNumber_fractional fractional) (isFractional_letters fractional) stops, if_neg notIntegral, if_pos fractional]

end Numbers

end Foundation.Json
