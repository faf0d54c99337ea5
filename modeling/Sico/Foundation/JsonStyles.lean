import Mathlib.Data.Bool.AllAny
import Sico.Foundation.JsonRoundTrip

/-! # Documents in other styles

A document may be written with each item and each member on a line of its own, further in than what holds them, and
with other texts for the letters of its strings. Whatever is written for letters, if these are read from it, what is
written for a document is read as the document (`Foundation.Json.loads_written`).

There are three such styles: lines of their own with two blanks for each level, no blanks at all with nothing but
ASCII, and the style of Go, without blanks and with the letters of markup by their codes.
-/

namespace Foundation.Json

section Writing

/-- What is written for a letter, behind the name of a member, and before each item and each end at a level. -/
structure Style where
  escape : Char → List Char
  colon : List Char
  newline : ℕ → List Char

variable (style : Style)

def Style.quoted (text : String) : List Char := '"' :: (text.toList.flatMap style.escape ++ ['"'])

mutual

def Style.written : ℕ → Json → List Char
  | _, .str value => style.quoted value
  | level, .arr items =>
      if items = [] then ['[', ']']
      else '[' :: (Style.writtenItems (level + 1) items ++ (style.newline level ++ [']']))
  | level, .obj members =>
      if members = [] then ['\x7b', '\x7d']
      else '\x7b' :: (Style.writtenMembers (level + 1) members ++ (style.newline level ++ ['\x7d']))
  | _, value => dumps value

def Style.writtenItems : ℕ → List Json → List Char
  | _, [] => []
  | level, item :: rest =>
      style.newline level ++ (Style.written level item ++ if rest = [] then [] else ',' :: Style.writtenItems level rest)

def Style.writtenMembers : ℕ → List (String × Json) → List Char
  | _, [] => []
  | level, (name, value) :: rest =>
      style.newline level ++ (style.quoted name ++ ':' :: (style.colon ++ (Style.written level value ++
        if rest = [] then [] else ',' :: Style.writtenMembers level rest)))

end

/-- `json.dumps` with `indent=2`, and with other letters than ASCII as they are. -/
def indented : Style where
  escape := escape
  colon := [' ']
  newline level := '\n' :: List.replicate (2 * level) ' '

/-- A code of four hexadecimal digits. -/
def codeText (code : ℕ) : List Char :=
  ['\\', 'u', Nat.digitChar (code / 4096), Nat.digitChar (code / 256 % 16), Nat.digitChar (code / 16 % 16),
    Nat.digitChar (code % 16)]

/-- What stands for a letter where only ASCII is written: a letter beyond four digits is written as a pair. -/
def asciiEscape (letter : Char) : List Char :=
  if letter = '"' then ['\\', '"']
  else if letter = '\\' then ['\\', '\\']
  else if letter = '\n' then ['\\', 'n']
  else if letter = '\r' then ['\\', 'r']
  else if letter = '\t' then ['\\', 't']
  else if letter = '\x08' then ['\\', 'b']
  else if letter = '\x0c' then ['\\', 'f']
  else if 32 ≤ letter.toNat ∧ letter.toNat ≤ 126 then [letter]
  else if letter.toNat < 65536 then codeText letter.toNat
  else codeText (0xD800 + (letter.toNat - 65536) / 1024) ++ codeText (0xDC00 + (letter.toNat - 65536) % 1024)

/-- `json.dumps` with `separators=(",", ":")` and `ensure_ascii=True`. -/
def asciiCompact : Style := ⟨asciiEscape, [], fun _ => []⟩

/-- What `encoding/json` writes for a letter. -/
def goEscape (letter : Char) : List Char :=
  if letter = '"' then ['\\', '"']
  else if letter = '\\' then ['\\', '\\']
  else if letter = '\n' then ['\\', 'n']
  else if letter = '\r' then ['\\', 'r']
  else if letter = '\t' then ['\\', 't']
  else if letter = '\x08' then ['\\', 'b']
  else if letter = '\x0c' then ['\\', 'f']
  else if letter.toNat < 32 ∨ letter ∈ ['<', '>', '&', '\u2028', '\u2029'] then codeText letter.toNat
  else [letter]

/-- `json.Marshal`. -/
def goCompact : Style := ⟨goEscape, [], fun _ => []⟩

end Writing

section Reading

/-- A style whose letters are read from what is written for them, and where nothing else is written but blanks. -/
structure Style.Lawful (style : Style) : Prop where
  escape (fuel : ℕ) (letter : Char) (rest : List Char) :
    stringBody (fuel + 1) (style.escape letter ++ rest) =
      (stringBody fuel rest).map fun read => (letter :: read.1, read.2)
  some_ (letter : Char) : 0 < (style.escape letter).length
  colon : ∀ letter ∈ style.colon, isSpacing letter
  newline (level : ℕ) : ∀ letter ∈ style.newline level, isSpacing letter

variable {floatText : String → String} {style : Style}

theorem skipSpacing_append {blanks : List Char} (all : ∀ letter ∈ blanks, isSpacing letter) (text : List Char) :
    skipSpacing (blanks ++ text) = skipSpacing text := by
  induction blanks with
  | nil => rfl
  | cons blank rest ih =>
      rw [List.cons_append, skipSpacing, List.dropWhile_cons_of_pos (all blank List.mem_cons_self)]
      exact ih fun letter listed => all letter (List.mem_cons_of_mem _ listed)

theorem Style.Lawful.length_le (lawful : style.Lawful) (letters : List Char) :
    letters.length ≤ (letters.flatMap style.escape).length := by
  induction letters with
  | nil => exact Nat.le_refl 0
  | cons letter letters ih =>
      have here := lawful.some_ letter
      rw [List.flatMap_cons, List.length_append, List.length_cons]
      omega

theorem Style.Lawful.stringBody (lawful : style.Lawful) (letters : List Char) (fuel : ℕ) (rest : List Char)
    (enough : letters.length < fuel) :
    Json.stringBody fuel (letters.flatMap style.escape ++ '"' :: rest) = some (letters, rest) := by
  induction letters generalizing fuel with
  | nil =>
      obtain ⟨fuel, rfl⟩ := Nat.exists_eq_add_of_lt enough
      rfl
  | cons letter letters ih =>
      rw [List.length_cons] at enough
      cases fuel with
      | zero => omega
      | succ fuel =>
          rw [List.flatMap_cons, List.append_assoc, lawful.escape, ih fuel (by omega)]
          rfl

theorem Style.Lawful.string_enough (lawful : style.Lawful) (text : String) (rest : List Char) :
    text.toList.length < (text.toList.flatMap style.escape ++ '"' :: rest).length := by
  have shorter := lawful.length_le text.toList
  rw [List.length_append, List.length_cons]
  omega

theorem Style.Lawful.scan_string (lawful : style.Lawful) (fuel : ℕ) (text : String) (rest : List Char) :
    scan floatText (fuel + 1) (style.quoted text ++ rest) = some (.str text, rest) := by
  have body : text.toList.flatMap style.escape ++ ['"'] ++ rest = text.toList.flatMap style.escape ++ '"' :: rest := by
    rw [List.append_assoc, List.singleton_append]
  rw [Style.quoted, List.cons_append, scan, if_pos rfl, body, lawful.stringBody _ _ _ (lawful.string_enough text rest),
    Option.map_some, String.ofList_toList]

theorem Style.Lawful.scanMembers_name (lawful : style.Lawful) (fuel : ℕ) (name : String) (text : List Char) :
    scanMembers floatText (fuel + 1) (style.quoted name ++ ':' :: text) =
      match scan floatText fuel (skipSpacing text) with
      | none => none
      | some (value, rest) =>
          match skipSpacing rest with
          | '\x7d' :: behind => some ([(name, value)], behind)
          | ',' :: behind =>
              (scanMembers floatText fuel (skipSpacing behind)).map fun read => ((name, value) :: read.1, read.2)
          | _ => none := by
  have body : name.toList.flatMap style.escape ++ ['"'] ++ ':' :: text =
      name.toList.flatMap style.escape ++ '"' :: ':' :: text := by
    rw [List.append_assoc, List.singleton_append]
  rw [Style.quoted, List.cons_append, scanMembers, if_neg (not_not.mpr rfl), body,
    lawful.stringBody _ _ _ (lawful.string_enough name (':' :: text))]
  dsimp only
  rw [String.ofList_toList]
  rfl

theorem Style.startsDocument {value : Json} (proper : Proper floatText value) (level : ℕ) :
    StartsDocument (style.written level value) := by
  cases value with
  | arr items =>
      rw [Style.written]
      split
      · exact ⟨'[', _, rfl, rfl, by decide⟩
      · exact ⟨'[', _, rfl, rfl, by decide⟩
  | obj members =>
      rw [Style.written]
      split
      · exact ⟨'\x7b', _, rfl, rfl, by decide⟩
      · exact ⟨'\x7b', _, rfl, rfl, by decide⟩
  | str value => exact ⟨'"', value.toList.flatMap style.escape ++ ['"'], by rw [Style.written, Style.quoted], rfl, by decide⟩
  | null => exact startsDocument_dumps proper
  | bool value => exact startsDocument_dumps proper
  | int value => exact startsDocument_dumps proper
  | float literal => exact startsDocument_dumps proper

theorem Style.Lawful.stops_newline (lawful : style.Lawful) (level : ℕ) {letter : Char} (rest : List Char)
    (stops : isNumberLetter letter = false) : Stops (style.newline level ++ letter :: rest) := by
  intro first here
  cases blanks : style.newline level with
  | nil =>
      rw [blanks] at here
      cases here
      exact stops
  | cons blank others =>
      rw [blanks] at here
      cases here
      have spacing := lawful.newline level first (blanks ▸ List.mem_cons_self)
      rw [isSpacing, decide_eq_true_eq] at spacing
      simp only [List.mem_cons, List.not_mem_nil, or_false] at spacing
      rcases spacing with rfl | rfl | rfl | rfl <;> rfl

mutual

theorem Style.Lawful.scan_written (lawful : style.Lawful) : (level : ℕ) → (value : Json) → Proper floatText value →
    (fuel : ℕ) → (rest : List Char) → (style.written level value).length < fuel → Stops rest →
      scan floatText fuel (style.written level value ++ rest) = some (value, rest)
  | _, value, proper, 0, rest, enough, stops => absurd enough (Nat.not_lt_zero _)
  | _, .null, proper, fuel + 1, rest, enough, stops => scan_dumps .null proper (fuel + 1) rest enough stops
  | _, .bool value, proper, fuel + 1, rest, enough, stops =>
      scan_dumps (.bool value) proper (fuel + 1) rest enough stops
  | _, .int value, proper, fuel + 1, rest, enough, stops =>
      scan_dumps (.int value) proper (fuel + 1) rest enough stops
  | _, .float literal, proper, fuel + 1, rest, enough, stops =>
      scan_dumps (.float literal) proper (fuel + 1) rest enough stops
  | _, .str value, proper, fuel + 1, rest, enough, stops => by
      rw [Style.written]
      exact lawful.scan_string fuel value rest
  | _, .arr [], proper, fuel + 1, rest, enough, stops => rfl
  | level, .arr (item :: items), proper, fuel + 1, rest, enough, stops => by
      rw [Proper] at proper
      rw [Style.written, if_neg (List.cons_ne_nil _ _)] at enough
      simp only [List.length_cons, List.length_append, List.length_nil] at enough
      have read := lawful.scanItems_written (level + 1) level item items proper fuel rest (by omega)
      have first := proper
      rw [ProperItems] at first
      obtain ⟨letter, others, starts, solid, notEnd⟩ := @Style.startsDocument _ style _ first.1 (level + 1)
      rw [Style.written, if_neg (List.cons_ne_nil _ _), List.cons_append, List.append_assoc, List.append_assoc,
        List.singleton_append, scan, if_neg (by decide), if_pos rfl]
      have skip : ∃ behind, skipSpacing (style.writtenItems (level + 1) (item :: items) ++
          (style.newline level ++ ']' :: rest)) = letter :: behind := by
        rw [Style.writtenItems, List.append_assoc, skipSpacing_append (lawful.newline _), List.append_assoc,
          skipSpacing_eq ⟨letter, others, starts, solid, notEnd⟩, starts]
        exact ⟨_, rfl⟩
      obtain ⟨behind, skip⟩ := skip
      rw [skip] at read ⊢
      dsimp only
      rw [if_neg notEnd, read]
      rfl
  | _, .obj [], proper, fuel + 1, rest, enough, stops => rfl
  | level, .obj ((name, value) :: members), proper, fuel + 1, rest, enough, stops => by
      rw [Proper] at proper
      rw [Style.written, if_neg (List.cons_ne_nil _ _)] at enough
      simp only [List.length_cons, List.length_append, List.length_nil] at enough
      have read := lawful.scanMembers_written (level + 1) level name value members proper.2 fuel rest (by omega)
      rw [Style.written, if_neg (List.cons_ne_nil _ _), List.cons_append, List.append_assoc, List.append_assoc,
        List.singleton_append, scan, if_neg (by decide), if_neg (by decide), if_pos rfl]
      have skip : ∃ behind, skipSpacing (style.writtenMembers (level + 1) ((name, value) :: members) ++
          (style.newline level ++ '\x7d' :: rest)) = '"' :: behind := by
        rw [Style.writtenMembers, List.append_assoc, skipSpacing_append (lawful.newline _), Style.quoted]
        exact ⟨_, rfl⟩
      obtain ⟨behind, skip⟩ := skip
      rw [skip] at read ⊢
      dsimp only
      rw [if_neg (by decide), read, Option.map_some]
      exact congrArg (fun members => some (Json.obj members, rest)) (update_of_distinct proper.1)
termination_by structural _ _ _ fuel => fuel

theorem Style.Lawful.scanItems_written (lawful : style.Lawful) : (level closing : ℕ) → (item : Json) →
    (items : List Json) → ProperItems floatText (item :: items) → (fuel : ℕ) → (rest : List Char) →
      (style.writtenItems level (item :: items)).length + 1 < fuel →
        scanItems floatText fuel (skipSpacing (style.writtenItems level (item :: items) ++
          (style.newline closing ++ ']' :: rest))) = some (item :: items, rest)
  | _, _, item, items, proper, 0, rest, enough => absurd enough (Nat.not_lt_zero _)
  | level, closing, item, [], proper, fuel + 1, rest, enough => by
      rw [ProperItems] at proper
      rw [Style.writtenItems, if_pos rfl, List.append_nil] at enough ⊢
      rw [List.length_append] at enough
      rw [List.append_assoc, skipSpacing_append (lawful.newline _), skipSpacing_eq (Style.startsDocument proper.1 level),
        scanItems, lawful.scan_written level item proper.1 fuel _ (by omega) (lawful.stops_newline closing rest rfl)]
      dsimp only
      rw [skipSpacing_append (lawful.newline _)]
      rfl
  | level, closing, item, next :: items, proper, fuel + 1, rest, enough => by
      rw [ProperItems] at proper
      rw [Style.writtenItems, if_neg (List.cons_ne_nil _ _)] at enough ⊢
      rw [List.length_append, List.length_append, List.length_cons] at enough
      have read := lawful.scanItems_written level closing next items proper.2 fuel rest (by omega)
      rw [List.append_assoc, skipSpacing_append (lawful.newline _), List.append_assoc,
        skipSpacing_eq (Style.startsDocument proper.1 level), scanItems,
        lawful.scan_written level item proper.1 fuel _ (by omega) (by intro letter here; cases here; rfl)]
      change (scanItems floatText fuel (skipSpacing (style.writtenItems level (next :: items) ++
        (style.newline closing ++ ']' :: rest)))).map (fun read => (item :: read.1, read.2)) = _
      rw [read]
      rfl
termination_by structural _ _ _ _ _ fuel => fuel

theorem Style.Lawful.scanMembers_written (lawful : style.Lawful) : (level closing : ℕ) → (name : String) →
    (value : Json) → (members : List (String × Json)) → ProperMembers floatText ((name, value) :: members) →
      (fuel : ℕ) → (rest : List Char) → (style.writtenMembers level ((name, value) :: members)).length + 1 < fuel →
        scanMembers floatText fuel (skipSpacing (style.writtenMembers level ((name, value) :: members) ++
          (style.newline closing ++ '\x7d' :: rest))) = some ((name, value) :: members, rest)
  | _, _, name, value, members, proper, 0, rest, enough => absurd enough (Nat.not_lt_zero _)
  | level, closing, name, value, [], proper, fuel + 1, rest, enough => by
      rw [ProperMembers] at proper
      rw [Style.writtenMembers, if_pos rfl, List.append_nil] at enough
      simp only [List.length_append, List.length_cons] at enough
      have read := lawful.scan_written level value proper.1 fuel (style.newline closing ++ '\x7d' :: rest) (by omega)
        (lawful.stops_newline closing rest rfl)
      have text : skipSpacing (style.writtenMembers level [(name, value)] ++
          (style.newline closing ++ '\x7d' :: rest)) =
            style.quoted name ++ ':' :: (style.colon ++ (style.written level value ++
              (style.newline closing ++ '\x7d' :: rest))) := by
        rw [Style.writtenMembers, if_pos rfl, List.append_assoc, skipSpacing_append (lawful.newline _), Style.quoted]
        simp only [List.cons_append, List.append_assoc, List.nil_append]
        rfl
      rw [text, lawful.scanMembers_name, skipSpacing_append lawful.colon,
        skipSpacing_eq (Style.startsDocument proper.1 level), read]
      dsimp only
      rw [skipSpacing_append (lawful.newline _)]
      rfl
  | level, closing, name, value, (title, held) :: members, proper, fuel + 1, rest, enough => by
      rw [ProperMembers] at proper
      rw [Style.writtenMembers, if_neg (List.cons_ne_nil _ _)] at enough
      simp only [List.length_append, List.length_cons] at enough
      have read := lawful.scan_written level value proper.1 fuel (',' ::
        (style.writtenMembers level ((title, held) :: members) ++ (style.newline closing ++ '\x7d' :: rest))) (by omega)
        (by intro letter here; cases here; rfl)
      have others := lawful.scanMembers_written level closing title held members proper.2 fuel rest (by omega)
      have text : skipSpacing (style.writtenMembers level ((name, value) :: (title, held) :: members) ++
          (style.newline closing ++ '\x7d' :: rest)) =
            style.quoted name ++ ':' :: (style.colon ++ (style.written level value ++
              ',' :: (style.writtenMembers level ((title, held) :: members) ++
                (style.newline closing ++ '\x7d' :: rest)))) := by
        rw [Style.writtenMembers, if_neg (List.cons_ne_nil _ _), List.append_assoc,
          skipSpacing_append (lawful.newline _), Style.quoted]
        simp only [List.cons_append, List.append_assoc, List.nil_append]
        rfl
      rw [text, lawful.scanMembers_name, skipSpacing_append lawful.colon,
        skipSpacing_eq (Style.startsDocument proper.1 level), read]
      change (scanMembers floatText fuel (skipSpacing (style.writtenMembers level ((title, held) :: members) ++
        (style.newline closing ++ '\x7d' :: rest)))).map (fun read => ((name, value) :: read.1, read.2)) = _
      rw [others]
      rfl
termination_by structural _ _ _ _ _ _ fuel => fuel

end

theorem Style.Lawful.loads_written (lawful : style.Lawful) {value : Json} (proper : Proper floatText value) :
    loads floatText (style.written 0 value) = some value := by
  have starts : StartsDocument (style.written 0 value) := Style.startsDocument proper 0
  have read := lawful.scan_written 0 value proper ((style.written 0 value).length + 1) [] (Nat.lt_succ_self _)
    (by intro letter here; cases here)
  have skip := skipSpacing_eq starts []
  rw [List.append_nil] at read skip
  unfold loads
  rw [skip, read]
  rfl

theorem Style.Lawful.written_injective (lawful : style.Lawful) {first second : Json} (proper : Proper floatText first)
    (alsoProper : Proper floatText second) (same : style.written 0 first = style.written 0 second) :
    first = second := by
  have read := lawful.loads_written proper
  rw [same, lawful.loads_written alsoProper] at read
  exact (Option.some.inj read).symm

end Reading

section Styles

theorem indented_lawful : indented.Lawful where
  escape := stringBody_escape
  some_ letter := by
    have shorter := length_le_flatMap_escape [letter]
    rw [List.flatMap_singleton] at shorter
    exact shorter
  colon letter listed := by
    rw [List.mem_singleton.mp listed]
    rfl
  newline level := by
    intro letter listed
    rcases List.mem_cons.mp listed with rfl | blank
    · rfl
    · rw [List.eq_of_mem_replicate blank]
      rfl

theorem codeUnit_codeText {code : ℕ} (small : code < 65536) (rest : List Char) :
    codeUnit ((codeText code).drop 2 ++ rest) = some (code, rest) := by
  have first := digitChar_hexValue (code / 4096) (by omega)
  have second := digitChar_hexValue (code / 256 % 16) (by omega)
  have third := digitChar_hexValue (code / 16 % 16) (by omega)
  have last := digitChar_hexValue (code % 16) (by omega)
  have whole : ((code / 4096 * 16 + code / 256 % 16) * 16 + code / 16 % 16) * 16 + code % 16 = code := by omega
  change codeUnit (Nat.digitChar (code / 4096) :: Nat.digitChar (code / 256 % 16) ::
    Nat.digitChar (code / 16 % 16) :: Nat.digitChar (code % 16) :: rest) = _
  unfold codeUnit
  dsimp only [bind, Option.bind]
  rw [first, second, third, last]
  exact congrArg (fun code => some (code, rest)) whole

theorem codeLetter_single {code : ℕ} (plain : code < 0xD800 ∨ 0xDFFF < code) (small : code < 65536)
    (rest : List Char) : codeLetter ((codeText code).drop 2 ++ rest) = some (Char.ofNat code, rest) := by
  unfold codeLetter
  rw [codeUnit_codeText small]
  dsimp only [bind, Option.bind]
  rw [if_neg (by omega), if_neg (by omega)]
  rfl

theorem codeLetter_pair {high low : ℕ} (first : 0xD800 ≤ high ∧ high ≤ 0xDBFF) (second : 0xDC00 ≤ low ∧ low ≤ 0xDFFF)
    (rest : List Char) :
    codeLetter ((codeText high ++ codeText low).drop 2 ++ rest) =
      some (Char.ofNat (0x10000 + (high - 0xD800) * 0x400 + (low - 0xDC00)), rest) := by
  have split : (codeText high ++ codeText low).drop 2 ++ rest =
      (codeText high).drop 2 ++ ('\\' :: 'u' :: ((codeText low).drop 2 ++ rest)) := rfl
  rw [split]
  unfold codeLetter
  rw [codeUnit_codeText (by omega)]
  dsimp only [bind, Option.bind]
  rw [if_pos first]
  simp only [codeUnit_codeText (show low < 65536 by omega)]
  rw [if_pos second]
  rfl

theorem codeLetter_codeText (letter : Char) (rest : List Char) :
    codeLetter ((if letter.toNat < 65536 then codeText letter.toNat
      else codeText (0xD800 + (letter.toNat - 65536) / 1024) ++
        codeText (0xDC00 + (letter.toNat - 65536) % 1024)).drop 2 ++ rest) = some (letter, rest) := by
  have valid : letter.toNat < 0xD800 ∨ 0xDFFF < letter.toNat ∧ letter.toNat < 0x110000 := letter.valid
  split
  · next small => rw [codeLetter_single (by omega) small, Char.ofNat_toNat]
  · next large =>
      have whole : 0x10000 + (0xD800 + (letter.toNat - 65536) / 1024 - 0xD800) * 0x400 +
          (0xDC00 + (letter.toNat - 65536) % 1024 - 0xDC00) = letter.toNat := by omega
      rw [codeLetter_pair (by omega) (by omega), whole, Char.ofNat_toNat]

theorem stringBody_escaped {fuel : ℕ} {letter : Char} {behind rest : List Char}
    (read : escaped behind = some (letter, rest)) :
    stringBody (fuel + 1) ('\\' :: behind) = (stringBody fuel rest).map fun read => (letter :: read.1, read.2) := by
  rw [stringBody, if_neg (by decide), if_pos rfl, read]
  dsimp only [bind, Option.bind]
  cases stringBody fuel rest <;> rfl

theorem asciiCompact_lawful : asciiCompact.Lawful where
  escape fuel letter rest := by
    change stringBody (fuel + 1) (asciiEscape letter ++ rest) = _
    have coded := codeLetter_codeText letter rest
    unfold asciiEscape
    by_cases quote : letter = '"'
    · rw [if_pos quote]
      exact stringBody_escaped (by rw [quote]; rfl)
    rw [if_neg quote]
    by_cases backslash : letter = '\\'
    · rw [if_pos backslash]
      exact stringBody_escaped (by rw [backslash]; rfl)
    rw [if_neg backslash]
    by_cases newline : letter = '\n'
    · rw [if_pos newline]
      exact stringBody_escaped (by rw [newline]; rfl)
    rw [if_neg newline]
    by_cases return_ : letter = '\r'
    · rw [if_pos return_]
      exact stringBody_escaped (by rw [return_]; rfl)
    rw [if_neg return_]
    by_cases tab : letter = '\t'
    · rw [if_pos tab]
      exact stringBody_escaped (by rw [tab]; rfl)
    rw [if_neg tab]
    by_cases back : letter = '\x08'
    · rw [if_pos back]
      exact stringBody_escaped (by rw [back]; rfl)
    rw [if_neg back]
    by_cases form : letter = '\x0c'
    · rw [if_pos form]
      exact stringBody_escaped (by rw [form]; rfl)
    rw [if_neg form]
    by_cases plain : 32 ≤ letter.toNat ∧ letter.toNat ≤ 126
    · rw [if_pos plain, List.singleton_append, stringBody, if_neg quote, if_neg backslash, if_neg (by omega)]
      cases stringBody fuel rest <;> rfl
    rw [if_neg plain]
    by_cases small : letter.toNat < 65536
    · rw [if_pos small] at coded ⊢
      exact stringBody_escaped coded
    · rw [if_neg small] at coded ⊢
      exact stringBody_escaped coded
  some_ letter := by
    change 0 < (asciiEscape letter).length
    unfold asciiEscape
    repeat' apply length_ite_pos
    all_goals exact Nat.succ_pos _
  colon letter listed := by cases listed
  newline level := by
    intro letter listed
    cases listed

theorem goEscape_special {letter : Char}
    (special : letter.toNat < 32 ∨ letter ∈ ['<', '>', '&', '\u2028', '\u2029']) : letter.toNat < 65536 := by
  rcases special with control | listed
  · omega
  · have each : ∀ letter ∈ ['<', '>', '&', '\u2028', '\u2029'], letter.toNat < 65536 :=
      List.all_iff_forall_prop.mp (by decide)
    exact each letter listed

theorem goCompact_lawful : goCompact.Lawful where
  escape fuel letter rest := by
    change stringBody (fuel + 1) (goEscape letter ++ rest) = _
    have coded := codeLetter_codeText letter rest
    unfold goEscape
    by_cases quote : letter = '"'
    · rw [if_pos quote]
      exact stringBody_escaped (by rw [quote]; rfl)
    rw [if_neg quote]
    by_cases backslash : letter = '\\'
    · rw [if_pos backslash]
      exact stringBody_escaped (by rw [backslash]; rfl)
    rw [if_neg backslash]
    by_cases newline : letter = '\n'
    · rw [if_pos newline]
      exact stringBody_escaped (by rw [newline]; rfl)
    rw [if_neg newline]
    by_cases return_ : letter = '\r'
    · rw [if_pos return_]
      exact stringBody_escaped (by rw [return_]; rfl)
    rw [if_neg return_]
    by_cases tab : letter = '\t'
    · rw [if_pos tab]
      exact stringBody_escaped (by rw [tab]; rfl)
    rw [if_neg tab]
    by_cases back : letter = '\x08'
    · rw [if_pos back]
      exact stringBody_escaped (by rw [back]; rfl)
    rw [if_neg back]
    by_cases form : letter = '\x0c'
    · rw [if_pos form]
      exact stringBody_escaped (by rw [form]; rfl)
    rw [if_neg form]
    by_cases special : letter.toNat < 32 ∨ letter ∈ ['<', '>', '&', '\u2028', '\u2029']
    · rw [if_pos special]
      rw [if_pos (goEscape_special special)] at coded
      exact stringBody_escaped coded
    · rw [if_neg special, List.singleton_append, stringBody, if_neg quote, if_neg backslash,
        if_neg fun control => special (.inl control)]
      cases stringBody fuel rest <;> rfl
  some_ letter := by
    change 0 < (goEscape letter).length
    unfold goEscape
    repeat' apply length_ite_pos
    all_goals exact Nat.succ_pos _
  colon letter listed := by cases listed
  newline level := by
    intro letter listed
    cases listed

end Styles

end Foundation.Json
