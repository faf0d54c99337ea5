import Sico.Foundation.JsonStyles
import Sico.Foundation.Replacement

/-! # Looking for a member in the text of a document

The text `"name":` with the beginning of a value behind it is looked for in the text of a document that is written
without blanks. It is found where a member of some object in the document, however deep, has that name and such a
value, and also where the name of a member ends with a quote and the name (`Foundation.Json.infix_written_iff`). It is
found nowhere else: a quote within a string has a backslash before it, and no colon stands behind a string that is
no name.
-/

namespace Foundation.Json

open Replacement

section Seeking

/-- A style without blanks, in which the only letter written with a quote is the quote. -/
structure Style.Tight (style : Style) : Prop where
  colon : style.colon = []
  newline (level : ℕ) : style.newline level = []
  quote : style.escape '"' = ['\\', '"']
  others (letter : Char) : letter ≠ '"' →
    letter ≠ '\\' ∧ style.escape letter = [letter] ∨ ∃ coded, style.escape letter = '\\' :: coded ∧ '"' ∉ coded

/-- A name whose letters are written as they are. -/
structure Style.PlainName (style : Style) (name : List Char) : Prop where
  letters : ∀ letter ∈ name, letter ≠ '"' ∧ letter ≠ '\\' ∧ style.escape letter = [letter]
  some_ : name ≠ []
  /-- It does not begin with what may stand behind a string. -/
  first : ∀ letter ∈ name.head?, letter ∉ [':', ',', ']', '}']

def sought (name value : List Char) : List Char := '"' :: (name ++ '"' :: ':' :: value)

/-- A name in whose text the one looked for is found. -/
def NamesLike (name : List Char) (key : String) : Prop := key.toList = name ∨ '"' :: name <:+ key.toList

instance (name : List Char) (key : String) : Decidable (NamesLike name key) :=
  inferInstanceAs (Decidable (_ ∨ _))

mutual

/-- Some member of an object in the document passes the test. -/
def Has (test : String → Json → Prop) : Json → Prop
  | .arr items => HasItems test items
  | .obj members => HasMembers test members
  | _ => False

def HasItems (test : String → Json → Prop) : List Json → Prop
  | [] => False
  | item :: rest => Has test item ∨ HasItems test rest

def HasMembers (test : String → Json → Prop) : List (String × Json) → Prop
  | [] => False
  | (name, value) :: rest => test name value ∨ Has test value ∨ HasMembers test rest

end

theorem hasMembers_iff {test : String → Json → Prop} {members : List (String × Json)} :
    HasMembers test members ↔ ∃ member ∈ members, test member.1 member.2 ∨ member.2.Has test := by
  induction members with
  | nil => simp [HasMembers]
  | cons member rest ih => rw [HasMembers, ih, List.exists_mem_cons_iff, or_assoc]

theorem has_str {test : String → Json → Prop} (text : String) : ¬ (str text).Has test := id

/-- What may stand behind a document. -/
def Closes (behind : List Char) : Prop := ∀ letter ∈ behind.head?, letter ∈ [',', ']', '}']

end Seeking

section Strings

variable {style : Style} {name value : List Char}

theorem Style.Tight.prefix_escapes (tight : style.Tight) (plain : ∀ letter ∈ name, letter ≠ '"' ∧ letter ≠ '\\' ∧ style.escape letter = [letter])
    (letters tail rest : List Char) :
    name ++ '"' :: tail <+: letters.flatMap style.escape ++ '"' :: rest ↔ letters = name ∧ tail <+: rest := by
  induction name generalizing letters with
  | nil =>
      cases letters with
      | nil => simp
      | cons letter others =>
          have apart : ¬ ([] ++ '"' :: tail <+: (letter :: others).flatMap style.escape ++ '"' :: rest) := by
            rw [List.flatMap_cons, List.append_assoc, List.nil_append]
            intro begins
            by_cases quote : letter = '"'
            · rw [quote, tight.quote] at begins
              exact absurd (List.cons_prefix_cons.mp begins).1 (by decide)
            · rcases tight.others letter quote with ⟨_, same⟩ | ⟨coded, same, _⟩
              · rw [same] at begins
                exact quote (List.cons_prefix_cons.mp begins).1.symm
              · rw [same] at begins
                exact absurd (List.cons_prefix_cons.mp begins).1 (by decide)
          exact iff_of_false apart fun both => List.cons_ne_nil _ _ both.1
  | cons first name ih =>
      obtain ⟨here, others⟩ := List.forall_mem_cons.mp plain
      cases letters with
      | nil =>
          refine iff_of_false ?_ fun both => List.cons_ne_nil _ _ both.1.symm
          intro begins
          exact here.1 (List.cons_prefix_cons.mp begins).1
      | cons letter letters =>
          rw [List.flatMap_cons, List.append_assoc, List.cons_append, List.cons.injEq, and_assoc, ← ih others letters]
          by_cases quote : letter = '"'
          · rw [quote, tight.quote]
            refine iff_of_false (fun begins => here.2.1 (List.cons_prefix_cons.mp begins).1) ?_
            exact fun both => here.1 both.1.symm
          · rcases tight.others letter quote with ⟨_, same⟩ | ⟨coded, same, _⟩
            · rw [same, List.singleton_append, List.cons_prefix_cons, eq_comm]
            · rw [same]
              refine iff_of_false (fun begins => here.2.1 (List.cons_prefix_cons.mp begins).1) ?_
              intro both
              rw [both.1, here.2.2] at same
              exact here.2.1 (List.cons.inj same).1

theorem Style.Tight.startsIn_escapes (tight : style.Tight) (plain : style.PlainName name) (letters rest : List Char) :
    StartsIn (sought name value) (letters.flatMap style.escape) ('"' :: rest) ↔
      '"' :: name <:+ letters ∧ ':' :: value <+: rest := by
  induction letters with
  | nil => exact iff_of_false startsIn_nil fun both => List.cons_ne_nil _ _ (List.suffix_nil.mp both.1)
  | cons letter letters ih =>
      rw [List.flatMap_cons, startsIn_append, ih, List.suffix_cons_iff]
      by_cases quote : letter = '"'
      · have here : StartsIn (sought name value) ['\\', '"'] (letters.flatMap style.escape ++ '"' :: rest) ↔
            letters = name ∧ ':' :: value <+: rest := by
          rw [startsIn_cons, startsIn_cons, or_iff_left startsIn_nil, sought, List.cons_prefix_cons,
            List.cons_prefix_cons, List.nil_append, tight.prefix_escapes plain.letters]
          simp
        rw [quote, tight.quote, here, List.cons.injEq]
        constructor
        · rintro (⟨same, follows⟩ | ⟨ends, follows⟩)
          · exact ⟨.inl ⟨rfl, same.symm⟩, follows⟩
          · exact ⟨.inr ends, follows⟩
        · rintro ⟨⟨_, same⟩ | ends, follows⟩
          · exact .inl ⟨same.symm, follows⟩
          · exact .inr ⟨ends, follows⟩
      · have absent : '"' ∉ style.escape letter := by
          rcases tight.others letter quote with ⟨_, same⟩ | ⟨coded, same, absent⟩
          · rw [same]
            exact fun listed => quote (List.mem_singleton.mp listed).symm
          · rw [same]
            intro listed
            rcases List.mem_cons.mp listed with other | inside
            · exact absurd other (by decide)
            · exact absent inside
        have nowhere : ¬ StartsIn (sought name value) (style.escape letter) (letters.flatMap style.escape ++ '"' :: rest) :=
          not_startsIn absent
        rw [or_iff_right nowhere]
        have apart : ¬ '"' :: name = letter :: letters := fun same => quote (List.cons.inj same).1.symm
        rw [or_iff_right apart]

theorem Style.Tight.startsIn_quoted (tight : style.Tight) (plain : style.PlainName name) (key : String)
    {rest : List Char} (behind : ∀ letter ∈ rest.head?, letter ∈ [':', ',', ']', '}']) :
    StartsIn (sought name value) (style.quoted key) rest ↔ NamesLike name key ∧ ':' :: value <+: rest := by
  have closing : ¬ StartsIn (sought name value) ['"'] rest := by
    rw [startsIn_cons, or_iff_left startsIn_nil, sought, List.cons_prefix_cons, List.nil_append]
    intro ⟨_, begins⟩
    cases named : name with
    | nil => exact plain.some_ named
    | cons first others =>
        rw [named] at begins
        cases rest with
        | nil => exact absurd (List.prefix_nil.mp begins) (List.cons_ne_nil _ _)
        | cons letter later =>
            rw [List.cons_append, List.cons_prefix_cons] at begins
            exact plain.first first (by rw [named]; rfl) (begins.1 ▸ behind letter rfl)
  rw [Style.quoted, startsIn_cons, startsIn_append, or_iff_left closing, List.singleton_append,
    tight.startsIn_escapes plain, List.append_assoc, List.singleton_append, sought, List.cons_prefix_cons,
    and_iff_right rfl, tight.prefix_escapes plain.letters]
  exact (or_and_right).symm

end Strings

section Documents

variable {floatText : String → String} {style : Style} {name value : List Char}

theorem quote_notMem_dumps {document : Json} (proper : Proper floatText document)
    (scalar : match document with | .str _ | .arr _ | .obj _ => False | _ => True) : '"' ∉ dumps document := by
  cases document with
  | null => decide
  | bool truth => cases truth <;> decide
  | int number => exact notMem_toString_int rfl (by decide) number
  | float literal =>
      rcases proper with word | ⟨fractional, _⟩
      · have each : ∀ word ∈ ["NaN", "Infinity", "-Infinity"], '"' ∉ word.toList := by decide
        exact each literal word
      · exact fun listed => absurd (isFractional_letters fractional _ listed) (by decide)
  | _ => exact scalar.elim

variable {begun : Json → Prop}

/-- A document begins as the value that is looked for, whatever is behind it. -/
def Begins (floatText : String → String) (style : Style) (value : List Char) (begun : Json → Prop) : Prop :=
  ∀ document, Proper floatText document → ∀ level behind, Closes behind →
    (value <+: style.written level document ++ behind ↔ begun document)

theorem closes_comma (text : List Char) : Closes (',' :: text) := by
  intro letter first
  cases first
  decide

theorem not_prefix_sought {letter : Char} (unquoted : letter ≠ '"') (text : List Char) :
    ¬ sought name value <+: letter :: text :=
  fun begins => unquoted (List.cons_prefix_cons.mp begins).1.symm

theorem Style.Tight.startsIn_member (tight : style.Tight) (plain : style.PlainName name)
    (begins : Begins floatText style value begun) (key : String) {held : Json} (proper : Proper floatText held)
    {level : ℕ} {behind : List Char} (closes : Closes behind)
    (within : StartsIn (sought name value) (style.written level held) behind ↔
      held.Has fun key held => NamesLike name key ∧ begun held) :
    StartsIn (sought name value) (style.quoted key ++ ':' :: style.written level held) behind ↔
      NamesLike name key ∧ begun held ∨ held.Has fun key held => NamesLike name key ∧ begun held := by
  have colon : ∀ letter ∈ (':' :: (style.written level held ++ behind)).head?, letter ∈ [':', ',', ']', '\x7d'] := by
    intro letter first
    cases first
    decide
  have named : StartsIn (sought name value) _ _ ↔ _ := tight.startsIn_quoted plain key colon
  rw [List.cons_prefix_cons, and_iff_right rfl, begins held proper level behind closes] at named
  rw [startsIn_append, List.cons_append, named, startsIn_cons, or_iff_right (not_prefix_sought (by decide) _), within]

mutual

theorem Style.Tight.startsIn_written (tight : style.Tight) (plain : style.PlainName name)
    (begins : Begins floatText style value begun) : (level : ℕ) → (document : Json) → Proper floatText document →
      (behind : List Char) → Closes behind →
        (StartsIn (sought name value) (style.written level document) behind ↔
          document.Has fun key held => NamesLike name key ∧ begun held)
  | _, .null, proper, _, _ => iff_of_false (not_startsIn (quote_notMem_dumps proper trivial)) id
  | _, .bool _, proper, _, _ => iff_of_false (not_startsIn (quote_notMem_dumps proper trivial)) id
  | _, .int _, proper, _, _ => iff_of_false (not_startsIn (quote_notMem_dumps proper trivial)) id
  | _, .float _, proper, _, _ => iff_of_false (not_startsIn (quote_notMem_dumps proper trivial)) id
  | _, .str text, _, behind, closes => by
      rw [Style.written]
      refine iff_of_false ?_ id
      rw [tight.startsIn_quoted plain text fun letter first => List.mem_cons_of_mem _ (closes letter first)]
      rintro ⟨_, colon, whole⟩
      have head := closes ':' (by rw [← whole]; rfl)
      exact absurd head (by decide)
  | level, .arr items, proper, behind, closes => by
      rw [Proper] at proper
      rw [Style.written, Has]
      split
      · next empty =>
          rw [empty]
          exact iff_of_false (not_startsIn (by decide)) id
      · have inner := tight.startsIn_writtenItems plain begins (level + 1) items proper (']' :: behind)
          (by intro letter first; cases first; decide)
        rw [tight.newline, List.nil_append, startsIn_cons, startsIn_append, ← inner]
        have closing : ¬ StartsIn (sought name value) [']'] behind := not_startsIn (by decide)
        rw [or_iff_right (not_prefix_sought (by decide) _), or_iff_left closing]
        rfl
  | level, .obj members, proper, behind, closes => by
      rw [Proper] at proper
      rw [Style.written, Has]
      split
      · next empty =>
          rw [empty]
          exact iff_of_false (not_startsIn (by decide)) id
      · have inner := tight.startsIn_writtenMembers plain begins (level + 1) members proper.2 ('\x7d' :: behind)
          (by intro letter first; cases first; decide)
        rw [tight.newline, List.nil_append, startsIn_cons, startsIn_append, ← inner]
        have closing : ¬ StartsIn (sought name value) ['\x7d'] behind := not_startsIn (by decide)
        rw [or_iff_right (not_prefix_sought (by decide) _), or_iff_left closing]
        rfl

theorem Style.Tight.startsIn_writtenItems (tight : style.Tight) (plain : style.PlainName name)
    (begins : Begins floatText style value begun) : (level : ℕ) → (items : List Json) → ProperItems floatText items →
      (behind : List Char) → Closes behind →
        (StartsIn (sought name value) (style.writtenItems level items) behind ↔
          HasItems (fun key held => NamesLike name key ∧ begun held) items)
  | _, [], _, _, _ => iff_of_false startsIn_nil id
  | level, item :: rest, proper, behind, closes => by
      rw [ProperItems] at proper
      rw [Style.writtenItems, tight.newline, List.nil_append, HasItems, startsIn_append]
      by_cases last : rest = []
      · rw [if_pos last, List.nil_append, last, or_iff_left startsIn_nil,
          tight.startsIn_written plain begins level item proper.1 behind closes, HasItems, or_false]
      · have first := tight.startsIn_written plain begins level item proper.1
          (',' :: style.writtenItems level rest ++ behind) (closes_comma _)
        rw [if_neg last, first, startsIn_cons, or_iff_right (not_prefix_sought (by decide) _),
          tight.startsIn_writtenItems plain begins level rest proper.2 behind closes]

theorem Style.Tight.startsIn_writtenMembers (tight : style.Tight) (plain : style.PlainName name)
    (begins : Begins floatText style value begun) : (level : ℕ) → (members : List (String × Json)) →
      ProperMembers floatText members → (behind : List Char) → Closes behind →
        (StartsIn (sought name value) (style.writtenMembers level members) behind ↔
          HasMembers (fun key held => NamesLike name key ∧ begun held) members)
  | _, [], _, _, _ => iff_of_false startsIn_nil id
  | level, (key, held) :: rest, proper, behind, closes => by
      rw [ProperMembers] at proper
      rw [Style.writtenMembers, tight.newline, tight.colon, List.nil_append, List.nil_append, HasMembers]
      by_cases last : rest = []
      · rw [if_pos last, last, HasMembers, or_false, List.append_nil]
        exact tight.startsIn_member plain begins key proper.1 closes
          (tight.startsIn_written plain begins level held proper.1 behind closes)
      · have follows : Closes (',' :: style.writtenMembers level rest ++ behind) := closes_comma _
        have first := tight.startsIn_member plain begins key proper.1 follows
          (tight.startsIn_written plain begins level held proper.1 _ follows)
        have others := tight.startsIn_writtenMembers plain begins level rest proper.2 behind closes
        have whole : style.quoted key ++ ':' :: (style.written level held ++ ',' :: style.writtenMembers level rest) =
            style.quoted key ++ ':' :: style.written level held ++ ',' :: style.writtenMembers level rest := by
          rw [List.append_assoc, List.cons_append]
        rw [if_neg last, whole, startsIn_append, first, startsIn_cons, or_iff_right (not_prefix_sought (by decide) _),
          others, or_assoc]

end

/-- **Where a member is found.** It is found if and only if a member of some object in the document has a name like
it and a value that begins as what is looked for. -/
theorem Style.Tight.infix_written_iff (tight : style.Tight) (plain : style.PlainName name)
    (begins : Begins floatText style value begun) {document : Json} (proper : Proper floatText document) :
    sought name value <:+: style.written 0 document ↔ document.Has fun key held => NamesLike name key ∧ begun held := by
  have some_ : sought name value ≠ [] := List.cons_ne_nil _ _
  rw [infix_iff_startsIn some_]
  exact tight.startsIn_written plain begins 0 document proper [] (by intro letter first; cases first)

theorem Style.Tight.replaceFirst_members (tight : style.Tight) (plain : style.PlainName name)
    (begins : Begins floatText style value begun) {key : String} (named : key.toList = name)
    {old new : Json} {level : ℕ} (text : style.written level old = value) (behind : List (String × Json))
    (tail : List Char) :
    (before : List (String × Json)) → ProperMembers floatText before →
      ¬ HasMembers (fun key held => NamesLike name key ∧ begun held) before →
        replaceFirst (sought name value) (sought name (style.written level new))
            (style.writtenMembers level (before ++ (key, old) :: behind) ++ tail) =
          some (style.writtenMembers level (before ++ (key, new) :: behind) ++ tail)
  | [], _, _ => by
      have plainly : key.toList.flatMap style.escape = name := by
        rw [named]
        have each : ∀ letters : List Char, (∀ letter ∈ letters, style.escape letter = [letter]) →
            letters.flatMap style.escape = letters := by
          intro letters all
          rw [List.flatMap_congr all]
          simp
        exact each name fun letter listed => (plain.letters letter listed).2.2
      have member (held : Json) : style.quoted key ++ ':' :: style.written level held =
          sought name (style.written level held) := by
        rw [Style.quoted, plainly, sought, List.cons_append, List.append_assoc, List.singleton_append]
      have whole (held : Json) : style.writtenMembers level ([] ++ (key, held) :: behind) ++ tail =
          sought name (style.written level held) ++
            ((if behind = [] then [] else ',' :: style.writtenMembers level behind) ++ tail) := by
        rw [List.nil_append, Style.writtenMembers, tight.newline, tight.colon, List.nil_append, List.nil_append,
          ← member, List.append_assoc, List.append_assoc, List.cons_append, List.cons_append, List.append_assoc]
      rw [whole old, whole new, text]
      exact replaceFirst_here (List.cons_ne_nil _ _)
  | (first, held) :: before, proper, none_ => by
      rw [ProperMembers] at proper
      rw [HasMembers, ← or_assoc, not_or] at none_
      have more (other : Json) : before ++ (key, other) :: behind ≠ [] :=
        List.append_ne_nil_of_right_ne_nil _ (List.cons_ne_nil _ _)
      have whole (other : Json) : style.writtenMembers level ((first, held) :: before ++ (key, other) :: behind) ++ tail =
          style.quoted first ++ ':' :: style.written level held ++
            ([','] ++ (style.writtenMembers level (before ++ (key, other) :: behind) ++ tail)) := by
        rw [List.cons_append, Style.writtenMembers, tight.newline, tight.colon, List.nil_append, List.nil_append,
          if_neg (more other)]
        simp only [List.append_assoc, List.cons_append, List.nil_append]
      have follows : Closes ([','] ++ (style.writtenMembers level (before ++ (key, old) :: behind) ++ tail)) :=
        closes_comma _
      have absent := (tight.startsIn_member plain begins first proper.1 follows
        (tight.startsIn_written plain begins level held proper.1 _ follows)).not.mpr none_.1
      have comma : ¬ StartsIn (sought name value) [',']
          (style.writtenMembers level (before ++ (key, old) :: behind) ++ tail) := not_startsIn (by decide)
      rw [whole old, whole new, replaceFirst_append absent, replaceFirst_append comma,
        tight.replaceFirst_members plain begins named text behind tail before proper.2 none_.2]
      rfl

theorem Style.Tight.replaceFirst_object (tight : style.Tight) (plain : style.PlainName name) {old : Bool}
    (begins : Begins floatText style (dumps (.bool old)) begun) (new : Bool) {key : String}
    (named : key.toList = name) {before : List (String × Json)} (proper : ProperMembers floatText before)
    (none_ : ¬ HasMembers (fun key held => NamesLike name key ∧ begun held) before) (behind : List (String × Json)) :
    replaceFirst (sought name (dumps (.bool old))) (sought name (dumps (.bool new)))
        (style.written 0 (.obj (before ++ (key, .bool old) :: behind))) =
      some (style.written 0 (.obj (before ++ (key, .bool new) :: behind))) := by
  have whole (value : Bool) : style.written 0 (.obj (before ++ (key, .bool value) :: behind)) =
      ['\x7b'] ++ (style.writtenMembers 1 (before ++ (key, .bool value) :: behind) ++ ['\x7d']) := by
    rw [Style.written, if_neg (List.append_ne_nil_of_right_ne_nil _ (List.cons_ne_nil _ _)), tight.newline]
    rfl
  have opening : ¬ StartsIn (sought name (dumps (.bool old))) ['\x7b']
      (style.writtenMembers 1 (before ++ (key, .bool old) :: behind) ++ ['\x7d']) := not_startsIn (by decide)
  have text (value : Bool) : style.written 1 (.bool value) = dumps (.bool value) := rfl
  rw [whole old, whole new, replaceFirst_append opening, ← text new,
    tight.replaceFirst_members plain begins named (text old) behind ['\x7d'] before proper none_]
  rfl

theorem begins_bool (truth : Bool) :
    Begins floatText style (dumps (.bool truth)) fun document => document = .bool truth := by
  intro document proper level behind _
  have apart {letter : Char} {text : List Char} (head : letter ≠ 't' ∧ letter ≠ 'f') :
      ¬ dumps (.bool truth) <+: letter :: text ++ behind := by
    cases truth with
    | true => exact fun begins => head.1 (List.cons_prefix_cons.mp begins).1.symm
    | false => exact fun begins => head.2 (List.cons_prefix_cons.mp begins).1.symm
  have number {token : List Char} (starts : StartsNumber token) : ¬ dumps (.bool truth) <+: token ++ behind := by
    obtain ⟨digit, rest, isDigit, rfl | rfl⟩ := starts.cases
    · exact apart ⟨ne_of_isDigit isDigit rfl, ne_of_isDigit isDigit rfl⟩
    · exact apart (by decide)
  cases document with
  | null => exact iff_of_false (apart (by decide)) (fun same => by cases same)
  | bool other =>
      by_cases same : other = truth
      · rw [same]
        exact iff_of_true (List.prefix_append _ _) rfl
      · refine iff_of_false ?_ fun equal => same (Json.bool.inj equal)
        cases truth with
        | true =>
            rw [Bool.eq_false_of_not_eq_true same]
            exact fun begins => absurd (List.cons_prefix_cons.mp begins).1 (by decide)
        | false =>
            rw [Bool.eq_true_of_not_eq_false same]
            exact fun begins => absurd (List.cons_prefix_cons.mp begins).1 (by decide)
  | int value => exact iff_of_false (number (startsNumber_int value)) (fun same => by cases same)
  | float literal =>
      refine iff_of_false ?_ (fun same => by cases same)
      rcases proper with word | ⟨fractional, _⟩
      · have each : literal = "NaN" ∨ literal = "Infinity" ∨ literal = "-Infinity" := by simpa using word
        rcases each with rfl | rfl | rfl
        · exact apart (by decide)
        · exact apart (by decide)
        · exact apart (by decide)
      · exact number (startsNumber_fractional fractional)
  | str text => exact iff_of_false (apart (by decide)) (fun same => by cases same)
  | arr items =>
      refine iff_of_false ?_ (fun same => by cases same)
      rw [Style.written]
      split
      · exact apart (by decide)
      · exact apart (by decide)
  | obj members =>
      refine iff_of_false ?_ (fun same => by cases same)
      rw [Style.written]
      split
      · exact apart (by decide)
      · exact apart (by decide)

theorem Style.Lawful.prefix_quoted (lawful : style.Lawful) (text other : String) (behind : List Char) :
    style.quoted text <+: style.quoted other ++ behind ↔ other = text := by
  constructor
  · intro ⟨rest, whole⟩
    have bodies : text.toList.flatMap style.escape ++ '"' :: rest = other.toList.flatMap style.escape ++ '"' :: behind := by
      have same : text.toList.flatMap style.escape ++ ['"'] ++ rest =
          other.toList.flatMap style.escape ++ ['"'] ++ behind := (List.cons.inj whole).2
      rw [List.append_assoc, List.append_assoc] at same
      exact same
    have enough := lawful.stringBody text.toList (text.toList.length + other.toList.length + 1) rest (by omega)
    have alsoEnough := lawful.stringBody other.toList (text.toList.length + other.toList.length + 1) behind (by omega)
    rw [bodies, alsoEnough] at enough
    exact String.toList_inj.mp (Prod.mk.inj (Option.some.inj enough)).1
  · rintro rfl
    exact List.prefix_append _ _

theorem Style.Lawful.begins_text (lawful : style.Lawful) (text : String) :
    Begins floatText style (style.quoted text) fun document => document = .str text := by
  intro document proper level behind _
  have apart {letter : Char} {rest : List Char} (head : letter ≠ '"') : ¬ style.quoted text <+: letter :: rest ++ behind :=
    fun begins => head (List.cons_prefix_cons.mp begins).1.symm
  have unquoted {token : List Char} (some_ : token ≠ []) (absent : '"' ∉ token) :
      ¬ style.quoted text <+: token ++ behind := by
    cases token with
    | nil => exact absurd rfl some_
    | cons letter rest => exact apart fun same => absent (same ▸ List.mem_cons_self)
  cases document with
  | str other =>
      rw [Style.written, lawful.prefix_quoted]
      exact ⟨congrArg Json.str, Json.str.inj⟩
  | null => exact iff_of_false (apart (by decide)) (fun same => by cases same)
  | bool truth =>
      cases truth with
      | true => exact iff_of_false (apart (by decide)) (fun same => by cases same)
      | false => exact iff_of_false (apart (by decide)) (fun same => by cases same)
  | int value =>
      obtain ⟨letter, rest, starts, _⟩ := startsDocument_dumps proper
      have some_ : dumps (.int value) ≠ [] := starts ▸ List.cons_ne_nil letter rest
      exact iff_of_false (unquoted some_ (quote_notMem_dumps proper trivial)) (fun same => by cases same)
  | float literal =>
      obtain ⟨letter, rest, starts, _⟩ := startsDocument_dumps proper
      have some_ : dumps (.float literal) ≠ [] := starts ▸ List.cons_ne_nil letter rest
      exact iff_of_false (unquoted some_ (quote_notMem_dumps proper trivial)) (fun same => by cases same)
  | arr items =>
      refine iff_of_false ?_ (fun same => by cases same)
      rw [Style.written]
      split
      · exact apart (by decide)
      · exact apart (by decide)
  | obj members =>
      refine iff_of_false ?_ (fun same => by cases same)
      rw [Style.written]
      split
      · exact apart (by decide)
      · exact apart (by decide)

end Documents

section Go

theorem quote_notMem_codeText {code : ℕ} (small : code < 65536) : '"' ∉ codeText code := by
  have digit : ∀ number < 16, '"' ≠ Nat.digitChar number := by decide
  simp only [codeText, List.mem_cons, List.not_mem_nil, or_false, not_or]
  exact ⟨by decide, by decide, digit _ (by omega), digit _ (by omega), digit _ (by omega), digit _ (by omega)⟩

theorem goCompact_tight : goCompact.Tight where
  colon := rfl
  newline _ := rfl
  quote := rfl
  others letter other := by
    change letter ≠ '\\' ∧ goEscape letter = [letter] ∨ ∃ coded, goEscape letter = '\\' :: coded ∧ '"' ∉ coded
    unfold goEscape
    rw [if_neg other]
    by_cases backslash : letter = '\\'
    · rw [if_pos backslash]
      exact .inr ⟨['\\'], rfl, by decide⟩
    rw [if_neg backslash]
    by_cases newline : letter = '\n'
    · rw [if_pos newline]
      exact .inr ⟨['n'], rfl, by decide⟩
    rw [if_neg newline]
    by_cases return_ : letter = '\r'
    · rw [if_pos return_]
      exact .inr ⟨['r'], rfl, by decide⟩
    rw [if_neg return_]
    by_cases tab : letter = '\t'
    · rw [if_pos tab]
      exact .inr ⟨['t'], rfl, by decide⟩
    rw [if_neg tab]
    by_cases back : letter = '\x08'
    · rw [if_pos back]
      exact .inr ⟨['b'], rfl, by decide⟩
    rw [if_neg back]
    by_cases form : letter = '\x0c'
    · rw [if_pos form]
      exact .inr ⟨['f'], rfl, by decide⟩
    rw [if_neg form]
    by_cases special : letter.toNat < 32 ∨ letter ∈ ['<', '>', '&', '\u2028', '\u2029']
    · rw [if_pos special]
      exact .inr ⟨(codeText letter.toNat).tail, rfl, fun listed =>
        quote_notMem_codeText (goEscape_special special) (List.mem_of_mem_tail listed)⟩
    · rw [if_neg special]
      exact .inl ⟨backslash, rfl⟩

end Go

end Foundation.Json
