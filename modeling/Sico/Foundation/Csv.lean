import Sico.Foundation.Basic

/-! # Reading a record of comma-separated values

The first record of a text: lines that are empty and lines that start with `#` are passed over, blanks in front of a field
are dropped, and a field may be quoted. A return before the end of a line, or at the end of the text, is no part of it.

Fields that stand in the text as they are, each behind a comma and a blank, are read back if and only if they are plain
(`Foundation.Csv.plain_of_readRecord`, `Foundation.Csv.readRecord_render`): what quotes stand for has fewer of them.
-/

namespace Foundation.Csv

section Reading

inductive ReadError where
  | endOfFile
  /-- A quote within a field that does not start with one. -/
  | bareQuote
  /-- A quote in a quoted field that neither ends it nor is doubled, or the end of the text in such a field. -/
  | quote
  deriving DecidableEq, Repr

/-- Where the reader is in a field. -/
inductive Position where
  | start
  | unquoted (read : List Char)
  | quoted (read : List Char)
  /-- Behind a quote in a quoted field. -/
  | behindQuote (read : List Char)

/-- A text without the returns before the ends of its lines. -/
def withoutReturns : List Char → List Char
  | [] => []
  | '\r' :: [] => []
  | '\r' :: '\n' :: rest => '\n' :: withoutReturns rest
  | letter :: rest => letter :: withoutReturns rest

/-- The fields of a record, behind those that were read. -/
def fieldsFrom (done : List (List Char)) : Position → List Char → Except ReadError (List (List Char))
  | .start, [] => .ok (done ++ [[]])
  | .unquoted read, [] => .ok (done ++ [read])
  | .quoted _, [] => .error .quote
  | .behindQuote read, [] => .ok (done ++ [read])
  | .start, letter :: rest =>
      if letter = '\n' then .ok (done ++ [[]])
      else if isSpace letter then fieldsFrom done .start rest
      else if letter = '"' then fieldsFrom done (.quoted []) rest
      else if letter = ',' then fieldsFrom (done ++ [[]]) .start rest
      else fieldsFrom done (.unquoted [letter]) rest
  | .unquoted read, letter :: rest =>
      if letter = '\n' then .ok (done ++ [read])
      else if letter = ',' then fieldsFrom (done ++ [read]) .start rest
      else if letter = '"' then .error .bareQuote
      else fieldsFrom done (.unquoted (read ++ [letter])) rest
  | .quoted read, letter :: rest =>
      if letter = '"' then fieldsFrom done (.behindQuote read) rest
      else fieldsFrom done (.quoted (read ++ [letter])) rest
  | .behindQuote read, letter :: rest =>
      if letter = '"' then fieldsFrom done (.quoted (read ++ [letter])) rest
      else if letter = ',' then fieldsFrom (done ++ [read]) .start rest
      else if letter = '\n' then .ok (done ++ [read])
      else .error .quote

/-- The record behind the lines that are passed over, in such a line or not. -/
def recordFrom (passing : Bool) : List Char → Except ReadError (List (List Char))
  | [] => .error .endOfFile
  | letter :: rest =>
      if passing then recordFrom (letter ≠ '\n') rest
      else if letter = '\n' then recordFrom false rest
      else if letter = '#' then recordFrom true rest
      else fieldsFrom [] .start (letter :: rest)

def readRecord (text : List Char) : Except ReadError (List (List Char)) := recordFrom false (withoutReturns text)

end Reading

section Quotes

def Position.read : Position → List Char
  | .start => []
  | .unquoted read | .quoted read | .behindQuote read => read

def quotes (fields : List (List Char)) : ℕ := fields.flatten.count '"'

theorem quotes_concat (done : List (List Char)) (field : List Char) :
    quotes (done ++ [field]) = quotes done + field.count '"' := by
  unfold quotes
  rw [List.flatten_append, List.count_append, List.flatten_singleton]

/-- How many quotes are left of those before, some of them in the text that is read: in a quoted field one has to come that
ends it, and where none is read as a letter any that comes is lost. -/
def Position.Fewer (before inText after : ℕ) : Position → Prop
  | .start | .unquoted _ => after ≤ before ∧ (inText = 0 ∨ after < before)
  | .quoted _ => after < before
  | .behindQuote _ => after ≤ before

theorem fewer_quotes {done fields : List (List Char)} {position : Position} {text : List Char}
    (read : fieldsFrom done position text = .ok fields) :
    position.Fewer (quotes done + position.read.count '"' + text.count '"') (text.count '"') (quotes fields) := by
  fun_induction fieldsFrom done position text with
  | case3 | case12 | case19 => cases read
  | case1 | case2 =>
      rw [← Except.ok.inj read, quotes_concat]
      exact ⟨Nat.le_refl _, .inl rfl⟩
  | case4 | case5 | case10 | case18 =>
      -- the record ends here, whatever is behind it
      rw [← Except.ok.inj read, quotes_concat]
      simp only [Position.read, Position.Fewer, List.count_nil]
      omega
  | case6 done letter rest _ space ih =>
      have other : letter ≠ '"' := by
        rintro rfl
        cases space
      have later := ih read
      simp only [Position.read, Position.Fewer, List.count_nil] at later ⊢
      rw [List.count_cons_of_ne other]
      omega
  | case7 done rest _ _ ih =>
      have later := ih read
      simp only [Position.read, Position.Fewer, List.count_nil] at later ⊢
      rw [List.count_cons_self]
      omega
  | case8 done rest _ _ _ ih =>
      have later := ih read
      rw [quotes_concat] at later
      simp only [Position.read, Position.Fewer, List.count_nil] at later ⊢
      rw [List.count_cons_of_ne (by decide)]
      omega
  | case9 done letter rest _ _ other _ ih =>
      have later := ih read
      simp only [Position.read, Position.Fewer, List.count_nil] at later ⊢
      rw [List.count_cons_of_ne other] at later ⊢
      simp only [List.count_nil] at later
      omega
  | case11 done found rest _ ih =>
      have later := ih read
      rw [quotes_concat] at later
      simp only [Position.read, Position.Fewer, List.count_nil] at later ⊢
      rw [List.count_cons_of_ne (by decide)]
      omega
  | case13 done found letter rest _ _ other ih =>
      have later := ih read
      simp only [Position.read, Position.Fewer, List.count_append] at later ⊢
      rw [List.count_cons_of_ne other] at later ⊢
      simp only [List.count_nil] at later
      omega
  | case14 done found rest ih =>
      have later := ih read
      simp only [Position.read, Position.Fewer] at later ⊢
      rw [List.count_cons_self]
      omega
  | case15 done found letter rest other ih =>
      have later := ih read
      simp only [Position.read, Position.Fewer, List.count_append] at later ⊢
      rw [List.count_cons_of_ne other] at later ⊢
      simp only [List.count_nil] at later
      omega
  | case16 done found rest ih =>
      have later := ih read
      simp only [Position.read, Position.Fewer, List.count_append] at later ⊢
      rw [List.count_cons_self] at later ⊢
      simp only [List.count_nil] at later
      omega
  | case17 done found rest _ ih =>
      have later := ih read
      rw [quotes_concat] at later
      simp only [Position.read, Position.Fewer, List.count_nil] at later ⊢
      rw [List.count_cons_of_ne (by decide)]
      omega

end Quotes

section Plain

/-- A field that stands in a text as it is. -/
structure Plain (field : List Char) : Prop where
  letters : ∀ letter ∈ field, letter ≠ ',' ∧ letter ≠ '\n' ∧ letter ≠ '"'
  starts : ∀ letter, field.head? = some letter → isSpace letter = false

theorem plain_of_all {field : List Char}
    (each : (field.all fun letter => letter ≠ ',' ∧ letter ≠ '\n' ∧ letter ≠ '"') = true)
    (starts : (field.head?.all fun letter => !isSpace letter) = true) : Plain field where
  letters letter listed := of_decide_eq_true (List.all_eq_true.mp each letter listed)
  starts letter first := by
    rw [first] at starts
    simpa using starts

theorem plain_nil : Plain [] := ⟨fun _ listed => absurd listed List.not_mem_nil, fun _ starts => by cases starts⟩

/-- No quote was met, and what was read is plain. -/
def Position.IsPlain : Position → Prop
  | .start => True
  | .unquoted read => read ≠ [] ∧ Plain read
  | .quoted _ | .behindQuote _ => False

theorem plain_concat {done : List (List Char)} {found : List Char} (before : ∀ field ∈ done, Plain field)
    (plain : Plain found) : ∀ field ∈ done ++ [found], Plain field := by
  intro field listed
  rcases List.mem_append.mp listed with earlier | last
  · exact before field earlier
  · exact List.mem_singleton.mp last ▸ plain

theorem plain_fieldsFrom {done fields : List (List Char)} {position : Position} {text : List Char}
    (read : fieldsFrom done position text = .ok fields) (bare : '"' ∉ text) (before : ∀ field ∈ done, Plain field)
    (here : position.IsPlain) : ∀ field ∈ fields, Plain field := by
  fun_induction fieldsFrom done position text with
  | case3 | case12 | case19 => cases read
  | case4 | case14 | case15 | case16 | case17 | case18 => exact here.elim
  | case1 | case5 => exact Except.ok.inj read ▸ plain_concat before plain_nil
  | case2 | case10 => exact Except.ok.inj read ▸ plain_concat before here.2
  | case6 done letter rest _ _ ih => exact ih read (List.not_mem_of_not_mem_cons bare) before trivial
  | case7 => exact absurd List.mem_cons_self bare
  | case8 done rest _ _ _ ih => exact ih read (List.not_mem_of_not_mem_cons bare) (plain_concat before plain_nil) trivial
  | case9 done letter rest newline space quote comma ih =>
      refine ih read (List.not_mem_of_not_mem_cons bare) before ⟨List.cons_ne_nil _ _, ⟨?_, ?_⟩⟩
      · intro other listed
        rw [List.mem_singleton.mp listed]
        exact ⟨comma, newline, quote⟩
      · intro other starts
        cases starts
        exact Bool.eq_false_iff.mpr space
  | case11 done found rest _ ih => exact ih read (List.not_mem_of_not_mem_cons bare) (plain_concat before here.2) trivial
  | case13 done found letter rest newline comma quote ih =>
      refine ih read (List.not_mem_of_not_mem_cons bare) before ⟨by simp, ⟨?_, ?_⟩⟩
      · intro other listed
        rcases List.mem_append.mp listed with earlier | last
        · exact here.2.letters other earlier
        · rw [List.mem_singleton.mp last]
          exact ⟨comma, newline, quote⟩
      · intro other starts
        refine here.2.starts other ?_
        rw [List.head?_append] at starts
        cases found with
        | nil => exact absurd rfl here.1
        | cons first others => exact starts

theorem fieldsFrom_unquoted (done : List (List Char)) (found : List Char) {letters : List Char}
    (plain : ∀ letter ∈ letters, letter ≠ ',' ∧ letter ≠ '\n' ∧ letter ≠ '"') (rest : List Char) :
    fieldsFrom done (.unquoted found) (letters ++ rest) = fieldsFrom done (.unquoted (found ++ letters)) rest := by
  induction letters generalizing found with
  | nil => rw [List.nil_append, List.append_nil]
  | cons letter others ih =>
      obtain ⟨comma, newline, quote⟩ := plain letter List.mem_cons_self
      rw [List.cons_append, fieldsFrom, if_neg newline, if_neg comma, if_neg quote,
        ih _ fun letter listed => plain letter (List.mem_cons_of_mem _ listed), List.append_assoc]
      rfl

theorem fieldsFrom_comma (done : List (List Char)) {field : List Char} (plain : Plain field) (rest : List Char) :
    fieldsFrom done .start (field ++ ',' :: rest) = fieldsFrom (done ++ [field]) .start rest := by
  cases field with
  | nil =>
      rw [List.nil_append, fieldsFrom, if_neg (by decide), if_neg (by decide), if_neg (by decide), if_pos rfl]
  | cons letter others =>
      obtain ⟨comma, newline, quote⟩ := plain.letters letter List.mem_cons_self
      have solid := plain.starts letter rfl
      rw [List.cons_append, fieldsFrom, if_neg newline, if_neg (by rw [solid]; exact Bool.false_ne_true), if_neg quote,
        if_neg comma, fieldsFrom_unquoted done [letter] fun letter listed =>
          plain.letters letter (List.mem_cons_of_mem _ listed)]
      rw [fieldsFrom, if_neg (by decide), if_pos rfl]
      rfl

theorem fieldsFrom_last (done : List (List Char)) {field : List Char} (plain : Plain field) :
    fieldsFrom done .start field = .ok (done ++ [field]) := by
  cases field with
  | nil => rfl
  | cons letter others =>
      obtain ⟨comma, newline, quote⟩ := plain.letters letter List.mem_cons_self
      have solid := plain.starts letter rfl
      have whole := fieldsFrom_unquoted done [letter]
        (fun letter listed => plain.letters letter (List.mem_cons_of_mem _ listed)) []
      rw [List.append_nil] at whole
      rw [fieldsFrom, if_neg newline, if_neg (by rw [solid]; exact Bool.false_ne_true), if_neg quote, if_neg comma, whole]
      rfl

/-- Fields as they are, each of the others behind a comma and a blank. -/
def render (first : List Char) (others : List (List Char)) : List Char :=
  first ++ others.flatMap fun field => ',' :: ' ' :: field

theorem fieldsFrom_render (done : List (List Char)) {first : List Char} {others : List (List Char)} (plain : Plain first)
    (alsoPlain : ∀ field ∈ others, Plain field) :
    fieldsFrom done .start (render first others) = .ok (done ++ first :: others) := by
  induction others generalizing done first with
  | nil =>
      rw [render, List.flatMap_nil, List.append_nil]
      exact fieldsFrom_last done plain
  | cons second rest ih =>
      have blank : fieldsFrom (done ++ [first]) .start (' ' :: render second rest) =
          fieldsFrom (done ++ [first]) .start (render second rest) := by
        rw [fieldsFrom, if_neg (by decide), if_pos (by decide)]
      have next := ih (done ++ [first]) (alsoPlain second List.mem_cons_self) fun field listed =>
        alsoPlain field (List.mem_cons_of_mem _ listed)
      have shape : render first (second :: rest) = first ++ ',' :: ' ' :: render second rest := by
        rw [render, render, List.flatMap_cons]
        rfl
      rw [shape, fieldsFrom_comma done plain, blank, next, List.append_assoc]
      rfl

end Plain

section Records

variable {first last : List Char} {others : List (List Char)}

theorem count_withoutReturns (text : List Char) : (withoutReturns text).count '"' = text.count '"' := by
  fun_induction withoutReturns text with
  | case1 => rfl
  | case2 => rfl
  | case3 rest ih => simp [ih]
  | case4 letter rest _ _ ih => rw [List.count_cons, List.count_cons, ih]

theorem withoutReturns_eq {text : List Char} (line : '\n' ∉ text) :
    withoutReturns text = if text.getLast? = some '\r' then text.dropLast else text := by
  fun_induction withoutReturns text with
  | case1 => rfl
  | case2 => rfl
  | case3 rest _ => exact absurd (List.mem_cons_of_mem _ List.mem_cons_self) line
  | case4 letter rest alone before ih =>
      rw [ih (List.not_mem_of_not_mem_cons line)]
      cases rest with
      | nil =>
          have other : letter ≠ '\r' := fun same => alone same rfl
          simp [other]
      | cons second later =>
          rw [List.getLast?_cons_cons, List.dropLast_cons_cons]
          split <;> rfl

theorem withoutReturns_concat {text : List Char} (line : '\n' ∉ text) : withoutReturns (text ++ ['\r']) = text := by
  have whole : '\n' ∉ text ++ ['\r'] := by simp [line]
  rw [withoutReturns_eq whole, if_pos (by simp), List.dropLast_concat]

theorem withoutReturns_of_getLast? {text : List Char} (line : '\n' ∉ text) (ends : text.getLast? ≠ some '\r') :
    withoutReturns text = text := by
  rw [withoutReturns_eq line, if_neg ends]

/-- The letters that a record starts with where its line is not passed over. -/
structure Opens (first : List Char) : Prop where
  plain : Plain first
  opening : ∃ letter rest, first = letter :: rest ∧ letter ≠ '#' ∧ letter ≠ '\r'

theorem readRecord_render_eq (opens : Opens first) (others : List (List Char)) :
    readRecord (render first others) = fieldsFrom [] .start (withoutReturns (render first others)) := by
  obtain ⟨letter, rest, rfl, comment, back⟩ := opens.opening
  have newline : letter ≠ '\n' := (opens.plain.letters letter List.mem_cons_self).2.1
  have head : withoutReturns (render (letter :: rest) others) = letter :: withoutReturns (render rest others) := by
    rw [render, render, List.cons_append, withoutReturns]
    · intro same
      exact absurd same back
    · intro _ same
      exact absurd same back
  rw [readRecord, head, recordFrom, if_neg Bool.false_ne_true, if_neg newline, if_neg comment]

theorem newline_notMem_render (plain : Plain first) (alsoPlain : ∀ field ∈ others, Plain field) :
    '\n' ∉ render first others := by
  intro listed
  rcases List.mem_append.mp listed with front | later
  · exact (plain.letters _ front).2.1 rfl
  · obtain ⟨field, inside, within⟩ := List.mem_flatMap.mp later
    rcases List.mem_cons.mp within with comma | within
    · cases comma
    · rcases List.mem_cons.mp within with blank | letter
      · cases blank
      · exact ((alsoPlain field inside).letters _ letter).2.1 rfl

theorem readRecord_render (opens : Opens first) (plain : ∀ field ∈ others, Plain field)
    (ends : (render first others).getLast? ≠ some '\r') : readRecord (render first others) = .ok (first :: others) := by
  rw [readRecord_render_eq opens, withoutReturns_of_getLast? (newline_notMem_render opens.plain plain) ends,
    fieldsFrom_render [] opens.plain plain]
  rfl

theorem render_concat (first : List Char) (others : List (List Char)) (field : List Char) (letter : Char) :
    render first (others ++ [field ++ [letter]]) = render first (others ++ [field]) ++ [letter] := by
  unfold render
  rw [List.flatMap_append, List.flatMap_append, List.flatMap_singleton, List.flatMap_singleton]
  simp

theorem readRecord_render_return (opens : Opens first) (plain : ∀ field ∈ others ++ [last], Plain field) :
    readRecord (render first (others ++ [last ++ ['\r']])) = .ok (first :: (others ++ [last])) := by
  rw [readRecord_render_eq opens, render_concat, withoutReturns_concat (newline_notMem_render opens.plain plain),
    fieldsFrom_render [] opens.plain plain]
  rfl

theorem quotes_render (plain : Plain first) (others : List (List Char)) :
    (render first others).count '"' = quotes others := by
  have none_ : first.count '"' = 0 := List.count_eq_zero.mpr fun listed => (plain.letters _ listed).2.2 rfl
  rw [render, List.count_append, none_, Nat.zero_add]
  induction others with
  | nil => rfl
  | cons field rest ih =>
      unfold quotes at ih ⊢
      rw [List.flatMap_cons, List.count_append, ih, List.flatten_cons, List.count_append]
      rfl

theorem fewer_quotes_readRecord (opens : Opens first) {fields : List (List Char)}
    (read : readRecord (render first others) = .ok fields) :
    quotes fields ≤ quotes others ∧
      ((withoutReturns (render first others)).count '"' = 0 ∨ quotes fields < quotes others) := by
  rw [readRecord_render_eq opens] at read
  have fewer := fewer_quotes read
  have all := count_withoutReturns (render first others)
  rw [quotes_render opens.plain] at all
  have start : quotes [] + List.count '"' [] + quotes others = quotes others := by
    rw [show quotes [] = 0 from rfl, List.count_nil, Nat.zero_add]
  simp only [Position.Fewer, Position.read] at fewer
  rw [all, start] at fewer
  rw [all]
  exact fewer

theorem quotes_readRecord (opens : Opens first) {fields : List (List Char)}
    (read : readRecord (render first others) = .ok fields) : quotes fields ≤ quotes others :=
  (fewer_quotes_readRecord opens read).1

theorem plain_of_readRecord (opens : Opens first) {fields : List (List Char)}
    (read : readRecord (render first others) = .ok fields) (same : quotes fields = quotes others) :
    ∀ field ∈ fields, Plain field := by
  have bare : '"' ∉ withoutReturns (render first others) := by
    rw [← List.count_eq_zero]
    exact (fewer_quotes_readRecord opens read).2.resolve_right (by omega)
  rw [readRecord_render_eq opens] at read
  exact plain_fieldsFrom read bare (fun _ listed => absurd listed List.not_mem_nil) trivial

end Records

end Foundation.Csv
