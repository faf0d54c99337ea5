import Mathlib.Data.List.Basic

/-! # Lines of a text that comes in chunks

A text that comes in chunks is read line by line: what is behind the last separator waits in a
buffer for the next chunk, and the buffer has a limit. A reader has a state, takes each line that is
complete, may yield a value at it and may stop there. What it yields depends on the text alone and not
on how the text was cut (`Foundation.readChunks_eq`).
-/

namespace Foundation

variable {Letter : Type*} [DecidableEq Letter] (separator : Letter)

/-- The lines of a text that are complete, and what is left behind them. -/
def completeLines : List Letter → List (List Letter) × List Letter
  | [] => ([], [])
  | letter :: rest =>
      let (lines, left) := completeLines rest
      if letter = separator then ([] :: lines, left)
      else match lines with
        | [] => ([], letter :: left)
        | line :: later => ((letter :: line) :: later, left)

theorem completeLines_cons_separator (rest : List Letter) :
    completeLines separator (separator :: rest) =
      ([] :: (completeLines separator rest).1, (completeLines separator rest).2) := by
  rw [completeLines]
  exact if_pos rfl

theorem completeLines_cons_of_ne {letter : Letter} (other : letter ≠ separator) (rest : List Letter) :
    completeLines separator (letter :: rest) =
      match completeLines separator rest with
      | ([], left) => ([], letter :: left)
      | (line :: later, left) => ((letter :: line) :: later, left) := by
  rw [completeLines]
  rcases completeLines separator rest with ⟨_ | ⟨line, later⟩, left⟩
  · exact if_neg other
  · exact if_neg other

theorem completeLines_append (first second : List Letter) :
    completeLines separator (first ++ second) =
      let former := completeLines separator first
      let latter := completeLines separator (former.2 ++ second)
      (former.1 ++ latter.1, latter.2) := by
  induction first with
  | nil => rfl
  | cons letter rest ih =>
      by_cases same : letter = separator
      · subst same
        rw [List.cons_append, completeLines_cons_separator, completeLines_cons_separator, ih]
        rfl
      · rw [List.cons_append, completeLines_cons_of_ne separator same,
          completeLines_cons_of_ne separator same, ih]
        rcases completeLines separator rest with ⟨_ | ⟨line, later⟩, left⟩
        · dsimp only [List.nil_append]
          rw [List.cons_append, completeLines_cons_of_ne separator same]
        · rfl

theorem completeLines_line {line : List Letter} (apart : separator ∉ line) (rest : List Letter) :
    completeLines separator (line ++ separator :: rest) =
      (line :: (completeLines separator rest).1, (completeLines separator rest).2) := by
  induction line with
  | nil => exact completeLines_cons_separator separator rest
  | cons letter others ih =>
      have other : letter ≠ separator := fun same => apart (same ▸ List.mem_cons_self)
      rw [List.cons_append, completeLines_cons_of_ne separator other,
        ih fun listed => apart (List.mem_cons_of_mem _ listed)]

theorem completeLines_flatMap {lines : List (List Letter)} (apart : ∀ line ∈ lines, separator ∉ line)
    (behind : List Letter) :
    completeLines separator ((lines.flatMap fun line => line ++ [separator]) ++ behind) =
      (lines ++ (completeLines separator behind).1, (completeLines separator behind).2) := by
  induction lines with
  | nil => rfl
  | cons line rest ih =>
      rw [List.flatMap_cons, List.append_assoc, List.append_assoc, List.singleton_append,
        completeLines_line separator (apart line List.mem_cons_self),
        ih fun other listed => apart other (List.mem_cons_of_mem _ listed)]
      rfl

theorem completeLines_left (text : List Letter) :
    (completeLines separator (completeLines separator text).2).1 = [] := by
  have twice := congrArg Prod.fst (completeLines_append separator text [])
  dsimp only at twice
  rw [List.append_nil, List.append_nil] at twice
  exact List.self_eq_append_right.mp twice

/-- What a reader makes of a line. -/
inductive LineRead (State Value : Type*) where
  | on (state : State) (yielded : Option Value)
  | stop

section Readers

variable {State Value Line : Type*} (read : State → List Letter → LineRead State Value)

/-- The values that are yielded at lines, and the state behind them if the reader has not stopped. -/
def readLines (read : State → Line → LineRead State Value) (state : State) :
    List Line → List Value × Option State
  | [] => ([], some state)
  | line :: rest =>
      match read state line with
      | .stop => ([], none)
      | .on next yielded =>
          let later := readLines read next rest
          (yielded.toList ++ later.1, later.2)

theorem readLines_append (read : State → Line → LineRead State Value) (state : State) (first second : List Line) :
    readLines read state (first ++ second) =
      match readLines read state first with
      | (values, none) => (values, none)
      | (values, some next) =>
          (values ++ (readLines read next second).1, (readLines read next second).2) := by
  induction first generalizing state with
  | nil => rfl
  | cons line rest ih =>
      rw [List.cons_append, readLines, readLines]
      cases read state line with
      | stop => rfl
      | on next yielded =>
          dsimp only
          rw [ih next]
          rcases readLines read next rest with ⟨values, _ | last⟩
          · rfl
          · dsimp only
            rw [List.append_assoc]

/-- What a reader makes of a line, seen through other states and values. -/
def LineRead.map {Other Image : Type*} (onState : State → Other) (onValue : Value → Image) :
    LineRead State Value → LineRead Other Image
  | .on state yielded => .on (onState state) (yielded.map onValue)
  | .stop => .stop

theorem readLines_map {Other Image Seen : Type*} {onState : State → Other} {onValue : Value → Image}
    {onLine : Line → Seen} {readLine : State → Line → LineRead State Value}
    {other : Other → Seen → LineRead Other Image}
    (same : ∀ state line, other (onState state) (onLine line) = (readLine state line).map onState onValue)
    (state : State) (lines : List Line) :
    readLines other (onState state) (lines.map onLine) =
      ((readLines readLine state lines).1.map onValue, (readLines readLine state lines).2.map onState) := by
  induction lines generalizing state with
  | nil => rfl
  | cons line rest ih =>
      rw [List.map_cons, readLines, readLines, same]
      cases readLine state line with
      | stop => rfl
      | on next yielded =>
          simp only [LineRead.map, ih next, List.map_append, Option.toList_map]

/-- How a reader ends: it waits for more, it has stopped, or its buffer has overflowed. -/
inductive Reading (State Letter : Type*) where
  | waits (state : State) (buffer : List Letter)
  | stopped
  | overflowed
  deriving DecidableEq, Repr

/-- The values that are yielded while the chunks come. -/
def readChunks (limit : ℕ) (state : State) (buffer : List Letter) :
    List (List Letter) → List Value × Reading State Letter
  | [] => ([], .waits state buffer)
  | chunk :: rest =>
      let filled := buffer ++ chunk
      if limit < filled.length then ([], .overflowed)
      else
        match readLines read state (completeLines separator filled).1 with
        | (values, none) => (values, .stopped)
        | (values, some next) =>
            let later := readChunks limit next (completeLines separator filled).2 rest
            (values ++ later.1, later.2)

variable {read} {limit : ℕ}

/-- **Cuts do not matter.** A reader whose buffer has not overflowed has yielded what the whole text
yields. -/
theorem readChunks_eq {chunks : List (List Letter)} {state : State} {buffer : List Letter}
    (complete : (completeLines separator buffer).1 = [])
    (within : (readChunks separator read limit state buffer chunks).2 ≠ .overflowed) :
    (readChunks separator read limit state buffer chunks).1 =
      (readLines read state (completeLines separator (buffer ++ chunks.flatten)).1).1 := by
  induction chunks generalizing state buffer with
  | nil =>
      rw [List.flatten_nil, List.append_nil, complete]
      rfl
  | cons chunk rest ih =>
      rw [readChunks] at within ⊢
      rw [List.flatten_cons, ← List.append_assoc, completeLines_append separator (buffer ++ chunk)]
      dsimp only at within ⊢
      rw [readLines_append]
      by_cases overflows : limit < (buffer ++ chunk).length
      · rw [if_pos overflows] at within
        exact absurd rfl within
      · rw [if_neg overflows] at within ⊢
        rcases lineRead : readLines read state (completeLines separator (buffer ++ chunk)).1 with ⟨values, _ | next⟩
        · rfl
        · rw [lineRead] at within
          exact congrArg (values ++ ·) (ih (completeLines_left separator _) within)

theorem readChunks_append {first second : List (List Letter)} {state next : State}
    {buffer left : List Letter} (waits : (readChunks separator read limit state buffer first).2 = .waits next left) :
    readChunks separator read limit state buffer (first ++ second) =
      ((readChunks separator read limit state buffer first).1 ++
          (readChunks separator read limit next left second).1,
        (readChunks separator read limit next left second).2) := by
  induction first generalizing state buffer with
  | nil =>
      cases waits
      rfl
  | cons chunk rest ih =>
      rw [List.cons_append, readChunks, readChunks]
      rw [readChunks] at waits
      dsimp only at waits ⊢
      by_cases overflows : limit < (buffer ++ chunk).length
      · rw [if_pos overflows] at waits
        cases waits
      · rw [if_neg overflows] at waits
        rw [if_neg overflows, if_neg overflows]
        rcases lineRead : readLines read state (completeLines separator (buffer ++ chunk)).1 with ⟨values, _ | middle⟩
        · rw [lineRead] at waits
          cases waits
        · rw [lineRead] at waits
          dsimp only at waits ⊢
          rw [ih waits, List.append_assoc]

theorem readChunks_lines {lines : List (List Letter)} (state : State)
    (apart : ∀ line ∈ lines, separator ∉ line) (fits : ∀ line ∈ lines, line.length < limit) :
    readChunks separator read limit state [] (lines.map fun line => line ++ [separator]) =
      ((readLines read state lines).1,
        match (readLines read state lines).2 with
        | some next => .waits next []
        | none => .stopped) := by
  induction lines generalizing state with
  | nil => rfl
  | cons line rest ih =>
      have short : ¬ limit < (line ++ [separator]).length := by
        have := fits line List.mem_cons_self
        rw [List.length_append, List.length_singleton]
        omega
      rw [List.map_cons, readChunks, List.nil_append, if_neg short,
        completeLines_line separator (apart line List.mem_cons_self), readLines, readLines]
      cases read state line with
      | stop => rfl
      | on next yielded =>
          have onward := ih next (fun other listed => apart other (List.mem_cons_of_mem _ listed))
            fun other listed => fits other (List.mem_cons_of_mem _ listed)
          simp only [completeLines, readLines, List.append_nil, onward]

end Readers

end Foundation
