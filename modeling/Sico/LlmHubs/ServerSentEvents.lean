import Mathlib.Data.List.DropRight
import Sico.AgentLoop.Identifiers
import Sico.Foundation.Lines

/-! # Streams of server-sent events

`_post_stream` and `_post_stream_sse` read the text of a response line by line while it comes in
chunks, and yield the payloads of its data lines, the second one with the names of their events. A
stream may be written in many ways: with or without a space behind the name of a field, with either end
of a line, and with comments and blank lines in between.

What JSON a payload is, is told by a parameter for `json.loads`. A response that is refused before its
text is read is left out.
-/

namespace Sico.LlmHubs

open Foundation AgentLoop

section Readers

def maxSSEBufSize : ℕ := 10 * 1024 * 1024

/-- `line.strip()`. -/
def stripLine (raw : List Char) : List Char := (strip (String.ofList raw)).toList

variable {State Value Out : Type} (loads : String → Option Value)

/-- What both readers make of a line of data. A payload that is not JSON is passed over. -/
def readData (state : State) (out : Value → Out) (line : List Char) : LineRead State Out :=
  if line = "data: [DONE]".toList then .stop
  else if "data: ".toList.isPrefixOf line then
    .on state ((loads (String.ofList (line.drop "data: ".toList.length))).map out)
  else .on state none

def postStreamLine (_ : Unit) (raw : List Char) : LineRead Unit Value :=
  let line := stripLine raw
  if line = [] ∨ ":".toList.isPrefixOf line then .on () none
  else readData loads () id line

def postStreamSSELine (currentEvent : String) (raw : List Char) : LineRead String (String × Value) :=
  let line := stripLine raw
  if line = [] then .on "" none
  else if ":".toList.isPrefixOf line then .on currentEvent none
  else if "event: ".toList.isPrefixOf line then
    .on (String.ofList (line.drop "event: ".toList.length)) none
  else readData loads currentEvent (fun value => (currentEvent, value)) line

/-- `_post_stream`, on the chunks of a response. -/
def postStream (chunks : List (List Char)) : List Value × Reading Unit Char :=
  readChunks '\n' (postStreamLine loads) maxSSEBufSize () [] chunks

/-- `_post_stream_sse`, on the chunks of a response. -/
def postStreamSSE (chunks : List (List Char)) : List (String × Value) × Reading String Char :=
  readChunks '\n' (postStreamSSELine loads) maxSSEBufSize "" [] chunks

end Readers

section Encoding

/-- The text of a comment or the name of an event. -/
structure OneLine where
  text : String
  oneLine : '\n' ∉ text.toList

variable {Value : Type}

/-- A value with its text in JSON, which has no blanks around it. -/
structure Payload (loads : String → Option Value) where
  text : String
  value : Value
  loaded : loads text = some value
  oneLine : '\n' ∉ text.toList
  first : ∃ head ∈ text.toList.head?, isBlank head = false
  last : ∃ end_ ∈ text.toList.getLast?, isBlank end_ = false
  notDone : text ≠ "[DONE]"

/-- A line of a stream. The space behind `data:` is optional. -/
inductive Content (loads : String → Option Value) where
  | blank
  | comment (text : OneLine)
  | event (name : OneLine)
  | data (spaced : Bool) (payload : Payload loads)
  | done (spaced : Bool)

/-- A part of a stream: a blank line or a comment, or an event with its one line of data. -/
inductive Block (loads : String → Option Value) where
  | blank
  | comment (text : OneLine)
  | message (name : Option OneLine) (between : List OneLine) (spaced : Bool) (payload : Payload loads)
      (behind : List OneLine)

/-- What a stream holds up to its `[DONE]` line, if it has one. -/
structure Front (loads : String → Option Value) where
  blocks : List (Block loads)
  done : Option Bool

variable {loads : String → Option Value}

def space (spaced : Bool) : List Char := if spaced then [' '] else []

def Content.render : Content loads → List Char
  | .blank => []
  | .comment text => ':' :: text.text.toList
  | .event name => "event: ".toList ++ name.text.toList
  | .data spaced payload => "data:".toList ++ space spaced ++ payload.text.toList
  | .done spaced => "data:".toList ++ space spaced ++ "[DONE]".toList

/-- A line with its end, but for the line feed. -/
def rawLine (line : Content loads × Bool) : List Char := line.1.render ++ if line.2 then ['\r'] else []

/-- The text of lines, each of which ends with a line feed, alone or behind a carriage return. -/
def streamText (lines : List (Content loads × Bool)) : List Char :=
  (lines.map rawLine).flatMap fun line => line ++ ['\n']

def Block.contents : Block loads → List (Content loads)
  | .blank => [.blank]
  | .comment text => [.comment text]
  | .message name between spaced payload behind =>
      (name.map Content.event).toList ++ between.map .comment ++ [.data spaced payload]
        ++ behind.map .comment ++ [.blank]

def Front.contents (front : Front loads) : List (Content loads) :=
  front.blocks.flatMap Block.contents ++ (front.done.map Content.done).toList

def eventName (name : Option OneLine) : String := (name.map OneLine.text).getD ""

def Block.event : Block loads → Option (String × Value)
  | .message name _ _ payload _ => some (eventName name, payload.value)
  | _ => none

/-- The payloads before the `[DONE]` line, with the names of their events. -/
def Front.events (front : Front loads) : List (String × Value) := front.blocks.filterMap Block.event

/-- However the text is cut, as long as no buffer overflows, and whatever stands behind the `[DONE]`
line: the readers yield the payloads before it. -/
def Decodes (front : Front loads) (lines : List (Content loads × Bool)) : Prop :=
  ∀ chunks behind, chunks.flatten = streamText lines ++ behind → (front.done = none → behind = []) →
    ((postStream loads chunks).2 ≠ .overflowed →
      (postStream loads chunks).1 = front.events.map Prod.snd) ∧
    ((postStreamSSE loads chunks).2 ≠ .overflowed → (postStreamSSE loads chunks).1 = front.events)

end Encoding

section Lines

variable {Value : Type} {loads : String → Option Value}

theorem stripLine_eq (raw : List Char) : stripLine raw = (raw.dropWhile isBlank).rdropWhile isBlank := by
  unfold stripLine strip
  rw [String.toList_ofList, String.toList_ofList]
  rfl

theorem rdropWhile_append_blanks (letters : List Char) {blanks : List Char} (blank : ∀ c ∈ blanks, isBlank c) :
    (letters ++ blanks).rdropWhile isBlank = letters.rdropWhile isBlank := by
  induction blanks using List.reverseRecOn with
  | nil => rw [List.append_nil]
  | append_singleton others last ih =>
      rw [← List.append_assoc, List.rdropWhile_concat_pos _ _ _ (blank last (by simp))]
      exact ih fun c listed => blank c (List.mem_append_left _ listed)

theorem isBlank_lineEnd (crlf : Bool) : ∀ c ∈ (if crlf then ['\r'] else []), isBlank c := by
  cases crlf with
  | false => exact fun c listed => absurd listed List.not_mem_nil
  | true =>
      intro c listed
      rw [List.mem_singleton.mp listed]
      rfl

theorem stripLine_append (letters : List Char) {blanks : List Char} {head last : Char} (starts : letters.head? = some head)
    (ends : letters.getLast? = some last) (solid : isBlank head = false) (alsoSolid : isBlank last = false)
    (blank : ∀ c ∈ blanks, isBlank c) : stripLine (letters ++ blanks) = letters := by
  have front : (letters ++ blanks).dropWhile isBlank = letters ++ blanks := by
    obtain ⟨rest, rfl⟩ := List.head?_eq_some_iff.mp starts
    exact List.dropWhile_cons_of_neg (by rw [solid]; exact Bool.false_ne_true)
  rw [stripLine_eq, front, rdropWhile_append_blanks letters blank]
  apply List.rdropWhile_eq_self_iff.mpr
  intro filled
  rw [List.getLast?_eq_some_getLast filled] at ends
  rw [Option.some.inj ends, alsoSolid]
  exact Bool.false_ne_true

/-- What is left of a line when the blanks around it are gone. -/
def Content.stripped : Content loads → List Char
  | .comment text => (':' :: text.text.toList).rdropWhile isBlank
  | .event name =>
      let kept := name.text.toList.rdropWhile isBlank
      if kept = [] then "event:".toList else "event: ".toList ++ kept
  | content => content.render

theorem rdropWhile_cons {c : Char} (solid : isBlank c = false) (letters : List Char) :
    (c :: letters).rdropWhile isBlank = c :: letters.rdropWhile isBlank := by
  induction letters using List.reverseRecOn with
  | nil => exact List.rdropWhile_concat_neg isBlank [] c (by rw [solid]; exact Bool.false_ne_true)
  | append_singleton others last ih =>
      rw [← List.cons_append, List.rdropWhile_concat, List.rdropWhile_concat, ih]
      split <;> rfl

theorem exists_blanks_behind (letters : List Char) :
    ∃ blanks, letters = letters.rdropWhile isBlank ++ blanks ∧ ∀ c ∈ blanks, isBlank c :=
  ⟨letters.rtakeWhile isBlank, List.rdropWhile_append_rtakeWhile.symm,
    fun _ listed => List.mem_rtakeWhile_imp listed⟩

theorem getLast?_rdropWhile {letters : List Char} (filled : letters.rdropWhile isBlank ≠ []) :
    ∃ last, (letters.rdropWhile isBlank).getLast? = some last ∧ isBlank last = false := by
  have solid := List.rdropWhile_last_not isBlank letters filled
  exact ⟨_, List.getLast?_eq_some_getLast filled, by simpa using solid⟩

theorem Payload.stripped (payload : Payload loads) (front : List Char) {ending : List Char} {head : Char}
    (starts : front.head? = some head) (solid : isBlank head = false) (blank : ∀ c ∈ ending, isBlank c) :
    stripLine (front ++ payload.text.toList ++ ending) = front ++ payload.text.toList := by
  obtain ⟨last, ends, alsoSolid⟩ := payload.last
  apply stripLine_append _ _ _ solid alsoSolid blank
  · rw [List.head?_append, starts]
    rfl
  · rw [List.getLast?_append, ends]
    rfl

theorem stripLine_rawLine (line : Content loads × Bool) : stripLine (rawLine line) = line.1.stripped := by
  obtain ⟨content, crlf⟩ := line
  have blank := isBlank_lineEnd crlf
  unfold rawLine
  dsimp only
  cases content with
  | blank =>
      change stripLine ([] ++ if crlf then ['\r'] else []) = []
      rw [stripLine_eq, List.nil_append, List.dropWhile_eq_nil_iff.mpr blank]
      rfl
  | comment text =>
      change stripLine (':' :: text.text.toList ++ if crlf then ['\r'] else []) =
        (':' :: text.text.toList).rdropWhile isBlank
      rw [stripLine_eq, List.cons_append, List.dropWhile_cons_of_neg (by decide), ← List.cons_append,
        rdropWhile_append_blanks _ blank]
  | event name =>
      obtain ⟨blanks, whole, allBlank⟩ := exists_blanks_behind name.text.toList
      have behind (c : Char) (listed : c ∈ blanks ++ if crlf then ['\r'] else []) : isBlank c :=
        (List.mem_append.mp listed).elim (allBlank c) (blank c)
      change stripLine ("event: ".toList ++ name.text.toList ++ if crlf then ['\r'] else []) =
        if name.text.toList.rdropWhile isBlank = [] then "event:".toList
        else "event: ".toList ++ name.text.toList.rdropWhile isBlank
      by_cases none : name.text.toList.rdropWhile isBlank = []
      · rw [none, List.nil_append] at whole
        have split : "event: ".toList ++ name.text.toList ++ (if crlf then ['\r'] else []) =
            "event:".toList ++ (' ' :: (blanks ++ if crlf then ['\r'] else [])) := by
          rw [whole]
          simp
        rw [split, if_pos none]
        apply stripLine_append _ rfl rfl rfl rfl
        intro c listed
        rcases List.mem_cons.mp listed with rfl | later
        · rfl
        · exact behind c later
      · obtain ⟨last, ends, solid⟩ := getLast?_rdropWhile none
        have split : "event: ".toList ++ name.text.toList ++ (if crlf then ['\r'] else []) =
            ("event: ".toList ++ name.text.toList.rdropWhile isBlank) ++
              (blanks ++ if crlf then ['\r'] else []) := by
          nth_rewrite 1 [whole]
          simp only [List.append_assoc]
        rw [split, if_neg none]
        apply stripLine_append _ rfl _ rfl solid behind
        rw [List.getLast?_append, ends]
        rfl
  | data spaced payload =>
      exact payload.stripped ("data:".toList ++ space spaced) rfl rfl blank
  | done spaced =>
      cases spaced with
      | true => exact stripLine_append "data: [DONE]".toList rfl rfl rfl rfl blank
      | false => exact stripLine_append "data:[DONE]".toList rfl rfl rfl rfl blank

/-- What the second reader makes of the content of a line. -/
def readContent (currentEvent : String) : Content loads → LineRead String (String × Value)
  | .blank => .on "" none
  | .event name =>
      let kept := name.text.toList.rdropWhile isBlank
      .on (if kept = [] then currentEvent else String.ofList kept) none
  | .data true payload => .on currentEvent (some (currentEvent, payload.value))
  | .done true => .stop
  | _ => .on currentEvent none

theorem readData_payload (currentEvent : String) (payload : Payload loads) :
    readData loads currentEvent (fun value => (currentEvent, value)) ("data: ".toList ++ payload.text.toList) =
      .on currentEvent (some (currentEvent, payload.value)) := by
  have other : "data: ".toList ++ payload.text.toList ≠ "data: [DONE]".toList := by
    intro same
    have rest : payload.text.toList = "[DONE]".toList := List.append_cancel_left same
    exact payload.notDone (String.toList_inj.mp rest)
  have starts : "data: ".toList.isPrefixOf ("data: ".toList ++ payload.text.toList) = true := by
    rw [List.isPrefixOf_iff_prefix]
    exact List.prefix_append _ _
  unfold readData
  rw [if_neg other, if_pos starts, List.drop_left, String.ofList_toList, payload.loaded]
  rfl

theorem readData_unspaced (currentEvent : String) (payload : Payload loads) :
    readData loads currentEvent (fun value => (currentEvent, value)) ("data:".toList ++ payload.text.toList) =
      .on currentEvent none := by
  obtain ⟨head, starts, solid⟩ := payload.first
  obtain ⟨rest, letters⟩ := List.head?_eq_some_iff.mp starts
  have notSpace : head ≠ ' ' := by
    rintro rfl
    exact absurd solid (by decide)
  rw [letters]
  unfold readData
  rw [if_neg, if_neg]
  · intro prefixed
    have same := (List.isPrefixOf_iff_prefix.mp prefixed)
    simp [List.cons_prefix_cons] at same
    exact notSpace same.symm
  · intro same
    have tails := congrArg (List.drop 5) same
    exact notSpace (List.cons.inj tails).1

theorem postStreamSSELine_rawLine (currentEvent : String) (line : Content loads × Bool) :
    postStreamSSELine loads currentEvent (rawLine line) = readContent currentEvent line.1 := by
  unfold postStreamSSELine
  rw [stripLine_rawLine]
  obtain ⟨content, crlf⟩ := line
  cases content with
  | blank => rfl
  | comment text =>
      have stripped : (Content.comment text : Content loads).stripped =
          ':' :: text.text.toList.rdropWhile isBlank := rdropWhile_cons (by decide) _
      dsimp only
      rw [stripped]
      rfl
  | event name =>
      by_cases none : name.text.toList.rdropWhile isBlank = []
      · have stripped : (Content.event name : Content loads).stripped = "event:".toList := if_pos none
        have kept : readContent currentEvent (.event name : Content loads) = .on currentEvent Option.none := by
          simp only [readContent, if_pos none]
        dsimp only
        rw [stripped, kept]
        rfl
      · have stripped : (Content.event name : Content loads).stripped =
            "event: ".toList ++ name.text.toList.rdropWhile isBlank := if_neg none
        have kept : readContent currentEvent (.event name : Content loads) =
            .on (String.ofList (name.text.toList.rdropWhile isBlank)) Option.none := by
          simp only [readContent, if_neg none]
        dsimp only
        rw [stripped, kept]
        rfl
  | data spaced payload =>
      cases spaced with
      | true => exact readData_payload currentEvent payload
      | false => exact readData_unspaced currentEvent payload
  | done spaced => cases spaced <;> rfl

theorem readData_image (state : String) (line : List Char) :
    readData loads () id line =
      (readData loads state (fun value => (state, value)) line).map (fun _ => ()) Prod.snd := by
  unfold readData
  split
  · rfl
  · split
    · rw [LineRead.map, Option.map_map]
      rfl
    · rfl

theorem postStreamLine_eq (currentEvent : String) (raw : List Char) :
    postStreamLine loads () raw =
      (postStreamSSELine loads currentEvent raw).map (fun _ => ()) Prod.snd := by
  unfold postStreamLine postStreamSSELine
  dsimp only
  by_cases empty : stripLine raw = []
  · rw [if_pos (.inl empty), if_pos empty]
    rfl
  · rw [if_neg empty]
    by_cases comment : ":".toList.isPrefixOf (stripLine raw) = true
    · rw [if_pos (.inr comment), if_pos comment]
      rfl
    · rw [if_neg (not_or.mpr ⟨empty, comment⟩), if_neg comment]
      by_cases event : "event: ".toList.isPrefixOf (stripLine raw) = true
      · rw [if_pos event]
        obtain ⟨rest, line⟩ := List.isPrefixOf_iff_prefix.mp event
        rw [← line]
        rfl
      · rw [if_neg event]
        exact readData_image currentEvent _

end Lines

section Streams

variable {Value : Type} {loads : String → Option Value}

theorem readLines_rawLine (currentEvent : String) (lines : List (Content loads × Bool)) :
    readLines (postStreamSSELine loads) currentEvent (lines.map rawLine) =
      readLines readContent currentEvent (lines.map Prod.fst) := by
  induction lines generalizing currentEvent with
  | nil => rfl
  | cons line rest ih =>
      rw [List.map_cons, List.map_cons, readLines, readLines, postStreamSSELine_rawLine]
      cases readContent currentEvent line.1 with
      | stop => rfl
      | on next yielded =>
          dsimp only
          rw [ih next]

theorem readLines_comments (currentEvent : String) (texts : List OneLine) :
    readLines readContent currentEvent (texts.map fun text => (.comment text : Content loads)) = ([], some currentEvent) := by
  induction texts with
  | nil => rfl
  | cons text rest ih =>
      rw [List.map_cons, readLines]
      dsimp only [readContent]
      rw [ih]
      rfl

/-- What the second reader yields of an event. -/
def Block.yielded : Block loads → Option (String × Value)
  | .message name _ true payload _ =>
      some (String.ofList ((eventName name).toList.rdropWhile isBlank), payload.value)
  | _ => none

theorem readLines_block (block : Block loads) :
    readLines readContent "" block.contents = (block.yielded.toList, some "") := by
  cases block with
  | blank => rfl
  | comment text => rfl
  | message name between spaced payload behind =>
      have named : readLines readContent "" (name.map fun name => (.event name : Content loads)).toList =
          ([], some (String.ofList ((eventName name).toList.rdropWhile isBlank))) := by
        cases name with
        | none => rfl
        | some name =>
            simp only [Option.map_some, Option.toList_some, readLines, readContent, eventName, Option.getD_some]
            by_cases none : name.text.toList.rdropWhile isBlank = []
            · rw [if_pos none, none]
              rfl
            · rw [if_neg none]
              rfl
      unfold Block.contents
      simp only [List.append_assoc, readLines_append, named, readLines_comments, List.nil_append]
      cases spaced <;>
        simp [readLines, readContent, Block.yielded]

theorem readLines_blocks (blocks : List (Block loads)) :
    readLines readContent "" (blocks.flatMap Block.contents) = (blocks.filterMap Block.yielded, some "") := by
  induction blocks with
  | nil => rfl
  | cons block rest ih =>
      rw [List.flatMap_cons, readLines_append, readLines_block]
      dsimp only
      rw [ih, List.filterMap_cons]
      cases block.yielded <;> rfl

theorem readLines_front (front : Front loads) :
    readLines readContent "" front.contents =
      (front.blocks.filterMap Block.yielded, if front.done = some true then none else some "") := by
  unfold Front.contents
  rw [readLines_append, readLines_blocks]
  rcases front.done with _ | _ | _ <;> simp [readLines, readContent]

theorem newline_notMem_rawLine (line : Content loads × Bool) : '\n' ∉ rawLine line := by
  obtain ⟨content, crlf⟩ := line
  have ending : '\n' ∉ (if crlf then ['\r'] else []) := by cases crlf <;> decide
  have field (spaced : Bool) : '\n' ∉ "data:".toList ++ space spaced := by cases spaced <;> decide
  intro listed
  rcases List.mem_append.mp listed with inside | behind
  · cases content with
    | blank => cases inside
    | comment text =>
        rcases List.mem_cons.mp inside with colon | inside
        · cases colon
        · exact text.oneLine inside
    | event name =>
        rcases List.mem_append.mp inside with label | inside
        · exact absurd label (by decide)
        · exact name.oneLine inside
    | data spaced payload =>
        rcases List.mem_append.mp inside with label | inside
        · exact field spaced label
        · exact payload.oneLine inside
    | done spaced =>
        rcases List.mem_append.mp inside with label | inside
        · exact field spaced label
        · exact absurd inside (by decide)
  · exact ending behind

theorem newline_notMem_map (lines : List (Content loads × Bool)) :
    ∀ raw ∈ lines.map rawLine, '\n' ∉ raw := by
  intro raw listed
  obtain ⟨line, -, rfl⟩ := List.mem_map.mp listed
  exact newline_notMem_rawLine line

theorem readLines_postStreamLine (lines : List (List Char)) :
    readLines (postStreamLine loads) () lines =
      ((readLines (postStreamSSELine loads) "" lines).1.map Prod.snd,
        (readLines (postStreamSSELine loads) "" lines).2.map fun _ => ()) := by
  have seen : readLines (postStreamLine loads) ((fun _ : String => ()) "") (lines.map id) = _ :=
    readLines_map (fun state line => postStreamLine_eq state line) "" lines
  rwa [List.map_id] at seen

/-- What stands behind a `[DONE]` line that has its space is not read. -/
theorem readLines_behind {front : Front loads} {lines : List (Content loads × Bool)}
    (encodes : lines.map Prod.fst = front.contents) {others : List (List Char)}
    (ends : front.done = some true ∨ others = []) :
    (readLines (postStreamSSELine loads) "" (lines.map rawLine ++ others)).1 =
      front.blocks.filterMap Block.yielded := by
  rw [readLines_append, readLines_rawLine, encodes, readLines_front]
  rcases ends with done | rfl
  · rw [if_pos done]
  · split
    · next same => exact (Prod.mk.inj same).1.symm
    · next same =>
        obtain ⟨rfl, -⟩ := Prod.mk.inj same
        exact List.append_nil _

end Streams

section Written

variable {Value : Type} {loads : String → Option Value}

/-- An event whose line of data has the space, and whose name does not end with a blank. -/
def Block.Written : Block loads → Prop
  | .message name _ spaced _ _ =>
      spaced = true ∧ (eventName name).toList.rdropWhile isBlank = (eventName name).toList
  | _ => True

/-- All lines of data have the space behind `data:`, and no name of an event ends with a blank. -/
def Front.Written (front : Front loads) : Prop :=
  (∀ block ∈ front.blocks, block.Written) ∧ front.done ≠ some false

theorem Block.Written.yielded {block : Block loads} (written : block.Written) :
    block.yielded = block.event := by
  cases block with
  | blank | comment _ => rfl
  | message name between spaced payload behind =>
      obtain ⟨rfl, kept⟩ := written
      simp only [Block.yielded, Block.event, kept, String.ofList_toList]

theorem length_yielded_le (blocks : List (Block loads)) :
    (blocks.filterMap Block.yielded).length ≤ (blocks.filterMap Block.event).length := by
  induction blocks with
  | nil => exact le_rfl
  | cons block rest ih =>
      rw [List.filterMap_cons, List.filterMap_cons]
      cases block with
      | blank | comment _ => exact ih
      | message name between spaced payload behind =>
          cases spaced with
          | true => exact Nat.succ_le_succ ih
          | false => exact Nat.le_succ_of_le ih

theorem yielded_eq_iff (blocks : List (Block loads)) :
    blocks.filterMap Block.yielded = blocks.filterMap Block.event ↔ ∀ block ∈ blocks, block.Written := by
  constructor
  · intro same
    induction blocks with
    | nil =>
        intro block listed
        cases listed
    | cons block rest ih =>
        rw [List.filterMap_cons, List.filterMap_cons] at same
        cases block with
        | blank | comment _ =>
            intro other listed
            rcases List.mem_cons.mp listed with rfl | later
            · trivial
            · exact ih same other later
        | message name between spaced payload behind =>
            cases spaced with
            | false =>
                have lengths := congrArg List.length same
                have shorter := length_yielded_le rest
                simp only [Block.yielded, Block.event, List.length_cons] at lengths
                omega
            | true =>
                obtain ⟨first, others⟩ := List.cons.inj same
                have kept := congrArg String.toList (congrArg Prod.fst first)
                rw [String.toList_ofList] at kept
                intro other listed
                rcases List.mem_cons.mp listed with rfl | later
                · exact ⟨rfl, kept⟩
                · exact ih others other later
  · intro written
    exact List.filterMap_congr fun block listed => (written block listed).yielded

theorem Front.Written.decodes {front : Front loads} (written : front.Written)
    {lines : List (Content loads × Bool)} (encodes : lines.map Prod.fst = front.contents) :
    Decodes front lines := by
  intro chunks behind whole tail
  have events : front.blocks.filterMap Block.yielded = front.events := (yielded_eq_iff _).mpr written.1
  have ends : front.done = some true ∨ (completeLines '\n' behind).1 = [] := by
    rcases done : front.done with _ | _ | _
    · rw [tail done]
      exact .inr rfl
    · exact absurd done written.2
    · exact .inl rfl
  have linesAre : (completeLines '\n' ([] ++ chunks.flatten)).1 =
      lines.map rawLine ++ (completeLines '\n' behind).1 := by
    rw [List.nil_append, whole]
    exact congrArg Prod.fst (completeLines_flatMap '\n' (newline_notMem_map lines) behind)
  constructor
  · intro within
    unfold postStream
    rw [readChunks_eq '\n' rfl within, linesAre, readLines_postStreamLine]
    dsimp only
    rw [readLines_behind encodes ends, events]
  · intro within
    unfold postStreamSSE
    rw [readChunks_eq '\n' rfl within, linesAre, readLines_behind encodes ends, events]

/-- A line of data behind a `[DONE]` line. -/
def lateLine : List Char := "data: 0".toList

theorem postStreamSSELine_lateLine {zero : Value} (parsed : loads "0" = some zero) :
    postStreamSSELine loads "" lateLine = .on "" (some ("", zero)) := by
  have stripped : stripLine lateLine = lateLine := by
    have blank : ∀ c ∈ ([] : List Char), isBlank c := fun c listed => nomatch listed
    have kept := stripLine_append lateLine rfl rfl rfl rfl blank
    rwa [List.append_nil] at kept
  unfold postStreamSSELine
  rw [stripped]
  change LineRead.on "" ((loads "0").map _) = _
  rw [parsed]
  rfl

/-- A stream whose lines fit the buffer is decoded, however it is cut, exactly if its lines of data
have their spaces and the names of its events do not end with blanks. -/
theorem decodes_iff {zero : Value} (parsed : loads "0" = some zero) {front : Front loads}
    {lines : List (Content loads × Bool)} (encodes : lines.map Prod.fst = front.contents)
    (fits : ∀ line ∈ lines, (rawLine line).length < maxSSEBufSize) :
    Decodes front lines ↔ front.Written := by
  refine ⟨fun decodes => ?_, fun written => written.decodes encodes⟩
  have fits' : ∀ raw ∈ lines.map rawLine, raw.length < maxSSEBufSize := by
    intro raw listed
    obtain ⟨line, there, rfl⟩ := List.mem_map.mp listed
    exact fits line there
  have byLine : postStreamSSE loads ((lines.map rawLine).map fun line => line ++ ['\n']) = _ :=
    readChunks_lines '\n' "" (newline_notMem_map lines) fits'
  rw [readLines_rawLine, encodes, readLines_front] at byLine
  have cut : ((lines.map rawLine).map fun line => line ++ ['\n']).flatten = streamText lines :=
    List.flatMap_def.symm
  have same : front.blocks.filterMap Block.yielded = front.events := by
    have yields := (decodes _ [] (by rw [cut, List.append_nil]) fun _ => rfl).2
    rw [byLine] at yields
    apply yields
    dsimp only
    split <;> (intro other; cases other)
  refine ⟨(yielded_eq_iff _).mp same, fun unspaced => ?_⟩
  have waits : (postStreamSSE loads ((lines.map rawLine).map fun line => line ++ ['\n'])).2 = .waits "" [] := by
    rw [byLine, unspaced]
    rfl
  have late : readChunks '\n' (postStreamSSELine loads) maxSSEBufSize "" [] [lateLine ++ ['\n']] =
      ([("", zero)], .waits "" []) := by
    have one : readChunks '\n' (postStreamSSELine loads) maxSSEBufSize "" []
        ([lateLine].map fun line => line ++ ['\n']) = _ := readChunks_lines '\n' "" (by decide) (by decide)
    rw [readLines, postStreamSSELine_lateLine parsed] at one
    exact one
  have further : postStreamSSE loads (_ ++ [lateLine ++ ['\n']]) = _ := readChunks_append '\n' waits
  rw [late] at further
  have whole : (((lines.map rawLine).map fun line => line ++ ['\n']) ++ [lateLine ++ ['\n']]).flatten =
      streamText lines ++ (lateLine ++ ['\n']) := by
    rw [List.flatten_append, cut, List.flatten_singleton]
  have yields := (decodes _ (lateLine ++ ['\n']) whole fun none => by
    rw [none] at unspaced
    cases unspaced).2
  rw [further] at yields
  have lengths := congrArg List.length (yields fun other => by cases other)
  have yielded : (postStreamSSE loads ((lines.map rawLine).map fun line => line ++ ['\n'])).1 = front.events := by
    rw [byLine, same]
  unfold postStreamSSE at yielded
  rw [yielded, List.length_append, List.length_singleton] at lengths
  omega

def loadsDigits (text : String) : Option ℕ := digitsValue text.toList

def numeral : Payload loadsDigits where
  text := "7"
  value := 7
  loaded := by decide
  oneLine := by decide
  first := ⟨'7', rfl, by decide⟩
  last := ⟨'7', rfl, by decide⟩
  notDone := by decide

/-- A named event and one without a name, with comments and with both ends of lines. -/
def spacedFront : Front loadsDigits where
  blocks :=
    [.comment ⟨" open", by decide⟩, .message (some ⟨"delta", by decide⟩) [] true numeral [], .blank,
      .message none [⟨"", by decide⟩] true numeral []]
  done := some true

def spacedLines : List (Content loadsDigits × Bool) :=
  spacedFront.contents.zipIdx.map fun line => (line.1, line.2 % 2 = 1)

theorem spacedLines_decodes : Decodes spacedFront spacedLines := by
  have written : spacedFront.Written := by
    refine ⟨fun block listed => ?_, by decide⟩
    simp only [spacedFront, List.mem_cons, List.not_mem_nil, or_false] at listed
    rcases listed with rfl | rfl | rfl | rfl
    · trivial
    · exact ⟨rfl, by decide⟩
    · trivial
    · exact ⟨rfl, by decide⟩
  have parsed : loadsDigits "0" = some 0 := by decide
  have encodes : spacedLines.map Prod.fst = spacedFront.contents := rfl
  exact (decodes_iff parsed encodes (by decide)).mpr written

def unspacedFront : Front loadsDigits where
  blocks := [.message none [] false numeral []]
  done := none

def unspacedLines : List (Content loadsDigits × Bool) := [(.data false numeral, false), (.blank, false)]

/-- Both readers lose the payload, which comes in one chunk. -/
theorem unspacedLines_lost :
    unspacedLines.map Prod.fst = unspacedFront.contents ∧
      streamText unspacedLines = "data:7\n\n".toList ∧ unspacedFront.events = [("", 7)] ∧
      postStream loadsDigits ["data:7\n\n".toList] = ([], .waits () []) ∧
      postStreamSSE loadsDigits ["data:7\n\n".toList] = ([], .waits "" []) ∧
      ¬ Decodes unspacedFront unspacedLines := by
  have text : streamText unspacedLines = "data:7\n\n".toList := by decide
  have lost : postStreamSSE loadsDigits ["data:7\n\n".toList] = ([], .waits "" []) := by decide
  refine ⟨rfl, text, rfl, by decide, lost, fun decodes => ?_⟩
  have yields := (decodes ["data:7\n\n".toList] [] (by rw [text]; rfl) fun _ => rfl).2
  rw [lost] at yields
  cases yields fun other => nomatch other

end Written

end Sico.LlmHubs
