import Mathlib.Data.List.Basic
import Sico.LlmHubs.ChatCompletions

/-! # Streamed chat completions

A message is streamed by cutting it into deltas: its text, its refusal and the arguments of
its tool calls anywhere, the fragments of different tool calls in any order. What the stream
decodes to is compared with what the message decodes to at once.

The stream does not read refusals, and for a call without an identifier it makes one up from
the index. Otherwise both agree.
-/

namespace Sico.LlmHubs

open Foundation

/-- The pieces of a streamed field, put together. -/
def joined {Piece : Type} (field : Piece → Option String) (pieces : List Piece) : String :=
  String.join (pieces.map fun piece => (field piece).getD "")

/-- A way of cutting a message into deltas, the last of which comes with the reason to finish. -/
structure Cut (message : AssistantMessage) where
  earlier : List (Delta × Option UsageData)
  last : Delta × Option UsageData
  finishReason : String
  finished : finishReason ≠ ""
  content : joined Delta.content ((earlier ++ [last]).map Prod.fst) = message.content.getD ""
  refusal : joined Delta.refusal ((earlier ++ [last]).map Prod.fst) = message.refusal.getD ""
  own : ∀ fragment ∈ ((earlier ++ [last]).map Prod.fst).flatMap Delta.toolCalls,
    ∃ (i : ℕ) (call : ToolCall), message.toolCalls[i]? = some call ∧ fragment.index = some ↑i ∧
      (fragment.id = none ∨ fragment.id = some call.id) ∧
      (fragment.name = none ∨ fragment.name = some call.name)
  carriesID : ∀ (i : ℕ) (call : ToolCall), message.toolCalls[i]? = some call →
    ∃ fragment ∈ ((earlier ++ [last]).map Prod.fst).flatMap Delta.toolCalls,
      fragment.index = some ↑i ∧ fragment.id = some call.id
  carriesName : ∀ (i : ℕ) (call : ToolCall), message.toolCalls[i]? = some call →
    ∃ fragment ∈ ((earlier ++ [last]).map Prod.fst).flatMap Delta.toolCalls,
      fragment.index = some ↑i ∧ fragment.name = some call.name
  arguments : ∀ (i : ℕ) (call : ToolCall), message.toolCalls[i]? = some call →
    joined ToolCallFragment.arguments
      ((((earlier ++ [last]).map Prod.fst).flatMap Delta.toolCalls).filter (·.index = some ↑i)) =
        call.arguments

def chunkOf (finishReason : Option String) (piece : Delta × Option UsageData) : ChatChunk :=
  { choices := [{ delta := piece.1, finishReason }], usage := piece.2 }

namespace Cut

variable {message : AssistantMessage} (cut : Cut message)

def deltas : List Delta := (cut.earlier ++ [cut.last]).map Prod.fst

def fragments : List ToolCallFragment := cut.deltas.flatMap Delta.toolCalls

def chunks : List ChatChunk :=
  cut.earlier.map (chunkOf none) ++ [chunkOf (some cut.finishReason) cut.last]

end Cut

def mergeTexts (outputs : List OutputItem) : List OutputItem :=
  outputOf (.text · []) (some (textsOf outputs)) ++ outputs.filter fun output => !output.isText

section Chunks

variable (state : ToolCallState) (piece : Delta × Option UsageData)

theorem outputOf_text (content : Option String) :
    ([content.getD ""].filter (· ≠ "")).map (OutputItem.text · []) =
      outputOf (.text · []) content := by
  unfold outputOf
  by_cases empty : content.getD "" = "" <;> simp [empty]

theorem parse_open :
    ((parseStreamChunk (chunkOf none piece) state).1.map StreamChunk.outputs).getD [] =
        outputOf (.text · []) piece.1.content ∧
      (parseStreamChunk (chunkOf none piece) state).2 =
        piece.1.toolCalls.foldl absorbFragment state := by
  have text := outputOf_text piece.1.content
  simp only [parseStreamChunk, chunkOf, List.map_cons, List.map_nil, List.foldl_cons,
    List.foldl_nil, finishOf, Option.getD_none, if_true, Option.isSome_none, Bool.false_eq_true,
    if_false, List.append_nil, text, List.flatMap_cons, List.flatMap_nil]
  split
  · rename_i silent
    simp only [Option.isNone_none, Bool.and_true, Bool.and_eq_true, List.isEmpty_iff] at silent
    simp [silent.1]
  · simp

theorem parse_finish {finishReason : String} (finished : finishReason ≠ "") :
    ((parseStreamChunk (chunkOf (some finishReason) piece) state).1.map StreamChunk.outputs).getD [] =
      outputOf (.text · []) piece.1.content ++
        (piece.1.toolCalls.foldl absorbFragment state).entries.map fun entry => entry.2.output := by
  have text := outputOf_text piece.1.content
  simp only [parseStreamChunk, chunkOf, List.map_cons, List.map_nil, List.foldl_cons,
    List.foldl_nil, finishOf, Option.getD_some, finished, if_false, Option.isSome_some, if_true,
    text, List.flatMap_cons, List.flatMap_nil, List.append_nil, Option.isNone_some, Bool.and_false,
    Bool.false_and, Bool.false_eq_true, Option.map_some]

theorem streamOutputs_eq {finishReason : String} (finished : finishReason ≠ "")
    (earlier : List (Delta × Option UsageData)) (last : Delta × Option UsageData) :
    streamOutputs (earlier.map (chunkOf none) ++ [chunkOf (some finishReason) last]) state =
      ((earlier ++ [last]).map Prod.fst).flatMap (fun delta => outputOf (.text · []) delta.content) ++
        ((((earlier ++ [last]).map Prod.fst).flatMap Delta.toolCalls).foldl absorbFragment
          state).entries.map fun entry => entry.2.output := by
  induction earlier generalizing state with
  | nil => simp [streamOutputs, parse_finish state last finished]
  | cons piece rest ih =>
      obtain ⟨outputs, next⟩ := parse_open state piece
      simp only [List.map_cons, List.cons_append, streamOutputs, outputs, next, ih]
      simp [List.append_assoc]

end Chunks

section Fragments

theorem find?_absorbFragment (state : ToolCallState) {fragment : ToolCallFragment} {index : ℤ}
    (named : fragment.index = some index) (other : ℤ) :
    (absorbFragment state fragment).find? other =
      if other = index then some (((state.find? index).getD (newCall index)).absorb fragment)
      else state.find? other := by
  unfold absorbFragment
  rw [named]
  exact SortedMap.find?_insert index other _

theorem find?_foldl {fragments : List ToolCallFragment}
    (indexed : ∀ fragment ∈ fragments, fragment.index.isSome) (state : ToolCallState) (index : ℤ) :
    (fragments.foldl absorbFragment state).find? index =
      if fragments.filter (·.index = some index) = [] then state.find? index
      else some ((fragments.filter (·.index = some index)).foldl PendingCall.absorb
        ((state.find? index).getD (newCall index))) := by
  induction fragments generalizing state with
  | nil => simp
  | cons fragment rest ih =>
      obtain ⟨own, named⟩ := Option.isSome_iff_exists.mp (indexed fragment List.mem_cons_self)
      have later := fun fragment member => indexed fragment (List.mem_cons_of_mem _ member)
      rw [List.foldl_cons, ih later, find?_absorbFragment state named]
      by_cases same : index = own
      · subst same
        simp only [if_true, List.filter_cons, named, decide_true, reduceCtorEq, if_false,
          List.foldl_cons, Option.getD_some]
        split
        · rename_i nothing
          rw [nothing, List.foldl_nil]
        · rfl
      · have other : ¬ some own = some index := fun equal => same (Option.some.inj equal).symm
        simp only [same, if_false, List.filter_cons, named, other, decide_false, Bool.false_eq_true]

theorem absorb_callID (fragments : List ToolCallFragment) (call : PendingCall) :
    (fragments.foldl PendingCall.absorb call).callID =
      (fragments.map ToolCallFragment.id).foldl orKeep call.callID := by
  induction fragments generalizing call with
  | nil => rfl
  | cons fragment rest ih => exact ih (call.absorb fragment)

theorem absorb_name (fragments : List ToolCallFragment) (call : PendingCall) :
    (fragments.foldl PendingCall.absorb call).name =
      (fragments.map ToolCallFragment.name).foldl orKeep call.name := by
  induction fragments generalizing call with
  | nil => rfl
  | cons fragment rest ih => exact ih (call.absorb fragment)

theorem absorb_arguments (fragments : List ToolCallFragment) (call : PendingCall) :
    (fragments.foldl PendingCall.absorb call).arguments =
      call.arguments ++ joined ToolCallFragment.arguments fragments := by
  induction fragments generalizing call with
  | nil => simp [joined]
  | cons fragment rest ih =>
      rw [List.foldl_cons, ih]
      simp [joined, PendingCall.absorb, String.append_assoc]

theorem foldl_orKeep {value : String} {given : List (Option String)}
    (same : ∀ one ∈ given, one = none ∨ one = some value) (current : String) :
    given.foldl orKeep current = if some value ∈ given ∧ value ≠ "" then value else current := by
  induction given generalizing current with
  | nil => simp
  | cons one rest ih =>
      rw [List.foldl_cons, ih fun other member => same other (List.mem_cons_of_mem _ member)]
      by_cases empty : value = ""
      · rcases same one List.mem_cons_self with rfl | rfl <;> simp [orKeep, empty]
      · rcases same one List.mem_cons_self with rfl | rfl
        · simp [orKeep]
        · simp [orKeep, empty]

end Fragments

section Agreement

variable {message : AssistantMessage}

def streamedCall (i : ℕ) (call : ToolCall) : PendingCall :=
  { callID := if call.id = "" then "tool_call_" ++ toString (i : ℤ) else call.id
    name := call.name
    arguments := call.arguments }

theorem absorb_own {i : ℕ} {call : ToolCall} {fragments : List ToolCallFragment}
    (own : ∀ fragment ∈ fragments, (fragment.id = none ∨ fragment.id = some call.id) ∧
      (fragment.name = none ∨ fragment.name = some call.name))
    (carriesID : ∃ fragment ∈ fragments, fragment.id = some call.id)
    (carriesName : ∃ fragment ∈ fragments, fragment.name = some call.name)
    (arguments : joined ToolCallFragment.arguments fragments = call.arguments) :
    fragments.foldl PendingCall.absorb (newCall i) = streamedCall i call := by
  have ids : ∀ one ∈ fragments.map ToolCallFragment.id, one = none ∨ one = some call.id := by
    intro one given
    obtain ⟨fragment, inside, rfl⟩ := List.mem_map.mp given
    exact (own fragment inside).1
  have names : ∀ one ∈ fragments.map ToolCallFragment.name, one = none ∨ one = some call.name := by
    intro one given
    obtain ⟨fragment, inside, rfl⟩ := List.mem_map.mp given
    exact (own fragment inside).2
  apply PendingCall.ext
  · rw [absorb_callID, foldl_orKeep ids]
    by_cases empty : call.id = "" <;> simp [streamedCall, newCall, empty, List.mem_map.mpr carriesID]
  · rw [absorb_name, foldl_orKeep names]
    by_cases empty : call.name = "" <;>
      simp [streamedCall, newCall, empty, List.mem_map.mpr carriesName]
  · rw [absorb_arguments, arguments]
    simp [streamedCall, newCall]

theorem Cut.indexed (cut : Cut message) : ∀ fragment ∈ cut.fragments, fragment.index.isSome := by
  intro fragment member
  obtain ⟨j, -, -, named, -⟩ := cut.own fragment member
  rw [named]
  rfl

theorem Cut.find?_fragments (cut : Cut message) {i : ℕ} {call : ToolCall}
    (there : message.toolCalls[i]? = some call) :
    (cut.fragments.foldl absorbFragment SortedMap.empty).find? (i : ℤ) =
      some (streamedCall i call) := by
  have filtered : ∀ {fragment}, fragment ∈ cut.fragments → fragment.index = some (i : ℤ) →
      fragment ∈ cut.fragments.filter (·.index = some (i : ℤ)) := fun member named =>
    List.mem_filter.mpr ⟨member, decide_eq_true named⟩
  obtain ⟨first, member, named, carried⟩ := cut.carriesID i call there
  obtain ⟨second, member', named', carried'⟩ := cut.carriesName i call there
  have some_ : cut.fragments.filter (·.index = some (i : ℤ)) ≠ [] :=
    List.ne_nil_of_mem (filtered member named)
  rw [find?_foldl cut.indexed, if_neg some_]
  change some (List.foldl PendingCall.absorb (newCall i) _) = _
  rw [absorb_own ?_ ⟨first, filtered member named, carried⟩
    ⟨second, filtered member' named', carried'⟩ (cut.arguments i call there)]
  intro fragment inside
  obtain ⟨present, index⟩ := List.mem_filter.mp inside
  obtain ⟨j, other, found, named, fields⟩ := cut.own fragment present
  have same : j = i := by
    rw [decide_eq_true_eq, named, Option.some_inj] at index
    exact_mod_cast index
  rw [same, there, Option.some_inj] at found
  rw [found]
  exact fields

theorem Cut.find?_fragments_none (cut : Cut message) {index : ℤ}
    (absent : ∀ (i : ℕ) (call : ToolCall), message.toolCalls[i]? = some call → index ≠ i) :
    (cut.fragments.foldl absorbFragment SortedMap.empty).find? index = none := by
  have nothing : cut.fragments.filter (·.index = some index) = [] := by
    rw [List.filter_eq_nil_iff]
    intro fragment member named
    obtain ⟨i, call, found, own, -⟩ := cut.own fragment member
    rw [own, decide_eq_true_eq, Option.some_inj] at named
    exact absent i call found named.symm
  rw [find?_foldl cut.indexed, if_pos nothing]
  rfl

theorem Cut.entries_fragments (cut : Cut message) :
    (cut.fragments.foldl absorbFragment SortedMap.empty).entries =
      message.toolCalls.mapIdx fun i call => ((i : ℤ), streamedCall i call) := by
  apply SortedMap.entries_eq
  · rw [List.pairwise_iff_getElem]
    intro i j first second below
    simpa using below
  · rintro ⟨index, pending⟩
    rw [← SortedMap.find?_eq_some, List.mem_mapIdx]
    constructor
    · intro found
      by_contra absent
      rw [cut.find?_fragments_none] at found
      · cases found
      · rintro i call there rfl
        rw [cut.find?_fragments there, Option.some_inj] at found
        obtain ⟨inside, same⟩ := List.getElem?_eq_some_iff.mp there
        exact absent ⟨i, inside, by rw [same, found]⟩
    · rintro ⟨i, inside, same⟩
      obtain ⟨rfl, rfl⟩ := Prod.mk.inj same
      exact cut.find?_fragments (List.getElem?_eq_getElem inside)

theorem textsOf_outputOf (content : Option String) :
    textsOf (outputOf (.text · []) content) = content.getD "" := by
  unfold outputOf
  by_cases empty : content.getD "" = "" <;> simp [empty, textsOf, OutputItem.textOf]

theorem textsOf_deltas (deltas : List Delta) :
    textsOf (deltas.flatMap fun delta => outputOf (.text · []) delta.content) =
      joined Delta.content deltas := by
  induction deltas with
  | nil => rfl
  | cons delta rest ih =>
      rw [List.flatMap_cons, textsOf_append, textsOf_outputOf, ih]
      simp [joined]

theorem mem_outputOf_text {content : Option String} {output : OutputItem}
    (member : output ∈ outputOf (.text · []) content) : output.isText = true := by
  unfold outputOf at member
  split at member
  · cases member
  · rw [List.mem_singleton.mp member]
    rfl

def streamedCalls (calls : List ToolCall) : List OutputItem :=
  calls.mapIdx fun i call => (streamedCall i call).output

theorem textsOf_streamedCalls (calls : List ToolCall) : textsOf (streamedCalls calls) = "" := by
  have silent : (streamedCalls calls).map OutputItem.textOf =
      List.replicate calls.length "" := by
    rw [streamedCalls, List.eq_replicate_iff]
    refine ⟨by simp, ?_⟩
    intro text member
    obtain ⟨output, inside, rfl⟩ := List.mem_map.mp member
    obtain ⟨i, -, rfl⟩ := List.mem_mapIdx.mp inside
    rfl
  rw [textsOf, silent]
  induction calls.length with
  | zero => rfl
  | succ length ih => simpa [List.replicate_succ] using ih

theorem isText_streamedCalls {calls : List ToolCall} {output : OutputItem}
    (member : output ∈ streamedCalls calls) : output.isText = false := by
  obtain ⟨i, -, rfl⟩ := List.mem_mapIdx.mp member
  rfl

theorem Cut.mergeTexts_streamOutputs (cut : Cut message) :
    mergeTexts (streamOutputs cut.chunks SortedMap.empty) =
      outputOf (.text · []) message.content ++ streamedCalls message.toolCalls := by
  have stream : streamOutputs cut.chunks SortedMap.empty =
      cut.deltas.flatMap (fun delta => outputOf (.text · []) delta.content) ++
        streamedCalls message.toolCalls := by
    refine (streamOutputs_eq SortedMap.empty cut.finished cut.earlier cut.last).trans ?_
    change _ ++ List.map _ (cut.fragments.foldl absorbFragment SortedMap.empty).entries = _
    rw [cut.entries_fragments, streamedCalls]
    congr 1
    apply List.ext_getElem?
    intro i
    simp [Function.comp_def]
  have texts : ∀ output ∈ cut.deltas.flatMap fun delta => outputOf (.text · []) delta.content,
      ¬ (!output.isText) = true := by
    intro output member
    obtain ⟨delta, -, inside⟩ := List.mem_flatMap.mp member
    simp [mem_outputOf_text inside]
  have calls : ∀ output ∈ streamedCalls message.toolCalls, (!output.isText) = true := by
    intro output member
    simp [isText_streamedCalls member]
  have content : joined Delta.content cut.deltas = message.content.getD "" := cut.content
  rw [mergeTexts, stream, textsOf_append, textsOf_deltas, textsOf_streamedCalls, content,
    String.append_empty, List.filter_append, List.filter_eq_nil_iff.mpr texts, List.nil_append,
    List.filter_eq_self.mpr calls]
  rfl

theorem streamedCalls_eq {calls : List ToolCall} :
    streamedCalls calls = calls.map ToolCall.output ↔ ∀ call ∈ calls, call.id ≠ "" := by
  constructor
  · intro same call member empty
    obtain ⟨i, inside, rfl⟩ := List.getElem_of_mem member
    have equal := congrArg (fun outputs => outputs[i]?) same
    simp only [streamedCalls, List.getElem?_mapIdx, List.getElem?_map,
      List.getElem?_eq_getElem inside, Option.map_some, Option.some_inj] at equal
    have ids := (OutputItem.functionCall.inj equal).1
    rw [streamedCall, if_pos empty, empty] at ids
    have made : "tool_call_" ++ toString (i : ℤ) ≠ "" := by simp
    exact made ids
  · intro named
    apply List.ext_getElem (by simp [streamedCalls])
    intro i first second
    have inside : i < calls.length := by simpa [streamedCalls] using first
    have member : calls[i] ∈ calls := List.getElem_mem inside
    simp [streamedCalls, streamedCall, named _ member, PendingCall.output, ToolCall.output]

/-- **Streamed chat completions.** However a message is cut into deltas, the stream decodes to
the outputs of the message, with its texts put together, if and only if the message has no
refusal and each of its calls has an identifier. -/
theorem streamOutputs_eq_iff (message : AssistantMessage) (usage : Option UsageData)
    (cut : Cut message) :
    mergeTexts (streamOutputs cut.chunks SortedMap.empty) =
        (parseResponse { choices := [message], usage }).outputs ↔
      message.refusal.getD "" = "" ∧ ∀ call ∈ message.toolCalls, call.id ≠ "" := by
  rw [cut.mergeTexts_streamOutputs, ← streamedCalls_eq]
  change _ = outputOf (.text · []) message.content ++ outputOf .refusal message.refusal ++
    message.toolCalls.map ToolCall.output ↔ _
  rw [List.append_assoc, List.append_cancel_left_eq]
  by_cases empty : message.refusal.getD "" = ""
  · simp [outputOf, empty]
  · -- one output more than the stream has
    constructor
    · intro same
      have length := congrArg List.length same
      simp [outputOf, empty, streamedCalls] at length
    · exact fun both => absurd both.1 empty

def refusalCut : Cut { refusal := some "I cannot help." } where
  earlier := [({ refusal := some "I cannot" }, none)]
  last := ({ refusal := some " help." }, none)
  finishReason := "stop"
  finished := by decide
  content := by decide
  refusal := by decide
  own := by simp
  carriesID := by simp
  carriesName := by simp
  arguments := by simp

/-- The refusal is lost in the stream. -/
theorem refusal_not_streamed :
    mergeTexts (streamOutputs refusalCut.chunks SortedMap.empty) ≠
      (parseResponse { choices := [{ refusal := some "I cannot help." }], usage := none }).outputs := by
  have streamed : mergeTexts (streamOutputs refusalCut.chunks SortedMap.empty) = [] := by rfl
  rw [streamed]
  exact List.cons_ne_nil _ _ |>.symm

end Agreement

end Sico.LlmHubs
