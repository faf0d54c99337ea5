import Mathlib.Data.List.Basic
import Sico.Foundation.Numerals
import Sico.LlmHubs.Gemini

/-! # Identifiers made up for calls

A provider that gives its function calls no identifiers leaves it to the adapters to make
them up: from the name of the function and the position of its part, or from the index of
the streamed call. Either way the identifier tells exactly where the call stood in its own
answer, and nothing else.
-/

namespace Sico.LlmHubs

open Foundation

section Answers

/-- What a provider answers with in one turn: a finished response, or a stream. -/
inductive ProviderAnswer where
  | gemini (data : Gemini.GenerateContentResponse)
  | chatStream (chunks : List ChatChunk)

/-- `OpenAICompatAdapter.generate_stream`: the chunks of a stream. -/
def chatChunks : List ChatChunk → ToolCallState → List StreamChunk
  | [], _ => []
  | data :: rest, state =>
      let (chunk, state) := parseStreamChunk data state
      chunk.toList ++ chatChunks rest state

theorem outputs_chatChunks (chunks : List ChatChunk) (state : ToolCallState) :
    (chatChunks chunks state).flatMap StreamChunk.outputs = streamOutputs chunks state := by
  induction chunks generalizing state with
  | nil => rfl
  | cons data rest ih =>
      rw [chatChunks, streamOutputs, List.flatMap_append, ih]
      cases parsed : (parseStreamChunk data state).1 <;> simp [parsed]

namespace ProviderAnswer

variable (rendering : ArgumentsRendering)

def chunks : ProviderAnswer → List StreamChunk
  | .gemini data => (Gemini.parseResponse rendering data).chunks
  | .chatStream chunks => chatChunks chunks .empty

def outputs (answer : ProviderAnswer) : List OutputItem :=
  (answer.chunks rendering).flatMap StreamChunk.outputs

/-- The provider gives no identifier to any of its calls. -/
def Unidentified : ProviderAnswer → Prop
  | .gemini data => ∀ part ∈ data.candidates.head?.getD [], ∀ call,
      part.functionCall = some call → call.id.getD "" = ""
  | .chatStream chunks => ∀ data ∈ chunks, ∀ choice ∈ data.choices,
      ∀ fragment ∈ choice.delta.toolCalls, fragment.id.getD "" = ""

end ProviderAnswer

/-- The identifier of an output that is a function call. -/
def OutputItem.functionCallID : OutputItem → Option String
  | .functionCall callID _ _ => some callID
  | _ => none

/-- An answer with one function call, to which the provider gives no identifier. -/
structure UnidentifiedCall (rendering : ArgumentsRendering) where
  answer : ProviderAnswer
  unidentified : answer.Unidentified
  single : ((answer.outputs rendering).filterMap OutputItem.functionCallID).length = 1

end Answers

section Origins

/-- Where a call stands in its answer: the name of the function, and the position of its
part; or the index of the streamed call. A function without a name is called "function". -/
inductive CallOrigin where
  | part (name : String) (position : ℕ)
  | toolCall (index : ℤ)
  deriving DecidableEq, Repr

namespace CallOrigin

/-- The identifier that is made up. -/
def text : CallOrigin → String
  | .part name position => "gemini-" ++ name ++ "-" ++ toString position
  | .toolCall index => "tool_call_" ++ toString index

end CallOrigin

/-- Where the first call of a response stands, by the position of the first part. -/
def partOrigin (position : ℕ) : List Gemini.Part → CallOrigin
  | [] => .part "function" position
  | part :: rest =>
      match part.functionCall with
      | some call =>
          .part (if call.name.getD "" = "" then "function" else call.name.getD "") position
      | none => partOrigin (position + 1) rest

def ChatChunk.fragments (data : ChatChunk) : List ToolCallFragment :=
  data.choices.flatMap fun choice => choice.delta.toolCalls

/-- Where the call of an answer stands: in a stream, at the index of the first fragment. -/
def ProviderAnswer.origin : ProviderAnswer → CallOrigin
  | .gemini data => partOrigin 0 (data.candidates.head?.getD [])
  | .chatStream chunks =>
      .toolCall (((chunks.flatMap ChatChunk.fragments).head?.bind ToolCallFragment.index).getD 0)

theorem head?_partOutputs (rendering : ArgumentsRendering) (position : ℕ) (parts : List Gemini.Part)
    (unidentified : ∀ part ∈ parts, ∀ call, part.functionCall = some call → call.id.getD "" = "")
    (listed : (Gemini.partOutputs rendering position parts).filterMap OutputItem.functionCallID ≠ []) :
    ((Gemini.partOutputs rendering position parts).filterMap OutputItem.functionCallID).head? =
      some (partOrigin position parts).text := by
  induction parts generalizing position with
  | nil => exact absurd rfl listed
  | cons part rest ih =>
      rw [Gemini.partOutputs, List.filterMap_append] at listed ⊢
      rw [partOrigin]
      cases asked : part.functionCall with
      | some call =>
          have without := unidentified part List.mem_cons_self call asked
          simp [Gemini.Part.output, asked, Gemini.FunctionCall.output, OutputItem.functionCallID,
            without, CallOrigin.text, Gemini.synthesizeCallID]
      | none =>
          have silent : (part.output rendering position).toList.filterMap
              OutputItem.functionCallID = [] := by
            cases told : part.text <;>
              simp [Gemini.Part.output, asked, told, OutputItem.functionCallID]
          rw [silent, List.nil_append] at listed ⊢
          exact ih (position + 1) (fun other member => unidentified other (.tail _ member)) listed

def ChatChunk.finish (data : ChatChunk) : Option String :=
  (data.choices.map ChunkChoice.finishReason).foldl finishOf none

theorem parseStreamChunk_calls (data : ChatChunk) (state : ToolCallState) :
    (((parseStreamChunk data state).1.map StreamChunk.outputs).getD []).filterMap
        OutputItem.functionCallID =
      (if data.finish.isSome then
        (data.fragments.foldl absorbFragment state).entries.map fun entry => entry.2.callID
      else []) ∧
    (parseStreamChunk data state).2 =
      if data.finish.isSome then .empty else data.fragments.foldl absorbFragment state := by
  have texts (parts : List String) :
      (parts.map fun part => OutputItem.text part []).filterMap OutputItem.functionCallID = [] := by
    induction parts with
    | nil => rfl
    | cons part rest ih => exact ih
  have calls (entries : List (ℤ × PendingCall)) :
      (entries.map fun entry => entry.2.output).filterMap OutputItem.functionCallID =
        entries.map fun entry => entry.2.callID := by
    induction entries with
    | nil => rfl
    | cons entry rest ih => exact congrArg (entry.2.callID :: ·) ih
  have told : (data.choices.map ChunkChoice.finishReason).foldl finishOf none = data.finish := rfl
  have pieces : (data.choices.flatMap fun choice => choice.delta.toolCalls) = data.fragments := rfl
  simp only [parseStreamChunk, told, pieces]
  cases finished : data.finish with
  | some reason => simp [texts, calls]
  | none =>
      simp only [Option.isSome_none, Bool.false_eq_true, if_false, List.append_nil]
      split
      · exact ⟨rfl, rfl⟩
      · exact ⟨texts _, rfl⟩

/-- A call is held under the identifier made up from its index. -/
def Holding (index : ℤ) (state : ToolCallState) : Prop :=
  ∃ call, state.find? index = some call ∧ call.callID = (newCall index).callID

theorem Holding.absorb {index : ℤ} {state : ToolCallState} (holding : Holding index state)
    {fragment : ToolCallFragment} (unidentified : fragment.id.getD "" = "") :
    Holding index (absorbFragment state fragment) := by
  obtain ⟨call, found, made⟩ := holding
  unfold Holding absorbFragment
  rw [SortedMap.find?_insert]
  by_cases own : index = fragment.index.getD state.entries.length
  · rw [if_pos own, ← own, found]
    refine ⟨_, rfl, ?_⟩
    simpa [PendingCall.absorb, orKeep, unidentified] using made
  · rw [if_neg own]
    exact ⟨call, found, made⟩

theorem Holding.foldl {index : ℤ} {fragments : List ToolCallFragment} {state : ToolCallState}
    (holding : Holding index state)
    (unidentified : ∀ fragment ∈ fragments, fragment.id.getD "" = "") :
    Holding index (fragments.foldl absorbFragment state) := by
  induction fragments generalizing state with
  | nil => exact holding
  | cons fragment rest ih =>
      exact ih (holding.absorb (unidentified fragment List.mem_cons_self))
        fun other member => unidentified other (List.mem_cons_of_mem _ member)

theorem holding_first {fragment : ToolCallFragment} (unidentified : fragment.id.getD "" = "") :
    Holding (fragment.index.getD 0) (absorbFragment .empty fragment) := by
  unfold Holding absorbFragment
  rw [SortedMap.find?_insert]
  have first : (SortedMap.empty : ToolCallState).entries.length = 0 := rfl
  rw [first, Nat.cast_zero, if_pos rfl]
  refine ⟨_, rfl, ?_⟩
  have none : (SortedMap.empty : ToolCallState).find? (fragment.index.getD 0) = none := rfl
  rw [none]
  simp [PendingCall.absorb, orKeep, unidentified]

theorem Holding.mem {index : ℤ} {state : ToolCallState} (holding : Holding index state) :
    (newCall index).callID ∈ state.entries.map fun entry => entry.2.callID := by
  obtain ⟨call, found, made⟩ := holding
  rw [← made]
  exact List.mem_map_of_mem (SortedMap.find?_eq_some.mp found)

section Streams

variable {chunks : List ChatChunk}

/-- The identifiers of the calls that a stream lists. -/
def streamedIDs (chunks : List ChatChunk) (state : ToolCallState) : List String :=
  (streamOutputs chunks state).filterMap OutputItem.functionCallID

theorem streamedIDs_cons (data : ChatChunk) (rest : List ChatChunk) (state : ToolCallState) :
    streamedIDs (data :: rest) state =
      if data.finish.isSome then
        ((data.fragments.foldl absorbFragment state).entries.map fun entry => entry.2.callID) ++
          streamedIDs rest .empty
      else streamedIDs rest (data.fragments.foldl absorbFragment state) := by
  obtain ⟨listed, left⟩ := parseStreamChunk_calls data state
  rw [streamedIDs, streamOutputs, List.filterMap_append, listed, left]
  split
  · rfl
  · exact List.nil_append _

theorem Holding.listed {index : ℤ} {state : ToolCallState} (holding : Holding index state)
    (unidentified : ∀ fragment ∈ chunks.flatMap ChatChunk.fragments, fragment.id.getD "" = "")
    (listing : streamedIDs chunks state ≠ []) : (newCall index).callID ∈ streamedIDs chunks state := by
  induction chunks generalizing state with
  | nil => exact absurd rfl listing
  | cons data rest ih =>
      rw [List.flatMap_cons] at unidentified
      have held := holding.foldl fun fragment member =>
        unidentified fragment (List.mem_append_left _ member)
      rw [streamedIDs_cons] at listing ⊢
      by_cases finished : data.finish.isSome
      · rw [if_pos finished]
        exact List.mem_append_left _ held.mem
      · rw [if_neg finished] at listing ⊢
        exact ih held (fun fragment member =>
          unidentified fragment (List.mem_append_right _ member)) listing

theorem mem_streamedIDs
    (unidentified : ∀ fragment ∈ chunks.flatMap ChatChunk.fragments, fragment.id.getD "" = "")
    (listing : streamedIDs chunks .empty ≠ []) :
    (newCall (((chunks.flatMap ChatChunk.fragments).head?.bind ToolCallFragment.index).getD 0)).callID ∈
      streamedIDs chunks .empty := by
  induction chunks with
  | nil => exact absurd rfl listing
  | cons data rest ih =>
      rw [List.flatMap_cons] at unidentified ⊢
      rw [streamedIDs_cons] at listing ⊢
      cases first : data.fragments with
      | nil =>
          rw [first] at listing unidentified
          have later := fun fragment member => unidentified fragment member
          simp only [List.nil_append] at later ⊢
          have nothing : (SortedMap.empty : ToolCallState).entries.map
            (fun entry => entry.2.callID) = [] := rfl
          simp only [List.foldl_nil, nothing, List.nil_append, ite_self] at listing ⊢
          exact ih later listing
      | cons fragment others =>
          rw [first] at listing unidentified
          have held : Holding (fragment.index.getD 0)
              ((fragment :: others).foldl absorbFragment .empty) := by
            refine (holding_first (unidentified fragment ?_)).foldl fun other member =>
              unidentified other ?_
            · exact List.mem_cons_self
            · exact List.mem_append_left _ (List.mem_cons_of_mem _ member)
          simp only [List.cons_append, List.head?_cons, Option.bind_some]
          by_cases finished : data.finish.isSome
          · rw [if_pos finished]
            exact List.mem_append_left _ held.mem
          · rw [if_neg finished] at listing ⊢
            exact held.listed (fun other member =>
              unidentified other (List.mem_append_right _ member)) listing

end Streams

theorem UnidentifiedCall.functionCallIDs {rendering : ArgumentsRendering}
    (call : UnidentifiedCall rendering) :
    (call.answer.outputs rendering).filterMap OutputItem.functionCallID = [call.answer.origin.text] := by
  obtain ⟨answer, unidentified, single⟩ := call
  obtain ⟨id, listed⟩ := List.length_eq_one_iff.mp single
  dsimp only at listed ⊢
  rw [listed]
  cases answer with
  | gemini data =>
      have outputs : (ProviderAnswer.gemini data).outputs rendering =
          Gemini.partOutputs rendering 0 (data.candidates.head?.getD []) := List.append_nil _
      rw [outputs] at listed
      have head := head?_partOutputs rendering 0 _ unidentified (by rw [listed]; exact List.cons_ne_nil _ _)
      rw [listed] at head
      exact congrArg (· :: []) (Option.some.inj head)
  | chatStream chunks =>
      have outputs : (ProviderAnswer.chatStream chunks).outputs rendering =
          streamOutputs chunks .empty := outputs_chatChunks chunks .empty
      rw [outputs] at listed
      have without : ∀ fragment ∈ chunks.flatMap ChatChunk.fragments, fragment.id.getD "" = "" := by
        intro fragment member
        obtain ⟨data, inside, member⟩ := List.mem_flatMap.mp member
        obtain ⟨choice, chosen, member⟩ := List.mem_flatMap.mp member
        exact unidentified data inside choice chosen fragment member
      have ids : streamedIDs chunks .empty = [id] := listed
      have member := mem_streamedIDs without (by rw [ids]; exact List.cons_ne_nil _ _)
      rw [ids] at member
      exact congrArg (· :: []) (List.mem_singleton.mp member).symm

theorem CallOrigin.text_injective {first second : CallOrigin} (same : first.text = second.text) :
    first = second := by
  have texts := congrArg String.toList same
  cases first with
  | part name position =>
      cases second with
      | part other place =>
          simp only [text, String.toList_append, List.append_assoc] at texts
          have rest := List.append_cancel_left texts
          -- The numeral is what stands behind the last hyphen.
          have turned := congrArg List.reverse rest
          simp only [List.reverse_append, List.append_assoc] at turned
          obtain ⟨numerals, names⟩ := append_cons_inj
            (fun sign => minus_notMem_toString position (List.mem_reverse.mp sign))
            (fun sign => minus_notMem_toString place (List.mem_reverse.mp sign)) turned
          have positions := toString_nat_injective
            (String.toList_inj.mp (List.reverse_injective numerals))
          rw [String.toList_inj.mp (List.reverse_injective names), positions]
      | toolCall index =>
          simp [text] at texts
  | toolCall index =>
      cases second with
      | part other place =>
          simp [text] at texts
      | toolCall other =>
          simp only [text, String.toList_append] at texts
          exact congrArg _ (toString_int_injective (String.toList_inj.mp (List.append_cancel_left texts)))

end Origins

end Sico.LlmHubs
