import Mathlib.Data.List.Basic
import Sico.LlmHubs.Outputs

/-! # The Responses API

The adapter for providers with the Responses API: a finished response is read item by item,
a streamed one event by event. A refusal is announced by its deltas and once more, whole, when
it is done, and the stream gives an output for each.

Members that are missing and members that are null are both nothing, and so is the record of
the usage if it is empty.
-/

namespace Sico.LlmHubs

open Foundation

inductive ResponseContent where
  | outputText (text : String) (annotations : List Json)
  | refusal (text : String)
  | other

inductive ResponseItem where
  | message (contents : List ResponseContent)
  | functionCall (callID name arguments : String)
  | webSearchCall (id : String) (action : Option Json)
  | computerCall (callID : String) (action : Option Json) (actions : Option (List Json))
  | other

structure ResponsesUsage where
  inputTokens : Option ℤ := none
  outputTokens : Option ℤ := none
  totalTokens : Option ℤ := none

structure ResponsesData where
  output : List ResponseItem
  usage : Option ResponsesUsage
  status : Option String := none
  incompleteReason : Option String := none

def ResponsesUsage.usage (data : ResponsesUsage) : Usage :=
  let inputTokens := data.inputTokens.getD 0
  let outputTokens := data.outputTokens.getD 0
  { promptTokens := inputTokens
    completionTokens := outputTokens
    totalTokens := data.totalTokens.getD (inputTokens + outputTokens) }

section Completed

def ResponseContent.outputs : ResponseContent → List OutputItem
  | .outputText text annotations => [.text text annotations]
  | .refusal text => [.refusal text]
  | .other => []

/-- The action of a computer call, as the only one of its actions if it is alone. -/
def computerActions (action : Option Json) (actions : Option (List Json)) : Option (List Json) :=
  match action with
  | some action => some [action]
  | none => actions

def ResponseItem.outputs : ResponseItem → List OutputItem
  | .message contents => contents.flatMap ResponseContent.outputs
  | .functionCall callID name arguments => [.functionCall callID name arguments]
  | .webSearchCall id action => [.webSearchCall id action]
  | .computerCall callID action actions => [.computerCall callID (computerActions action actions)]
  | .other => []

def parseResponsesResponse (data : ResponsesData) : Response :=
  { outputs := data.output.flatMap ResponseItem.outputs
    usage := (data.usage.getD {}).usage }

end Completed

section Streamed

inductive Terminal
  | completed | incomplete | failed | cancelled
  deriving DecidableEq, Repr

inductive ResponsesEvent where
  | outputTextDelta (delta : String)
  | refusalDelta (delta : String)
  | refusalDone (refusal : String)
  | outputItemDone (item : ResponseItem)
  | terminal (kind : Terminal) (response : ResponsesData)
  | other

/-- The first annotations of a message that are not empty. -/
def extractResponseAnnotations (contents : List ResponseContent) : List Json :=
  (contents.findSome? fun
    | .outputText _ annotations => if annotations.isEmpty then none else some annotations
    | _ => none).getD []

def handleOutputItemDone : ResponseItem → Option StreamChunk
  | .computerCall callID action actions =>
      some { outputs := [.computerCall callID (computerActions action actions)] }
  | .functionCall callID name arguments =>
      some { outputs := [.functionCall callID name arguments] }
  | .webSearchCall id action => some { outputs := [.webSearchCall id action] }
  | .message contents =>
      let annotations := extractResponseAnnotations contents
      if annotations.isEmpty then none else some { outputs := [.text "" annotations] }
  | .other => none

def handleOutputTextDelta (delta : String) : Option StreamChunk :=
  if delta = "" then none else some { delta, outputs := [.text delta []] }

def handleRefusalDelta (delta : String) : Option StreamChunk :=
  if delta = "" then none else some { delta, outputs := [.refusal delta] }

def handleRefusalDone (refusal : String) : Option StreamChunk :=
  if refusal = "" then none else some { outputs := [.refusal refusal] }

/-- A text, or the next choice if it is missing or empty. -/
def orElseText (text : Option String) (next : String) : String :=
  if text.getD "" = "" then next else text.getD ""

def responsesFinishReasonFromEvent (kind : Terminal) (response : ResponsesData) : String :=
  match kind with
  | .cancelled => "cancelled"
  | .failed => "error"
  | _ =>
      if response.incompleteReason = some "max_output_tokens" then "length"
      else orElseText response.incompleteReason (orElseText response.status "incomplete")

def responsesUsageFromEvent (response : ResponsesData) : Option Usage :=
  response.usage.map ResponsesUsage.usage

def parseResponsesStreamEvent : ResponsesEvent → Option StreamChunk
  | .outputTextDelta delta => handleOutputTextDelta delta
  | .refusalDelta delta => handleRefusalDelta delta
  | .refusalDone refusal => handleRefusalDone refusal
  | .outputItemDone item => handleOutputItemDone item
  | .terminal .completed response =>
      some { finishReason := some "stop", usage := responsesUsageFromEvent response }
  | .terminal kind response =>
      some
        { finishReason := some (responsesFinishReasonFromEvent kind response)
          usage := responsesUsageFromEvent response }
  | .other => none

def eventOutputs (events : List ResponsesEvent) : List OutputItem :=
  (events.filterMap parseResponsesStreamEvent).flatMap StreamChunk.outputs

def eventUsages (events : List ResponsesEvent) : List Usage :=
  (events.filterMap parseResponsesStreamEvent).filterMap StreamChunk.usage

end Streamed

section Protocol

def ResponseContent.text? : ResponseContent → Option String
  | .outputText text _ => some text
  | _ => none

def ResponseContent.refusal? : ResponseContent → Option String
  | .refusal text => some text
  | _ => none

def ResponseItem.contents : ResponseItem → List ResponseContent
  | .message contents => contents
  | _ => []

def ResponsesData.texts (response : ResponsesData) : List String :=
  (response.output.flatMap ResponseItem.contents).filterMap ResponseContent.text?

def ResponsesData.refusals (response : ResponsesData) : List String :=
  (response.output.flatMap ResponseItem.contents).filterMap ResponseContent.refusal?

namespace ResponsesEvent

def textDelta? : ResponsesEvent → Option String
  | .outputTextDelta delta => some delta
  | _ => none

def refusalDelta? : ResponsesEvent → Option String
  | .refusalDelta delta => some delta
  | _ => none

def refusalDone? : ResponsesEvent → Option String
  | .refusalDone refusal => some refusal
  | _ => none

def itemDone? : ResponsesEvent → Option ResponseItem
  | .outputItemDone item => some item
  | _ => none

def isTerminal : ResponsesEvent → Bool
  | .terminal _ _ => true
  | _ => false

end ResponsesEvent

/-- The events that announce a response: deltas that make up its texts and its refusals, each
refusal once more when it is done, each item when it is done, and one terminal event. -/
structure Announces (response : ResponsesData) (events : List ResponsesEvent) : Prop where
  texts : String.join (events.filterMap ResponsesEvent.textDelta?) = String.join response.texts
  refusals :
    String.join (events.filterMap ResponsesEvent.refusalDelta?) = String.join response.refusals
  refusalsDone : events.filterMap ResponsesEvent.refusalDone? = response.refusals
  itemsDone : events.filterMap ResponsesEvent.itemDone? = response.output
  terminal : ∃ body kind, events = body ++ [ResponsesEvent.terminal kind response] ∧
    ∀ event ∈ body, event.isTerminal = false

end Protocol

section Texts

theorem eventOutputs_cons (event : ResponsesEvent) (rest : List ResponsesEvent) :
    eventOutputs (event :: rest) =
      ((parseResponsesStreamEvent event).map StreamChunk.outputs).getD [] ++ eventOutputs rest := by
  unfold eventOutputs
  cases parsed : parseResponsesStreamEvent event <;> simp [parsed]

theorem join_filterMap_cons {Item : Type} (field : Item → Option String) (item : Item)
    (rest : List Item) :
    String.join ((item :: rest).filterMap field) =
      (field item).getD "" ++ String.join (rest.filterMap field) := by
  cases given : field item <;> simp [given]

theorem textsOf_contents (contents : List ResponseContent) :
    textsOf (contents.flatMap ResponseContent.outputs) =
      String.join (contents.filterMap ResponseContent.text?) := by
  induction contents with
  | nil => rfl
  | cons content rest ih =>
      rw [List.flatMap_cons, textsOf_append, ih, join_filterMap_cons]
      cases content <;>
        simp [ResponseContent.outputs, ResponseContent.text?, textsOf, OutputItem.textOf]

theorem refusalsOf_contents (contents : List ResponseContent) :
    refusalsOf (contents.flatMap ResponseContent.outputs) =
      String.join (contents.filterMap ResponseContent.refusal?) := by
  induction contents with
  | nil => rfl
  | cons content rest ih =>
      rw [List.flatMap_cons, refusalsOf_append, ih, join_filterMap_cons]
      cases content <;>
        simp [ResponseContent.outputs, ResponseContent.refusal?, refusalsOf, OutputItem.refusalOf]

theorem texts_item (item : ResponseItem) :
    textsOf item.outputs = String.join (item.contents.filterMap ResponseContent.text?) ∧
      refusalsOf item.outputs =
        String.join (item.contents.filterMap ResponseContent.refusal?) := by
  cases item with
  | message contents => exact ⟨textsOf_contents contents, refusalsOf_contents contents⟩
  | functionCall callID name arguments => exact ⟨rfl, rfl⟩
  | webSearchCall id action => exact ⟨rfl, rfl⟩
  | computerCall callID action actions => exact ⟨rfl, rfl⟩
  | other => exact ⟨rfl, rfl⟩

theorem textsOf_response (response : ResponsesData) :
    textsOf (parseResponsesResponse response).outputs = String.join response.texts := by
  unfold parseResponsesResponse ResponsesData.texts
  induction response.output with
  | nil => rfl
  | cons item rest ih =>
      rw [List.flatMap_cons, textsOf_append, (texts_item item).1, ih]
      simp

theorem refusalsOf_response (response : ResponsesData) :
    refusalsOf (parseResponsesResponse response).outputs = String.join response.refusals := by
  unfold parseResponsesResponse ResponsesData.refusals
  induction response.output with
  | nil => rfl
  | cons item rest ih =>
      rw [List.flatMap_cons, refusalsOf_append, (texts_item item).2, ih]
      simp

theorem texts_itemDone (item : ResponseItem) :
    textsOf (((handleOutputItemDone item).map StreamChunk.outputs).getD []) = "" ∧
      refusalsOf (((handleOutputItemDone item).map StreamChunk.outputs).getD []) = "" := by
  cases item with
  | message contents =>
      unfold handleOutputItemDone
      dsimp only
      split <;> exact ⟨rfl, rfl⟩
  | functionCall callID name arguments => exact ⟨rfl, rfl⟩
  | webSearchCall id action => exact ⟨rfl, rfl⟩
  | computerCall callID action actions => exact ⟨rfl, rfl⟩
  | other => exact ⟨rfl, rfl⟩

theorem textsOf_event (event : ResponsesEvent) :
    textsOf (((parseResponsesStreamEvent event).map StreamChunk.outputs).getD []) =
      event.textDelta?.getD "" := by
  cases event with
  | outputTextDelta delta =>
      by_cases empty : delta = "" <;>
        simp [parseResponsesStreamEvent, handleOutputTextDelta, empty, textsOf, OutputItem.textOf,
          ResponsesEvent.textDelta?]
  | refusalDelta delta =>
      by_cases empty : delta = "" <;>
        simp [parseResponsesStreamEvent, handleRefusalDelta, empty, textsOf, OutputItem.textOf,
          ResponsesEvent.textDelta?]
  | refusalDone refusal =>
      by_cases empty : refusal = "" <;>
        simp [parseResponsesStreamEvent, handleRefusalDone, empty, textsOf, OutputItem.textOf,
          ResponsesEvent.textDelta?]
  | outputItemDone item => exact (texts_itemDone item).1
  | terminal kind response => cases kind <;> rfl
  | other => rfl

theorem refusalsOf_event (event : ResponsesEvent) :
    refusalsOf (((parseResponsesStreamEvent event).map StreamChunk.outputs).getD []) =
      event.refusalDelta?.getD "" ++ event.refusalDone?.getD "" := by
  cases event with
  | outputTextDelta delta =>
      by_cases empty : delta = "" <;>
        simp [parseResponsesStreamEvent, handleOutputTextDelta, empty, refusalsOf,
          OutputItem.refusalOf, ResponsesEvent.refusalDelta?, ResponsesEvent.refusalDone?]
  | refusalDelta delta =>
      by_cases empty : delta = "" <;>
        simp [parseResponsesStreamEvent, handleRefusalDelta, empty, refusalsOf,
          OutputItem.refusalOf, ResponsesEvent.refusalDelta?, ResponsesEvent.refusalDone?]
  | refusalDone refusal =>
      by_cases empty : refusal = "" <;>
        simp [parseResponsesStreamEvent, handleRefusalDone, empty, refusalsOf,
          OutputItem.refusalOf, ResponsesEvent.refusalDelta?, ResponsesEvent.refusalDone?]
  | outputItemDone item => exact (texts_itemDone item).2
  | terminal kind response => cases kind <;> rfl
  | other => rfl

theorem textsOf_events (events : List ResponsesEvent) :
    textsOf (eventOutputs events) = String.join (events.filterMap ResponsesEvent.textDelta?) := by
  induction events with
  | nil => rfl
  | cons event rest ih =>
      rw [eventOutputs_cons, textsOf_append, textsOf_event, ih, join_filterMap_cons]

theorem length_refusalsOf_events (events : List ResponsesEvent) :
    (refusalsOf (eventOutputs events)).length =
      (String.join (events.filterMap ResponsesEvent.refusalDelta?)).length +
        (String.join (events.filterMap ResponsesEvent.refusalDone?)).length := by
  induction events with
  | nil => rfl
  | cons event rest ih =>
      rw [eventOutputs_cons, refusalsOf_append, refusalsOf_event, join_filterMap_cons,
        join_filterMap_cons]
      simp only [String.length_append, ih]
      omega

end Texts

section Calls

theorem functionCalls_events (events : List ResponsesEvent) :
    (eventOutputs events).filter OutputItem.isFunctionCall =
      ((events.filterMap ResponsesEvent.itemDone?).flatMap ResponseItem.outputs).filter
        OutputItem.isFunctionCall := by
  have noCalls : ∀ contents : List ResponseContent,
      (contents.flatMap ResponseContent.outputs).filter OutputItem.isFunctionCall = [] := by
    intro contents
    rw [List.filter_eq_nil_iff]
    intro output member
    obtain ⟨content, -, inside⟩ := List.mem_flatMap.mp member
    cases content <;> simp_all [ResponseContent.outputs, OutputItem.isFunctionCall]
  induction events with
  | nil => rfl
  | cons event rest ih =>
      rw [eventOutputs_cons, List.filter_append, ih]
      cases event with
      | outputTextDelta delta =>
          by_cases empty : delta = "" <;>
            simp [parseResponsesStreamEvent, handleOutputTextDelta, empty,
              OutputItem.isFunctionCall, ResponsesEvent.itemDone?, List.filterMap_cons]
      | refusalDelta delta =>
          by_cases empty : delta = "" <;>
            simp [parseResponsesStreamEvent, handleRefusalDelta, empty,
              OutputItem.isFunctionCall, ResponsesEvent.itemDone?, List.filterMap_cons]
      | refusalDone refusal =>
          by_cases empty : refusal = "" <;>
            simp [parseResponsesStreamEvent, handleRefusalDone, empty,
              OutputItem.isFunctionCall, ResponsesEvent.itemDone?, List.filterMap_cons]
      | outputItemDone item =>
          rw [List.filterMap_cons]
          simp only [ResponsesEvent.itemDone?, List.flatMap_cons, List.filter_append,
            List.append_cancel_right_eq, parseResponsesStreamEvent]
          cases item with
          | message contents =>
              rw [ResponseItem.outputs, noCalls, handleOutputItemDone]
              split <;> rfl
          | functionCall callID name arguments => rfl
          | webSearchCall id action => rfl
          | computerCall callID action actions => rfl
          | other => rfl
      | terminal kind response =>
          cases kind <;>
            simp [parseResponsesStreamEvent, ResponsesEvent.itemDone?, List.filterMap_cons]
      | other => simp [parseResponsesStreamEvent, ResponsesEvent.itemDone?, List.filterMap_cons]

theorem usage_of_open {event : ResponsesEvent} (open_ : event.isTerminal = false) :
    (parseResponsesStreamEvent event).bind StreamChunk.usage = none := by
  cases event with
  | outputTextDelta delta =>
      rw [parseResponsesStreamEvent, handleOutputTextDelta]
      split <;> rfl
  | refusalDelta delta =>
      rw [parseResponsesStreamEvent, handleRefusalDelta]
      split <;> rfl
  | refusalDone refusal =>
      rw [parseResponsesStreamEvent, handleRefusalDone]
      split <;> rfl
  | outputItemDone item =>
      cases item with
      | message contents =>
          rw [parseResponsesStreamEvent, handleOutputItemDone]
          split <;> rfl
      | functionCall callID name arguments => rfl
      | webSearchCall id action => rfl
      | computerCall callID action actions => rfl
      | other => rfl
  | terminal kind response => cases open_
  | other => rfl

theorem eventUsages_eq {body : List ResponsesEvent}
    (streaming : ∀ event ∈ body, event.isTerminal = false) (kind : Terminal)
    (response : ResponsesData) :
    eventUsages (body ++ [ResponsesEvent.terminal kind response]) =
      (response.usage.map ResponsesUsage.usage).toList := by
  have silent : body.filterMap (fun event =>
      (parseResponsesStreamEvent event).bind StreamChunk.usage) = [] :=
    List.filterMap_eq_nil_iff.mpr fun event member => usage_of_open (streaming event member)
  have last : (parseResponsesStreamEvent (.terminal kind response)).bind StreamChunk.usage =
      response.usage.map ResponsesUsage.usage := by
    cases kind <;> rfl
  unfold eventUsages
  rw [List.filterMap_filterMap, List.filterMap_append, silent, List.nil_append, List.filterMap_cons,
    last]
  cases response.usage <;> rfl

end Calls

section Agreement

variable {response : ResponsesData} {events : List ResponsesEvent}

/-- The stream tells what the response tells: the same text, the same refusals, the same
function calls and the same usage. -/
structure Agrees (response : ResponsesData) (events : List ResponsesEvent) : Prop where
  texts : textsOf (eventOutputs events) = textsOf (parseResponsesResponse response).outputs
  refusals :
    refusalsOf (eventOutputs events) = refusalsOf (parseResponsesResponse response).outputs
  functionCalls : (eventOutputs events).filter OutputItem.isFunctionCall =
    (parseResponsesResponse response).outputs.filter OutputItem.isFunctionCall
  usage : eventUsages events = [(parseResponsesResponse response).usage]

theorem join_eq_empty {texts : List String} :
    String.join texts = "" ↔ ∀ text ∈ texts, text = "" := by
  induction texts with
  | nil => simp
  | cons text rest ih => simp [ih]

theorem Announces.texts_eq (announces : Announces response events) :
    textsOf (eventOutputs events) = textsOf (parseResponsesResponse response).outputs := by
  rw [textsOf_events, announces.texts, textsOf_response]

theorem Announces.functionCalls_eq (announces : Announces response events) :
    (eventOutputs events).filter OutputItem.isFunctionCall =
      (parseResponsesResponse response).outputs.filter OutputItem.isFunctionCall := by
  rw [functionCalls_events, announces.itemsDone]
  rfl

theorem Announces.refusals_eq (announces : Announces response events) :
    refusalsOf (eventOutputs events) = refusalsOf (parseResponsesResponse response).outputs ↔
      ∀ refusal ∈ response.refusals, refusal = "" := by
  have twice := length_refusalsOf_events events
  rw [announces.refusals, announces.refusalsDone] at twice
  rw [refusalsOf_response, ← join_eq_empty]
  constructor
  · intro same
    rw [same] at twice
    exact String.length_eq_zero_iff.mp (by omega)
  · intro empty
    rw [empty] at twice ⊢
    exact String.length_eq_zero_iff.mp twice

theorem Announces.usage_eq (announces : Announces response events) :
    eventUsages events = [(parseResponsesResponse response).usage] ↔ response.usage.isSome := by
  obtain ⟨body, kind, rfl, streaming⟩ := announces.terminal
  rw [eventUsages_eq streaming]
  unfold parseResponsesResponse
  cases response.usage <;> simp

/-- **Streamed responses.** The events of a response decode to the same text and function calls
as the response; to the same refusals and usage as well if and only if no refusal has a text and
the response tells its usage. -/
theorem agrees_iff (announces : Announces response events) :
    Agrees response events ↔
      (∀ refusal ∈ response.refusals, refusal = "") ∧ response.usage.isSome := by
  rw [← announces.refusals_eq, ← announces.usage_eq]
  exact ⟨fun agrees => ⟨agrees.refusals, agrees.usage⟩, fun ⟨refusals, usage⟩ =>
    { texts := announces.texts_eq
      refusals
      functionCalls := announces.functionCalls_eq
      usage }⟩

def shortResponse (content : ResponseContent) : ResponsesData :=
  { output := [.message [content]], usage := some { inputTokens := some 3, outputTokens := some 2 } }

def greetingEvents : List ResponsesEvent :=
  [.other, .outputTextDelta "Hel", .outputTextDelta "lo", .other,
    .outputItemDone (.message [.outputText "Hello" []]),
    .terminal .completed (shortResponse (.outputText "Hello" []))]

def refusalEvents : List ResponsesEvent :=
  [.other, .refusalDelta "I cannot", .refusalDelta " help.", .refusalDone "I cannot help.", .other,
    .outputItemDone (.message [.refusal "I cannot help."]),
    .terminal .completed (shortResponse (.refusal "I cannot help."))]

theorem agrees_greeting : Agrees (shortResponse (.outputText "Hello" [])) greetingEvents := by
  have announces : Announces (shortResponse (.outputText "Hello" [])) greetingEvents :=
    { texts := by rfl
      refusals := by rfl
      refusalsDone := by rfl
      itemsDone := by rfl
      terminal := ⟨greetingEvents.dropLast, .completed, by rfl, by decide⟩ }
  exact (agrees_iff announces).mpr ⟨by simp [shortResponse, ResponsesData.refusals,
    ResponseItem.contents, ResponseContent.refusal?], rfl⟩

/-- The refusal is told twice in the stream. -/
theorem refusal_told_twice :
    Announces (shortResponse (.refusal "I cannot help.")) refusalEvents ∧
      refusalsOf (eventOutputs refusalEvents) = "I cannot help.I cannot help." ∧
      ¬ Agrees (shortResponse (.refusal "I cannot help.")) refusalEvents := by
  have twice : refusalsOf (eventOutputs refusalEvents) = "I cannot help.I cannot help." := by rfl
  refine ⟨?_, twice, fun agrees => ?_⟩
  · exact
      { texts := by rfl
        refusals := by rfl
        refusalsDone := by rfl
        itemsDone := by rfl
        terminal := ⟨refusalEvents.dropLast, .completed, by rfl, by decide⟩ }
  · have once : refusalsOf (parseResponsesResponse
        (shortResponse (.refusal "I cannot help."))).outputs = "I cannot help." := by rfl
    have same := agrees.refusals
    rw [twice, once] at same
    revert same
    decide

end Agreement

end Sico.LlmHubs
