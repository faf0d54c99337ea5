import Mathlib.Data.List.Basic
import Sico.Chat.Connection

/-! # The history of a turn

The agent of a chat turn reads the events of its loop and writes three records of what it says.
Every piece of text goes to the queue of the turn, from which the presenter publishes it; the
text since the last tool call goes to the queue as one internal response when the next tool call
comes, and is what the presenter publishes itself when the queue ends; and the conversation of
the turn is written to a file at every tool call and at the end of the loop.

Publishing and writing succeed. The queue is read in order, so that it may be read at its end.
-/

namespace Sico.Chat

/-- A response of the agent. -/
structure Response where
  content : ChatContent
  isFinal : Bool := false
  isInternal : Bool := false
  deriving DecidableEq

inductive UpdateContentType
  | text | functionCall | functionResult | other
  deriving DecidableEq

structure UpdateContent where
  type : UpdateContentType
  text : String

/-- An item of the queue of a turn. -/
inductive QueueItem
  | response (response : Response)
  | update (contents : List UpdateContent)
  | stop

/-- A message of the conversation that is written to the file of the turn. -/
inductive Entry
  | user
  | assistant (text : String)
  deriving DecidableEq

/-- What `_finish_plan` does: nothing without a plan that was updated. -/
inductive FinishPlan
  | unchanged
  | updated
  | raises (message : String)

inductive LoopOutcome
  | completed (plan : FinishPlan)
  | ended (summary : String)

/-- The events that the agent tells apart. -/
inductive LoopEvent
  | modelOutputText (text : String)
  | toolCallRequested
  | loopFinished (outcome : LoopOutcome)
  | other

/-- What the agent meets: an event, with the look at the cancellation behind it, a plan that a
tool updated, or an exception. -/
inductive Occurrence
  | event (event : LoopEvent) (cancelled : Bool)
  | planUpdated
  | raises (message : String)

section Producer

/-- The local state of `run_stream`, its queue, and the conversation that was last written. -/
structure Producer where
  conversation : List Entry := [.user]
  assistantSegment : String := ""
  queue : List QueueItem := []
  written : Option (List Entry) := none

namespace Producer

def put (producer : Producer) (item : QueueItem) : Producer := { producer with queue := producer.queue ++ [item] }

def writeConversation (producer : Producer) : Producer := { producer with written := some producer.conversation }

def errorResponse (message : String) : Response :=
  { content := { type := .error, content := message }, isInternal := true }

def planResponse : Response := { content := { type := .plan } }

def flushSegment (producer : Producer) : Producer :=
  if producer.assistantSegment = "" then producer
  else
    producer.put
      (.response { content := { type := .text, content := producer.assistantSegment }, isInternal := true })

/-- The text since the last tool call joins the conversation, if there is any. -/
def appendSegment (producer : Producer) : Producer :=
  if producer.assistantSegment = "" then producer
  else { producer with conversation := producer.conversation ++ [Entry.assistant producer.assistantSegment] }

/-- The body of the loop, with the message of an exception that it raises. -/
def handle (producer : Producer) : LoopEvent → Producer × Option String
  | .modelOutputText text =>
      (({ producer with assistantSegment := producer.assistantSegment ++ text }).put (.update [{ type := .text, text }]),
        none)
  | .toolCallRequested =>
      (({ producer.flushSegment.appendSegment with assistantSegment := "" }).writeConversation, none)
  | .loopFinished outcome =>
      let producer := producer.appendSegment.writeConversation
      match outcome with
      | .completed .unchanged => (producer, none)
      | .completed .updated => (producer.put (.response planResponse), none)
      | .completed (.raises message) => (producer, some message)
      | .ended summary => (producer.put (.response (errorResponse summary)), none)
  | .other => (producer, none)

def fail (producer : Producer) (message : String) : Producer :=
  producer.writeConversation.put (.response (errorResponse message))

/-- The loop over the events, with its handler. -/
def loop : List Occurrence → Producer → Producer
  | [], producer => producer
  | .planUpdated :: rest, producer => loop rest (producer.put (.response planResponse))
  | .raises message :: _, producer => producer.fail message
  | .event event cancelled :: rest, producer =>
      if cancelled then producer
      else
        match producer.handle event with
        | (next, some message) => next.fail message
        | (next, none) => loop rest next

end Producer

def runStream (occurrences : List Occurrence) : Producer := (Producer.loop occurrences {}).put .stop

end Producer

section Presenter

structure Presenter where
  accumulatedText : String := ""
  published : List Response := []

namespace Presenter

def publish (presenter : Presenter) (response : Response) : Presenter :=
  { presenter with published := presenter.published ++ [response] }

def textContent (text : String) : ChatContent := { type := .text, content := text }

def extractParts : List UpdateContent → String → List ChatContent × String
  | [], accumulatedText => ([], accumulatedText)
  | content :: rest, accumulatedText =>
      if content.type = .text ∧ content.text ≠ "" then
        let (parts, later) := extractParts rest (accumulatedText ++ content.text)
        (textContent content.text :: parts, later)
      else extractParts rest accumulatedText

/-- The body of the loop of `drain`, for an item that is not the last. -/
def present (presenter : Presenter) : QueueItem → Presenter
  | .response response =>
      let presenter := presenter.publish response
      if response.isInternal ∧ response.content.type = .text then { presenter with accumulatedText := "" }
      else presenter
  | .update contents =>
      let (parts, accumulatedText) := extractParts contents presenter.accumulatedText
      { accumulatedText, published := presenter.published ++ parts.map fun content => { content } }
  | .stop => presenter

/-- What is published behind the queue. -/
def finish (presenter : Presenter) : List Response :=
  presenter.published ++
    (if presenter.accumulatedText = "" then []
      else [{ content := textContent presenter.accumulatedText, isInternal := true }]) ++
    [{ content := { type := .end_ }, isFinal := true }]

/-- `drain`, which waits where the queue does not end. -/
def drain : List QueueItem → Presenter → Option (List Response)
  | [], _ => none
  | .stop :: _, presenter => some presenter.finish
  | item :: rest, presenter => drain rest (presenter.present item)

end Presenter

end Presenter

section Records

def visibleText (published : List Response) : String :=
  String.join ((published.filter fun response => ¬ response.isInternal ∧ response.content.type = .text).map
    fun response => response.content.content)

/-- The internal responses with text, which are stored. -/
def internalText (published : List Response) : String :=
  String.join ((published.filter fun response => response.isInternal ∧ response.content.type = .text).map
    fun response => response.content.content)

def Entry.assistantText : Entry → String
  | .user => ""
  | .assistant text => text

def conversationText (conversation : List Entry) : String := String.join (conversation.map Entry.assistantText)

/-- The texts of the agent in the file, of which there are none where nothing was written. -/
def writtenText (written : Option (List Entry)) : String := (written.map conversationText).getD ""

def EndsOnce (published : List Response) : Prop :=
  ∃ (front : List Response) (last : Response), published = front ++ [last] ∧ last.content.type = .end_ ∧
    ∀ response ∈ front, response.content.type ≠ .end_

/-- What is asked of a turn: the three records agree, and one response ends it. -/
structure Recorded (written : Option (List Entry)) (published : List Response) : Prop where
  stored : visibleText published = internalText published
  file : visibleText published = writtenText written
  ending : EndsOnce published

end Records

section Reading

variable {published : List Response} {response : Response}

theorem visibleText_append (published others : List Response) :
    visibleText (published ++ others) = visibleText published ++ visibleText others := by
  unfold visibleText
  rw [List.filter_append, List.map_append, String.join_append]

theorem internalText_append (published others : List Response) :
    internalText (published ++ others) = internalText published ++ internalText others := by
  unfold internalText
  rw [List.filter_append, List.map_append, String.join_append]

theorem conversationText_append (conversation others : List Entry) :
    conversationText (conversation ++ others) = conversationText conversation ++ conversationText others := by
  unfold conversationText
  rw [List.map_append, String.join_append]

theorem texts_of_ne (other : response.content.type ≠ .text) :
    visibleText [response] = "" ∧ internalText [response] = "" := by
  unfold visibleText internalText
  simp [other]

theorem texts_internal (text : String) :
    visibleText [{ content := { type := .text, content := text }, isInternal := true }] = "" ∧
      internalText [{ content := { type := .text, content := text }, isInternal := true }] = text := by
  unfold visibleText internalText
  simp

theorem texts_visible (text : String) :
    visibleText [{ content := { type := .text, content := text } }] = text ∧
      internalText [{ content := { type := .text, content := text } }] = "" := by
  unfold visibleText internalText
  simp

end Reading

section Queue

def presented (queue : List QueueItem) : Presenter := queue.foldl Presenter.present {}

theorem drain_stop (queue : List QueueItem) (presenter : Presenter)
    (goesOn : ∀ item ∈ queue, item ≠ .stop) :
    Presenter.drain (queue ++ [QueueItem.stop]) presenter = some (queue.foldl Presenter.present presenter).finish := by
  induction queue generalizing presenter with
  | nil => rfl
  | cons item rest ih =>
      have later := ih (presenter.present item) fun other listed => goesOn other (List.mem_cons_of_mem _ listed)
      cases item with
      | stop => exact absurd rfl (goesOn .stop List.mem_cons_self)
      | response response => exact later
      | update contents => exact later

/-- The presenter accumulates the text since the last tool call, and has stored what it showed
but for this text. -/
structure Tracks (queue : List QueueItem) (segment : String) : Prop where
  goesOn : ∀ item ∈ queue, item ≠ .stop
  accumulated : (presented queue).accumulatedText = segment
  stored : visibleText (presented queue).published = internalText (presented queue).published ++ segment
  ongoing : ∀ response ∈ (presented queue).published, response.content.type ≠ .end_

variable {queue : List QueueItem} {segment : String}

theorem presented_append (queue : List QueueItem) (item : QueueItem) :
    presented (queue ++ [item]) = (presented queue).present item := by
  unfold presented
  rw [List.foldl_append]
  rfl

theorem tracks_nil : Tracks [] "" where
  goesOn item listed := by cases listed
  accumulated := rfl
  stored := rfl
  ongoing response listed := by cases listed

theorem goesOn_append (goesOn : ∀ item ∈ queue, item ≠ .stop) {item : QueueItem} (other : item ≠ .stop) :
    ∀ listed ∈ queue ++ [item], listed ≠ .stop := by
  intro listed there
  rcases List.mem_append.mp there with earlier | new
  · exact goesOn listed earlier
  · rwa [List.mem_singleton.mp new]

theorem Tracks.response (tracks : Tracks queue segment) {response : Response}
    (other : response.content.type ≠ .text) (more : response.content.type ≠ .end_) :
    Tracks (queue ++ [QueueItem.response response]) segment ∧
      visibleText (presented (queue ++ [QueueItem.response response])).published = visibleText (presented queue).published := by
  have same : presented (queue ++ [QueueItem.response response]) = (presented queue).publish response := by
    rw [presented_append]
    exact if_neg fun both => other both.2
  have shown : visibleText ((presented queue).publish response).published = visibleText (presented queue).published := by
    unfold Presenter.publish
    rw [visibleText_append, (texts_of_ne other).1, String.append_empty]
  rw [same]
  refine ⟨⟨goesOn_append tracks.goesOn (by simp), ?_, ?_, ?_⟩, shown⟩
  · rw [same]
    exact tracks.accumulated
  · rw [same, shown, tracks.stored]
    unfold Presenter.publish
    rw [internalText_append, (texts_of_ne other).2, String.append_empty]
  · rw [same]
    intro listed there
    rcases List.mem_append.mp there with earlier | new
    · exact tracks.ongoing listed earlier
    · rwa [List.mem_singleton.mp new]

theorem Tracks.text (tracks : Tracks queue segment) (text : String) :
    Tracks (queue ++ [QueueItem.update [{ type := .text, text }]]) (segment ++ text) ∧
      visibleText (presented (queue ++ [QueueItem.update [{ type := .text, text }]])).published =
        visibleText (presented queue).published ++ text := by
  have accumulated := tracks.accumulated
  by_cases empty : text = ""
  · have same : presented (queue ++ [QueueItem.update [{ type := .text, text }]]) = presented queue := by
      rw [presented_append]
      simp [Presenter.present, Presenter.extractParts, empty]
    rw [same, empty, String.append_empty, String.append_empty]
    refine ⟨⟨goesOn_append tracks.goesOn (by simp), ?_, ?_, ?_⟩, rfl⟩
    all_goals rw [← empty, same]
    · exact accumulated
    · exact tracks.stored
    · exact tracks.ongoing
  · have same : presented (queue ++ [QueueItem.update [{ type := .text, text }]]) =
        { accumulatedText := segment ++ text
          published := (presented queue).published ++ [{ content := { type := .text, content := text } }] } := by
      rw [presented_append, ← accumulated]
      simp [Presenter.present, Presenter.extractParts, Presenter.textContent, empty]
    have shown : visibleText (presented (queue ++ [QueueItem.update [{ type := .text, text }]])).published =
        visibleText (presented queue).published ++ text := by
      rw [same, visibleText_append, (texts_visible text).1]
    refine ⟨⟨goesOn_append tracks.goesOn (by simp), ?_, ?_, ?_⟩, shown⟩
    · rw [same]
    · rw [shown, same, tracks.stored, internalText_append, (texts_visible text).2, String.append_empty,
        String.append_assoc]
    · rw [same]
      intro listed there
      rcases List.mem_append.mp there with earlier | new
      · exact tracks.ongoing listed earlier
      · rw [List.mem_singleton.mp new]
        simp

theorem Tracks.flush (tracks : Tracks queue segment) :
    Tracks (queue ++ [QueueItem.response { content := { type := .text, content := segment }, isInternal := true }]) "" ∧
      visibleText
          (presented
            (queue ++ [QueueItem.response { content := { type := .text, content := segment }, isInternal := true }])).published =
        visibleText (presented queue).published := by
  have same : presented
      (queue ++ [QueueItem.response { content := { type := .text, content := segment }, isInternal := true }]) =
        { accumulatedText := ""
          published := (presented queue).published ++
            [{ content := { type := .text, content := segment }, isInternal := true }] } := by
    rw [presented_append]
    simp [Presenter.present, Presenter.publish]
  rw [same, visibleText_append, (texts_internal segment).1, String.append_empty]
  refine ⟨⟨goesOn_append tracks.goesOn (by simp), ?_, ?_, ?_⟩, rfl⟩
  · rw [same]
  · rw [same, visibleText_append, internalText_append, (texts_internal segment).1, (texts_internal segment).2,
      String.append_empty, String.append_empty]
    exact tracks.stored
  · rw [same]
    intro listed there
    rcases List.mem_append.mp there with earlier | new
    · exact tracks.ongoing listed earlier
    · rw [List.mem_singleton.mp new]
      simp

end Queue

section Loop

namespace LoopEvent

def isFinished : LoopEvent → Bool
  | .loopFinished _ => true
  | _ => false

/-- The message of an exception that handling the event raises. -/
def raised : LoopEvent → Option String
  | .loopFinished (.completed (.raises message)) => some message
  | _ => none

/-- The text since the last tool call, behind the event. -/
def pending (segment : String) : LoopEvent → String
  | .modelOutputText text => segment ++ text
  | .toolCallRequested => ""
  | _ => segment

end LoopEvent

/-- The events that the agent handles: those before the cancellation or the exception. -/
def handled : List Occurrence → List LoopEvent
  | [] => []
  | .planUpdated :: rest => handled rest
  | .raises _ :: _ => []
  | .event event cancelled :: rest =>
      if cancelled then [] else event :: if event.raised.isSome then [] else handled rest

/-- The text that no tool call has come behind. -/
def pendingText (events : List LoopEvent) : String := events.foldl LoopEvent.pending ""

/-- The end of the loop is the last event, as the engine has it. -/
def FinishedLast (events : List LoopEvent) : Prop := ∀ event ∈ events.dropLast, event.isFinished = false

def EndHandled (events : List LoopEvent) : Prop := ∃ event ∈ events.getLast?, event.isFinished

/-- The agent handles the end of the loop, or no text is pending when it stops. -/
def Settled (events : List LoopEvent) : Prop := EndHandled events ∨ pendingText events = ""

theorem not_endHandled_nil : ¬ EndHandled [] := by
  intro ended
  obtain ⟨event, listed, -⟩ := ended
  cases listed

theorem endHandled_cons {event : LoopEvent} {rest : List LoopEvent} (running : event.isFinished = false) :
    EndHandled (event :: rest) ↔ EndHandled rest := by
  cases rest with
  | nil =>
      refine iff_of_false (fun ended => ?_) not_endHandled_nil
      obtain ⟨last, listed, finished⟩ := ended
      have same : event = last := Option.some.inj listed
      rw [← same, running] at finished
      cases finished
  | cons second rest =>
      unfold EndHandled
      rw [List.getLast?_cons_cons]

theorem FinishedLast.of_cons {event : LoopEvent} {rest : List LoopEvent} (last : FinishedLast (event :: rest)) :
    FinishedLast rest ∧ (event.isFinished → rest = []) := by
  cases rest with
  | nil => exact ⟨by simp [FinishedLast], fun _ => rfl⟩
  | cons second rest =>
      unfold FinishedLast at last ⊢
      rw [List.dropLast_cons_cons] at last
      refine ⟨fun later listed => last later (List.mem_cons_of_mem _ listed), fun finished => ?_⟩
      rw [last event List.mem_cons_self] at finished
      cases finished

namespace Producer

variable {producer : Producer}

/-- The records of a producer agree: the presenter has shown and stored what it was given, and the
file has the conversation. -/
structure Consistent (producer : Producer) : Prop where
  tracks : Tracks producer.queue producer.assistantSegment
  file : writtenText producer.written = conversationText producer.conversation

/-- What was shown so far. -/
def shown (producer : Producer) : String := visibleText (presented producer.queue).published

theorem consistent_opening : Consistent {} where
  tracks := tracks_nil
  file := rfl

theorem Consistent.put (consistent : producer.Consistent) (response : Response)
    (other : response.content.type ≠ .text) (more : response.content.type ≠ .end_) :
    (producer.put (.response response)).Consistent ∧ (producer.put (.response response)).shown = producer.shown := by
  obtain ⟨tracks, same⟩ := consistent.tracks.response other more
  exact ⟨⟨tracks, consistent.file⟩, same⟩

theorem Consistent.write (consistent : producer.Consistent) : producer.writeConversation.Consistent :=
  ⟨consistent.tracks, rfl⟩

theorem Consistent.fail (consistent : producer.Consistent) (message : String) :
    (producer.fail message).Consistent ∧ (producer.fail message).shown = producer.shown :=
  consistent.write.put _ (by simp [errorResponse]) (by simp [errorResponse])

theorem conversationText_appendSegment (producer : Producer) :
    conversationText producer.appendSegment.conversation =
      conversationText producer.conversation ++ producer.assistantSegment := by
  unfold appendSegment
  split
  · next empty => rw [empty, String.append_empty]
  · rw [conversationText_append]
    simp [conversationText, Entry.assistantText]

theorem appendSegment_kept (producer : Producer) :
    producer.appendSegment.queue = producer.queue ∧
      producer.appendSegment.assistantSegment = producer.assistantSegment := by
  unfold appendSegment
  split
  · exact ⟨rfl, rfl⟩
  · exact ⟨rfl, rfl⟩

theorem Consistent.finishing (consistent : producer.Consistent) :
    producer.appendSegment.writeConversation.Consistent := by
  refine ⟨?_, rfl⟩
  change Tracks producer.appendSegment.queue producer.appendSegment.assistantSegment
  rw [producer.appendSegment_kept.1, producer.appendSegment_kept.2]
  exact consistent.tracks

theorem shown_finishing (producer : Producer) : producer.appendSegment.writeConversation.shown = producer.shown := by
  change visibleText (presented producer.appendSegment.queue).published = _
  rw [producer.appendSegment_kept.1]
  rfl

theorem tracks_flushSegment (consistent : producer.Consistent) :
    Tracks producer.flushSegment.queue "" ∧ producer.flushSegment.shown = producer.shown ∧
      producer.flushSegment.conversation = producer.conversation ∧
      producer.flushSegment.assistantSegment = producer.assistantSegment := by
  have tracks := consistent.tracks
  unfold flushSegment
  split
  · next empty =>
      rw [empty] at tracks
      exact ⟨tracks, rfl, rfl, rfl⟩
  · exact ⟨tracks.flush.1, tracks.flush.2, rfl, rfl⟩

theorem handle_toolCall (consistent : producer.Consistent) :
    (producer.handle .toolCallRequested).1.Consistent ∧
      (producer.handle .toolCallRequested).1.shown = producer.shown ∧
      conversationText (producer.handle .toolCallRequested).1.conversation =
        conversationText producer.conversation ++ producer.assistantSegment := by
  obtain ⟨tracks, shown, conversation, segment⟩ := tracks_flushSegment consistent
  have queue := producer.flushSegment.appendSegment_kept.1
  refine ⟨⟨?_, rfl⟩, ?_, ?_⟩
  · change Tracks producer.flushSegment.appendSegment.queue ""
    rw [queue]
    exact tracks
  · change visibleText (presented producer.flushSegment.appendSegment.queue).published = _
    rw [queue]
    exact shown
  · change conversationText producer.flushSegment.appendSegment.conversation = _
    rw [conversationText_appendSegment, conversation, segment]

theorem handle_finished (consistent : producer.Consistent) (outcome : LoopOutcome) :
    (producer.handle (.loopFinished outcome)).1.Consistent ∧
      (producer.handle (.loopFinished outcome)).2 = (LoopEvent.loopFinished outcome).raised ∧
      (producer.handle (.loopFinished outcome)).1.shown = producer.shown ∧
      conversationText (producer.handle (.loopFinished outcome)).1.conversation =
        conversationText producer.conversation ++ producer.assistantSegment := by
  have finishing := consistent.finishing
  have shown := producer.shown_finishing
  have conversation := producer.conversationText_appendSegment
  cases outcome with
  | completed plan =>
      cases plan with
      | unchanged => exact ⟨finishing, rfl, shown, conversation⟩
      | updated =>
          obtain ⟨put, same⟩ := finishing.put planResponse (by simp [planResponse]) (by simp [planResponse])
          exact ⟨put, rfl, same.trans shown, conversation⟩
      | raises message => exact ⟨finishing, rfl, shown, conversation⟩
  | ended summary =>
      obtain ⟨put, same⟩ :=
        finishing.put (errorResponse summary) (by simp [errorResponse]) (by simp [errorResponse])
      exact ⟨put, rfl, same.trans shown, conversation⟩

theorem handle_consistent (consistent : producer.Consistent) (event : LoopEvent) :
    (producer.handle event).1.Consistent ∧ (producer.handle event).2 = event.raised := by
  cases event with
  | modelOutputText text => exact ⟨⟨(consistent.tracks.text text).1, consistent.file⟩, rfl⟩
  | toolCallRequested => exact ⟨(handle_toolCall consistent).1, rfl⟩
  | loopFinished outcome =>
      obtain ⟨finished, raised, -⟩ := handle_finished consistent outcome
      exact ⟨finished, raised⟩
  | other => exact ⟨consistent, rfl⟩

/-- The conversation and the pending text are what was shown. -/
def Open (producer : Producer) : Prop :=
  producer.shown = conversationText producer.conversation ++ producer.assistantSegment

theorem handle_open (consistent : producer.Consistent) (opened : producer.Open) {event : LoopEvent}
    (running : event.isFinished = false) :
    (producer.handle event).1.Open ∧ (producer.handle event).2 = none ∧
      (producer.handle event).1.assistantSegment = event.pending producer.assistantSegment := by
  unfold Open at opened
  cases event with
  | modelOutputText text =>
      refine ⟨?_, rfl, rfl⟩
      have shown := (consistent.tracks.text text).2
      change visibleText _ = conversationText producer.conversation ++ (producer.assistantSegment ++ text)
      rw [← String.append_assoc, ← opened]
      exact shown
  | toolCallRequested =>
      obtain ⟨-, shown, conversation⟩ := handle_toolCall consistent
      refine ⟨?_, rfl, rfl⟩
      unfold Open
      rw [shown, conversation, opened]
      exact (String.append_empty).symm
  | loopFinished outcome => cases running
  | other => exact ⟨opened, rfl, rfl⟩

theorem loop_consistent (consistent : producer.Consistent) (occurrences : List Occurrence) :
    (loop occurrences producer).Consistent := by
  induction occurrences generalizing producer with
  | nil => exact consistent
  | cons occurrence rest ih =>
      cases occurrence with
      | planUpdated => exact ih (consistent.put _ (by simp [planResponse]) (by simp [planResponse])).1
      | raises message => exact (consistent.fail message).1
      | event event cancelled =>
          unfold loop
          split
          · exact consistent
          · have handled := (handle_consistent consistent event).1
            split
            · next next message same =>
                rw [same] at handled
                exact (handled.fail message).1
            · next next same =>
                rw [same] at handled
                exact ih handled

theorem loop_handles_none (consistent : producer.Consistent) {occurrences : List Occurrence}
    (none : handled occurrences = []) :
    (loop occurrences producer).shown = producer.shown ∧
      (loop occurrences producer).conversation = producer.conversation := by
  induction occurrences generalizing producer with
  | nil => exact ⟨rfl, rfl⟩
  | cons occurrence rest ih =>
      cases occurrence with
      | planUpdated =>
          obtain ⟨put, same⟩ := consistent.put planResponse (by simp [planResponse]) (by simp [planResponse])
          obtain ⟨shown, conversation⟩ := ih put none
          exact ⟨shown.trans same, conversation⟩
      | raises message => exact ⟨(consistent.fail message).2, rfl⟩
      | event event cancelled =>
          unfold handled at none
          unfold loop
          split
          · exact ⟨rfl, rfl⟩
          · next goesOn =>
              rw [if_neg goesOn] at none
              cases none

theorem loop_event (consistent : producer.Consistent) (event : LoopEvent) (rest : List Occurrence) :
    loop (.event event false :: rest) producer =
      match event.raised with
      | some message => (producer.handle event).1.fail message
      | none => loop rest (producer.handle event).1 := by
  have raised := (handle_consistent consistent event).2
  rw [loop, if_neg Bool.false_ne_true, ← raised]
  split
  · next message same => rw [same]
  · next same => rw [same]

/-- The loop ends with the conversation as it was shown, but for the pending text where the agent
does not handle the end of the loop. -/
theorem loop_shown (consistent : producer.Consistent) (opened : producer.Open) (occurrences : List Occurrence)
    (last : FinishedLast (handled occurrences)) :
    (EndHandled (handled occurrences) ∧
      (loop occurrences producer).shown = conversationText (loop occurrences producer).conversation) ∨
    (¬ EndHandled (handled occurrences) ∧
      (loop occurrences producer).shown = conversationText (loop occurrences producer).conversation ++
        (handled occurrences).foldl LoopEvent.pending producer.assistantSegment) := by
  induction occurrences generalizing producer with
  | nil => exact .inr ⟨not_endHandled_nil, opened⟩
  | cons occurrence rest ih =>
      cases occurrence with
      | planUpdated =>
          obtain ⟨put, same⟩ := consistent.put planResponse (by simp [planResponse]) (by simp [planResponse])
          exact ih put (same.trans opened) last
      | raises message => exact .inr ⟨not_endHandled_nil, (consistent.fail message).2.trans opened⟩
      | event event cancelled =>
          cases cancelled with
          | true => exact .inr ⟨not_endHandled_nil, opened⟩
          | false =>
              have unfolded : handled (.event event false :: rest) =
                  event :: if event.raised.isSome then [] else handled rest := rfl
              rw [unfolded] at last ⊢
              rw [loop_event consistent]
              cases ends : event.isFinished with
              | false =>
                  obtain ⟨opened', none, segment⟩ := handle_open consistent opened ends
                  obtain ⟨consistent', raised⟩ := handle_consistent consistent event
                  rw [none] at raised
                  rw [← raised] at last ⊢
                  rw [List.foldl_cons, ← segment, endHandled_cons ends]
                  exact ih consistent' opened' last.of_cons.1
              | true =>
                  -- the end of the loop is the last event that is handled
                  have nothing := last.of_cons.2 ends
                  rw [nothing]
                  refine .inl ⟨⟨event, rfl, ends⟩, ?_⟩
                  cases event with
                  | loopFinished outcome =>
                      obtain ⟨consistent', -, shown, conversation⟩ := handle_finished consistent outcome
                      have settled := (shown.trans opened).trans conversation.symm
                      cases raised : (LoopEvent.loopFinished outcome).raised with
                      | some message => exact (consistent'.fail message).2.trans settled
                      | none =>
                          rw [raised] at nothing
                          obtain ⟨shown', conversation'⟩ := loop_handles_none consistent' nothing
                          rw [shown', conversation']
                          exact settled
                  | _ => cases ends

end Producer

theorem finish_texts {queue : List QueueItem} {segment : String} (tracks : Tracks queue segment) :
    visibleText (presented queue).finish = visibleText (presented queue).published ∧
      visibleText (presented queue).finish = internalText (presented queue).finish ∧
      EndsOnce (presented queue).finish := by
  obtain ⟨-, accumulated, stored, ongoing⟩ := tracks
  have ending : visibleText [{ content := { type := .end_ }, isFinal := true }] = "" ∧
      internalText [{ content := { type := .end_ }, isFinal := true }] = "" := texts_of_ne (by simp)
  unfold Presenter.finish
  rw [accumulated]
  by_cases empty : segment = ""
  · rw [if_pos empty, List.append_nil, visibleText_append, internalText_append, ending.1, ending.2]
    rw [empty, String.append_empty] at stored
    refine ⟨String.append_empty, by rw [stored], _, _, rfl, rfl, ongoing⟩
  · rw [if_neg empty, visibleText_append, visibleText_append, internalText_append, internalText_append, ending.1,
      ending.2]
    unfold Presenter.textContent
    rw [(texts_internal segment).1, (texts_internal segment).2, String.append_empty, String.append_empty,
      String.append_empty]
    refine ⟨rfl, stored, _, _, rfl, rfl, ?_⟩
    intro response listed
    rcases List.mem_append.mp listed with earlier | new
    · exact ongoing response earlier
    · rw [List.mem_singleton.mp new]
      simp

/-- **The history of a turn.** Whatever the agent meets, what was visible was stored, and one
response ends the turn. Where the end of the loop comes last, the file agrees as well if and only
if the agent handles the end of the loop, or no text is pending when it stops. -/
theorem recorded_iff_settled (occurrences : List Occurrence) :
    ∃ published, Presenter.drain (runStream occurrences).queue {} = some published ∧
      visibleText published = internalText published ∧ EndsOnce published ∧
      (FinishedLast (handled occurrences) →
        (Recorded (runStream occurrences).written published ↔ Settled (handled occurrences))) := by
  have consistent := Producer.loop_consistent Producer.consistent_opening occurrences
  obtain ⟨visible, stored, ending⟩ := finish_texts consistent.tracks
  refine ⟨_, drain_stop _ _ consistent.tracks.goesOn, stored, ending, fun last => ?_⟩
  have shown := Producer.loop_shown Producer.consistent_opening rfl occurrences last
  have file : visibleText (presented (Producer.loop occurrences {}).queue).finish =
      writtenText (runStream occurrences).written ↔ Settled (handled occurrences) := by
    change _ = writtenText (Producer.loop occurrences {}).written ↔ _
    rw [visible, consistent.file]
    unfold Settled
    rcases shown with ⟨ended, same⟩ | ⟨notEnded, same⟩
    · exact iff_of_true same (.inl ended)
    · rw [or_iff_right notEnded]
      unfold Producer.shown at same
      rw [same]
      exact String.append_eq_left_iff
  rw [← file]
  exact ⟨fun recorded => recorded.file, fun same => ⟨stored, same, ending⟩⟩

def interrupted : List Occurrence :=
  [.event (.modelOutputText "Looking. ") false, .event .toolCallRequested false,
    .event (.modelOutputText "Found it.") false, .event .other true]

/-- The user saw more than the file has. -/
theorem interrupted_not_recorded :
    ∃ published, Presenter.drain (runStream interrupted).queue {} = some published ∧
      ¬ Recorded (runStream interrupted).written published := by
  refine ⟨_, rfl, fun recorded => ?_⟩
  have file := recorded.file
  revert file
  decide

end Loop

end Sico.Chat
