import Mathlib.Data.Int.Order.Basic
import Sico.Foundation.SortedMap

/-! # Chat connections

A connection receives the topic messages of one turn, in the order in which the event bus
delivers them, buffers them by their sequence number and flushes them to the client. The
fields `processed` and `events` are not in the source: they record, in order, the sequence
numbers that were flushed and the events given to the sender.

A flush that meets a visible text without content ends in a panic: such a response has no
message, and the message is read all the same.
-/

namespace Sico.Chat

open Foundation

inductive ChatContentType
  | unknown | text | functionCall | functionResult | trainContext | end_ | playbookIngestion
  | plan | keepalive | error
  deriving DecidableEq, Repr

inductive MessageContentType
  | markdown | end_ | plan | playbookIngestion
  deriving DecidableEq, Repr

structure ChatContent where
  type : ChatContentType
  content : String := ""
  deriving DecidableEq, Repr

structure ChatResponse where
  content : Option ChatContent
  isFinal : Bool := false
  isInternal : Bool := false
  deriving DecidableEq, Repr

structure TopicMessage where
  seq : ℤ
  chatResponse : Option ChatResponse
  deriving DecidableEq, Repr

/-- What is stored of a response: its content. -/
structure Message where
  contentType : ChatContentType
  content : String

inductive StreamEvent
  | chunk (seq : ℤ) (type : MessageContentType)
  | done
  deriving DecidableEq, Repr

structure ChatConnection where
  sentSeq : ℤ
  bufferedTopicMessages : SortedMap ℤ TopicMessage
  processed : List ℤ
  events : List StreamEvent

def newChatConnection : ChatConnection :=
  { sentSeq := 0, bufferedTopicMessages := .empty, processed := [], events := [] }

/-- How a flush or a push ends. -/
inductive Outcome
  | pending
  | finished
  | failed (error : String)
  | panicked
  deriving DecidableEq, Repr

section Messages

/-- The message of a response, or nothing for a response without content and for an empty
text. -/
def chatResponseToMessage (resp : ChatResponse) : Option Message :=
  match resp.content with
  | none => none
  | some content =>
      if content.type = .text ∧ content.content = "" then none
      else some { contentType := content.type, content := content.content }

/-- The type under which a message is shown, if it is. -/
def normalizeMessageContent (msg : Message) : Option MessageContentType :=
  match msg.contentType with
  | .text => some .markdown
  | .end_ => some .end_
  | .plan => some .plan
  | .playbookIngestion => some .playbookIngestion
  | _ => none

def ChatConnection.send (connection : ChatConnection) (event : StreamEvent) : ChatConnection :=
  { connection with events := connection.events ++ [event] }

/-- A response with content that is not hidden from the client. -/
def flushVisible (connection : ChatConnection) (seq : ℤ) (resp : ChatResponse) :
    ChatConnection × Outcome :=
  match chatResponseToMessage resp with
  -- `NormalizeMessageContent` reads a field of the missing message
  | none => (connection, .panicked)
  | some msg =>
      let shown :=
        match normalizeMessageContent msg with
        | some type => connection.send (.chunk seq type)
        | none => connection
      if resp.isFinal then (shown.send .done, .finished) else (shown, .pending)

def flushTopicMessage (connection : ChatConnection) (seq : ℤ) (topicMessage : Option TopicMessage) :
    ChatConnection × Outcome :=
  let connection := { connection with processed := connection.processed ++ [seq] }
  match topicMessage with
  | none => (connection, .pending)
  | some topicMessage =>
      match topicMessage.chatResponse with
      | none => (connection, .pending)
      | some resp =>
          match resp.content with
          | none => (connection, .pending)
          | some content =>
              if resp.isInternal ∧ content.type ≠ .error then (connection, .pending)
              else flushVisible connection seq resp

end Messages

section Buffer

def gapMax : ℤ := 5

def ChatConnection.addBufferedTopicMessage (connection : ChatConnection)
    (topicMessage : TopicMessage) : Except String ChatConnection :=
  if (connection.bufferedTopicMessages.find? topicMessage.seq).isSome then
    .error ("topic message with seq " ++ toString topicMessage.seq ++ " already exists in buffer")
  else
    .ok { connection with
      bufferedTopicMessages :=
        connection.bufferedTopicMessages.insert topicMessage.seq topicMessage }

def ChatConnection.unbuffer (connection : ChatConnection) (seq : ℤ) : ChatConnection :=
  { connection with bufferedTopicMessages := connection.bufferedTopicMessages.erase seq }

def canSend (forceFlush : Bool) (sentSeq seq : ℤ) : Bool :=
  forceFlush || seq = sentSeq + 1 || sentSeq + gapMax < seq

/-- The loop of `tryFlushConnection` over the keys it has sorted. -/
def flushKeys (forceFlush : Bool) : List ℤ → ChatConnection → ChatConnection × Outcome
  | [], connection => (connection, .pending)
  | seq :: rest, connection =>
      if seq ≤ connection.sentSeq then
        flushKeys forceFlush rest (connection.unbuffer seq)
      else if canSend forceFlush connection.sentSeq seq then
        let topicMessage := connection.bufferedTopicMessages.find? seq
        match flushTopicMessage ({ connection with sentSeq := seq }.unbuffer seq) seq topicMessage with
        | (next, .pending) => flushKeys forceFlush rest next
        | ended => ended
      else
        (connection, .pending)

def tryFlushConnection (connection : ChatConnection) (forceFlush : Bool) :
    ChatConnection × Outcome :=
  flushKeys forceFlush connection.bufferedTopicMessages.keys connection

def tryPushChatResponseToConnection (topicMessage : TopicMessage) (connection : ChatConnection) :
    ChatConnection × Outcome :=
  if connection.sentSeq < topicMessage.seq then
    match connection.addBufferedTopicMessage topicMessage with
    | .error error => (connection, .failed error)
    | .ok connection => tryFlushConnection connection false
  else
    (connection, .pending)

end Buffer

section Delivery

/-- A connection to which messages are pushed one after another. No caller recovers from a
panic before its next push, so that nothing is pushed after one. -/
structure Delivery where
  connection : ChatConnection
  panicked : Bool

def Delivery.push (delivery : Delivery) (topicMessage : TopicMessage) : Delivery :=
  if delivery.panicked then delivery
  else
    let (connection, outcome) := tryPushChatResponseToConnection topicMessage delivery.connection
    { connection, panicked := outcome = .panicked }

def deliver (topicMessages : List TopicMessage) : Delivery :=
  topicMessages.foldl Delivery.push { connection := newChatConnection, panicked := false }

@[simp] theorem deliver_snoc (topicMessages : List TopicMessage) (topicMessage : TopicMessage) :
    deliver (topicMessages ++ [topicMessage]) = (deliver topicMessages).push topicMessage := by
  simp [deliver]

end Delivery

section Effect

/-- The visible content of a message: that of its response, unless the response is internal. -/
def TopicMessage.visible (topicMessage : TopicMessage) : Option (ChatResponse × ChatContent) :=
  match topicMessage.chatResponse with
  | none => none
  | some resp =>
      match resp.content with
      | none => none
      | some content =>
          if resp.isInternal ∧ content.type ≠ .error then none else some (resp, content)

def TopicMessage.outcome (topicMessage : TopicMessage) : Outcome :=
  match topicMessage.visible with
  | none => .pending
  | some (resp, content) =>
      if content.type = .text ∧ content.content = "" then .panicked
      else if resp.isFinal then .finished
      else .pending

/-- The events that flushing a message gives to the sender. -/
def TopicMessage.emitted (topicMessage : TopicMessage) (seq : ℤ) : List StreamEvent :=
  match topicMessage.visible with
  | none => []
  | some (resp, content) =>
      if content.type = .text ∧ content.content = "" then []
      else
        (normalizeMessageContent ⟨content.type, content.content⟩).toList.map (.chunk seq) ++
          if resp.isFinal then [.done] else []

theorem flushTopicMessage_eq (connection : ChatConnection) (seq : ℤ) (topicMessage : TopicMessage) :
    flushTopicMessage connection seq (some topicMessage) =
      ({ connection with
          processed := connection.processed ++ [seq]
          events := connection.events ++ topicMessage.emitted seq }, topicMessage.outcome) := by
  unfold flushTopicMessage TopicMessage.emitted TopicMessage.outcome TopicMessage.visible
  obtain ⟨number, chatResponse⟩ := topicMessage
  cases chatResponse with
  | none => simp
  | some resp =>
      obtain ⟨content, isFinal, isInternal⟩ := resp
      cases content with
      | none => simp
      | some content =>
          by_cases hidden : isInternal ∧ content.type ≠ .error
          · simp [hidden]
          · simp only [hidden, if_false, flushVisible, chatResponseToMessage]
            by_cases missing : content.type = .text ∧ content.content = ""
            · simp [missing]
            · simp only [missing, if_false]
              cases normalizeMessageContent ⟨content.type, content.content⟩ with
              | none => cases isFinal <;> simp [ChatConnection.send]
              | some type => cases isFinal <;> simp [ChatConnection.send]

end Effect

end Sico.Chat
