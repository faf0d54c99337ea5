import Sico.Foundation.System
import Sico.Chat.Connection

/-! # The connections of a turn

Every message of a turn is pushed to the connections of the turn, one after another. A push to
a connection fails when the message waits in its buffer already, and the loop ends there: the
connections behind it do not get the message. A push that panics ends the subscription, so that
no connection gets anything after it.

A message that ends the turn closes the sender of the connection, which is then sent nothing;
it is removed at the end of a loop that did not fail. The fields `sent` and `registered` record
what was sent and whether the connection is still in the list.
-/

namespace Sico.Chat

open Foundation

/-- A connection with its sender. -/
structure Subscriber where
  connection : ChatConnection
  done : Bool := false
  sent : List StreamEvent := []
  registered : Bool := true

/-- `tryPushChatResponseToConnection`, whose events are sent while the sender is open. -/
def Subscriber.push (topicMessage : TopicMessage) (subscriber : Subscriber) : Subscriber × Outcome :=
  let (connection, outcome) := tryPushChatResponseToConnection topicMessage subscriber.connection
  let events := connection.events.drop subscriber.connection.events.length
  ({ subscriber with
      connection
      done := subscriber.done || outcome = .finished
      sent := if subscriber.done then subscriber.sent else subscriber.sent ++ events }, outcome)

/-- The loop goes on behind a push. -/
def Outcome.goesOn : Outcome → Bool
  | .pending | .finished => true
  | .failed _ | .panicked => false

/-- The loop over the connections, with the outcome of the push that ended it. -/
def pushEach (topicMessage : TopicMessage) : List Subscriber → List Subscriber × Outcome
  | [] => ([], .pending)
  | subscriber :: rest =>
      if subscriber.registered then
        let (pushed, outcome) := subscriber.push topicMessage
        if outcome.goesOn then
          let (others, ended) := pushEach topicMessage rest
          (pushed :: others, ended)
        else (pushed :: rest, outcome)
      else
        let (others, ended) := pushEach topicMessage rest
        (subscriber :: others, ended)

def Subscriber.removeInactive (subscriber : Subscriber) : Subscriber :=
  { subscriber with registered := subscriber.registered && !subscriber.done }

/-- The connections of a turn, in the order in which they registered. -/
structure Hub where
  subscribers : List Subscriber
  panicked : Bool := false

def Hub.tryPushChatResponseToConnections (hub : Hub) (topicMessage : TopicMessage) : Hub :=
  if hub.panicked then hub
  else
    match pushEach topicMessage hub.subscribers with
    | (subscribers, .failed _) => { hub with subscribers }
    | (subscribers, .panicked) => { subscribers, panicked := true }
    | (subscribers, _) => { hub with subscribers := subscribers.map Subscriber.removeInactive }

def Hub.sentTo (hub : Hub) (position : ℕ) : Option (List StreamEvent) :=
  (hub.subscribers[position]?).map Subscriber.sent

/-- A connection that is the only one, behind messages. -/
def Subscriber.alone (subscriber : Subscriber) (topicMessages : List TopicMessage) : Hub :=
  topicMessages.foldl Hub.tryPushChatResponseToConnections { subscribers := [subscriber] }

/-- Messages arrive one after another. -/
def Hub.system : System Hub TopicMessage :=
  System.ofNext fun hub topicMessage => some (hub.tryPushChatResponseToConnections topicMessage)

section Push

variable {topicMessage : TopicMessage} {subscriber : Subscriber}

/-- A message was sent to the connection, or waits in its buffer. -/
def Subscriber.Has (topicMessage : TopicMessage) (subscriber : Subscriber) : Prop :=
  topicMessage.seq ≤ subscriber.connection.sentSeq ∨
    (subscriber.connection.bufferedTopicMessages.find? topicMessage.seq).isSome

/-- A message waits in the buffer of the connection, not yet sent. -/
def Subscriber.Waits (topicMessage : TopicMessage) (subscriber : Subscriber) : Prop :=
  subscriber.connection.sentSeq < topicMessage.seq ∧
    (subscriber.connection.bufferedTopicMessages.find? topicMessage.seq).isSome

instance : Decidable (subscriber.Has topicMessage) := inferInstanceAs (Decidable (_ ∨ _))

instance : Decidable (subscriber.Waits topicMessage) := inferInstanceAs (Decidable (_ ∧ _))

theorem flushTopicMessage_ne_failed (connection : ChatConnection) (seq : ℤ) (topicMessage : Option TopicMessage)
    (error : String) : (flushTopicMessage connection seq topicMessage).2 ≠ .failed error := by
  unfold flushTopicMessage flushVisible
  dsimp only
  repeat' split
  all_goals simp

theorem flushKeys_ne_failed (forceFlush : Bool) (keys : List ℤ) (connection : ChatConnection) (error : String) :
    (flushKeys forceFlush keys connection).2 ≠ .failed error := by
  induction keys generalizing connection with
  | nil => simp [flushKeys]
  | cons seq rest ih =>
      unfold flushKeys
      split
      · exact ih _
      · split
        · dsimp only
          split
          · exact ih _
          · exact flushTopicMessage_ne_failed _ _ _ error
        · simp

theorem Subscriber.waits_of_failed {error : String} (failed : (subscriber.push topicMessage).2 = .failed error) :
    subscriber.Waits topicMessage := by
  unfold Subscriber.push tryPushChatResponseToConnection at failed
  dsimp only at failed
  split at failed
  · next later =>
      refine ⟨later, ?_⟩
      by_contra absent
      rw [ChatConnection.addBufferedTopicMessage, if_neg absent] at failed
      exact flushKeys_ne_failed _ _ _ error failed
  · cases failed

theorem Subscriber.push_of_has (has : subscriber.Has topicMessage) :
    (subscriber.push topicMessage).1 = subscriber ∧
      ((subscriber.push topicMessage).2 = .pending ∨ ∃ error, (subscriber.push topicMessage).2 = .failed error) := by
  obtain ⟨connection, done, sent, registered⟩ := subscriber
  unfold Subscriber.push tryPushChatResponseToConnection
  dsimp only
  split
  · next later =>
      have buffered : (connection.bufferedTopicMessages.find? topicMessage.seq).isSome :=
        has.resolve_left (not_le.mpr later)
      rw [ChatConnection.addBufferedTopicMessage, if_pos buffered]
      simp
  · simp

end Push

section Loop

variable {topicMessage : TopicMessage} {hub alone : Hub} {subscriber : Subscriber} {position : ℕ}

/-- A connection behind its turn in the loop. -/
def Subscriber.pushed (topicMessage : TopicMessage) (subscriber : Subscriber) : Subscriber :=
  if subscriber.registered then (subscriber.push topicMessage).1 else subscriber

theorem pushEach_cases (topicMessage : TopicMessage) (subscribers : List Subscriber) :
    ((∀ other ∈ subscribers, other.registered → (other.push topicMessage).2.goesOn) ∧
      pushEach topicMessage subscribers = (subscribers.map (Subscriber.pushed topicMessage), .pending)) ∨
      ∃ (before : List Subscriber) (stops : Subscriber) (rest : List Subscriber), subscribers = before ++ stops :: rest ∧
        (∀ other ∈ before, other.registered → (other.push topicMessage).2.goesOn) ∧
        stops.registered ∧ (stops.push topicMessage).2.goesOn = false ∧
        pushEach topicMessage subscribers =
          (before.map (Subscriber.pushed topicMessage) ++ (stops.push topicMessage).1 :: rest,
            (stops.push topicMessage).2) := by
  induction subscribers with
  | nil => exact .inl ⟨by simp, rfl⟩
  | cons subscriber rest ih =>
      by_cases stops : subscriber.registered ∧ (subscriber.push topicMessage).2.goesOn = false
      · refine .inr ⟨[], subscriber, rest, rfl, by simp, stops.1, stops.2, ?_⟩
        simp [pushEach, stops]
      · have goes (registered : subscriber.registered) : (subscriber.push topicMessage).2.goesOn := by
          by_contra ends
          exact stops ⟨registered, Bool.not_eq_true _ ▸ ends⟩
        have unfolded : pushEach topicMessage (subscriber :: rest) =
            (subscriber.pushed topicMessage :: (pushEach topicMessage rest).1, (pushEach topicMessage rest).2) := by
          by_cases registered : subscriber.registered
          · simp [pushEach, Subscriber.pushed, registered, goes registered]
          · simp [pushEach, Subscriber.pushed, registered]
        rw [unfolded]
        rcases ih with ⟨all, through⟩ | ⟨before, last, later, rfl, all, registered, ends, through⟩
        · refine .inl ⟨?_, by rw [through]; rfl⟩
          intro other listed
          rcases List.mem_cons.mp listed with rfl | listed
          · exact goes
          · exact all other listed
        · refine .inr ⟨subscriber :: before, last, later, rfl, ?_, registered, ends, by rw [through]; rfl⟩
          intro other listed
          rcases List.mem_cons.mp listed with rfl | listed
          · exact goes
          · exact all other listed

theorem Hub.push_cases (topicMessage : TopicMessage) (active : hub.panicked = false) :
    ((∀ other ∈ hub.subscribers, other.registered → (other.push topicMessage).2.goesOn) ∧
      hub.tryPushChatResponseToConnections topicMessage =
        { subscribers := (hub.subscribers.map (Subscriber.pushed topicMessage)).map Subscriber.removeInactive }) ∨
      ∃ (before : List Subscriber) (stops : Subscriber) (rest : List Subscriber), hub.subscribers = before ++ stops :: rest ∧
        (∀ other ∈ before, other.registered → (other.push topicMessage).2.goesOn) ∧
        stops.registered ∧
        ((∃ error, (stops.push topicMessage).2 = .failed error) ∨ (stops.push topicMessage).2 = .panicked) ∧
        hub.tryPushChatResponseToConnections topicMessage =
          { subscribers := before.map (Subscriber.pushed topicMessage) ++ (stops.push topicMessage).1 :: rest
            panicked := (stops.push topicMessage).2 = .panicked } := by
  unfold Hub.tryPushChatResponseToConnections
  rw [active, if_neg Bool.false_ne_true]
  rcases pushEach_cases topicMessage hub.subscribers with
    ⟨all, through⟩ | ⟨before, last, rest, split, all, registered, ends, through⟩
  · rw [through]
    exact .inl ⟨all, rfl⟩
  · refine .inr ⟨before, last, rest, split, all, registered, ?_⟩
    rw [through]
    cases outcome : (last.push topicMessage).2 with
    | pending => simp [outcome, Outcome.goesOn] at ends
    | finished => simp [outcome, Outcome.goesOn] at ends
    | failed error => exact ⟨.inl ⟨error, rfl⟩, rfl⟩
    | panicked => exact ⟨.inr rfl, rfl⟩

/-- A connection stands before the push that ends the loop, is the one it is made to, or stands
behind it. -/
theorem getElem?_loop {before rest : List Subscriber} {stops : Subscriber} (f : Subscriber → Subscriber)
    (stops' : Subscriber)
    (here : (before ++ stops :: rest)[position]? = some subscriber) :
    (subscriber ∈ before ∧ (before.map f ++ stops' :: rest)[position]? = some (f subscriber)) ∨
      (subscriber = stops ∧ (before.map f ++ stops' :: rest)[position]? = some stops') ∨
        (subscriber ∈ rest ∧ (before.map f ++ stops' :: rest)[position]? = some subscriber) := by
  rw [List.getElem?_append] at here
  rw [List.getElem?_append, List.length_map, List.getElem?_map]
  split at here
  · next below =>
      rw [if_pos below, here]
      exact .inl ⟨List.mem_of_getElem? here, rfl⟩
  · next above =>
      rw [if_neg above]
      right
      cases offset : position - before.length with
      | zero =>
          rw [offset] at here
          exact .inl ⟨(Option.some.inj here).symm, rfl⟩
      | succ later =>
          rw [offset, List.getElem?_cons_succ] at here
          rw [List.getElem?_cons_succ]
          exact .inr ⟨List.mem_of_getElem? here, here⟩

theorem Hub.sent_cases (topicMessage : TopicMessage) (here : hub.subscribers[position]? = some subscriber) :
    ∃ later, (hub.tryPushChatResponseToConnections topicMessage).subscribers[position]? = some later ∧
      ((later.done = subscriber.done ∧ later.sent = subscriber.sent) ∨
        (later.done = (subscriber.push topicMessage).1.done ∧ later.sent = (subscriber.push topicMessage).1.sent)) := by
  have pushed : ((subscriber.pushed topicMessage).done = subscriber.done ∧
      (subscriber.pushed topicMessage).sent = subscriber.sent) ∨
        ((subscriber.pushed topicMessage).done = (subscriber.push topicMessage).1.done ∧
          (subscriber.pushed topicMessage).sent = (subscriber.push topicMessage).1.sent) := by
    unfold Subscriber.pushed
    split
    · exact .inr ⟨rfl, rfl⟩
    · exact .inl ⟨rfl, rfl⟩
  cases active : hub.panicked with
  | true =>
      refine ⟨subscriber, ?_, .inl ⟨rfl, rfl⟩⟩
      rw [Hub.tryPushChatResponseToConnections, if_pos active, here]
  | false =>
      rcases Hub.push_cases topicMessage active with
        ⟨-, through⟩ | ⟨before, stops, rest, split, -, -, -, through⟩
      · refine ⟨(subscriber.pushed topicMessage).removeInactive, ?_, pushed⟩
        rw [through, List.getElem?_map, List.getElem?_map, here]
        rfl
      · rw [split] at here
        rw [through]
        rcases getElem?_loop (Subscriber.pushed topicMessage) (stops.push topicMessage).1 here with
          ⟨-, there⟩ | ⟨rfl, there⟩ | ⟨-, there⟩
        · exact ⟨_, there, pushed⟩
        · exact ⟨_, there, .inr ⟨rfl, rfl⟩⟩
        · exact ⟨_, there, .inl ⟨rfl, rfl⟩⟩

theorem Hub.sent_of_done (topicMessage : TopicMessage) (here : hub.subscribers[position]? = some subscriber)
    (done : subscriber.done) :
    ∃ later, (hub.tryPushChatResponseToConnections topicMessage).subscribers[position]? = some later ∧
      later.done ∧ later.sent = subscriber.sent := by
  obtain ⟨later, there, same | pushed⟩ := Hub.sent_cases topicMessage here
  · exact ⟨later, there, same.1.trans done, same.2⟩
  · refine ⟨later, there, ?_, ?_⟩
    · rw [pushed.1]
      simp [Subscriber.push, done]
    · rw [pushed.2]
      simp [Subscriber.push, done]

end Loop

section Independence

variable {topicMessage : TopicMessage} {hub alone : Hub} {subscriber : Subscriber} {position : ℕ}

/-- A push panics before anything is sent. -/
def Subscriber.PanicsAtOnce (topicMessage : TopicMessage) (subscriber : Subscriber) : Prop :=
  (subscriber.push topicMessage).2 = .panicked ∧ (subscriber.push topicMessage).1.sent = subscriber.sent

/-- A connection that the loop reaches does not keep the message from others. If the message
waits in its buffer, then the open connections behind it have the message. If its flush panics,
then the connections before it are closed, and those behind it are closed or panic at once. -/
def Subscriber.Spares (topicMessage : TopicMessage) (before : List Subscriber) (reached : Subscriber)
    (behind : List Subscriber) : Prop :=
  (reached.Waits topicMessage → ∀ other ∈ behind, other.registered → other.done ∨ other.Has topicMessage) ∧
    ((reached.push topicMessage).2 = .panicked →
      (∀ other ∈ before, other.registered → (other.push topicMessage).1.done) ∧
        ∀ other ∈ behind, other.registered → other.done ∨ other.PanicsAtOnce topicMessage)

/-- No connection that the loop reaches keeps the message from others. -/
def Hub.Undisturbed (hub : Hub) (topicMessage : TopicMessage) : Prop :=
  hub.panicked = false → ∀ k < hub.subscribers.length, ∀ reached ∈ hub.subscribers[k]?, reached.registered →
    (∀ other ∈ hub.subscribers.take k, other.registered → (other.push topicMessage).2.goesOn) →
      reached.Spares topicMessage (hub.subscribers.take k) (hub.subscribers.drop (k + 1))

/-- A connection among others and the same connection alone: both are closed, or no more is
pushed to either, or they are in the same state. -/
structure Agrees (position : ℕ) (hub alone : Hub) (subscriber single : Subscriber) : Prop where
  here : hub.subscribers[position]? = some subscriber
  there : alone.subscribers[0]? = some single
  sent : subscriber.sent = single.sent
  state : (subscriber.done ∧ single.done) ∨ (hub.panicked ∧ alone.panicked) ∨
    (hub.panicked = false ∧ alone.panicked = false ∧ subscriber = single ∧ alone.subscribers = [single] ∧
      single.registered ∧ single.done = false)

theorem Subscriber.removeInactive_of_open (opened : subscriber.done = false) :
    subscriber.removeInactive = subscriber := by
  obtain ⟨connection, done, sent, registered⟩ := subscriber
  obtain rfl : done = false := opened
  simp [Subscriber.removeInactive]

theorem Hub.single_cases (topicMessage : TopicMessage) (active : alone.panicked = false)
    (only : alone.subscribers = [subscriber]) (registered : subscriber.registered) :
    ((subscriber.push topicMessage).2.goesOn ∧ alone.tryPushChatResponseToConnections topicMessage =
        { subscribers := [(subscriber.push topicMessage).1.removeInactive] }) ∨
      ((subscriber.push topicMessage).2.goesOn = false ∧ alone.tryPushChatResponseToConnections topicMessage =
        { subscribers := [(subscriber.push topicMessage).1]
          panicked := (subscriber.push topicMessage).2 = .panicked }) := by
  rcases Hub.push_cases topicMessage active with
    ⟨all, through⟩ | ⟨before, stops, rest, split, -, -, ends, through⟩
  · left
    rw [only] at all through
    refine ⟨all subscriber List.mem_cons_self registered, ?_⟩
    rw [through]
    simp [Subscriber.pushed, registered]
  · right
    rw [only] at split
    obtain ⟨rfl, same⟩ | ⟨-, none⟩ := List.append_eq_singleton_iff.mp split.symm
    · obtain ⟨rfl, rfl⟩ := List.cons_eq_cons.mp same
      refine ⟨?_, through⟩
      rcases ends with ⟨error, failed⟩ | panicked
      · rw [failed]
        rfl
      · rw [panicked]
        rfl
    · cases none

theorem agrees_of_goesOn {hub alone : Hub} {later pushed : Subscriber}
    (there : hub.subscribers[position]? = some later) (same : later = pushed ∨ later = pushed.removeInactive)
    (only : alone = { subscribers := [pushed.removeInactive] }) (registered : pushed.registered)
    (active : hub.panicked = false ∨ pushed.done) :
    Agrees position hub alone later pushed.removeInactive where
  here := there
  there := by rw [only]; rfl
  sent := by
    rcases same with rfl | rfl
    · rfl
    · rfl
  state := by
    cases done : pushed.done with
    | true =>
        left
        rcases same with rfl | rfl
        · exact ⟨done, done⟩
        · exact ⟨done, done⟩
    | false =>
        right
        right
        rw [Subscriber.removeInactive_of_open done] at same only ⊢
        have active : hub.panicked = false := active.resolve_right (by rw [done]; exact Bool.false_ne_true)
        exact ⟨active, by rw [only], or_self_iff.mp same, by rw [only], registered, done⟩

theorem agrees_of_has {later : Hub} (there : later.subscribers[position]? = some subscriber)
    (active' : later.panicked = false) (active : alone.panicked = false) (only : alone.subscribers = [subscriber])
    (registered : subscriber.registered) (opened : subscriber.done = false) (has : subscriber.Has topicMessage) :
    Agrees position later (alone.tryPushChatResponseToConnections topicMessage) subscriber subscriber := by
  obtain ⟨unchanged, outcome⟩ := Subscriber.push_of_has has
  have notPanicked : (subscriber.push topicMessage).2 ≠ .panicked := by
    rcases outcome with pending | ⟨error, failed⟩
    · simp [pending]
    · simp [failed]
  have kept : alone.tryPushChatResponseToConnections topicMessage = { subscribers := [subscriber] } := by
    rcases Hub.single_cases topicMessage active only registered with ⟨-, single⟩ | ⟨-, single⟩
    · rw [single, unchanged, Subscriber.removeInactive_of_open opened]
    · rw [single, unchanged, decide_eq_false notPanicked]
  exact
    { here := there
      there := by rw [kept]; rfl
      sent := rfl
      state := .inr (.inr ⟨active', by rw [kept], rfl, by rw [kept], registered, opened⟩) }

theorem agrees_of_panicked {later : Hub} {kept : Subscriber} (there : later.subscribers[position]? = some kept)
    (ended : later.panicked) (active : alone.panicked = false) (only : alone.subscribers = [subscriber])
    (registered : subscriber.registered) (panics : (subscriber.push topicMessage).2 = .panicked)
    (sent : kept.sent = (subscriber.push topicMessage).1.sent) :
    Agrees position later (alone.tryPushChatResponseToConnections topicMessage) kept
      (subscriber.push topicMessage).1 := by
  rcases Hub.single_cases topicMessage active only registered with ⟨goes, -⟩ | ⟨-, single⟩
  · rw [panics] at goes
    cases goes
  · exact
      { here := there
        there := by rw [single]; rfl
        sent
        state := .inr (.inl ⟨ended, by rw [single]; exact decide_eq_true panics⟩) }

theorem agrees_step_open (active : hub.panicked = false) (active' : alone.panicked = false)
    (here : hub.subscribers[position]? = some subscriber) (only : alone.subscribers = [subscriber])
    (registered : subscriber.registered) (opened : subscriber.done = false)
    (undisturbed : hub.Undisturbed topicMessage) :
    ∃ later single, Agrees position (hub.tryPushChatResponseToConnections topicMessage)
      (alone.tryPushChatResponseToConnections topicMessage) later single := by
  have turn : subscriber.pushed topicMessage = (subscriber.push topicMessage).1 := if_pos registered
  have goesAlone (goes : (subscriber.push topicMessage).2.goesOn) :
      alone.tryPushChatResponseToConnections topicMessage =
        { subscribers := [(subscriber.push topicMessage).1.removeInactive] } := by
    rcases Hub.single_cases topicMessage active' only registered with ⟨-, single⟩ | ⟨ends, -⟩
    · exact single
    · rw [ends] at goes
      cases goes
  rcases Hub.push_cases topicMessage active with
    ⟨all, through⟩ | ⟨before, stops, rest, split, all, reached, ends, through⟩
  · have listed := List.mem_of_getElem? here
    have there : (hub.tryPushChatResponseToConnections topicMessage).subscribers[position]? =
        some (subscriber.push topicMessage).1.removeInactive := by
      rw [through, List.getElem?_map, List.getElem?_map, here, ← turn]
      rfl
    refine ⟨_, _, agrees_of_goesOn there (.inr rfl) (goesAlone (all _ listed registered)) registered (.inl ?_)⟩
    rw [through]
  · have condition := undisturbed active before.length (by simp [split]) stops (by simp [split]) reached
      (by rw [split, List.take_left]; exact all)
    rw [split, List.take_left, ← List.drop_drop, List.drop_left, List.drop_one, List.tail_cons] at condition
    rw [split] at here
    rcases getElem?_loop (Subscriber.pushed topicMessage) (stops.push topicMessage).1 here with
      ⟨listed, there⟩ | ⟨rfl, there⟩ | ⟨listed, there⟩
    · rw [turn] at there
      refine ⟨_, _, agrees_of_goesOn (by rw [through]; exact there) (.inl rfl)
        (goesAlone (all _ listed registered)) registered ?_⟩
      rcases ends with ⟨error, failed⟩ | panicked
      · left
        rw [through, failed]
        rfl
      · exact .inr ((condition.2 panicked).1 subscriber listed registered)
    · rcases ends with ⟨error, failed⟩ | panicked
      · have waits := Subscriber.waits_of_failed failed
        have unchanged := (Subscriber.push_of_has (.inr waits.2)).1
        rw [unchanged] at there through
        refine ⟨_, _, agrees_of_has (by rw [through]; exact there) ?_ active' only registered opened (.inr waits.2)⟩
        rw [through, failed]
        rfl
      · refine ⟨_, _, agrees_of_panicked (by rw [through]; exact there) ?_ active' only registered panicked rfl⟩
        rw [through]
        exact decide_eq_true panicked
    · rcases ends with ⟨error, failed⟩ | panicked
      · have waits := Subscriber.waits_of_failed failed
        have has := (condition.1 waits subscriber listed registered).resolve_left (by simp [opened])
        refine ⟨_, _, agrees_of_has (by rw [through]; exact there) ?_ active' only registered opened has⟩
        rw [through, failed]
        rfl
      · obtain ⟨panics, silent⟩ :=
          ((condition.2 panicked).2 subscriber listed registered).resolve_left (by simp [opened])
        refine ⟨_, _, agrees_of_panicked (by rw [through]; exact there) ?_ active' only registered panics silent.symm⟩
        rw [through]
        exact decide_eq_true panicked

theorem Agrees.step {single : Subscriber} (agrees : Agrees position hub alone subscriber single)
    (undisturbed : hub.Undisturbed topicMessage) :
    ∃ later single', Agrees position (hub.tryPushChatResponseToConnections topicMessage)
      (alone.tryPushChatResponseToConnections topicMessage) later single' := by
  obtain ⟨here, there, sent, ⟨done, done'⟩ | ⟨panicked, panicked'⟩ |
    ⟨active, active', rfl, only, registered, opened⟩⟩ := agrees
  · obtain ⟨later, here', stays, same⟩ := Hub.sent_of_done topicMessage here done
    obtain ⟨single', there', stays', same'⟩ := Hub.sent_of_done topicMessage there done'
    exact ⟨later, single', here', there', by rw [same, same', sent], .inl ⟨stays, stays'⟩⟩
  · refine ⟨subscriber, single, ?_⟩
    unfold Hub.tryPushChatResponseToConnections
    rw [if_pos panicked, if_pos panicked']
    exact ⟨here, there, sent, .inr (.inl ⟨panicked, panicked'⟩)⟩
  · exact agrees_step_open active active' here only registered opened undisturbed

/-- Along messages that disturb nobody, every connection is sent what it would have been sent
alone. -/
theorem sent_eq_alone {subscribers : List Subscriber} {topicMessages : List TopicMessage}
    (registered : ∀ subscriber ∈ subscribers, subscriber.registered)
    (run : (Hub.system.restrict Hub.Undisturbed).Run { subscribers } topicMessages hub)
    (position : ℕ) (here : subscribers[position]? = some subscriber) :
    hub.sentTo position = (subscriber.alone topicMessages).sentTo 0 := by
  obtain ⟨later, single, agrees⟩ : ∃ later single,
      Agrees position hub (subscriber.alone topicMessages) later single := by
    apply run.invariant fun topicMessages hub =>
      ∃ later single, Agrees position hub (subscriber.alone topicMessages) later single
    · refine ⟨subscriber, subscriber, here, rfl, rfl, ?_⟩
      cases done : subscriber.done with
      | true => exact .inl ⟨rfl, rfl⟩
      | false => exact .inr (.inr ⟨rfl, rfl, rfl, rfl, registered _ (List.mem_of_getElem? here), rfl⟩)
    · intro messages source topicMessage target before step
      obtain ⟨later, single, agrees⟩ := before
      obtain ⟨undisturbed, step⟩ := step
      obtain rfl := Option.some.inj step
      unfold Subscriber.alone
      rw [List.foldl_append]
      exact agrees.step undisturbed
  unfold Hub.sentTo
  rw [agrees.here, agrees.there, Option.map_some, Option.map_some, agrees.sent]

instance : Decidable (subscriber.PanicsAtOnce topicMessage) := inferInstanceAs (Decidable (_ ∧ _))

instance (before behind : List Subscriber) : Decidable (subscriber.Spares topicMessage before behind) :=
  inferInstanceAs (Decidable (_ ∧ _))

instance (hub : Hub) (topicMessage : TopicMessage) : Decidable (hub.Undisturbed topicMessage) :=
  inferInstanceAs (Decidable (_ → _))

end Independence

section Instances

def word (seq : ℤ) : TopicMessage :=
  { seq, chatResponse := some { content := some { type := .text, content := "word" } } }

def waiting : Subscriber :=
  { connection := { newChatConnection with bufferedTopicMessages := SortedMap.empty.insert 2 (word 2) } }

/-- A connection that was sent messages up to a number, as behind a replay of what was cached. -/
def replayed (sentSeq : ℤ) : Subscriber := { connection := { newChatConnection with sentSeq } }

/-- The second message comes again, and everybody has it. -/
theorem sent_eq_alone_repeated :
    (Hub.system.restrict Hub.Undisturbed).Run { subscribers := [waiting, replayed 2] } [word 2, word 1, word 3]
        (System.after (System.guarded Hub.Undisturbed fun hub topicMessage =>
          some (hub.tryPushChatResponseToConnections topicMessage)) { subscribers := [waiting, replayed 2] }
          [word 2, word 1, word 3]) ∧
      (System.after (System.guarded Hub.Undisturbed fun hub topicMessage =>
          some (hub.tryPushChatResponseToConnections topicMessage)) { subscribers := [waiting, replayed 2] }
          [word 2, word 1, word 3]).sentTo 1 = ((replayed 2).alone [word 2, word 1, word 3]).sentTo 0 := by
  have run : (Hub.system.restrict Hub.Undisturbed).Run { subscribers := [waiting, replayed 2] }
      [word 2, word 1, word 3] _ := .ofGuarded Hub.Undisturbed (by decide)
  exact ⟨run, sent_eq_alone (by decide) run 1 rfl⟩

/-- The second message comes again. The connection behind the one for which it waits is not sent
the message, which it lacks. -/
theorem sent_ne_alone :
    Hub.sentTo (Hub.tryPushChatResponseToConnections { subscribers := [waiting, replayed 1] } (word 2)) 1 = some [] ∧
      ((replayed 1).alone [word 2]).sentTo 0 = some [.chunk 2 .markdown] := by
  decide

end Instances

end Sico.Chat
