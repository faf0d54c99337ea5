import Mathlib.Data.List.Induction
import Sico.Chat.Delivery

/-! # Lost messages

A message more than `gapMax` ahead of `sentSeq` is meant to be sent without waiting for the
missing ones. The flush stops at the first message that it cannot send, though, so that a
message far ahead is only sent when no other one waits before it. As long as the turn is
open, the messages that wait are within `gapMax` of `sentSeq` (`Tidy`) until a message far
ahead arrives while another one waits.
-/

namespace Sico.Chat

open Foundation

/-- No buffered message is more than `gapMax` ahead. -/
def NoneFar (connection : ChatConnection) : Prop :=
  ∀ entry ∈ connection.bufferedTopicMessages.entries, entry.1 ≤ connection.sentSeq + gapMax

/-- The message is more than `gapMax` ahead, and another one is waiting. -/
def Overtakes (connection : ChatConnection) (topicMessage : TopicMessage) : Prop :=
  connection.sentSeq + gapMax < topicMessage.seq ∧
    connection.bufferedTopicMessages.entries ≠ []

/-- The connection takes further messages: no push panicked, and the turn was not finished. -/
def Delivery.IsOpen (delivery : Delivery) : Prop :=
  delivery.panicked = false ∧ .done ∉ delivery.connection.events

/-- The messages that wait are behind a missing one, and within `gapMax`. -/
def Tidy (connection : ChatConnection) : Prop :=
  ∀ entry ∈ connection.bufferedTopicMessages.entries,
    connection.sentSeq + 1 < entry.1 ∧ entry.1 ≤ connection.sentSeq + gapMax

variable {connection : ChatConnection} {topicMessage : TopicMessage}

theorem Tidy.flush_near (tidy : Tidy connection) (later : connection.sentSeq < topicMessage.seq)
    (near : topicMessage.seq ≤ connection.sentSeq + gapMax) :
    NoneFar (tryFlushConnection (connection.buffer topicMessage) false).1 ∧
      ((tryFlushConnection (connection.buffer topicMessage) false).2 ≠ .panicked →
        .done ∉ (tryFlushConnection (connection.buffer topicMessage) false).1.events →
        Tidy (tryFlushConnection (connection.buffer topicMessage) false).1) := by
  have range : ∀ entry ∈ (connection.buffer topicMessage).bufferedTopicMessages.entries,
      connection.sentSeq < entry.1 ∧ entry.1 ≤ connection.sentSeq + gapMax := by
    intro entry member
    rcases SortedMap.mem_insert.mp member with rfl | ⟨before, -⟩
    · exact ⟨later, near⟩
    · obtain ⟨above, below⟩ := tidy entry before
      exact ⟨by omega, below⟩
  obtain ⟨run, rest, advance, ended⟩ := tryFlush_near range
  have beyond := advance.beyond fun entry member => (range entry member).1
  have forward : connection.sentSeq ≤ _ := advance.sentSeq_le
  have waiting : ∀ entry ∈ rest, entry.1 ≤ connection.sentSeq + gapMax := fun entry member =>
    (range entry (advance.entries ▸ List.mem_append_right _ member)).2
  generalize tryFlushConnection (connection.buffer topicMessage) false = flushed at *
  have noneFar : NoneFar flushed.1 := by
    intro entry member
    rw [advance.remaining] at member
    have bounded := waiting entry member
    omega
  refine ⟨noneFar, fun unhurt unfinished entry member => ⟨?_, noneFar entry member⟩⟩
  rw [advance.remaining] at member
  obtain ⟨-, -, missing⟩ | ⟨earlier, last, split, -, ends, open_⟩ := ended
  · have above := beyond entry member
    have other : entry.1 ≠ flushed.1.sentSeq + 1 := fun same =>
      missing (same ▸ List.mem_map_of_mem member)
    omega
  · -- a run that ends otherwise ends the turn or panics
    exfalso
    cases finish : flushed.2 with
    | pending => exact open_ finish
    | finished =>
        obtain ⟨chunks, sent, -⟩ := emitted_of_finished last.1 (ends.trans finish)
        apply unfinished
        rw [advance.events, split]
        simp [sent]
    | failed error => exact outcome_ne_failed error (ends.trans finish)
    | panicked => exact unhurt finish

theorem flush_alone (alone : connection.bufferedTopicMessages.entries = [])
    (far : connection.sentSeq + gapMax < topicMessage.seq) :
    (tryFlushConnection (connection.buffer topicMessage) false).1.bufferedTopicMessages.entries
      = [] := by
  have entries : (connection.buffer topicMessage).bufferedTopicMessages.entries =
      [(topicMessage.seq, topicMessage)] := by
    change SortedMap.insertEntry _ _ connection.bufferedTopicMessages.entries = _
    rw [alone]
    rfl
  have later : (connection.buffer topicMessage).sentSeq < topicMessage.seq := by
    change connection.sentSeq < _
    unfold gapMax at far
    omega
  unfold tryFlushConnection SortedMap.keys
  rw [entries, List.map_singleton, flushKeys_cons entries later, if_pos (.inr far)]
  split
  · exact process_entries entries
  · exact process_entries entries

theorem Tidy.flush_far (tidy : Tidy connection)
    (overtakes : Overtakes connection topicMessage) :
    ¬ NoneFar (tryFlushConnection (connection.buffer topicMessage) false).1 := by
  obtain ⟨far, waits⟩ := overtakes
  obtain ⟨⟨seq, first⟩, rest, waiting⟩ := List.exists_cons_of_ne_nil waits
  obtain ⟨above, below⟩ := tidy (seq, first) (waiting ▸ List.mem_cons_self)
  have entries : (connection.buffer topicMessage).bufferedTopicMessages.entries =
      (seq, first) :: SortedMap.insertEntry topicMessage.seq topicMessage rest := by
    change SortedMap.insertEntry _ _ connection.bufferedTopicMessages.entries = _
    rw [waiting, SortedMap.insertEntry, if_neg (by dsimp only at *; omega),
      if_neg (by dsimp only at *; omega)]
  have later : (connection.buffer topicMessage).sentSeq < seq := by
    change connection.sentSeq < seq
    dsimp only at above
    omega
  have blocked : ¬ (seq = (connection.buffer topicMessage).sentSeq + 1 ∨
      (connection.buffer topicMessage).sentSeq + gapMax < seq) := by
    change ¬ (seq = connection.sentSeq + 1 ∨ connection.sentSeq + gapMax < seq)
    dsimp only at above below
    omega
  have stopped : tryFlushConnection (connection.buffer topicMessage) false =
      (connection.buffer topicMessage, .pending) := by
    unfold tryFlushConnection SortedMap.keys
    rw [entries, List.map_cons, flushKeys_cons entries later, if_neg blocked]
  rw [stopped]
  intro noneFar
  have bounded := noneFar (topicMessage.seq, topicMessage) (SortedMap.mem_insert.mpr (.inl rfl))
  change topicMessage.seq ≤ connection.sentSeq + gapMax at bounded
  omega

theorem Tidy.noneFar_push (tidy : Tidy connection) (topicMessage : TopicMessage) :
    NoneFar (tryPushChatResponseToConnection topicMessage connection).1 ↔
      ¬ Overtakes connection topicMessage := by
  obtain ⟨outcome, -, same, known⟩ | ⟨later, -, same⟩ := push_cases topicMessage connection
  · rw [same]
    have near : topicMessage.seq ≤ connection.sentSeq + gapMax := by
      rcases known with sent | buffered
      · unfold gapMax
        omega
      · obtain ⟨entry, member, named⟩ := List.mem_map.mp buffered
        have bounded := (tidy entry member).2
        omega
    exact ⟨fun _ overtakes => absurd overtakes.1 (not_lt.mpr near), fun _ entry member =>
      (tidy entry member).2⟩
  · rw [same]
    refine ⟨fun noneFar overtakes => tidy.flush_far overtakes noneFar, fun passes => ?_⟩
    by_cases far : connection.sentSeq + gapMax < topicMessage.seq
    · have alone : connection.bufferedTopicMessages.entries = [] := by
        by_contra waits
        exact passes ⟨far, waits⟩
      intro entry member
      rw [flush_alone alone far] at member
      cases member
    · exact (tidy.flush_near later (not_lt.mp far)).1

theorem Tidy.push {delivery : Delivery} (tidy : Tidy delivery.connection)
    (running : delivery.panicked = false) (passes : ¬ Overtakes delivery.connection topicMessage)
    (stays : (delivery.push topicMessage).IsOpen) : Tidy (delivery.push topicMessage).connection := by
  obtain ⟨unhurt, unfinished⟩ := stays
  rw [Delivery.push, if_neg (by simp [running])] at unhurt unfinished ⊢
  dsimp only at unhurt unfinished ⊢
  obtain ⟨outcome, -, same, -⟩ | ⟨later, -, same⟩ := push_cases topicMessage delivery.connection
  · rw [same]
    exact tidy
  · rw [same] at unhurt unfinished ⊢
    by_cases far : delivery.connection.sentSeq + gapMax < topicMessage.seq
    · have alone : delivery.connection.bufferedTopicMessages.entries = [] := by
        by_contra waits
        exact passes ⟨far, waits⟩
      intro entry member
      rw [flush_alone alone far] at member
      cases member
    · exact (tidy.flush_near later (not_lt.mp far)).2 (of_decide_eq_false unhurt) unfinished

section Growth

theorem flushTopicMessage_events (connection : ChatConnection) (seq : ℤ)
    (topicMessage : Option TopicMessage) :
    connection.events <+: (flushTopicMessage connection seq topicMessage).1.events := by
  cases topicMessage with
  | none => exact List.prefix_rfl
  | some topicMessage =>
      rw [flushTopicMessage_eq]
      exact List.prefix_append _ _

theorem flushKeys_events (forceFlush : Bool) (keys : List ℤ) (connection : ChatConnection) :
    connection.events <+: (flushKeys forceFlush keys connection).1.events := by
  induction keys generalizing connection with
  | nil => exact List.prefix_rfl
  | cons seq rest ih =>
      unfold flushKeys
      split
      · exact ih (connection.unbuffer seq)
      · split
        · have sent := flushTopicMessage_events ({ connection with sentSeq := seq }.unbuffer seq) seq
            (connection.bufferedTopicMessages.find? seq)
          dsimp only
          split
          · rename_i next same
            rw [same] at sent
            exact sent.trans (ih next)
          · exact sent
        · exact List.prefix_rfl

theorem Delivery.IsOpen.of_push {delivery : Delivery}
    (stays : (delivery.push topicMessage).IsOpen) : delivery.IsOpen := by
  by_cases running : delivery.panicked = false
  · refine ⟨running, fun done => stays.2 ?_⟩
    rw [Delivery.push, if_neg (by simp [running])]
    dsimp only
    obtain ⟨outcome, -, same, -⟩ | ⟨-, -, same⟩ := push_cases topicMessage delivery.connection
    · rw [same]
      exact done
    · rw [same]
      exact (flushKeys_events false _ (delivery.connection.buffer topicMessage)).subset done
  · rw [Delivery.push, if_pos (by simpa using running)] at stays
    exact absurd stays.1 running

end Growth

section Runs

/-- A property of every push of a delivery, of what came before and of the message. -/
def EachPush (property : List TopicMessage → TopicMessage → Prop)
    (topicMessages : List TopicMessage) : Prop :=
  ∀ earlier topicMessage later, topicMessages = earlier ++ topicMessage :: later →
    property earlier topicMessage

theorem eachPush_snoc {property : List TopicMessage → TopicMessage → Prop}
    {topicMessages : List TopicMessage} :
    EachPush property (topicMessages ++ [topicMessage]) ↔
      EachPush property topicMessages ∧ property topicMessages topicMessage := by
  constructor
  · intro each
    refine ⟨fun earlier middle later split => ?_, each topicMessages topicMessage [] rfl⟩
    exact each earlier middle (later ++ [topicMessage]) (by rw [split]; simp)
  · rintro ⟨each, last⟩ earlier middle later split
    rcases List.eq_nil_or_concat later with rfl | ⟨front, final, rfl⟩
    · obtain ⟨rfl, same⟩ := List.append_inj' split rfl
      cases same
      exact last
    · have regrouped : topicMessages ++ [topicMessage] = (earlier ++ middle :: front) ++ [final] := by
        rw [split]
        simp
      exact each earlier middle front (List.append_inj' regrouped rfl).1

/-- After each push to an open turn, no buffered message is more than `gapMax` ahead. -/
def LeavesNoneFar (topicMessages : List TopicMessage) : Prop :=
  EachPush (fun earlier topicMessage => (deliver earlier).IsOpen →
    NoneFar (deliver (earlier ++ [topicMessage])).connection) topicMessages

/-- No message that is pushed to an open turn overtakes one that waits. -/
def NeverOvertakes (topicMessages : List TopicMessage) : Prop :=
  EachPush (fun earlier topicMessage => (deliver earlier).IsOpen →
    ¬ Overtakes (deliver earlier).connection topicMessage) topicMessages

theorem NeverOvertakes.tidy {topicMessages : List TopicMessage}
    (never : NeverOvertakes topicMessages) (open_ : (deliver topicMessages).IsOpen) :
    Tidy (deliver topicMessages).connection := by
  induction topicMessages using List.reverseRecOn with
  | nil =>
      intro entry member
      cases member
  | append_singleton earlier topicMessage ih =>
      obtain ⟨before, last⟩ := eachPush_snoc.mp never
      rw [deliver_snoc] at open_ ⊢
      have opened := open_.of_push
      exact (ih before opened).push opened.1 (last opened) open_

/-- **Messages far ahead.** Each push to an open turn leaves no message more than `gapMax` ahead
if and only if no message that is pushed overtakes one that waits. -/
theorem leavesNoneFar_iff (topicMessages : List TopicMessage) :
    LeavesNoneFar topicMessages ↔ NeverOvertakes topicMessages := by
  induction topicMessages using List.reverseRecOn with
  | nil => constructor <;> intro _ earlier topicMessage later split <;> simp at split
  | append_singleton earlier topicMessage ih =>
      unfold LeavesNoneFar NeverOvertakes at ih ⊢
      rw [eachPush_snoc, eachPush_snoc, ih]
      refine and_congr_right fun never => imp_congr_right fun open_ => ?_
      have tidy : Tidy (deliver earlier).connection := NeverOvertakes.tidy never open_
      rw [deliver_snoc, Delivery.push, if_neg (by simp [open_.1])]
      exact tidy.noneFar_push topicMessage

/-- A turn of nine messages whose first message is lost, the others in order. -/
def withoutFirst : List TopicMessage :=
  [2, 3, 4, 5, 6, 7, 8].map (fun k =>
    { seq := k, chatResponse := some { content := some { type := .text, content := "hello" } } }) ++
  [{ seq := 9, chatResponse := some { content := some { type := .end_ }, isFinal := true } }]

/-- Nothing of it is ever sent, and it stays in the buffer up to the final message. -/
theorem withoutFirst_stalls :
    (deliver withoutFirst).connection.processed = [] ∧
      (deliver withoutFirst).connection.bufferedTopicMessages.keys = [2, 3, 4, 5, 6, 7, 8, 9] ∧
      ¬ LeavesNoneFar withoutFirst := by
  refine ⟨by decide, by decide, fun leaves => ?_⟩
  have open_ : (deliver withoutFirst.dropLast).IsOpen := by
    refine ⟨by decide, ?_⟩
    have silent : (deliver withoutFirst.dropLast).connection.events = [] := by decide
    rw [silent]
    exact List.not_mem_nil
  have split : withoutFirst = withoutFirst.dropLast ++ withoutFirst.getLast (by decide) :: [] := by
    decide
  have noneFar := leaves _ _ _ split open_
  rw [← split] at noneFar
  have stays : (9, withoutFirst.getLast (by decide)) ∈
      (deliver withoutFirst).connection.bufferedTopicMessages.entries := by decide
  have sent : (deliver withoutFirst).connection.sentSeq = 0 := by decide
  have bounded : (9 : ℤ) ≤ (deliver withoutFirst).connection.sentSeq + gapMax := noneFar _ stays
  rw [sent] at bounded
  revert bounded
  decide

end Runs

end Sico.Chat
