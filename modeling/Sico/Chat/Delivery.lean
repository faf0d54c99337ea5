import Mathlib.Data.List.Induction
import Mathlib.Data.List.Nodup
import Sico.Chat.Flush

/-! # Delivery of a turn

The messages of a turn are numbered from 1, and the last is the only final one. They reach a
connection in any order, each any number of times. Whatever the order, the numbers are
flushed in ascending order (`Sound`). When no message comes before one whose number is
smaller by `gapMax` or more, the connection has flushed all that came without a hole
(`Caught`), so that in the end it has flushed everything, unless a visible text without
content made a flush panic.
-/

namespace Sico.Chat

open Foundation

def TopicMessage.isFinal (topicMessage : TopicMessage) : Bool :=
  match topicMessage.chatResponse with
  | none => false
  | some resp => resp.isFinal

/-- A text that is shown to the client and has no content. -/
def TopicMessage.IsEmptyText (topicMessage : TopicMessage) : Prop :=
  ∃ resp, topicMessage.chatResponse = some resp ∧ resp.isInternal = false ∧
    resp.content = some { type := .text, content := "" }

/-- The messages of one turn. -/
structure TurnStream where
  last : ℤ
  message : ℤ → TopicMessage
  nonempty : 1 ≤ last
  seq_message : ∀ k, (message k).seq = k
  final_iff : ∀ k, 1 ≤ k → k ≤ last → ((message k).isFinal ↔ k = last)
  ending : ∃ resp content, (message last).chatResponse = some resp ∧ resp.content = some content ∧
    resp.isInternal = false

/-- When a message is delivered, all those that are smaller by `gapMax` or more already were. -/
def BoundedReordering (numbers : List ℤ) : Prop :=
  ∀ earlier k later, numbers = earlier ++ k :: later → ∀ j, 1 ≤ j → j + gapMax ≤ k → j ∈ earlier

/-- Everything was flushed once, and the done event was sent once, after all the others. -/
def Completed (stream : TurnStream) (connection : ChatConnection) : Prop :=
  (∀ k, 1 ≤ k → k ≤ stream.last → connection.processed.count k = 1) ∧
    ∃ chunks, connection.events = chunks ++ [StreamEvent.done] ∧ .done ∉ chunks

section Messages

variable {topicMessage : TopicMessage}

theorem outcome_eq_panicked : topicMessage.outcome = .panicked ↔ topicMessage.IsEmptyText := by
  obtain ⟨seq, chatResponse⟩ := topicMessage
  cases chatResponse with
  | none => simp [TopicMessage.outcome, TopicMessage.visible, TopicMessage.IsEmptyText]
  | some resp =>
      obtain ⟨content, isFinal, isInternal⟩ := resp
      cases content with
      | none => simp [TopicMessage.outcome, TopicMessage.visible, TopicMessage.IsEmptyText]
      | some content =>
          obtain ⟨type, text⟩ := content
          cases isInternal <;> cases isFinal <;> cases type <;>
            simp [TopicMessage.outcome, TopicMessage.visible, TopicMessage.IsEmptyText]

theorem outcome_ne_failed (error : String) : topicMessage.outcome ≠ .failed error := by
  unfold TopicMessage.outcome
  split
  · simp
  · split
    · simp
    · split <;> simp

theorem isFinal_of_finished (finished : topicMessage.outcome = .finished) :
    topicMessage.isFinal = true := by
  obtain ⟨seq, chatResponse⟩ := topicMessage
  cases chatResponse with
  | none => simp [TopicMessage.outcome, TopicMessage.visible] at finished
  | some resp =>
      change resp.isFinal = true
      by_contra notFinal
      unfold TopicMessage.outcome at finished
      split at finished
      · cases finished
      · rename_i resp' content visible
        have same : resp' = resp := by
          unfold TopicMessage.visible at visible
          cases shown : resp.content with
          | none => simp [shown] at visible
          | some content' =>
              simp only [shown] at visible
              split at visible
              · cases visible
              · cases visible
                rfl
        subst same
        rw [if_neg notFinal] at finished
        split at finished <;> cases finished

theorem finished_of_done {seq : ℤ} (done : .done ∈ topicMessage.emitted seq) :
    topicMessage.outcome = .finished := by
  unfold TopicMessage.emitted at done
  unfold TopicMessage.outcome
  cases shown : topicMessage.visible with
  | none => simp [shown] at done
  | some pair =>
      simp only [shown] at done ⊢
      split at done
      · cases done
      · rename_i content
        rw [if_neg content]
        split at done
        · rename_i final
          exact if_pos final
        · simp at done

theorem emitted_of_finished (seq : ℤ) (finished : topicMessage.outcome = .finished) :
    ∃ chunks, topicMessage.emitted seq = chunks ++ [StreamEvent.done] ∧ .done ∉ chunks := by
  unfold TopicMessage.outcome at finished
  unfold TopicMessage.emitted
  cases shown : topicMessage.visible with
  | none => simp [shown] at finished
  | some pair =>
      simp only [shown] at finished ⊢
      split at finished
      · cases finished
      · rename_i content
        rw [if_neg content]
        split at finished
        · rename_i final
          exact ⟨_, by rw [if_pos final], by simp⟩
        · cases finished

end Messages

namespace TurnStream

variable (stream : TurnStream)

theorem finished_last (content : ¬ (stream.message stream.last).IsEmptyText) :
    (stream.message stream.last).outcome = .finished := by
  have final := (stream.final_iff stream.last stream.nonempty le_rfl).mpr rfl
  obtain ⟨resp, shown, answered, there, visible⟩ := stream.ending
  rw [TopicMessage.isFinal, answered] at final
  rw [← outcome_eq_panicked] at content
  unfold TopicMessage.outcome TopicMessage.visible at content ⊢
  simp only [answered, there, visible, Bool.false_eq_true, false_and, if_false] at content ⊢
  by_cases empty : shown.type = .text ∧ shown.content = ""
  · exact absurd (if_pos empty) content
  · rw [if_neg empty]
    exact if_pos final

theorem last_of_finished {k : ℤ} (positive : 1 ≤ k) (bounded : k ≤ stream.last)
    (finished : (stream.message k).outcome = .finished) : k = stream.last :=
  (stream.final_iff k positive bounded).mp (isFinal_of_finished finished)

end TurnStream

section Ordered

variable {stream : TurnStream} {connection : ChatConnection}

/-- What holds of a connection to which messages of the turn were pushed in any order. The last
argument tells whether a push panicked. -/
structure Sound (stream : TurnStream) (connection : ChatConnection) (panicked : Bool) : Prop where
  increasing : connection.processed.Pairwise (· < ·)
  reached : ∀ k ∈ connection.processed, k ≤ connection.sentSeq
  inTurn : ∀ k ∈ connection.processed, 1 ≤ k ∧ k ≤ stream.last
  fresh : ∀ entry ∈ connection.bufferedTopicMessages.entries, connection.sentSeq < entry.1
  own : ∀ entry ∈ connection.bufferedTopicMessages.entries,
    entry.2 = stream.message entry.1 ∧ 1 ≤ entry.1 ∧ entry.1 ≤ stream.last
  done : .done ∈ connection.events → ∃ k ∈ connection.processed,
    (stream.message k).outcome = .finished
  empty : ∀ k ∈ connection.processed, (stream.message k).outcome = .panicked →
    panicked = true ∧ k = connection.sentSeq

theorem Sound.new : Sound stream newChatConnection false where
  increasing := .nil
  reached := by simp [newChatConnection]
  inTurn := by simp [newChatConnection]
  fresh := by simp [newChatConnection, SortedMap.empty]
  own := by simp [newChatConnection, SortedMap.empty]
  done := by simp [newChatConnection]
  empty := by simp [newChatConnection]

theorem Sound.process {seq : ℤ} {topicMessage : TopicMessage} {rest : List (ℤ × TopicMessage)}
    (sound : Sound stream connection false)
    (first : connection.bufferedTopicMessages.entries = (seq, topicMessage) :: rest) :
    Sound stream (connection.process seq topicMessage) (topicMessage.outcome = .panicked) := by
  have here : (seq, topicMessage) ∈ connection.bufferedTopicMessages.entries :=
    first ▸ List.mem_cons_self
  have later : ∀ entry ∈ rest, entry ∈ connection.bufferedTopicMessages.entries := fun entry member =>
    first ▸ List.mem_cons_of_mem _ member
  have ascending := connection.bufferedTopicMessages.ascending
  rw [first, List.pairwise_cons] at ascending
  obtain ⟨named, positive, bounded⟩ := sound.own _ here
  have beyond : connection.sentSeq < seq := sound.fresh _ here
  refine
    { increasing := ?_, reached := ?_, inTurn := ?_, fresh := ?_, own := ?_, done := ?_, empty := ?_ }
  · refine List.pairwise_append.mpr ⟨sound.increasing, List.pairwise_singleton _ _, ?_⟩
    intro k before k' there
    rw [List.mem_singleton.mp there]
    exact (sound.reached k before).trans_lt beyond
  · intro k member
    rcases List.mem_append.mp member with before | there
    · exact ((sound.reached k before).trans_lt beyond).le
    · exact (List.mem_singleton.mp there).le
  · intro k member
    rcases List.mem_append.mp member with before | there
    · exact sound.inTurn k before
    · rw [List.mem_singleton.mp there]
      exact ⟨positive, bounded⟩
  · rw [process_entries first]
    exact ascending.1
  · rw [process_entries first]
    exact fun entry member => sound.own entry (later entry member)
  · intro sent
    rcases List.mem_append.mp sent with before | now
    · obtain ⟨k, member, finished⟩ := sound.done before
      exact ⟨k, List.mem_append_left _ member, finished⟩
    · refine ⟨seq, List.mem_append_right _ (List.mem_singleton_self _), ?_⟩
      rw [← named]
      exact finished_of_done now
  · intro k member panics
    rcases List.mem_append.mp member with before | there
    · exact absurd (sound.empty k before panics).1 (by simp)
    · have same : k = seq := List.mem_singleton.mp there
      rw [same, ← named] at panics
      exact ⟨decide_eq_true panics, same⟩

theorem Sound.flushKeys {entries : List (ℤ × TopicMessage)}
    (buffered : connection.bufferedTopicMessages.entries = entries)
    (sound : Sound stream connection false) :
    Sound stream (Chat.flushKeys false (entries.map Prod.fst) connection).1
      ((Chat.flushKeys false (entries.map Prod.fst) connection).2 = .panicked) := by
  induction entries generalizing connection with
  | nil => exact sound
  | cons entry entries ih =>
      obtain ⟨seq, topicMessage⟩ := entry
      have beyond : connection.sentSeq < seq := sound.fresh _ (buffered ▸ List.mem_cons_self)
      rw [List.map_cons, flushKeys_cons buffered beyond]
      split
      · split
        · rename_i pending
          have next := sound.process buffered
          rw [pending] at next
          exact ih (process_entries buffered) next
        · exact sound.process buffered
      · exact sound

theorem Sound.push {delivery : Delivery} {k : ℤ} (positive : 1 ≤ k) (bounded : k ≤ stream.last)
    (sound : Sound stream delivery.connection delivery.panicked) :
    Sound stream (delivery.push (stream.message k)).connection
      (delivery.push (stream.message k)).panicked := by
  unfold Delivery.push
  split
  · exact sound
  · rename_i running
    have unhurt : delivery.panicked = false := by simpa using running
    rw [unhurt] at sound
    change Sound stream (tryPushChatResponseToConnection (stream.message k) delivery.connection).1
      ((tryPushChatResponseToConnection (stream.message k) delivery.connection).2 = .panicked)
    obtain ⟨outcome, quiet, same, -⟩ | ⟨beyond, -, same⟩ :=
      push_cases (stream.message k) delivery.connection
    · rw [same, decide_eq_false quiet]
      exact sound
    · rw [stream.seq_message] at beyond
      rw [same]
      have buffered : ∀ entry ∈
          (delivery.connection.buffer (stream.message k)).bufferedTopicMessages.entries,
          entry = (k, stream.message k) ∨
            entry ∈ delivery.connection.bufferedTopicMessages.entries := by
        intro entry member
        rcases SortedMap.mem_insert.mp member with own | ⟨before, -⟩
        · exact .inl (by rw [own, stream.seq_message])
        · exact .inr before
      refine Sound.flushKeys rfl { sound with fresh := ?_, own := ?_ }
      · intro entry member
        rcases buffered entry member with rfl | before
        · exact beyond
        · exact sound.fresh entry before
      · intro entry member
        rcases buffered entry member with rfl | before
        · exact ⟨rfl, positive, bounded⟩
        · exact sound.own entry before

theorem Sound.deliver {numbers : List ℤ} (inTurn : ∀ k ∈ numbers, 1 ≤ k ∧ k ≤ stream.last) :
    Sound stream (Chat.deliver (numbers.map stream.message)).connection
      (Chat.deliver (numbers.map stream.message)).panicked := by
  induction numbers using List.reverseRecOn with
  | nil => exact Sound.new
  | append_singleton numbers k ih =>
      rw [List.map_append, List.map_singleton, deliver_snoc]
      have last := inTurn k (by simp)
      exact (ih fun j member => inTurn j (List.mem_append_left _ member)).push last.1 last.2

end Ordered

section Complete

variable {stream : TurnStream}

/-- What holds of a connection to which `numbers` were pushed without a panic: it has flushed
the turn up to `sentSeq`, it buffers all that came beyond, and the next number did not come. -/
structure Caught (stream : TurnStream) (numbers : List ℤ) (connection : ChatConnection) : Prop where
  bounded : 0 ≤ connection.sentSeq ∧ connection.sentSeq ≤ stream.last
  arrived : ∀ k, 1 ≤ k → k ≤ connection.sentSeq → k ∈ numbers
  processed : ∀ k, k ∈ connection.processed ↔ 1 ≤ k ∧ k ≤ connection.sentSeq
  buffered : ∀ entry, entry ∈ connection.bufferedTopicMessages.entries ↔
    entry.1 ∈ numbers ∧ connection.sentSeq < entry.1 ∧ entry.2 = stream.message entry.1
  missing : connection.sentSeq + 1 ∉ numbers
  events : connection.events =
    connection.processed.flatMap fun k => (stream.message k).emitted k

theorem Caught.new : Caught stream [] newChatConnection where
  bounded := ⟨le_rfl, by have := stream.nonempty; change 0 ≤ _; omega⟩
  arrived := fun k positive reached => by
    change k ≤ 0 at reached
    omega
  processed := fun k => by
    simp only [newChatConnection, List.not_mem_nil, false_iff]
    omega
  buffered := by simp [newChatConnection, SortedMap.empty]
  missing := List.not_mem_nil
  events := rfl

theorem BoundedReordering.near {numbers : List ℤ} (reordering : BoundedReordering numbers)
    {sentSeq : ℤ} (started : 0 ≤ sentSeq) (missing : sentSeq + 1 ∉ numbers.dropLast)
    {k : ℤ} (came : k ∈ numbers) : k ≤ sentSeq + gapMax := by
  by_contra far
  obtain ⟨earlier, later, split⟩ := List.append_of_mem came
  have before : sentSeq + 1 ∈ earlier := reordering earlier k later split _ (by omega) (by omega)
  apply missing
  rw [split, List.dropLast_append_of_ne_nil (by simp)]
  exact List.mem_append_left _ before

theorem Caught.buffered_buffer {numbers : List ℤ} {k : ℤ} {connection : ChatConnection}
    (caught : Caught stream numbers connection) (later : connection.sentSeq < k)
    (entry : ℤ × TopicMessage) :
    entry ∈ (connection.buffer (stream.message k)).bufferedTopicMessages.entries ↔
      entry.1 ∈ numbers ++ [k] ∧ connection.sentSeq < entry.1 ∧
        entry.2 = stream.message entry.1 := by
  refine SortedMap.mem_insert.trans ?_
  rw [stream.seq_message, caught.buffered, List.mem_append, List.mem_singleton]
  constructor
  · rintro (rfl | ⟨⟨came, after, named⟩, -⟩)
    · exact ⟨.inr rfl, later, rfl⟩
    · exact ⟨.inl came, after, named⟩
  · rintro ⟨came, after, named⟩
    by_cases same : entry.1 = k
    · exact .inl (Prod.ext same (by rw [named, same]))
    · exact .inr ⟨⟨came.resolve_right same, after, named⟩, same⟩

theorem Caught.advance {numbers came : List ℤ} {connection buffer next : ChatConnection}
    {run rest : List (ℤ × TopicMessage)} {outcome : Outcome}
    (caught : Caught stream numbers connection)
    (kept : ∀ j ∈ numbers, j ∈ came) (inTurn : ∀ j ∈ came, 1 ≤ j ∧ j ≤ stream.last)
    (shown : ∀ j, 1 ≤ j → j ≤ stream.last → (stream.message j).outcome ≠ .panicked)
    (sentSeq : buffer.sentSeq = connection.sentSeq)
    (processed : buffer.processed = connection.processed) (events : buffer.events = connection.events)
    (member : ∀ entry, entry ∈ buffer.bufferedTopicMessages.entries ↔
      entry.1 ∈ came ∧ buffer.sentSeq < entry.1 ∧ entry.2 = stream.message entry.1)
    (advance : Advance buffer next run rest) (ended : Ended next run rest outcome) :
    Caught stream came next ∧ outcome ≠ .panicked := by
  have ran := advance.mem_run
  have forward := advance.sentSeq_le
  have beyond := advance.beyond fun entry here => ((member entry).mp here).2.1
  have started := caught.bounded.1
  rw [advance.entries] at member
  have ownRun : ∀ entry ∈ run, entry.1 ∈ came ∧ entry.2 = stream.message entry.1 := by
    intro entry here
    have own := (member entry).mp (List.mem_append_left _ here)
    exact ⟨own.1, own.2.2⟩
  have inRun : ∀ j, buffer.sentSeq < j → j ≤ next.sentSeq → j ∈ came := by
    intro j after reached
    obtain ⟨entry, here, rfl⟩ := List.mem_map.mp ((ran j).mpr ⟨after, reached⟩)
    exact (ownRun entry here).1
  -- a message that ends a run is the final one, where none panics
  have ends : ∀ entry ∈ run, entry.2.outcome ≠ .pending →
      entry.1 = stream.last ∧ entry.2.outcome = .finished := by
    intro entry here open_
    obtain ⟨there, named⟩ := ownRun entry here
    obtain ⟨positive, bounded⟩ := inTurn _ there
    rw [named] at open_ ⊢
    have finished : (stream.message entry.1).outcome = .finished := by
      cases ended : (stream.message entry.1).outcome with
      | pending => exact absurd ended open_
      | finished => rfl
      | failed error => exact absurd ended (outcome_ne_failed error)
      | panicked => exact absurd ended (shown _ positive bounded)
    exact ⟨stream.last_of_finished positive bounded finished, finished⟩
  refine ⟨?_, ?_⟩
  · exact
      { bounded := by
          refine ⟨by omega, ?_⟩
          rcases forward.lt_or_eq with moved | same
          · exact (inTurn _ (inRun _ moved le_rfl)).2
          · have before := caught.bounded.2
            omega
        arrived := by
          intro j positive reached
          by_cases before : j ≤ buffer.sentSeq
          · exact kept j (caught.arrived j positive (sentSeq ▸ before))
          · exact inRun j (not_le.mp before) reached
        processed := by
          intro j
          rw [advance.processed, List.mem_append, ran, processed, caught.processed]
          omega
        buffered := by
          intro entry
          rw [advance.remaining]
          constructor
          · intro there
            have own := (member entry).mp (List.mem_append_right _ there)
            exact ⟨own.1, beyond entry there, own.2.2⟩
          · rintro ⟨arrived, later, named⟩
            rcases List.mem_append.mp ((member entry).mpr ⟨arrived, forward.trans_lt later, named⟩)
              with here | there
            · have reached := (ran entry.1).mp (List.mem_map_of_mem here)
              omega
            · exact there
        missing := by
          intro arrived
          obtain ⟨-, -, absent⟩ | ⟨earlier, last, split, -, same, open_⟩ := ended
          · have whole : (next.sentSeq + 1, stream.message (next.sentSeq + 1)) ∈ run ++ rest :=
              (member _).mpr ⟨arrived, by change _ < next.sentSeq + 1; omega, rfl⟩
            rcases List.mem_append.mp whole with here | there
            · have reached : _ ∧ next.sentSeq + 1 ≤ _ := (ran _).mp (List.mem_map_of_mem here)
              omega
            · exact absent (List.mem_map_of_mem there)
          · have here : last ∈ run := by simp [split]
            have final := (ends last here (same ▸ open_)).1
            have reached := ((ran last.1).mp (List.mem_map_of_mem here)).2
            have bounded := (inTurn _ arrived).2
            omega
        events := by
          rw [advance.events, advance.processed, List.flatMap_append, List.flatMap_map, processed,
            events, caught.events]
          congr 1
          rw [List.flatMap_def, List.flatMap_def]
          congr 1
          apply List.map_congr_left
          intro entry here
          rw [(ownRun entry here).2] }
  · rintro rfl
    obtain ⟨open_, -⟩ | ⟨earlier, last, split, -, same, open_⟩ := ended
    · cases open_
    · have finished := (ends last (by simp [split]) (same ▸ open_)).2
      rw [same] at finished
      cases finished

theorem Caught.again {numbers : List ℤ} {k : ℤ} {connection : ChatConnection}
    (caught : Caught stream numbers connection) (came : k ∈ numbers) :
    Caught stream (numbers ++ [k]) connection := by
  have same : ∀ j, j ∈ numbers ++ [k] ↔ j ∈ numbers := by
    intro j
    rw [List.mem_append, List.mem_singleton]
    exact ⟨fun member => member.elim id fun here => here ▸ came, .inl⟩
  exact
    { caught with
      arrived := fun j positive reached => (same j).mpr (caught.arrived j positive reached)
      buffered := fun entry => by rw [caught.buffered, same]
      missing := fun member => caught.missing ((same _).mp member) }

theorem Caught.push {numbers : List ℤ} {k : ℤ} {connection : ChatConnection}
    (caught : Caught stream numbers connection)
    (inTurn : ∀ j ∈ numbers ++ [k], 1 ≤ j ∧ j ≤ stream.last)
    (reordering : BoundedReordering (numbers ++ [k]))
    (shown : ∀ j, 1 ≤ j → j ≤ stream.last → (stream.message j).outcome ≠ .panicked) :
    Caught stream (numbers ++ [k])
        (tryPushChatResponseToConnection (stream.message k) connection).1 ∧
      (tryPushChatResponseToConnection (stream.message k) connection).2 ≠ .panicked := by
  obtain ⟨outcome, quiet, same, known⟩ | ⟨beyond, -, same⟩ :=
    push_cases (stream.message k) connection
  · rw [stream.seq_message] at known
    have came : k ∈ numbers := by
      rcases known with sent | buffered
      · exact caught.arrived k (inTurn k (by simp)).1 sent
      · obtain ⟨entry, member, rfl⟩ := List.mem_map.mp buffered
        exact ((caught.buffered entry).mp member).1
    rw [same]
    exact ⟨caught.again came, quiet⟩
  · rw [stream.seq_message] at beyond
    have member := caught.buffered_buffer beyond
    have unmoved : (connection.buffer (stream.message k)).sentSeq = connection.sentSeq := rfl
    obtain ⟨run, rest, advance, ended⟩ := tryFlush_near fun entry here =>
      ⟨((member entry).mp here).2.1, reordering.near caught.bounded.1
        (by simpa using caught.missing) ((member entry).mp here).1⟩
    rw [same]
    exact caught.advance (fun j here => List.mem_append_left _ here) inTurn shown unmoved rfl rfl
      member advance ended

theorem BoundedReordering.of_append {numbers later : List ℤ}
    (reordering : BoundedReordering (numbers ++ later)) : BoundedReordering numbers := by
  intro earlier k rest split
  exact reordering earlier k (rest ++ later) (by rw [split]; simp)

theorem Caught.deliver {numbers : List ℤ} (inTurn : ∀ k ∈ numbers, 1 ≤ k ∧ k ≤ stream.last)
    (reordering : BoundedReordering numbers)
    (shown : ∀ k, 1 ≤ k → k ≤ stream.last → (stream.message k).outcome ≠ .panicked) :
    Caught stream numbers (Chat.deliver (numbers.map stream.message)).connection ∧
      (Chat.deliver (numbers.map stream.message)).panicked = false := by
  induction numbers using List.reverseRecOn with
  | nil => exact ⟨Caught.new, rfl⟩
  | append_singleton numbers k ih =>
      obtain ⟨caught, running⟩ :=
        ih (fun j member => inTurn j (List.mem_append_left _ member)) reordering.of_append
      rw [List.map_append, List.map_singleton, deliver_snoc, Delivery.push, if_neg (by simp [running])]
      obtain ⟨next, quiet⟩ := caught.push inTurn reordering shown
      exact ⟨next, decide_eq_false quiet⟩

end Complete

section Turn

variable {stream : TurnStream} {connection : ChatConnection} {panicked : Bool}

theorem completed_of_caught {numbers : List ℤ} (sound : Sound stream connection panicked)
    (caught : Caught stream numbers connection)
    (all : ∀ k, 1 ≤ k → k ≤ stream.last → k ∈ numbers)
    (content : ¬ (stream.message stream.last).IsEmptyText) : Completed stream connection := by
  have reached : connection.sentSeq = stream.last := by
    have bounded := caught.bounded
    by_contra different
    exact caught.missing (all _ (by omega) (by omega))
  refine ⟨?_, ?_⟩
  · intro k positive bounded
    have member : k ∈ connection.processed := (caught.processed k).mpr ⟨positive, by omega⟩
    exact List.count_eq_one_of_mem (sound.increasing.imp fun below => ne_of_lt below) member
  · have member : stream.last ∈ connection.processed :=
      (caught.processed _).mpr ⟨stream.nonempty, reached.ge⟩
    obtain ⟨earlier, later, split⟩ := List.append_of_mem member
    have increasing := sound.increasing
    rw [split] at increasing
    obtain ⟨-, ascending, before⟩ := List.pairwise_append.mp increasing
    have nothing : later = [] := by
      by_contra some_
      obtain ⟨k, there⟩ := List.exists_mem_of_ne_nil _ some_
      have above := (List.pairwise_cons.mp ascending).1 k there
      have bounded := (sound.inTurn k (by rw [split]; simp [there])).2
      omega
    subst nothing
    obtain ⟨chunks, last, once⟩ :=
      emitted_of_finished stream.last (stream.finished_last content)
    refine ⟨earlier.flatMap (fun k => (stream.message k).emitted k) ++ chunks, ?_, ?_⟩
    · rw [caught.events, split, List.flatMap_append, List.flatMap_singleton, last, List.append_assoc]
    · intro done
      rcases List.mem_append.mp done with early | now
      · obtain ⟨k, there, sent⟩ := List.mem_flatMap.mp early
        have inTurn := sound.inTurn k (by rw [split]; simp [there])
        have same := stream.last_of_finished inTurn.1 inTurn.2 (finished_of_done sent)
        have below := before k there stream.last (by simp)
        omega
      · exact once now

theorem shown_of_completed (sound : Sound stream connection panicked)
    (completed : Completed stream connection) (k : ℤ) (positive : 1 ≤ k) (bounded : k ≤ stream.last) :
    ¬ (stream.message k).IsEmptyText := by
  obtain ⟨once, chunks, events, -⟩ := completed
  have processed : ∀ j, 1 ≤ j → j ≤ stream.last → j ∈ connection.processed := by
    intro j start finish
    exact List.count_pos_iff.mp (by rw [once j start finish]; exact Nat.one_pos)
  rw [← outcome_eq_panicked]
  intro panics
  -- an empty text is the last that is flushed, and so it would be the final message
  obtain ⟨-, stopped⟩ := sound.empty k (processed k positive bounded) panics
  have reached := sound.reached _ (processed stream.last stream.nonempty le_rfl)
  have final : k = stream.last := by omega
  obtain ⟨j, member, finished⟩ := sound.done (by rw [events]; simp)
  obtain ⟨start, finish⟩ := sound.inTurn j member
  rw [final, ← stream.last_of_finished start finish finished, finished] at panics
  cases panics

/-- **Delivery of a turn.** In whatever order the messages of a turn are delivered, they are
flushed in ascending order. With bounded reordering, once all have been delivered each was
flushed exactly once and the done event was sent exactly once, after all others, if and only
if no message is a visible text without content. -/
theorem turn_delivered (stream : TurnStream) (numbers : List ℤ)
    (inTurn : ∀ k ∈ numbers, 1 ≤ k ∧ k ≤ stream.last) :
    (deliver (numbers.map stream.message)).connection.processed.Pairwise (· < ·) ∧
      (BoundedReordering numbers → (∀ k, 1 ≤ k → k ≤ stream.last → k ∈ numbers) →
        (Completed stream (deliver (numbers.map stream.message)).connection ↔
          ∀ k, 1 ≤ k → k ≤ stream.last → ¬ (stream.message k).IsEmptyText)) := by
  have sound := Sound.deliver inTurn
  refine ⟨sound.increasing, fun reordering all => ⟨shown_of_completed sound, fun shown => ?_⟩⟩
  have caught := Caught.deliver inTurn reordering fun k positive bounded panics =>
    shown k positive bounded (outcome_eq_panicked.mp panics)
  exact completed_of_caught sound caught.1 all (shown stream.last stream.nonempty le_rfl)

/-- A turn of two messages: one that shows a text, and the end of the turn. -/
def shortTurn (text : String) : TurnStream where
  last := 2
  message k :=
    { seq := k
      chatResponse :=
        if k = 2 then some { content := some { type := .end_ }, isFinal := true }
        else some { content := some { type := .text, content := text } } }
  nonempty := by decide
  seq_message _ := rfl
  final_iff k _ _ := by
    unfold TopicMessage.isFinal
    by_cases last : k = 2 <;> simp [last]
  ending := ⟨_, _, rfl, rfl, rfl⟩

theorem shortTurn_reordering : BoundedReordering [2, 1, 2] := by
  intro earlier k later split j positive far
  have member : k ∈ [(2 : ℤ), 1, 2] := by rw [split]; simp
  have small : k ≤ 2 := by
    simp only [List.mem_cons, List.not_mem_nil, or_false] at member
    omega
  unfold gapMax at far
  omega

theorem turn_delivered_swapped :
    Completed (shortTurn "hello") (deliver ([2, 1, 2].map (shortTurn "hello").message)).connection := by
  have inTurn : ∀ k ∈ [(2 : ℤ), 1, 2], 1 ≤ k ∧ k ≤ (shortTurn "hello").last := by decide
  have all : ∀ k, 1 ≤ k → k ≤ (shortTurn "hello").last → k ∈ [(2 : ℤ), 1, 2] := by
    intro k positive bounded
    change k ≤ 2 at bounded
    simp only [List.mem_cons, List.not_mem_nil, or_false]
    omega
  refine ((turn_delivered (shortTurn "hello") [2, 1, 2] inTurn).2 shortTurn_reordering all).mpr ?_
  rintro k - - ⟨resp, answered, -, content⟩
  by_cases last : k = 2
  · simp [shortTurn, last] at answered
    simp [← answered] at content
  · simp [shortTurn, last] at answered
    simp [← answered] at content

/-- An empty text before the end of the turn: the turn is never finished. -/
theorem turn_not_delivered :
    BoundedReordering [2, 1, 2] ∧
      (∀ k, 1 ≤ k → k ≤ (shortTurn "").last → k ∈ [(2 : ℤ), 1, 2]) ∧
      ¬ Completed (shortTurn "") (deliver ([2, 1, 2].map (shortTurn "").message)).connection := by
  refine ⟨shortTurn_reordering, ?_, ?_⟩
  · intro k positive bounded
    change k ≤ 2 at bounded
    simp only [List.mem_cons, List.not_mem_nil, or_false]
    omega
  · rintro ⟨-, chunks, events, -⟩
    have silent : (deliver ([2, 1, 2].map (shortTurn "").message)).connection.events = [] := by
      decide
    rw [silent] at events
    simp at events

end Turn

end Sico.Chat
