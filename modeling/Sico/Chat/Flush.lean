import Mathlib.Tactic.Common
import Sico.Chat.Connection

/-! # What a flush does

A flush goes over the buffered messages in order. It either sends the next one, which moves
`sentSeq` there, or it stops. When no message is more than `gapMax` ahead, only the next
number can be sent, and the flush sends a run of consecutive numbers (`Advance`).
-/

namespace Sico.Chat

open Foundation

def ChatConnection.process (connection : ChatConnection) (seq : ℤ) (topicMessage : TopicMessage) :
    ChatConnection :=
  { sentSeq := seq
    bufferedTopicMessages := connection.bufferedTopicMessages.erase seq
    processed := connection.processed ++ [seq]
    events := connection.events ++ topicMessage.emitted seq }

def ChatConnection.buffer (connection : ChatConnection) (topicMessage : TopicMessage) :
    ChatConnection :=
  { connection with
    bufferedTopicMessages := connection.bufferedTopicMessages.insert topicMessage.seq topicMessage }

theorem push_cases (topicMessage : TopicMessage) (connection : ChatConnection) :
    (∃ outcome ≠ .panicked,
      tryPushChatResponseToConnection topicMessage connection = (connection, outcome) ∧
      (topicMessage.seq ≤ connection.sentSeq ∨
        topicMessage.seq ∈ connection.bufferedTopicMessages.keys)) ∨
    (connection.sentSeq < topicMessage.seq ∧
      topicMessage.seq ∉ connection.bufferedTopicMessages.keys ∧
      tryPushChatResponseToConnection topicMessage connection =
        tryFlushConnection (connection.buffer topicMessage) false) := by
  unfold tryPushChatResponseToConnection ChatConnection.addBufferedTopicMessage
  by_cases beyond : connection.sentSeq < topicMessage.seq
  · rw [if_pos beyond]
    by_cases present : (connection.bufferedTopicMessages.find? topicMessage.seq).isSome
    · have there : topicMessage.seq ∈ connection.bufferedTopicMessages.keys := by
        by_contra absent
        rw [SortedMap.find?_eq_none.mpr absent] at present
        cases present
      simp only [present, if_true]
      exact .inl ⟨_, by simp, rfl, .inr there⟩
    · have absent : topicMessage.seq ∉ connection.bufferedTopicMessages.keys := by
        rw [← SortedMap.find?_eq_none]
        simpa using present
      simp only [present]
      exact .inr ⟨beyond, absent, rfl⟩
  · rw [if_neg beyond]
    exact .inl ⟨_, by simp, rfl, .inl (not_lt.mp beyond)⟩

section Step

variable {connection : ChatConnection} {seq : ℤ} {topicMessage : TopicMessage}
  {rest : List (ℤ × TopicMessage)} {keys : List ℤ}

theorem process_entries
    (first : connection.bufferedTopicMessages.entries = (seq, topicMessage) :: rest) :
    (connection.process seq topicMessage).bufferedTopicMessages.entries = rest :=
  SortedMap.erase_head first

theorem flushKeys_cons
    (first : connection.bufferedTopicMessages.entries = (seq, topicMessage) :: rest)
    (new : connection.sentSeq < seq) :
    flushKeys false (seq :: keys) connection =
      if seq = connection.sentSeq + 1 ∨ connection.sentSeq + gapMax < seq then
        if topicMessage.outcome = .pending then
          flushKeys false keys (connection.process seq topicMessage)
        else (connection.process seq topicMessage, topicMessage.outcome)
      else (connection, .pending) := by
  have found : connection.bufferedTopicMessages.find? seq = some topicMessage := by
    rw [SortedMap.find?_eq_some, first]
    exact List.mem_cons_self
  rw [flushKeys, if_neg (not_le.mpr new), found]
  dsimp only
  rw [flushTopicMessage_eq]
  by_cases sendable : seq = connection.sentSeq + 1 ∨ connection.sentSeq + gapMax < seq
  · have allowed : canSend false connection.sentSeq seq = true := by simpa [canSend] using sendable
    rw [if_pos sendable, if_pos allowed]
    cases ends : topicMessage.outcome with
    | pending => rfl
    | finished => rfl
    | failed error => rfl
    | panicked => rfl
  · have refused : ¬ canSend false connection.sentSeq seq = true := by
      simpa [canSend] using sendable
    rw [if_neg sendable, if_neg refused]

end Step

/-- The messages of `run` were flushed, those of `rest` stay. -/
structure Advance (connection next : ChatConnection) (run rest : List (ℤ × TopicMessage)) :
    Prop where
  entries : connection.bufferedTopicMessages.entries = run ++ rest
  remaining : next.bufferedTopicMessages.entries = rest
  consecutive : run.map Prod.fst = (List.range run.length).map fun i : ℕ => connection.sentSeq + 1 + i
  sentSeq : next.sentSeq = connection.sentSeq + run.length
  processed : next.processed = connection.processed ++ run.map Prod.fst
  events : next.events = connection.events ++ run.flatMap fun entry => entry.2.emitted entry.1

namespace Advance

variable {connection next : ChatConnection} {run rest : List (ℤ × TopicMessage)}

theorem refl (connection : ChatConnection) :
    Advance connection connection [] connection.bufferedTopicMessages.entries where
  entries := rfl
  remaining := rfl
  consecutive := rfl
  sentSeq := by simp
  processed := by simp
  events := by simp

theorem cons {seq : ℤ} {topicMessage : TopicMessage} {entries : List (ℤ × TopicMessage)}
    (first : connection.bufferedTopicMessages.entries = (seq, topicMessage) :: entries)
    (following : seq = connection.sentSeq + 1)
    (later : Advance (connection.process seq topicMessage) next run rest) :
    Advance connection next ((seq, topicMessage) :: run) rest where
  entries := by
    have same := later.entries
    rw [process_entries first] at same
    rw [first, same]
    rfl
  remaining := later.remaining
  consecutive := by
    have same := later.consecutive
    change _ = (List.range run.length).map fun i : ℕ => seq + 1 + i at same
    rw [List.map_cons, List.length_cons, List.range_succ_eq_map, List.map_cons, List.map_map, same]
    congr 1
    · simpa using following
    · apply List.map_congr_left
      intro i _
      simp only [Function.comp_apply, Nat.succ_eq_add_one]
      omega
  sentSeq := by
    rw [later.sentSeq, List.length_cons]
    change seq + _ = _
    omega
  processed := by
    rw [later.processed]
    simp [ChatConnection.process]
  events := by
    rw [later.events]
    simp [ChatConnection.process]

theorem mem_run (advance : Advance connection next run rest) (k : ℤ) :
    k ∈ run.map Prod.fst ↔ connection.sentSeq < k ∧ k ≤ next.sentSeq := by
  rw [advance.consecutive, advance.sentSeq, List.mem_map]
  constructor
  · rintro ⟨i, inside, rfl⟩
    have below := List.mem_range.mp inside
    omega
  · rintro ⟨above, below⟩
    refine ⟨(k - connection.sentSeq - 1).toNat, List.mem_range.mpr ?_, ?_⟩ <;> omega

theorem sentSeq_le (advance : Advance connection next run rest) :
    connection.sentSeq ≤ next.sentSeq := by
  have reached := advance.sentSeq
  omega

theorem beyond (advance : Advance connection next run rest)
    (new : ∀ entry ∈ connection.bufferedTopicMessages.entries, connection.sentSeq < entry.1)
    (entry : ℤ × TopicMessage) (stays : entry ∈ rest) : next.sentSeq < entry.1 := by
  by_contra reached
  have whole := advance.entries
  have later := new entry (whole ▸ List.mem_append_right _ stays)
  obtain ⟨twin, here, same⟩ :=
    List.mem_map.mp ((advance.mem_run entry.1).mpr ⟨later, not_lt.mp reached⟩)
  have ascending := connection.bufferedTopicMessages.ascending
  rw [whole] at ascending
  have apart := (List.pairwise_append.mp ascending).2.2 twin here entry stays
  omega

end Advance

/-- How the run of a flush ends: by the message that ends it, or before a number that is
not there. -/
def Ended (next : ChatConnection) (run rest : List (ℤ × TopicMessage)) (outcome : Outcome) : Prop :=
  (outcome = .pending ∧ (∀ entry ∈ run, entry.2.outcome = .pending) ∧
      next.sentSeq + 1 ∉ rest.map Prod.fst) ∨
    ∃ earlier last, run = earlier ++ [last] ∧ (∀ entry ∈ earlier, entry.2.outcome = .pending) ∧
      last.2.outcome = outcome ∧ outcome ≠ .pending

theorem flushKeys_near {bound : ℤ} {entries : List (ℤ × TopicMessage)} {connection : ChatConnection}
    (buffered : connection.bufferedTopicMessages.entries = entries)
    (new : ∀ entry ∈ entries, connection.sentSeq < entry.1)
    (bounded : ∀ entry ∈ entries, entry.1 ≤ bound)
    (near : bound ≤ connection.sentSeq + gapMax) :
    ∃ run rest, Advance connection (flushKeys false (entries.map Prod.fst) connection).1 run rest ∧
      Ended (flushKeys false (entries.map Prod.fst) connection).1 run rest
        (flushKeys false (entries.map Prod.fst) connection).2 := by
  induction entries generalizing connection with
  | nil =>
      have unchanged := Advance.refl connection
      rw [buffered] at unchanged
      exact ⟨[], [], unchanged, .inl ⟨rfl, by simp, by simp⟩⟩
  | cons entry entries ih =>
      obtain ⟨seq, topicMessage⟩ := entry
      have above : ∀ other ∈ entries, seq < other.1 := by
        have ascending := connection.bufferedTopicMessages.ascending
        rw [buffered, List.pairwise_cons] at ascending
        exact ascending.1
      have head : seq ≤ bound := bounded _ List.mem_cons_self
      have later : connection.sentSeq < seq := new _ List.mem_cons_self
      rw [List.map_cons, flushKeys_cons buffered later]
      by_cases following : seq = connection.sentSeq + 1
      · rw [if_pos (.inl following)]
        by_cases pending : topicMessage.outcome = .pending
        · rw [if_pos pending]
          have reach : bound ≤ (connection.process seq topicMessage).sentSeq + gapMax := by
            change bound ≤ seq + gapMax
            omega
          obtain ⟨run, rest, advance, ended⟩ := ih (process_entries buffered) above
            (fun other member => bounded other (List.mem_cons_of_mem _ member)) reach
          refine ⟨_, rest, advance.cons buffered following, ?_⟩
          rcases ended with ⟨open_, quiet, missing⟩ | ⟨earlier, last, rfl, quiet, ends⟩
          · exact .inl ⟨open_, by simpa [pending] using quiet, missing⟩
          · exact .inr ⟨(seq, topicMessage) :: earlier, last, rfl, by simpa [pending] using quiet,
              ends⟩
        · rw [if_neg pending]
          have one := Advance.refl (connection.process seq topicMessage)
          exact ⟨_, _, one.cons buffered following, .inr ⟨[], (seq, topicMessage), rfl, by simp,
            rfl, pending⟩⟩
      · have blocked : ¬ (seq = connection.sentSeq + 1 ∨ connection.sentSeq + gapMax < seq) := by
          omega
        rw [if_neg blocked]
        refine ⟨[], _, Advance.refl connection, .inl ⟨rfl, by simp, ?_⟩⟩
        rw [buffered, List.map_cons, List.mem_cons]
        rintro (same | member)
        · exact following same.symm
        · obtain ⟨other, there, same⟩ := List.mem_map.mp member
          have beyond := above other there
          change other.1 = connection.sentSeq + 1 at same
          omega

/-- **A flush with nothing far ahead.** It sends a run of consecutive numbers, up to a missing
one or to a message that ends it. -/
theorem tryFlush_near {connection : ChatConnection}
    (near : ∀ entry ∈ connection.bufferedTopicMessages.entries,
      connection.sentSeq < entry.1 ∧ entry.1 ≤ connection.sentSeq + gapMax) :
    ∃ run rest, Advance connection (tryFlushConnection connection false).1 run rest ∧
      Ended (tryFlushConnection connection false).1 run rest
        (tryFlushConnection connection false).2 :=
  flushKeys_near rfl (fun entry member => (near entry member).1)
    (fun entry member => (near entry member).2) le_rfl

end Sico.Chat
