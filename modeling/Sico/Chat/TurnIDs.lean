import Mathlib.Data.List.Nodup
import Mathlib.Data.Int.Order.Basic
import Sico.Foundation.System

/-! # The numbers of turns

A chat request takes the number after the latest one that is stored for its conversation, and
stores its message under this number in a second step. Between the two steps another request may
read the same latest number. A request whose lookup fails takes the number zero, stores nothing
and goes on.

Any number of requests are under way. A write that fails may have stored its message all the
same, and the responses of an accepted turn are stored under its number at any time.
-/

namespace Sico.Chat

open Foundation

inductive Stage
  | pending
  | accepted
  | refused
  deriving DecidableEq, Repr

/-- A chat request behind its lookup. -/
structure TurnRequest where
  turnID : ℤ
  stage : Stage := .pending
  deriving DecidableEq, Repr

/-- The numbers under which messages of the conversation are stored, and the requests so far. -/
structure Turns where
  messages : List ℤ := []
  requests : List TurnRequest := []

/-- How the write of a message ends. -/
inductive Write
  | done
  | failed
  | failedStored
  deriving DecidableEq, Repr

namespace Turns

def getLatestTurnID (turns : Turns) : ℤ := turns.messages.max?.getD 0

/-- `nextTurnID`, whose lookup may fail. -/
def nextTurnID (turns : Turns) (failed : Bool) : ℤ := if failed then 0 else turns.getLatestTurnID + 1

/-- `persistChatUserMessage`, and what becomes of the request. -/
def persistChatUserMessage (turns : Turns) (position : ℕ) (turnID : ℤ) (write : Write) : Turns :=
  if turnID = 0 then { turns with requests := turns.requests.set position { turnID, stage := .accepted } }
  else
    match write with
    | .done =>
        { messages := turns.messages ++ [turnID]
          requests := turns.requests.set position { turnID, stage := .accepted } }
    | .failed => { turns with requests := turns.requests.set position { turnID, stage := .refused } }
    | .failedStored =>
        { messages := turns.messages ++ [turnID]
          requests := turns.requests.set position { turnID, stage := .refused } }

inductive Label where
  /-- A request arrives and looks up the latest number. -/
  | lookup (failed : Bool)
  | persist (position : ℕ) (write : Write)
  /-- A response of an accepted turn is stored. -/
  | respond (position : ℕ)

def next (turns : Turns) : Label → Option Turns
  | .lookup failed =>
      some { turns with requests := turns.requests ++ [{ turnID := turns.nextTurnID failed }] }
  | .persist position write => do
      let request ← turns.requests[position]?
      if request.stage = .pending then some (turns.persistChatUserMessage position request.turnID write) else none
  | .respond position => do
      let request ← turns.requests[position]?
      if request.stage = .accepted then some { turns with messages := turns.messages ++ [request.turnID] } else none

def system : System Turns Label := System.ofNext next

def acceptedTurn (request : TurnRequest) : Option ℤ :=
  if request.stage = .accepted then some request.turnID else none

def accepted (turns : Turns) : List ℤ := turns.requests.filterMap acceptedTurn

/-- A lookup that meets no other request with its number: none that still has to store its
message, and for the number of a failed lookup none that is not refused. -/
def Careful (turns : Turns) : Label → Prop
  | .lookup false =>
      ∀ request ∈ turns.requests, request.stage = .pending → request.turnID ≠ turns.getLatestTurnID + 1
  | .lookup true => ∀ request ∈ turns.requests, request.stage ≠ .refused → request.turnID ≠ 0
  | _ => True

instance (turns : Turns) (label : Label) : Decidable (turns.Careful label) := by
  unfold Careful
  split <;> infer_instance

variable {turns target : Turns} {label : Label}

/-- The number of a request that is not refused. -/
def liveTurn (request : TurnRequest) : Option ℤ :=
  if request.stage = .refused then none else some request.turnID

/-- No two requests that may be accepted have the same number, and the numbers of the accepted
ones are stored, but for zero. -/
structure Sound (turns : Turns) : Prop where
  distinct : (turns.requests.filterMap liveTurn).Nodup
  stored : ∀ request ∈ turns.requests, request.stage = .accepted →
    request.turnID = 0 ∨ request.turnID ∈ turns.messages
  messages : ∀ turnID ∈ turns.messages, 0 ≤ turnID
  requests : ∀ request ∈ turns.requests, 0 ≤ request.turnID

theorem le_getLatestTurnID {turnID : ℤ} (listed : turnID ∈ turns.messages) : turnID ≤ turns.getLatestTurnID := by
  unfold getLatestTurnID
  cases greatest : turns.messages.max? with
  | none =>
      rw [List.max?_eq_none_iff.mp greatest] at listed
      cases listed
  | some top => exact (List.max?_eq_some_iff.mp greatest).2 turnID listed

theorem Sound.getLatestTurnID_nonneg (sound : turns.Sound) : 0 ≤ turns.getLatestTurnID := by
  unfold getLatestTurnID
  cases greatest : turns.messages.max? with
  | none => exact le_rfl
  | some top => exact sound.messages top (List.max?_mem greatest)

theorem Sound.fresh (sound : turns.Sound) {failed : Bool} (careful : turns.Careful (.lookup failed)) :
    turns.nextTurnID failed ∉ turns.requests.filterMap liveTurn := by
  intro listed
  obtain ⟨request, there, live⟩ := List.mem_filterMap.mp listed
  unfold liveTurn at live
  split at live
  · cases live
  · next notRefused =>
      have same := Option.some.inj live
      cases failed with
      | true => exact careful request there notRefused same
      | false =>
          change request.turnID = turns.getLatestTurnID + 1 at same
          have latest := sound.getLatestTurnID_nonneg
          cases stage : request.stage with
          | pending => exact careful request there stage same
          | refused => exact notRefused stage
          | accepted =>
              rcases sound.stored request there stage with zero | stored
              · omega
              · have below := le_getLatestTurnID stored
                omega

theorem Sound.lookup (sound : turns.Sound) {failed : Bool} (careful : turns.Careful (.lookup failed)) :
    Sound { turns with requests := turns.requests ++ [{ turnID := turns.nextTurnID failed }] } where
  distinct := by
    have fresh := sound.fresh careful
    rw [List.filterMap_append]
    apply List.Nodup.append sound.distinct (List.nodup_singleton _)
    intro turnID listed new
    rw [List.mem_singleton.mp new] at listed
    exact fresh listed
  stored := by
    intro request listed accepted
    rcases List.mem_append.mp listed with earlier | new
    · exact sound.stored request earlier accepted
    · rw [List.mem_singleton.mp new] at accepted
      cases accepted
  messages := sound.messages
  requests := by
    intro request listed
    rcases List.mem_append.mp listed with earlier | new
    · exact sound.requests request earlier
    · rw [List.mem_singleton.mp new]
      have latest := sound.getLatestTurnID_nonneg
      unfold nextTurnID
      dsimp only
      split
      · exact le_rfl
      · omega

theorem sublist_filterMap_set {requests : List TurnRequest} {position : ℕ} {request moved : TurnRequest}
    (here : requests[position]? = some request)
    (same : liveTurn moved = liveTurn request ∨ liveTurn moved = none) :
    ((requests.set position moved).filterMap liveTurn).Sublist (requests.filterMap liveTurn) := by
  induction requests generalizing position with
  | nil => cases here
  | cons first rest ih =>
      cases position with
      | zero =>
          obtain rfl := Option.some.inj here
          rw [List.set_cons_zero, List.filterMap_cons, List.filterMap_cons]
          rcases same with same | none
          · rw [same]
          · rw [none]
            dsimp only
            split
            · exact List.Sublist.refl _
            · exact List.sublist_cons_self _ _
      | succ position =>
          rw [List.set_cons_succ, List.filterMap_cons, List.filterMap_cons]
          have below : ((rest.set position moved).filterMap liveTurn).Sublist (rest.filterMap liveTurn) := ih here
          split
          · exact below
          · exact below.cons_cons _

/-- A pending request is accepted or refused under its number, and messages under its number may
be stored. -/
theorem Sound.settle (sound : turns.Sound) {position : ℕ} {request : TurnRequest} {stage : Stage}
    {messages : List ℤ} (here : turns.requests[position]? = some request) (pending : request.stage = .pending)
    (kept : ∀ turnID ∈ turns.messages, turnID ∈ messages)
    (grown : ∀ turnID ∈ messages, turnID ∈ turns.messages ∨ turnID = request.turnID)
    (stored : stage = .accepted → request.turnID = 0 ∨ request.turnID ∈ messages) :
    Sound { messages, requests := turns.requests.set position { turnID := request.turnID, stage } } where
  distinct := by
    apply (sublist_filterMap_set here _).nodup sound.distinct
    unfold liveTurn
    dsimp only
    rw [pending]
    by_cases refused : stage = .refused
    · exact .inr (if_pos refused)
    · exact .inl (by rw [if_neg refused, if_neg (by decide)])
  stored := by
    intro other listed accepted
    rcases List.mem_or_eq_of_mem_set listed with earlier | rfl
    · rcases sound.stored other earlier accepted with zero | there
      · exact .inl zero
      · exact .inr (kept _ there)
    · exact stored accepted
  messages := by
    intro turnID listed
    rcases grown turnID listed with earlier | rfl
    · exact sound.messages turnID earlier
    · exact sound.requests request (List.mem_of_getElem? here)
  requests := by
    intro other listed
    rcases List.mem_or_eq_of_mem_set listed with earlier | rfl
    · exact sound.requests other earlier
    · exact sound.requests request (List.mem_of_getElem? here)

theorem Sound.persist (sound : turns.Sound) {position : ℕ} {request : TurnRequest}
    (here : turns.requests[position]? = some request) (pending : request.stage = .pending) (write : Write) :
    (turns.persistChatUserMessage position request.turnID write).Sound := by
  have appended (turnID : ℤ) (listed : turnID ∈ turns.messages ++ [request.turnID]) :
      turnID ∈ turns.messages ∨ turnID = request.turnID :=
    (List.mem_append.mp listed).imp_right List.mem_singleton.mp
  unfold persistChatUserMessage
  split
  · next zero => exact sound.settle here pending (fun _ there => there) (fun _ there => .inl there) fun _ => .inl zero
  · cases write with
    | done =>
        apply sound.settle here pending (fun _ there => List.mem_append_left _ there) appended
        exact fun _ => .inr (by simp)
    | failed =>
        exact sound.settle here pending (fun _ there => there) (fun _ there => .inl there) fun accepted => by cases accepted
    | failedStored =>
        apply sound.settle here pending (fun _ there => List.mem_append_left _ there) appended
        exact fun accepted => by cases accepted

theorem Sound.respond (sound : turns.Sound) {request : TurnRequest} (listed : request ∈ turns.requests) :
    Sound { turns with messages := turns.messages ++ [request.turnID] } where
  distinct := sound.distinct
  stored := by
    intro other there accepted
    exact (sound.stored other there accepted).imp_right (List.mem_append_left _)
  messages := by
    intro turnID there
    rcases List.mem_append.mp there with earlier | new
    · exact sound.messages turnID earlier
    · rw [List.mem_singleton.mp new]
      exact sound.requests request listed
  requests := sound.requests

theorem Sound.step (sound : turns.Sound) (step : (system.restrict Careful).step turns label target) :
    target.Sound := by
  obtain ⟨careful, step⟩ := step
  cases label with
  | lookup failed =>
      obtain rfl := Option.some.inj step
      exact sound.lookup careful
  | persist position write =>
      obtain ⟨request, here, step⟩ := Option.bind_eq_some_iff.mp step
      obtain ⟨pending, step⟩ := Option.ite_none_right_eq_some.mp step
      obtain rfl := Option.some.inj step
      exact sound.persist here pending write
  | respond position =>
      obtain ⟨request, here, step⟩ := Option.bind_eq_some_iff.mp step
      obtain ⟨-, step⟩ := Option.ite_none_right_eq_some.mp step
      obtain rfl := Option.some.inj step
      exact sound.respond (List.mem_of_getElem? here)

theorem opening_sound : Sound {} where
  distinct := List.nodup_nil
  stored request listed := by cases listed
  messages turnID listed := by cases listed
  requests request listed := by cases listed

theorem accepted_sublist (turns : Turns) : turns.accepted.Sublist (turns.requests.filterMap liveTurn) := by
  unfold accepted
  induction turns.requests with
  | nil => exact List.Sublist.refl _
  | cons request rest ih =>
      rw [List.filterMap_cons, List.filterMap_cons]
      unfold acceptedTurn liveTurn
      cases stage : request.stage with
      | pending => exact ih.cons _
      | accepted => exact ih.cons_cons _
      | refused => exact ih

/-- No two accepted requests have the same number, as long as no lookup meets another request
with its number. -/
theorem accepted_nodup {labels : List Label} (run : (system.restrict Careful).Run {} labels turns) :
    turns.accepted.Nodup := by
  have sound : turns.Sound := run.preserves Sound (fun _ _ _ sound step => sound.step step) opening_sound
  exact (accepted_sublist turns).nodup sound.distinct

/-- Three requests one after another, the second of them with a failed lookup. -/
def inTurn : List Label :=
  [.lookup false, .persist 0 .done, .lookup true, .persist 1 .done, .respond 0, .lookup false, .persist 2 .done]

theorem inTurn_nodup :
    (system.restrict Careful).Run {} inTurn (System.after (System.guarded Careful next) {} inTurn) ∧
      (System.after (System.guarded Careful next) {} inTurn).accepted.Nodup := by
  have run : (system.restrict Careful).Run {} inTurn (System.after (System.guarded Careful next) {} inTurn) :=
    .ofGuarded Careful (by decide)
  exact ⟨run, accepted_nodup run⟩

/-- Two requests that look up the latest number before either has stored its message. -/
def atOnce : List Label := [.lookup false, .lookup false, .persist 0 .done, .persist 1 .done]

theorem atOnce_same :
    system.Run {} atOnce (System.after next {} atOnce) ∧ ¬ (System.after next {} atOnce).accepted.Nodup :=
  ⟨.ofNext (by decide), by decide⟩

end Turns

end Sico.Chat
