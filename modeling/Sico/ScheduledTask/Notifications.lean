import Mathlib.Data.Fintype.Basic
import Mathlib.Logic.Function.Basic
import Sico.Foundation.System
import Sico.ScheduledTask.Repository

/-! # Notifications of scheduled runs

When a run is over, its creator is notified. Whoever dispatches the notification claims it by a
timestamp, has it created, and then writes its ID into the column with the extra info of the
run. A claim that is older than the claim duration is taken for that of a dispatcher that died.

A run that expired may be notified while its worker is still executing. The worker then
finishes the run, and writes the extra info from its own copy, which knows no notification: what
was sent looks like a claim that has become stale.
-/

namespace Sico.ScheduledTask.Notifications

open Foundation

/-- `notificationClaimDuration`, in milliseconds. -/
def notificationClaimDuration : ℤ := 120000

/-- `RunExtraInfo`, without what is written once and for all with the claim of the run. -/
structure RunExtraInfo where
  planStatus : ℤ := 0
  notificationID : ℤ := 0
  deriving Repr, DecidableEq

/-- The columns of a run that finishing and notifying read or write. -/
structure RunRow where
  status : RunStatus
  leaseExpiresAt : ℤ
  extraInfo : RunExtraInfo := {}
  notificationSentAt : ℤ := 0
  deriving Repr, DecidableEq

/-- Where a call of `dispatchNotification` stands. -/
inductive Phase where
  /-- No call so far, or one that has returned. -/
  | away
  /-- With a copy of the run. -/
  | holding (extraInfo : RunExtraInfo)
  | entered (claimedAt : ℤ)
  | prepared (claimedAt staleBefore : ℤ)
  /-- Behind a claim that succeeded, before `Create` answers. -/
  | claimed (claimedAt : ℤ)
  | failed (claimedAt : ℤ)
  | created (claimedAt notificationID : ℤ)
  /-- Inside the transaction of `MarkNotificationSent`, behind its read. -/
  | marking (claimedAt notificationID sentAt : ℤ) (extraInfo : RunExtraInfo)
  deriving Repr, DecidableEq

def Phase.claimedAt? : Phase → Option ℤ
  | .claimed claimedAt | .failed claimedAt | .created claimedAt _ | .marking claimedAt _ _ _ => some claimedAt
  | .away | .holding _ | .entered _ | .prepared _ _ => none

/-- The run, its worker while it has not finished, the dispatchers of all replicas, the time, and
how many notifications were created. -/
structure World (Dispatcher : Type) where
  row : RunRow
  executing : Bool
  dispatchers : Dispatcher → Phase
  clock : ℤ
  created : ℕ := 0

/-- What happens next. -/
inductive Action (Dispatcher : Type) where
  | tick (later : ℤ)
  | markRunRunning
  | heartbeatRun (leaseExpiresAt : ℤ)
  /-- `Claim`, for a later occurrence of the task, expires the run. -/
  | expire (now : ℤ)
  /-- The worker finishes the run, and goes on to notify. -/
  | finishRun (dispatcher : Dispatcher) (status : RunStatus) (planStatus : ℤ)
  | finishFails
  /-- `dispatchPendingNotifications`, with the time that it reads first. -/
  | list (dispatcher : Dispatcher) (now : ℤ)
  | enter (dispatcher : Dispatcher)
  | prepare (dispatcher : Dispatcher)
  | claim (dispatcher : Dispatcher)
  /-- `Create` answers, with the ID of the notification or an error. -/
  | answer (dispatcher : Dispatcher) (notificationID : Option ℤ)
  | release (dispatcher : Dispatcher)
  | read (dispatcher : Dispatcher) (sentAt : ℤ)
  | mark (dispatcher : Dispatcher)

namespace RunRow

/-- The condition of `ListPendingNotifications` and of `ClaimNotification`. -/
def isPending (row : RunRow) (staleBefore : ℤ) : Bool :=
  row.status.isFinished && (row.notificationSentAt = 0 ||
    row.notificationSentAt ≤ staleBefore && row.extraInfo.notificationID = 0)

/-- `FinishRun`. -/
def finish (row : RunRow) (status : RunStatus) (extraInfo : RunExtraInfo) : RunRow :=
  { row with status, extraInfo }

end RunRow

namespace World

variable {Dispatcher : Type} [DecidableEq Dispatcher]

def move (world : World Dispatcher) (dispatcher : Dispatcher) (phase : Phase) : World Dispatcher :=
  { world with dispatchers := Function.update world.dispatchers dispatcher phase }

def write (world : World Dispatcher) (row : RunRow) : World Dispatcher := { world with row }

def next (world : World Dispatcher) : Action Dispatcher → Option (World Dispatcher)
  | .tick later => if world.clock ≤ later then some { world with clock := later } else none
  | .markRunRunning =>
      if world.executing then some (world.write { world.row with status := .running }) else none
  | .heartbeatRun leaseExpiresAt =>
      if world.row.status = .running then some (world.write { world.row with leaseExpiresAt }) else some world
  | .expire now =>
      if now ≤ world.clock ∧ world.row.status.isActive ∧ world.row.leaseExpiresAt ≤ now then
        some (world.write { world.row with status := .failed })
      else none
  | .finishRun dispatcher status planStatus =>
      if world.executing ∧ status.isFinished ∧ world.dispatchers dispatcher = .away then
        -- the copy of the worker was made when the run was claimed
        let extraInfo : RunExtraInfo := { planStatus }
        some ({ world with executing := false, row := world.row.finish status extraInfo }.move dispatcher
          (.holding extraInfo))
      else none
  | .finishFails => if world.executing then some { world with executing := false } else none
  | .list dispatcher now =>
      if now ≤ world.clock ∧ world.dispatchers dispatcher = .away ∧
          world.row.isPending (now - notificationClaimDuration) then
        some (world.move dispatcher (.holding world.row.extraInfo))
      else none
  | .enter dispatcher =>
      match world.dispatchers dispatcher with
      | .holding extraInfo =>
          if extraInfo.notificationID ≠ 0 then some (world.move dispatcher .away)
          else some (world.move dispatcher (.entered world.clock))
      | _ => none
  | .prepare dispatcher =>
      match world.dispatchers dispatcher with
      | .entered claimedAt =>
          some (world.move dispatcher (.prepared claimedAt (world.clock - notificationClaimDuration)))
      | _ => none
  | .claim dispatcher =>
      match world.dispatchers dispatcher with
      | .prepared claimedAt staleBefore =>
          if world.row.isPending staleBefore then
            some ((world.write { world.row with notificationSentAt := claimedAt }).move dispatcher
              (.claimed claimedAt))
          else some (world.move dispatcher .away)
      | _ => none
  | .answer dispatcher notificationID =>
      match world.dispatchers dispatcher, notificationID with
      | .claimed claimedAt, none => some (world.move dispatcher (.failed claimedAt))
      | .claimed claimedAt, some notificationID =>
          if 0 < notificationID then
            some ({ world with created := world.created + 1 }.move dispatcher
              (.created claimedAt notificationID))
          else none
      | _, _ => none
  | .release dispatcher =>
      match world.dispatchers dispatcher with
      | .failed claimedAt =>
          let row := world.row
          some ((world.write (if row.notificationSentAt = claimedAt then { row with notificationSentAt := 0 }
            else row)).move dispatcher .away)
      | _ => none
  | .read dispatcher sentAt =>
      match world.dispatchers dispatcher with
      | .created claimedAt notificationID =>
          if claimedAt ≤ sentAt ∧ sentAt ≤ world.clock then
            some (world.move dispatcher (.marking claimedAt notificationID sentAt world.row.extraInfo))
          else none
      | _ => none
  | .mark dispatcher =>
      match world.dispatchers dispatcher with
      | .marking _ notificationID sentAt extraInfo =>
          some ((world.write { world.row with
            extraInfo := { extraInfo with notificationID }
            notificationSentAt := sentAt }).move dispatcher .away)
      | _ => none

/-- The replicas over one run. -/
def system : System (World Dispatcher) (Action Dispatcher) := System.ofNext next

/-- A run that was claimed and has not been started. -/
def opening (leaseExpiresAt clock : ℤ) : World Dispatcher :=
  { row := { status := .claimed, leaseExpiresAt }, executing := true, dispatchers := fun _ => .away, clock }

/-- A dispatcher that claims finishes within the claim duration: the time does not pass it, and it
claims before it has passed. -/
def Timely (world : World Dispatcher) : Action Dispatcher → Prop
  | .tick later => ∀ dispatcher, ∀ claimedAt ∈ (world.dispatchers dispatcher).claimedAt?,
      later < claimedAt + notificationClaimDuration
  | .claim dispatcher =>
      match world.dispatchers dispatcher with
      | .prepared claimedAt _ => world.clock < claimedAt + notificationClaimDuration
      | _ => True
  | _ => True

/-- The worker finishes the run before a notification of it is recorded as sent. -/
def FinishesFirst (world : World Dispatcher) : Action Dispatcher → Prop
  | .finishRun _ _ _ => world.row.extraInfo.notificationID = 0
  | _ => True

section Safety

variable {world after : World Dispatcher} {dispatcher : Dispatcher}

/-- How many notifications there are, with a claim held in a phase. -/
def createdIn : Phase → ℕ
  | .created _ _ | .marking _ _ _ _ => 1
  | _ => 0

/-- What a phase knows: times that have passed, and the ID of a notification. -/
def Knows (clock : ℤ) : Phase → Prop
  | .entered claimedAt => 0 < claimedAt
  | .prepared claimedAt staleBefore => 0 < claimedAt ∧ staleBefore + notificationClaimDuration ≤ clock
  | .created _ notificationID => 0 < notificationID
  | .marking claimedAt notificationID sentAt _ => 0 < notificationID ∧ claimedAt ≤ sentAt
  | _ => True

/-- The claim that is held is the only one, it is the one in the row and not stale, and nothing
is recorded as sent. -/
structure Held (world : World Dispatcher) (dispatcher : Dispatcher) (claimedAt : ℤ) : Prop where
  positive : 0 < claimedAt
  recent : world.clock < claimedAt + notificationClaimDuration
  recorded : world.row.notificationSentAt = claimedAt
  unsent : world.row.extraInfo.notificationID = 0
  created : world.created = createdIn (world.dispatchers dispatcher)
  alone : ∀ other, ((world.dispatchers other).claimedAt?).isSome → other = dispatcher

/-- While no claim is held, a notification was created if and only if it is recorded as sent. -/
def Settled (world : World Dispatcher) : Prop :=
  world.created = 0 ∧ world.row.extraInfo.notificationID = 0 ∨
    world.created = 1 ∧ world.row.extraInfo.notificationID ≠ 0 ∧ world.row.notificationSentAt ≠ 0

structure Sound (world : World Dispatcher) : Prop where
  started : 0 < world.clock
  knows : ∀ dispatcher, Knows world.clock (world.dispatchers dispatcher)
  held : ∀ dispatcher, ∀ claimedAt ∈ (world.dispatchers dispatcher).claimedAt?,
    world.Held dispatcher claimedAt
  settled : (∀ dispatcher, (world.dispatchers dispatcher).claimedAt? = none) → world.Settled

theorem Knows.later {phase : Phase} {clock later : ℤ} (knows : Knows clock phase) (passed : clock ≤ later) :
    Knows later phase := by
  cases phase with
  | prepared claimedAt staleBefore => exact ⟨knows.1, Int.le_trans knows.2 passed⟩
  | _ => exact knows

omit [DecidableEq Dispatcher] in
theorem Sound.created_le_one (sound : world.Sound) : world.created ≤ 1 := by
  by_cases free : ∀ dispatcher, (world.dispatchers dispatcher).claimedAt? = none
  · rcases sound.settled free with ⟨none, -⟩ | ⟨one, -⟩ <;> omega
  · obtain ⟨dispatcher, holds⟩ := not_forall.mp free
    obtain ⟨claimedAt, own⟩ := Option.ne_none_iff_exists'.mp holds
    rw [(sound.held dispatcher claimedAt own).created]
    cases world.dispatchers dispatcher <;> simp [createdIn]

omit [DecidableEq Dispatcher] in
theorem Sound.write (sound : world.Sound) {row : RunRow}
    (sameSentAt : row.notificationSentAt = world.row.notificationSentAt)
    (sameID : row.extraInfo.notificationID = world.row.extraInfo.notificationID) :
    (world.write row).Sound := by
  constructor
  · exact sound.started
  · exact sound.knows
  · intro dispatcher claimedAt own
    obtain ⟨positive, recent, recorded, unsent, created, alone⟩ := sound.held dispatcher claimedAt own
    exact ⟨positive, recent, sameSentAt.trans recorded, sameID.trans unsent, created, alone⟩
  · intro free
    rcases sound.settled free with ⟨none, unsent⟩ | ⟨one, sent, stamped⟩
    · exact .inl ⟨none, sameID.trans unsent⟩
    · exact .inr ⟨one, fun zero => sent (sameID.symm.trans zero), fun zero => stamped (sameSentAt.symm.trans zero)⟩

theorem Sound.move (sound : world.Sound) {phase : Phase}
    (before : (world.dispatchers dispatcher).claimedAt? = none) (after : phase.claimedAt? = none)
    (knows : Knows world.clock phase) : (world.move dispatcher phase).Sound := by
  have claims : ∀ other, ((world.move dispatcher phase).dispatchers other).claimedAt? =
      (world.dispatchers other).claimedAt? := by
    intro other
    unfold World.move
    dsimp only
    rw [Function.update_apply]
    split
    · next same => rw [same, before, after]
    · rfl
  constructor
  · exact sound.started
  · intro other
    unfold World.move
    dsimp only
    rw [Function.update_apply]
    split
    · exact knows
    · exact sound.knows other
  · intro other claimedAt own
    rw [claims] at own
    obtain ⟨positive, recent, recorded, unsent, created, alone⟩ := sound.held other claimedAt own
    refine ⟨positive, recent, recorded, unsent, ?_, fun third holds => alone third (by rw [← claims]; exact holds)⟩
    have different : other ≠ dispatcher := by
      rintro rfl
      rw [before] at own
      cases own
    unfold World.move
    dsimp only
    rw [Function.update_of_ne different]
    exact created
  · intro free
    exact sound.settled fun other => (claims other).symm.trans (free other)

theorem Sound.proceed (sound : world.Sound) {phase : Phase} {claimedAt : ℤ}
    (before : (world.dispatchers dispatcher).claimedAt? = some claimedAt)
    (after : phase.claimedAt? = some claimedAt) (knows : Knows world.clock phase) :
    ({ world with created := createdIn phase }.move dispatcher phase).Sound := by
  obtain ⟨positive, recent, recorded, unsent, -, alone⟩ := sound.held dispatcher claimedAt before
  have read : ∀ other, (Function.update world.dispatchers dispatcher phase) other =
      if other = dispatcher then phase else world.dispatchers other :=
    fun other => Function.update_apply ..
  constructor
  · exact sound.started
  · intro other
    unfold World.move
    dsimp only
    rw [read]
    split
    · exact knows
    · exact sound.knows other
  · intro other otherAt own
    have only : other = dispatcher := by
      by_contra different
      unfold World.move at own
      dsimp only at own
      rw [read, if_neg different] at own
      exact different (alone other (by rw [own]; rfl))
    subst only
    have sameAt : otherAt = claimedAt := by
      unfold World.move at own
      dsimp only at own
      rw [read, if_pos rfl, after] at own
      exact (Option.some.inj own).symm
    subst sameAt
    refine ⟨positive, recent, recorded, unsent, ?_, ?_⟩
    · unfold World.move
      dsimp only
      rw [read, if_pos rfl]
    · intro third holds
      by_contra different
      unfold World.move at holds
      dsimp only at holds
      rw [read, if_neg different] at holds
      exact different (alone third holds)
  · intro free
    have own := free dispatcher
    unfold World.move at own
    dsimp only at own
    rw [read, if_pos rfl, after] at own
    cases own

theorem Sound.finish (sound : world.Sound) {claimedAt : ℤ}
    (before : (world.dispatchers dispatcher).claimedAt? = some claimedAt) {row : RunRow}
    (settled : (world.write row).Settled) : ((world.write row).move dispatcher .away).Sound := by
  have alone := (sound.held dispatcher claimedAt before).alone
  have free : ∀ other, (((world.write row).move dispatcher .away).dispatchers other).claimedAt? = none := by
    intro other
    have read : ((world.write row).move dispatcher .away).dispatchers other =
        if other = dispatcher then .away else world.dispatchers other := Function.update_apply ..
    rw [read]
    split
    · rfl
    · next different =>
        by_contra holds
        exact different (alone other (Option.isSome_iff_ne_none.mpr holds))
  constructor
  · exact sound.started
  · intro other
    have read : ((world.write row).move dispatcher .away).dispatchers other =
        if other = dispatcher then .away else world.dispatchers other := Function.update_apply ..
    rw [read]
    split
    · trivial
    · exact sound.knows other
  · intro other claimedAt own
    rw [free other] at own
    cases own
  · exact fun _ => settled

theorem Sound.claim (sound : world.Sound) {claimedAt staleBefore : ℤ}
    (prepared : world.dispatchers dispatcher = .prepared claimedAt staleBefore)
    (timely : world.clock < claimedAt + notificationClaimDuration)
    (pending : world.row.isPending staleBefore) :
    ((world.write { world.row with notificationSentAt := claimedAt }).move dispatcher
      (.claimed claimedAt)).Sound := by
  have known := sound.knows dispatcher
  rw [prepared] at known
  obtain ⟨positive, stale⟩ := known
  have open_ : world.row.notificationSentAt = 0 ∨
      world.row.notificationSentAt ≤ staleBefore ∧ world.row.extraInfo.notificationID = 0 := by
    unfold RunRow.isPending at pending
    rw [Bool.and_eq_true, Bool.or_eq_true, Bool.and_eq_true] at pending
    simpa only [decide_eq_true_eq] using pending.2
  -- a claim that is held is younger than what counts as stale
  have free : ∀ other, (world.dispatchers other).claimedAt? = none := by
    intro other
    by_contra holds
    obtain ⟨otherAt, own⟩ := Option.ne_none_iff_exists'.mp holds
    obtain ⟨otherPositive, recent, recorded, -, -, -⟩ := sound.held other otherAt own
    omega
  have unsent : world.created = 0 ∧ world.row.extraInfo.notificationID = 0 := by
    rcases sound.settled free with none | ⟨-, sent, stamped⟩
    · exact none
    · rcases open_ with zero | ⟨-, zero⟩
      · exact absurd zero stamped
      · exact absurd zero sent
  have read : ∀ other, ((world.write { world.row with notificationSentAt := claimedAt }).move dispatcher
      (.claimed claimedAt)).dispatchers other =
        if other = dispatcher then .claimed claimedAt else world.dispatchers other :=
    fun other => Function.update_apply ..
  have only : ∀ other, ((((world.write { world.row with notificationSentAt := claimedAt }).move dispatcher
      (.claimed claimedAt)).dispatchers other).claimedAt?).isSome → other = dispatcher := by
    intro other holds
    by_contra different
    rw [read, if_neg different, free other] at holds
    cases holds
  constructor
  · exact sound.started
  · intro other
    rw [read]
    split
    · trivial
    · exact sound.knows other
  · intro other otherAt own
    obtain rfl := only other (by rw [own]; rfl)
    rw [read, if_pos rfl] at own
    obtain rfl := Option.some.inj own
    refine ⟨positive, timely, rfl, unsent.2, ?_, only⟩
    rw [read, if_pos rfl]
    exact unsent.1
  · intro none
    have own := none dispatcher
    rw [read, if_pos rfl] at own
    cases own

omit [DecidableEq Dispatcher] in
theorem Sound.tick (sound : world.Sound) {later : ℤ} (forward : world.clock ≤ later)
    (timely : world.Timely (.tick later)) : Sound { world with clock := later } := by
  constructor
  · exact Int.lt_of_lt_of_le sound.started forward
  · exact fun other => (sound.knows other).later forward
  · intro other claimedAt own
    obtain ⟨positive, -, recorded, unsent, created, alone⟩ := sound.held other claimedAt own
    exact ⟨positive, timely other claimedAt own, recorded, unsent, created, alone⟩
  · exact sound.settled

theorem Sound.step (sound : world.Sound) {action : Action Dispatcher} (timely : world.Timely action)
    (finishesFirst : world.FinishesFirst action) (step : world.next action = some after) : after.Sound := by
  cases action with
  | tick later =>
      obtain ⟨forward, ⟨⟩⟩ := Option.ite_none_right_eq_some.mp step
      exact sound.tick forward timely
  | markRunRunning =>
      obtain ⟨-, ⟨⟩⟩ := Option.ite_none_right_eq_some.mp step
      exact sound.write rfl rfl
  | heartbeatRun leaseExpiresAt =>
      dsimp only [next] at step
      split at step
      · obtain rfl := Option.some.inj step
        exact sound.write rfl rfl
      · obtain rfl := Option.some.inj step
        exact sound
  | expire now =>
      obtain ⟨-, ⟨⟩⟩ := Option.ite_none_right_eq_some.mp step
      exact sound.write rfl rfl
  | finishRun dispatcher status planStatus =>
      obtain ⟨⟨-, -, away⟩, ⟨⟩⟩ := Option.ite_none_right_eq_some.mp step
      have written : (world.write (world.row.finish status { planStatus })).Sound :=
        sound.write rfl (Eq.symm finishesFirst)
      have before : ((world.write (world.row.finish status { planStatus })).dispatchers dispatcher).claimedAt? =
          none := by
        unfold World.write
        dsimp only
        rw [away]
        rfl
      have moved := written.move before rfl (show Knows world.clock (.holding { planStatus }) from trivial)
      exact ⟨moved.started, moved.knows, fun other claimedAt own =>
        let held := moved.held other claimedAt own
        ⟨held.positive, held.recent, held.recorded, held.unsent, held.created, held.alone⟩, moved.settled⟩
  | finishFails =>
      obtain ⟨-, ⟨⟩⟩ := Option.ite_none_right_eq_some.mp step
      exact ⟨sound.started, sound.knows, fun other claimedAt own =>
        let held := sound.held other claimedAt own
        ⟨held.positive, held.recent, held.recorded, held.unsent, held.created, held.alone⟩, sound.settled⟩
  | list dispatcher now =>
      obtain ⟨⟨-, away, -⟩, ⟨⟩⟩ := Option.ite_none_right_eq_some.mp step
      exact sound.move (by rw [away]; rfl) rfl trivial
  | enter dispatcher =>
      dsimp only [next] at step
      split at step
      · next extraInfo holding =>
          have before : (world.dispatchers dispatcher).claimedAt? = none := by rw [holding]; rfl
          split at step
          · obtain rfl := Option.some.inj step
            exact sound.move before rfl trivial
          · obtain rfl := Option.some.inj step
            exact sound.move before rfl sound.started
      · cases step
  | prepare dispatcher =>
      dsimp only [next] at step
      split at step
      · next claimedAt entered =>
          have before : (world.dispatchers dispatcher).claimedAt? = none := by rw [entered]; rfl
          have known := sound.knows dispatcher
          rw [entered] at known
          obtain rfl := Option.some.inj step
          exact sound.move before rfl ⟨known, by omega⟩
      · cases step
  | claim dispatcher =>
      dsimp only [next] at step
      split at step
      · next claimedAt staleBefore prepared =>
          split at step
          · next pending =>
              obtain rfl := Option.some.inj step
              dsimp only [Timely] at timely
              rw [prepared] at timely
              exact sound.claim prepared timely pending
          · obtain rfl := Option.some.inj step
            exact sound.move (by rw [prepared]; rfl) rfl trivial
      · cases step
  | answer dispatcher notificationID =>
      dsimp only [next] at step
      split at step
      · next _ _ claimedAt claimed =>
          have before : (world.dispatchers dispatcher).claimedAt? = some claimedAt := by rw [claimed]; rfl
          have none : world.created = 0 := by
            rw [(sound.held dispatcher claimedAt before).created, claimed]
            rfl
          obtain rfl := Option.some.inj step
          have moved := sound.proceed before (show (Phase.failed claimedAt).claimedAt? = _ from rfl) trivial
          have same : { world with created := createdIn (.failed claimedAt) } = world := by
            rw [show createdIn (.failed claimedAt) = world.created from none.symm]
          rwa [same] at moved
      · next _ _ claimedAt id claimed =>
          have before : (world.dispatchers dispatcher).claimedAt? = some claimedAt := by rw [claimed]; rfl
          have none : world.created = 0 := by
            rw [(sound.held dispatcher claimedAt before).created, claimed]
            rfl
          obtain ⟨positive, ⟨⟩⟩ := Option.ite_none_right_eq_some.mp step
          rw [none]
          exact sound.proceed before rfl positive
      · cases step
  | release dispatcher =>
      dsimp only [next] at step
      split at step
      · next claimedAt failed =>
          have before : (world.dispatchers dispatcher).claimedAt? = some claimedAt := by rw [failed]; rfl
          have held := sound.held dispatcher claimedAt before
          have none : world.created = 0 := by
            rw [held.created, failed]
            rfl
          obtain rfl := Option.some.inj step
          apply sound.finish before
          left
          refine ⟨none, ?_⟩
          unfold World.write
          dsimp only
          split
          · exact held.unsent
          · exact held.unsent
      · cases step
  | read dispatcher sentAt =>
      dsimp only [next] at step
      split at step
      · next claimedAt id created =>
          have before : (world.dispatchers dispatcher).claimedAt? = some claimedAt := by rw [created]; rfl
          have known := sound.knows dispatcher
          rw [created] at known
          have one : world.created = 1 := by
            rw [(sound.held dispatcher claimedAt before).created, created]
            rfl
          obtain ⟨⟨since, -⟩, ⟨⟩⟩ := Option.ite_none_right_eq_some.mp step
          have moved := sound.proceed before
            (show (Phase.marking claimedAt id sentAt world.row.extraInfo).claimedAt? = _ from rfl) ⟨known, since⟩
          have same : { world with created := createdIn (.marking claimedAt id sentAt world.row.extraInfo) } =
              world := by
            rw [show createdIn (.marking claimedAt id sentAt world.row.extraInfo) = world.created from one.symm]
          rwa [same] at moved
      · cases step
  | mark dispatcher =>
      dsimp only [next] at step
      split at step
      · next claimedAt id sentAt extraInfo marking =>
          have before : (world.dispatchers dispatcher).claimedAt? = some claimedAt := by rw [marking]; rfl
          have held := sound.held dispatcher claimedAt before
          have known := sound.knows dispatcher
          rw [marking] at known
          have one : world.created = 1 := by
            rw [held.created, marking]
            rfl
          obtain rfl := Option.some.inj step
          apply sound.finish before
          right
          have positive := held.positive
          obtain ⟨positiveID, since⟩ := known
          refine ⟨one, ?_, ?_⟩
          · exact Int.ne_of_gt positiveID
          · exact Int.ne_of_gt (Int.lt_of_lt_of_le positive since)
      · cases step

omit [DecidableEq Dispatcher] in
theorem opening_sound {leaseExpiresAt clock : ℤ} (started : 0 < clock) :
    (opening leaseExpiresAt clock : World Dispatcher).Sound where
  started := started
  knows _ := trivial
  held _ _ own := by cases own
  settled _ := .inl ⟨rfl, rfl⟩

/-- In every run in which the dispatchers that claim are in time, and in which the worker finishes
the run before a notification is recorded as sent, at most one notification is created. -/
theorem created_at_most_once {leaseExpiresAt clock : ℤ} (started : 0 < clock) {actions : List (Action Dispatcher)}
    {final : World Dispatcher}
    (run : (system.restrict fun world action => world.Timely action ∧ world.FinishesFirst action).Run
      (opening leaseExpiresAt clock) actions final) : final.created ≤ 1 := by
  have sound : final.Sound := by
    apply run.preserves Sound
    · intro source action target sound step
      exact sound.step step.1.1 step.1.2 step.2
    · exact opening_sound started
  exact sound.created_le_one

section Examples

instance [Fintype Dispatcher] (world : World Dispatcher) : ∀ action, Decidable (world.Timely action)
  | .tick later => inferInstanceAs (Decidable (∀ dispatcher,
      ∀ claimedAt ∈ (world.dispatchers dispatcher).claimedAt?, later < claimedAt + notificationClaimDuration))
  | .claim dispatcher => by
      unfold Timely
      dsimp only
      split <;> infer_instance
  | .markRunRunning | .heartbeatRun _ | .expire _ | .finishRun _ _ _ | .finishFails | .list _ _ | .enter _
  | .prepare _ | .answer _ _ | .release _ | .read _ _ | .mark _ => .isTrue trivial

instance (world : World Dispatcher) : ∀ action, Decidable (world.FinishesFirst action)
  | .finishRun _ _ _ => inferInstanceAs (Decidable (world.row.extraInfo.notificationID = 0))
  | .tick _ | .claim _ | .markRunRunning | .heartbeatRun _ | .expire _ | .finishFails | .list _ _ | .enter _
  | .prepare _ | .answer _ _ | .release _ | .read _ _ | .mark _ => .isTrue trivial

def dispatch (dispatcher : Bool) (notificationID sentAt : ℤ) : List (Action Bool) :=
  [.enter dispatcher, .prepare dispatcher, .claim dispatcher, .answer dispatcher (some notificationID),
    .read dispatcher sentAt, .mark dispatcher]

/-- A dispatcher that claims is in time, and the worker finishes first. -/
def Prompt (world : World Bool) (action : Action Bool) : Prop := world.Timely action ∧ world.FinishesFirst action

instance (world : World Bool) (action : Action Bool) : Decidable (Prompt world action) :=
  inferInstanceAs (Decidable (_ ∧ _))

/-- A run that is finished and then notified, while a poll of another replica comes too late. -/
def prompt : List (Action Bool) :=
  [Action.markRunRunning, .tick 60000, .finishRun true .succeeded 3, .list false 60000] ++ dispatch true 1 60000 ++
    [Action.enter false, .prepare false, .claim false]

theorem created_at_most_once_prompt :
    (System.after (System.guarded Prompt next) (opening 120000 1) prompt).created ≤ 1 := by
  have run : (system.restrict Prompt).Run (opening 120000 1) prompt
      (System.after (System.guarded Prompt next) (opening 120000 1) prompt) :=
    .ofGuarded Prompt (by decide)
  exact created_at_most_once (by decide) run

/-- A run that expires and is notified by another replica, before its worker finishes it. -/
def expired : List (Action Bool) :=
  [Action.markRunRunning, .tick 120000, .expire 120000, .list false 120000] ++ dispatch false 1 120000 ++
    [Action.finishRun true .succeeded 3, .tick 240000] ++ dispatch true 2 240000

theorem expired_created_twice :
    ¬ ∀ (actions : List (Action Bool)) (final : World Bool),
      (system.restrict World.Timely).Run (opening 120000 1) actions final → final.created ≤ 1 := by
  intro once
  have run : (system.restrict Timely).Run (opening 120000 1) expired
      (System.after (System.guarded Timely next) (opening 120000 1) expired) :=
    .ofGuarded Timely (by decide)
  have created := once _ _ run
  exact absurd created (by decide)

end Examples

end Safety

end World

end Sico.ScheduledTask.Notifications
