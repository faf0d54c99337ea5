import Sico.AgentLoop.Logs

/-! # The event protocol of the native engine

Accounts of a log against the state of the loop: what was started, requested, invoked,
completed and charged so far. They hold between turns, each exchange of a turn is entered
in them, and every way out of the loop builds its final event from them. A run that stops
early, at any call, still keeps to the limits.
-/

namespace Sico.AgentLoop

open Foundation Interaction

section Reading

namespace AgentLoopEvent

def isModelTurnStarted : AgentLoopEvent → Bool
  | .modelTurnStarted _ => true
  | _ => false

def isToolCallCompleted : AgentLoopEvent → Bool
  | .toolCallCompleted _ _ _ => true
  | _ => false

def isLoopFinished : AgentLoopEvent → Bool
  | .loopFinished _ => true
  | _ => false

def requestedCallID : AgentLoopEvent → Option String
  | .toolCallRequested _ call => some call.callID
  | _ => none

/-- The usage of a model turn or an observation. -/
def usage : AgentLoopEvent → TokenUsage
  | .modelTurnCompleted _ usage _ => usage
  | .toolCallCompleted _ _ observation => observation.usage
  | _ => 0

end AgentLoopEvent

/-- Whether an exchange is the invocation of a tool. -/
def isInvocation : Exchange Request Request.Reply → Bool
  | ⟨.invoke _ _ _, _⟩ => true
  | _ => false

/-- Each requested call is followed directly by its completion. -/
def Paired (events : List AgentLoopEvent) : Prop :=
  ∀ before turn call after, events = before ++ AgentLoopEvent.toolCallRequested turn call :: after →
    ∃ observation rest, after = AgentLoopEvent.toolCallCompleted turn call observation :: rest

/-- A tool is in the tool set that is current behind a log: the one the controller has just
answered, with only the request of the call behind it, or the one that was given. -/
def InToolset (equipment : Equipment) (before : Log) (tool : BoundAgentTool) (call : CapabilityCall) :
    Prop :=
  if equipment.controlled then
    ∃ (earlier : Log) (toolset : AgentToolsetSnapshot) (turn : ℤ),
      before = earlier ++ [⟨.snapshot, .ok toolset⟩, ⟨.emit (.toolCallRequested turn call), ()⟩] ∧
        tool ∈ toolset.tools
  else
    tool ∈ equipment.tools

/-- Every invoked tool is in the tool set that is current at that moment. -/
def InvokesCurrent (equipment : Equipment) (log : Log) : Prop :=
  ∀ before tool call snapshot reply after,
    log = before ++ ⟨.invoke tool call snapshot, reply⟩ :: after → InToolset equipment before tool call

theorem paired_single {event : AgentLoopEvent} (other : event.requestedCallID = none) :
    Paired [event] := by
  intro before turn call after split
  cases before with
  | nil =>
      obtain ⟨rfl, -⟩ := List.cons.inj split
      cases other
  | cons first rest => simp at split

theorem paired_call (turn : ℤ) (call : CapabilityCall) (observation : Observation) :
    Paired [.toolCallRequested turn call, .toolCallCompleted turn call observation] := by
  intro before turn' call' after split
  cases before with
  | nil =>
      obtain ⟨same, rfl⟩ := List.cons.inj split
      cases same
      exact ⟨observation, [], rfl⟩
  | cons first rest =>
      obtain ⟨-, split⟩ := List.cons.inj split
      cases rest with
      | nil => cases split
      | cons second rest => simp at split

theorem Paired.append {first second : List AgentLoopEvent} (front : Paired first)
    (back : Paired second) : Paired (first ++ second) := by
  intro before turn call after split
  rcases List.append_eq_append_iff.mp split with ⟨middle, rfl, later⟩ | ⟨middle, rfl, later⟩
  · exact back middle turn call after later
  · cases middle with
    | nil => exact back [] turn call after later.symm
    | cons head middle =>
        obtain ⟨rfl, rfl⟩ := List.cons.inj later
        obtain ⟨observation, rest, rfl⟩ := front before turn call middle rfl
        exact ⟨observation, rest ++ second, rfl⟩

theorem InvokesCurrent.snoc {equipment : Equipment} {log : Log}
    {exchange : Exchange Request Request.Reply} (current : InvokesCurrent equipment log)
    (last : ∀ tool call snapshot reply, exchange = ⟨.invoke tool call snapshot, reply⟩ →
      InToolset equipment log tool call) : InvokesCurrent equipment (log ++ [exchange]) := by
  intro before tool call snapshot reply after split
  rcases List.append_eq_append_iff.mp split with ⟨middle, rfl, later⟩ | ⟨middle, rfl, later⟩
  · cases middle with
    | nil =>
        rw [List.append_nil]
        exact last tool call snapshot reply (List.cons.inj later).1
    | cons head middle => simp at later
  · cases middle with
    | nil =>
        rw [List.append_nil] at last
        exact last tool call snapshot reply (List.cons.inj later.symm).1
    | cons head middle =>
        obtain ⟨rfl, -⟩ := List.cons.inj later
        exact current before tool call snapshot reply middle rfl

end Reading

section Accounting

/-- What a log keeps to at any moment, with the number of turns that may have started. -/
structure Safe (equipment : Equipment) (request : AgentLoopRequest) (turns : ℕ) (log : Log) : Prop where
  started : log.events.countP AgentLoopEvent.isModelTurnStarted ≤ turns
  invoked : ∀ maxToolCalls, request.limits.maxToolCalls = some maxToolCalls →
    (log.countP isInvocation : ℤ) ≤ max 0 maxToolCalls
  distinct : (log.events.filterMap AgentLoopEvent.requestedCallID).Nodup
  current : InvokesCurrent equipment log

/-- What a log says about the state of the loop. -/
structure Accounts (equipment : Equipment) (request : AgentLoopRequest) (turns : ℕ)
    (progress : Progress) (log : Log) : Prop extends Safe equipment request turns log where
  unfinished : ∀ event ∈ log.events, event.isLoopFinished = false
  paired : Paired log.events
  calls : (log.countP isInvocation : ℤ) = progress.toolCalls
  completed : (log.events.countP AgentLoopEvent.isToolCallCompleted : ℤ) = progress.toolCalls
  used : ∀ id ∈ log.events.filterMap AgentLoopEvent.requestedCallID, id ∈ progress.usedCallIDs
  charged : progress.usage = (log.events.map AgentLoopEvent.usage).sum

/-- An exchange that starts, requests and invokes nothing. -/
def isSilent : Exchange Request Request.Reply → Bool
  | ⟨.emit event, _⟩ => !event.isModelTurnStarted && event.requestedCallID.isNone
  | ⟨.invoke _ _ _, _⟩ => false
  | _ => true

variable {equipment : Equipment} {request : AgentLoopRequest} {turns : ℕ} {progress : Progress}
  {log : Log} {exchange : Exchange Request Request.Reply}

theorem isInvocation_of_silent (silent : isSilent exchange) : isInvocation exchange = false := by
  obtain ⟨asked, reply⟩ := exchange
  cases asked with
  | invoke tool call snapshot => cases silent
  | emit event => rfl
  | snapshot => rfl
  | beforeModel snapshot => rfl
  | completeTurn state => rfl
  | streamTurn state => rfl
  | evaluateCompletion proposal snapshot => rfl

theorem event_of_silent (silent : isSilent exchange) {event : AgentLoopEvent}
    (emitted : eventOf exchange = some event) :
    event.isModelTurnStarted = false ∧ event.requestedCallID = none := by
  obtain ⟨asked, reply⟩ := exchange
  cases asked with
  | emit shown =>
      obtain rfl := Option.some.inj emitted
      simpa [isSilent] using silent
  | invoke tool call snapshot => cases emitted
  | snapshot => cases emitted
  | beforeModel snapshot => cases emitted
  | completeTurn state => cases emitted
  | streamTurn state => cases emitted
  | evaluateCompletion proposal snapshot => cases emitted

theorem countP_isInvocation_snoc {log : Log} (other : isInvocation exchange = false) :
    List.countP isInvocation (log ++ [exchange]) = List.countP isInvocation log := by
  rw [List.countP_append, List.countP_cons_of_neg (by rw [other]; exact Bool.false_ne_true), List.countP_nil,
    Nat.add_zero]

theorem Safe.silent (safe : Safe equipment request turns log) (silent : isSilent exchange) :
    Safe equipment request turns (log ++ [exchange]) := by
  refine ⟨?_, ?_, ?_, ?_⟩
  · rw [Log.events_snoc]
    cases emitted : eventOf exchange with
    | none => simpa using safe.started
    | some event => simpa [(event_of_silent silent emitted).1] using safe.started
  · intro maxToolCalls limit
    rw [countP_isInvocation_snoc (isInvocation_of_silent silent)]
    exact safe.invoked maxToolCalls limit
  · rw [Log.events_snoc]
    cases emitted : eventOf exchange with
    | none => simpa using safe.distinct
    | some event => simpa [(event_of_silent silent emitted).2] using safe.distinct
  · refine safe.current.snoc fun tool call snapshot reply same => ?_
    rw [same] at silent
    cases silent

theorem Safe.later (safe : Safe equipment request turns log) {more : ℕ} (grows : turns ≤ more) :
    Safe equipment request more log :=
  ⟨safe.started.trans grows, safe.invoked, safe.distinct, safe.current⟩

theorem Safe.requested (safe : Safe equipment request turns log) (turn : ℤ) {call : CapabilityCall}
    (fresh : call.callID ∉ log.events.filterMap AgentLoopEvent.requestedCallID) :
    Safe equipment request turns (log ++ [⟨.emit (.toolCallRequested turn call), ()⟩]) := by
  refine ⟨?_, ?_, ?_, ?_⟩
  · rw [Log.events_snoc]
    simpa [eventOf, AgentLoopEvent.isModelTurnStarted] using safe.started
  · intro maxToolCalls limit
    rw [countP_isInvocation_snoc rfl]
    exact safe.invoked maxToolCalls limit
  · rw [Log.events_snoc, List.filterMap_append, List.nodup_append]
    refine ⟨safe.distinct, by simp [eventOf, AgentLoopEvent.requestedCallID], ?_⟩
    intro id listed other isNew
    have same : other = call.callID := by
      simpa [eventOf, AgentLoopEvent.requestedCallID, eq_comm] using isNew
    rintro rfl
    exact fresh (same ▸ listed)
  · exact safe.current.snoc fun _ _ _ _ same => by cases same

theorem Safe.invoke (safe : Safe equipment request turns log) {tool : BoundAgentTool}
    {call : CapabilityCall} (snapshot : AgentLoopSnapshot) (reply : Except Stop Observation)
    (below : ∀ maxToolCalls, request.limits.maxToolCalls = some maxToolCalls →
      (log.countP isInvocation : ℤ) < maxToolCalls)
    (current : InToolset equipment log tool call) :
    Safe equipment request turns (log ++ [⟨.invoke tool call snapshot, reply⟩]) := by
  refine ⟨?_, ?_, ?_, ?_⟩
  · rw [Log.events_snoc]
    simpa [eventOf] using safe.started
  · intro maxToolCalls limit
    have room := below maxToolCalls limit
    have counted : List.countP isInvocation (log ++ [⟨.invoke tool call snapshot, reply⟩]) =
        log.countP isInvocation + 1 := by
      rw [List.countP_append]
      rfl
    rw [counted]
    push_cast
    omega
  · rw [Log.events_snoc]
    simpa [eventOf] using safe.distinct
  · refine safe.current.snoc fun tool' call' snapshot' reply' same => ?_
    cases same
    exact current

theorem Accounts.enter (accounts : Accounts equipment request turns progress log) {more : ℕ}
    {event : AgentLoopEvent} {usage : TokenUsage}
    (safe : Safe equipment request more (log ++ [⟨.emit event, ()⟩]))
    (running : event.isLoopFinished = false) (requests : event.requestedCallID = none)
    (completes : event.isToolCallCompleted = false) (charges : event.usage = usage) :
    Accounts equipment request more (progress.charge usage) (log ++ [⟨.emit event, ()⟩]) := by
  have events : Log.events (log ++ [⟨.emit event, ()⟩]) = log.events ++ [event] := Log.events_snoc _ _
  refine ⟨safe, ?_, ?_, ?_, ?_, ?_, ?_⟩
  · rw [events]
    intro other member
    rcases List.mem_append.mp member with before | now
    · exact accounts.unfinished other before
    · obtain rfl := List.mem_singleton.mp now
      exact running
  · rw [events]
    exact accounts.paired.append (paired_single requests)
  · rw [List.countP_append]
    exact accounts.calls
  · rw [events, List.countP_append]
    simpa [completes, Progress.charge] using accounts.completed
  · rw [events, List.filterMap_append]
    simpa [requests, Progress.charge] using accounts.used
  · rw [events, List.map_append, List.sum_append, ← accounts.charged, List.map_singleton,
      List.sum_singleton, charges]
    rfl

theorem Accounts.notice (accounts : Accounts equipment request turns progress log)
    (event : AgentLoopEvent) (silent : isSilent ⟨.emit event, ()⟩)
    (running : event.isLoopFinished = false) (completes : event.isToolCallCompleted = false)
    (free : event.usage = 0) :
    Accounts equipment request turns progress (log ++ [⟨.emit event, ()⟩]) := by
  have entered := accounts.enter (accounts.toSafe.silent silent) running
    (event_of_silent silent rfl).2 completes free
  rwa [Progress.charge, add_zero] at entered

theorem Accounts.start (accounts : Accounts equipment request turns progress log) (turn : ℤ) :
    Accounts equipment request (turns + 1) progress (log ++ [⟨.emit (.modelTurnStarted turn), ()⟩]) := by
  have safe : Safe equipment request (turns + 1) (log ++ [⟨.emit (.modelTurnStarted turn), ()⟩]) := by
    obtain ⟨started, invoked, distinct, current⟩ := accounts.toSafe
    refine ⟨?_, ?_, ?_, ?_⟩
    · rw [Log.events_snoc, List.countP_append]
      exact Nat.add_le_add_right started 1
    · intro maxToolCalls limit
      rw [countP_isInvocation_snoc rfl]
      exact invoked maxToolCalls limit
    · rw [Log.events_snoc, List.filterMap_append]
      exact (List.append_nil _).symm ▸ distinct
    · exact current.snoc fun _ _ _ _ same => by cases same
  have free : (AgentLoopEvent.modelTurnStarted turn).usage = 0 := rfl
  have entered := accounts.enter safe rfl rfl rfl free
  rwa [Progress.charge, add_zero] at entered

theorem Accounts.asked (accounts : Accounts equipment request turns progress log)
    (exchange : Exchange Request Request.Reply) (silent : isSilent exchange) (eventless : eventOf exchange = none) :
    Accounts equipment request turns progress (log ++ [exchange]) := by
  have events : Log.events (log ++ [exchange]) = log.events := by
    rw [Log.events_snoc, eventless]
    exact List.append_nil _
  refine ⟨accounts.toSafe.silent silent, ?_, ?_, ?_, ?_, ?_, ?_⟩
  · rw [events]
    exact accounts.unfinished
  · rw [events]
    exact accounts.paired
  · rw [countP_isInvocation_snoc (isInvocation_of_silent silent)]
    exact accounts.calls
  · rw [events]
    exact accounts.completed
  · rw [events]
    exact accounts.used
  · rw [events]
    exact accounts.charged

theorem Accounts.call (accounts : Accounts equipment request turns progress log) {turn : ℤ}
    {call : CapabilityCall} {tool : BoundAgentTool} {snapshot : AgentLoopSnapshot}
    {observation recorded : Observation} (signature : String)
    (safe : Safe equipment request turns (log ++ [⟨.emit (.toolCallRequested turn call), ()⟩] ++
      [⟨.invoke tool call snapshot, .ok observation⟩])) :
    Accounts equipment request turns
      { progress.act recorded signature with
        usage := progress.usage + recorded.usage
        toolCalls := progress.toolCalls + 1
        usedCallIDs := insert call.callID progress.usedCallIDs }
      (log ++ [⟨.emit (.toolCallRequested turn call), ()⟩] ++
        [⟨.invoke tool call snapshot, .ok observation⟩] ++
        [⟨.emit (.toolCallCompleted turn call recorded), ()⟩]) := by
  have events : Log.events (log ++ [⟨.emit (.toolCallRequested turn call), ()⟩] ++
      [⟨.invoke tool call snapshot, .ok observation⟩] ++
      [⟨.emit (.toolCallCompleted turn call recorded), ()⟩]) =
        log.events ++ [AgentLoopEvent.toolCallRequested turn call, .toolCallCompleted turn call recorded] := by
    rw [Log.events_snoc, Log.events_snoc, Log.events_snoc, List.append_assoc, List.append_assoc]
    rfl
  refine ⟨safe.silent rfl, ?_, ?_, ?_, ?_, ?_, ?_⟩
  · rw [events]
    intro event member
    rcases List.mem_append.mp member with before | now
    · exact accounts.unfinished event before
    · rcases List.mem_cons.mp now with rfl | last
      · rfl
      · obtain rfl := List.mem_singleton.mp last
        rfl
  · rw [events]
    exact accounts.paired.append (paired_call turn call recorded)
  · have counted : List.countP isInvocation (log ++ [⟨.emit (.toolCallRequested turn call), ()⟩] ++
        [⟨.invoke tool call snapshot, .ok observation⟩] ++
        [⟨.emit (.toolCallCompleted turn call recorded), ()⟩]) = log.countP isInvocation + 1 := by
      rw [List.countP_append, List.countP_append, List.countP_append]
      rfl
    rw [counted, Nat.cast_succ, accounts.calls]
  · have counted : List.countP AgentLoopEvent.isToolCallCompleted
        [.toolCallRequested turn call, .toolCallCompleted turn call recorded] = 1 := rfl
    rw [events, List.countP_append, counted, Nat.cast_succ, accounts.completed]
  · rw [events, List.filterMap_append]
    intro id listed
    rcases List.mem_append.mp listed with before | now
    · exact Finset.mem_insert_of_mem (accounts.used id before)
    · obtain rfl : id = call.callID := List.mem_singleton.mp now
      exact Finset.mem_insert_self _ _
  · rw [events, List.map_append, List.sum_append, ← accounts.charged]
    have cost : (List.map AgentLoopEvent.usage
        [.toolCallRequested turn call, .toolCallCompleted turn call recorded]).sum =
          recorded.usage := by
      simp [AgentLoopEvent.usage]
    rw [cost]

end Accounting

section Turns

variable {rendering : Rendering} {equipment : Equipment} {request : AgentLoopRequest} {turns : ℕ}
  {progress : Progress} {log : Log}

def AskedAccounts (equipment : Equipment) (request : AgentLoopRequest) (turns : ℕ)
    (progress : Progress) (log : Log) : Except Stop (ℤ × AgentModelTurn) → Prop
  | .ok asked => Accounts equipment request turns (progress.charge asked.2.usage) log
  | .error _ => Safe equipment request turns log

theorem askModel_accounts (accounts : Accounts equipment request turns progress log) (turn : ℤ) :
    Holds (AskedAccounts equipment request (turns + 1) progress)
      (askModel equipment request turn progress).run log := by
  unfold askModel
  have early {log : Log} (held : Accounts equipment request turns progress log) :
      Safe equipment request (turns + 1) log := held.toSafe.later (Nat.le_succ turns)
  refine Holds.bind_run (fun log _ => Accounts equipment request turns progress log)
    (holds_currentToolset (fun _ _ => accounts.asked _ rfl rfl) fun _ => accounts)
    (fun _ _ held => early held) fun log toolset held => ?_
  refine holds_bind_run.mpr (holds_beforeModel.mpr fun reply => ?_)
  cases reply with
  | error stop => exact early (held.asked _ rfl rfl)
  | ok prepared =>
      refine holds_emit_bind.mpr (holds_emit_bind.mpr ?_)
      have begun := ((held.asked ⟨.beforeModel
        ⟨request, turn, progress.history, progress.usage, progress.toolCalls, toolset.revision⟩,
        .ok prepared⟩ rfl rfl).notice (.contextPrepared turn prepared.blocks.length)
          rfl rfl rfl rfl).start turn
      refine Holds.bind_run (fun log _ => Accounts equipment request (turns + 1) progress log)
        (keeps_streamModelTurn (fun _ _ held => held.asked _ rfl rfl)
          (fun _ _ held => held.asked _ rfl rfl) _ begun)
        (fun _ _ held => held.toSafe) fun log stream held => ?_
      refine Holds.bind_run (fun log _ => Accounts equipment request (turns + 1) progress log)
        (keeps_receiveTurn (fun _ content held => held.notice _ rfl rfl rfl rfl) _ _ _ held)
        (fun _ _ held => held.toSafe) fun log modelTurn held => ?_
      refine holds_emit_bind.mpr ?_
      exact held.enter (held.toSafe.silent rfl) rfl rfl rfl rfl

/-- The accounts behind a turn. A final event is built from them. -/
def TurnAccounts (equipment : Equipment) (request : AgentLoopRequest) (turns : ℕ) (log : Log) :
    Except Stop TurnEnd → Prop
  | .ok (.finished event) => ∃ progress, Accounts equipment request turns progress log ∧
      event.usage = progress.usage ∧ event.toolCalls = progress.toolCalls
  | .ok (.acted _ _ progress) => Accounts equipment request turns progress log
  | .error _ => Safe equipment request turns log

theorem Accounts.act (accounts : Accounts equipment request turns progress log)
    (observation : Observation) (signature : String) :
    Accounts equipment request turns (progress.act observation signature) log :=
  ⟨accounts.toSafe, accounts.unfinished, accounts.paired, accounts.calls, accounts.completed,
    accounts.used, accounts.charged⟩

theorem judge_accounts (accounts : Accounts equipment request turns progress log) (turn revision : ℤ)
    (answer : FinalAnswer) :
    Holds (TurnAccounts equipment request turns)
      (judge rendering request turn progress revision answer).run log := by
  unfold judge
  refine holds_bind_run.mpr (holds_evaluateCompletion.mpr fun reply => ?_)
  cases reply with
  | error stop => exact accounts.toSafe.silent rfl
  | ok directive =>
      refine holds_emit_bind.mpr ?_
      have proposed := (accounts.asked ⟨.evaluateCompletion answer
        ⟨request, turn, progress.history, progress.usage, progress.toolCalls, revision⟩,
        .ok directive⟩ rfl rfl).notice (.completionProposed turn answer directive) rfl rfl rfl rfl
      split
      · exact ⟨progress, proposed, rfl, rfl⟩
      · exact ⟨progress, proposed, rfl, rfl⟩
      · exact proposed.act _ _

theorem invokeTool_accounts (accounts : Accounts equipment request turns progress log)
    (turn revision toolsetRevision : ℤ) {call : CapabilityCall} {tool : BoundAgentTool}
    (fresh : call.callID ∉ progress.usedCallIDs)
    (below : ∀ maxToolCalls, request.limits.maxToolCalls = some maxToolCalls →
      progress.toolCalls < maxToolCalls)
    (current : InToolset equipment (log ++ [⟨.emit (.toolCallRequested turn call), ()⟩]) tool call) :
    Holds (TurnAccounts equipment request turns)
      (invokeTool rendering request turn progress revision call tool toolsetRevision).run log := by
  unfold invokeTool
  refine holds_emit_bind.mpr (holds_bind_run.mpr (holds_call.mpr fun reply => ?_))
  have requested := accounts.toSafe.requested turn fun listed => fresh (accounts.used _ listed)
  have room (maxToolCalls : ℤ) (limit : request.limits.maxToolCalls = some maxToolCalls) :
      (List.countP isInvocation (log ++ [⟨.emit (.toolCallRequested turn call), ()⟩]) : ℤ) <
        maxToolCalls := by
    rw [List.countP_append]
    exact accounts.calls ▸ below maxToolCalls limit
  have invoked (snapshot : AgentLoopSnapshot) := requested.invoke snapshot reply room current
  cases reply with
  | error stop => exact invoked _
  | ok observation => exact holds_emit_bind.mpr (accounts.call _ (invoked _))

theorem currentToolset_accounts (accounts : Accounts equipment request turns progress log) :
    Holds (fun log result => Accounts equipment request turns progress log ∧
        ∀ toolset, result = .ok toolset → ∀ tool ∈ toolset.tools, ∀ turn call,
          InToolset equipment (log ++ [⟨.emit (.toolCallRequested turn call), ()⟩]) tool call)
      (currentToolset equipment).run log := by
  refine holds_currentToolset (fun reply controlled => ?_) fun given => ?_
  · refine ⟨accounts.asked _ rfl rfl, fun toolset answered tool member turn call => ?_⟩
    rw [InToolset, if_pos controlled, answered]
    exact ⟨log, toolset, turn, List.append_assoc _ _ _, member⟩
  · refine ⟨accounts, fun toolset same tool member turn call => ?_⟩
    obtain rfl := Except.ok.inj same
    rw [InToolset, if_neg given]
    exact member

theorem dispatch_accounts (accounts : Accounts equipment request turns progress log)
    (turn revision : ℤ) (call : CapabilityCall) :
    Holds (TurnAccounts equipment request turns)
      (dispatch rendering equipment request turn progress revision call).run log := by
  unfold dispatch
  split
  · exact ⟨progress, accounts, rfl, rfl⟩
  · next fresh =>
    refine Holds.bind_run _ (currentToolset_accounts accounts) (fun _ _ held => held.1.toSafe) ?_
    intro log toolset held
    obtain ⟨accounts, current⟩ := held
    split
    · exact ⟨progress, accounts, rfl, rfl⟩
    · next tool bound =>
      have member := mem_of_boundTool bound
      unfold permit
      split
      · next unlimited =>
        refine invokeTool_accounts accounts turn revision _ fresh ?_ (current _ rfl tool member turn call)
        intro maxToolCalls limit
        rw [unlimited] at limit
        cases limit
      · next maxToolCalls limited =>
        split
        · exact ⟨progress, accounts, rfl, rfl⟩
        · next within =>
          refine invokeTool_accounts accounts turn revision _ fresh ?_ (current _ rfl tool member turn call)
          intro maxToolCalls' limit
          rw [limited] at limit
          obtain rfl := Option.some.inj limit
          exact not_le.mp within

theorem takeTurn_accounts (accounts : Accounts equipment request turns progress log) (turn : ℤ) :
    Holds (TurnAccounts equipment request (turns + 1))
      (takeTurn rendering equipment request turn progress).run log := by
  refine Holds.bind_run _ (askModel_accounts accounts turn) (fun _ _ safe => safe) ?_
  rintro log ⟨revision, modelTurn⟩ charged
  cases action : modelTurn.action with
  | answer answer =>
      simp only [action, follow]
      exact judge_accounts charged turn revision answer
  | invalid invalidAction =>
      simp only [action, follow]
      exact charged.act _ _
  | call call =>
      simp only [action, follow, perform]
      split
      · exact ⟨_, charged, rfl, rfl⟩
      · exact dispatch_accounts charged turn revision _

end Turns

section Runs

variable {equipment : Equipment} {request : AgentLoopRequest} {turns : ℕ} {progress : Progress}
  {log : Log}

/-- A log that ends with its only final event, whose figures are those of the log. -/
def Closed (log : Log) : Prop :=
  ∃ earlier final, log.events = earlier ++ [AgentLoopEvent.loopFinished final] ∧
    (∀ event ∈ earlier, event.isLoopFinished = false) ∧ Paired log.events ∧
      final.usage = (log.events.map AgentLoopEvent.usage).sum ∧
        final.toolCalls = (log.events.countP AgentLoopEvent.isToolCallCompleted : ℤ)

/-- What holds of a run that has started so many turns, however it ends. -/
def RunAccounts (equipment : Equipment) (request : AgentLoopRequest) (turns : ℕ) (log : Log)
    (ending : Except Stop Unit) : Prop :=
  Safe equipment request turns log ∧ (ending = .ok () → Closed log)

theorem Accounts.finish (accounts : Accounts equipment request turns progress log)
    {event : LoopFinishedEvent} (usage : event.usage = progress.usage)
    (toolCalls : event.toolCalls = progress.toolCalls) {more : ℕ} (grows : turns ≤ more) :
    Holds (RunAccounts equipment request more) (emit (.loopFinished event)).run log := by
  refine holds_emit.mpr ⟨(accounts.toSafe.silent rfl).later grows, fun _ => ?_⟩
  have events : Log.events (log ++ [⟨.emit (.loopFinished event), ()⟩]) =
      log.events ++ [AgentLoopEvent.loopFinished event] := Log.events_snoc _ _
  refine ⟨log.events, event, events, accounts.unfinished, ?_, ?_, ?_⟩
  · rw [events]
    exact accounts.paired.append (paired_single rfl)
  · have free : (List.map AgentLoopEvent.usage [.loopFinished event]).sum = 0 := add_zero _
    rw [events, List.map_append, List.sum_append, free, add_zero, usage, accounts.charged]
  · have uncounted : List.countP AgentLoopEvent.isToolCallCompleted [.loopFinished event] = 0 := rfl
    rw [events, List.countP_append, uncounted, toolCalls, ← accounts.completed, Nat.add_zero]

theorem loop_accounts (rendering : Rendering)
    (accounts : Accounts equipment request turns progress log) (remaining : ℕ) (turn : ℤ) :
    Holds (RunAccounts equipment request (turns + remaining))
      (loop rendering equipment request Billing.charged remaining turn progress).run log := by
  induction remaining generalizing turns progress log turn with
  | zero => exact accounts.finish rfl rfl le_rfl
  | succ remaining ih =>
      have grows : turns + 1 ≤ turns + (remaining + 1) := by omega
      refine Holds.bind_run _ (takeTurn_accounts accounts turn)
        (fun _ stop safe => ⟨safe.later grows, fun ended => by cases ended⟩) ?_
      intro log turnEnd taken
      cases turnEnd with
      | finished event =>
          obtain ⟨progress, accounts, usage, toolCalls⟩ := taken
          exact accounts.finish usage toolCalls grows
      | acted revision uncharged progress =>
          have accounts : Accounts equipment request (turns + 1) progress log := taken
          unfold conclude
          dsimp only
          split
          · exact accounts.finish rfl rfl grows
          · split
            · exact accounts.finish rfl rfl grows
            · have onward := ih accounts (turn + 1)
              rwa [Nat.add_assoc, Nat.add_comm 1 remaining] at onward

theorem accounts_initial (equipment : Equipment) (request : AgentLoopRequest) :
    Accounts equipment request 0 Progress.initial [] := by
  refine ⟨⟨le_rfl, fun _ _ => le_max_left _ _, List.nodup_nil, ?_⟩, ?_, ?_, rfl, rfl, ?_, rfl⟩
  · intro before _ _ _ _ _ split
    simp at split
  · exact fun _ member => absurd member List.not_mem_nil
  · intro before _ _ _ split
    simp [Log.events] at split
  · exact fun _ member => absurd member List.not_mem_nil

/-- **The event protocol of the native engine.** However a run ends, it starts no more
turns and invokes no more tools than its limits allow, requests no call ID twice and
invokes only current tools. A run that ends without an exception closes its log. -/
theorem native_event_protocol (rendering : Rendering) (equipment : Equipment)
    (request : AgentLoopRequest) (surroundings : Surroundings) :
    let played := (NativeAgentLoopEngine.run rendering equipment request).run.play surroundings []
    let events := Log.events played.1
    (events.countP AgentLoopEvent.isModelTurnStarted : ℤ) ≤ max 0 request.limits.maxModelTurns ∧
      (∀ maxToolCalls, request.limits.maxToolCalls = some maxToolCalls →
        (played.1.countP isInvocation : ℤ) ≤ max 0 maxToolCalls) ∧
      (events.filterMap AgentLoopEvent.requestedCallID).Nodup ∧
      InvokesCurrent equipment played.1 ∧
      (played.2 = .ok () → ∃ earlier final, events = earlier ++ [AgentLoopEvent.loopFinished final] ∧
        (∀ event ∈ earlier, event.isLoopFinished = false) ∧ Paired events ∧
          final.usage = (events.map AgentLoopEvent.usage).sum ∧
            final.toolCalls = (events.countP AgentLoopEvent.isToolCallCompleted : ℤ)) := by
  intro played events
  have holds := loop_accounts rendering (accounts_initial equipment request)
    request.limits.maxModelTurns.toNat 1
  rw [← NativeAgentLoopEngine.run_eq] at holds
  obtain ⟨safe, closed⟩ := holds.play surroundings
  have started : events.countP AgentLoopEvent.isModelTurnStarted ≤
      0 + request.limits.maxModelTurns.toNat := safe.started
  refine ⟨by omega, safe.invoked, safe.distinct, safe.current, closed⟩

def promptAnswer : Surroundings
  | _, .emit _ => ()
  | _, .snapshot => .ok ⟨0, []⟩
  | _, .beforeModel _ => .ok ⟨[], none⟩
  | _, .completeTurn _ => .ok ⟨.answer ⟨"done", ""⟩, 0, "model"⟩
  | _, .streamTurn _ => ⟨[], .ok ()⟩
  | _, .evaluateCompletion _ _ => .ok ⟨.accept, ""⟩
  | _, .invoke _ _ _ => .error .pending

/-- A negative budget is kept by no run, not even by one that invokes nothing. -/
theorem negative_budget_exceeded :
    ¬ ∀ (rendering : Rendering) (equipment : Equipment) (request : AgentLoopRequest)
      (surroundings : Surroundings),
      let played := (NativeAgentLoopEngine.run rendering equipment request).run.play surroundings []
      played.2 = .ok () → ∀ maxToolCalls, request.limits.maxToolCalls = some maxToolCalls →
        (played.1.countP isInvocation : ℤ) ≤ maxToolCalls := by
  intro claim
  have kept := claim ⟨id, fun _ => "", id⟩ ⟨false, false, []⟩
    ⟨"run", ⟨"task", "", []⟩, "", [], ⟨1, some (-1), false, 3⟩, [], [], []⟩ promptAnswer rfl (-1) rfl
  revert kept
  decide

end Runs

end Sico.AgentLoop
