import Mathlib.Data.List.DropRight
import Mathlib.Data.List.Nodup
import Sico.AgentLoop.Logs
import Sico.AgentLoop.StreamingModel
import Sico.LlmHubs.SynthesizedIDs

/-! # Call identifiers across turns

The engine refuses a call whose identifier was used in an earlier turn, and where the
provider gives none, the adapters make the identifier up anew in each turn, from where the
call stands in its answer. Two turns that call the same function in the same place then
clash, and the run fails. Clashes of digests apart, these are the only clashes, and without
them no run ends that way.
-/

namespace Sico.AgentLoop

open Foundation Interaction LlmHubs

section Normalization

variable (rendering : Rendering)

theorem isBlank_of_isDigit {digit : Char} (isDigit : digit.isDigit) : isBlank digit = false := by
  have spaces : (['\t', '\n', '\x0b', '\x0c', '\r', ' ', '\u0085', '\u00a0', '\u1680', '\u2028',
      '\u2029', '\u202f', '\u205f', '\u3000'].all fun c => !c.isDigit) = true := by rfl
  have bounds : 48 ≤ digit.val.toNat ∧ digit.val.toNat ≤ 57 := by
    simpa [Char.isDigit, UInt32.le_iff_toNat_le] using isDigit
  simp only [isBlank, isSpace, Bool.or_eq_false_iff, Bool.and_eq_false_iff, decide_eq_false_iff_not,
    Char.le_def, UInt32.le_iff_toNat_le, Nat.not_le]
  refine ⟨⟨fun listed => ?_, .inl ?_⟩, .inr ?_⟩
  · have apart := List.all_eq_true.mp spaces digit listed
    rw [isDigit] at apart
    cases apart
  · change digit.val.toNat < 8192
    omega
  · change 31 < digit.val.toNat
    omega

theorem strip_eq_self {text : String} {head last : Char} (starts : text.toList.head? = some head)
    (ends : text.toList.getLast? = some last) (solid : isBlank head = false)
    (alsoSolid : isBlank last = false) : strip text = text := by
  have front : text.toList.dropWhile isBlank = text.toList := by
    obtain ⟨rest, letters⟩ := List.head?_eq_some_iff.mp starts
    rw [letters, List.dropWhile_cons_of_neg (by rw [solid]; exact Bool.false_ne_true)]
  have back : text.toList.reverse.dropWhile isBlank = text.toList.reverse := by
    rw [← List.head?_reverse] at ends
    obtain ⟨rest, letters⟩ := List.head?_eq_some_iff.mp ends
    rw [letters, List.dropWhile_cons_of_neg (by rw [alsoSolid]; exact Bool.false_ne_true)]
  rw [strip, front, back, List.reverse_reverse, String.ofList_toList]

theorem dropWhile_rdropWhile (letters : List Char) :
    ((letters.dropWhile isBlank).rdropWhile isBlank).dropWhile isBlank =
      (letters.dropWhile isBlank).rdropWhile isBlank := by
  obtain ⟨behind, whole⟩ := List.rdropWhile_prefix isBlank (letters.dropWhile isBlank)
  cases kept : (letters.dropWhile isBlank).rdropWhile isBlank with
  | nil => rfl
  | cons head rest =>
      rw [kept, List.cons_append] at whole
      have solid := List.head?_dropWhile_not isBlank letters
      rw [← whole, List.head?_cons] at solid
      exact List.dropWhile_cons_of_neg (by simpa using solid)

theorem strip_strip (text : String) : strip (strip text) = strip text := by
  have letters : strip text = String.ofList ((text.toList.dropWhile isBlank).rdropWhile isBlank) := rfl
  rw [letters, strip, String.toList_ofList, dropWhile_rdropWhile]
  exact congrArg String.ofList (List.rdropWhile_idempotent isBlank _)
theorem head?_text (origin : CallOrigin) :
    origin.text.toList.head? = some 'g' ∨ origin.text.toList.head? = some 't' := by
  cases origin with
  | part name position =>
      left
      simp only [CallOrigin.text, String.toList_append, List.append_assoc]
      rfl
  | toolCall index =>
      right
      rw [CallOrigin.text, String.toList_append]
      rfl

theorem getLast?_text (origin : CallOrigin) :
    ∃ digit, origin.text.toList.getLast? = some digit ∧ digit.isDigit := by
  cases origin with
  | part name position =>
      obtain ⟨digit, last, isDigit⟩ := getLast?_toString_nat position
      refine ⟨digit, ?_, isDigit⟩
      rw [CallOrigin.text, String.toList_append, List.getLast?_append, last]
      rfl
  | toolCall index =>
      obtain ⟨digit, last, isDigit⟩ := getLast?_toString_int index
      refine ⟨digit, ?_, isDigit⟩
      rw [CallOrigin.text, String.toList_append, List.getLast?_append, last]
      rfl

theorem strip_text (origin : CallOrigin) : strip origin.text = origin.text := by
  obtain ⟨digit, ends, isDigit⟩ := getLast?_text origin
  rcases head?_text origin with starts | starts
  · exact strip_eq_self starts ends (by decide) (isBlank_of_isDigit isDigit)
  · exact strip_eq_self starts ends (by decide) (isBlank_of_isDigit isDigit)

/-- The part of a digest that an identifier keeps. -/
def Rendering.digest (text : String) : List Char := (rendering.sha256 text).toList.take 20

/-- The identifier that the engine gives a call by where it stands. -/
def normalizedOrigin (origin : CallOrigin) : String :=
  if isSafeCallID origin.text then origin.text
  else "provider-call-" ++ String.ofList (rendering.digest origin.text)

theorem normalizedCallID_text (origin : CallOrigin) (turn : ℤ) :
    normalizedCallID rendering origin.text turn 1 = normalizedOrigin rendering origin := by
  have letters : origin.text ≠ "" := by
    intro empty
    rcases head?_text origin with starts | starts <;> rw [empty] at starts <;> cases starts
  simp only [normalizedCallID, strip_text, if_neg letters]
  rfl

/-- Where two calls stand makes for different identifiers: they stand in different places, and
their digests differ if the identifiers have to be replaced by them. -/
def Separate (first second : CallOrigin) : Prop :=
  first ≠ second ∧ (isSafeCallID first.text ∨ isSafeCallID second.text ∨
    rendering.digest first.text ≠ rendering.digest second.text)

theorem text_ne_provider (origin : CallOrigin) (digest : String) :
    origin.text ≠ "provider-call-" ++ digest := by
  intro same
  have starts := head?_text origin
  rw [same, String.toList_append] at starts
  rcases starts with starts | starts <;> revert starts <;> exact fun starts => by cases starts

theorem normalized_ne_iff (first second : CallOrigin) :
    normalizedOrigin rendering first ≠ normalizedOrigin rendering second ↔ Separate rendering first second := by
  unfold normalizedOrigin Separate
  by_cases safe : isSafeCallID first.text <;> by_cases alsoSafe : isSafeCallID second.text
  · rw [if_pos safe, if_pos alsoSafe]
    exact ⟨fun differ => ⟨fun same => differ (congrArg _ same), .inl safe⟩,
      fun separate same => separate.1 (CallOrigin.text_injective same)⟩
  · rw [if_pos safe, if_neg alsoSafe]
    refine iff_of_true (text_ne_provider first _) ⟨?_, .inl safe⟩
    rintro rfl
    exact alsoSafe safe
  · rw [if_neg safe, if_pos alsoSafe]
    refine iff_of_true (text_ne_provider second _).symm ⟨?_, .inr (.inl alsoSafe)⟩
    rintro rfl
    exact safe alsoSafe
  · rw [if_neg safe, if_neg alsoSafe]
    have digests : "provider-call-" ++ String.ofList (rendering.digest first.text) =
        "provider-call-" ++ String.ofList (rendering.digest second.text) ↔
          rendering.digest first.text = rendering.digest second.text := by
      rw [String.append_right_inj, String.ofList_inj]
    rw [ne_eq, digests]
    constructor
    · intro differ
      exact ⟨fun same => differ (congrArg _ (congrArg _ same)), .inr (.inr differ)⟩
    · rintro ⟨-, safe' | safe' | differ⟩
      · exact absurd safe' safe
      · exact absurd safe' alsoSafe
      · exact differ

end Normalization

section Driven

open HubStreamingAgentLLM NativeAgentLoopEngine

variable (rendering : Rendering) {texts : ArgumentsRendering} (llm : HubStreamingAgentLLM)
  (answers : List (UnidentifiedCall texts))

/-- The identifiers under which the calls of successive turns reach the engine. -/
def callIDs : List String :=
  answers.mapIdx fun i call =>
    normalizedCallID rendering (((call.answer.outputs texts).filterMap OutputItem.functionCallID).headD "")
      (i + 1) 1

/-- In each turn of the log the model streams what the provider answered. -/
def DrivenBy (log : Log) : Prop :=
  ∀ (state : AgentModelState) (reply : ModelStream),
    (⟨.streamTurn state, reply⟩ : Exchange Request Request.Reply) ∈ log →
      ∃ call, answers[(state.turn - 1).toNat]? = some call ∧
        reply.items = llm.streamTurn state (call.answer.chunks texts)

/-- The failure of a run whose model emitted an identifier twice. -/
def ReportsDuplicate (event : AgentLoopEvent) : Prop :=
  ∃ callID usage turn toolCalls, event = .loopFinished
    (failed ("Agent emitted duplicate capability call id " ++ rendering.repr callID ++ ".") .internal
      usage turn toolCalls)

/-- In a log that is driven by the answers, something is known and no duplicate was reported. -/
def Quiet (known : Prop) (log : Log) : Prop :=
  DrivenBy llm answers log → known ∧ ∀ event ∈ log.events, ¬ ReportsDuplicate rendering event

section Rules

variable {rendering llm answers} {known : Prop} {log : Log}

theorem DrivenBy.of_snoc {exchange : Exchange Request Request.Reply}
    (driven : DrivenBy llm answers (log ++ [exchange])) : DrivenBy llm answers log :=
  fun state reply member => driven state reply (List.mem_append_left _ member)

theorem Quiet.mono {other : Prop} (quiet : Quiet rendering llm answers known log)
    (implies : known → other) : Quiet rendering llm answers other log :=
  fun driven => ⟨implies (quiet driven).1, (quiet driven).2⟩

theorem Quiet.snoc (quiet : Quiet rendering llm answers known log)
    {exchange : Exchange Request Request.Reply}
    (silent : known → ∀ event, eventOf exchange = some event → ¬ ReportsDuplicate rendering event) :
    Quiet rendering llm answers known (log ++ [exchange]) := by
  intro driven
  obtain ⟨holds, unreported⟩ := quiet driven.of_snoc
  refine ⟨holds, fun event member => ?_⟩
  rw [Log.events_snoc] at member
  rcases List.mem_append.mp member with before | now
  · exact unreported event before
  · exact silent holds event (Option.mem_toList.mp now)

theorem Quiet.asked (quiet : Quiet rendering llm answers known log)
    (exchange : Exchange Request Request.Reply) (eventless : eventOf exchange = none) :
    Quiet rendering llm answers known (log ++ [exchange]) :=
  quiet.snoc fun _ event emitted => by rw [eventless] at emitted; cases emitted

theorem Quiet.notice (quiet : Quiet rendering llm answers known log) (event : AgentLoopEvent)
    (other : ∀ finished, event ≠ .loopFinished finished) :
    Quiet rendering llm answers known (log ++ [⟨.emit event, ()⟩]) := by
  refine quiet.snoc fun _ emitted same => ?_
  obtain rfl := Option.some.inj same
  rintro ⟨callID, usage, turn, toolCalls, equal⟩
  exact other _ equal

theorem Quiet.absurd {Value : Type} {required : Log → Value → Prop}
    (quiet : Quiet rendering llm answers False log)
    (vacuous : ∀ log value, Quiet rendering llm answers False log → required log value)
    (program : Interaction Request Request.Reply Value) : program.Holds required log := by
  induction program generalizing log with
  | done value => exact vacuous log value quiet
  | ask request next ih => exact fun reply => ih reply fun driven => (quiet driven.of_snoc).1.elim

theorem not_reportsDuplicate {event : LoopFinishedEvent} (other : event.errorKind ≠ .internal) :
    ¬ ReportsDuplicate rendering (.loopFinished event) := by
  rintro ⟨callID, usage, turn, toolCalls, same⟩
  cases same
  exact other rfl

theorem receiveTurn_turn (turn : ℤ) (ending : Except Stop Unit) (received : Option AgentModelTurn)
    (items : List AgentModelStreamItem) (log : Log) :
    Holds (fun _ result => ∀ modelTurn, result = .ok modelTurn →
        received.toList ++ items.filterMap turnOf = [modelTurn])
      (receiveTurn turn ending received items).run log := by
  induction items generalizing received log with
  | nil =>
      unfold receiveTurn
      split
      · intro modelTurn failed
        cases failed
      · intro modelTurn same
        cases same
        rfl
      · intro modelTurn failed
        cases failed
  | cons item rest ih =>
      cases item with
      | delta content =>
          rw [receiveTurn]
          exact holds_emit_bind.mpr (ih received _)
      | turn modelTurn =>
          cases received with
          | none => exact ih (some modelTurn) log
          | some own =>
              intro modelTurn failed
              cases failed

end Rules

section Runs

variable {rendering llm answers} {equipment : Equipment} {request : AgentLoopRequest} {turn : ℤ}
  {progress : Progress} {known : Prop} {log : Log}

/-- A turn of the model as the provider answered it. -/
def Answered (answers : List (UnidentifiedCall texts)) (turn : ℤ) (modelTurn : AgentModelTurn) : Prop :=
  ∃ call action, answers[(turn - 1).toNat]? = some call ∧ modelTurn.action = .call action ∧
    action.callID = call.answer.origin.text

/-- Every used identifier is that of the call of an earlier turn. -/
def UsedEarlier (rendering : Rendering) (answers : List (UnidentifiedCall texts)) (turn : ℤ)
    (progress : Progress) : Prop :=
  1 ≤ turn ∧ ∀ callID ∈ progress.usedCallIDs, ∃ (i : ℕ) (call : UnidentifiedCall texts),
    (i : ℤ) + 1 < turn ∧ answers[i]? = some call ∧
      callID = normalizedOrigin rendering call.answer.origin

theorem answered_of_driven {state : AgentModelState} {reply : ModelStream} {modelTurn : AgentModelTurn}
    (streamed : ∃ call, answers[(state.turn - 1).toNat]? = some call ∧
      reply.items = llm.streamTurn state (call.answer.chunks texts))
    (received : reply.items.filterMap turnOf = [modelTurn]) : Answered answers state.turn modelTurn := by
  obtain ⟨call, listed, items⟩ := streamed
  obtain ⟨turn, action, single, called, named⟩ :=
    llm.streamTurn_call state (call.answer.chunks texts) call.functionCallIDs
  rw [items, single] at received
  cases received
  exact ⟨call, action, listed, called, named⟩

theorem Quiet.streamed (quiet : Quiet rendering llm answers known log) (state : AgentModelState)
    (stream : ModelStream) :
    Quiet rendering llm answers (known ∧ ∀ modelTurn,
        stream.items.filterMap turnOf = [modelTurn] → Answered answers state.turn modelTurn)
      (log ++ [⟨.streamTurn state, stream⟩]) := by
  intro driven
  have streamed := driven state stream (List.mem_append_right _ List.mem_cons_self)
  exact ⟨⟨(quiet driven.of_snoc).1, fun _ received => answered_of_driven streamed received⟩,
    (quiet.asked _ rfl driven).2⟩

def AskedQuiet (rendering : Rendering) (llm : HubStreamingAgentLLM)
    (answers : List (UnidentifiedCall texts)) (known : Prop) (turn : ℤ) (log : Log) :
    Except Stop (ℤ × AgentModelTurn) → Prop
  | .ok asked => Quiet rendering llm answers (known ∧ Answered answers turn asked.2) log
  | .error _ => Quiet rendering llm answers known log

theorem askModel_quiet (streams : equipment.streams) (quiet : Quiet rendering llm answers known log) :
    Holds (AskedQuiet rendering llm answers known turn)
      (askModel equipment request turn progress).run log := by
  unfold askModel
  refine Holds.bind_run (fun log _ => Quiet rendering llm answers known log)
    (holds_currentToolset (fun _ _ => quiet.asked _ rfl) fun _ => quiet)
    (fun _ _ held => held) fun log toolset held => ?_
  refine holds_bind_run.mpr (holds_beforeModel.mpr fun reply => ?_)
  cases reply with
  | error stop => exact held.asked _ rfl
  | ok prepared =>
      refine holds_emit_bind.mpr (holds_emit_bind.mpr ?_)
      have begun := ((held.asked ⟨.beforeModel
        ⟨request, turn, progress.history, progress.usage, progress.toolCalls, toolset.revision⟩,
        .ok prepared⟩ rfl).notice (.contextPrepared turn prepared.blocks.length)
          (fun _ => by simp)).notice (.modelTurnStarted turn) (fun _ => by simp)
      rw [streamModelTurn, if_pos streams]
      refine holds_bind_run.mpr fun stream => ?_
      refine Holds.bind_run _ ((keeps_receiveTurn (fun _ content held => held.notice _ (fun _ => by simp))
        none stream.items _ (begun.streamed _ stream)).and
          (receiveTurn_turn turn stream.ending none stream.items _))
        (fun _ _ held => held.1.mono And.left) fun log modelTurn held => ?_
      refine holds_emit_bind.mpr ?_
      exact (held.1.mono fun all => ⟨all.1, all.2 modelTurn (held.2 modelTurn rfl)⟩).notice
        _ (fun _ => by simp)

/-- What a turn leaves: a final event that reports no duplicate, or identifiers used by then. -/
def TurnQuiet (rendering : Rendering) (llm : HubStreamingAgentLLM)
    (answers : List (UnidentifiedCall texts)) (turn : ℤ) (log : Log) : Except Stop TurnEnd → Prop
  | .ok (.finished event) =>
      Quiet rendering llm answers (¬ ReportsDuplicate rendering (.loopFinished event)) log
  | .ok (.acted _ _ progress) =>
      Quiet rendering llm answers (UsedEarlier rendering answers (turn + 1) progress) log
  | .error _ => Quiet rendering llm answers True log

theorem TurnQuiet.of_false {result : Except Stop TurnEnd}
    (quiet : Quiet rendering llm answers False log) :
    TurnQuiet rendering llm answers turn log result := by
  cases result with
  | error stop => exact quiet.mono False.elim
  | ok turnEnd =>
      cases turnEnd with
      | finished event => exact quiet.mono False.elim
      | acted revision uncharged progress => exact quiet.mono False.elim

theorem UsedEarlier.fresh
    (distinct : (answers.map fun call => normalizedOrigin rendering call.answer.origin).Nodup)
    (earlier : UsedEarlier rendering answers turn progress) {call : UnidentifiedCall texts}
    (own : answers[(turn - 1).toNat]? = some call) :
    normalizedOrigin rendering call.answer.origin ∉ progress.usedCallIDs := by
  intro used
  obtain ⟨i, other, before, listed, same⟩ := earlier.2 _ used
  have images : (answers.map fun call => normalizedOrigin rendering call.answer.origin)[i]? =
      (answers.map fun call => normalizedOrigin rendering call.answer.origin)[(turn - 1).toNat]? := by
    rw [List.getElem?_map, List.getElem?_map, listed, own, Option.map_some, Option.map_some, same]
  have inside : i < (answers.map fun call => normalizedOrigin rendering call.answer.origin).length := by
    rw [List.length_map]
    exact (List.getElem?_eq_some_iff.mp listed).1
  have equal := (List.getElem?_inj inside distinct).mp images
  have later := earlier.1
  omega

theorem UsedEarlier.call (earlier : UsedEarlier rendering answers turn progress)
    {call : UnidentifiedCall texts} (own : answers[(turn - 1).toNat]? = some call) {next : Progress}
    (used : next.usedCallIDs =
      insert (normalizedOrigin rendering call.answer.origin) progress.usedCallIDs) :
    UsedEarlier rendering answers (turn + 1) next := by
  have started := earlier.1
  refine ⟨by omega, fun callID member => ?_⟩
  rw [used] at member
  rcases Finset.mem_insert.mp member with rfl | before
  · exact ⟨(turn - 1).toNat, call, by omega, own, rfl⟩
  · obtain ⟨i, other, before, listed, same⟩ := earlier.2 callID before
    exact ⟨i, other, by omega, listed, same⟩

/-- A call as the provider answered it, with what was used before. -/
def OwnCall (rendering : Rendering) (answers : List (UnidentifiedCall texts)) (turn : ℤ)
    (progress : Progress) (call : CapabilityCall) : Prop :=
  UsedEarlier rendering answers turn progress ∧ ∃ own, answers[(turn - 1).toNat]? = some own ∧
    call.callID = normalizedOrigin rendering own.answer.origin

theorem invokeTool_quiet {revision toolsetRevision : ℤ} {call : CapabilityCall} {tool : BoundAgentTool}
    (quiet : Quiet rendering llm answers (OwnCall rendering answers turn progress call) log) :
    Holds (TurnQuiet rendering llm answers turn)
      (invokeTool rendering request turn progress revision call tool toolsetRevision).run log := by
  unfold invokeTool
  refine holds_emit_bind.mpr (holds_bind_run.mpr (holds_call.mpr fun reply => ?_))
  have invoked (snapshot : AgentLoopSnapshot) :=
    (quiet.notice (.toolCallRequested turn call) (fun _ => by simp)).asked
      ⟨.invoke tool call snapshot, reply⟩ rfl
  cases reply with
  | error stop => exact (invoked _).mono fun _ => trivial
  | ok observation =>
      refine holds_emit_bind.mpr (((invoked _).notice _ (fun _ => by simp)).mono ?_)
      rintro ⟨earlier, own, listed, named⟩
      exact earlier.call listed (congrArg (insert · progress.usedCallIDs) named)

theorem dispatch_quiet
    (distinct : (answers.map fun call => normalizedOrigin rendering call.answer.origin).Nodup)
    {revision : ℤ} {call : CapabilityCall}
    (quiet : Quiet rendering llm answers (OwnCall rendering answers turn progress call) log) :
    Holds (TurnQuiet rendering llm answers turn)
      (dispatch rendering equipment request turn progress revision call).run log := by
  by_cases used : call.callID ∈ progress.usedCallIDs
  · rw [dispatch_used rendering equipment request turn progress revision call used]
    refine TurnQuiet.of_false (quiet.mono ?_)
    rintro ⟨earlier, own, listed, named⟩
    exact earlier.fresh distinct listed (named ▸ used)
  · rw [dispatch_unused rendering equipment request turn progress revision call used]
    refine Holds.bind_run
      (fun log _ => Quiet rendering llm answers (OwnCall rendering answers turn progress call) log)
      (holds_currentToolset (fun _ _ => quiet.asked _ rfl) fun _ => quiet)
      (fun _ _ held => held.mono fun _ => trivial) fun log toolset held => ?_
    cases boundTool toolset.tools call.capability with
    | none => exact held.mono fun _ => not_reportsDuplicate (by simp [failure])
    | some tool =>
        cases limit : request.limits.maxToolCalls with
        | none =>
            dsimp only
            rw [permit_unlimited rendering request turn _ _ _ _ _ limit]
            exact invokeTool_quiet held
        | some maxToolCalls =>
            dsimp only
            by_cases exhausted : maxToolCalls ≤ progress.toolCalls
            · rw [permit_exhausted rendering request turn _ _ _ _ _ limit exhausted]
              exact held.mono fun _ => not_reportsDuplicate (by simp [failure])
            · rw [permit_within rendering request turn _ _ _ _ _ limit exhausted]
              exact invokeTool_quiet held

theorem follow_quiet
    (distinct : (answers.map fun call => normalizedOrigin rendering call.answer.origin).Nodup)
    {revision : ℤ} {modelTurn : AgentModelTurn}
    (quiet : Quiet rendering llm answers
      (UsedEarlier rendering answers turn progress ∧ Answered answers turn modelTurn) log) :
    Holds (TurnQuiet rendering llm answers turn)
      (follow rendering equipment request turn progress revision modelTurn.action).run log := by
  cases acts : modelTurn.action with
  | answer answer =>
      refine Quiet.absurd (quiet.mono ?_) (fun _ _ => TurnQuiet.of_false) _
      rintro ⟨-, call, action, -, called, -⟩
      rw [acts] at called
      cases called
  | invalid action =>
      refine Quiet.absurd (quiet.mono ?_) (fun _ _ => TurnQuiet.of_false) _
      rintro ⟨-, call, action, -, called, -⟩
      rw [acts] at called
      cases called
  | call action =>
      rw [follow, perform]
      cases normalizeCapabilityID action.capability with
      | none => exact quiet.mono fun _ => not_reportsDuplicate (by simp [failure])
      | some capability =>
          refine dispatch_quiet distinct (quiet.mono ?_)
          rintro ⟨earlier, call, asked, listed, called, named⟩
          rw [acts] at called
          cases called
          refine ⟨earlier, call, listed, ?_⟩
          dsimp only
          rw [named, normalizedCallID_text]

theorem loop_quiet (streams : equipment.streams)
    (distinct : (answers.map fun call => normalizedOrigin rendering call.answer.origin).Nodup)
    (billing : Billing) (remaining : ℕ)
    (quiet : Quiet rendering llm answers (UsedEarlier rendering answers turn progress) log) :
    Holds (fun log _ => Quiet rendering llm answers True log)
      (loop rendering equipment request billing remaining turn progress).run log := by
  induction remaining generalizing turn progress log with
  | zero =>
      refine holds_emit.mpr ((quiet.mono fun _ => trivial).snoc fun _ event same => ?_)
      obtain rfl := Option.some.inj same
      exact not_reportsDuplicate (by simp [budgetExhausted])
  | succ remaining ih =>
      rw [loop]
      have taken : Holds (TurnQuiet rendering llm answers turn)
          (takeTurn rendering equipment request turn progress).run log := by
        unfold takeTurn
        refine Holds.bind_run _ (askModel_quiet streams quiet) (fun _ _ held => held.mono fun _ => trivial)
          fun log asked held => ?_
        exact follow_quiet distinct held
      refine Holds.bind_run _ taken (fun _ _ held => held) fun log turnEnd held => ?_
      cases turnEnd with
      | finished event =>
          refine holds_emit.mpr (Quiet.mono (held.snoc fun unreported event same => ?_) fun _ => trivial)
          obtain rfl := Option.some.inj same
          exact unreported
      | acted revision uncharged next =>
          unfold conclude
          dsimp only
          split
          · refine holds_emit.mpr (Quiet.mono (held.snoc fun _ event same => ?_) fun _ => trivial)
            obtain rfl := Option.some.inj same
            exact not_reportsDuplicate (by simp [stalled])
          · split
            · refine holds_emit.mpr (Quiet.mono (held.snoc fun _ event same => ?_) fun _ => trivial)
              obtain rfl := Option.some.inj same
              exact not_reportsDuplicate (by simp [budgetExhausted])
            · exact ih held

end Runs

/-- **No duplicate is reported**: the identifiers of all turns differ, and no run of the engine
that is driven by the answers ends with the failure. -/
def NeverDuplicate (rendering : Rendering) (answers : List (UnidentifiedCall texts)) : Prop :=
  (callIDs rendering answers).Nodup ∧
    ∀ (llm : HubStreamingAgentLLM) (equipment : Equipment) (request : AgentLoopRequest)
      (surroundings : Surroundings), equipment.streams →
        DrivenBy llm answers ((run rendering equipment request).run.play surroundings []).1 →
        ∀ event ∈ Log.events ((run rendering equipment request).run.play surroundings []).1,
          ¬ ReportsDuplicate rendering event

theorem callIDs_eq : callIDs rendering answers =
    answers.map fun call => normalizedOrigin rendering call.answer.origin := by
  have each (call : UnidentifiedCall texts) (turn : ℤ) :
      normalizedCallID rendering
          (((call.answer.outputs texts).filterMap OutputItem.functionCallID).headD "") turn 1 =
        normalizedOrigin rendering call.answer.origin := by
    rw [call.functionCallIDs, List.headD_cons, normalizedCallID_text]
  unfold callIDs
  apply List.ext_getElem?
  intro i
  rw [List.getElem?_mapIdx, List.getElem?_map]
  cases answers[i]? with
  | none => rw [Option.map_none, Option.map_none]
  | some call => rw [Option.map_some, Option.map_some, each]

/-- **Identifiers clash across turns exactly where calls stand alike.** -/
theorem neverDuplicate_iff (answers : List (UnidentifiedCall texts)) :
    NeverDuplicate rendering answers ↔
      (answers.map fun call => call.answer.origin).Pairwise (Separate rendering) := by
  have distinct : (callIDs rendering answers).Nodup ↔
      (answers.map fun call => call.answer.origin).Pairwise (Separate rendering) := by
    rw [callIDs_eq, List.Nodup, List.pairwise_map, List.pairwise_map]
    exact List.Pairwise.iff fun _ _ => normalized_ne_iff rendering _ _
  rw [← distinct]
  refine ⟨And.left, fun separate => ⟨separate, ?_⟩⟩
  intro llm equipment request surroundings streams driven
  rw [callIDs_eq] at separate
  have quiet : Quiet rendering llm answers (UsedEarlier rendering answers 1 Progress.initial) [] :=
    fun _ => ⟨⟨le_rfl, fun _ used => by cases used⟩, fun _ none => by cases none⟩
  have runs : Holds (fun log _ => Quiet rendering llm answers True log)
      (run rendering equipment request).run [] := by
    rw [run_eq]
    exact loop_quiet streams separate Billing.charged _ quiet
  exact (runs.play surroundings driven).2

section SameCall

def plainArguments : ArgumentsRendering := ⟨fun _ => "\x7b\x7d", fun _ => ""⟩

/-- A response that calls one function, in its first part. -/
def readFile : UnidentifiedCall plainArguments where
  answer := .gemini { candidates := [[{ functionCall := some { name := some "cap_read" } }]] }
  unidentified := by
    intro part listed call own
    obtain rfl := List.mem_singleton.mp listed
    cases own
    rfl
  single := rfl

def plainRendering : Rendering := ⟨fun text => text, fun _ => "", fun text => text⟩

theorem same_call_duplicate : ¬ NeverDuplicate plainRendering [readFile, readFile] := by
  intro never
  have distinct := never.1
  rw [callIDs_eq] at distinct
  exact (List.nodup_cons.mp distinct).1 List.mem_cons_self

end SameCall


end Driven

end Sico.AgentLoop
