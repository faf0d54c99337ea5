import Sico.AgentLoop.CallIDs
import Sico.AgentLoop.StreamingModel
import Sico.Foundation.JsonRoundTrip

/-! # The structured model of the agent loop

The same decision may reach the loop in two ways: as a function call of a provider that streams, or as a
structured reply that carries the arguments in a text. Both name a capability and give a text for its
arguments. Where the text is that of no mapping, the structured adapter refuses the action, and the streaming
one calls the capability without arguments.
-/

namespace Sico.AgentLoop

open Foundation LlmHubs

structure Decision where
  action : String
  capability : String := ""
  argumentsJSON : String := "\x7b\x7d"
  summary : String := ""
  output : String := ""

/-- `HubSubAgentLLM`, by the library functions that its decision is decoded with: `json.loads` with the text of
the error it raises, `str.lower` and `repr`. -/
structure HubSubAgentLLM where
  loads : String → Option Json
  decodeError : String → String
  lower : String → String
  repr : String → String

/-- The name of the class that a document is read as. -/
def typeName : Json → String
  | .null => "NoneType"
  | .bool _ => "bool"
  | .int _ => "int"
  | .float _ => "float"
  | .str _ => "str"
  | .arr _ => "list"
  | .obj _ => "dict"

namespace HubSubAgentLLM

variable (hub : HubSubAgentLLM)

/-- `_parse_arguments`, with the text of the error it raises. -/
def parseArguments (argumentsJSON : String) : Except String Arguments :=
  let text := strip argumentsJSON
  if text = "" then .ok []
  else
    match hub.loads text with
    | none => .error ("arguments_json is not valid JSON: " ++ hub.decodeError text)
    | some (.obj members) => .ok members
    | some parsed => .error ("arguments_json must be a JSON object, got " ++ typeName parsed)

def toAction (decision : Decision) : AgentAction :=
  let action := hub.lower (strip decision.action)
  if action = "final_answer" then .answer { summary := strip decision.summary, output := decision.output }
  else
    let capability := strip decision.capability
    if action ≠ "call_capability" then
      .invalid
        { reason := "action must be \"call_capability\" or \"final_answer\", got " ++ hub.repr decision.action
          capability }
    else
      match hub.parseArguments decision.argumentsJSON with
      | .error reason => .invalid { reason, capability }
      | .ok args => .call { capability, args }

end HubSubAgentLLM

/-- An action without the identifier of its call, which only a provider gives. -/
def AgentAction.withoutCallID : AgentAction → AgentAction
  | .call asked => .call { asked with callID := "" }
  | action => action

def objectOf : Option Json → Option Arguments
  | some (.obj members) => some members
  | _ => none

/-- The arguments that a text gives: none where it is blank, and otherwise those of the object it is. -/
def decodedArguments (loads : String → Option Json) (text : String) : Option Arguments :=
  if strip text = "" then some [] else objectOf (loads (strip text))

/-- Two adapters make the same action of a capability and a text: a call with the arguments that the text
gives, and an invalid action where it gives none. -/
structure AdaptersAgree (loads : String → Option Json) (capability text : String)
    (streamed structured : AgentAction) : Prop where
  same : streamed.withoutCallID = structured.withoutCallID
  called : ∀ args, decodedArguments loads text = some args → streamed.withoutCallID = .call { capability, args }
  refused : decodedArguments loads text = none → ∃ action, streamed = .invalid action

/-- What the adapters use of `json.loads`. -/
structure ReadsJson (loads : String → Option Json) : Prop where
  braces : loads "\x7b\x7d" = some (.obj [])
  blank : ∀ text, strip text = "" → loads text = none

section Texts

theorem isBlank_of_strip {text : String} (stripped : strip text = "") : ∀ letter ∈ text.toList, isBlank letter := by
  have emptied := congrArg String.toList stripped
  rw [strip, String.toList_ofList, String.toList_empty, List.reverse_eq_nil_iff, List.dropWhile_eq_nil_iff] at emptied
  intro letter listed
  rw [← @List.takeWhile_append_dropWhile _ isBlank text.toList] at listed
  rcases List.mem_append.mp listed with front | back
  · exact List.mem_takeWhile_imp front
  · exact emptied letter (List.mem_reverse.mpr back)

variable (floatText : String → String)

theorem scan_blank {letter : Char} (blank : isBlank letter = true) (rest : List Char) (fuel : ℕ) :
    Json.scan floatText (fuel + 1) (letter :: rest) = none := by
  have other {mark : Char} (solid : isBlank mark = false) : letter ≠ mark := by
    rintro rfl
    rw [blank] at solid
    cases solid
  have notDigit : letter.isDigit = false := by
    by_contra digit
    rw [Bool.not_eq_false] at digit
    rw [isBlank_of_isDigit digit] at blank
    cases blank
  have notNumber : Json.isNumberLetter letter = false := by
    unfold Json.isNumberLetter
    rw [notDigit, Bool.false_or, decide_eq_false_iff_not]
    simp only [List.mem_cons, List.not_mem_nil, or_false, not_or]
    exact ⟨other (by decide), other (by decide), other (by decide), other (by decide), other (by decide)⟩
  have noWord : Json.constants.find? (fun constant => constant.1.isPrefixOf (letter :: rest)) = none := by
    rw [List.find?_eq_none]
    intro constant listed starts
    have solid : ∀ constant ∈ Json.constants, constant.1.head?.any isBlank = false ∧ constant.1 ≠ [] := by decide
    obtain ⟨head, filled⟩ := solid constant listed
    obtain ⟨first, letters, written⟩ := List.exists_cons_of_ne_nil filled
    rw [written, List.head?_cons, Option.any_some] at head
    rw [written, List.isPrefixOf_cons_cons, Bool.and_eq_true, beq_iff_eq] at starts
    rw [starts.1, blank] at head
    cases head
  rw [Json.scan, if_neg (other (by decide)), if_neg (other (by decide)), if_neg (other (by decide)), Json.scalar, noWord]
  unfold Json.number
  rw [List.takeWhile_cons_of_neg (by rw [notNumber]; exact Bool.false_ne_true)]
  rfl

theorem readsJson_loads : ReadsJson fun text => Json.loads floatText text.toList where
  braces := rfl
  blank text stripped := by
    have blanks := isBlank_of_strip stripped
    unfold Json.loads
    cases skipped : Json.skipSpacing text.toList with
    | nil => rfl
    | cons letter rest =>
        have listed : letter ∈ text.toList := by
          apply (List.dropWhile_suffix Json.isSpacing).mem
          rw [← Json.skipSpacing, skipped]
          exact List.mem_cons_self
        rw [scan_blank floatText (blanks letter listed)]

end Texts

section Streaming

variable {llm : HubStreamingAgentLLM} {tools : List AgentToolDescriptor}

/-- What an output asks for: an identifier, a name and a text of arguments. -/
def requestOf : OutputItem → Option (String × String × String)
  | .functionCall callID name arguments => some (callID, name, arguments)
  | _ => none

theorem callOf_eq (output : OutputItem) :
    llm.callOf tools output =
      (requestOf output).map fun request => llm.capabilityCall tools request.2.1 request.1 request.2.2 := by
  cases output <;> rfl

theorem streamTurn_single (llm : HubStreamingAgentLLM) (state : AgentModelState) (chunks : List StreamChunk)
    {callID name text : String}
    (single : (chunks.flatMap StreamChunk.outputs).filterMap requestOf = [(callID, name, text)]) :
    ∃ turn, (llm.streamTurn state chunks).filterMap HubStreamingAgentLLM.turnOf = [turn] ∧
      turn.action = .call (llm.capabilityCall state.tools name callID text) := by
  have calls := llm.receiveChunks_calls state.tools chunks {}
  have asks : llm.callOf state.tools = fun output =>
      (requestOf output).map fun request => llm.capabilityCall state.tools request.2.1 request.1 request.2.2 :=
    funext callOf_eq
  rw [asks, ← List.map_filterMap, single] at calls
  let received := (llm.receiveChunks state.tools chunks {}).2
  refine ⟨{ action := received.action, usage := received.usage, model := llm.model }, ?_, ?_⟩
  · rw [HubStreamingAgentLLM.streamTurn, List.filterMap_append, HubStreamingAgentLLM.receiveChunks_deltas]
    rfl
  · dsimp only [received]
    rw [HubStreamingAgentLLM.Turn.action, calls]
    rfl

end Streaming

section Agreement

variable {hub : HubSubAgentLLM} {llm : HubStreamingAgentLLM}

theorem parseArguments_eq (hub : HubSubAgentLLM) (text : String) :
    (∀ args, decodedArguments hub.loads text = some args → hub.parseArguments text = .ok args) ∧
      (decodedArguments hub.loads text = none → ∃ reason, hub.parseArguments text = .error reason) := by
  unfold decodedArguments HubSubAgentLLM.parseArguments
  dsimp only
  by_cases blank : strip text = ""
  · rw [if_pos blank, if_pos blank]
    exact ⟨fun args same => congrArg _ (Option.some.inj same), nofun⟩
  · rw [if_neg blank, if_neg blank]
    cases hub.loads (strip text) with
    | none => exact ⟨nofun, fun _ => ⟨_, rfl⟩⟩
    | some parsed => cases parsed with
      | obj members => exact ⟨fun args same => congrArg _ (Option.some.inj same), nofun⟩
      | null => exact ⟨nofun, fun _ => ⟨_, rfl⟩⟩
      | bool value => exact ⟨nofun, fun _ => ⟨_, rfl⟩⟩
      | int value => exact ⟨nofun, fun _ => ⟨_, rfl⟩⟩
      | float literal => exact ⟨nofun, fun _ => ⟨_, rfl⟩⟩
      | str value => exact ⟨nofun, fun _ => ⟨_, rfl⟩⟩
      | arr items => exact ⟨nofun, fun _ => ⟨_, rfl⟩⟩

theorem toAction_eq {decision : Decision} (acts : hub.lower (strip decision.action) = "call_capability") :
    (∀ args, decodedArguments hub.loads decision.argumentsJSON = some args →
        hub.toAction decision = .call { capability := strip decision.capability, args }) ∧
      (decodedArguments hub.loads decision.argumentsJSON = none → ∃ action, hub.toAction decision = .invalid action) := by
  obtain ⟨parsed, failed⟩ := parseArguments_eq hub decision.argumentsJSON
  unfold HubSubAgentLLM.toAction
  rw [acts, if_neg (by decide), if_neg (by decide)]
  constructor
  · intro args decoded
    rw [parsed args decoded]
  · intro decoded
    obtain ⟨reason, refused⟩ := failed decoded
    rw [refused]
    exact ⟨_, rfl⟩

theorem parsedArguments_eq {text : String} (filled : text ≠ "") :
    llm.parsedArguments text = (objectOf (llm.loads text)).getD [] := by
  rw [HubStreamingAgentLLM.parsedArguments, if_neg filled]
  cases llm.loads text with
  | none => rfl
  | some parsed => cases parsed <;> rfl

/-- The streaming adapter gives a capability the arguments that the text gives exactly where there are such
arguments and the blanks around them do not matter to the library. -/
theorem parsedArguments_iff (reads : ReadsJson llm.loads) (text : String) :
    decodedArguments llm.loads text = some (llm.parsedArguments text) ↔
      strip text = "" ∨ ∃ args, objectOf (llm.loads (strip text)) = some args ∧
        (objectOf (llm.loads text) = some args ∨ args = [] ∧ objectOf (llm.loads text) = none) := by
  by_cases blank : strip text = ""
  · rw [decodedArguments, if_pos blank]
    refine iff_of_true ?_ (.inl blank)
    unfold HubStreamingAgentLLM.parsedArguments
    split_ifs
    · rw [reads.braces]
    · rw [reads.blank text blank]
  · have filled : text ≠ "" := by
      rintro rfl
      exact blank rfl
    rw [decodedArguments, if_neg blank, parsedArguments_eq filled, or_iff_right blank]
    cases objectOf (llm.loads text) with
    | none =>
        constructor
        · exact fun decoded => ⟨[], decoded, .inr ⟨rfl, rfl⟩⟩
        · rintro ⟨args, decoded, same | ⟨rfl, _⟩⟩
          · cases same
          · exact decoded
    | some members =>
        constructor
        · exact fun decoded => ⟨members, decoded, .inl rfl⟩
        · rintro ⟨args, decoded, same | ⟨_, absent⟩⟩
          · exact decoded.trans same.symm
          · cases absent

theorem adaptersAgree_call {decision : Decision} {call : CapabilityCall} {capability : String}
    (acts : hub.lower (strip decision.action) = "call_capability") (names : strip decision.capability = capability)
    (named : call.capability = capability) :
    AdaptersAgree hub.loads capability decision.argumentsJSON (.call call) (hub.toAction decision) ↔
      decodedArguments hub.loads decision.argumentsJSON = some call.args := by
  obtain ⟨made, -⟩ := toAction_eq acts
  have short : (AgentAction.call call).withoutCallID = .call { capability, args := call.args } := by
    rw [← named]
    rfl
  cases decoded : decodedArguments hub.loads decision.argumentsJSON with
  | none =>
      constructor
      · intro agree
        obtain ⟨action, refused⟩ := agree.refused decoded
        cases refused
      · intro given
        cases given
  | some args =>
      replace made := made args decoded
      rw [names] at made
      constructor
      · intro agree
        have same := agree.called args decoded
        rw [short] at same
        exact congrArg some (congrArg CapabilityCall.args (AgentAction.call.inj same)).symm
      · intro same
        obtain rfl := Option.some.inj same
        refine ⟨?_, ?_, fun absent => ?_⟩
        · rw [short]
          simp only [made]
          rfl
        · intro args' same
          rw [decoded] at same
          cases same
          exact short
        · rw [decoded] at absent
          cases absent

end Agreement

/-- **The two adapters.** For a capability that the turn knows and a text of arguments, both adapters make the
same action and the one that the text asks for, exactly where the text is blank, or is an object as it stands
and without the blanks around it, or is the empty object but for those blanks. -/
theorem adapters_agree_iff {hub : HubSubAgentLLM} {llm : HubStreamingAgentLLM} (reads : ReadsJson llm.loads)
    (shared : hub.loads = llm.loads) {state : AgentModelState} {chunks : List StreamChunk}
    {callID name text capability : String} {decision : Decision}
    (single : (chunks.flatMap StreamChunk.outputs).filterMap requestOf = [(callID, name, text)])
    (known : llm.capabilityByWireName state.tools name = some capability) (filled : capability ≠ "")
    (acts : hub.lower (strip decision.action) = "call_capability") (names : strip decision.capability = capability)
    (given : decision.argumentsJSON = text) :
    (∃ turn, (llm.streamTurn state chunks).filterMap HubStreamingAgentLLM.turnOf = [turn] ∧
      AdaptersAgree llm.loads capability text turn.action (hub.toAction decision)) ↔
      strip text = "" ∨ ∃ args, objectOf (llm.loads (strip text)) = some args ∧
        (objectOf (llm.loads text) = some args ∨ args = [] ∧ objectOf (llm.loads text) = none) := by
  obtain ⟨turn, streamed, asked⟩ := streamTurn_single llm state chunks single
  have called : llm.capabilityCall state.tools name callID text =
      { capability, args := llm.parsedArguments text, callID } := by
    unfold HubStreamingAgentLLM.capabilityCall
    rw [known]
    exact if_neg filled
  rw [← parsedArguments_iff reads]
  subst given
  have agrees := @adaptersAgree_call hub decision (llm.capabilityCall state.tools name callID decision.argumentsJSON)
    capability acts names (by rw [called])
  rw [shared, called] at agrees
  rw [← agrees]
  constructor
  · rintro ⟨other, again, agree⟩
    rw [streamed] at again
    cases again
    rwa [asked, called] at agree
  · intro agree
    exact ⟨turn, streamed, by rwa [asked, called]⟩

/-- A model whose capabilities are told under one name, and the JSON library. -/
def plainLLM : HubStreamingAgentLLM where
  model := "m"
  sha256 _ := ""
  loads text := Json.loads id text.toList

def plainHub : HubSubAgentLLM where
  loads := plainLLM.loads
  decodeError _ := "Expecting value"
  lower := id
  repr text := text

def oneTool : AgentModelState where
  task := { title := "", instructions := "", arguments := [] }
  tools := [{ toolID := "skill:run" }]
  turn := 1
  maxModelTurns := 1
  systemPrompt := ""
  context := []
  history := []
  initialMessages := []
  toolsetRevision := 0
  providerTools := []

def callChunk (text : String) : StreamChunk := { outputs := [.functionCall "c" "cap_" text] }

def callDecision (text : String) : Decision :=
  { action := "call_capability", capability := "skill:run", argumentsJSON := text }

theorem known_oneTool : plainLLM.capabilityByWireName oneTool.tools "cap_" = some "skill:run" := by decide

theorem acts_callDecision (text : String) : plainHub.lower (strip (callDecision text).action) = "call_capability" := by
  change strip "call_capability" = "call_capability"
  decide

theorem names_callDecision (text : String) : strip (callDecision text).capability = "skill:run" := by
  change strip "skill:run" = "skill:run"
  decide

def someArguments : Json := .obj [("path", .null)]

def someText : String := String.ofList (Json.dumps someArguments)

theorem plainLLM_loads (text : String) : plainLLM.loads text = Json.loads id text.toList := rfl

theorem proper_someArguments : Json.Proper id someArguments := by
  unfold someArguments
  rw [Json.Proper, Json.properMembers_iff]
  refine ⟨List.nodup_singleton _, ?_⟩
  intro member listed
  obtain rfl := List.mem_singleton.mp listed
  simp only [Json.Proper]

theorem adapters_agree_object :
    ∃ turn, (plainLLM.streamTurn oneTool [callChunk someText]).filterMap HubStreamingAgentLLM.turnOf = [turn] ∧
      AdaptersAgree plainLLM.loads "skill:run" someText turn.action (plainHub.toAction (callDecision someText)) := by
  have read : plainLLM.loads someText = some someArguments := by
    rw [plainLLM_loads, someText, String.toList_ofList]
    exact Json.loads_dumps proper_someArguments
  have solid : strip someText = someText := by
    have letters : someText.toList = Json.dumps someArguments := String.toList_ofList
    apply @strip_eq_self someText '\x7b' '\x7d' _ _ rfl rfl
    · rw [letters]
      rfl
    · rw [letters]
      rfl
  have single : ([callChunk someText].flatMap StreamChunk.outputs).filterMap requestOf = [("c", "cap_", someText)] :=
    rfl
  apply (adapters_agree_iff (readsJson_loads id) rfl single known_oneTool (by decide) (acts_callDecision _)
    (names_callDecision _) rfl).mpr
  refine .inr ⟨[("path", .null)], ?_⟩
  rw [solid, read]
  exact ⟨rfl, .inl rfl⟩

/-- Arguments that are cut off are no arguments to the streaming adapter, and a mistake to the other. -/
theorem truncated_arguments_called :
    ¬ ∀ (hub : HubSubAgentLLM) (llm : HubStreamingAgentLLM), ReadsJson llm.loads → hub.loads = llm.loads →
      ∀ (state : AgentModelState) (chunks : List StreamChunk) (callID name text capability : String)
        (decision : Decision),
      (chunks.flatMap StreamChunk.outputs).filterMap requestOf = [(callID, name, text)] →
      llm.capabilityByWireName state.tools name = some capability → capability ≠ "" →
      hub.lower (strip decision.action) = "call_capability" → strip decision.capability = capability →
      decision.argumentsJSON = text →
      ∃ turn, (llm.streamTurn state chunks).filterMap HubStreamingAgentLLM.turnOf = [turn] ∧
        AdaptersAgree llm.loads capability text turn.action (hub.toAction decision) := by
  intro always
  have single : ([callChunk "\x7b"].flatMap StreamChunk.outputs).filterMap requestOf = [("c", "cap_", "\x7b")] := rfl
  obtain ⟨turn, streamed, agree⟩ := always plainHub plainLLM (readsJson_loads id) rfl oneTool _ "c" "cap_" _
    "skill:run" (callDecision "\x7b") single known_oneTool (by decide) (acts_callDecision _) (names_callDecision _) rfl
  obtain ⟨other, again, called⟩ := streamTurn_single plainLLM oneTool _ single
  rw [streamed] at again
  cases again
  have solid : strip "\x7b" = "\x7b" := @strip_eq_self "\x7b" '\x7b' '\x7b' rfl rfl rfl rfl
  have nothing : decodedArguments plainLLM.loads "\x7b" = none := by
    rw [decodedArguments, solid, if_neg (by decide), plainLLM_loads]
    rfl
  obtain ⟨action, refused⟩ := agree.refused nothing
  rw [called] at refused
  cases refused

end Sico.AgentLoop
