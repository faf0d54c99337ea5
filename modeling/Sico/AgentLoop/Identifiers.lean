import Mathlib.Data.Finset.Insert
import Sico.AgentLoop.Contracts

/-! # Identifiers and texts of the agent loop

Capability IDs and call IDs as the engines normalize them, the signature by which a
repeated action is recognised, and the observations and final events they build. The
texts that the language library renders are a parameter: no result depends on them.
-/

namespace Sico.AgentLoop

open Foundation

/-- What the language library renders: `repr` of a text, the arguments of a signature, and
the hexadecimal SHA-256 digest of a text in UTF-8. -/
structure Rendering where
  repr : String → String
  dumps : Arguments → String
  sha256 : String → String

section Capabilities

/-- The characters that `str.strip` takes off. -/
def isBlank (c : Char) : Bool := isSpace c || ('\x1c' ≤ c && c ≤ '\x1f')

def strip (text : String) : String :=
  String.ofList (((text.toList.dropWhile isBlank).reverse.dropWhile isBlank).reverse)

/-- `str.partition`, without the separator it found. -/
def partition (separator : Char) (text : String) : String × String :=
  (String.ofList (text.toList.takeWhile (· ≠ separator)),
    String.ofList ((text.toList.dropWhile (· ≠ separator)).drop 1))

def capabilityID (providerID localName : String) : String := providerID ++ ":" ++ localName

def skillCapabilityID (skillName actionName : String) : String :=
  capabilityID "skill" (if actionName = "" then skillName else capabilityID skillName actionName)

def splitCapabilityID (value : String) : String × String :=
  if ':' ∈ value.toList then partition ':' value else ("", value)

def legacyLinuxWorkstationLocalNames : List (String × String) :=
  [("shell_exec", "shell:exec"), ("mouse_click", "mouse:click"), ("mouse_move", "mouse:move"),
    ("mouse_scroll", "mouse:scroll"), ("keyboard_type", "keyboard:type"),
    ("keyboard_press", "keyboard:press"), ("browser_open_url", "browser:open_url"),
    ("browser_screenshot", "browser:screenshot"), ("file_export", "file:export"),
    ("file_read", "file:read"), ("file_write", "file:write"), ("file_list", "file:list")]

def normalizeLocalName (provider localName : String) : String :=
  if provider = "skill" ∧ ':' ∉ localName.toList ∧ '.' ∈ localName.toList then
    let (skillName, actionName) := partition '.' localName
    capabilityID skillName actionName
  else if provider = "linux_workstation" then
    (legacyLinuxWorkstationLocalNames.lookup localName).getD localName
  else
    localName

/-- `normalize_capability_id`, with nothing for a selector, which raises. -/
def normalizeCapabilityID (value : String) : Option String :=
  let text := strip value
  if text = "" then some ""
  else if text.toList.tails.any "**".toList.isPrefixOf then none
  else if ':' ∈ text.toList then
    let (provider, localName) := splitCapabilityID text
    let normalizedProvider := strip provider
    some (capabilityID normalizedProvider (normalizeLocalName normalizedProvider localName))
  else if '.' ∈ text.toList then
    let (skillName, actionName) := partition '.' text
    some (skillCapabilityID skillName actionName)
  else
    some (capabilityID "builtin" text)

end Capabilities

section Calls

def callID (turn callIndex : ℤ) : String :=
  "turn-" ++ toString turn ++ "-call-" ++ toString callIndex

/-- The characters of a call ID that is taken as it is. -/
def isSafeHead (c : Char) : Bool := c.isAlphanum

def isSafeTail (c : Char) : Bool := c.isAlphanum || c = '.' || c = '_' || c = '-'

/-- A full match of the pattern of safe call IDs. -/
def isSafeCallID (raw : String) : Bool :=
  match raw.toList with
  | [] => false
  | head :: tail => isSafeHead head && tail.all isSafeTail && tail.length ≤ 63

def normalizedCallID (rendering : Rendering) (value : String) (turn callIndex : ℤ) : String :=
  let raw := strip value
  if raw = "" then callID turn callIndex
  else if isSafeCallID raw then raw
  else "provider-call-" ++ String.ofList ((rendering.sha256 raw).toList.take 20)

def signature (rendering : Rendering) (capability : String) (args : Arguments) (reason : String) :
    String :=
  capability ++ "|" ++ rendering.dumps args ++ "|" ++ reason

/-- The tool bound to an ID: the last of several. -/
def boundTool (tools : List BoundAgentTool) (capability : String) : Option BoundAgentTool :=
  tools.reverse.find? fun tool => tool.descriptor.toolID = capability

theorem mem_of_boundTool {tools : List BoundAgentTool} {capability : String} {tool : BoundAgentTool}
    (bound : boundTool tools capability = some tool) : tool ∈ tools :=
  List.mem_reverse.mp (List.mem_of_find?_eq_some bound)

end Calls

section Texts

def failedObservation (capability callID message errorClass : String) : Observation :=
  { capability
    ok := false
    content := message
    callID
    status := "failed"
    summary := message
    errorClass
    errorMessage := message }

def stalled (limit : ℤ) (usage : TokenUsage) (turns toolCalls : ℤ) : LoopFinishedEvent :=
  { completed := false
    summary := "Agent repeated the same failing action " ++ toString limit ++
      " times without progress; stopping early."
    errorKind := .transient
    usage
    modelTurns := turns
    toolCalls }

/-- The reason a directive gives for not accepting. -/
def CompletionDirective.reasonOrDefault (directive : CompletionDirective) : String :=
  if directive.reason = "" then "The completion policy did not accept the proposed final answer."
  else directive.reason

end Texts

end Sico.AgentLoop
