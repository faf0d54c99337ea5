import Mathlib.Data.String.Basic
import Sico.AgentLoop.Identifiers
import Sico.Foundation.Dict
import Sico.Foundation.JsonText
import Sico.Foundation.System

/-! # The tools of a sub-agent

A run starts with one tool that discovers others. A search ranks the capabilities that a profile authorizes and
adds the first of them to the tools, up to a number of bytes of their schemas; browsing lists them in pages.
Searches run at the same time: what they find is determined before the lock of the tools is taken, and the tools
are changed and looked at under it.

The catalogue is asked anew by each search. The score of a search and whether a text has terms to search for
are parameters, and so is `repr` in messages.
-/

namespace Sico.TaskRuntime.ToolController

open Foundation AgentLoop

section Selectors

/-- An exact capability or the subtree of a namespace. -/
structure CapabilitySelector where
  value : String
  namespace_ : List String
  subtree : Bool := false
  deriving DecidableEq, Repr

def segments (text : String) : List String := (text.toList.splitOn ':').map String.ofList

/-- Whether a selector matches a capability, which has to be an exact one. -/
def CapabilitySelector.matches (repr : String → String) (selector : CapabilitySelector) (capability : String) :
    Except String Bool :=
  match normalizeCapabilityID capability with
  | none => .error ("capability id must be exact, got selector " ++ repr (strip capability))
  | some canonical =>
      let parts := segments canonical
      if selector.subtree then
        .ok (selector.namespace_.length < parts.length ∧ parts.take selector.namespace_.length = selector.namespace_)
      else .ok (parts = selector.namespace_)

def parseCapabilitySelector (repr : String → String) (value : String) : Except String CapabilitySelector :=
  let text := strip value
  let rawParts := segments text
  let terminalOnly := "capability selector supports only a terminal ':**': " ++ repr text
  let namespaced := "capability selector must be namespaced: " ++ repr text
  if text = "" then .error "capability selector must not be empty"
  else if ':' ∉ text.toList then .error namespaced
  else if rawParts.any fun part => strip part = "" then
    .error ("capability selector contains an empty namespace segment: " ++ repr text)
  else if rawParts.any fun part => '*' ∈ part.toList ∧ part ≠ "**" then .error terminalOnly
  else if "**" ∈ rawParts then
    if "**" ∈ rawParts.dropLast ∨ rawParts.length < 2 then .error terminalOnly
    else
      .ok { value := ":".intercalate (rawParts.dropLast ++ ["**"]), namespace_ := rawParts.dropLast, subtree := true }
  else
    match normalizeCapabilityID text with
    | none => .error ("capability id must be exact, got selector " ++ repr text)
    | some canonical =>
        if (segments canonical).length < 2 ∨ "" ∈ segments canonical then .error namespaced
        else .ok { value := canonical, namespace_ := segments canonical }

/-- The ceiling of a profile. -/
inductive CapabilityCeiling where
  | all
  | selectors (values : List String)

/-- Whether one of some selectors matches: those behind it are not looked at. -/
def anyMatches (repr : String → String) (capability : String) : List String → Except String Bool
  | [] => .ok false
  | value :: rest => do
      let selector ← parseCapabilitySelector repr value
      let matched ← selector.matches repr capability
      if matched then return true else anyMatches repr capability rest

def ceilingAllows (repr : String → String) (ceiling : CapabilityCeiling) (capability : String) : Except String Bool :=
  match ceiling with
  | .all => .ok true
  | .selectors values => anyMatches repr capability values

end Selectors

section Discovering

structure CapabilityDescriptor where
  capabilityID : String
  parameterSchema : Arguments
  requiredSandbox : List String := []
  workspaceAccess : String := "none"
  effect : String := "observe"
  description : String := ""
  whenToUse : String := ""

structure CatalogueQuery where
  providers : List String
  selectors : List String
  search : String := ""
  includeInternal : Bool := false

/-- The arguments of a call of the discovery tool. -/
structure Discovery where
  query : String := ""
  providers : List String := []
  selectors : List String := []
  limit : Option ℤ := none
  pageSize : Option ℤ := none
  cursor : String := ""

def capabilityDiscoverToolID : String := "runtime:capability:discover"

def maxSearchPromotions : ℕ := 5
def maxPromotedSchemaBytes : ℕ := 30000
def maxBrowsePageSize : ℕ := 50

/-- `min(most, max(1, int(value or default)))`. -/
def clamped (most default : ℕ) (value : Option ℤ) : ℕ :=
  let given := (value.filter (· ≠ 0)).getD default
  min most (max 1 given).toNat

variable (repr : String → String)

/-- `_filters`: the providers and the selectors of a call. -/
def filters (call : Discovery) : Except String (List String × List String) := do
  let selectors ← call.selectors.mapM fun value => (parseCapabilitySelector repr value).map CapabilitySelector.value
  return (((call.providers.map strip).filter (· ≠ "")).eraseDups, selectors.eraseDups)

/-- `_authorized_descriptors`, of what the catalogue answers. -/
def authorizedDescriptors (ceiling : CapabilityCeiling) :
    List CapabilityDescriptor → Except String (List CapabilityDescriptor)
  | [] => .ok []
  | descriptor :: rest =>
      if descriptor.capabilityID = capabilityDiscoverToolID then authorizedDescriptors ceiling rest
      else do
        let allowed ← ceilingAllows repr ceiling descriptor.capabilityID
        let others ← authorizedDescriptors ceiling rest
        return if allowed then descriptor :: others else others

def byID (descriptors : List CapabilityDescriptor) : List CapabilityDescriptor :=
  descriptors.mergeSort fun first second => first.capabilityID ≤ second.capabilityID

/-- How a search ranks what it finds. -/
structure Ranking (Score : Type) where
  hasTerms : String → Bool
  score : String → List CapabilityDescriptor → ℕ → Score

/-- `_rank_descriptors`, the highest score first. -/
def rankDescriptors {Score : Type} [LinearOrder Score] (ranking : Ranking Score) (query : String)
    (descriptors : List CapabilityDescriptor) : List CapabilityDescriptor :=
  if !ranking.hasTerms query then byID descriptors
  else
    (descriptors.zipIdx.mergeSort fun first second =>
      ranking.score query descriptors second.2 < ranking.score query descriptors first.2 ∨
        ranking.score query descriptors first.2 = ranking.score query descriptors second.2 ∧
          first.1.capabilityID ≤ second.1.capabilityID).map Prod.fst

def compactPayload (descriptor : CapabilityDescriptor) : Json :=
  .obj
    [("capability_id", .str descriptor.capabilityID), ("description", .str descriptor.description),
      ("when_to_use", .str descriptor.whenToUse), ("effect", .str descriptor.effect),
      ("workspace_access", .str descriptor.workspaceAccess),
      ("required_sandbox", .arr (descriptor.requiredSandbox.map .str))]

end Discovering

section Promoting

/-- What calls of a tool go to. -/
inductive Callback where
  | discover
  | capability
  deriving DecidableEq, Repr

structure BoundTool where
  descriptor : AgentToolDescriptor
  callback : Callback

/-- What the lock guards. -/
structure Toolset where
  tools : Dict String BoundTool
  revision : ℕ
  promotedSchemaBytes : ℕ

structure ToolsetSnapshot where
  revision : ℕ
  tools : List (String × BoundTool)

def Toolset.snapshot (toolset : Toolset) : ToolsetSnapshot := ⟨toolset.revision, toolset.tools.entries⟩

/-- `_discover_descriptor`. -/
def discoverTool : BoundTool :=
  { descriptor :=
      { toolID := capabilityDiscoverToolID
        description :=
          "Discover capabilities authorized by your profile. action='search' ranks matches and automatically " ++
            "promotes up to 5 full-schema native tools within a 30 KB schema budget; call a promoted capability " ++
            "directly on the next turn. action='browse' returns compact metadata, total, and pagination cursor but " ++
            "never promotes tools. Use browse for inventory/listing questions, and search for execution."
        parameterSchema :=
          [("type", .str "object"),
            ("properties", .obj
              [("action", .obj [("type", .str "string"), ("enum", .arr [.str "search", .str "browse"])]),
                ("query", .obj [("type", .str "string")]),
                ("selectors", .obj [("type", .str "array"), ("items", .obj [("type", .str "string")])]),
                ("providers", .obj [("type", .str "array"), ("items", .obj [("type", .str "string")])]),
                ("limit", .obj [("type", .str "integer"), ("minimum", .int 1), ("maximum", .int maxSearchPromotions)]),
                ("page_size", .obj [("type", .str "integer"), ("minimum", .int 1), ("maximum", .int maxBrowsePageSize)]),
                ("cursor", .obj [("type", .str "string")])]),
            ("required", .arr [.str "action"]), ("additionalProperties", .bool false)] }
    callback := .discover }

def Toolset.initial : Toolset :=
  { tools := Dict.empty.set capabilityDiscoverToolID discoverTool, revision := 1, promotedSchemaBytes := 0 }

def bindCapability (descriptor : CapabilityDescriptor) : BoundTool :=
  { descriptor :=
      { toolID := descriptor.capabilityID, description := descriptor.description
        parameterSchema := descriptor.parameterSchema }
    callback := .capability }

def schemaBytes (schema : Arguments) : ℕ := (String.ofList (Json.dumps (.obj schema))).utf8ByteSize

/-- What the loop of `_promote` has come to. -/
structure Promotion where
  toolset : Toolset
  promoted : List String := []
  skipped : List String := []
  changed : Bool := false

/-- One turn of the loop of `_promote`. -/
def promoteOne (promotion : Promotion) (descriptor : CapabilityDescriptor) : Promotion :=
  let id := descriptor.capabilityID
  let size := schemaBytes descriptor.parameterSchema
  if id ∈ promotion.toolset.tools.keys then { promotion with promoted := promotion.promoted ++ [id] }
  else if maxPromotedSchemaBytes < promotion.toolset.promotedSchemaBytes + size then
    { promotion with skipped := promotion.skipped ++ [id] }
  else
    { promotion with
      toolset := { promotion.toolset with
        promotedSchemaBytes := promotion.toolset.promotedSchemaBytes + size
        tools := promotion.toolset.tools.set id (bindCapability descriptor) }
      promoted := promotion.promoted ++ [id]
      changed := true }

/-- `_promote`, under the lock. -/
def promote (toolset : Toolset) (descriptors : List CapabilityDescriptor) : Promotion :=
  let promotion := descriptors.foldl promoteOne { toolset }
  if promotion.changed then
    { promotion with toolset := { promotion.toolset with revision := promotion.toolset.revision + 1 } }
  else promotion

end Promoting

section Searching

/-- A search: the catalogue is asked, the lock is waited for, and the tools are looked at. -/
inductive Search where
  | listing (query : String) (providers selectors : List String) (limit : ℕ)
  | promoting (found : List CapabilityDescriptor)
  | reporting (found : List CapabilityDescriptor) (promoted skipped : List String)
  | done
  | raised (message : String)

/-- What a search tells. -/
structure SearchReport where
  found : List CapabilityDescriptor
  promoted : List String
  skipped : List String
  snapshot : ToolsetSnapshot

def SearchReport.payload (report : SearchReport) : Json :=
  .obj
    [("action", .str "search"), ("matches", .arr (report.found.map compactPayload)),
      ("promoted_capability_ids", .arr (report.promoted.map .str)),
      ("skipped_schema_budget", .arr (report.skipped.map .str)), ("toolset_revision", .int report.snapshot.revision)]

/-- The tools, the searches that are under way, and what was seen of the tools so far, the oldest first. -/
structure State where
  toolset : Toolset := .initial
  searches : List Search := []
  snapshots : List ToolsetSnapshot := []
  reports : List SearchReport := []

inductive Step where
  | search (call : Discovery)
  /-- The catalogue answers a search. -/
  | listed (search : ℕ) (reply : List CapabilityDescriptor)
  | promoted (search : ℕ)
  | reported (search : ℕ)
  | snapshot

/-- The start of `_search`, up to the question to the catalogue. -/
def beginSearch (repr : String → String) (call : Discovery) : Except String Search := do
  let query := strip call.query
  let (providers, selectors) ← filters repr call
  refuseIf (query = "" ∧ selectors = []) "search requires query or selectors; use browse to list capabilities."
  return .listing query providers selectors (clamped maxSearchPromotions maxSearchPromotions call.limit)

variable {Score : Type} [LinearOrder Score]

def searchMatches (repr : String → String) (ceiling : CapabilityCeiling) (ranking : Ranking Score) (query : String)
    (limit : ℕ) (reply : List CapabilityDescriptor) : Except String (List CapabilityDescriptor) := do
  let descriptors ← authorizedDescriptors repr ceiling reply
  let ranked := if query ≠ "" then rankDescriptors ranking query descriptors else byID descriptors
  return ranked.take limit

def next (repr : String → String) (ceiling : CapabilityCeiling) (ranking : Ranking Score) (state : State) :
    Step → Option State
  | .search call =>
      match beginSearch repr call with
      | .ok search => some { state with searches := state.searches ++ [search] }
      | .error _ => some state
  | .listed index reply =>
      match state.searches[index]? with
      | some (.listing query _ _ limit) =>
          match searchMatches repr ceiling ranking query limit reply with
          | .ok found => some { state with searches := state.searches.set index (.promoting found) }
          | .error message => some { state with searches := state.searches.set index (.raised message) }
      | _ => none
  | .promoted index =>
      match state.searches[index]? with
      | some (.promoting found) =>
          let promotion := promote state.toolset found
          some { state with
            toolset := promotion.toolset
            searches := state.searches.set index (.reporting found promotion.promoted promotion.skipped) }
      | _ => none
  | .reported index =>
      match state.searches[index]? with
      | some (.reporting found promoted skipped) =>
          some { state with
            searches := state.searches.set index .done
            snapshots := state.snapshots ++ [state.toolset.snapshot]
            reports := state.reports ++ [⟨found, promoted, skipped, state.toolset.snapshot⟩] }
      | _ => none
  | .snapshot => some { state with snapshots := state.snapshots ++ [state.toolset.snapshot] }

def system (repr : String → String) (ceiling : CapabilityCeiling) (ranking : Ranking Score) : System State Step :=
  .ofNext (next repr ceiling ranking)

end Searching

end Sico.TaskRuntime.ToolController
