import Sico.Foundation.Dict
import Sico.Foundation.Paths
import Sico.Sources.Model

/-! # Delegate requests

What the delegate tool is told of a tabular source: the documents that its rows are selected of, the
capabilities that the rows may use, and how many rows there may be.

A preparation ends early with a clarification that the user is asked for, with a rejection, or
with an exception.
-/

namespace Sico.Preparation

open Foundation AgentLoop

section Values

/-- A value of a JSON document or of a cell. A date or a time stands by its `isoformat`. -/
inductive Value where
  | null
  | bool (value : Bool)
  | int (value : ℤ)
  | float (literal : String)
  | str (text : String)
  | moment (text : String)
  | list (items : List Value)
  | dict (members : List (String × Value))
  deriving Repr, Inhabited

def Value.strings (texts : List String) : Value := .list (texts.map .str)

end Values

section Outcomes

/-- The code of an outcome and the details that go with it. -/
structure Refusal where
  code : String
  details : List (String × Value) := []

/-- How a preparation ends without a batch: `NeedsClarification`, `Rejected`, or an exception
with its code. -/
inductive Stop where
  | needsClarification (refusal : Refusal)
  | rejected (refusal : Refusal)
  | raised (code : String)

/-- `normalize_capability_id`, which raises for a selector. -/
def capabilityIDOf (value : String) : Except Stop String :=
  match normalizeCapabilityID value with
  | some capabilityID => .ok capabilityID
  | none => .error (.raised "ValueError")

end Outcomes

section Specs

structure TabularDocumentSpec where
  sourceRef : String
  sheetNames : List String := []
  rowStart : Option ℕ := none
  rowEnd : Option ℕ := none
  caseIDs : List String := []

inductive BindingSource where
  | column
  | documentPath
  | sheetName
  | rowIndex
  | sourceRow
  | caseID
  | goal
  | title
  | literal
  deriving DecidableEq, Repr

inductive Transform where
  | identity
  | stringToInteger
  | stringToNumber
  | json
  deriving DecidableEq, Repr

/-- A `ParameterBindingSpec`, and the `BindingRule` that is made of it. -/
structure BindingRule where
  source : BindingSource
  column : String := ""
  value : Value := .null
  transform : Transform := .identity

def maxDelegateWorkItems : ℕ := 500

structure TabularSourceSpec where
  documents : List TabularDocumentSpec
  capabilityIDs : List String := []
  parameterBindings : Dict String BindingRule := .empty
  maxRows : ℕ := maxDelegateWorkItems
  stage : ℕ := 0

end Specs

end Sico.Preparation
