import Mathlib.Data.List.Sort
import Sico.Preparation.Request

/-! # Capabilities of a source

The descriptors of a catalogue that a source may use: those it names, or else the public ones of a
provider. The catalogue is a parameter.
-/

namespace Sico.Preparation

open Foundation AgentLoop

section Catalogue

/-- `CapabilityVisibility`: public, or internal. -/
inductive Visibility where
  | everyone
  | internal
  deriving DecidableEq, Repr

/-- A parameter schema: its properties, if they are a mapping, the names it requires, and the
whole of it. -/
structure ParameterSchema where
  properties : Option (Dict String Value) := none
  required : List String := []
  document : Value := .dict []

/-- A descriptor, with the capability ID as `normalize_capability_id` leaves it. -/
structure CapabilityDescriptor where
  capabilityID : String
  parameterSchema : ParameterSchema := {}
  requiredSandbox : List String := []
  visibility : Visibility := .everyone
  canonical : normalizeCapabilityID capabilityID = some capabilityID

def CapabilityDescriptor.providerID (descriptor : CapabilityDescriptor) : String :=
  (splitCapabilityID descriptor.capabilityID).1

/-- The descriptor with an ID: the last of several. -/
def descriptorOf (catalogue : List CapabilityDescriptor) (capabilityID : String) :
    Option CapabilityDescriptor :=
  catalogue.reverse.find? fun descriptor => descriptor.capabilityID = capabilityID

/-- `sorted` of a set of texts. -/
def sortedTexts (texts : List String) : List String := texts.dedup.insertionSort (· ≤ ·)

/-- The capability IDs that a source names, without the blank ones. -/
def namedCapabilityIDs (capabilityIDs : List String) : Except Stop (List String) :=
  (capabilityIDs.filter fun capabilityID => strip capabilityID ≠ "").mapM capabilityIDOf

def sourceDescriptors (capabilityIDs : List String) (catalogue : List CapabilityDescriptor)
    (provider : String) : Except Stop (List CapabilityDescriptor) :=
  if capabilityIDs = [] then
    .ok (catalogue.filter fun descriptor =>
      descriptor.providerID = provider ∧ descriptor.visibility = .everyone)
  else do
    let named ← namedCapabilityIDs capabilityIDs
    let unknown := named.filter fun capabilityID => (descriptorOf catalogue capabilityID).isNone
    refuseIf (unknown ≠ []) (.rejected ⟨"preparation_unknown_capability",
      [("unknown_capabilities", .strings (sortedTexts unknown))]⟩)
    return named.eraseDups.filterMap (descriptorOf catalogue)

end Catalogue

section Items

def padded (width number : ℕ) : String :=
  let digits := toString number
  String.ofList (List.replicate (width - digits.length) '0') ++ digits

end Items

end Sico.Preparation
