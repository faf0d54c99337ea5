import Sico.Foundation.Json

/-! # What the adapters return

The outputs of a model, one constructor for each type an output can have, with the fields
that outputs of the type use; annotations that are missing are the empty list. A response holds the outputs of a finished call; a stream
gives them in chunks.
-/

namespace Sico.LlmHubs

open Foundation

inductive OutputItem where
  | text (text : String) (annotations : List Json)
  | refusal (text : String)
  | functionCall (callID name arguments : String)
  | webSearchCall (callID : String) (action : Option Json)
  | computerCall (callID : String) (actions : Option (List Json))

structure Usage where
  promptTokens : ℤ := 0
  completionTokens : ℤ := 0
  totalTokens : ℤ := 0
  deriving DecidableEq, Repr

structure Response where
  outputs : List OutputItem
  usage : Usage

structure StreamChunk where
  delta : String := ""
  outputs : List OutputItem := []
  finishReason : Option String := none
  usage : Option Usage := none

namespace OutputItem

def textOf : OutputItem → String
  | .text content _ => content
  | _ => ""

def refusalOf : OutputItem → String
  | .refusal content => content
  | _ => ""

def isText : OutputItem → Bool
  | .text _ _ => true
  | _ => false

def isFunctionCall : OutputItem → Bool
  | .functionCall _ _ _ => true
  | _ => false

end OutputItem

def textsOf (outputs : List OutputItem) : String := String.join (outputs.map OutputItem.textOf)

def refusalsOf (outputs : List OutputItem) : String :=
  String.join (outputs.map OutputItem.refusalOf)

theorem textsOf_append (first second : List OutputItem) :
    textsOf (first ++ second) = textsOf first ++ textsOf second := by
  rw [textsOf, List.map_append, String.join_append]
  rfl

theorem refusalsOf_append (first second : List OutputItem) :
    refusalsOf (first ++ second) = refusalsOf first ++ refusalsOf second := by
  rw [refusalsOf, List.map_append, String.join_append]
  rfl

end Sico.LlmHubs
