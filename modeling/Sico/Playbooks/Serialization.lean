import Mathlib.Data.Finset.Sort
import Mathlib.Data.String.Basic
import Sico.Foundation.JsonStyles
import Sico.Foundation.System
import Sico.Playbooks.Model

/-! # Verdicts that keep bullets apart, and the text of a playbook

The curator may decide that bullets stay apart: a verdict is kept under the set of the identifiers of each two of
them. A playbook is written as a JSON document. A set of identifiers is written as these in their order with
commas between them, and is read by splitting the text at commas.

Embeddings are left out: no operation and no action computes one, and `null` is written for a bullet without. What
is not of the type of its field is not read.
-/

namespace Sico.Playbooks

open Foundation

section Verdicts

/-- A score is known by its text. -/
structure ConsolidationVerdict where
  verdict : String
  rationale : String
  cosineScore : String
  judgedAt : String
  judgeModel : String := ""
  deriving DecidableEq, Repr

/-- A playbook with its verdicts. -/
structure Judged where
  playbook : Playbook
  similarityDecisions : Dict (Finset String) ConsolidationVerdict

namespace Judged

def empty : Judged := ⟨.empty, .empty⟩

def setSimilarityDecision (judged : Judged) (first second : String) (decision : ConsolidationVerdict) : Judged :=
  { judged with similarityDecisions := judged.similarityDecisions.set {first, second} decision }

def hasKeepDecision (judged : Judged) (first second : String) : Bool :=
  match judged.similarityDecisions.get? {first, second} with
  | none => false
  | some decision => decision.verdict = "keep_both"

/-- Each two of some identifiers. -/
def pairs : List String → List (String × String)
  | [] => []
  | id :: later => later.map (fun other => (id, other)) ++ pairs later

def applyKeep (judged : Judged) (targetIDs : List String) (reasoning differentiation now : String) : Judged :=
  if targetIDs.length < 2 then judged
  else
    (pairs targetIDs).foldl (fun judged pair => judged.setSimilarityDecision pair.1 pair.2
      { verdict := "keep_both", rationale := if reasoning = "" then differentiation else reasoning
        cosineScore := "0.0", judgedAt := now }) judged

end Judged

/-- What the curator has done: an operation of a delta, or an action with the reasons in its payload. -/
inductive Curation where
  | operation (operation : DeltaOperation) (now : String)
  | consolidation (action : ConsolidationAction) (reasoning differentiation now : String)

def Judged.curate (judged : Judged) : Curation → Judged
  | .operation operation now => { judged with playbook := judged.playbook.applyOperation operation now }
  | .consolidation action reasoning differentiation now =>
      match action with
      | .keep targetIDs => judged.applyKeep targetIDs reasoning differentiation now
      | .merge .. | .drop .. | .patch .. =>
          { judged with playbook := judged.playbook.applyConsolidation action now }

def curation : System Judged Curation := .ofNext fun judged label => some (judged.curate label)

end Verdicts

section Writing

def BulletStatus.text : BulletStatus → String
  | .active => "active"
  | .invalid => "invalid"

/-- `asdict` of a bullet. -/
def Bullet.members (bullet : Bullet) : List (String × Json) :=
  [("id", .str bullet.id), ("section", .str bullet.section_), ("content", .str bullet.content),
    ("helpful", .int bullet.helpful), ("harmful", .int bullet.harmful), ("neutral", .int bullet.neutral),
    ("created_at", .str bullet.createdAt), ("updated_at", .str bullet.updatedAt), ("embedding", .null),
    ("status", .str bullet.status.text)]

/-- `asdict` of a verdict. -/
def ConsolidationVerdict.members (decision : ConsolidationVerdict) : List (String × Json) :=
  [("verdict", .str decision.verdict), ("rationale", .str decision.rationale),
    ("cosine_score", .float decision.cosineScore), ("judged_at", .str decision.judgedAt),
    ("judge_model", .str decision.judgeModel)]

/-- `",".join(sorted(pair_ids))`. -/
def pairKey (ids : Finset String) : String := String.ofList ([','].intercalate (ids.sort.map String.toList))

namespace Judged

/-- The verdicts under the texts of their sets: of two sets with one text the later is written. -/
def decisionMembers (judged : Judged) : Dict String Json :=
  Dict.empty.write (judged.similarityDecisions.entries.map fun entry => (pairKey entry.1, .obj entry.2.members))

def members (judged : Judged) : List (String × Json) :=
  [("bullets", .obj (judged.playbook.bullets.entries.map fun entry => (entry.1, .obj entry.2.members))),
    ("sections", .obj (judged.playbook.sections.entries.map fun entry => (entry.1, .arr (entry.2.map .str)))),
    ("next_id", .int judged.playbook.nextID), ("similarity_decisions", .obj judged.decisionMembers.entries)]

def toDict (judged : Judged) : Json := .obj judged.members

def dumps (judged : Judged) : List Char := Json.indented.written 0 judged.toDict

end Judged

end Writing

section Reading

variable {Value : Type}

def readText : Json → Option String
  | .str text => some text
  | _ => none

def readInteger : Json → Option ℤ
  | .int value => some value
  | _ => none

def readScore : Json → Option String
  | .float literal => some literal
  | _ => none

def readStatus : Json → Option BulletStatus
  | .str text => if text = "active" then some .active else if text = "invalid" then some .invalid else none
  | _ => none

/-- A field without a default. -/
def required (read : Json → Option Value) (members : List (String × Json)) (name : String) : Option Value :=
  (Members.get? members name).bind read

def optional (read : Json → Option Value) (default : Value) (members : List (String × Json)) (name : String) :
    Option Value :=
  match Members.get? members name with
  | none => some default
  | some json => read json

def bulletFields : List String :=
  ["id", "section", "content", "helpful", "harmful", "neutral", "created_at", "updated_at", "embedding", "status"]

/-- `Bullet(**bullet_data)`: a name that is no field is refused. -/
def readBullet (now : String) (members : List (String × Json)) : Option Bullet :=
  if members.all fun member => member.1 ∈ bulletFields then do
    let id ← required readText members "id"
    let name ← required readText members "section"
    let content ← required readText members "content"
    let helpful ← optional readInteger 0 members "helpful"
    let harmful ← optional readInteger 0 members "harmful"
    let neutral ← optional readInteger 0 members "neutral"
    let createdAt ← optional readText now members "created_at"
    let updatedAt ← optional readText now members "updated_at"
    let status ← optional readStatus .active members "status"
    return { id, section_ := name, content, helpful, harmful, neutral, createdAt, updatedAt, status }
  else none

def verdictFieldMap : List (String × String) :=
  [("decision", "verdict"), ("reasoning", "rationale"), ("decided_at", "judged_at"),
    ("similarity_at_decision", "cosine_score")]

def verdictValueMap : Json → Json
  | .str text => .str (if text = "KEEP" then "keep_both" else text)
  | json => json

def migrateVerdictDict (members : List (String × Json)) : List (String × Json) :=
  let result := members.foldl (fun result member =>
    let name := (verdictFieldMap.lookup member.1).getD member.1
    Members.put result name (if name = "verdict" then verdictValueMap member.2 else member.2)) []
  Members.setDefault result "judge_model" (.str "")

def verdictFields : List String := ["verdict", "rationale", "cosine_score", "judged_at", "judge_model"]

/-- `ConsolidationVerdict(**dv)`. -/
def readVerdict (members : List (String × Json)) : Option ConsolidationVerdict :=
  if members.all fun member => member.1 ∈ verdictFields then do
    let verdict ← required readText members "verdict"
    let rationale ← required readText members "rationale"
    let cosineScore ← required readScore members "cosine_score"
    let judgedAt ← required readText members "judged_at"
    let judgeModel ← optional readText "" members "judge_model"
    return { verdict, rationale, cosineScore, judgedAt, judgeModel }
  else none

/-- The members that are objects: others are passed over. -/
def objects (members : List (String × Json)) : List (String × List (String × Json)) :=
  members.filterMap fun member =>
    match member.2 with
    | .obj inner => some (member.1, inner)
    | _ => none

/-- `list(ids) if isinstance(ids, Iterable) else []`. -/
def readIDs : Json → Option (List String)
  | .arr items => items.mapM readText
  | .str text => some (text.toList.map fun letter => String.ofList [letter])
  | .obj members => some (members.map Prod.fst)
  | _ => some []

/-- `frozenset(pair_key_str.split(","))`. -/
def pairIDs (key : String) : Finset String := ((key.toList.splitOn ',').map String.ofList).toFinset

def readBullets (now : String) : Option Json → Option (Dict String Bullet)
  | some (.obj members) =>
      ((objects members).mapM fun entry => (readBullet now entry.2).map fun bullet => (entry.1, bullet)).map
        Dict.empty.write
  | _ => some .empty

def readSections : Option Json → Option (Dict String (List String))
  | some (.obj members) =>
      (members.mapM fun entry => (readIDs entry.2).map fun ids => (entry.1, ids)).map Dict.empty.write
  | _ => some .empty

def readNextID : Option Json → Option ℕ
  | none => some 0
  | some .null => some 0
  | some (.int value) => if 0 ≤ value then some value.toNat else none
  | _ => none

def readDecisions : Option Json → Option (Dict (Finset String) ConsolidationVerdict)
  | some (.obj members) =>
      ((objects members).mapM fun entry =>
        (readVerdict (migrateVerdictDict entry.2)).map fun decision => (pairIDs entry.1, decision)).map
          Dict.empty.write
  | _ => some .empty

namespace Judged

def fromDict (now : String) (payload : List (String × Json)) : Option Judged := do
  let bullets ← readBullets now (Members.get? payload "bullets")
  let sections ← readSections (Members.get? payload "sections")
  let nextID ← readNextID (Members.get? payload "next_id")
  let similarityDecisions ← readDecisions (Members.get? payload "similarity_decisions")
  return { playbook := { bullets, sections, nextID }, similarityDecisions }

def loads (floatText : String → String) (now : String) (text : List Char) : Option Judged :=
  match Json.loads floatText text with
  | some (.obj payload) => fromDict now payload
  | _ => none

end Judged

end Reading

end Sico.Playbooks
