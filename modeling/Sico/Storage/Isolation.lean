import Sico.Foundation.Numerals
import Sico.Foundation.Paths

/-! # Directories of conversations

The directory of a conversation lies below that of its user, whose name is the username with
some characters replaced, and the lock of a plan is named after the username itself. Two
usernames may be replaced by the same text, and a username may have slashes and dots: its
directory may lie inside that of a conversation of another user, or anywhere.
-/

namespace Sico.Storage

open Foundation

/-- What a directory of a conversation is named after. -/
structure ConversationKey where
  agentInstanceID : ℤ
  userID : String
  conversationID : ℤ
  deriving DecidableEq

/-- `str.replace` of a character. -/
def replaceChar (old : Char) (new text : String) : String :=
  String.ofList (text.toList.flatMap fun c => if c = old then new.toList else [c])

def sanitizeUserID (userID : String) : String := replaceChar ':' "_" (replaceChar '@' "_at_" userID)

section ChatFS

variable (root : Location)

def getUserPath (agentInstanceID : ℤ) (userID : String) : Location :=
  joinPath (joinPath (joinPath (joinPath root "agent_instance") (toString agentInstanceID)) "user")
    (sanitizeUserID userID)

def getConversationPath (key : ConversationKey) : Location :=
  joinPath (joinPath (getUserPath root key.agentInstanceID key.userID) "conversation") (toString key.conversationID)

/-- `PlanFS._get_path`, in the directory of a turn. -/
def getPlanPath (key : ConversationKey) (turnID : ℤ) : Location :=
  joinPath (joinPath (joinPath (getConversationPath root key) "turn") (toString turnID)) "plan.json"

def getLockName (key : ConversationKey) (turnID : ℤ) : String :=
  "plan:" ++ toString key.agentInstanceID ++ ":" ++ key.userID ++ ":" ++ toString key.conversationID ++ ":" ++
    toString turnID

/-- What is asked of two conversations. -/
structure Isolated (first second : ConversationKey) : Prop where
  apart : first ≠ second →
    ¬ getConversationPath root first <+: getConversationPath root second ∧
      ¬ getConversationPath root second <+: getConversationPath root first
  contained : root <+: getConversationPath root first ∧ root <+: getConversationPath root second
  locks : ∀ turnID turnID', getPlanPath root first turnID = getPlanPath root second turnID' →
    getLockName first turnID = getLockName second turnID'

end ChatFS

/-- The names of a user's directory, below the users of the agent instance, where the username
does not lead above them. -/
def userNames (userID : String) : Option (List String) := namesBelow (sanitizeUserID userID)

/-- The names of a conversation below those of its user. -/
def conversationNames (conversationID : ℤ) : List String := ["conversation", toString conversationID]

section Names

variable {root : Location} {key first second : ConversationKey} {names names' : List String}

theorem isName_toString (number : ℤ) : IsName (toString number) := by
  obtain ⟨digit, last, isDigit⟩ := getLast?_toString_int number
  have ends {text : String} {c : Char} (other : c.isDigit = false) (same : text.toList.getLast? = some c) :
      toString number ≠ text := by
    intro equal
    rw [equal, same] at last
    obtain rfl := Option.some.inj last
    rw [other] at isDigit
    cases isDigit
  refine ⟨notMem_toString_int rfl (by decide) number, ?_, ends (c := '.') rfl rfl, ends (c := '.') rfl rfl⟩
  intro empty
  rw [empty] at last
  cases last

theorem isName_conversation : IsName "conversation" := ⟨by decide, by decide, by decide, by decide⟩

theorem isName_user : IsName "user" := ⟨by decide, by decide, by decide, by decide⟩

theorem isName_agentInstance : IsName "agent_instance" := ⟨by decide, by decide, by decide, by decide⟩

theorem isName_turn : IsName "turn" := ⟨by decide, by decide, by decide, by decide⟩

theorem isName_plan : IsName "plan.json" := ⟨by decide, by decide, by decide, by decide⟩

theorem toString_ne_conversation (number : ℤ) : toString number ≠ "conversation" := by
  intro same
  obtain ⟨digit, last, isDigit⟩ := getLast?_toString_int number
  rw [same] at last
  obtain rfl := Option.some.inj last
  cases isDigit

theorem getConversationPath_eq (below : userNames key.userID = some names) :
    getConversationPath root key =
      root ++ ("agent_instance" :: toString key.agentInstanceID :: "user" ::
        (names ++ conversationNames key.conversationID)) := by
  unfold getConversationPath getUserPath
  rw [joinPath_name _ isName_agentInstance, joinPath_name _ (isName_toString _), joinPath_name _ isName_user,
    joinPath_below _ below, joinPath_name _ isName_conversation, joinPath_name _ (isName_toString _)]
  simp [conversationNames]

theorem getPlanPath_eq (root : Location) (key : ConversationKey) (turnID : ℤ) :
    getPlanPath root key turnID = getConversationPath root key ++ ["turn", toString turnID, "plan.json"] := by
  unfold getPlanPath
  rw [joinPath_name _ isName_turn, joinPath_name _ (isName_toString _), joinPath_name _ isName_plan]
  simp

theorem prefix_conversationNames {conversationID conversationID' : ℤ} :
    names ++ conversationNames conversationID <+: names' ++ conversationNames conversationID' ↔
      (names = names' ∧ conversationID = conversationID') ∨ names ++ conversationNames conversationID <+: names' := by
  have unfolded (names : List String) (number : ℤ) :
      names ++ conversationNames number = names ++ ["conversation"] ++ [toString number] := by
    simp [conversationNames]
  constructor
  · intro within
    rw [unfolded names', List.prefix_concat_iff] at within
    rcases within with same | within
    · rw [unfolded] at same
      obtain ⟨same, number⟩ := List.append_inj' same rfl
      left
      exact ⟨List.append_cancel_right same, toString_int_injective (List.singleton_inj.mp number)⟩
    · rw [List.prefix_concat_iff] at within
      rcases within with same | within
      · rw [unfolded] at same
        obtain ⟨-, number⟩ := List.append_inj' same rfl
        exact absurd (List.singleton_inj.mp number) (toString_ne_conversation conversationID)
      · exact .inr within
  · intro within
    rcases within with ⟨rfl, rfl⟩ | within
    · exact List.prefix_refl _
    · exact within.trans (List.prefix_append _ _)

theorem starts_getConversationPath (below : userNames first.userID = some names)
    (below' : userNames second.userID = some names') :
    getConversationPath root first <+: getConversationPath root second ↔
      first.agentInstanceID = second.agentInstanceID ∧
        ((names = names' ∧ first.conversationID = second.conversationID) ∨
          names ++ conversationNames first.conversationID <+: names') := by
  rw [getConversationPath_eq below, getConversationPath_eq below', List.prefix_append_right_inj,
    List.cons_prefix_cons, List.cons_prefix_cons, List.cons_prefix_cons, prefix_conversationNames]
  constructor
  · intro within
    exact ⟨toString_int_injective within.2.1, within.2.2.2⟩
  · intro within
    exact ⟨rfl, by rw [within.1], rfl, within.2⟩

theorem getLockName_injective {turnID : ℤ} (sameInstance : first.agentInstanceID = second.agentInstanceID)
    (sameConversation : first.conversationID = second.conversationID)
    (same : getLockName first turnID = getLockName second turnID) : first.userID = second.userID := by
  unfold getLockName at same
  rw [sameInstance, sameConversation] at same
  have texts := congrArg String.toList same
  simp only [String.toList_append, List.append_assoc, List.append_cancel_left_eq, List.append_cancel_right_eq] at texts
  exact String.toList_inj.mp texts

end Names

section Isolation

variable {root : Location} {first second : ConversationKey} {names names' : List String}

/-- What two usernames need, by the names of their directories below the users of one agent
instance. The same names belong to the same username where the conversation is the same, and
neither directory lies inside the conversation of the other. -/
def Separates (first second : ConversationKey) (names names' : List String) : Prop :=
  first.agentInstanceID = second.agentInstanceID →
    (names = names' → first.conversationID = second.conversationID → first.userID = second.userID) ∧
      ¬ names ++ conversationNames first.conversationID <+: names' ∧
      ¬ names' ++ conversationNames second.conversationID <+: names

theorem isolated_of_separates (below : userNames first.userID = some names)
    (below' : userNames second.userID = some names') (separates : Separates first second names names') :
    Isolated root first second where
  apart := by
    have equal (sameInstance : first.agentInstanceID = second.agentInstanceID) (same : names = names')
        (sameConversation : first.conversationID = second.conversationID) : first = second := by
      have sameUser := (separates sameInstance).1 same sameConversation
      obtain ⟨instanceID, userID, conversationID⟩ := first
      obtain ⟨instanceID', userID', conversationID'⟩ := second
      dsimp only at sameInstance sameUser sameConversation
      rw [sameInstance, sameUser, sameConversation]
    intro different
    rw [starts_getConversationPath below below', starts_getConversationPath below' below]
    constructor
    · intro within
      obtain ⟨sameInstance, ⟨same, sameConversation⟩ | inside⟩ := within
      · exact different (equal sameInstance same sameConversation)
      · exact (separates sameInstance).2.1 inside
    · intro within
      obtain ⟨sameInstance, ⟨same, sameConversation⟩ | inside⟩ := within
      · exact different (equal sameInstance.symm same.symm sameConversation.symm)
      · exact (separates sameInstance.symm).2.2 inside
  contained := by
    rw [getConversationPath_eq below, getConversationPath_eq below']
    exact ⟨List.prefix_append _ _, List.prefix_append _ _⟩
  locks := by
    intro turnID turnID' same
    rw [getPlanPath_eq, getPlanPath_eq] at same
    obtain ⟨directory, turn⟩ := List.append_inj' same rfl
    have sameTurn : turnID = turnID' := toString_int_injective (List.cons.inj (List.cons.inj turn).2).1
    have within : getConversationPath root first <+: getConversationPath root second :=
      ⟨[], by rw [List.append_nil, directory]⟩
    rw [starts_getConversationPath below below'] at within
    obtain ⟨sameInstance, ⟨sameNames, sameConversation⟩ | inside⟩ := within
    · have sameUser := (separates sameInstance).1 sameNames sameConversation
      unfold getLockName
      rw [sameInstance, sameUser, sameConversation, sameTurn]
    · exact absurd inside (separates sameInstance).2.1

theorem ne_of_inside (below : userNames first.userID = some names) (below' : userNames second.userID = some names')
    (inside : names ++ conversationNames first.conversationID <+: names') : first ≠ second := by
  intro same
  rw [same, below'] at below
  obtain rfl := Option.some.inj below
  have length := inside.length_le
  simp only [conversationNames, List.length_append, List.length_cons, List.length_nil] at length
  omega

theorem separates_of_isolated (below : userNames first.userID = some names)
    (below' : userNames second.userID = some names') (isolated : Isolated root first second) :
    Separates first second names names' := by
  intro sameInstance
  refine ⟨fun same sameConversation => ?_, fun inside => ?_, fun inside => ?_⟩
  · have directory : getConversationPath root first = getConversationPath root second := by
      rw [getConversationPath_eq below, getConversationPath_eq below', same, sameInstance, sameConversation]
    apply getLockName_injective sameInstance sameConversation
    apply isolated.locks 0 0
    rw [getPlanPath_eq, getPlanPath_eq, directory]
  · apply (isolated.apart (ne_of_inside below below' inside)).1
    exact (starts_getConversationPath below below').mpr ⟨sameInstance, .inr inside⟩
  · apply (isolated.apart (ne_of_inside below' below inside).symm).2
    exact (starts_getConversationPath below' below).mpr ⟨sameInstance.symm, .inr inside⟩

/-- **Isolation.** Two conversations of users whose names do not lead above the users' directory
are isolated if and only if the names separate them. -/
theorem isolated_iff_separates (root : Location) (below : userNames first.userID = some names)
    (below' : userNames second.userID = some names') :
    Isolated root first second ↔ Separates first second names names' :=
  ⟨separates_of_isolated below below', isolated_of_separates below below'⟩

instance : Decidable (Separates first second names names') := inferInstanceAs (Decidable (_ → _))

def ada : ConversationKey := ⟨3, "ada@example.com", 7⟩

def bob : ConversationKey := ⟨3, "bob@example.com", 8⟩

theorem isolated_colleagues : Isolated ["data", "chat"] ada bob := by
  have below : userNames ada.userID = some ["ada_at_example.com"] := by decide
  have below' : userNames bob.userID = some ["bob_at_example.com"] := by decide
  exact (isolated_iff_separates _ below below').mpr (by decide)

/-- Two users with one directory and two locks. -/
theorem not_isolated_replaced : ¬ Isolated ["data", "chat"] ⟨3, "a@b", 7⟩ ⟨3, "a_at_b", 7⟩ := by
  intro isolated
  have locks := isolated.locks 1 1 (by decide)
  revert locks
  decide

end Isolation

end Sico.Storage
