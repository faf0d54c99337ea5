import Sico.Foundation.JsonFinding
import Sico.Foundation.SortedMap
import Sico.Sandbox.Leasing

/-! # Leases as they are stored

A lease is stored as the text of a document, and the script that acquires it does not read the document: it looks for
the owner and for the use in the text, and replaces the use there. What it stores is the text of the lease in use
(`Sico.Sandbox.LeaseRecord.acquireLeaseText_marshal`). It finds the use of the lease itself, since no other member has a truth
value, but the owner it finds may be an entry of the metadata (`Sico.Sandbox.LeaseRecord.meansWhatItSays_iff`).

A time is known by the text it is written as; which texts are those of times is a parameter.
-/

namespace Sico.Sandbox

open Foundation Foundation.Json Foundation.Replacement

section Records

variable (isTime : String → Bool)

/-- `time.Time`. -/
abbrev Timestamp := { text : String // isTime text }

/-- `Lease`. -/
@[ext] structure LeaseRecord where
  sandboxID : String
  type : String
  resourceID : String
  user : String
  inUse : Bool
  createdAt : Timestamp isTime
  metadata : Option (SortedMap String String)
  providerMissingSinceAt : Option (Timestamp isTime)

variable {isTime}

namespace LeaseRecord

/-- What `encoding/json` writes of the metadata: of a map the entries in the order of their keys. -/
def metadataDocument : Option (SortedMap String String) → Json
  | none => .null
  | some entries => .obj (entries.entries.map fun entry => (entry.1, .str entry.2))

/-- The members before the use of the lease, and those behind it. -/
def front (lease : LeaseRecord isTime) : List (String × Json) :=
  [("SandboxID", .str lease.sandboxID), ("Type", .str lease.type), ("ResourceID", .str lease.resourceID),
    ("User", .str lease.user)]

def back (lease : LeaseRecord isTime) : List (String × Json) :=
  [("CreatedAt", .str lease.createdAt.val), ("Metadata", metadataDocument lease.metadata)] ++
    lease.providerMissingSinceAt.toList.map fun since => ("ProviderMissingSinceAt", .str since.val)

def members (lease : LeaseRecord isTime) : List (String × Json) :=
  lease.front ++ ("InUse", .bool lease.inUse) :: lease.back

def document (lease : LeaseRecord isTime) : Json := .obj lease.members

def marshal (lease : LeaseRecord isTime) : List Char := goCompact.written 0 lease.document

end LeaseRecord

/-- Decoding into a `bool`. -/
def intoBool (current : Bool) : Json → Option Bool
  | .null => some current
  | .bool value => some value
  | _ => none

/-- Decoding into a `time.Time`. -/
def intoTime (current : Timestamp isTime) : Json → Option (Timestamp isTime)
  | .null => some current
  | .str text => if time : isTime text then some ⟨text, time⟩ else none
  | _ => none

/-- Decoding into a pointer to a `time.Time`. -/
def intoTimePointer (_ : Option (Timestamp isTime)) : Json → Option (Option (Timestamp isTime))
  | .null => some none
  | .str text => if time : isTime text then some (some ⟨text, time⟩) else none
  | _ => none

/-- Decoding members into a `map[string]string`. -/
def intoEntries (current : SortedMap String String) : List (String × Json) → Option (SortedMap String String)
  | [] => some current
  | (key, .str value) :: rest => intoEntries (current.insert key value) rest
  | (key, .null) :: rest => intoEntries (current.insert key "") rest
  | _ => none

def intoMetadata (current : Option (SortedMap String String)) : Json → Option (Option (SortedMap String String))
  | .null => some none
  | .obj members => (intoEntries (current.getD .empty) members).map some
  | _ => none

/-- `json.Unmarshal`, with the time that is read where there is none. -/
def LeaseRecord.ofDocument (zeroTime : Timestamp isTime) : Json → Option (LeaseRecord isTime)
  | .null => some ⟨"", "", "", "", false, zeroTime, none, none⟩
  | .obj members => do
      let sandboxID ← readField intoText "" "sandboxid" members
      let type ← readField intoText "" "type" members
      let resourceID ← readField intoText "" "resourceid" members
      let user ← readField intoText "" "user" members
      let inUse ← readField intoBool false "inuse" members
      let createdAt ← readField intoTime zeroTime "createdat" members
      let metadata ← readField intoMetadata none "metadata" members
      let providerMissingSinceAt ← readField intoTimePointer none "providermissingsinceat" members
      return { sandboxID, type, resourceID, user, inUse, createdAt, metadata, providerMissingSinceAt }
  | _ => none

def LeaseRecord.unmarshal (zeroTime : Timestamp isTime) (text : List Char) : Option (LeaseRecord isTime) :=
  (loads id text).bind (ofDocument zeroTime)

end Records

section Scripts

def expectedOwnerPattern (instanceID : String) : List Char :=
  "\"User\":".toList ++ goCompact.quoted instanceID

/-- `acquireLeaseScript`, on the text that the lease key holds: what it stores and returns. -/
def acquireLeaseText (val : Option (List Char)) (cooldown : Bool) (owner : List Char) : Option (List Char) :=
  match val with
  | none => none
  | some val =>
      if cooldown then none
      else if owner ≠ [] ∧ ¬ owner <:+: val then none
      else if "\"InUse\":true".toList <:+: val then none
      else
        match replaceFirst "\"InUse\":false".toList "\"InUse\":true".toList val with
        | some updated => some updated
        | none =>
            -- the text is stored as it is where it does not end with a brace
            if val.getLast? = some '\x7d' then some (val.dropLast ++ ",\"InUse\":true".toList ++ ['\x7d']) else some val

end Scripts

section Finding

variable {isTime : String → Bool}

namespace LeaseRecord

variable (lease : LeaseRecord isTime)

def entries : List (String × String) := lease.metadata.elim [] SortedMap.entries

/-- An entry of the metadata that the script takes for the owner: its key is `User`, or ends with a quote and that. -/
def LooksOwned (instanceID : String) : Prop :=
  ∃ entry ∈ lease.entries, NamesLike "User".toList entry.1 ∧ entry.2 = instanceID

instance (instanceID : String) : Decidable (lease.LooksOwned instanceID) :=
  inferInstanceAs (Decidable (∃ entry ∈ lease.entries, _ ∧ _))

theorem metadataDocument_eq (metadata : Option (SortedMap String String)) (test : String → Json → Prop) :
    (metadataDocument metadata).Has test ↔
      ∃ entry ∈ metadata.elim [] SortedMap.entries, test entry.1 (.str entry.2) := by
  cases metadata with
  | none => simp [metadataDocument, Has]
  | some map =>
      have members := @hasMembers_iff test (map.entries.map fun entry => (entry.1, .str entry.2))
      simp only [List.mem_map, exists_exists_and_eq_and] at members
      refine members.trans (exists_congr fun entry => and_congr_right fun _ => ?_)
      exact or_iff_left (has_str entry.2)

theorem proper_document : Proper id lease.document := by
  have metadata : Proper id (metadataDocument lease.metadata) := by
    cases lease.metadata with
    | none => trivial
    | some map =>
        rw [metadataDocument, Proper, properMembers_iff, List.map_map]
        refine ⟨?_, ?_⟩
        · have keys : List.Nodup (map.entries.map Prod.fst) := by
            rw [List.Nodup, List.pairwise_map]
            exact map.ascending.imp ne_of_lt
          exact keys
        · intro member listed
          obtain ⟨entry, _, rfl⟩ := List.mem_map.mp listed
          trivial
  unfold document members front back
  cases lease.providerMissingSinceAt with
  | none =>
      exact ⟨(by decide : List.Nodup ["SandboxID", "Type", "ResourceID", "User", "InUse", "CreatedAt", "Metadata"]),
        trivial, trivial, trivial, trivial, trivial, trivial, metadata, trivial⟩
  | some since =>
      exact ⟨(by decide : List.Nodup ["SandboxID", "Type", "ResourceID", "User", "InUse", "CreatedAt", "Metadata",
          "ProviderMissingSinceAt"]),
        trivial, trivial, trivial, trivial, trivial, trivial, metadata, trivial, trivial⟩

theorem has_document (test : String → Json → Prop) :
    lease.document.Has test ↔
      (∃ member ∈ lease.members, test member.1 member.2) ∨
        ∃ entry ∈ lease.entries, test entry.1 (.str entry.2) := by
  have within : (∃ member ∈ lease.members, member.2.Has test) ↔ (metadataDocument lease.metadata).Has test := by
    unfold members front back
    cases lease.providerMissingSinceAt with
    | none => simp [Has]
    | some since => simp [Has]
  rw [document, Has, hasMembers_iff]
  simp only [and_or_left, exists_or]
  rw [within, metadataDocument_eq]
  rfl

/-- The members of the lease that the script does not look for. -/
def others : List String :=
  ["SandboxID", "Type", "ResourceID", "CreatedAt", "Metadata", "ProviderMissingSinceAt"]

theorem mem_members {member : String × Json} (listed : member ∈ lease.members) :
    member = ("User", .str lease.user) ∨ member = ("InUse", .bool lease.inUse) ∨ member.1 ∈ others := by
  simp only [members, front, back, List.mem_append, List.mem_cons, List.not_mem_nil, or_false, List.mem_map] at listed
  rcases listed with (rfl | rfl | rfl | rfl) | rfl | (rfl | rfl) | ⟨since, _, rfl⟩
  all_goals simp [others]

theorem not_like_others : ∀ key ∈ others, ¬ NamesLike "User".toList key ∧ ¬ NamesLike "InUse".toList key := by
  simp only [others, List.forall_mem_cons]
  decide

theorem has_named {name : List Char} (apart : ∀ key ∈ others, ¬ NamesLike name key) (begun : Json → Prop) :
    (lease.document.Has fun key held => NamesLike name key ∧ begun held) ↔
      (NamesLike name "User" ∧ begun (.str lease.user)) ∨ (NamesLike name "InUse" ∧ begun (.bool lease.inUse)) ∨
        ∃ entry ∈ lease.entries, NamesLike name entry.1 ∧ begun (.str entry.2) := by
  rw [has_document, ← or_assoc]
  refine or_congr ⟨?_, ?_⟩ Iff.rfl
  · intro ⟨member, listed, like, same⟩
    rcases lease.mem_members listed with rfl | rfl | other
    · exact .inl ⟨like, same⟩
    · exact .inr ⟨like, same⟩
    · exact absurd like (apart member.1 other)
  · rintro (found | found)
    · exact ⟨("User", .str lease.user), List.mem_append_left _ (by simp [front]), found⟩
    · exact ⟨("InUse", .bool lease.inUse), List.mem_append_right _ List.mem_cons_self, found⟩

theorem has_use (truth : Bool) :
    (lease.document.Has fun key held => NamesLike "InUse".toList key ∧ held = .bool truth) ↔ lease.inUse = truth := by
  rw [lease.has_named (fun key listed => (not_like_others key listed).2)]
  constructor
  · rintro (⟨_, same⟩ | ⟨_, same⟩ | ⟨entry, _, _, same⟩)
    · cases same
    · exact Json.bool.inj same
    · cases same
  · intro same
    exact .inr (.inl ⟨by decide, congrArg _ same⟩)

theorem has_owner (instanceID : String) :
    (lease.document.Has fun key held => NamesLike "User".toList key ∧ held = .str instanceID) ↔
      lease.user = instanceID ∨ lease.LooksOwned instanceID := by
  rw [lease.has_named fun key listed => (not_like_others key listed).1]
  constructor
  · rintro (⟨_, same⟩ | ⟨_, same⟩ | ⟨entry, listed, like, same⟩)
    · exact .inl (Json.str.inj same)
    · cases same
    · exact .inr ⟨entry, listed, like, Json.str.inj same⟩
  · rintro (own | ⟨entry, listed, like, same⟩)
    · exact .inl ⟨by decide, congrArg _ own⟩
    · exact .inr (.inr ⟨entry, listed, like, congrArg _ same⟩)

theorem plainName_user : goCompact.PlainName "User".toList where
  letters := List.all_iff_forall_prop.mp (by decide)
  some_ := by decide
  first := by intro letter first; cases first; decide

theorem plainName_inUse : goCompact.PlainName "InUse".toList where
  letters := List.all_iff_forall_prop.mp (by decide)
  some_ := by decide
  first := by intro letter first; cases first; decide

theorem infix_owner (instanceID : String) :
    expectedOwnerPattern instanceID <:+: lease.marshal ↔ lease.user = instanceID ∨ lease.LooksOwned instanceID := by
  rw [← has_owner]
  exact goCompact_tight.infix_written_iff plainName_user (goCompact_lawful.begins_text instanceID) lease.proper_document

theorem infix_use : "\"InUse\":true".toList <:+: lease.marshal ↔ lease.inUse = true := by
  rw [← has_use]
  exact goCompact_tight.infix_written_iff plainName_inUse (begins_bool true) lease.proper_document

theorem replaceFirst_use (free : lease.inUse = false) :
    replaceFirst "\"InUse\":false".toList "\"InUse\":true".toList lease.marshal =
      some { lease with inUse := true }.marshal := by
  have proper : ProperMembers id lease.front := ⟨trivial, trivial, trivial, trivial, trivial⟩
  have none_ : ¬ HasMembers (fun key held => NamesLike "InUse".toList key ∧ held = .bool false) lease.front := by
    rw [hasMembers_iff]
    simp [front, Has]
  have replaced := goCompact_tight.replaceFirst_object plainName_inUse (begins_bool false) true rfl proper none_
    lease.back
  unfold marshal document members
  rw [free]
  exact replaced

end LeaseRecord

end Finding

section Meaning

variable {isTime : String → Bool}

namespace LeaseRecord

theorem acquireLeaseText_marshal (lease : LeaseRecord isTime) (cooldown : Bool) (instanceID : String) :
    acquireLeaseText (some lease.marshal) cooldown (expectedOwnerPattern instanceID) =
      if cooldown = false ∧ (lease.user = instanceID ∨ lease.LooksOwned instanceID) ∧ lease.inUse = false then
        some { lease with inUse := true }.marshal
      else none := by
  have pattern : expectedOwnerPattern instanceID ≠ [] := List.cons_ne_nil _ _
  unfold acquireLeaseText
  dsimp only
  cases cooldown with
  | true => rw [if_pos rfl, if_neg fun both => Bool.noConfusion both.1]
  | false =>
      rw [if_neg Bool.false_ne_true]
      by_cases owned : lease.user = instanceID ∨ lease.LooksOwned instanceID
      · have found : expectedOwnerPattern instanceID <:+: lease.marshal := (lease.infix_owner instanceID).mpr owned
        rw [if_neg fun both => both.2 found]
        cases used : lease.inUse with
        | true => rw [if_pos (lease.infix_use.mpr used), if_neg fun both => Bool.noConfusion both.2.2]
        | false =>
            have free : ¬ "\"InUse\":true".toList <:+: lease.marshal := by
              rw [infix_use, used]
              exact Bool.false_ne_true
            rw [if_neg free, lease.replaceFirst_use used]
            exact (if_pos ⟨rfl, owned, rfl⟩).symm
      · have unfound : ¬ expectedOwnerPattern instanceID <:+: lease.marshal :=
          fun found => owned ((lease.infix_owner instanceID).mp found)
        rw [if_pos ⟨pattern, unfound⟩, if_neg fun both => owned both.2.1]

theorem intoEntries_entries (map current : SortedMap String String) (entries : List (String × String))
    (whole : map.entries = current.entries ++ entries) :
    intoEntries current (entries.map fun entry => (entry.1, .str entry.2)) = some map := by
  induction entries generalizing current with
  | nil =>
      have same : current = map := by
        cases map
        cases current
        rw [SortedMap.mk.injEq]
        exact (whole.trans (List.append_nil _)).symm
      exact congrArg some same
  | cons entry rest ih =>
      have ascending := map.ascending
      rw [whole, List.pairwise_append] at ascending
      have above : ∀ before ∈ current.entries, before.1 < entry.1 :=
        fun before inside => ascending.2.2 before inside entry List.mem_cons_self
      refine ih (current.insert entry.1 entry.2) ?_
      rw [whole, SortedMap.entries_insert_last above, List.append_assoc]
      rfl

theorem intoMetadata_metadataDocument (metadata : Option (SortedMap String String)) :
    intoMetadata none (metadataDocument metadata) = some metadata := by
  cases metadata with
  | none => rfl
  | some map =>
      have read := intoEntries_entries map .empty map.entries (List.nil_append _).symm
      exact congrArg (Option.map some) read

theorem intoTime_text (current time : Timestamp isTime) : intoTime current (.str time.val) = some time :=
  dif_pos time.property

theorem intoTimePointer_text (time : Timestamp isTime) : intoTimePointer none (.str time.val) = some (some time) :=
  dif_pos time.property

/-- The names of the members, and those that they are read by. -/
def names : List String :=
  ["SandboxID", "Type", "ResourceID", "User", "InUse", "CreatedAt", "Metadata", "ProviderMissingSinceAt"]

def fieldNames : List String :=
  ["sandboxid", "type", "resourceid", "user", "inuse", "createdat", "metadata", "providermissingsinceat"]

theorem map_fieldName_names : names.map fieldName = fieldNames := by decide

variable (lease : LeaseRecord isTime)

theorem distinct_members : (lease.members.map fun member => fieldName member.1).Nodup := by
  have distinct : List.Nodup fieldNames := by decide
  have begun : lease.members.map Prod.fst <+: names := by
    unfold members front back
    cases lease.providerMissingSinceAt with
    | none => exact ⟨["ProviderMissingSinceAt"], rfl⟩
    | some since => exact ⟨[], rfl⟩
  have named := begun.map fieldName
  rw [map_fieldName_names, List.map_map] at named
  exact distinct.sublist named.sublist

theorem readField_since :
    readField intoTimePointer none "providermissingsinceat" lease.members = some lease.providerMissingSinceAt := by
  cases known : lease.providerMissingSinceAt with
  | none =>
      refine readField_absent ?_ _ _
      have absent : "providermissingsinceat" ∉ (names.dropLast.map fieldName) := by decide
      intro member inside same
      refine absent (same ▸ ?_)
      have without : lease.members.map Prod.fst = names.dropLast := by
        unfold members front back
        rw [known]
        rfl
      rw [← without, List.map_map]
      exact List.mem_map.mpr ⟨member, inside, rfl⟩
  | some since =>
      have inside : ("ProviderMissingSinceAt", .str since.val) ∈ lease.members := by
        unfold members back
        rw [known]
        simp
      have named : fieldName "ProviderMissingSinceAt" = "providermissingsinceat" := by decide
      rw [readField_eq lease.distinct_members _ _ named inside, intoTimePointer_text]

theorem unmarshal_marshal (zeroTime : Timestamp isTime) : unmarshal zeroTime lease.marshal = some lease := by
  have read : loads id lease.marshal = some (.obj lease.members) := goCompact_lawful.loads_written lease.proper_document
  have known := map_fieldName_names
  simp only [names, fieldNames, List.map_cons, List.map_nil, List.cons.injEq, and_true] at known
  obtain ⟨sandboxID, type, resourceID, user, inUse, createdAt, metadata, _⟩ := known
  have distinct := lease.distinct_members
  rw [unmarshal, read, Option.bind_some, ofDocument, lease.readField_since,
    readField_eq distinct intoText "" sandboxID (by simp [members, front] : (_, .str lease.sandboxID) ∈ lease.members),
    readField_eq distinct intoText "" type (by simp [members, front] : (_, .str lease.type) ∈ lease.members),
    readField_eq distinct intoText "" resourceID (by simp [members, front] : (_, .str lease.resourceID) ∈ lease.members),
    readField_eq distinct intoText "" user (by simp [members, front] : (_, .str lease.user) ∈ lease.members),
    readField_eq distinct intoBool false inUse (by simp [members] : (_, .bool lease.inUse) ∈ lease.members),
    readField_eq distinct intoTime zeroTime createdAt
      (by simp [members, back] : (_, .str lease.createdAt.val) ∈ lease.members),
    readField_eq distinct intoMetadata none metadata
      (by simp [members, back] : (_, metadataDocument lease.metadata) ∈ lease.members),
    intoTime_text, intoMetadata_metadataDocument]
  rfl

/-- The script means what it says of a lease: it acquires those of the instance that are free and not in a cooldown,
and stores the lease with nothing changed but its use. -/
def MeansWhatItSays (zeroTime : Timestamp isTime) (instanceID : String) (cooldown : Bool) : Prop :=
  ((acquireLeaseText (some lease.marshal) cooldown (expectedOwnerPattern instanceID)).isSome ↔
      lease.user = instanceID ∧ lease.inUse = false ∧ cooldown = false) ∧
    ∀ stored, acquireLeaseText (some lease.marshal) cooldown (expectedOwnerPattern instanceID) = some stored →
      unmarshal zeroTime stored = some { lease with inUse := true }

/-- **The script means what it says** unless an entry of the metadata looks like the owner of a lease that is free, not
in a cooldown, and another's. -/
theorem meansWhatItSays_iff (zeroTime : Timestamp isTime) (instanceID : String) (cooldown : Bool) :
    lease.MeansWhatItSays zeroTime instanceID cooldown ↔
      lease.user = instanceID ∨ lease.inUse = true ∨ cooldown = true ∨ ¬ lease.LooksOwned instanceID := by
  have stores : ∀ stored, acquireLeaseText (some lease.marshal) cooldown (expectedOwnerPattern instanceID) = some stored →
      unmarshal zeroTime stored = some { lease with inUse := true } := by
    intro stored acquired
    rw [acquireLeaseText_marshal, Option.ite_none_right_eq_some] at acquired
    obtain ⟨_, same⟩ := acquired
    rw [← Option.some.inj same, unmarshal_marshal]
  have acquires : (acquireLeaseText (some lease.marshal) cooldown (expectedOwnerPattern instanceID)).isSome ↔
      cooldown = false ∧ (lease.user = instanceID ∨ lease.LooksOwned instanceID) ∧ lease.inUse = false := by
    rw [acquireLeaseText_marshal]
    split
    · rename_i all
      exact iff_of_true rfl all
    · rename_i unmet
      exact iff_of_false Bool.false_ne_true unmet
  rw [MeansWhatItSays, and_iff_left stores, acquires, ← Bool.not_eq_true, ← Bool.not_eq_true]
  tauto

/-- A lease of another user, whose metadata has the owner's name for a key. -/
def lookAlike (time : Timestamp isTime) : LeaseRecord isTime where
  sandboxID := "emulator:e1"
  type := "emulator"
  resourceID := "e1"
  user := "2"
  inUse := false
  createdAt := time
  metadata := some ⟨[("User", "1")], List.pairwise_singleton _ _⟩
  providerMissingSinceAt := none

def newYear : Timestamp fun _ => true := ⟨"2026-01-01T00:00:00Z", rfl⟩

/-- The script acquires a lease for an instance that is not its user. -/
theorem acquires_lookAlike : ¬ (lookAlike newYear).MeansWhatItSays newYear "1" false := by
  intro means
  have looks : (lookAlike newYear).LooksOwned "1" :=
    ⟨("User", "1"), List.mem_singleton_self _, .inl rfl, rfl⟩
  have acquired := (lookAlike newYear).acquireLeaseText_marshal false "1"
  rw [if_pos ⟨rfl, .inr looks, rfl⟩] at acquired
  have owner : "2" = "1" := (means.1.mp (acquired ▸ rfl)).1
  exact absurd owner (by decide)

end LeaseRecord

/-- A lease that is stored as a record, where a clock tells how instants are written. -/
structure Represents (clock : ℤ → Timestamp isTime) (lease : Lease) (record : LeaseRecord isTime) : Prop where
  sandboxID : record.sandboxID = lease.sandboxID
  type : record.type = lease.type
  resourceID : record.resourceID = lease.resourceID
  user : record.user = lease.user
  inUse : record.inUse = lease.inUse
  createdAt : record.createdAt = clock lease.createdAt
  metadata : record.entries = lease.metadata
  providerMissingSinceAt : record.providerMissingSinceAt = lease.providerMissingSinceAt.map clock

def Stored (clock : ℤ → Timestamp isTime) (lease : Lease) (text : List Char) : Prop :=
  ∃ record : LeaseRecord isTime, Represents clock lease record ∧ text = record.marshal

/-- **The script refines the store's step.** On the text of a stored lease it writes the text of the lease that the
step on records writes, and gives up where that one does. -/
theorem acquireLeaseText_refines (clock : ℤ → Timestamp isTime) (store : Redis) (instanceID sandboxID : String)
    (val : Option (List Char)) (kept : Option.Rel (Stored clock) (store (.resourceLease sandboxID)) val) :
    Option.Rel (Stored clock) (acquireLeaseScript store instanceID sandboxID)
      (acquireLeaseText val (store (.cooldown sandboxID)).isSome (expectedOwnerPattern instanceID)) := by
  unfold acquireLeaseScript
  cases held : store (.resourceLease sandboxID) with
  | none =>
      rw [held] at kept
      cases kept
      exact .none
  | some lease =>
      rw [held] at kept
      cases kept with
      | some stored =>
          obtain ⟨record, represents, rfl⟩ := stored
          have owners : lease.namesOwner instanceID = true ↔ record.user = instanceID ∨ record.LooksOwned instanceID := by
            rw [LeaseRecord.LooksOwned, represents.user, represents.metadata]
            exact decide_eq_true_iff
          rw [record.acquireLeaseText_marshal]
          dsimp only
          cases cooling : (store (.cooldown sandboxID)).isSome with
          | true =>
              rw [if_pos rfl, if_neg fun all => Bool.noConfusion all.1]
              exact .none
          | false =>
              rw [if_neg Bool.false_ne_true]
              cases owned : lease.namesOwner instanceID with
              | false =>
                  rw [if_pos rfl, if_neg fun all => Bool.false_ne_true (owned ▸ owners.mpr all.2.1)]
                  exact .none
              | true =>
                  rw [if_neg Bool.noConfusion, represents.inUse]
                  cases used : lease.inUse with
                  | true =>
                      rw [if_pos rfl, if_neg fun all => Bool.noConfusion all.2.2]
                      exact .none
                  | false =>
                      rw [if_neg Bool.false_ne_true, if_pos ⟨rfl, owners.mp owned, rfl⟩]
                      exact .some ⟨{ record with inUse := true },
                        ⟨represents.sandboxID, represents.type, represents.resourceID, represents.user, rfl,
                          represents.createdAt, represents.metadata, represents.providerMissingSinceAt⟩, rfl⟩

def lookAlikeStore : Redis
  | .resourceLease _ => some ⟨"emulator:e1", "emulator", "e1", "2", false, 0, [("User", "1")], none⟩
  | _ => none

theorem acquireLeaseText_refines_lookAlike :
    Option.Rel (Stored fun _ => LeaseRecord.newYear) (acquireLeaseScript lookAlikeStore "1" "emulator:e1")
      (acquireLeaseText (some (LeaseRecord.lookAlike LeaseRecord.newYear).marshal) false (expectedOwnerPattern "1")) :=
  acquireLeaseText_refines _ lookAlikeStore "1" "emulator:e1" _
    (.some ⟨LeaseRecord.lookAlike LeaseRecord.newYear, ⟨rfl, rfl, rfl, rfl, rfl, rfl, rfl, rfl⟩, rfl⟩)

end Meaning

end Sico.Sandbox
