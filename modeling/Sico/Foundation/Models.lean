import Mathlib.Data.List.Nodup
import Sico.Foundation.Json
import Sico.Foundation.Traversal

/-! # Models with members that may be left out

A model is read from a document by a schema. A member that the document has is set, any other holds
its default. What is written leaves out the members that were not set and those that hold their
default, so what an unset member holds is written nowhere: it comes back if and only if it is the
default.
-/

namespace Foundation.Models

/-- What a member remembers: its name, its default, and whether it was set. -/
structure Tag where
  name : String
  default : Json
  isSet : Bool

/-- What a member holds. -/
inductive Value where
  | leaf (json : Json)
  | list (items : List Value)
  | model (members : List (Tag × Value))

section Contents

mutual

/-- All that is held, whether it was set or not. -/
def Value.content : Value → Json
  | .leaf json => json
  | .list items => .arr (contents items)
  | .model members => .obj (memberContents members)

def contents : List Value → List Json
  | [] => []
  | value :: rest => value.content :: contents rest

def memberContents : List (Tag × Value) → List (String × Json)
  | [] => []
  | (tag, value) :: rest => (tag.name, value.content) :: memberContents rest

end

def Tag.isWritten (tag : Tag) (content : Json) : Bool := tag.isSet && content ≠ tag.default && content ≠ .null

mutual

/-- What is written: no member that was not set, holds its default, or holds nothing. -/
def Value.written : Value → Json
  | .leaf json => json
  | .list items => .arr (writtenItems items)
  | .model members => .obj (writtenMembers members)

def writtenItems : List Value → List Json
  | [] => []
  | value :: rest => value.written :: writtenItems rest

def writtenMembers : List (Tag × Value) → List (String × Json)
  | [] => []
  | (tag, value) :: rest =>
      if tag.isWritten value.content then (tag.name, value.written) :: writtenMembers rest
      else writtenMembers rest

end

end Contents

section Schemas

variable {Name : Type}

/-- What a member may hold, with the models by their names. -/
inductive Shape (Name : Type) where
  | leaf (accepts : Json → Bool)
  | list (item : Shape Name)
  | model (name : Name)
  | optional (name : Name)

structure Member (Name : Type) where
  name : String
  shape : Shape Name
  default : Value

/-- The members of each model, and what its validator makes of them. -/
structure Schema (Name : Type) where
  members : Name → List (Member Name)
  settle : Name → List (Tag × Value) → List (Tag × Value)

/-- What was read for a member. -/
def lookup (name : String) (loaded : List (String × Value)) : Option Value :=
  (loaded.find? (·.1 = name)).map Prod.snd

/-- A member that was read is set, another one holds its default. -/
def Member.assembled (member : Member Name) (loaded : List (String × Value)) : Tag × Value :=
  match lookup member.name loaded with
  | some value => (⟨member.name, member.default.content, true⟩, value)
  | none => (⟨member.name, member.default.content, false⟩, member.default)

variable (schema : Schema Name)

/-- The members of a model from what was read for them. -/
def Schema.assemble (name : Name) (loaded : List (String × Value)) : List (Tag × Value) :=
  schema.settle name ((schema.members name).map (·.assembled loaded))

mutual

/-- A document read by a shape. Members that the model does not have are passed over. -/
def Schema.load : Json → Shape Name → Option Value
  | .obj members, .model name =>
      (Schema.loadMembers members (schema.members name)).map fun loaded => .model (schema.assemble name loaded)
  | .obj members, .optional name =>
      (Schema.loadMembers members (schema.members name)).map fun loaded => .model (schema.assemble name loaded)
  | .null, .optional _ => some (.leaf .null)
  | .arr items, .list item => (Schema.loadItems items item).map .list
  | json, .leaf accepts => if accepts json then some (.leaf json) else none
  | _, _ => none

def Schema.loadItems : List Json → Shape Name → Option (List Value)
  | [], _ => some []
  | json :: rest, item => do
      let value ← Schema.load json item
      let values ← Schema.loadItems rest item
      return value :: values

def Schema.loadMembers : List (String × Json) → List (Member Name) → Option (List (String × Value))
  | [], _ => some []
  | (name, json) :: rest, known =>
      match known.find? (·.name = name) with
      | none => Schema.loadMembers rest known
      | some member => do
          let value ← Schema.load json member.shape
          let loaded ← Schema.loadMembers rest known
          return (name, value) :: loaded

end

end Schemas

section Fitting

variable {Name : Type}

mutual

/-- A value that has a shape. A member that was not set holds its default. -/
inductive Fits (schema : Schema Name) : Shape Name → Value → Prop where
  | leaf {accepts : Json → Bool} {json : Json} (accepted : accepts json) :
      Fits schema (.leaf accepts) (.leaf json)
  | list {item : Shape Name} {items : List Value} (fit : FitsAll schema item items) :
      Fits schema (.list item) (.list items)
  | model {name : Name} {members : List (Tag × Value)} (fit : FitsMembers schema (schema.members name) members)
      (settled : memberContents (schema.settle name members) = memberContents members) :
      Fits schema (.model name) (.model members)
  | nothing {name : Name} : Fits schema (.optional name) (.leaf .null)
  | something {name : Name} {members : List (Tag × Value)}
      (fit : FitsMembers schema (schema.members name) members)
      (settled : memberContents (schema.settle name members) = memberContents members) :
      Fits schema (.optional name) (.model members)

inductive FitsAll (schema : Schema Name) : Shape Name → List Value → Prop where
  | nil {item : Shape Name} : FitsAll schema item []
  | cons {item : Shape Name} {value : Value} {rest : List Value} (fit : Fits schema item value)
      (others : FitsAll schema item rest) : FitsAll schema item (value :: rest)

inductive FitsMembers (schema : Schema Name) : List (Member Name) → List (Tag × Value) → Prop where
  | nil : FitsMembers schema [] []
  | cons {member : Member Name} {known : List (Member Name)} {tag : Tag} {value : Value}
      {rest : List (Tag × Value)} (named : tag.name = member.name) (byDefault : tag.default = member.default.content)
      (fit : Fits schema member.shape value) (unset : tag.isSet = false → value.content = tag.default)
      (others : FitsMembers schema known rest) : FitsMembers schema (member :: known) ((tag, value) :: rest)

end

/-- Whether a shape has nothing among its values. -/
def Shape.nullable : Shape Name → Bool
  | .leaf accepts => accepts .null
  | .optional _ => true
  | _ => false

/-- The names of a model are distinct, its defaults have their shapes, and nothing is held only by
default. What a validator makes of members that fit does fit, depends on what they hold only, and
is left alone by it. -/
structure Schema.Lawful (schema : Schema Name) : Prop where
  distinct : ∀ name, ((schema.members name).map Member.name).Nodup
  defaults : ∀ name, ∀ member ∈ schema.members name, Fits schema member.shape member.default
  nothing : ∀ name, ∀ member ∈ schema.members name, member.shape.nullable → member.default.content = .null
  fits : ∀ name members, FitsMembers schema (schema.members name) members →
    FitsMembers schema (schema.members name) (schema.settle name members)
  again : ∀ name members, FitsMembers schema (schema.members name) members →
    memberContents (schema.settle name (schema.settle name members)) = memberContents (schema.settle name members)
  depends : ∀ name first second, FitsMembers schema (schema.members name) first →
    FitsMembers schema (schema.members name) second → memberContents first = memberContents second →
      memberContents (schema.settle name first) = memberContents (schema.settle name second)

variable {schema : Schema Name}

theorem lookup_cons (name other : String) (value : Value) (rest : List (String × Value)) :
    lookup name ((other, value) :: rest) = if other = name then some value else lookup name rest := by
  unfold lookup
  rw [List.find?_cons]
  by_cases same : other = name
  · simp [same]
  · simp [same]

theorem mem_of_lookup {name : String} {value : Value} {loaded : List (String × Value)}
    (found : lookup name loaded = some value) : (name, value) ∈ loaded := by
  obtain ⟨entry, first, rfl⟩ := Option.map_eq_some_iff.mp found
  have listed := List.mem_of_find?_eq_some first
  have same := List.find?_some first
  rw [decide_eq_true_eq] at same
  exact same ▸ listed

theorem fits_assembled (lawful : schema.Lawful) {name : Name} {loaded : List (String × Value)}
    (fit : ∀ member ∈ schema.members name, ∀ value, (member.name, value) ∈ loaded → Fits schema member.shape value) :
    FitsMembers schema (schema.members name) ((schema.members name).map (·.assembled loaded)) := by
  have each : ∀ known, (∀ member ∈ known, member ∈ schema.members name) →
      FitsMembers schema known (known.map (·.assembled loaded)) := by
    intro known
    induction known with
    | nil => exact fun _ => .nil
    | cons member rest ih =>
        intro inside
        have own := inside member List.mem_cons_self
        have others := ih fun other listed => inside other (List.mem_cons_of_mem _ listed)
        rw [List.map_cons]
        unfold Member.assembled
        cases found : lookup member.name loaded with
        | some value => exact .cons rfl rfl (fit member own value (mem_of_lookup found)) (fun set => nomatch set) others
        | none => exact .cons rfl rfl (lawful.defaults name member own) (fun _ => rfl) others
  exact each _ fun _ listed => listed

theorem fits_assemble (lawful : schema.Lawful) {name : Name} {loaded : List (String × Value)}
    (fit : ∀ member ∈ schema.members name, ∀ value, (member.name, value) ∈ loaded → Fits schema member.shape value) :
    FitsMembers schema (schema.members name) (schema.assemble name loaded) ∧
      memberContents (schema.settle name (schema.assemble name loaded)) =
        memberContents (schema.assemble name loaded) :=
  ⟨lawful.fits _ _ (fits_assembled lawful fit), lawful.again _ _ (fits_assembled lawful fit)⟩

mutual

theorem fits_load (lawful : schema.Lawful) :
    (json : Json) → ∀ (shape : Shape Name) value, schema.load json shape = some value → Fits schema shape value
  | json, .leaf accepts, value, loaded => by
      rw [Schema.load.eq_def] at loaded
      have checked : (if accepts json then some (Value.leaf json) else none) = some value := by
        cases json <;> exact loaded
      obtain ⟨accepted, ⟨⟩⟩ := Option.ite_none_right_eq_some.mp checked
      exact .leaf accepted
  | json, .optional name, value, loaded => by
      cases json with
      | null =>
          cases loaded
          exact .nothing
      | obj members =>
          rw [Schema.load] at loaded
          obtain ⟨read, parts, rfl⟩ := Option.map_eq_some_iff.mp loaded
          obtain ⟨fit, settled⟩ := fits_assemble lawful (fits_loadMembers lawful members name read parts)
          exact .something fit settled
      | _ => cases loaded
  | json, .model name, value, loaded => by
      cases json with
      | obj members =>
          rw [Schema.load] at loaded
          obtain ⟨read, parts, rfl⟩ := Option.map_eq_some_iff.mp loaded
          obtain ⟨fit, settled⟩ := fits_assemble lawful (fits_loadMembers lawful members name read parts)
          exact .model fit settled
      | _ => cases loaded
  | json, .list item, value, loaded => by
      cases json with
      | arr items =>
          rw [Schema.load] at loaded
          obtain ⟨values, parts, rfl⟩ := Option.map_eq_some_iff.mp loaded
          exact .list (fits_loadItems lawful items item values parts)
      | _ => cases loaded

theorem fits_loadItems (lawful : schema.Lawful) :
    (items : List Json) → ∀ (item : Shape Name) values, schema.loadItems items item = some values →
      FitsAll schema item values
  | [], item, values, loaded => by
      cases loaded
      exact .nil
  | json :: rest, item, values, loaded => by
      rw [Schema.loadItems] at loaded
      obtain ⟨value, own, loaded⟩ := Option.bind_eq_some_iff.mp loaded
      obtain ⟨others, later, same⟩ := Option.bind_eq_some_iff.mp loaded
      cases same
      exact .cons (fits_load lawful json item value own) (fits_loadItems lawful rest item others later)

theorem fits_loadMembers (lawful : schema.Lawful) :
    (members : List (String × Json)) → ∀ (name : Name) loaded,
      schema.loadMembers members (schema.members name) = some loaded →
        ∀ member ∈ schema.members name, ∀ value, (member.name, value) ∈ loaded → Fits schema member.shape value
  | [], name, loaded, read => by
      cases read
      intro member listed value none
      cases none
  | (title, json) :: rest, name, loaded, read => by
      rw [Schema.loadMembers] at read
      intro member listed value inside
      cases found : (schema.members name).find? (·.name = title) with
      | none =>
          rw [found] at read
          exact fits_loadMembers lawful rest name loaded read member listed value inside
      | some own =>
          rw [found] at read
          obtain ⟨first, here, read⟩ := Option.bind_eq_some_iff.mp read
          obtain ⟨others, later, same⟩ := Option.bind_eq_some_iff.mp read
          cases same
          rcases List.mem_cons.mp inside with same | behind
          · cases same
            rw [find?_of_distinct (lawful.distinct name) listed] at found
            cases found
            exact fits_load lawful json _ _ here
          · exact fits_loadMembers lawful rest name others later member listed value behind

end

theorem Fits.nullable_of_content {shape : Shape Name} {value : Value} (fit : Fits schema shape value)
    (none : value.content = .null) : shape.nullable := by
  cases fit with
  | leaf accepted =>
      rw [Value.content] at none
      rw [none] at accepted
      exact accepted
  | list _ => cases none
  | model _ _ => cases none
  | nothing => rfl
  | something _ _ => rfl

/-- The members that are written come back from the loaded ones, the others do not. -/
def Returns (loaded : List (String × Value)) (tag : Tag) (value : Value) : Prop :=
  if tag.isWritten value.content then
    ∃ back, lookup tag.name loaded = some back ∧ back.content = value.content
  else lookup tag.name loaded = none

theorem lookup_eq_none {name : String} {loaded : List (String × Value)}
    (apart : ∀ entry ∈ loaded, entry.1 ≠ name) : lookup name loaded = none := by
  unfold lookup
  rw [Option.map_eq_none_iff, List.find?_eq_none]
  intro entry listed
  simpa using apart entry listed

theorem memberContents_assembled {known : List (Member Name)} {members : List (Tag × Value)}
    {loaded : List (String × Value)} (fit : FitsMembers schema known members)
    (nothing : ∀ member ∈ known, member.shape.nullable → member.default.content = .null)
    (returns : ∀ entry ∈ members, Returns loaded entry.1 entry.2) :
    memberContents (known.map (·.assembled loaded)) = memberContents members := by
  induction members generalizing known with
  | nil =>
      cases fit
      rfl
  | cons entry rest ih =>
      cases fit with
      | @cons member known tag value _ named byDefault own unset others =>
          have later := ih others (fun other listed => nothing other (List.mem_cons_of_mem _ listed))
            fun other listed => returns other (List.mem_cons_of_mem _ listed)
          have back := returns (tag, value) List.mem_cons_self
          unfold Returns at back
          rw [List.map_cons, memberContents, memberContents, ← later, named]
          rw [named] at back
          unfold Member.assembled
          split at back
          · obtain ⟨held, found, same⟩ := back
            rw [found]
            dsimp only
            rw [same]
          · next left =>
              rw [back]
              dsimp only
              have same : member.default.content = value.content := by
                simp only [Tag.isWritten, Bool.and_eq_true, decide_eq_true_eq, not_and_or, Bool.not_eq_true,
                  ne_eq, not_not] at left
                rcases left with (absent | same) | none
                · rw [unset absent, byDefault]
                · rw [same, byDefault]
                · rw [none]
                  exact nothing member List.mem_cons_self (own.nullable_of_content none)
              rw [same]

theorem FitsMembers.name_mem {known : List (Member Name)} {members : List (Tag × Value)}
    (fit : FitsMembers schema known members) : ∀ entry ∈ members, entry.1.name ∈ known.map Member.name := by
  induction members generalizing known with
  | nil =>
      intro entry none
      cases none
  | cons first rest ih =>
      cases fit with
      | cons named byDefault own unset others =>
          intro entry listed
          rcases List.mem_cons.mp listed with rfl | later
          · exact List.mem_cons.mpr (.inl named)
          · exact List.mem_cons_of_mem _ (ih others entry later)

theorem memberContents_assemble (lawful : schema.Lawful) {name : Name} {members : List (Tag × Value)}
    {written : List (String × Json)} {loaded : List (String × Value)}
    (fit : FitsMembers schema (schema.members name) members)
    (settled : memberContents (schema.settle name members) = memberContents members)
    (read : schema.loadMembers written (schema.members name) = some loaded)
    (returns : ∀ entry ∈ members, Returns loaded entry.1 entry.2) :
    memberContents (schema.assemble name loaded) = memberContents members := by
  have assembled := fits_assembled lawful (fits_loadMembers lawful written name loaded read)
  have same := memberContents_assembled fit (lawful.nothing name) returns
  rw [Schema.assemble, lawful.depends name _ _ assembled fit same, settled]

mutual

theorem load_written (lawful : schema.Lawful) {shape : Shape Name} {value : Value} :
    Fits schema shape value → ∃ back, schema.load value.written shape = some back ∧ back.content = value.content
  | @Fits.leaf _ _ accepts json accepted => by
      refine ⟨.leaf json, ?_, rfl⟩
      have loaded : schema.load json (.leaf accepts) = if accepts json then some (.leaf json) else none := by
        cases json <;> rfl
      rw [Value.written, loaded, if_pos accepted]
  | .list fit => by
      obtain ⟨back, loaded, same⟩ := load_writtenItems lawful fit
      refine ⟨.list back, ?_, ?_⟩
      · rw [Value.written, Schema.load, loaded]
        rfl
      · rw [Value.content, Value.content, same]
  | @Fits.model _ _ name _ fit settled => by
      obtain ⟨loaded, read, -, returns⟩ := load_writtenMembers lawful (fun _ listed => listed) (lawful.distinct name) fit
      refine ⟨.model (schema.assemble name loaded), ?_, ?_⟩
      · rw [Value.written, Schema.load, read]
        rfl
      · rw [Value.content, Value.content, memberContents_assemble lawful fit settled read returns]
  | .nothing => ⟨.leaf .null, rfl, rfl⟩
  | @Fits.something _ _ name _ fit settled => by
      obtain ⟨loaded, read, -, returns⟩ := load_writtenMembers lawful (fun _ listed => listed) (lawful.distinct name) fit
      refine ⟨.model (schema.assemble name loaded), ?_, ?_⟩
      · rw [Value.written, Schema.load, read]
        rfl
      · rw [Value.content, Value.content, memberContents_assemble lawful fit settled read returns]

theorem load_writtenItems (lawful : schema.Lawful) {item : Shape Name} {values : List Value} :
    FitsAll schema item values →
      ∃ back, schema.loadItems (writtenItems values) item = some back ∧ contents back = contents values
  | .nil => ⟨[], rfl, rfl⟩
  | .cons fit others => by
      obtain ⟨own, loaded, same⟩ := load_written lawful fit
      obtain ⟨back, later, rest⟩ := load_writtenItems lawful others
      refine ⟨own :: back, ?_, ?_⟩
      · rw [writtenItems, Schema.loadItems, loaded, later]
        rfl
      · rw [contents, contents, same, rest]

theorem load_writtenMembers (lawful : schema.Lawful) {name : Name} {known : List (Member Name)}
    {members : List (Tag × Value)} (inside : ∀ member ∈ known, member ∈ schema.members name)
    (distinct : (known.map Member.name).Nodup) :
    FitsMembers schema known members →
      ∃ loaded, schema.loadMembers (writtenMembers members) (schema.members name) = some loaded ∧
        (∀ entry ∈ loaded, entry.1 ∈ known.map Member.name) ∧ ∀ entry ∈ members, Returns loaded entry.1 entry.2
  | .nil => by
      refine ⟨[], rfl, ?_, ?_⟩
      · intro entry none
        cases none
      · intro entry none
        cases none
  | @FitsMembers.cons _ _ member known tag value _ named byDefault fit unset others => by
      rw [List.map_cons, List.nodup_cons] at distinct
      obtain ⟨loaded, read, names, returns⟩ := load_writtenMembers lawful
        (fun other listed => inside other (List.mem_cons_of_mem _ listed)) distinct.2 others
      have apart : lookup member.name loaded = none := by
        apply lookup_eq_none
        intro entry listed same
        exact distinct.1 (same ▸ names entry listed)
      rw [writtenMembers]
      split
      · next written =>
          obtain ⟨back, own, same⟩ := load_written lawful fit
          have found := find?_of_distinct (lawful.distinct name) (inside member List.mem_cons_self)
          refine ⟨(tag.name, back) :: loaded, ?_, ?_, ?_⟩
          · rw [Schema.loadMembers, named, found]
            dsimp only
            rw [own, read]
            rfl
          · intro entry listed
            rcases List.mem_cons.mp listed with rfl | later
            · exact List.mem_cons.mpr (.inl named)
            · exact List.mem_cons_of_mem _ (names entry later)
          · intro entry listed
            rcases List.mem_cons.mp listed with rfl | later
            · unfold Returns
              rw [if_pos written]
              exact ⟨back, by rw [lookup_cons, if_pos rfl], same⟩
            · have other : tag.name ≠ entry.1.name := by
                intro same
                rw [named] at same
                exact distinct.1 (same ▸ others.name_mem entry later)
              have before := returns entry later
              unfold Returns at before ⊢
              rw [lookup_cons, if_neg other]
              exact before
      · next left =>
          refine ⟨loaded, read, fun entry listed => List.mem_cons_of_mem _ (names entry listed), ?_⟩
          intro entry listed
          rcases List.mem_cons.mp listed with rfl | later
          · unfold Returns
            rw [if_neg left, named]
            exact apart
          · exact returns entry later

end

end Fitting

section Assigning

variable {Name : Type} {schema : Schema Name}

/-- A model with a value assigned to the member of the name. -/
def assignMember (name : String) (json : Json) : List (Tag × Value) → List (Tag × Value)
  | [] => []
  | (tag, value) :: rest =>
      if tag.name = name then ({ tag with isSet := true }, .leaf json) :: rest
      else (tag, value) :: assignMember name json rest

theorem FitsMembers.assign {name : String} {json : Json} {known : List (Member Name)}
    {members : List (Tag × Value)} (fit : FitsMembers schema known members)
    (shaped : ∀ member ∈ known, member.name = name → Fits schema member.shape (.leaf json)) :
    FitsMembers schema known (assignMember name json members) := by
  induction members generalizing known with
  | nil => exact fit
  | cons entry rest ih =>
      cases fit with
      | @cons member known tag value _ named byDefault own unset others =>
          rw [assignMember]
          split
          · next same =>
              refine .cons named byDefault (shaped member List.mem_cons_self (named ▸ same)) ?_ others
              intro absent
              cases absent
          · exact .cons named byDefault own unset
              (ih others fun other listed => shaped other (List.mem_cons_of_mem _ listed))

end Assigning

section Fields

/-- A member with a type of its own: what it holds, and whether it was set. -/
structure Field (α : Type) where
  value : α
  isSet : Bool

variable {α β γ : Type}

namespace Field

def assign (value : α) : Field α := ⟨value, true⟩

/-- What it holds, changed in place: nothing is set by that. -/
def change (change : α → α) (field : Field α) : Field α := { field with value := change field.value }

def load (default : α) (read : β → Option α) : Option β → Option (Field α)
  | none => some ⟨default, false⟩
  | some part => (read part).map assign

def written (isDefault : α → Bool) (write : α → β) (field : Field α) : Option β :=
  if field.isSet && !isDefault field.value then some (write field.value) else none

theorem load_written (default : α) (read : β → Option α) (isDefault : α → Bool) (write : α → β)
    (content : α → γ) (field : Field α) (byDefault : ∀ value, isDefault value → content value = content default)
    (unset : field.isSet = false → content field.value = content default)
    (back : ∃ value, read (write field.value) = some value ∧ content value = content field.value) :
    ∃ loaded, Field.load default read (field.written isDefault write) = some loaded ∧
      content loaded.value = content field.value := by
  unfold written
  split
  · obtain ⟨value, reads, same⟩ := back
    refine ⟨assign value, ?_, same⟩
    rw [load, reads]
    rfl
  · next left =>
      refine ⟨⟨default, false⟩, rfl, ?_⟩
      cases isSet : field.isSet with
      | false => exact (unset isSet).symm
      | true =>
          rw [isSet, Bool.true_and, Bool.not_eq_true', Bool.not_eq_false] at left
          exact (byDefault _ left).symm

theorem load_writtenPlain [DecidableEq α] (default : α) (field : Field α)
    (unset : field.isSet = false → field.value = default) :
    ∃ loaded, Field.load default some (field.written (· = default) fun value => value) = some loaded ∧
      loaded.value = field.value := by
  apply load_written default some (· = default) (fun value => value) (fun value => value) field
  · intro value same
    exact of_decide_eq_true same
  · exact unset
  · exact ⟨field.value, rfl, rfl⟩

end Field

end Fields

end Foundation.Models
