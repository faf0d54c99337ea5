import Mathlib.Algebra.GroupWithZero.Nat
import Sico.TaskRuntime.ToolController

/-! # Promotion stays inside its bounds

In any order of searches the discovery tool stands first among the tools, every other one is authorized by the
ceiling of the profile, their schemas have no more bytes than there is room for, and no tool is removed. The
revision tells the tools apart: each change of the tools comes with a new one.
-/

namespace Sico.TaskRuntime.ToolController

open Foundation AgentLoop

section Bounds

variable {repr : String → String} {ceiling : CapabilityCeiling}

def toolBytes (entry : String × BoundTool) : ℕ := schemaBytes entry.2.descriptor.parameterSchema

/-- A tool that was promoted: it stands under its own identifier, and the ceiling allows it. -/
structure IsPromoted (repr : String → String) (ceiling : CapabilityCeiling) (entry : String × BoundTool) : Prop where
  own : entry.2.descriptor.toolID = entry.1
  callback : entry.2.callback = .capability
  allowed : ceilingAllows repr ceiling entry.1 = .ok true

/-- The tools are the discovery tool and promoted ones, with no more bytes of schemas than there is room for. -/
def IsBounded (repr : String → String) (ceiling : CapabilityCeiling) (tools : List (String × BoundTool)) : Prop :=
  ∃ promoted, tools = (capabilityDiscoverToolID, discoverTool) :: promoted ∧
    (∀ entry ∈ promoted, IsPromoted repr ceiling entry) ∧ (promoted.map toolBytes).sum ≤ maxPromotedSchemaBytes

/-- The tools are bounded, and their bytes are counted. -/
structure Toolset.Counted (repr : String → String) (ceiling : CapabilityCeiling) (toolset : Toolset) : Prop where
  count : ∃ promoted, toolset.tools.entries = (capabilityDiscoverToolID, discoverTool) :: promoted ∧
    (∀ entry ∈ promoted, IsPromoted repr ceiling entry) ∧
      (promoted.map toolBytes).sum = toolset.promotedSchemaBytes
  room : toolset.promotedSchemaBytes ≤ maxPromotedSchemaBytes

theorem Toolset.Counted.bounded {toolset : Toolset} (counted : toolset.Counted repr ceiling) :
    IsBounded repr ceiling toolset.tools.entries := by
  obtain ⟨promoted, tools, each, bytes⟩ := counted.count
  exact ⟨promoted, tools, each, bytes.trans_le counted.room⟩

theorem counted_initial : Toolset.initial.Counted repr ceiling := by
  refine ⟨⟨[], rfl, ?_, rfl⟩, Nat.zero_le _⟩
  intro entry listed
  cases listed

theorem Toolset.Counted.revised {toolset : Toolset} (counted : toolset.Counted repr ceiling) (revision : ℕ) :
    ({ toolset with revision } : Toolset).Counted repr ceiling := ⟨counted.count, counted.room⟩

/-- What the loop of a promotion keeps, from the tools that it began with. -/
structure Promotion.Sound (repr : String → String) (ceiling : CapabilityCeiling) (start : Toolset)
    (promotion : Promotion) : Prop where
  counted : promotion.toolset.Counted repr ceiling
  grown : start.tools.entries <+: promotion.toolset.tools.entries
  revision : promotion.toolset.revision = start.revision
  same : promotion.changed = false → promotion.toolset = start
  present : ∀ id ∈ promotion.promoted, id ∈ promotion.toolset.tools.keys

theorem Promotion.Sound.promoteOne {start : Toolset} {promotion : Promotion}
    (sound : promotion.Sound repr ceiling start) {descriptor : CapabilityDescriptor}
    (allowed : ceilingAllows repr ceiling descriptor.capabilityID = .ok true) :
    (ToolController.promoteOne promotion descriptor).Sound repr ceiling start := by
  unfold ToolController.promoteOne
  dsimp only
  split
  · next known =>
      refine ⟨sound.counted, sound.grown, sound.revision, sound.same, ?_⟩
      intro id listed
      rcases List.mem_append.mp listed with earlier | here
      · exact sound.present id earlier
      · rw [List.mem_singleton.mp here]
        exact known
  · next isNew =>
      split
      · exact ⟨sound.counted, sound.grown, sound.revision, sound.same, sound.present⟩
      · next fits =>
          have entries := Dict.entries_set_of_new (bindCapability descriptor) isNew
          refine ⟨⟨?_, not_lt.mp fits⟩, ?_, sound.revision, ?_, ?_⟩
          · obtain ⟨promoted, tools, each, bytes⟩ := sound.counted.count
            refine ⟨promoted ++ [(descriptor.capabilityID, bindCapability descriptor)], ?_, ?_, ?_⟩
            · rw [entries, tools, List.cons_append]
            · intro entry listed
              rcases List.mem_append.mp listed with earlier | here
              · exact each entry earlier
              · rw [List.mem_singleton.mp here]
                exact ⟨rfl, rfl, allowed⟩
            · rw [List.map_append, List.sum_append, bytes]
              rfl
          · rw [entries]
            exact sound.grown.trans (List.prefix_append _ _)
          · intro unchanged
            cases unchanged
          · intro id listed
            rw [Dict.keys_set, if_neg isNew]
            rcases List.mem_append.mp listed with earlier | here
            · exact List.mem_append_left _ (sound.present id earlier)
            · exact List.mem_append_right _ here

theorem Promotion.Sound.foldl {start : Toolset} {descriptors : List CapabilityDescriptor}
    (allowed : ∀ descriptor ∈ descriptors, ceilingAllows repr ceiling descriptor.capabilityID = .ok true)
    {promotion : Promotion} (sound : promotion.Sound repr ceiling start) :
    (descriptors.foldl ToolController.promoteOne promotion).Sound repr ceiling start := by
  induction descriptors generalizing promotion with
  | nil => exact sound
  | cons descriptor rest ih =>
      exact ih (fun other listed => allowed other (List.mem_cons_of_mem _ listed))
        (sound.promoteOne (allowed descriptor List.mem_cons_self))

/-- The tools are as they were, or there are more of them under a later revision. -/
def Toolset.Grows (before after : Toolset) : Prop :=
  after = before ∨ before.tools.entries <+: after.tools.entries ∧ before.revision < after.revision

theorem promote_sound {toolset : Toolset} (counted : toolset.Counted repr ceiling)
    {descriptors : List CapabilityDescriptor}
    (allowed : ∀ descriptor ∈ descriptors, ceilingAllows repr ceiling descriptor.capabilityID = .ok true) :
    (promote toolset descriptors).toolset.Counted repr ceiling ∧
      toolset.Grows (promote toolset descriptors).toolset ∧
        ∀ id ∈ (promote toolset descriptors).promoted, id ∈ (promote toolset descriptors).toolset.tools.keys := by
  have start : ({ toolset } : Promotion).Sound repr ceiling toolset := by
    refine ⟨counted, List.prefix_refl _, rfl, fun _ => rfl, ?_⟩
    intro id listed
    cases listed
  have sound := start.foldl allowed
  unfold promote
  dsimp only
  split
  · refine ⟨sound.counted.revised _, .inr ⟨sound.grown, ?_⟩, sound.present⟩
    dsimp only
    rw [sound.revision]
    exact Nat.lt_succ_self _
  · next unchanged =>
      exact ⟨sound.counted, .inl (sound.same (Bool.not_eq_true _ ▸ unchanged)), sound.present⟩

end Bounds

section Authorized

variable {repr : String → String} {ceiling : CapabilityCeiling} {Score : Type} [LinearOrder Score]

theorem allowed_of_authorized {reply descriptors : List CapabilityDescriptor}
    (authorized : authorizedDescriptors repr ceiling reply = .ok descriptors) :
    ∀ descriptor ∈ descriptors, ceilingAllows repr ceiling descriptor.capabilityID = .ok true := by
  induction reply generalizing descriptors with
  | nil =>
      cases authorized
      intro descriptor listed
      cases listed
  | cons first rest ih =>
      rw [authorizedDescriptors] at authorized
      split at authorized
      · exact ih authorized
      · obtain ⟨allowed, asked, onward⟩ := bind_eq_ok.mp authorized
        obtain ⟨others, later, same⟩ := bind_eq_ok.mp onward
        cases same
        cases allowed with
        | false => exact ih later
        | true =>
            intro descriptor listed
            rcases List.mem_cons.mp listed with rfl | behind
            · exact asked
            · exact ih later descriptor behind

theorem mem_byID {descriptors : List CapabilityDescriptor} {descriptor : CapabilityDescriptor} :
    descriptor ∈ byID descriptors ↔ descriptor ∈ descriptors := List.mem_mergeSort

theorem mem_rankDescriptors {ranking : Ranking Score} {query : String} {descriptors : List CapabilityDescriptor}
    {descriptor : CapabilityDescriptor} (ranked : descriptor ∈ rankDescriptors ranking query descriptors) :
    descriptor ∈ descriptors := by
  unfold rankDescriptors at ranked
  split at ranked
  · exact mem_byID.mp ranked
  · obtain ⟨entry, listed, rfl⟩ := List.mem_map.mp ranked
    exact List.fst_mem_of_mem_zipIdx (List.mem_mergeSort.mp listed)

theorem allowed_of_searchMatches {ranking : Ranking Score} {query : String} {limit : ℕ}
    {reply found : List CapabilityDescriptor}
    (matched : searchMatches repr ceiling ranking query limit reply = .ok found) :
    ∀ descriptor ∈ found, ceilingAllows repr ceiling descriptor.capabilityID = .ok true := by
  obtain ⟨descriptors, authorized, same⟩ := bind_eq_ok.mp matched
  cases same
  intro descriptor taken
  have ranked := List.mem_of_mem_take taken
  apply allowed_of_authorized authorized descriptor
  split at ranked
  · exact mem_rankDescriptors ranked
  · exact mem_byID.mp ranked

end Authorized

section Runs

variable {repr : String → String} {ceiling : CapabilityCeiling} {Score : Type} [LinearOrder Score]
  {ranking : Ranking Score}

/-- An earlier look at the tools and a later one: none is removed, and the revision tells them apart. -/
structure ToolsetSnapshot.Before (older newer : ToolsetSnapshot) : Prop where
  kept : older.tools <+: newer.tools
  revision : older.revision ≤ newer.revision
  same : older.revision = newer.revision → older.tools = newer.tools

/-- A search promotes what is allowed, and reports what is among the tools. -/
def Search.Sound (repr : String → String) (ceiling : CapabilityCeiling) (toolset : Toolset) : Search → Prop
  | .promoting found => ∀ descriptor ∈ found, ceilingAllows repr ceiling descriptor.capabilityID = .ok true
  | .reporting _ promoted _ => ∀ id ∈ promoted, id ∈ toolset.tools.keys
  | _ => True

/-- The invariant of the controller. -/
structure State.Sound (repr : String → String) (ceiling : CapabilityCeiling) (state : State) : Prop where
  counted : state.toolset.Counted repr ceiling
  searches : ∀ search ∈ state.searches, search.Sound repr ceiling state.toolset
  bounded : ∀ snapshot ∈ state.snapshots, IsBounded repr ceiling snapshot.tools
  seen : ∀ snapshot ∈ state.snapshots, snapshot.Before state.toolset.snapshot
  ordered : state.snapshots.Pairwise ToolsetSnapshot.Before
  reported : ∀ report ∈ state.reports, report.snapshot ∈ state.snapshots ∧
    ∀ id ∈ report.promoted, id ∈ report.snapshot.tools.map Prod.fst

theorem before_refl (snapshot : ToolsetSnapshot) : snapshot.Before snapshot :=
  ⟨List.prefix_refl _, le_rfl, fun _ => rfl⟩

theorem ToolsetSnapshot.Before.grows {snapshot : ToolsetSnapshot} {before after : Toolset}
    (seen : snapshot.Before before.snapshot) (grows : before.Grows after) : snapshot.Before after.snapshot := by
  rcases grows with rfl | ⟨more, later⟩
  · exact seen
  · have less := seen.revision.trans_lt later
    exact ⟨seen.kept.trans more, less.le, fun same => absurd same less.ne⟩

theorem Toolset.Grows.keys {before after : Toolset} (grows : before.Grows after) {id : String}
    (known : id ∈ before.tools.keys) : id ∈ after.tools.keys := by
  rcases grows with rfl | ⟨more, -⟩
  · exact known
  · exact (more.map Prod.fst).subset known

theorem sound_initial : State.Sound repr ceiling {} := by
  refine ⟨counted_initial, ?_, ?_, ?_, List.Pairwise.nil, ?_⟩
  all_goals
    intro _ listed
    cases listed

theorem State.Sound.look {state : State} (sound : state.Sound repr ceiling) {searches : List Search}
    (each : ∀ search ∈ searches, search.Sound repr ceiling state.toolset) {reports : List SearchReport}
    (reported : ∀ report ∈ reports, report.snapshot ∈ state.snapshots ++ [state.toolset.snapshot] ∧
      ∀ id ∈ report.promoted, id ∈ report.snapshot.tools.map Prod.fst) :
    State.Sound repr ceiling
      { state with searches, snapshots := state.snapshots ++ [state.toolset.snapshot], reports } := by
  refine ⟨sound.counted, each, ?_, ?_, ?_, reported⟩
  · intro snapshot listed
    rcases List.mem_append.mp listed with earlier | here
    · exact sound.bounded snapshot earlier
    · rw [List.mem_singleton.mp here]
      exact sound.counted.bounded
  · intro snapshot listed
    rcases List.mem_append.mp listed with earlier | here
    · exact sound.seen snapshot earlier
    · rw [List.mem_singleton.mp here]
      exact before_refl _
  · rw [List.pairwise_append]
    refine ⟨sound.ordered, List.pairwise_singleton _ _, ?_⟩
    intro older listed newer here
    rw [List.mem_singleton.mp here]
    exact sound.seen older listed

theorem State.Sound.moved {state : State} (sound : state.Sound repr ceiling) (index : ℕ) {search : Search}
    (own : search.Sound repr ceiling state.toolset) :
    State.Sound repr ceiling { state with searches := state.searches.set index search } := by
  refine ⟨sound.counted, ?_, sound.bounded, sound.seen, sound.ordered, sound.reported⟩
  intro other listed
  rcases List.mem_or_eq_of_mem_set listed with earlier | rfl
  · exact sound.searches other earlier
  · exact own

theorem State.Sound.step {state target : State} {label : Step} (sound : state.Sound repr ceiling)
    (step : next repr ceiling ranking state label = some target) : target.Sound repr ceiling := by
  cases label with
  | search call =>
      dsimp only [next] at step
      cases began : beginSearch repr call with
      | error message =>
          rw [began] at step
          cases step
          exact sound
      | ok search =>
          rw [began] at step
          cases step
          obtain ⟨⟨providers, selectors⟩, -, checked⟩ := bind_eq_ok.mp began
          obtain ⟨-, -, made⟩ := bind_eq_ok.mp checked
          cases made
          refine ⟨sound.counted, ?_, sound.bounded, sound.seen, sound.ordered, sound.reported⟩
          intro other listed
          rcases List.mem_append.mp listed with earlier | here
          · exact sound.searches other earlier
          · rw [List.mem_singleton.mp here]
            trivial
  | listed index reply =>
      dsimp only [next] at step
      split at step
      · split at step
        · next found matched =>
            cases step
            exact sound.moved index (allowed_of_searchMatches matched)
        · cases step
          exact sound.moved index trivial
      · cases step
  | promoted index =>
      dsimp only [next] at step
      split at step
      · next found here =>
          cases step
          obtain ⟨counted, grows, present⟩ := promote_sound sound.counted
            (sound.searches _ (List.mem_of_getElem? here))
          refine ⟨counted, ?_, sound.bounded, fun snapshot listed => (sound.seen snapshot listed).grows grows,
            sound.ordered, sound.reported⟩
          intro other listed
          rcases List.mem_or_eq_of_mem_set listed with earlier | rfl
          · have before := sound.searches other earlier
            cases other with
            | reporting found promoted skipped => exact fun id inside => grows.keys (before id inside)
            | promoting found => exact before
            | listing query providers selectors limit => trivial
            | done => trivial
            | raised message => trivial
          · exact present
      · cases step
  | reported index =>
      dsimp only [next] at step
      split at step
      · next found promoted skipped here =>
          cases step
          have own : ∀ id ∈ promoted, id ∈ state.toolset.tools.keys := sound.searches _ (List.mem_of_getElem? here)
          apply sound.look
          · have moved : State.Sound repr ceiling { state with searches := state.searches.set index .done } :=
              sound.moved index trivial
            exact moved.searches
          · intro report listed
            rcases List.mem_append.mp listed with earlier | last
            · obtain ⟨among, present⟩ := sound.reported report earlier
              exact ⟨List.mem_append_left _ among, present⟩
            · rw [List.mem_singleton.mp last]
              exact ⟨List.mem_append_right _ (List.mem_singleton_self _), own⟩
      · cases step
  | snapshot =>
      cases step
      apply sound.look sound.searches
      intro report listed
      obtain ⟨among, present⟩ := sound.reported report listed
      exact ⟨List.mem_append_left _ among, present⟩

/-- **Promotion stays inside its bounds.** In every run of searches, every look at the tools shows the discovery
tool and promoted tools that the ceiling allows, with no more bytes of schemas than there is room for; no tool
is removed, the same revision has the same tools, and more tools have a later one; and what a search reports as
promoted is among the tools that it sees. -/
theorem promotion_bounded (repr : String → String) (ceiling : CapabilityCeiling) (ranking : Ranking Score)
    {labels : List Step} {final : State} (run : (system repr ceiling ranking).Run {} labels final) :
    (∀ snapshot ∈ final.snapshots, IsBounded repr ceiling snapshot.tools) ∧
      final.snapshots.Pairwise (fun older newer =>
        older.tools <+: newer.tools ∧
          (older.revision = newer.revision → older.tools = newer.tools) ∧
            (older.tools.length < newer.tools.length → older.revision < newer.revision)) ∧
      ∀ report ∈ final.reports, report.snapshot ∈ final.snapshots ∧
        ∀ id ∈ report.promoted, id ∈ report.snapshot.tools.map Prod.fst := by
  have sound : final.Sound repr ceiling :=
    run.preserves (State.Sound repr ceiling) (fun _ _ _ sound step => State.Sound.step sound step) sound_initial
  refine ⟨sound.bounded, sound.ordered.imp ?_, sound.reported⟩
  intro older newer before
  refine ⟨before.kept, before.same, fun more => ?_⟩
  apply lt_of_le_of_ne before.revision
  intro same
  rw [before.same same] at more
  exact lt_irrefl _ more

/-- Two searches that run at the same time and find the same tool. -/
def sampleSearches : List Step :=
  let found : List CapabilityDescriptor := [{ capabilityID := "a:b", parameterSchema := [("type", .str "object")] }]
  [.snapshot, .search { query := "a" }, .search { query := "b" }, .listed 0 found, .listed 1 found, .promoted 1,
    .promoted 0, .reported 0, .reported 1]

/-- Every text has terms, and no document has a higher score than another. -/
def sampleRanking : Ranking ℕ := ⟨fun _ => true, fun _ _ _ => 0⟩

def sampleFinal : State := System.after (next id .all sampleRanking) {} sampleSearches

theorem promotion_bounded_sample :
    (∀ snapshot ∈ sampleFinal.snapshots, IsBounded id .all snapshot.tools) ∧
      sampleFinal.snapshots.Pairwise (fun older newer =>
        older.tools <+: newer.tools ∧
          (older.revision = newer.revision → older.tools = newer.tools) ∧
            (older.tools.length < newer.tools.length → older.revision < newer.revision)) ∧
      ∀ report ∈ sampleFinal.reports, report.snapshot ∈ sampleFinal.snapshots ∧
        ∀ id ∈ report.promoted, id ∈ report.snapshot.tools.map Prod.fst :=
  @promotion_bounded ℕ _ id .all sampleRanking sampleSearches sampleFinal (System.Run.ofNext (by decide))

end Runs

end Sico.TaskRuntime.ToolController
