import Sico.Foundation.Paths
import Sico.Foundation.Traversal
import Sico.Playbooks.Serialization

/-! # What a playbook is read as

The text of a playbook is read as the playbook, if no identifier of a verdict has a comma in it. What is read never
has a verdict for an identifier with a comma, since texts of sets are split there: a playbook that has one is read
as another. Actions that keep two bullets apart are the only ones that give verdicts, and no verdict is taken back,
so the playbooks that come back are told by these actions alone.
-/

namespace Sico.Playbooks

open Foundation

section Keys

/-- A set of identifiers without commas. -/
def CommaFree (ids : Finset String) : Prop := ∀ id ∈ ids, ',' ∉ id.toList

theorem commaFree_pairIDs (key : String) : CommaFree (pairIDs key) := by
  intro id listed
  rw [pairIDs, List.mem_toFinset] at listed
  obtain ⟨part, inside, rfl⟩ := List.mem_map.mp listed
  rw [String.toList_ofList]
  exact notMem_splitOn _ part inside

theorem pairIDs_pairKey {ids : Finset String} (some_ : ids.Nonempty) (plain : CommaFree ids) :
    pairIDs (pairKey ids) = ids := by
  have parts : ∀ part ∈ ids.sort.map String.toList, ',' ∉ part := by
    intro part listed
    obtain ⟨id, member, rfl⟩ := List.mem_map.mp listed
    exact plain id ((Finset.mem_sort _).mp member)
  have inhabited : ids.sort.map String.toList ≠ [] := by
    obtain ⟨id, member⟩ := some_
    exact List.ne_nil_of_mem (List.mem_map_of_mem ((Finset.mem_sort (· ≤ ·)).mpr member))
  rw [pairIDs, pairKey, String.toList_ofList, List.splitOn_intercalate _ parts inhabited, List.map_map]
  have back : ids.sort.map (String.ofList ∘ String.toList) = ids.sort :=
    (List.map_congr_left fun id _ => String.ofList_toList).trans (List.map_id _)
  rw [back, Finset.sort_toFinset]

end Keys

section Fields

theorem readBullet_members (now : String) (bullet : Bullet) : readBullet now bullet.members = some bullet := by
  obtain ⟨id, name, content, helpful, harmful, neutral, createdAt, updatedAt, status⟩ := bullet
  cases status with
  | active => rfl
  | invalid => rfl

/-- A verdict that `_apply_keep` gives. -/
structure ConsolidationVerdict.Given (decision : ConsolidationVerdict) : Prop where
  verdict : decision.verdict = "keep_both"
  cosineScore : decision.cosineScore = "0.0"

theorem readVerdict_members {decision : ConsolidationVerdict} (given : decision.Given) :
    readVerdict (migrateVerdictDict decision.members) = some decision := by
  obtain ⟨verdict, rationale, cosineScore, judgedAt, judgeModel⟩ := decision
  obtain ⟨rfl, -⟩ := given
  rfl

end Fields

section Dictionaries

variable {Key Value : Type} [DecidableEq Key]

theorem write_entries (dict : Dict Key Value) : Dict.empty.write dict.entries = dict := by
  obtain ⟨entries, distinct⟩ := dict
  have same : ((Dict.empty : Dict Key Value).write entries).entries = entries := Dict.entries_write distinct
  cases written : (Dict.empty : Dict Key Value).write entries with
  | mk others _ =>
      rw [written] at same
      subst same
      rfl

theorem mapM_map_some {Written : Type} {write : Value → Written} {read : Written → Option Value} {values : List Value}
    (back : ∀ value ∈ values, read (write value) = some value) : (values.map write).mapM read = some values := by
  rw [mapM_eq_some, List.forall₂_map_left_iff, List.forall₂_same]
  exact back

omit [DecidableEq Key] in
theorem objects_map (inner : Value → List (String × Json)) (name : Key × Value → String) (entries : List (Key × Value)) :
    objects (entries.map fun entry => (name entry, .obj (inner entry.2))) =
      entries.map fun entry => (name entry, inner entry.2) := by
  rw [objects, List.filterMap_map]
  exact congrFun (List.filterMap_eq_map (f := fun entry => (name entry, inner entry.2))) entries

theorem readBullets_members (now : String) (bullets : Dict String Bullet) :
    readBullets now (some (.obj (bullets.entries.map fun entry => (entry.1, .obj entry.2.members)))) =
      some bullets := by
  rw [readBullets, objects_map Bullet.members Prod.fst, mapM_map_some, Option.map_some, write_entries]
  intro entry _
  rw [readBullet_members]
  rfl

theorem readSections_members (sections : Dict String (List String)) :
    readSections (some (.obj (sections.entries.map fun entry => (entry.1, .arr (entry.2.map .str))))) =
      some sections := by
  rw [readSections, mapM_map_some, Option.map_some, write_entries]
  intro entry _
  have texts : (entry.2.map Json.str).mapM readText = some entry.2 := mapM_map_some fun _ _ => rfl
  rw [readIDs, texts]
  rfl

end Dictionaries

section Documents

variable {judged : Judged}

/-- The verdicts are those that `_apply_keep` gives, under sets that are not empty. -/
def Judged.Given (judged : Judged) : Prop :=
  ∀ entry ∈ judged.similarityDecisions.entries, entry.2.Given ∧ entry.1.Nonempty

/-- No identifier of a verdict has a comma. -/
def Judged.Plain (judged : Judged) : Prop := ∀ ids ∈ judged.similarityDecisions.keys, CommaFree ids

theorem entries_decisionMembers (given : judged.Given) (plain : judged.Plain) :
    judged.decisionMembers.entries =
      judged.similarityDecisions.entries.map fun entry => (pairKey entry.1, .obj entry.2.members) := by
  rw [Judged.decisionMembers]
  apply Dict.entries_write
  have keys : (judged.similarityDecisions.entries.map fun entry => (pairKey entry.1, Json.obj entry.2.members)).map
      Prod.fst = judged.similarityDecisions.keys.map pairKey := by
    rw [Dict.keys, List.map_map, List.map_map]
    rfl
  rw [keys]
  apply List.Nodup.map_on _ judged.similarityDecisions.distinct
  intro first listed second alsoListed same
  have known : ∀ ids ∈ judged.similarityDecisions.keys, pairIDs (pairKey ids) = ids := by
    intro ids member
    obtain ⟨entry, inside, rfl⟩ := List.mem_map.mp member
    exact pairIDs_pairKey (given entry inside).2 (plain _ member)
  rw [← known first listed, same, known second alsoListed]

theorem readDecisions_members (given : judged.Given) (plain : judged.Plain) :
    readDecisions (some (.obj judged.decisionMembers.entries)) = some judged.similarityDecisions := by
  rw [entries_decisionMembers given plain, readDecisions,
    objects_map ConsolidationVerdict.members fun entry => pairKey entry.1, mapM_map_some, Option.map_some,
    write_entries]
  intro entry listed
  obtain ⟨own, some_⟩ := given entry listed
  rw [readVerdict_members own, pairIDs_pairKey some_ (plain _ (List.mem_map_of_mem listed))]
  rfl

theorem fromDict_members (now : String) (given : judged.Given) (plain : judged.Plain) :
    Judged.fromDict now judged.members = some judged := by
  have nextID : readNextID (some (.int judged.playbook.nextID)) = some judged.playbook.nextID := by
    rw [readNextID, if_pos (Int.natCast_nonneg _), Int.toNat_natCast]
  have bullets : Members.get? judged.members "bullets" = some (.obj _) := rfl
  have sections : Members.get? judged.members "sections" = some (.obj _) := rfl
  have next : Members.get? judged.members "next_id" = some (.int _) := rfl
  have decisions : Members.get? judged.members "similarity_decisions" = some (.obj _) := rfl
  rw [Judged.fromDict, bullets, sections, next, decisions, readBullets_members, readSections_members, nextID,
    readDecisions_members given plain]
  rfl

variable {floatText : String → String}

theorem proper_bullet (bullet : Bullet) : Json.Proper floatText (.obj bullet.members) := by
  refine ⟨?_, ?_⟩
  · change ["id", "section", "content", "helpful", "harmful", "neutral", "created_at", "updated_at", "embedding",
      "status"].Nodup
    decide
  · rw [Json.properMembers_iff]
    intro member listed
    simp only [Bullet.members, List.mem_cons, List.not_mem_nil, or_false] at listed
    rcases listed with rfl | rfl | rfl | rfl | rfl | rfl | rfl | rfl | rfl | rfl <;> trivial

theorem proper_verdict (zero : floatText "0.0" = "0.0") {decision : ConsolidationVerdict} (given : decision.Given) :
    Json.Proper floatText (.obj decision.members) := by
  refine ⟨?_, ?_⟩
  · change ["verdict", "rationale", "cosine_score", "judged_at", "judge_model"].Nodup
    decide
  · rw [Json.properMembers_iff]
    intro member listed
    simp only [ConsolidationVerdict.members, List.mem_cons, List.not_mem_nil, or_false] at listed
    rcases listed with rfl | rfl | rfl | rfl | rfl
    · trivial
    · trivial
    · rw [given.cosineScore]
      exact .inr ⟨by decide, zero⟩
    · trivial
    · trivial

theorem proper_toDict (zero : floatText "0.0" = "0.0") (given : judged.Given) :
    Json.Proper floatText judged.toDict := by
  have bullets : Json.Proper floatText
      (.obj (judged.playbook.bullets.entries.map fun entry => (entry.1, .obj entry.2.members))) := by
    refine ⟨?_, ?_⟩
    · rw [List.map_map]
      exact judged.playbook.bullets.distinct
    · rw [Json.properMembers_iff]
      intro member listed
      obtain ⟨entry, -, rfl⟩ := List.mem_map.mp listed
      exact proper_bullet entry.2
  have sections : Json.Proper floatText
      (.obj (judged.playbook.sections.entries.map fun entry => (entry.1, .arr (entry.2.map .str)))) := by
    refine ⟨?_, ?_⟩
    · rw [List.map_map]
      exact judged.playbook.sections.distinct
    · rw [Json.properMembers_iff]
      intro member listed
      obtain ⟨entry, -, rfl⟩ := List.mem_map.mp listed
      exact Json.properItems_texts entry.2
  have decisions : Json.Proper floatText (.obj judged.decisionMembers.entries) := by
    refine ⟨judged.decisionMembers.distinct, ?_⟩
    rw [Json.properMembers_iff]
    intro member listed
    rcases Dict.mem_write listed with nothing | written
    · cases nothing
    · obtain ⟨entry, inside, rfl⟩ := List.mem_map.mp written
      exact proper_verdict zero (given entry inside).1
  refine ⟨?_, bullets, sections, trivial, decisions, trivial⟩
  change ["bullets", "sections", "next_id", "similarity_decisions"].Nodup
  decide

theorem plain_of_fromDict {now : String} {payload : List (String × Json)}
    (read : Judged.fromDict now payload = some judged) : judged.Plain := by
  have decided : ∀ {json decisions}, readDecisions json = some decisions → ∀ ids ∈ decisions.keys, CommaFree ids := by
    intro json decisions told ids listed
    unfold readDecisions at told
    split at told
    · obtain ⟨entries, each, rfl⟩ := Option.map_eq_some_iff.mp told
      obtain ⟨entry, inside, rfl⟩ := List.mem_map.mp listed
      rcases Dict.mem_write inside with nothing | written
      · cases nothing
      · obtain ⟨source, -, made⟩ := exists_left_of_mem (mapM_eq_some.mp each) written
        obtain ⟨decision, -, rfl⟩ := Option.map_eq_some_iff.mp made
        exact commaFree_pairIDs _
    · cases told
      cases listed
  unfold Judged.fromDict at read
  obtain ⟨bullets, -, read⟩ := Option.bind_eq_some_iff.mp read
  obtain ⟨sections, -, read⟩ := Option.bind_eq_some_iff.mp read
  obtain ⟨nextID, -, read⟩ := Option.bind_eq_some_iff.mp read
  obtain ⟨decisions, told, read⟩ := Option.bind_eq_some_iff.mp read
  cases read
  exact decided told

theorem loads_dumps (zero : floatText "0.0" = "0.0") (now : String) (given : judged.Given) :
    Judged.loads floatText now judged.dumps = Judged.fromDict now judged.members := by
  rw [Judged.loads, Judged.dumps, Json.indented_lawful.loads_written (proper_toDict zero given)]
  rfl

theorem loads_dumps_iff (zero : floatText "0.0" = "0.0") (now : String) (given : judged.Given) :
    Judged.loads floatText now judged.dumps = some judged ↔ judged.Plain := by
  rw [loads_dumps zero now given]
  exact ⟨plain_of_fromDict, fromDict_members now given⟩

end Documents

section Runs

/-- Whether an action that keeps two bullets apart names no identifier with a comma. -/
def Curation.CommaFree : Curation → Prop
  | .consolidation (.keep targetIDs) _ _ _ => 2 ≤ targetIDs.length → ∀ id ∈ targetIDs, ',' ∉ id.toList
  | _ => True

variable {judged : Judged}

theorem mem_of_mem_pairs {ids : List String} {pair : String × String} (listed : pair ∈ Judged.pairs ids) :
    pair.1 ∈ ids ∧ pair.2 ∈ ids := by
  induction ids with
  | nil => cases listed
  | cons id later ih =>
      rcases List.mem_append.mp listed with first | behind
      · obtain ⟨other, inside, rfl⟩ := List.mem_map.mp first
        exact ⟨List.mem_cons_self, List.mem_cons_of_mem _ inside⟩
      · exact ⟨List.mem_cons_of_mem _ (ih behind).1, List.mem_cons_of_mem _ (ih behind).2⟩

theorem forall_pairs_iff {ids : List String} (several : 2 ≤ ids.length) (test : String → Prop) :
    (∀ pair ∈ Judged.pairs ids, test pair.1 ∧ test pair.2) ↔ ∀ id ∈ ids, test id := by
  constructor
  · intro each
    match ids, several with
    | first :: second :: rest, _ =>
        have withFirst : ∀ other ∈ second :: rest, test first ∧ test other := fun other listed =>
          each (first, other) (List.mem_append_left _ (List.mem_map_of_mem listed))
        intro id listed
        rcases List.mem_cons.mp listed with rfl | behind
        · exact (withFirst second List.mem_cons_self).1
        · exact (withFirst id behind).2
  · intro each pair listed
    obtain ⟨first, second⟩ := mem_of_mem_pairs listed
    exact ⟨each _ first, each _ second⟩

theorem plain_set (first second : String) (decision : ConsolidationVerdict) :
    (judged.setSimilarityDecision first second decision).Plain ↔
      judged.Plain ∧ ',' ∉ first.toList ∧ ',' ∉ second.toList := by
  have own : Sico.Playbooks.CommaFree {first, second} ↔ ',' ∉ first.toList ∧ ',' ∉ second.toList := by
    simp [Sico.Playbooks.CommaFree]
  rw [← own, Judged.Plain, Judged.setSimilarityDecision, Dict.keys_set]
  split
  · next known => exact ⟨fun each => ⟨each, each _ known⟩, fun both => both.1⟩
  · rw [List.forall_mem_append, List.forall_mem_singleton]
    rfl

theorem given_set (given : judged.Given) (first second : String) {decision : ConsolidationVerdict}
    (own : decision.Given) : (judged.setSimilarityDecision first second decision).Given := by
  intro entry listed
  rcases Dict.mem_set listed with earlier | rfl
  · exact given entry earlier
  · exact ⟨own, Finset.insert_nonempty _ _⟩

theorem foldl_set_iff (pairs : List (String × String)) {decision : ConsolidationVerdict} (own : decision.Given)
    (given : judged.Given) :
    (pairs.foldl (fun judged pair => judged.setSimilarityDecision pair.1 pair.2 decision) judged).Given ∧
      ((pairs.foldl (fun judged pair => judged.setSimilarityDecision pair.1 pair.2 decision) judged).Plain ↔
        judged.Plain ∧ ∀ pair ∈ pairs, ',' ∉ pair.1.toList ∧ ',' ∉ pair.2.toList) := by
  induction pairs generalizing judged with
  | nil => exact ⟨given, by simp⟩
  | cons pair rest ih =>
      obtain ⟨still, plain⟩ := ih (given_set given pair.1 pair.2 own)
      refine ⟨still, plain.trans ?_⟩
      rw [plain_set, List.forall_mem_cons, and_assoc]

/-- An action that keeps bullets apart leaves a playbook that comes back exactly if it met one and names no
identifier with a comma. -/
theorem applyKeep_iff (given : judged.Given) (targetIDs : List String) (reasoning differentiation now : String) :
    (judged.applyKeep targetIDs reasoning differentiation now).Given ∧
      ((judged.applyKeep targetIDs reasoning differentiation now).Plain ↔
        judged.Plain ∧ (2 ≤ targetIDs.length → ∀ id ∈ targetIDs, ',' ∉ id.toList)) := by
  rw [Judged.applyKeep]
  split
  · next few => exact ⟨given, fun plain => ⟨plain, fun several => absurd several (not_le.mpr few)⟩, fun both => both.1⟩
  · next several =>
      have enough : 2 ≤ targetIDs.length := not_lt.mp several
      rw [← forall_pairs_iff enough fun id => ',' ∉ id.toList]
      have own : ConsolidationVerdict.Given
          { verdict := "keep_both", rationale := if reasoning = "" then differentiation else reasoning
            cosineScore := "0.0", judgedAt := now } := ⟨rfl, rfl⟩
      obtain ⟨still, plain⟩ := foldl_set_iff (Judged.pairs targetIDs) own given
      exact ⟨still, plain.trans (and_congr_right fun _ => ⟨fun all _ => all, fun all => all enough⟩)⟩

theorem curate_iff (given : judged.Given) (label : Curation) :
    (judged.curate label).Given ∧ ((judged.curate label).Plain ↔ judged.Plain ∧ label.CommaFree) := by
  cases label with
  | operation operation now => exact ⟨given, (and_iff_left trivial).symm⟩
  | consolidation action reasoning differentiation now =>
      cases action with
      | keep targetIDs => exact applyKeep_iff given targetIDs reasoning differentiation now
      | merge sourceIDs keepID mergedContent => exact ⟨given, (and_iff_left trivial).symm⟩
      | drop targetIDs => exact ⟨given, (and_iff_left trivial).symm⟩
      | patch targetIDs newContent => exact ⟨given, (and_iff_left trivial).symm⟩

theorem run_iff {labels : List Curation} {final : Judged} (run : curation.Run .empty labels final) :
    final.Given ∧ (final.Plain ↔ ∀ label ∈ labels, label.CommaFree) := by
  refine run.invariant (fun labels state => state.Given ∧ (state.Plain ↔ ∀ label ∈ labels, label.CommaFree)) ?_ ?_
  · refine ⟨?_, ?_⟩
    · intro entry listed
      cases listed
    · constructor
      · intro _ label listed
        cases listed
      · intro _ ids listed
        cases listed
  · intro labels source label target invariant step
    cases step
    obtain ⟨given, plain⟩ := curate_iff invariant.1 label
    refine ⟨given, plain.trans ?_⟩
    rw [invariant.2, List.forall_mem_append, List.forall_mem_singleton]

/-- **The round trip of a playbook.** A playbook that the curator has made comes back from its text exactly if no
action that keeps bullets apart names an identifier with a comma. -/
theorem playbook_round_trip (floatText : String → String) (zero : floatText "0.0" = "0.0") (now : String)
    {labels : List Curation} {final : Judged} (run : curation.Run .empty labels final) :
    Judged.loads floatText now final.dumps = some final ↔ ∀ label ∈ labels, label.CommaFree := by
  obtain ⟨given, plain⟩ := run_iff run
  exact (loads_dumps_iff zero now given).trans plain

/-- An action that keeps two bullets apart, one of them with a comma in its identifier. -/
def keptApart : Curation := .consolidation (.keep ["a,b", "c"]) "They differ." "" ""

theorem playbook_round_trip_kept :
    Judged.loads id "" (Judged.empty.curate keptApart).dumps = some (Judged.empty.curate keptApart) ↔
      ∀ label ∈ [keptApart], label.CommaFree :=
  playbook_round_trip id rfl "" (.snoc .nil rfl)

/-- The verdict is read as one for three identifiers. -/
theorem keptApart_lost :
    curation.Run .empty [keptApart] (Judged.empty.curate keptApart) ∧
      (Judged.empty.curate keptApart).hasKeepDecision "a,b" "c" = true ∧
      (Judged.loads id "" (Judged.empty.curate keptApart).dumps).map (fun read => read.hasKeepDecision "a,b" "c") =
        some false := by
  have run : curation.Run .empty [keptApart] (Judged.empty.curate keptApart) := .snoc .nil rfl
  have sorted : ({"a,b", "c"} : Finset String).sort = ["a,b", "c"] := by
    rw [Finset.sort_insert _ (by decide) (by decide), Finset.sort_singleton]
  have key : pairKey {"a,b", "c"} = "a,b,c" := by
    rw [pairKey, sorted]
    rfl
  have members : (Judged.empty.curate keptApart).members =
      [("bullets", .obj []), ("sections", .obj []), ("next_id", .int 0),
        ("similarity_decisions", .obj [(pairKey {"a,b", "c"}, .obj (ConsolidationVerdict.members
          { verdict := "keep_both", rationale := "They differ.", cosineScore := "0.0", judgedAt := "" }))])] := rfl
  refine ⟨run, by decide, ?_⟩
  rw [loads_dumps rfl "" (run_iff run).1, members, key]
  decide

end Runs

end Sico.Playbooks
