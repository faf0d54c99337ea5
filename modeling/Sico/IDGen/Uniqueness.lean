import Mathlib.Data.List.Nodup
import Sico.Foundation.Numerals
import Sico.IDGen.Model

/-! # Identifiers are unique

An identifier tells its millisecond and its position, and a position below the counter of its
millisecond is handed out once: the call that advanced the counter past it has it. So no
identifier is returned twice, whatever calls are under way.

The seconds are admitted up to 32 bits, and one of them is the sign. An identifier of a later
second than `2 ^ 31` is negative; before that, identifiers grow with millisecond and position.
-/

namespace Sico.IDGen

open Foundation

section Packing

variable {ms ms' n n' : ℤ}

/-- A millisecond and a position that the checks admit. -/
structure Fits (ms n : ℤ) : Prop where
  positive : 0 ≤ ms
  seconds : ms / 1000 < 2 ^ 32
  lower : 0 ≤ n
  upper : n ≤ maxCounterPosition

/-- The identifier of a position in a millisecond. -/
def slotID (ms n : ℤ) : ℤ := packID (ms.tdiv 1000) (ms.tmod 1000) n Call.svrID

/-- The word of an identifier, without a sign. -/
def slotWord (ms n : ℤ) : ℤ := ms / 1000 * 2 ^ 32 + ms % 1000 * 2 ^ 22 + n * 2 ^ 14

theorem slotID_eq (fits : Fits ms n) : slotID ms n = (slotWord ms n).bmod (2 ^ 64) := by
  unfold slotID packID slotWord Call.svrID
  rw [Int.tdiv_eq_ediv_of_nonneg fits.positive, Int.tmod_eq_emod_of_nonneg fits.positive, Int.add_zero]

theorem slotWord_bounds (fits : Fits ms n) : 0 ≤ slotWord ms n ∧ slotWord ms n < 2 ^ 64 := by
  obtain ⟨positive, seconds, lower, upper⟩ := fits
  unfold slotWord
  unfold maxCounterPosition at upper
  omega

theorem slotWord_injective (fits : Fits ms n) (fits' : Fits ms' n') (same : slotWord ms n = slotWord ms' n') :
    ms = ms' ∧ n = n' := by
  obtain ⟨positive, seconds, lower, upper⟩ := fits
  obtain ⟨positive', seconds', lower', upper'⟩ := fits'
  unfold slotWord at same
  unfold maxCounterPosition at upper upper'
  omega

theorem slotID_injective (fits : Fits ms n) (fits' : Fits ms' n') (same : slotID ms n = slotID ms' n') :
    ms = ms' ∧ n = n' := by
  apply slotWord_injective fits fits'
  have bounds := slotWord_bounds fits
  have bounds' := slotWord_bounds fits'
  rw [slotID_eq fits, slotID_eq fits'] at same
  have words : slotWord ms n % ((2 ^ 64 : ℕ) : ℤ) = slotWord ms' n' % ((2 ^ 64 : ℕ) : ℤ) := by
    rw [← Int.bmod_emod, same, Int.bmod_emod]
  rwa [Int.emod_eq_of_lt bounds.1 (by exact_mod_cast bounds.2),
    Int.emod_eq_of_lt bounds'.1 (by exact_mod_cast bounds'.2)] at words

/-- Before the second `2 ^ 31` the sign is not touched. -/
theorem slotID_early (fits : Fits ms n) (early : ms / 1000 < 2 ^ 31) : slotID ms n = slotWord ms n := by
  rw [slotID_eq fits]
  obtain ⟨positive, seconds, lower, upper⟩ := fits
  apply Int.bmod_eq_of_le
  · unfold slotWord
    omega
  · unfold slotWord
    unfold maxCounterPosition at upper
    omega

theorem slotID_nonneg (fits : Fits ms n) (early : ms / 1000 < 2 ^ 31) : 0 ≤ slotID ms n := by
  rw [slotID_early fits early]
  exact (slotWord_bounds fits).1

theorem slotID_lt (fits : Fits ms n) (fits' : Fits ms' n') (early : ms / 1000 < 2 ^ 31)
    (early' : ms' / 1000 < 2 ^ 31) (later : ms < ms' ∨ ms = ms' ∧ n < n') : slotID ms n < slotID ms' n' := by
  rw [slotID_early fits early, slotID_early fits' early']
  obtain ⟨positive, seconds, lower, upper⟩ := fits
  obtain ⟨positive', seconds', lower', upper'⟩ := fits'
  unfold slotWord
  unfold maxCounterPosition at upper upper'
  omega

end Packing

section Counters

variable {counters counters' : Counters} {key other : String} {num position ms : ℤ}

def Counters.at (counters : Counters) (ms : ℤ) : ℤ := counters.position (genIDKey namespace_ Call.svrID ms)

theorem genIDKey_injective {ms ms' : ℤ}
    (same : genIDKey namespace_ Call.svrID ms = genIDKey namespace_ Call.svrID ms') : ms = ms' := by
  unfold genIDKey at same
  have texts := congrArg String.toList same
  simp only [String.toList_append] at texts
  exact toString_int_injective (String.toList_inj.mp (List.append_cancel_left texts))

theorem Counters.incrBy_eq_some (advanced : counters.incrBy key num = some (counters', position)) :
    position = counters.position key + num ∧
      ∀ other, counters'.position other = if other = key then position else counters.position other := by
  unfold Counters.incrBy at advanced
  dsimp only at advanced
  split at advanced
  · cases advanced
  · cases advanced
    refine ⟨rfl, fun other => ?_⟩
    unfold Counters.position
    rw [Dict.get?_set]
    split
    · rfl
    · rfl

theorem Counters.at_incrBy
    (advanced : counters.incrBy (genIDKey namespace_ Call.svrID ms) num = some (counters', position)) (ms' : ℤ) :
    counters'.at ms' = if ms' = ms then counters.at ms + num else counters.at ms' := by
  obtain ⟨rfl, reads⟩ := Counters.incrBy_eq_some advanced
  unfold Counters.at
  rw [reads]
  by_cases same : ms' = ms
  · rw [if_pos (congrArg _ same), if_pos same]
  · rw [if_neg fun keys => same (genIDKey_injective keys), if_neg same]

theorem Counters.at_le_incrBy (positive : 0 ≤ num)
    (advanced : counters.incrBy (genIDKey namespace_ Call.svrID ms) num = some (counters', position)) (ms' : ℤ) :
    counters.at ms' ≤ counters'.at ms' := by
  rw [Counters.at_incrBy advanced]
  split
  · next same =>
      rw [same]
      omega
  · exact le_rfl

end Counters

section Allocation

variable {ms leftNum counterPosition remaining : ℤ} {newIDs : List ℤ}

/-- The identifiers of as many positions as were left, from where the counter stood. -/
def Allocated (ms start leftNum : ℤ) (newIDs : List ℤ) (remaining : ℤ) : Prop :=
  ∃ count : ℕ, newIDs = (List.range count).map (fun (n : ℕ) => slotID ms (start + n)) ∧
    0 ≤ remaining ∧ count + remaining = leftNum ∧ ∀ n : ℕ, n < count → Fits ms (start + n)

theorem allocated_of_ok (positive : 0 ≤ ms) (needed : 0 < leftNum) (start : 0 ≤ counterPosition - leftNum)
    (ok : allocateIDs ms Call.svrID leftNum counterPosition = .ok (newIDs, remaining)) :
    Allocated ms (counterPosition - leftNum) leftNum newIDs remaining := by
  unfold allocateIDs at ok
  dsimp only at ok
  split at ok
  · cases ok
    exact ⟨0, rfl, by omega, by simp, fun n below => absurd below (by simp)⟩
  · next few =>
      split at ok
      · cases ok
      · split at ok
        · cases ok
        · next seconds =>
            split at ok
            · cases ok
            · cases ok
              rw [ne_eq, not_not, Int.tdiv_eq_ediv_of_nonneg positive] at seconds
              unfold maxCounterPosition at few ⊢
              refine ⟨_, rfl, ?_, ?_, fun n below => ⟨positive, by omega, by omega, ?_⟩⟩
              · split <;> omega
              · split <;> omega
              · unfold maxCounterPosition
                split at below <;> omega

end Allocation

section Calls

variable {counters counters' : Counters} {call call' : Call} {clock position bound : ℤ}

/-- The identifier of a position that the counter of its millisecond has passed, of no later
millisecond than the given one. -/
def Issued (counters : Counters) (bound id : ℤ) : Prop :=
  ∃ ms n, Fits ms n ∧ ms ≤ bound ∧ n < counters.at ms ∧ id = slotID ms n

theorem Issued.mono {id bound' : ℤ} (issued : Issued counters bound id)
    (grows : ∀ ms, counters.at ms ≤ counters'.at ms) (later : bound ≤ bound') : Issued counters' bound' id := by
  obtain ⟨ms, n, fits, within, passed, same⟩ := issued
  exact ⟨ms, n, fits, le_trans within later, lt_of_lt_of_le passed (grows ms), same⟩

/-- The identifiers of a call were issued to it, each once, and what is left is what they lack. -/
structure Call.Sound (counters : Counters) (call : Call) : Prop where
  left : 0 ≤ call.leftNum
  last : 0 ≤ call.lastMs
  total : call.ids.length + call.leftNum = call.counts
  issued : ∀ id ∈ call.ids, Issued counters call.lastMs id
  distinct : call.ids.Nodup
  returned : ∀ ids, call.outcome = some (.ok ids) → ids = call.ids ∧ call.leftNum = 0

/-- What a call does in a step: identifiers that it gets were not issued before. -/
structure Advances (counters : Counters) (call : Call) (counters' : Counters) (call' : Call) : Prop where
  sound : call'.Sound counters'
  grows : ∀ ms, counters.at ms ≤ counters'.at ms
  fresh : ∀ id ∈ call'.ids, id ∈ call.ids ∨ ∀ bound, ¬ Issued counters bound id

namespace Call

theorem sound_begin (counts : ℕ) : (begin counts).Sound counters where
  left := Int.natCast_nonneg counts
  last := le_rfl
  total := by simp [begin]
  issued id listed := by cases listed
  distinct := List.nodup_nil
  returned ids returned := by cases returned

theorem Sound.mono (sound : call.Sound counters) (grows : ∀ ms, counters.at ms ≤ counters'.at ms) :
    call.Sound counters' :=
  { sound with issued := fun id listed => (sound.issued id listed).mono grows le_rfl }

theorem lt_nextMs (call : Call) (clock : ℤ) : call.lastMs < call.nextMs clock := by
  unfold nextMs
  dsimp only
  split
  · omega
  · omega

theorem Sound.fail (sound : call.Sound counters) (message : String)
    (grows : ∀ ms, counters.at ms ≤ counters'.at ms) : Advances counters call counters' (call.fail message) where
  sound := { sound.mono grows with returned := fun ids returned => by cases returned }
  grows := grows
  fresh id listed := .inl listed

theorem Sound.finish (sound : call.Sound counters) : Advances counters call counters call.finish := by
  unfold Call.finish
  split
  · exact sound.fail _ fun _ => le_rfl
  · next enough =>
      rw [not_or, not_not] at enough
      exact
        { sound :=
            { sound with
              returned := by
                intro ids returned
                cases returned
                exact ⟨rfl, enough.2⟩ }
          grows := fun _ => le_rfl
          fresh := fun id listed => .inl listed }

theorem mem_allocated {ms start leftNum remaining id : ℤ} {newIDs : List ℤ}
    (allocated : Allocated ms start leftNum newIDs remaining) (listed : id ∈ newIDs) :
    ∃ n, Fits ms n ∧ start ≤ n ∧ n < start + leftNum ∧ id = slotID ms n := by
  obtain ⟨count, rfl, left, total, fits⟩ := allocated
  obtain ⟨n, below, rfl⟩ := List.mem_map.mp listed
  rw [List.mem_range] at below
  exact ⟨start + n, fits n below, by omega, by omega, rfl⟩

theorem nodup_allocated {ms start leftNum remaining : ℤ} {newIDs : List ℤ}
    (allocated : Allocated ms start leftNum newIDs remaining) : newIDs.Nodup := by
  obtain ⟨count, rfl, left, total, fits⟩ := allocated
  apply List.Nodup.map_on _ List.nodup_range
  intro first below second below' same
  rw [List.mem_range] at below below'
  have positions := (slotID_injective (fits first below) (fits second below') same).2
  omega

theorem Sound.receive_cases (sound : call.Sound counters) (nonneg : ∀ ms, 0 ≤ counters.at ms)
    (needed : 0 < call.leftNum)
    (advanced : counters.incrBy (call.key clock) call.leftNum = some (counters', position)) :
    (∃ message, call.receive clock position = call.fail message) ∨
      ∃ newIDs remaining,
        Allocated (call.nextMs clock) (counters.at (call.nextMs clock)) call.leftNum newIDs remaining ∧
        call.receive clock position =
          { call with
            leftNum := remaining
            lastMs := call.nextMs clock
            idx := call.idx + 1
            ids := call.ids ++ newIDs } := by
  obtain ⟨rfl, -⟩ := Counters.incrBy_eq_some advanced
  have later := call.lt_nextMs clock
  have last := sound.last
  have start : counters.position (call.key clock) + call.leftNum - call.leftNum =
      counters.at (call.nextMs clock) := by
    rw [add_sub_cancel_right]
    rfl
  unfold Call.receive
  split
  · exact .inl ⟨_, rfl⟩
  · next newIDs remaining ok =>
      have allocated := allocated_of_ok (by omega) needed (by rw [start]; exact nonneg _) ok
      rw [start] at allocated
      exact .inr ⟨newIDs, remaining, allocated, rfl⟩

theorem Sound.receive (sound : call.Sound counters) (nonneg : ∀ ms, 0 ≤ counters.at ms)
    (underway : call.outcome = none) (needed : 0 < call.leftNum)
    (advanced : counters.incrBy (call.key clock) call.leftNum = some (counters', position)) :
    Advances counters call counters' (call.receive clock position) := by
  have later := call.lt_nextMs clock
  have last := sound.last
  have reads := Counters.at_incrBy advanced
  have grows := Counters.at_le_incrBy (le_of_lt needed) advanced
  rcases sound.receive_cases nonneg needed advanced with ⟨message, failed⟩ | ⟨newIDs, remaining, allocated, received⟩
  · rw [failed]
    exact sound.fail message grows
  · rw [received]
    have issuedNew : ∀ id ∈ newIDs, Issued counters' (call.nextMs clock) id := by
      intro id listed
      obtain ⟨n, fits, above, below, same⟩ := mem_allocated allocated listed
      exact ⟨_, n, fits, le_rfl, by rw [reads, if_pos rfl]; exact below, same⟩
    have notIssued : ∀ id ∈ newIDs, ∀ bound, ¬ Issued counters bound id := by
      intro id listed bound issued
      obtain ⟨n, fits, above, -, rfl⟩ := mem_allocated allocated listed
      obtain ⟨ms, n', fits', -, passed, same⟩ := issued
      obtain ⟨rfl, rfl⟩ := slotID_injective fits fits' same
      omega
    obtain ⟨count, long, left, total, -⟩ := id allocated
    exact
      { sound :=
          { left
            last := by dsimp only; omega
            total := by
              have before := sound.total
              dsimp only
              rw [List.length_append, long, List.length_map, List.length_range]
              push_cast
              omega
            issued := by
              intro id listed
              rcases List.mem_append.mp listed with old | new
              · exact (sound.issued id old).mono grows (le_of_lt later)
              · exact issuedNew id new
            distinct := by
              apply List.Nodup.append sound.distinct (nodup_allocated allocated)
              intro id old new
              exact notIssued id new _ (sound.issued id old)
            returned := by
              intro ids returned
              dsimp only at returned
              rw [underway] at returned
              cases returned }
        grows
        fresh := by
          intro id listed
          rcases List.mem_append.mp listed with old | new
          · exact .inl old
          · exact .inr (notIssued id new) }

/-- The identifiers of a call are of seconds before `2 ^ 31`, and in ascending order. -/
structure Ordered (call : Call) : Prop where
  early : ∀ id ∈ call.ids, ∃ ms n, Fits ms n ∧ ms ≤ call.lastMs ∧ ms / 1000 < 2 ^ 31 ∧ id = slotID ms n
  ascending : call.ids.Pairwise (· < ·)

theorem Ordered.nonneg (ordered : call.Ordered) : ∀ id ∈ call.ids, 0 ≤ id := by
  intro id listed
  obtain ⟨ms, n, fits, -, early, rfl⟩ := ordered.early id listed
  exact slotID_nonneg fits early

theorem ascending_allocated {ms start leftNum remaining : ℤ} {newIDs : List ℤ}
    (allocated : Allocated ms start leftNum newIDs remaining) (early : ms / 1000 < 2 ^ 31) :
    newIDs.Pairwise (· < ·) := by
  obtain ⟨count, rfl, left, total, fits⟩ := allocated
  rw [List.pairwise_map]
  apply (List.pairwise_lt_range (n := count)).imp_of_mem
  intro first second below below' less
  rw [List.mem_range] at below below'
  exact slotID_lt (fits first below) (fits second below') early early (.inr ⟨rfl, by omega⟩)

theorem Ordered.receive (ordered : call.Ordered) (sound : call.Sound counters)
    (nonneg : ∀ ms, 0 ≤ counters.at ms) (needed : 0 < call.leftNum)
    (early : call.nextMs clock / 1000 < 2 ^ 31)
    (advanced : counters.incrBy (call.key clock) call.leftNum = some (counters', position)) :
    (call.receive clock position).Ordered := by
  have later := call.lt_nextMs clock
  rcases sound.receive_cases nonneg needed advanced with ⟨message, failed⟩ | ⟨newIDs, remaining, allocated, received⟩
  · rw [failed]
    exact ⟨ordered.early, ordered.ascending⟩
  · rw [received]
    refine ⟨fun id listed => ?_, ?_⟩
    · rcases List.mem_append.mp listed with old | new
      · obtain ⟨ms, n, fits, within, before, same⟩ := ordered.early id old
        exact ⟨ms, n, fits, le_trans within (le_of_lt later), before, same⟩
      · obtain ⟨n, fits, -, -, same⟩ := mem_allocated allocated new
        exact ⟨_, n, fits, le_rfl, early, same⟩
    · refine List.pairwise_append.mpr ⟨ordered.ascending, ascending_allocated allocated early, ?_⟩
      intro old listed new listed'
      obtain ⟨ms, n, fits, within, before, rfl⟩ := ordered.early old listed
      obtain ⟨n', fits', -, -, rfl⟩ := mem_allocated allocated listed'
      exact slotID_lt fits fits' before early (.inl (lt_of_le_of_lt within later))

end Call

end Calls

namespace World

variable {world target : World} {label : Label}

/-- What a step does to the calls: one begins, or one of them advances. -/
inductive Moves (world : World) : Label → World → Prop where
  | begins (counts : ℕ) :
      Moves world (.genMultiIDs counts) { world with calls := world.calls ++ [Call.begin counts] }
  | receives {position : ℕ} {call : Call} {clock counterPosition : ℤ} {counters : Counters}
      (here : world.calls[position]? = some call) (underway : call.outcome = none) (needed : 0 < call.leftNum)
      (advanced : world.counters.incrBy (call.key clock) call.leftNum = some (counters, counterPosition)) :
      Moves world (.allocate position clock)
        { counters, calls := world.calls.set position (call.receive clock counterPosition) }
  | fails {label : Label} {position : ℕ} {call : Call} {counters : Counters} (message : String)
      (here : world.calls[position]? = some call) (grows : ∀ ms, world.counters.at ms ≤ counters.at ms) :
      Moves world label { counters, calls := world.calls.set position (call.fail message) }
  | finishes {position : ℕ} {call : Call} (here : world.calls[position]? = some call) :
      Moves world (.finish position) { world with calls := world.calls.set position call.finish }

theorem moves_of_step (step : system.step world label target) : world.Moves label target := by
  cases label with
  | genMultiIDs counts =>
      obtain rfl := Option.some.inj step
      exact .begins counts
  | allocate position clock =>
      obtain ⟨call, here, step⟩ := Option.bind_eq_some_iff.mp step
      split at step
      · next goes =>
          obtain rfl := Option.some.inj step
          simp only [Call.loops, Bool.and_eq_true, Option.isNone_iff_eq_none, decide_eq_true_eq] at goes
          unfold World.allocate
          split
          · exact .fails _ here fun _ => le_rfl
          · next counters counterPosition advanced => exact .receives here goes.1 goes.2.1 advanced
      · cases step
  | fault position clock applied message =>
      obtain ⟨call, here, step⟩ := Option.bind_eq_some_iff.mp step
      split at step
      · next goes =>
          obtain rfl := Option.some.inj step
          simp only [Call.loops, Bool.and_eq_true, Option.isNone_iff_eq_none, decide_eq_true_eq] at goes
          apply Moves.fails message here
          intro ms
          split
          · cases advanced : world.counters.incrBy (call.key clock) call.leftNum with
            | none => exact le_rfl
            | some both => exact Counters.at_le_incrBy (le_of_lt goes.2.1) advanced ms
          · exact le_rfl
      · cases step
  | finish position =>
      obtain ⟨call, here, step⟩ := Option.bind_eq_some_iff.mp step
      split at step
      · obtain rfl := Option.some.inj step
        exact .finishes here
      · cases step

/-- Every call is sound, and no two of them have an identifier in common. -/
structure Sound (world : World) : Prop where
  nonneg : ∀ ms, 0 ≤ world.counters.at ms
  calls : ∀ call ∈ world.calls, call.Sound world.counters
  disjoint : ∀ (first second : ℕ) (one other : Call), world.calls[first]? = some one →
    world.calls[second]? = some other → first ≠ second → one.ids.Disjoint other.ids

theorem opening_sound : opening.Sound where
  nonneg ms := le_rfl
  calls call listed := by cases listed
  disjoint first second one other here := by cases here

theorem Sound.begins (sound : world.Sound) (counts : ℕ) :
    Sound { world with calls := world.calls ++ [Call.begin counts] } where
  nonneg := sound.nonneg
  calls := by
    intro call listed
    rcases List.mem_append.mp listed with earlier | latest
    · exact sound.calls call earlier
    · rw [List.mem_singleton.mp latest]
      exact Call.sound_begin counts
  disjoint := by
    intro first second one other here there different
    -- a call that has just begun has no identifiers
    have earlier (position : ℕ) (call : Call)
        (found : (world.calls ++ [Call.begin counts])[position]? = some call) :
        world.calls[position]? = some call ∨ call.ids = [] := by
      rw [List.getElem?_append] at found
      split at found
      · exact .inl found
      · right
        rw [List.mem_singleton.mp (List.mem_of_getElem? found)]
        rfl
    rcases earlier first one here with inside | none
    · rcases earlier second other there with inside' | none
      · exact sound.disjoint first second one other inside inside' different
      · rw [none]
        exact List.disjoint_nil_right _
    · rw [none]
      exact List.disjoint_nil_left _

theorem Sound.advance (sound : world.Sound) {position : ℕ} {call call' : Call} {counters' : Counters}
    (here : world.calls[position]? = some call) (advances : Advances world.counters call counters' call') :
    Sound { counters := counters', calls := world.calls.set position call' } where
  nonneg ms := le_trans (sound.nonneg ms) (advances.grows ms)
  calls := by
    intro other listed
    rcases List.mem_or_eq_of_mem_set listed with there | rfl
    · exact (sound.calls other there).mono advances.grows
    · exact advances.sound
  disjoint := by
    have apart (index : ℕ) (other : Call) (there : world.calls[index]? = some other) (different : position ≠ index) :
        call'.ids.Disjoint other.ids := by
      intro id moved listed
      rcases advances.fresh id moved with old | new
      · exact sound.disjoint position index call other here there different old listed
      · exact new _ ((sound.calls other (List.mem_of_getElem? there)).issued id listed)
    intro first second one other found found' different
    dsimp only at found found'
    rw [List.getElem?_set] at found found'
    split at found
    · next same =>
        split at found
        · cases found
          split at found'
          · next also => exact absurd (same.symm.trans also) different
          · exact apart second other found' (same ▸ different)
        · cases found
    · next other_ =>
        split at found'
        · next also =>
            split at found'
            · cases found'
              exact List.disjoint_symm (apart first one found other_)
            · cases found'
        · exact sound.disjoint first second one other found found' different

theorem Sound.step (sound : world.Sound) (step : system.step world label target) : target.Sound := by
  cases moves_of_step step with
  | begins counts => exact sound.begins counts
  | receives here underway needed advanced =>
      exact sound.advance here
        ((sound.calls _ (List.mem_of_getElem? here)).receive sound.nonneg underway needed advanced)
  | fails message here grows =>
      exact sound.advance here ((sound.calls _ (List.mem_of_getElem? here)).fail message grows)
  | finishes here => exact sound.advance here (sound.calls _ (List.mem_of_getElem? here)).finish

/-- A round uses a millisecond before the second `2 ^ 31`. -/
def Early (world : World) : Label → Prop
  | .allocate position clock => ∀ call ∈ world.calls[position]?, call.nextMs clock / 1000 < 2 ^ 31
  | _ => True

instance (world : World) (label : Label) : Decidable (Early world label) := by
  unfold Early
  split <;> infer_instance

theorem ordered_set (ordered : ∀ call ∈ world.calls, call.Ordered) {position : ℕ} {call' : Call}
    (moved : call'.Ordered) : ∀ call ∈ world.calls.set position call', call.Ordered := by
  intro call listed
  rcases List.mem_or_eq_of_mem_set listed with there | rfl
  · exact ordered call there
  · exact moved

theorem ordered_step (sound : world.Sound) (ordered : ∀ call ∈ world.calls, call.Ordered)
    (step : (system.restrict Early).step world label target) : ∀ call ∈ target.calls, call.Ordered := by
  obtain ⟨early, step⟩ := step
  cases moves_of_step step with
  | begins counts =>
      intro call listed
      rcases List.mem_append.mp listed with earlier | latest
      · exact ordered call earlier
      · rw [List.mem_singleton.mp latest]
        exact ⟨by simp [Call.begin], List.Pairwise.nil⟩
  | @receives position call clock _ _ here underway needed advanced =>
      have listed := List.mem_of_getElem? here
      apply ordered_set ordered
      exact (ordered call listed).receive (sound.calls call listed) sound.nonneg needed
        (early call (Option.mem_def.mpr here)) advanced
  | fails message here grows =>
      have kept := ordered _ (List.mem_of_getElem? here)
      exact ordered_set ordered ⟨kept.early, kept.ascending⟩
  | finishes here =>
      have kept := ordered _ (List.mem_of_getElem? here)
      apply ordered_set ordered
      unfold Call.finish
      split
      · exact ⟨kept.early, kept.ascending⟩
      · exact ⟨kept.early, kept.ascending⟩

theorem ordered_run {labels : List Label} (run : (system.restrict Early).Run opening labels world) :
    world.Sound ∧ ∀ call ∈ world.calls, call.Ordered := by
  apply run.preserves fun world => world.Sound ∧ ∀ call ∈ world.calls, call.Ordered
  · intro source label target before step
    exact ⟨before.1.step step.2, ordered_step before.1 before.2 step⟩
  · exact ⟨opening_sound, fun call listed => by cases listed⟩

end World

/-- The identifiers that a call came back with. -/
def Call.returned (call : Call) : List ℤ :=
  match call.outcome with
  | some (.ok ids) => ids
  | _ => []

theorem Call.returned_subset {counters : Counters} {call : Call} (sound : call.Sound counters) :
    call.returned = [] ∨ call.returned = call.ids := by
  unfold Call.returned
  split
  · next ids returned => exact .inr (sound.returned ids returned).1
  · exact .inl rfl

theorem Call.returned_disjoint {counters : Counters} {one other : Call} (sound : one.Sound counters)
    (sound' : other.Sound counters) (apart : one.ids.Disjoint other.ids) :
    one.returned.Disjoint other.returned := by
  rcases Call.returned_subset sound with none | same
  · rw [none]
    exact List.disjoint_nil_left _
  · rcases Call.returned_subset sound' with none | same'
    · rw [none]
      exact List.disjoint_nil_right _
    · rw [same, same']
      exact apart

/-- All identifiers ever returned. -/
def World.returned (world : World) : List ℤ := world.calls.flatMap Call.returned

theorem World.Sound.nodup {world : World} (sound : world.Sound) : world.returned.Nodup := by
  unfold World.returned
  rw [List.nodup_flatMap]
  constructor
  · intro call listed
    rcases Call.returned_subset (sound.calls call listed) with none | same
    · rw [none]
      exact List.nodup_nil
    · rw [same]
      exact (sound.calls call listed).distinct
  · rw [List.pairwise_iff_getElem]
    intro first second below below' less
    apply Call.returned_disjoint (sound.calls _ (List.getElem_mem below)) (sound.calls _ (List.getElem_mem below'))
    exact sound.disjoint first second _ _ (List.getElem?_eq_getElem below) (List.getElem?_eq_getElem below')
      (Nat.ne_of_lt less)

/-- What is asked of the identifiers of all calls. -/
structure World.Good (world : World) : Prop where
  distinct : world.returned.Nodup
  nonneg : ∀ id ∈ world.returned, 0 ≤ id
  ascending : ∀ call ∈ world.calls, ∀ ids, call.outcome = some (.ok ids) → ids.Pairwise (· < ·)
  complete : ∀ call ∈ world.calls, ∀ ids, call.outcome = some (.ok ids) → ids.length = call.counts

theorem World.Sound.complete {world : World} (sound : world.Sound) :
    ∀ call ∈ world.calls, ∀ ids, call.outcome = some (.ok ids) → ids.length = call.counts := by
  intro call listed ids returned
  obtain ⟨rfl, none⟩ := (sound.calls call listed).returned ids returned
  have total := (sound.calls call listed).total
  omega

/-- Every call gets as many identifiers as it asks for, in ascending order and none of them
negative, and no identifier is returned twice, as long as no call reaches the second `2 ^ 31`. -/
theorem good_of_early {labels : List Label} {world : World}
    (run : (World.system.restrict World.Early).Run World.opening labels world) : world.Good := by
  obtain ⟨sound, ordered⟩ := World.ordered_run run
  refine
    { distinct := sound.nodup
      nonneg := ?_
      ascending := ?_
      complete := sound.complete }
  · intro id listed
    obtain ⟨call, here, listed⟩ := List.mem_flatMap.mp listed
    apply (ordered call here).nonneg
    rcases Call.returned_subset (sound.calls call here) with none | same
    · rw [none] at listed
      cases listed
    · rwa [same] at listed
  · intro call here ids returned
    obtain ⟨rfl, -⟩ := (sound.calls call here).returned ids returned
    exact (ordered call here).ascending

/-- Two calls at the same clock: the second gets what is left of the millisecond, and goes on with
the next one. -/
def interleaved : List Label :=
  [.genMultiIDs 254, .genMultiIDs 3, .allocate 0 1700000000000, .allocate 1 1700000000000,
    .allocate 1 1700000000000, .finish 0, .finish 1]

theorem interleaved_good :
    (World.system.restrict World.Early).Run World.opening interleaved
        (System.after (System.guarded World.Early World.next) World.opening interleaved) ∧
      (System.after (System.guarded World.Early World.next) World.opening interleaved).Good := by
  have run : (World.system.restrict World.Early).Run World.opening interleaved
      (System.after (System.guarded World.Early World.next) World.opening interleaved) :=
    .ofGuarded World.Early (by decide)
  exact ⟨run, good_of_early run⟩

/-- One identifier, at the second `2 ^ 31`. -/
def late : List Label := [.genMultiIDs 1, .allocate 0 2147483648000, .finish 0]

/-- The check of the seconds admits the second `2 ^ 31`, and the identifier is negative. -/
theorem late_not_good :
    World.system.Run World.opening late (System.after World.next World.opening late) ∧
      ¬ (System.after World.next World.opening late).Good := by
  have run : World.system.Run World.opening late (System.after World.next World.opening late) :=
    .ofNext (by decide)
  have returned : -2 ^ 63 ∈ (System.after World.next World.opening late).returned := by decide
  exact ⟨run, fun good => absurd (good.nonneg _ returned) (by decide)⟩

end Sico.IDGen
