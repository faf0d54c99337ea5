import Mathlib.Data.Int.Order.Basic
import Sico.Foundation.Dict
import Sico.Foundation.System

/-! # The generator of identifiers

Replicas of the service share one counter for each millisecond. A call of `GenMultiIDs`
advances the counter of its millisecond by the number of identifiers it still needs, takes
the positions below the limit of the counter that it passed, and goes on with a later
millisecond for the rest. An identifier packs seconds, milliseconds, position and server
into a signed word of 64 bits.

Any number of calls are under way at a time, and each advance of a counter is atomic. A
counter does not expire as long as its millisecond can still be used, so it never does here.
-/

namespace Sico.IDGen

open Foundation

def maxCounterPosition : ℤ := 255

def maxTimeAddrTimes : ℕ := 8

/-- The greatest value of a counter, beyond which an advance is an error. -/
def counterMax : ℤ := 2 ^ 63 - 1

/-- `idGenImpl.namespace`, which nothing sets. -/
def namespace_ : String := ""

def genIDKey (space : String) (svrID ms : ℤ) : String :=
  "id_generator:" ++ space ++ ":" ++ toString svrID ++ ":" ++ toString ms

/-- An identifier, in the arithmetic of `int64`. -/
def packID (seconds millis n svrID : ℤ) : ℤ :=
  (seconds * 2 ^ 32 + millis * 2 ^ 22 + n * 2 ^ 14 + svrID).bmod (2 ^ 64)

/-- The counters of the milliseconds by their keys. -/
abbrev Counters : Type := Dict String ℤ

/-- The position of a counter: nothing counts as zero. -/
def Counters.position (counters : Counters) (key : String) : ℤ := (counters.get? key).getD 0

/-- `IncrBy`, with nothing where the counter would overflow. -/
def Counters.incrBy (counters : Counters) (key : String) (num : ℤ) : Option (Counters × ℤ) :=
  let position := counters.position key + num
  if counterMax < position then none else some (counters.set key position, position)

/-- `allocateIDs` behind the counter: the new identifiers, and how many are still needed. -/
def allocateIDs (ms svrID leftNum counterPosition : ℤ) : Except String (List ℤ × ℤ) :=
  let start := counterPosition - leftNum
  if maxCounterPosition < start then .ok ([], leftNum)
  else if counterPosition < leftNum then
    .error ("recycling of counting space occurs, ms=" ++ toString ms)
  else
    let ending := if maxCounterPosition < counterPosition then maxCounterPosition + 1 else counterPosition
    let remaining := if maxCounterPosition < counterPosition then counterPosition - maxCounterPosition - 1 else 0
    let seconds := ms.tdiv 1000
    let millis := ms.tmod 1000
    -- masks of the low bits
    if seconds % 2 ^ 32 ≠ seconds then .error ("seconds more than 32 bits, seconds=" ++ toString seconds)
    else if svrID % 2 ^ 14 ≠ svrID then .error ("server id more than 14 bits, serverID=" ++ toString svrID)
    else
      .ok ((List.range (ending - start).toNat).map (fun (n : ℕ) => packID seconds millis (start + n) svrID), remaining)

/-- A call of `GenMultiIDs` in its loop, and what it came back with. -/
structure Call where
  counts : ℕ
  leftNum : ℤ
  lastMs : ℤ := 0
  idx : ℕ := 0
  ids : List ℤ := []
  outcome : Option (Except String (List ℤ)) := none

namespace Call

def begin (counts : ℕ) : Call := { counts, leftNum := counts }

def loops (call : Call) : Bool := 0 < call.leftNum && call.idx < maxTimeAddrTimes

/-- The millisecond of the next round, for a reading of the clock. -/
def nextMs (call : Call) (clock : ℤ) : ℤ :=
  let ms := max clock call.lastMs
  if ms ≤ call.lastMs then ms + 1 else ms

/-- The server of every call. -/
def svrID : ℤ := 0

def key (call : Call) (clock : ℤ) : String := genIDKey namespace_ svrID (call.nextMs clock)

def fail (call : Call) (message : String) : Call := { call with outcome := some (.error message) }

def receive (call : Call) (clock counterPosition : ℤ) : Call :=
  match allocateIDs (call.nextMs clock) svrID call.leftNum counterPosition with
  | .error message => call.fail message
  | .ok (newIDs, remaining) =>
      { call with
        leftNum := remaining
        lastMs := call.nextMs clock
        idx := call.idx + 1
        ids := call.ids ++ newIDs }

/-- The end of `GenMultiIDs`. -/
def finish (call : Call) : Call :=
  if call.ids.length < call.counts ∨ call.leftNum ≠ 0 then
    call.fail ("IDs num not enough, ns=" ++ namespace_ ++ ", expect=" ++ toString call.counts ++ ", gotten=" ++
      toString call.ids.length ++ ", lastMs=" ++ toString call.lastMs)
  else
    { call with outcome := some (.ok call.ids) }

end Call

/-- The counters, and all calls so far. -/
structure World where
  counters : Counters
  calls : List Call := []

/-- What happens next, by the position of the call it happens to. -/
inductive Label where
  | genMultiIDs (counts : ℕ)
  /-- A round of the loop, at a reading of the clock. -/
  | allocate (position : ℕ) (clock : ℤ)
  /-- A round whose advance raises, whether the counter was advanced or not. -/
  | fault (position : ℕ) (clock : ℤ) (applied : Bool) (message : String)
  | finish (position : ℕ)

namespace World

def allocate (world : World) (position : ℕ) (call : Call) (clock : ℤ) : World :=
  match world.counters.incrBy (call.key clock) call.leftNum with
  | none => { world with calls := world.calls.set position (call.fail "increment or decrement would overflow") }
  | some (counters, counterPosition) =>
      { counters, calls := world.calls.set position (call.receive clock counterPosition) }

def next (world : World) : Label → Option World
  | .genMultiIDs counts => some { world with calls := world.calls ++ [Call.begin counts] }
  | .allocate position clock => do
      let call ← world.calls[position]?
      if call.outcome.isNone && call.loops then some (world.allocate position call clock) else none
  | .fault position clock applied message => do
      let call ← world.calls[position]?
      if call.outcome.isNone && call.loops then
        let advanced := (world.counters.incrBy (call.key clock) call.leftNum).map Prod.fst
        some
          { counters := if applied then advanced.getD world.counters else world.counters
            calls := world.calls.set position (call.fail message) }
      else none
  | .finish position => do
      let call ← world.calls[position]?
      if call.outcome.isNone && !call.loops then
        some { world with calls := world.calls.set position call.finish }
      else none

def opening : World := { counters := .empty }

def system : System World Label := System.ofNext next

end World

end Sico.IDGen
