import Mathlib.Algebra.GroupWithZero.Nat
import Mathlib.Data.List.Forall2
import Sico.Foundation.Basic

/-! # Tables of keyed rows

A table is the list of its rows, and `key` names the column it is read by. A
statement rewrites the rows it selects, through a body that may fail and then
leaves the table as it was. Reading a key after the statement gives the row read
before it, rewritten if the statement selected it.
-/

namespace Foundation

namespace Table

variable {Row Key Error : Type*} [DecidableEq Key] (key : Row → Key)

def select (k : Key) (rows : List Row) : Option Row := rows.find? fun row => key row = k

/-- One row of a statement: rewritten if it is selected. -/
def rewriteWhere (selected : Row → Bool) (body : Row → Except Error Row) (row : Row) :
    Except Error Row :=
  if selected row then body row else .ok row

/-- The table after rewriting the selected rows; the first failure is the result. -/
def updateWhere (selected : Row → Bool) (body : Row → Except Error Row) :
    List Row → Except Error (List Row)
  | [] => .ok []
  | row :: rest => do
      let head ← rewriteWhere selected body row
      let tail ← updateWhere selected body rest
      return head :: tail

section Statements

variable {selected : Row → Bool} {body : Row → Except Error Row}

theorem updateWhere_eq_ok {rows rows' : List Row} :
    updateWhere selected body rows = .ok rows' ↔
      List.Forall₂ (fun row row' => rewriteWhere selected body row = .ok row') rows rows' := by
  induction rows generalizing rows' with
  | nil =>
      rw [updateWhere, List.forall₂_nil_left_iff, Except.ok.injEq, eq_comm]
  | cons row rest ih =>
      rw [updateWhere, bind_eq_ok, List.forall₂_cons_left_iff]
      constructor
      · rintro ⟨head, step, onward⟩
        obtain ⟨tail, later, same⟩ := bind_eq_ok.mp onward
        cases same
        exact ⟨head, tail, step, ih.mp later, rfl⟩
      · rintro ⟨head, tail, step, later, rfl⟩
        exact ⟨head, step, bind_eq_ok.mpr ⟨tail, ih.mpr later, rfl⟩⟩

theorem exists_updateWhere {rows : List Row} :
    (∃ rows', updateWhere selected body rows = .ok rows') ↔
      ∀ row ∈ rows, selected row = true → ∃ row', body row = .ok row' := by
  simp only [updateWhere_eq_ok]
  induction rows with
  | nil => exact ⟨fun _ row listed => by simp at listed, fun _ => ⟨[], .nil⟩⟩
  | cons row rest ih =>
      rw [List.forall_mem_cons, ← ih]
      simp only [List.forall₂_cons_left_iff]
      constructor
      · rintro ⟨_, head, tail, step, later, rfl⟩
        refine ⟨fun here => ⟨head, ?_⟩, tail, later⟩
        rwa [rewriteWhere, if_pos here] at step
      · rintro ⟨first, tail, later⟩
        by_cases here : selected row = true
        · obtain ⟨head, step⟩ := first here
          exact ⟨_, head, tail, by rw [rewriteWhere, if_pos here, step], later, rfl⟩
        · exact ⟨_, row, tail, by rw [rewriteWhere, if_neg here], later, rfl⟩

theorem updateWhere_of_none {rows : List Row} (none_ : ∀ row ∈ rows, selected row = false) :
    updateWhere selected body rows = .ok rows :=
  updateWhere_eq_ok.mpr (List.forall₂_same.mpr fun row listed => by
    rw [rewriteWhere, if_neg (by simp [none_ row listed])])

end Statements

theorem sum_countP {Kind : Type*} [DecidableEq Kind] (kind : Row → Kind) {kinds : List Kind}
    (distinct : kinds.Nodup) (rows : List Row) :
    (kinds.map fun one => rows.countP fun row => kind row = one).sum =
      rows.countP fun row => kind row ∈ kinds := by
  induction kinds with
  | nil => simp
  | cons one others ih =>
      obtain ⟨apart, distinct⟩ := List.nodup_cons.mp distinct
      rw [List.map_cons, List.sum_cons, ih distinct]
      clear ih
      induction rows with
      | nil => rfl
      | cons row rest later =>
          simp only [List.countP_cons, List.mem_cons, decide_eq_true_eq] at later ⊢
          by_cases here : kind row = one
          · simp only [here, apart, true_or, if_true, if_false]
            omega
          · simp only [here, false_or, if_false]
            omega

variable {key}

theorem key_of_select {k : Key} {rows : List Row} {row : Row}
    (found : select key k rows = some row) : key row = k := by
  simpa using List.find?_some found

theorem select_of_mem {rows : List Row} (distinct : (rows.map key).Nodup) {row : Row}
    (member : row ∈ rows) : select key (key row) rows = some row := by
  induction rows with
  | nil => cases member
  | cons first rest ih =>
      rw [List.map_cons, List.nodup_cons] at distinct
      rcases List.mem_cons.mp member with rfl | later
      · simp [select]
      · have other : key first ≠ key row := fun same =>
          distinct.1 (same ▸ List.mem_map_of_mem later)
        simpa [select, other] using ih distinct.2 later

/-- **Reading after a statement.** When the body keeps the key, the row read after
the statement is the row read before it, rewritten if it was selected. -/
theorem select_updateWhere {selected : Row → Bool} {body : Row → Except Error Row}
    (keeps : ∀ row row', body row = .ok row' → key row' = key row)
    {rows rows' : List Row} (done : updateWhere selected body rows = .ok rows')
    {k : Key} {row : Row} (found : select key k rows = some row) :
    ∃ row', select key k rows' = some row' ∧ rewriteWhere selected body row = .ok row' := by
  induction rows generalizing rows' with
  | nil => simp [select] at found
  | cons first rest ih =>
      obtain ⟨head, tail, step, later, rfl⟩ :
          ∃ head tail, rewriteWhere selected body first = .ok head ∧
            updateWhere selected body rest = .ok tail ∧ rows' = head :: tail := by
        rw [updateWhere] at done
        obtain ⟨head, step, onward⟩ := bind_eq_ok.mp done
        obtain ⟨tail, later, same⟩ := bind_eq_ok.mp onward
        cases same
        exact ⟨head, tail, step, later, rfl⟩
      have sameKey : key head = key first := by
        unfold rewriteWhere at step
        split at step
        · exact keeps _ _ step
        · cases step
          rfl
      by_cases here : key first = k
      · obtain rfl : first = row := by simpa [select, here] using found
        exact ⟨head, by simp [select, sameKey, here], step⟩
      · have onward : select key k rest = some row := by simpa [select, here] using found
        obtain ⟨row', found', effect⟩ := ih later onward
        exact ⟨row', by simpa [select, sameKey, here] using found', effect⟩

theorem select_map {rewrite : Row → Row} (keeps : ∀ row, key (rewrite row) = key row)
    (k : Key) (rows : List Row) :
    select key k (rows.map rewrite) = (select key k rows).map rewrite := by
  induction rows with
  | nil => rfl
  | cons first rest ih =>
      by_cases here : key first = k
      · simp [select, keeps, here]
      · simpa [select, keeps, here] using ih

theorem select_append {k : Key} {rows : List Row} {row : Row} (added : List Row)
    (found : select key k rows = some row) : select key k (rows ++ added) = some row := by
  simp only [select, List.find?_append] at found ⊢
  rw [found]
  rfl

end Table

end Foundation
