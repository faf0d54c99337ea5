import Mathlib.Data.List.Basic
import Mathlib.Data.List.Nodup

/-! # Lists read page by page

A page of a list is what stands for a window of it, and with it goes the word whether anything is left behind
the window. The pages are numbered from zero. Whoever reads page after page until nothing is left has read the
list.
-/

namespace Foundation.Pages

variable {Row Item : Type} {rows : List Row} {items : List Row → List Item} {start other size page : ℕ}

def window (rows : List Row) (start size : ℕ) : List Row := (rows.drop start).take size

/-- The page that is asked for, and whether there is more behind it. -/
def IsPage (items : List Row → List Item) (rows : List Row) (size page : ℕ) (fetched : Option (List Item × Bool)) : Prop :=
  fetched = some (items (window rows (page * size) size), decide ((page + 1) * size < rows.length))

/-- The pages from one on, until nothing is left. -/
def readFrom (fetch : ℕ → Option (List Item × Bool)) : ℕ → ℕ → Option (List Item)
  | 0, _ => none
  | fuel + 1, page =>
      match fetch page with
      | none => none
      | some (listed, more) => if more then (readFrom fetch fuel (page + 1)).map (listed ++ ·) else some listed

theorem window_of_le (beyond : rows.length ≤ start) : window rows start size = [] := by
  rw [window, List.drop_eq_nil_of_le beyond, List.take_nil]

theorem window_append (rows : List Row) (start size : ℕ) :
    window rows start size ++ rows.drop (start + size) = rows.drop start := by
  rw [window, ← List.drop_drop, List.take_append_drop]

theorem mem_of_mem_window {row : Row} (listed : row ∈ window rows start size) : row ∈ rows :=
  List.mem_of_mem_drop (List.mem_of_mem_take listed)

theorem window_of_oneMore (rows : List Row) (start size : ℕ) :
    (window rows start (size + 1)).take size = window rows start size ∧
      (size < (window rows start (size + 1)).length ↔ start + size < rows.length) := by
  refine ⟨?_, ?_⟩
  · rw [window, window, List.take_take, Nat.min_eq_left (Nat.le_succ size)]
  · rw [window, List.length_take, List.length_drop]
    omega

section Distinct

theorem getElem_mem_window (inside : start < rows.length) (filled : 0 < size) :
    rows[start] ∈ window rows start size := by
  rw [window, List.drop_eq_getElem_cons inside]
  obtain ⟨less, rfl⟩ := Nat.exists_eq_succ_of_ne_zero (Nat.ne_of_gt filled)
  rw [List.take_succ_cons]
  exact List.mem_cons_self

theorem getElem_notMem_window (distinct : rows.Nodup) (inside : start < rows.length) (behind : start < other) :
    rows[start] ∉ window rows other size := by
  intro listed
  have later := List.mem_of_mem_take listed
  obtain ⟨index, bound, same⟩ := List.mem_iff_getElem.mp later
  rw [List.length_drop] at bound
  rw [List.getElem_drop] at same
  have within : other + index < rows.length := by omega
  have equal : other + index = start := (@List.Nodup.getElem_inj_iff _ rows distinct _ within _ inside).mp same
  omega

theorem min_eq_of_window (distinct : rows.Nodup) (filled : 0 < size)
    (same : ∀ row, row ∈ window rows start size ↔ row ∈ window rows other size) :
    min start rows.length = min other rows.length := by
  by_contra differ
  rcases Nat.lt_trichotomy start other with front | equal | behind
  · have inside : start < rows.length := by omega
    exact getElem_notMem_window distinct inside front ((same _).mp (getElem_mem_window inside filled))
  · exact differ (by rw [equal])
  · have inside : other < rows.length := by omega
    exact getElem_notMem_window distinct inside behind ((same _).mpr (getElem_mem_window inside filled))

end Distinct

theorem window_eq_of_min (same : min start rows.length = min other rows.length) :
    window rows start size = window rows other size := by
  by_cases inside : start < rows.length
  · rw [show start = other by omega]
  · rw [window_of_le (by omega), window_of_le (by omega)]

theorem more_eq_of_min (same : min start rows.length = min other rows.length) :
    decide (start + size < rows.length) = decide (other + size < rows.length) := by
  apply decide_eq_decide.mpr
  omega

/-- Where the items tell which rows they stand for, the items of two windows are the same exactly where these start
at the same place, or both behind the list. -/
theorem items_window_eq_iff (distinct : rows.Nodup) (filled : 0 < size)
    (tells : ∀ front back, (∀ row ∈ front, row ∈ rows) → (∀ row ∈ back, row ∈ rows) → items front = items back →
      ∀ row, row ∈ front → row ∈ back) :
    items (window rows start size) = items (window rows other size) ↔
      min start rows.length = min other rows.length := by
  constructor
  · intro equal
    apply min_eq_of_window distinct filled
    intro row
    exact ⟨tells _ _ (fun _ => mem_of_mem_window) (fun _ => mem_of_mem_window) equal row,
      tells _ _ (fun _ => mem_of_mem_window) (fun _ => mem_of_mem_window) equal.symm row⟩
  · intro same
    exact congrArg items (window_eq_of_min same)

/-- A window, with the word whether anything is left behind it, is the page that is asked for exactly where it starts
at the same place, or where both start behind the list. -/
theorem isPage_window_iff (distinct : rows.Nodup) (filled : 0 < size)
    (tells : ∀ front back, (∀ row ∈ front, row ∈ rows) → (∀ row ∈ back, row ∈ rows) → items front = items back →
      ∀ row, row ∈ front → row ∈ back) :
    IsPage items rows size page (some (items (window rows start size), decide (start + size < rows.length))) ↔
      min start rows.length = min (page * size) rows.length := by
  unfold IsPage
  rw [Option.some.injEq, Prod.mk.injEq, Nat.succ_mul, items_window_eq_iff distinct filled tells]
  exact and_iff_left_of_imp more_eq_of_min

/-- **Reading page by page.** Where every page up to the last is the one that is asked for, and the items of rows
that follow each other are joined, the pages together are the items of the list. -/
theorem readFrom_eq (filled : 0 < size)
    (joins : ∀ front back, front ++ back <:+ rows → items (front ++ back) = items front ++ items back)
    {fetch : ℕ → Option (List Item × Bool)}
    (pages : ∀ page, page = 0 ∨ page * size < rows.length → IsPage items rows size page (fetch page)) {fuel page : ℕ}
    (reached : page = 0 ∨ page * size < rows.length) (enough : rows.length < page + fuel) :
    readFrom fetch fuel page = some (items (rows.drop (page * size))) := by
  induction fuel generalizing page with
  | zero =>
      have grows : page ≤ page * size := Nat.le_mul_of_pos_right page filled
      omega
  | succ fuel ih =>
      have here : fetch page = _ := pages page reached
      have split := window_append rows (page * size) size
      rw [readFrom, here]
      dsimp only
      by_cases more : (page + 1) * size < rows.length
      · rw [if_pos (decide_eq_true more), ih (.inr more) (by omega), Option.map_some, Nat.succ_mul, ← split,
          joins _ _ (split ▸ List.drop_suffix _ _)]
      · rw [if_neg (by rw [decide_eq_true_eq]; exact more)]
        rw [Nat.succ_mul] at more
        rw [window, List.take_of_length_le (by rw [List.length_drop]; omega)]

end Foundation.Pages
