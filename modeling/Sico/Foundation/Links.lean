import Sico.Foundation.Paths

/-! # Paths through links

A link has a text, and a path that comes to it goes on along the text: from the link's own directory, or from the root
where the text begins with a slash. A path is followed through a number of links, and no further (`Foundation.resolve`).
Where it leads depends on the links alone that it comes to; below where it leads, a name that is no link leads to itself
(`Foundation.resolve_name`).

A pure path is what a text says, without the file system: the names in it, and whether it begins at the root.
-/

namespace Foundation

/-- The links of a file system, each with its text. -/
abbrev Links : Type := Location → Option String

/-- The location that parts lead to up to the first link, where `follow` goes on. -/
def walkLinks (links : Links) (follow : Location → List String → Option Location) :
    Location → List String → Option Location
  | location, [] => some location
  | location, part :: rest =>
      if part = "" ∨ part = "." then walkLinks links follow location rest
      else if part = ".." then walkLinks links follow location.dropLast rest
      else
        match links (location ++ [part]) with
        | none => walkLinks links follow (location ++ [part]) rest
        | some text => follow (if isAbsolute text then [] else location) (pathParts text ++ rest)

/-- The location that parts lead to through at most so many links. -/
def resolve (links : Links) : ℕ → Location → List String → Option Location
  | 0 => walkLinks links fun _ _ => none
  | depth + 1 => walkLinks links (resolve links depth)

section Names

variable {links : Links} {name : String} {found : Location}

theorem walkLinks_name {follow : Location → List String → Option Location} (named : IsName name)
    (plain : links (found ++ [name]) = none)
    (follows : ∀ location parts, follow location parts = some found →
      follow location (parts ++ [name]) = some (found ++ [name])) {location : Location} {parts : List String}
    (leads : walkLinks links follow location parts = some found) :
    walkLinks links follow location (parts ++ [name]) = some (found ++ [name]) := by
  have stays : ¬ (name = "" ∨ name = ".") := not_or.mpr ⟨named.nonempty, named.dot⟩
  induction parts generalizing location with
  | nil =>
      obtain rfl := Option.some.inj leads
      rw [List.nil_append, walkLinks, if_neg stays, if_neg named.dots, plain]
      rfl
  | cons part rest ih =>
      rw [walkLinks] at leads
      rw [List.cons_append, walkLinks]
      split at leads
      · rename_i here
        rw [if_pos here]
        exact ih leads
      · rename_i away
        rw [if_neg away]
        split at leads
        · rename_i up
          rw [if_pos up]
          exact ih leads
        · rename_i down
          rw [if_neg down]
          cases linked : links (location ++ [part]) with
          | none =>
              rw [linked] at leads
              exact ih leads
          | some text =>
              rw [linked] at leads
              have onward := follows _ _ leads
              rwa [List.append_assoc] at onward

theorem resolve_name (named : IsName name) (plain : links (found ++ [name]) = none) {depth : ℕ} {location : Location}
    {parts : List String} (leads : resolve links depth location parts = some found) :
    resolve links depth location (parts ++ [name]) = some (found ++ [name]) := by
  induction depth generalizing location parts with
  | zero => exact walkLinks_name named plain (fun _ _ impossible => by cases impossible) leads
  | succ depth ih => exact walkLinks_name named plain (fun _ _ => ih) leads

/-- A location that no link leads away from. -/
def Settled (links : Links) (location : Location) : Prop :=
  ∀ front part, front ++ [part] <+: location → links (front ++ [part]) = none ∧ part ≠ "" ∧ part ≠ "." ∧ part ≠ ".."

theorem Settled.snoc {location : Location} {part : String} (settled : Settled links location)
    (plain : links (location ++ [part]) = none) (kept : part ≠ "" ∧ part ≠ "." ∧ part ≠ "..") :
    Settled links (location ++ [part]) := by
  intro front last begins
  rcases List.prefix_concat_iff.mp begins with whole | before
  · obtain ⟨rfl, same⟩ := List.append_inj' whole rfl
    obtain rfl := List.singleton_inj.mp same
    exact ⟨plain, kept⟩
  · exact settled front last before

theorem resolve_settled (depth : ℕ) {location : Location} {parts : List String}
    (settled : Settled links (location ++ parts)) : resolve links depth location parts = some (location ++ parts) := by
  have walks (follow : Location → List String → Option Location) :
      walkLinks links follow location parts = some (location ++ parts) := by
    induction parts generalizing location with
    | nil => rw [walkLinks, List.append_nil]
    | cons part rest ih =>
        have split : location ++ part :: rest = location ++ [part] ++ rest := List.append_cons location part rest
        obtain ⟨plain, nonempty, dot, dots⟩ := settled location part (split ▸ List.prefix_append _ rest)
        rw [walkLinks, if_neg (not_or.mpr ⟨nonempty, dot⟩), if_neg dots, plain, split]
        exact ih (split ▸ settled)
  cases depth with
  | zero => exact walks _
  | succ depth => exact walks _

def moves (part : String) : Bool := part ≠ "" ∧ part ≠ "."

theorem walkLinks_moves {follow : Location → List String → Option Location}
    (follows : ∀ location parts, follow location (parts.filter moves) = follow location parts) (location : Location)
    (parts : List String) : walkLinks links follow location (parts.filter moves) = walkLinks links follow location parts := by
  induction parts generalizing location with
  | nil => rfl
  | cons part rest ih =>
      by_cases stays : part = "" ∨ part = "."
      · have idle : ¬ moves part = true := fun moving =>
          stays.elim (of_decide_eq_true moving).1 (of_decide_eq_true moving).2
        rw [List.filter_cons_of_neg idle, walkLinks, if_pos stays]
        exact ih location
      · have moving : moves part = true := decide_eq_true (not_or.mp stays)
        rw [List.filter_cons_of_pos moving, walkLinks, walkLinks, if_neg stays, if_neg stays, ih, ih]
        cases links (location ++ [part]) with
        | none => rfl
        | some text =>
            dsimp only
            rw [← follows _ (pathParts text ++ rest.filter moves), ← follows _ (pathParts text ++ rest),
              List.filter_append, List.filter_append, List.filter_filter]
            simp only [Bool.and_self]

theorem resolve_moves (depth : ℕ) (location : Location) (parts : List String) :
    resolve links depth location (parts.filter moves) = resolve links depth location parts := by
  induction depth generalizing location parts with
  | zero => exact walkLinks_moves (fun _ _ => rfl) location parts
  | succ depth ih => exact walkLinks_moves ih location parts

end Names

section PurePaths

/-- What a text says of a path: where it begins, and the names in it. -/
structure PurePath where
  root : String
  parts : List String
  deriving Repr, DecidableEq

namespace PurePath

/-- The part of a text that says where it begins: two slashes, and no third, are not one. -/
def rootOf : List Char → String
  | '/' :: '/' :: '/' :: _ => "/"
  | '/' :: '/' :: _ => "//"
  | '/' :: _ => "/"
  | _ => ""

def ofText (text : String) : PurePath :=
  ⟨rootOf text.toList, (pathParts text).filter fun part => part ≠ "" ∧ part ≠ "."⟩

/-- A path that begins at the root is not joined to another one. -/
def join (path other : PurePath) : PurePath := if other.root = "" then ⟨path.root, path.parts ++ other.parts⟩ else other

def parent (path : PurePath) : PurePath := ⟨path.root, path.parts.dropLast⟩

def name (path : PurePath) : String := path.parts.getLast?.getD ""

def components (path : PurePath) : List String := if path.root = "" then path.parts else path.root :: path.parts

def asText (path : PurePath) : String :=
  if path.root = "" ∧ path.parts = [] then "."
  else path.root ++ String.ofList (['/'].intercalate (path.parts.map String.toList))

def IsPart (part : String) : Prop := part ≠ "" ∧ part ≠ "." ∧ '/' ∉ part.toList

theorem isPart_of_mem {text part : String} (inside : part ∈ (ofText text).parts) : IsPart part := by
  obtain ⟨listed, some_⟩ := List.mem_filter.mp inside
  obtain ⟨nonempty, dot⟩ := of_decide_eq_true some_
  obtain ⟨letters, there, rfl⟩ := List.mem_map.mp listed
  refine ⟨nonempty, dot, ?_⟩
  rw [String.toList_ofList]
  exact notMem_splitOn _ letters there

theorem rootOf_of_ne {letter : Char} (other : letter ≠ '/') (rest : List Char) : rootOf (letter :: rest) = "" := by
  unfold rootOf
  split
  · rename_i same
    exact absurd (List.cons.inj same).1 other
  · rename_i same
    exact absurd (List.cons.inj same).1 other
  · rename_i same
    exact absurd (List.cons.inj same).1 other
  · rfl

theorem ofText_asText {parts : List String} (some_ : parts ≠ []) (plain : ∀ part ∈ parts, IsPart part) :
    ofText (asText ⟨"", parts⟩) = ⟨"", parts⟩ := by
  have letters : (asText ⟨"", parts⟩).toList = ['/'].intercalate (parts.map String.toList) := by
    rw [asText, if_neg fun both => some_ both.2, String.toList_append]
    exact String.toList_ofList
  have split : pathParts (asText ⟨"", parts⟩) = parts := by
    have apart : ∀ part ∈ parts.map String.toList, '/' ∉ part := by
      intro part inside
      obtain ⟨text, there, rfl⟩ := List.mem_map.mp inside
      exact (plain text there).2.2
    rw [pathParts, letters, List.splitOn_intercalate '/' apart (List.map_eq_nil_iff.not.mpr some_), List.map_map]
    exact (List.map_congr_left fun _ _ => String.ofList_toList).trans (List.map_id _)
  have root : rootOf (asText ⟨"", parts⟩).toList = "" := by
    rw [letters]
    cases parts with
    | nil => exact absurd rfl some_
    | cons part rest =>
        obtain ⟨nonempty, _, apart⟩ := plain part List.mem_cons_self
        cases first : part.toList with
        | nil => exact absurd (String.toList_inj.mp first) nonempty
        | cons letter others =>
            have other : letter ≠ '/' := fun same => apart (by rw [first, same]; exact List.mem_cons_self)
            cases rest with
            | nil =>
                rw [List.map_cons, first]
                exact rootOf_of_ne other _
            | cons next rest =>
                rw [List.map_cons, first]
                exact rootOf_of_ne other _
  have kept : parts.filter (fun part => part ≠ "" ∧ part ≠ ".") = parts :=
    List.filter_eq_self.mpr fun part inside => decide_eq_true ⟨(plain part inside).1, (plain part inside).2.1⟩
  rw [ofText, root, split, kept]

theorem ofText_name {text : String} (named : IsName text) : ofText text = ⟨"", [text]⟩ := by
  have part : IsPart text := ⟨named.nonempty, named.dot, named.plain⟩
  have read := ofText_asText (List.cons_ne_nil text []) (by simpa using part)
  have same : asText ⟨"", [text]⟩ = text := by
    rw [asText, if_neg fun both => List.cons_ne_nil _ _ both.2]
    simp
  rwa [same] at read

theorem join_of_relative {other : PurePath} (relative : other.root = "") (path : PurePath) :
    path.join other = ⟨path.root, path.parts ++ other.parts⟩ := if_pos relative

theorem join_part (path : PurePath) (part : String) :
    path.join ⟨"", [part]⟩ = ⟨path.root, path.parts ++ [part]⟩ := join_of_relative rfl path

@[simp] theorem parent_snoc (root : String) (parts : List String) (part : String) :
    parent ⟨root, parts ++ [part]⟩ = ⟨root, parts⟩ := by
  rw [parent, List.dropLast_concat]

@[simp] theorem name_snoc (root : String) (parts : List String) (part : String) : name ⟨root, parts ++ [part]⟩ = part := by
  rw [name, List.getLast?_concat]
  rfl

theorem eq_of_parent {path above : PurePath} (below : path.parent = above) (some_ : above.parts ≠ []) :
    path = ⟨above.root, above.parts ++ [path.name]⟩ := by
  subst below
  have nonempty : path.parts ≠ [] := by
    intro none_
    rw [parent, none_] at some_
    exact some_ rfl
  obtain ⟨front, last, split⟩ := List.eq_nil_or_concat path.parts |>.resolve_left nonempty
  obtain ⟨root, parts⟩ := path
  obtain rfl : parts = front ++ [last] := split.trans List.concat_eq_append
  rw [parent_snoc, name_snoc]

end PurePath

end PurePaths

end Foundation
