import Sico.Foundation.Base64
import Sico.Foundation.Orders
import Sico.Foundation.Traversal
import Sico.TaskRuntime.ToolController

/-! # Browsing the capabilities in pages

A page tells the capabilities from an offset on, in the order of their identifiers, and a cursor for the page
behind it: the offset as a numeral, in Base64 without its padding. A caller that follows the cursors to the empty
one, with whatever sizes it asks for, has seen each authorized capability once.
-/

namespace Sico.TaskRuntime.ToolController

open Foundation AgentLoop

section Cursors

def encodeCursor (offset : ℕ) : String :=
  String.ofList (Base64.unpadded (Base64.encode ((toString offset).toList.map Char.toNat)))

/-- The characters around a numeral that `int` takes off, of an ASCII text. -/
def isNumeralBlank (char : Char) : Bool := char = ' ' || ('\t' ≤ char && char ≤ '\r')

/-- Digits, with single underscores between them. -/
def readDigits (text : List Char) : Option ℕ :=
  let groups := text.splitOn '_'
  if groups.all fun group => group ≠ [] ∧ group.all Char.isDigit then some (Nat.ofDigitChars 10 groups.flatten 0)
  else none

/-- `int` of an ASCII text. -/
def readInt (text : List Char) : Option ℤ :=
  match (text.dropWhile isNumeralBlank).rdropWhile isNumeralBlank with
  | '-' :: digits => (readDigits digits).map fun number => -(number : ℤ)
  | '+' :: digits => (readDigits digits).map Int.ofNat
  | digits => (readDigits digits).map Int.ofNat

/-- `_decode_cursor`, with nothing where it raises. -/
def decodeCursor (cursor : String) : Option ℤ :=
  if cursor = "" then some 0
  else
    (Base64.decode (Base64.padded cursor.toList)).bind fun bytes =>
      if bytes.all (· < 128) then readInt (bytes.map Char.ofNat) else none

end Cursors

section Browsing

/-- What a call that browses tells. -/
structure BrowsePage where
  capabilities : List CapabilityDescriptor
  total : ℕ
  nextCursor : String
  revision : ℕ

def BrowsePage.payload (page : BrowsePage) : Json :=
  .obj
    [("action", .str "browse"), ("capabilities", .arr (page.capabilities.map compactPayload)),
      ("total", .int page.total), ("next_cursor", .str page.nextCursor), ("toolset_revision", .int page.revision)]

def pageAt (descriptors : List CapabilityDescriptor) (offset size revision : ℕ) : BrowsePage :=
  let page := (descriptors.drop offset).take size
  let nextOffset := offset + page.length
  { capabilities := page
    total := descriptors.length
    nextCursor := if nextOffset < descriptors.length then encodeCursor nextOffset else ""
    revision }

/-- `_browse`, under the revision of the tools that it sees. -/
def browse (repr : String → String) (ceiling : CapabilityCeiling)
    (catalogue : CatalogueQuery → List CapabilityDescriptor) (call : Discovery) (revision : ℕ) :
    Except String BrowsePage := do
  let (providers, selectors) ← filters repr call
  match decodeCursor call.cursor with
  | none => .error "page_size or cursor is invalid."
  | some offset => do
      refuseIf (offset < 0) "cursor must not be negative."
      let descriptors ← authorizedDescriptors repr ceiling
        (catalogue { providers, selectors, includeInternal := true })
      return pageAt (byID descriptors) offset.toNat (clamped maxBrowsePageSize 20 call.pageSize) revision

/-- What a caller asks for in a round, and the tools at that time. -/
structure Round where
  pageSize : Option ℤ
  revision : ℕ

/-- The pages that a caller gets by following the cursors to the empty one, in no more rounds than given. -/
def followCursors (repr : String → String) (ceiling : CapabilityCeiling)
    (catalogue : CatalogueQuery → List CapabilityDescriptor) (call : Discovery) (rounds : ℕ → Round) :
    ℕ → ℕ → String → Option (List BrowsePage)
  | 0, _, _ => none
  | fuel + 1, index, cursor =>
      match browse repr ceiling catalogue { call with pageSize := (rounds index).pageSize, cursor }
          (rounds index).revision with
      | .error _ => none
      | .ok page =>
          if page.nextCursor = "" then some [page]
          else
            (followCursors repr ceiling catalogue call rounds fuel (index + 1) page.nextCursor).map
              fun later => page :: later

end Browsing

section Decoding

theorem readDigits_of_isDigit {text : List Char} (some_ : text ≠ []) (digits : ∀ char ∈ text, char.isDigit) :
    readDigits text = some (Nat.ofDigitChars 10 text 0) := by
  have single : text.splitOn '_' = [text] := by
    apply List.splitOn_eq_singleton
    intro listed
    cases digits '_' listed
  have each : text.all Char.isDigit = true := List.all_eq_true.mpr digits
  rw [readDigits, single]
  simp only [List.all_cons, List.all_nil, Bool.and_true, List.flatten_cons, List.flatten_nil, List.append_nil]
  rw [if_pos (decide_eq_true ⟨some_, each⟩)]

theorem isNumeralBlank_of_isDigit {char : Char} (digit : char.isDigit) : isNumeralBlank char = false := by
  have low : 48 ≤ char.toNat := by
    rw [Char.isDigit, Bool.and_eq_true, decide_eq_true_iff, ge_iff_le, UInt32.le_iff_toNat_le] at digit
    exact digit.1
  rw [isNumeralBlank, Bool.or_eq_false_iff, Bool.and_eq_false_iff]
  refine ⟨decide_eq_false ?_, .inr (decide_eq_false ?_)⟩
  · rintro rfl
    exact absurd low (by decide)
  · intro below
    have high : char.toNat ≤ 13 := by
      rw [Char.le_def, UInt32.le_iff_toNat_le] at below
      exact below
    omega

theorem readInt_toString (number : ℕ) : readInt (toString number).toList = some (number : ℤ) := by
  have letters : (toString number).toList = Nat.toDigits 10 number := by rw [Nat.toString_eq_repr, Nat.toList_repr]
  have digits : ∀ char ∈ Nat.toDigits 10 number, char.isDigit := fun char listed =>
    Nat.isDigit_of_mem_toDigits (by decide) (by decide) listed
  have some_ : Nat.toDigits 10 number ≠ [] := Nat.toDigits_ne_nil
  have front : (Nat.toDigits 10 number).dropWhile isNumeralBlank = Nat.toDigits 10 number := by
    cases same : Nat.toDigits 10 number with
    | nil => rfl
    | cons head rest =>
        rw [List.dropWhile_cons_of_neg]
        rw [isNumeralBlank_of_isDigit (digits head (same ▸ List.mem_cons_self))]
        exact Bool.false_ne_true
  have back : (Nat.toDigits 10 number).rdropWhile isNumeralBlank = Nat.toDigits 10 number := by
    rw [List.rdropWhile_eq_self_iff]
    intro inhabited
    rw [isNumeralBlank_of_isDigit (digits _ (List.getLast_mem inhabited))]
    exact Bool.false_ne_true
  have value : readDigits (Nat.toDigits 10 number) = some number := by
    rw [readDigits_of_isDigit some_ digits, Nat.ofDigitChars_ten_toDigits]
  rw [readInt, letters, front, back]
  split
  · next rest same =>
      cases digits '-' (same ▸ List.mem_cons_self)
  · next rest same =>
      cases digits '+' (same ▸ List.mem_cons_self)
  · rw [value]
    rfl

theorem isAscii_of_mem_toString {number byte : ℕ} (listed : byte ∈ (toString number).toList.map Char.toNat) :
    byte < 128 := by
  obtain ⟨char, inside, rfl⟩ := List.mem_map.mp listed
  rw [Nat.toString_eq_repr, Nat.toList_repr] at inside
  have digit := Nat.isDigit_of_mem_toDigits (by decide) (by decide) inside
  rw [Char.isDigit, Bool.and_eq_true, decide_eq_true_iff, decide_eq_true_iff, UInt32.le_iff_toNat_le] at digit
  have high : char.toNat ≤ 57 := digit.2
  omega

theorem decode_encode (offset : ℕ) : decodeCursor (encodeCursor offset) = some (offset : ℤ) := by
  have bytes : ∀ byte ∈ (toString offset).toList.map Char.toNat, byte < 256 := fun byte listed =>
    (isAscii_of_mem_toString listed).trans (by decide)
  have read := Base64.decode_padded_unpadded bytes
  have some_ : encodeCursor offset ≠ "" := by
    intro none_
    have empty : Base64.unpadded (Base64.encode ((toString offset).toList.map Char.toNat)) = [] := by
      have letters := congrArg String.toList none_
      rwa [encodeCursor, String.toList_ofList] at letters
    rw [empty] at read
    have nothing : (toString offset).toList.map Char.toNat = [] := (Option.some.inj read).symm
    rw [List.map_eq_nil_iff, Nat.toString_eq_repr, Nat.toList_repr] at nothing
    exact Nat.toDigits_ne_nil nothing
  rw [decodeCursor, if_neg some_, encodeCursor, String.toList_ofList, read, Option.bind_some,
    if_pos (List.all_eq_true.mpr fun byte listed => decide_eq_true (isAscii_of_mem_toString listed)), List.map_map]
  have back : (toString offset).toList.map (Char.ofNat ∘ Char.toNat) = (toString offset).toList :=
    (List.map_congr_left fun char _ => Char.ofNat_toNat char).trans (List.map_id _)
  rw [back, readInt_toString]

theorem eq_zero_of_encodeCursor {offset : ℕ} (none_ : encodeCursor offset = "") : offset = 0 := by
  have read := decode_encode offset
  rw [none_] at read
  exact (Int.ofNat.inj (Option.some.inj read)).symm

end Decoding

section Authorized

variable {repr : String → String} {ceiling : CapabilityCeiling}

theorem authorizedDescriptors_eq {reply descriptors : List CapabilityDescriptor}
    (authorized : authorizedDescriptors repr ceiling reply = .ok descriptors) :
    descriptors = reply.filter fun descriptor =>
      descriptor.capabilityID ≠ capabilityDiscoverToolID ∧
        ceilingAllows repr ceiling descriptor.capabilityID = .ok true := by
  induction reply generalizing descriptors with
  | nil =>
      cases authorized
      rfl
  | cons first rest ih =>
      rw [authorizedDescriptors] at authorized
      split at authorized
      · next discovers =>
          rw [List.filter_cons_of_neg (by simp [discovers])]
          exact ih authorized
      · next other =>
          obtain ⟨allowed, asked, onward⟩ := bind_eq_ok.mp authorized
          obtain ⟨others, later, same⟩ := bind_eq_ok.mp onward
          cases same
          cases allowed with
          | false =>
              rw [List.filter_cons_of_neg (by simp [asked]), ← ih later]
              rfl
          | true =>
              rw [List.filter_cons_of_pos (by simp [asked, other]), ← ih later]
              rfl

theorem byID_perm (descriptors : List CapabilityDescriptor) : (byID descriptors).Perm descriptors :=
  List.mergeSort_perm _ _

theorem byID_increasing {descriptors : List CapabilityDescriptor}
    (distinct : (descriptors.map CapabilityDescriptor.capabilityID).Nodup) :
    (byID descriptors).Pairwise fun first second => first.capabilityID < second.capabilityID :=
  increasing_mergeSort _ distinct

end Authorized

section Following

variable {repr : String → String} {ceiling : CapabilityCeiling}
  {catalogue : CatalogueQuery → List CapabilityDescriptor} {call : Discovery} {providers selectors : List String}
  {descriptors : List CapabilityDescriptor}

theorem clamped_pos {most : ℕ} (some_ : 0 < most) (default : ℕ) (value : Option ℤ) :
    0 < clamped most default value := by
  rw [clamped]
  exact lt_min some_ (by omega)

theorem browse_eq (selected : filters repr call = .ok (providers, selectors))
    (authorized : authorizedDescriptors repr ceiling (catalogue { providers, selectors, includeInternal := true }) =
      .ok descriptors) {cursor : String} {offset : ℕ} (points : decodeCursor cursor = some (offset : ℤ))
    (pageSize : Option ℤ) (revision : ℕ) :
    browse repr ceiling catalogue { call with pageSize, cursor } revision =
      .ok (pageAt (byID descriptors) offset (clamped maxBrowsePageSize 20 pageSize) revision) := by
  have same : filters repr { call with pageSize, cursor } = .ok (providers, selectors) := selected
  have fits : ¬(offset : ℤ) < 0 := by omega
  rw [browse, same]
  dsimp only [bind, Except.bind]
  rw [points]
  dsimp only
  rw [refuseIf, if_neg fits, authorized]
  rfl

theorem followCursors_from (selected : filters repr call = .ok (providers, selectors))
    (authorized : authorizedDescriptors repr ceiling (catalogue { providers, selectors, includeInternal := true }) =
      .ok descriptors) (rounds : ℕ → Round) {remaining : ℕ} :
    ∀ {offset : ℕ} (_ : (byID descriptors).length - offset = remaining) (index : ℕ) {cursor : String}
      (_ : decodeCursor cursor = some (offset : ℤ)),
      ∃ pages, (∀ fuel, remaining < fuel →
          followCursors repr ceiling catalogue call rounds fuel index cursor = some pages) ∧
        pages.flatMap BrowsePage.capabilities = (byID descriptors).drop offset ∧
          ∀ page ∈ pages, page.total = (byID descriptors).length := by
  induction remaining using Nat.strong_induction_on with
  | h remaining ih =>
      intro offset left index cursor points
      have size := clamped_pos (by decide : 0 < maxBrowsePageSize) 20 (rounds index).pageSize
      have answered := browse_eq selected authorized points (rounds index).pageSize (rounds index).revision
      generalize count : clamped maxBrowsePageSize 20 (rounds index).pageSize = pageSize at size answered
      generalize told : pageAt (byID descriptors) offset pageSize (rounds index).revision = page at answered
      have capabilities : page.capabilities = ((byID descriptors).drop offset).take pageSize := by rw [← told]; rfl
      have total : page.total = (byID descriptors).length := by rw [← told]; rfl
      have cursors : page.nextCursor =
          if offset + page.capabilities.length < (byID descriptors).length then
            encodeCursor (offset + page.capabilities.length)
          else "" := by
        rw [← told]
        rfl
      have length : page.capabilities.length = min pageSize ((byID descriptors).length - offset) := by
        rw [capabilities, List.length_take, List.length_drop]
      by_cases more : offset + page.capabilities.length < (byID descriptors).length
      · rw [if_pos more] at cursors
        have further : page.nextCursor ≠ "" := by
          intro none_
          have zero := eq_zero_of_encodeCursor (cursors ▸ none_)
          omega
        obtain ⟨pages, followed, listed, totals⟩ := ih ((byID descriptors).length -
          (offset + page.capabilities.length)) (by omega) rfl (index + 1)
          (cursors ▸ decode_encode (offset + page.capabilities.length))
        refine ⟨page :: pages, ?_, ?_, ?_⟩
        · intro fuel enough
          cases fuel with
          | zero => omega
          | succ fuel =>
              rw [followCursors, answered]
              dsimp only
              rw [if_neg further, followed fuel (by omega)]
              rfl
        · have whole : page.capabilities.length = pageSize := by omega
          rw [List.flatMap_cons, listed, whole, capabilities, ← List.drop_drop, List.take_append_drop]
        · intro other given
          rcases List.mem_cons.mp given with rfl | behind
          · exact total
          · exact totals other behind
      · rw [if_neg more] at cursors
        refine ⟨[page], ?_, ?_, ?_⟩
        · intro fuel enough
          cases fuel with
          | zero => omega
          | succ fuel =>
              rw [followCursors, answered]
              dsimp only
              rw [if_pos cursors]
        · rw [List.flatMap_singleton, capabilities, List.take_of_length_le]
          rw [List.length_drop]
          omega
        · intro other given
          rw [List.mem_singleton.mp given]
          exact total

end Following

/-- **Browsing lists every capability exactly once.** The catalogue answers a query always with the same
capabilities, with distinct identifiers. Then following the cursors from the empty one comes to an end, whatever
sizes of pages are asked for, in no more rounds than there are authorized capabilities, and one; the pages
together are these capabilities in the order of their identifiers, and each page tells how many there are. The
cursor of every offset is decoded to it. -/
theorem browse_lists_once (repr : String → String) (ceiling : CapabilityCeiling)
    (catalogue : CatalogueQuery → List CapabilityDescriptor) (call : Discovery) (rounds : ℕ → Round)
    {providers selectors : List String} (selected : filters repr call = .ok (providers, selectors))
    (distinct : ((catalogue { providers, selectors, includeInternal := true }).map
      CapabilityDescriptor.capabilityID).Nodup)
    {descriptors : List CapabilityDescriptor}
    (authorized : authorizedDescriptors repr ceiling (catalogue { providers, selectors, includeInternal := true }) =
      .ok descriptors) :
    (∃ pages,
      (∀ fuel, descriptors.length < fuel →
        followCursors repr ceiling catalogue call rounds fuel 0 "" = some pages) ∧
      (pages.flatMap BrowsePage.capabilities).Perm
        ((catalogue { providers, selectors, includeInternal := true }).filter fun descriptor =>
          descriptor.capabilityID ≠ capabilityDiscoverToolID ∧
            ceilingAllows repr ceiling descriptor.capabilityID = .ok true) ∧
      (pages.flatMap BrowsePage.capabilities).Pairwise
        (fun first second => first.capabilityID < second.capabilityID) ∧
      ∀ page ∈ pages, page.total = (pages.flatMap BrowsePage.capabilities).length) ∧
    ∀ offset : ℕ, decodeCursor (encodeCursor offset) = some (offset : ℤ) := by
  refine ⟨?_, decode_encode⟩
  have start : decodeCursor "" = some ((0 : ℕ) : ℤ) := rfl
  obtain ⟨pages, followed, listed, totals⟩ := followCursors_from selected authorized rounds rfl 0 start
  rw [List.drop_zero] at listed
  have same := authorizedDescriptors_eq authorized
  have length : (byID descriptors).length = descriptors.length := (byID_perm descriptors).length_eq
  refine ⟨pages, ?_, ?_, ?_, ?_⟩
  · intro fuel enough
    exact followed fuel (by omega)
  · rw [listed, ← same]
    exact byID_perm descriptors
  · rw [listed]
    apply byID_increasing
    rw [same]
    exact distinct.sublist (List.filter_sublist.map _)
  · rw [listed]
    exact totals

/-- Three capabilities, which are listed in pages of two. -/
def sampleCatalogue : List CapabilityDescriptor :=
  [{ capabilityID := "b:x", parameterSchema := [] }, { capabilityID := "a:x", parameterSchema := [] },
    { capabilityID := "c:x", parameterSchema := [] }]

theorem browse_lists_once_sample :
    (∃ pages,
      (∀ fuel, 3 < fuel →
        followCursors id .all (fun _ => sampleCatalogue) {} (fun _ => ⟨some 2, 1⟩) fuel 0 "" = some pages) ∧
      (pages.flatMap BrowsePage.capabilities).Perm
        (sampleCatalogue.filter fun descriptor =>
          descriptor.capabilityID ≠ capabilityDiscoverToolID ∧
            ceilingAllows id .all descriptor.capabilityID = .ok true) ∧
      (pages.flatMap BrowsePage.capabilities).Pairwise
        (fun first second => first.capabilityID < second.capabilityID) ∧
      ∀ page ∈ pages, page.total = (pages.flatMap BrowsePage.capabilities).length) ∧
    ∀ offset : ℕ, decodeCursor (encodeCursor offset) = some (offset : ℤ) :=
  browse_lists_once id .all (fun _ => sampleCatalogue) {} (fun _ => ⟨some 2, 1⟩) rfl (by decide) rfl

end Sico.TaskRuntime.ToolController
