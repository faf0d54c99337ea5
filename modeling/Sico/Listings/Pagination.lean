import Mathlib.Algebra.Group.Int.Defs
import Mathlib.Algebra.Group.Nat.Defs
import Mathlib.Data.List.Dedup
import Mathlib.Data.List.Infix
import Mathlib.Data.Prod.Lex
import Sico.Foundation.Orders
import Sico.Foundation.Pages

/-! # Organizations and messages in pages

The numbers of a request have 32 bits. Where the start of a page is computed with them, the product of the page
and the size is cut to 32 bits, and it may come out negative: a slice from there panics, and a query leaves the
offset out. Where it is computed with 64 bits nothing is lost.
-/

namespace Sico.Listings

open Foundation Foundation.Pages

section Numbers

/-- A number that is not positive is replaced. -/
def orDefault (value default : Int32) : Int32 := if value ≤ 0 then default else value

/-- `int((page - 1) * pageSize)`. -/
def offset (page pageSize : Int32) : ℤ := ((page - 1) * pageSize).toInt

/-- The number of the page that a request asks for, from zero. -/
def pageIndex (page : Int32) : ℕ := ((orDefault page 1).toInt - 1).toNat

/-- The size of the pages that a request asks for. -/
def pageCount (pageSize : Int32) : ℕ := (orDefault pageSize 10).toInt.toNat

theorem orDefault_pos {value default : Int32} (positive : 0 < default.toInt) : 0 < (orDefault value default).toInt := by
  unfold orDefault
  split
  · exact positive
  · rename_i above
    rw [Int32.le_iff_toInt_le, Int32.toInt_zero] at above
    omega

theorem toInt_orDefault_page (page : Int32) : (orDefault page 1).toInt = pageIndex page + 1 := by
  have positive := @orDefault_pos page 1 (by decide)
  rw [pageIndex]
  omega

theorem toInt_orDefault_pageSize (pageSize : Int32) : (orDefault pageSize 10).toInt = pageCount pageSize := by
  have positive := @orDefault_pos pageSize 10 (by decide)
  rw [pageCount]
  omega

theorem pageCount_pos (pageSize : Int32) : 0 < pageCount pageSize := by
  have positive := @orDefault_pos pageSize 10 (by decide)
  rw [pageCount]
  omega

theorem offset_eq (page pageSize : Int32) :
    offset (orDefault page 1) (orDefault pageSize 10) =
      ((pageIndex page * pageCount pageSize : ℕ) : ℤ).bmod (2 ^ 32) := by
  have one : (1 : Int32).toInt = 1 := by decide
  rw [offset, Int32.toInt_mul, Int32.toInt_sub, Int.bmod_mul_bmod, one, toInt_orDefault_page, toInt_orDefault_pageSize,
    Int.add_sub_cancel, Int.natCast_mul]

/-- The pages whose start fits into 32 bits, or leaves a start that is behind the list as well. -/
def Fits (page pageSize : Int32) (total : ℕ) : Prop :=
  pageIndex page * pageCount pageSize < 2 ^ 31 ∨
    (total : ℤ) ≤ ((pageIndex page * pageCount pageSize : ℕ) : ℤ).bmod (2 ^ 32)

theorem bmod_of_lt {start : ℕ} (small : start < 2 ^ 31) : (start : ℤ).bmod (2 ^ 32) = start :=
  Int.bmod_eq_of_le (by omega) (by omega)

theorem bmod_lt (start : ℕ) : (start : ℤ).bmod (2 ^ 32) < 2 ^ 31 := by
  have below := @Int.bmod_lt start (2 ^ 32) (by decide)
  omega

theorem min_toNat_eq_iff {page pageSize : Int32} {total : ℕ}
    (forward : 0 ≤ offset (orDefault page 1) (orDefault pageSize 10)) :
    min (offset (orDefault page 1) (orDefault pageSize 10)).toNat total =
        min (pageIndex page * pageCount pageSize) total ↔ Fits page pageSize total := by
  unfold Fits
  rw [offset_eq] at forward ⊢
  generalize pageIndex page * pageCount pageSize = start at forward ⊢
  by_cases small : start < 2 ^ 31
  · rw [bmod_of_lt small, Int.toNat_natCast]
    exact ⟨fun _ => .inl small, fun _ => rfl⟩
  · have below := bmod_lt start
    generalize (start : ℤ).bmod (2 ^ 32) = left at forward below ⊢
    omega

theorem not_fits_of_neg {page pageSize : Int32} {total : ℕ}
    (negative : offset (orDefault page 1) (orDefault pageSize 10) < 0) : ¬ Fits page pageSize total := by
  intro fits
  rw [offset_eq] at negative
  rcases fits with small | behind
  · rw [bmod_of_lt small] at negative
    omega
  · omega

end Numbers

section Slices

variable {Row Item : Type} {rows : List Row}

/-- `rows[start:stop]`, where `stop` is not past the end. -/
def slice (rows : List Row) (start stop : ℤ) : Option (List Row) :=
  if 0 ≤ start ∧ start ≤ stop then some (window rows start.toNat (stop - start).toNat) else none

/-- The rows from a start on, where the start and the end are cut at the end of the list, and whether any row is left
behind them. -/
def sliced (rows : List Row) (start size : ℤ) : Option (List Row × Bool) :=
  let total : ℤ := rows.length
  let start := min start total
  let stop := min (start + size) total
  (slice rows start stop).map fun paged => (paged, decide (stop < total))

theorem sliced_of_nonneg {start : ℤ} (forward : 0 ≤ start) (size : ℕ) :
    sliced rows start size =
      some (window rows start.toNat size, decide (start.toNat + size < rows.length)) := by
  have more : min (min start rows.length + size) rows.length < (rows.length : ℤ) ↔
      start.toNat + size < rows.length := by omega
  rw [sliced, slice, if_pos (by omega), Option.map_some, decide_eq_decide.mpr more]
  congr 2
  by_cases inside : start < rows.length
  · rw [min_eq_left (Int.le_of_lt inside), window, window, List.take_eq_take_iff, List.length_drop]
    omega
  · rw [window_of_le (by omega), window_of_le (by omega)]

theorem sliced_of_neg {start : ℤ} (negative : start < 0) (size : ℤ) : sliced rows start size = none := by
  rw [sliced, slice, if_neg (by omega), Option.map_none]

end Slices

section Queries

/-- What a query of the database finds under an offset and a limit. A negative offset is left out of the query. -/
structure Gorm where
  find {Row : Type} : List Row → ℤ → ℤ → List Row
  find_of_nonneg {Row : Type} (rows : List Row) {offset limit : ℤ} (forward : 0 ≤ offset) (bounded : 0 ≤ limit) :
    find rows offset limit = window rows offset.toNat limit.toNat
  find_of_neg {Row : Type} (rows : List Row) {offset limit : ℤ} (negative : offset < 0) (bounded : 0 ≤ limit) :
    find rows offset limit = window rows 0 limit.toNat

/-- The offset is in the query only where it is positive. -/
def mysql : Gorm where
  find rows offset limit := (rows.drop offset.toNat).take limit.toNat
  find_of_nonneg _ _ _ _ _ := rfl
  find_of_neg rows _ limit negative _ := by rw [Int.toNat_of_nonpos (Int.le_of_lt negative)]; rfl

theorem Gorm.find_eq (gorm : Gorm) {Row : Type} (rows : List Row) (offset : ℤ) (size : ℕ) :
    gorm.find rows offset size = window rows offset.toNat size := by
  rcases Int.lt_or_le offset 0 with negative | forward
  · rw [gorm.find_of_neg rows negative (Int.natCast_nonneg size), Int.toNat_natCast,
      Int.toNat_of_nonpos (Int.le_of_lt negative)]
  · rw [gorm.find_of_nonneg rows forward (Int.natCast_nonneg size), Int.toNat_natCast]

theorem min_query_eq_iff {page pageSize : Int32} {total : ℕ} :
    min (offset (orDefault page 1) (orDefault pageSize 10)).toNat total =
        min (pageIndex page * pageCount pageSize) total ↔ total = 0 ∨ Fits page pageSize total := by
  rcases Int.lt_or_le (offset (orDefault page 1) (orDefault pageSize 10)) 0 with negative | forward
  · have unfit := @not_fits_of_neg page pageSize total negative
    have far : 2 ^ 31 ≤ pageIndex page * pageCount pageSize := by
      by_contra near
      exact unfit (.inl (by omega))
    have least := Int.toNat_of_nonpos (Int.le_of_lt negative)
    rw [least, or_iff_left unfit]
    omega
  · rw [min_toNat_eq_iff forward]
    constructor
    · exact .inr
    · rintro (rfl | fits)
      · by_cases small : pageIndex page * pageCount pageSize < 2 ^ 31
        · exact .inl small
        · refine .inr ?_
          rw [← offset_eq]
          exact forward
      · exact fits

end Queries

section Organizations

structure OrganizationModel where
  id : ℤ
  name : String
  description : String
  iconURI : String
  creatorUsername : String
  createdAt : ℤ
  updatedAt : ℤ
  deriving DecidableEq, Repr

/-- An organization as it is shown. -/
structure Organization where
  id : ℤ
  name : String
  description : String
  createdAt : ℤ
  updatedAt : ℤ
  creatorUsername : String
  roleCodes : List String
  isOwner : Bool
  iconSasURL : String
  deriving DecidableEq, Repr

structure OrganizationMembership where
  organizationID : ℤ
  roleCodes : List String
  deriving DecidableEq, Repr

inductive Response
  | refused (message : String)
  /-- The bounds of a slice are out of range. -/
  | panicked
  | success (organizations : List Organization) (total : Int32) (hasNext : Bool)
  deriving DecidableEq, Repr

def Response.page : Response → Option (List Organization × Bool)
  | .success organizations _ hasNext => some (organizations, hasNext)
  | _ => none

variable (pathToURL : String → Option String)

def orgModelToDTO (model : OrganizationModel) : Organization where
  id := model.id
  name := model.name
  description := model.description
  createdAt := model.createdAt
  updatedAt := model.updatedAt
  creatorUsername := model.creatorUsername
  roleCodes := []
  isOwner := false
  iconSasURL := if model.iconURI = "" then "" else (pathToURL model.iconURI).getD ""

structure GetUserOrganizationListRequest where
  username : String
  roleCode : String
  page : Int32
  pageSize : Int32

/-- Of two organizations with one identifier, the map keeps the last. -/
def organizationByID (organizations : List OrganizationModel) (id : ℤ) : Option OrganizationModel :=
  organizations.reverse.find? (·.id = id)

def filterExistingOrganizationMemberships (memberships : List OrganizationMembership)
    (organizations : List OrganizationModel) : List OrganizationMembership :=
  memberships.filter fun membership => (organizationByID organizations membership.organizationID).isSome

def shown (username : String) (organizations : List OrganizationModel) (membership : OrganizationMembership) :
    Option Organization :=
  (organizationByID organizations membership.organizationID).map fun organization =>
    { orgModelToDTO pathToURL organization with
      roleCodes := membership.roleCodes
      isOwner := organization.creatorUsername = username }

/-- `memberships` is what the access control tells of a user, and `getByIDs` is what the repository finds. -/
def getUserOrganizationList (memberships : String → String → List OrganizationMembership)
    (getByIDs : List ℤ → List OrganizationModel) (request : GetUserOrganizationListRequest) : Response :=
  if request.username = "" then .refused "request and username are required"
  else
    let page := orDefault request.page 1
    let pageSize := orDefault request.pageSize 10
    let listed := memberships request.username request.roleCode
    let organizations := getByIDs (listed.map (·.organizationID))
    let existing := filterExistingOrganizationMemberships listed organizations
    (sliced existing (offset page pageSize) pageSize.toInt).elim .panicked fun (paged, hasNext) =>
      -- every membership that is left has an organization
      .success (paged.filterMap (shown pathToURL request.username organizations)) (Int32.ofNat existing.length) hasNext

structure ListOrganizationsRequest where
  name : String
  page : Int32
  pageSize : Int32

/-- The organizations that the name of a request leaves, the newest first. `like` is the comparison of the database. -/
def OrganizationDAO.rows (like : String → String → Bool) (stored : List OrganizationModel) (name : String) :
    List OrganizationModel :=
  (stored.filter fun organization => name = "" || like organization.name s!"%{name}%").mergeSort fun first second =>
    second.id ≤ first.id

def OrganizationDAO.list (gorm : Gorm) (like : String → String → Bool) (stored : List OrganizationModel) (name : String)
    (page pageSize : Int32) : List OrganizationModel × ℕ :=
  let rows := OrganizationDAO.rows like stored name
  let page := orDefault page 1
  let pageSize := orDefault pageSize 10
  (gorm.find rows (offset page pageSize) pageSize.toInt, rows.length)

/-- What is left is told by the numbers of the request, which were not replaced. -/
def listOrganizations (gorm : Gorm) (like : String → String → Bool) (stored : List OrganizationModel)
    (request : ListOrganizationsRequest) : Response :=
  let found := OrganizationDAO.list gorm like stored request.name request.page request.pageSize
  .success (found.1.map (orgModelToDTO pathToURL)) (Int32.ofNat found.2)
    (decide ((request.page * request.pageSize).toInt < found.2))

inductive Visibility
  | platformAdmin
  | organizations (ids : List ℤ)

/-- The organizations that the name of a request leaves, the newest first. -/
def filtered (lower trimSpace : String → String) (organizations : List OrganizationModel) (name : String) :
    List OrganizationModel :=
  let nameFilter := lower (trimSpace name)
  (organizations.filter fun organization =>
      nameFilter = "" || decide (nameFilter.toList <:+: (lower organization.name).toList)).mergeSort fun first second =>
    second.id ≤ first.id

/-- A page of organizations. The numbers have 64 bits here, which hold the product of two numbers of 32 bits. -/
def pageOfOrganizations (filtered : List OrganizationModel) (request : ListOrganizationsRequest) : Response :=
  let page : ℤ := if request.page.toInt ≤ 0 then 1 else request.page.toInt
  let pageSize : ℤ := if request.pageSize.toInt ≤ 0 then 10 else request.pageSize.toInt
  (sliced filtered ((page - 1) * pageSize) pageSize).elim .panicked fun (paged, hasNext) =>
    .success (paged.map (orgModelToDTO pathToURL)) (Int32.ofNat filtered.length) hasNext

def listVisibleOrganizations (gorm : Gorm) (like : String → String → Bool) (lower trimSpace : String → String)
    (stored : List OrganizationModel) (getByIDs : List ℤ → List OrganizationModel) (visibility : Visibility)
    (request : ListOrganizationsRequest) : Response :=
  match visibility with
  | .platformAdmin => listOrganizations pathToURL gorm like stored request
  | .organizations ids => pageOfOrganizations pathToURL (filtered lower trimSpace (getByIDs ids) request.name) request

end Organizations

section Messages

structure Message where
  id : ℤ
  username : String
  conversationID : ℤ
  agentInstanceID : ℤ
  turnID : ℤ
  role : String
  contentType : Int32
  content : String
  deriving DecidableEq, Repr

structure MessageFilter where
  username : Option String := none
  conversationID : Option ℤ := none
  agentInstanceID : Option ℤ := none
  turnID : Option ℤ := none
  role : Option String := none
  contentTypeList : List Int32 := []
  idDescending : Bool := false
  usePagination : Bool := false
  page : Int32 := 0
  pageSize : Int32 := 0

/-- An order by several columns, each descending. -/
def descending : List (Message → ℤ) → Message → Message → Bool
  | [], _, _ => true
  | column :: columns, first, second =>
      column second < column first || (column first = column second && descending columns first second)

def MessageFilter.keeps (filter : MessageFilter) (message : Message) : Bool :=
  filter.username.all (message.username = ·) && filter.conversationID.all (message.conversationID = ·) &&
    filter.agentInstanceID.all (message.agentInstanceID = ·) && filter.turnID.all (message.turnID = ·) &&
    filter.role.all (message.role = ·) && (filter.contentTypeList.isEmpty || message.contentType ∈ filter.contentTypeList)

/-- The messages that a filter keeps, in the order of the query. -/
def MessageFilter.rows (filter : MessageFilter) (stored : List Message) : List Message :=
  (stored.filter filter.keeps).mergeSort
    (descending ((if filter.idDescending then [Message.id] else []) ++ [Message.turnID, Message.id]))

def listByFilter (gorm : Gorm) (stored : List Message) (filter : MessageFilter) : List Message × Bool :=
  if filter.usePagination then
    let page := if filter.page < 1 then 1 else filter.page
    let pageSize := if filter.pageSize < 1 then 10 else filter.pageSize
    let found := gorm.find (filter.rows stored) (offset page pageSize) (pageSize.toInt + 1)
    if pageSize.toInt < found.length then (found.take pageSize.toInt.toNat, true) else (found, false)
  else (filter.rows stored, false)

/-- The turns of a conversation, each once and the newest first. -/
def conversationTurns (stored : List Message) (conversationID : ℤ) : List ℤ :=
  ((stored.filter (·.conversationID = conversationID)).map (·.turnID)).dedup.mergeSort fun first second =>
    second ≤ first

/-- The messages of some turns of a conversation, the newest first. -/
def turnMessages (stored : List Message) (conversationID : ℤ) (turnIDs : List ℤ) : List Message :=
  (stored.filter fun message => message.conversationID = conversationID && message.turnID ∈ turnIDs).mergeSort
    (descending [Message.turnID, Message.id])

def listByConversationPage (gorm : Gorm) (stored : List Message) (conversationID : ℤ) (page pageSize : Int32) :
    List Message × Bool :=
  if conversationID = 0 then ([], false)
  else
    let page := if page < 1 then 1 else page
    let pageSize := if pageSize < 1 then 10 else pageSize
    let found := gorm.find (conversationTurns stored conversationID) (offset page pageSize) (pageSize.toInt + 1)
    if found = [] then ([], false)
    else if pageSize.toInt < found.length then
      (turnMessages stored conversationID (found.take pageSize.toInt.toNat), true)
    else (turnMessages stored conversationID found, false)

end Messages

section Exactness

variable {pathToURL : String → Option String}

theorem id_tells {Row : Type} {rows : List Row} (front back : List Row) (_ : ∀ row ∈ front, row ∈ rows)
    (_ : ∀ row ∈ back, row ∈ rows) (same : id front = id back) (row : Row) (listed : row ∈ front) : row ∈ back :=
  (show front = back from same) ▸ listed

theorem toInt_ofNat_succ {index : ℕ} (small : index + 1 < 2 ^ 31) : (Int32.ofNat (index + 1)).toInt = (index + 1 : ℕ) :=
  Int32.toInt_ofNat_of_lt small

theorem pageIndex_ofNat {index : ℕ} (small : index + 1 < 2 ^ 31) : pageIndex (Int32.ofNat (index + 1)) = index := by
  have number := toInt_ofNat_succ small
  have above : ¬ Int32.ofNat (index + 1) ≤ 0 := by
    rw [Int32.le_iff_toInt_le, number, Int32.toInt_zero]
    omega
  rw [pageIndex, orDefault, if_neg above, number]
  omega

theorem fits_of_reached {index total : ℕ} {pageSize : Int32} (few : total < 2 ^ 31)
    (reached : index = 0 ∨ index * pageCount pageSize < total) :
    index + 1 < 2 ^ 31 ∧ Fits (Int32.ofNat (index + 1)) pageSize total := by
  have filled := pageCount_pos pageSize
  have grows : index ≤ index * pageCount pageSize := Nat.le_mul_of_pos_right index filled
  have small : index + 1 < 2 ^ 31 := by
    rcases reached with rfl | inside
    · decide
    · omega
  refine ⟨small, .inl ?_⟩
  rw [pageIndex_ofNat small]
  rcases reached with rfl | inside
  · omega
  · omega

theorem readFrom_pages {Row Item : Type} {rows : List Row} {items : List Row → List Item}
    (fetch : Int32 → Option (List Item × Bool)) (pageSize : Int32) (few : rows.length < 2 ^ 31)
    (joins : ∀ front back, front ++ back <:+ rows → items (front ++ back) = items front ++ items back)
    (pages : ∀ page, 0 < page → Fits page pageSize rows.length →
      (pageIndex page = 0 ∨ pageIndex page * pageCount pageSize < rows.length) →
      IsPage items rows (pageCount pageSize) (pageIndex page) (fetch page)) :
    readFrom (fun index => fetch (Int32.ofNat (index + 1))) (rows.length + 1) 0 = some (items rows) := by
  refine (readFrom_eq (pageCount_pos pageSize) joins ?_ (.inl rfl) (by omega)).trans ?_
  · intro index reached
    obtain ⟨small, fits⟩ := fits_of_reached few reached
    have positive : 0 < Int32.ofNat (index + 1) := by
      rw [Int32.lt_iff_toInt_lt, toInt_ofNat_succ small, Int32.toInt_zero]
      omega
    have same := pageIndex_ofNat small
    have page := pages (Int32.ofNat (index + 1)) positive fits (by rw [same]; exact reached)
    rw [same] at page
    exact page
  · rw [Nat.zero_mul, List.drop_zero]

theorem atLeast_eq_orDefault (value default : Int32) : (if value < 1 then default else value) = orDefault value default := by
  have one : (1 : Int32).toInt = 1 := by decide
  rw [orDefault]
  apply if_congr _ rfl rfl
  rw [Int32.lt_iff_toInt_lt, Int32.le_iff_toInt_le, one, Int32.toInt_zero]
  omega

end Exactness

section UserOrganizations

variable {pathToURL : String → Option String} {memberships : String → String → List OrganizationMembership}
  {getByIDs : List ℤ → List OrganizationModel} {request : GetUserOrganizationListRequest}

def existingMemberships (memberships : String → String → List OrganizationMembership)
    (getByIDs : List ℤ → List OrganizationModel) (request : GetUserOrganizationListRequest) : List OrganizationMembership :=
  let listed := memberships request.username request.roleCode
  filterExistingOrganizationMemberships listed (getByIDs (listed.map (·.organizationID)))

def shownOrganizations (pathToURL : String → Option String) (memberships : String → String → List OrganizationMembership)
    (getByIDs : List ℤ → List OrganizationModel) (request : GetUserOrganizationListRequest)
    (paged : List OrganizationMembership) : List Organization :=
  paged.filterMap (shown pathToURL request.username
    (getByIDs ((memberships request.username request.roleCode).map (·.organizationID))))

theorem id_of_shown {username : String} {organizations : List OrganizationModel} {membership : OrganizationMembership}
    {organization : Organization} (found : shown pathToURL username organizations membership = some organization) :
    organization.id = membership.organizationID := by
  obtain ⟨model, here, rfl⟩ := Option.map_eq_some_iff.mp found
  have named := List.find?_some here
  exact of_decide_eq_true named

theorem existingMemberships_nodup
    (distinct : ((memberships request.username request.roleCode).map (·.organizationID)).Nodup) :
    ((existingMemberships memberships getByIDs request).map (·.organizationID)).Nodup :=
  distinct.sublist (List.filter_sublist.map _)

theorem shownOrganizations_tells
    (distinct : ((memberships request.username request.roleCode).map (·.organizationID)).Nodup)
    (front back : List OrganizationMembership)
    (inFront : ∀ row ∈ front, row ∈ existingMemberships memberships getByIDs request)
    (inBack : ∀ row ∈ back, row ∈ existingMemberships memberships getByIDs request)
    (same : shownOrganizations pathToURL memberships getByIDs request front =
      shownOrganizations pathToURL memberships getByIDs request back)
    (row : OrganizationMembership) (listed : row ∈ front) : row ∈ back := by
  have exists_ := (List.mem_filter.mp (inFront row listed)).2
  obtain ⟨model, found⟩ := Option.isSome_iff_exists.mp exists_
  have isShown := congrArg (Option.map fun organization =>
    ({ orgModelToDTO pathToURL organization with
      roleCodes := row.roleCodes, isOwner := organization.creatorUsername = request.username } : Organization)) found
  have inShown : _ ∈ shownOrganizations pathToURL memberships getByIDs request front :=
    List.mem_filterMap.mpr ⟨row, listed, isShown⟩
  rw [same] at inShown
  obtain ⟨other, alsoListed, alsoShown⟩ := List.mem_filterMap.mp inShown
  have ids : row.organizationID = other.organizationID := (id_of_shown isShown).symm.trans (id_of_shown alsoShown)
  have equal : row = other := List.inj_on_of_nodup_map (existingMemberships_nodup distinct) (inFront row listed)
    (inBack other alsoListed) ids
  exact equal ▸ alsoListed

theorem getUserOrganizationList_page (named : request.username ≠ "") :
    (getUserOrganizationList pathToURL memberships getByIDs request).page =
      (sliced (existingMemberships memberships getByIDs request)
        (offset (orDefault request.page 1) (orDefault request.pageSize 10)) (pageCount request.pageSize)).map
        fun fetched => (shownOrganizations pathToURL memberships getByIDs request fetched.1, fetched.2) := by
  rw [getUserOrganizationList, if_neg named]
  dsimp only
  rw [toInt_orDefault_pageSize, existingMemberships]
  cases sliced (filterExistingOrganizationMemberships _ _) _ _ with
  | none => rfl
  | some fetched => rfl

theorem getUserOrganizationList_isPage_iff (named : request.username ≠ "")
    (distinct : ((memberships request.username request.roleCode).map (·.organizationID)).Nodup) :
    IsPage (shownOrganizations pathToURL memberships getByIDs request) (existingMemberships memberships getByIDs request)
        (pageCount request.pageSize) (pageIndex request.page)
        (getUserOrganizationList pathToURL memberships getByIDs request).page ↔
      Fits request.page request.pageSize (existingMemberships memberships getByIDs request).length := by
  rw [getUserOrganizationList_page named]
  rcases Int.lt_or_le (offset (orDefault request.page 1) (orDefault request.pageSize 10)) 0 with negative | forward
  · rw [sliced_of_neg negative]
    exact iff_of_false (fun page => nomatch page) (not_fits_of_neg negative)
  · rw [sliced_of_nonneg forward, Option.map_some, isPage_window_iff (existingMemberships_nodup distinct).of_map
      (pageCount_pos _) (shownOrganizations_tells distinct), min_toNat_eq_iff forward]

theorem getUserOrganizationList_read (named : request.username ≠ "")
    (distinct : ((memberships request.username request.roleCode).map (·.organizationID)).Nodup)
    (few : (existingMemberships memberships getByIDs request).length < 2 ^ 31) :
    readFrom (fun index => (getUserOrganizationList pathToURL memberships getByIDs
        { request with page := Int32.ofNat (index + 1) }).page)
        ((existingMemberships memberships getByIDs request).length + 1) 0 =
      some (shownOrganizations pathToURL memberships getByIDs request
        (existingMemberships memberships getByIDs request)) := by
  refine readFrom_pages (fun page => (getUserOrganizationList pathToURL memberships getByIDs
    { request with page }).page) request.pageSize few (fun _ _ _ => List.filterMap_append) ?_
  intro page _ fits _
  exact (@getUserOrganizationList_isPage_iff pathToURL memberships getByIDs { request with page } named distinct).mpr fits

end UserOrganizations

section VisibleOrganizations

variable {pathToURL : String → Option String} {gorm : Gorm} {like : String → String → Bool}
  {lower trimSpace : String → String} {stored : List OrganizationModel} {getByIDs : List ℤ → List OrganizationModel}
  {request : ListOrganizationsRequest}

theorem orgModelToDTO_tells {rows : List OrganizationModel} (distinct : (rows.map (·.id)).Nodup)
    (front back : List OrganizationModel) (inFront : ∀ row ∈ front, row ∈ rows) (inBack : ∀ row ∈ back, row ∈ rows)
    (same : front.map (orgModelToDTO pathToURL) = back.map (orgModelToDTO pathToURL))
    (row : OrganizationModel) (listed : row ∈ front) : row ∈ back := by
  have inShown := List.mem_map_of_mem (f := orgModelToDTO pathToURL) listed
  rw [same] at inShown
  obtain ⟨other, alsoListed, alike⟩ := List.mem_map.mp inShown
  have equal : other = row := List.inj_on_of_nodup_map distinct (inBack other alsoListed) (inFront row listed)
    (congrArg Organization.id alike)
  exact equal ▸ alsoListed

theorem toInt_page (page : Int32) : (if page.toInt ≤ 0 then 1 else page.toInt) = (pageIndex page + 1 : ℤ) := by
  have one : (1 : Int32).toInt = 1 := by decide
  rw [← toInt_orDefault_page, orDefault, apply_ite Int32.toInt, one]
  simp only [Int32.le_iff_toInt_le, Int32.toInt_zero]

theorem toInt_pageSize (pageSize : Int32) :
    (if pageSize.toInt ≤ 0 then 10 else pageSize.toInt) = (pageCount pageSize : ℤ) := by
  have ten : (10 : Int32).toInt = 10 := by decide
  rw [← toInt_orDefault_pageSize, orDefault, apply_ite Int32.toInt, ten]
  simp only [Int32.le_iff_toInt_le, Int32.toInt_zero]

theorem listVisibleOrganizations_page (ids : List ℤ) :
    (listVisibleOrganizations pathToURL gorm like lower trimSpace stored getByIDs (.organizations ids) request).page =
      (sliced (filtered lower trimSpace (getByIDs ids) request.name)
        (pageIndex request.page * pageCount request.pageSize : ℕ) (pageCount request.pageSize)).map
        fun fetched => (fetched.1.map (orgModelToDTO pathToURL), fetched.2) := by
  rw [listVisibleOrganizations]
  generalize filtered lower trimSpace (getByIDs ids) request.name = rows
  rw [pageOfOrganizations]
  dsimp only
  rw [toInt_page, toInt_pageSize, Int.add_sub_cancel, Int.natCast_mul]
  cases sliced rows _ _ with
  | none => rfl
  | some fetched => rfl

theorem listVisibleOrganizations_isPage (ids : List ℤ) :
    IsPage (List.map (orgModelToDTO pathToURL)) (filtered lower trimSpace (getByIDs ids) request.name)
      (pageCount request.pageSize) (pageIndex request.page)
      (listVisibleOrganizations pathToURL gorm like lower trimSpace stored getByIDs (.organizations ids) request).page := by
  rw [listVisibleOrganizations_page, sliced_of_nonneg (Int.natCast_nonneg _), Int.toNat_natCast, Option.map_some, IsPage,
    Nat.succ_mul]

/-- What is left behind the page is what the numbers of the request tell, which are multiplied with 32 bits and are
not replaced. -/
def Announces (page pageSize : Int32) (total : ℕ) : Prop :=
  (page.toInt * pageSize.toInt).bmod (2 ^ 32) < total ↔ (pageIndex page + 1) * pageCount pageSize < total

theorem listOrganizations_page :
    (listVisibleOrganizations pathToURL gorm like lower trimSpace stored getByIDs .platformAdmin request).page =
      let rows := OrganizationDAO.rows like stored request.name
      some ((window rows (offset (orDefault request.page 1) (orDefault request.pageSize 10)).toNat
          (pageCount request.pageSize)).map (orgModelToDTO pathToURL),
        decide ((request.page.toInt * request.pageSize.toInt).bmod (2 ^ 32) < rows.length)) := by
  rw [listVisibleOrganizations, listOrganizations, OrganizationDAO.list]
  dsimp only
  rw [toInt_orDefault_pageSize, gorm.find_eq, Int32.toInt_mul, Response.page]

theorem OrganizationDAO.rows_nodup (distinct : (stored.map (·.id)).Nodup) (name : String) :
    ((OrganizationDAO.rows like stored name).map (·.id)).Nodup := by
  refine ((List.mergeSort_perm _ _).map _).nodup_iff.mpr ?_
  exact distinct.sublist (List.filter_sublist.map _)

/-- What an administrator of the platform sees is the page that is asked for exactly where its start fits, or nothing is
listed, and the numbers of the request tell what is left. -/
theorem listOrganizations_isPage_iff (distinct : (stored.map (·.id)).Nodup) :
    IsPage (List.map (orgModelToDTO pathToURL)) (OrganizationDAO.rows like stored request.name)
        (pageCount request.pageSize) (pageIndex request.page)
        (listVisibleOrganizations pathToURL gorm like lower trimSpace stored getByIDs .platformAdmin request).page ↔
      ((OrganizationDAO.rows like stored request.name).length = 0 ∨
          Fits request.page request.pageSize (OrganizationDAO.rows like stored request.name).length) ∧
        Announces request.page request.pageSize (OrganizationDAO.rows like stored request.name).length := by
  have apart := @OrganizationDAO.rows_nodup like stored distinct request.name
  rw [listOrganizations_page]
  unfold IsPage
  dsimp only
  rw [Option.some.injEq, Prod.mk.injEq, items_window_eq_iff apart.of_map (pageCount_pos _) (orgModelToDTO_tells apart),
    min_query_eq_iff, decide_eq_decide, Announces]

theorem announces_of_reached {page pageSize : Int32} {total : ℕ} (later : 0 < page) (positive : 0 < pageSize)
    (few : total + pageCount pageSize ≤ 2 ^ 31)
    (reached : pageIndex page = 0 ∨ pageIndex page * pageCount pageSize < total) : Announces page pageSize total := by
  have number : page.toInt = (pageIndex page + 1 : ℕ) := by
    rw [Int.natCast_succ, ← toInt_orDefault_page, orDefault, if_neg (Int32.not_le.mpr later)]
  have size : pageSize.toInt = pageCount pageSize := by
    rw [← toInt_orDefault_pageSize, orDefault, if_neg (Int32.not_le.mpr positive)]
  have stop : (pageIndex page + 1) * pageCount pageSize = pageIndex page * pageCount pageSize + pageCount pageSize :=
    Nat.succ_mul _ _
  have whole : (pageIndex page + 1) * pageCount pageSize < 2 ^ 31 := by
    rcases reached with first | inside
    · have below := pageSize.toInt_lt
      rw [stop, first, Nat.zero_mul]
      omega
    · rw [stop]
      omega
  rw [Announces, number, size, ← Int.natCast_mul, bmod_of_lt whole, Int.ofNat_lt]

theorem listVisibleOrganizations_read (ids : List ℤ)
    (few : (filtered lower trimSpace (getByIDs ids) request.name).length < 2 ^ 31) :
    readFrom (fun index => (listVisibleOrganizations pathToURL gorm like lower trimSpace stored getByIDs (.organizations ids)
        { request with page := Int32.ofNat (index + 1) }).page)
        ((filtered lower trimSpace (getByIDs ids) request.name).length + 1) 0 =
      some ((filtered lower trimSpace (getByIDs ids) request.name).map (orgModelToDTO pathToURL)) := by
  refine readFrom_pages (fun page => (listVisibleOrganizations pathToURL gorm like lower trimSpace stored getByIDs
    (.organizations ids) { request with page }).page) request.pageSize few (fun _ _ _ => List.map_append) ?_
  intro page _ _ _
  exact @listVisibleOrganizations_isPage pathToURL gorm like lower trimSpace stored getByIDs { request with page } ids

theorem listOrganizations_read (distinct : (stored.map (·.id)).Nodup) (positive : 0 < request.pageSize)
    (few : (OrganizationDAO.rows like stored request.name).length + pageCount request.pageSize ≤ 2 ^ 31) :
    readFrom (fun index => (listVisibleOrganizations pathToURL gorm like lower trimSpace stored getByIDs .platformAdmin
        { request with page := Int32.ofNat (index + 1) }).page)
        ((OrganizationDAO.rows like stored request.name).length + 1) 0 =
      some ((OrganizationDAO.rows like stored request.name).map (orgModelToDTO pathToURL)) := by
  have filled := pageCount_pos request.pageSize
  refine readFrom_pages (fun page => (listVisibleOrganizations pathToURL gorm like lower trimSpace stored getByIDs
    .platformAdmin { request with page }).page) request.pageSize (by omega) (fun _ _ _ => List.map_append) ?_
  intro page later fits reached
  exact (@listOrganizations_isPage_iff pathToURL gorm like lower trimSpace stored getByIDs { request with page }
    distinct).mpr ⟨.inr fits, announces_of_reached later positive few reached⟩

end VisibleOrganizations

section MessagePages

variable {gorm : Gorm} {stored : List Message}

theorem MessageFilter.rows_nodup (filter : MessageFilter) (distinct : (stored.map (·.id)).Nodup) :
    (filter.rows stored).Nodup :=
  (List.mergeSort_perm _ _).nodup_iff.mpr (distinct.of_map.sublist List.filter_sublist)

theorem find_oneMore (gorm : Gorm) {Row : Type} (rows : List Row) (page pageSize : Int32) :
    let start := (offset (orDefault page 1) (orDefault pageSize 10)).toNat
    let found := gorm.find rows (offset (orDefault page 1) (orDefault pageSize 10)) ((orDefault pageSize 10).toInt + 1)
    found.take (orDefault pageSize 10).toInt.toNat = window rows start (pageCount pageSize) ∧
      ((orDefault pageSize 10).toInt < found.length ↔ start + pageCount pageSize < rows.length) := by
  intro start found
  have limit : (orDefault pageSize 10).toInt + 1 = (pageCount pageSize + 1 : ℕ) := by
    rw [toInt_orDefault_pageSize, Int.natCast_succ]
  have same : found = window rows start (pageCount pageSize + 1) := by
    rw [show found = gorm.find rows _ ((pageCount pageSize + 1 : ℕ) : ℤ) from congrArg _ limit, gorm.find_eq]
  rw [same, toInt_orDefault_pageSize, Int.toNat_natCast, Int.ofNat_lt]
  exact window_of_oneMore rows start (pageCount pageSize)

theorem oneMore_page (gorm : Gorm) {Row Item : Type} (rows : List Row) (items : List Row → List Item)
    (page pageSize : Int32) :
    let found := gorm.find rows (offset (orDefault page 1) (orDefault pageSize 10)) ((orDefault pageSize 10).toInt + 1)
    let start := (offset (orDefault page 1) (orDefault pageSize 10)).toNat
    (if (orDefault pageSize 10).toInt < found.length then (items (found.take (orDefault pageSize 10).toInt.toNat), true)
      else (items found, false)) =
      (items (window rows start (pageCount pageSize)), decide (start + pageCount pageSize < rows.length)) := by
  intro found start
  obtain ⟨taken, more⟩ := find_oneMore gorm rows page pageSize
  change found.take _ = _ at taken
  change _ < (found.length : ℤ) ↔ _ at more
  by_cases longer : (orDefault pageSize 10).toInt < found.length
  · rw [if_pos longer, taken, decide_eq_true (more.mp longer)]
  · have short : found.length ≤ (orDefault pageSize 10).toInt.toNat := by omega
    rw [if_neg longer, ← taken, List.take_of_length_le short, decide_eq_false (fun left => longer (more.mpr left))]

theorem listByFilter_eq (filter : MessageFilter) (paginated : filter.usePagination = true) :
    listByFilter gorm stored filter =
      (window (filter.rows stored) (offset (orDefault filter.page 1) (orDefault filter.pageSize 10)).toNat
          (pageCount filter.pageSize),
        decide ((offset (orDefault filter.page 1) (orDefault filter.pageSize 10)).toNat + pageCount filter.pageSize <
          (filter.rows stored).length)) := by
  rw [listByFilter, if_pos paginated, atLeast_eq_orDefault, atLeast_eq_orDefault]
  exact oneMore_page gorm (filter.rows stored) id filter.page filter.pageSize

theorem listByFilter_isPage_iff (filter : MessageFilter) (paginated : filter.usePagination = true)
    (distinct : (stored.map (·.id)).Nodup) :
    IsPage id (filter.rows stored) (pageCount filter.pageSize) (pageIndex filter.page)
        (some (listByFilter gorm stored filter)) ↔
      (filter.rows stored).length = 0 ∨ Fits filter.page filter.pageSize (filter.rows stored).length := by
  rw [listByFilter_eq filter paginated, ← min_query_eq_iff]
  exact isPage_window_iff (filter.rows_nodup distinct) (pageCount_pos _) id_tells

theorem listByFilter_read (filter : MessageFilter) (paginated : filter.usePagination = true)
    (distinct : (stored.map (·.id)).Nodup) (few : (filter.rows stored).length < 2 ^ 31) :
    readFrom (fun index => some (listByFilter gorm stored { filter with page := Int32.ofNat (index + 1) }))
        ((filter.rows stored).length + 1) 0 = some (filter.rows stored) := by
  refine readFrom_pages (fun page => some (listByFilter gorm stored { filter with page })) filter.pageSize few
    (fun _ _ _ => (rfl : id _ = id _ ++ id _)) ?_
  intro page _ fits _
  exact (@listByFilter_isPage_iff gorm stored { filter with page } paginated distinct).mpr (.inr fits)

end MessagePages

section TurnPages

variable {gorm : Gorm} {stored : List Message} {conversationID : ℤ}

def newest (message : Message) : ℤᵒᵈ ×ₗ ℤᵒᵈ := toLex (.toDual message.turnID, .toDual message.id)

theorem descending_eq :
    descending [Message.turnID, Message.id] = fun first second => decide (newest first ≤ newest second) := by
  funext first second
  rw [Bool.eq_iff_iff, decide_eq_true_iff, newest, newest, Prod.Lex.toLex_le_toLex]
  simp only [descending, Bool.or_eq_true, Bool.and_eq_true, decide_eq_true_iff, and_true, OrderDual.toDual_lt_toDual,
    OrderDual.toDual_le_toDual, OrderDual.toDual_inj, le_iff_lt_or_eq (a := second.id), eq_comm (a := second.id)]

theorem turnMessages_increasing (distinct : (stored.map (·.id)).Nodup) (turnIDs : List ℤ) :
    Increasing newest (turnMessages stored conversationID turnIDs) := by
  rw [turnMessages, descending_eq]
  apply increasing_mergeSort
  have ids : ((stored.map newest).map fun key => OrderDual.ofDual (ofLex key).2).Nodup := by
    rw [List.map_map]
    exact distinct
  exact ids.of_map.sublist (List.filter_sublist.map _)

theorem mem_turnMessages {turnIDs : List ℤ} {message : Message} :
    message ∈ turnMessages stored conversationID turnIDs ↔
      message ∈ stored ∧ message.conversationID = conversationID ∧ message.turnID ∈ turnIDs := by
  rw [turnMessages, List.mem_mergeSort, List.mem_filter, Bool.and_eq_true, decide_eq_true_iff, decide_eq_true_iff]

theorem conversationTurns_nodup : (conversationTurns stored conversationID).Nodup :=
  (List.mergeSort_perm _ _).nodup_iff.mpr (List.nodup_dedup _)

theorem conversationTurns_descending :
    (conversationTurns stored conversationID).Pairwise fun first second => second < first := by
  have sorted := @pairwise_mergeSort_key ℤ ℤᵒᵈ _ OrderDual.toDual (fun first second => second ≤ first) _
    (fun _ _ => OrderDual.toDual_le_toDual.symm)
    ((stored.filter (·.conversationID = conversationID)).map (·.turnID)).dedup
  exact (sorted.and conversationTurns_nodup).imp fun before => lt_of_le_of_ne before.1 before.2.symm

theorem mem_conversationTurns {turnID : ℤ} :
    turnID ∈ conversationTurns stored conversationID ↔
      ∃ message ∈ stored, message.conversationID = conversationID ∧ message.turnID = turnID := by
  rw [conversationTurns, List.mem_mergeSort, List.mem_dedup, List.mem_map]
  simp only [List.mem_filter, decide_eq_true_iff, and_assoc]

theorem turnMessages_tells (front back : List ℤ) (inFront : ∀ row ∈ front, row ∈ conversationTurns stored conversationID)
    (_ : ∀ row ∈ back, row ∈ conversationTurns stored conversationID)
    (same : turnMessages stored conversationID front = turnMessages stored conversationID back) (row : ℤ)
    (listed : row ∈ front) : row ∈ back := by
  obtain ⟨message, inStore, own, rfl⟩ := mem_conversationTurns.mp (inFront row listed)
  have shown := mem_turnMessages.mpr ⟨inStore, own, listed⟩
  rw [same] at shown
  exact (mem_turnMessages.mp shown).2.2

theorem turnMessages_append (distinct : (stored.map (·.id)).Nodup) (front back : List ℤ)
    (suffix : front ++ back <:+ conversationTurns stored conversationID) :
    turnMessages stored conversationID (front ++ back) =
      turnMessages stored conversationID front ++ turnMessages stored conversationID back := by
  have later := conversationTurns_descending.sublist suffix.sublist
  obtain ⟨-, -, apart⟩ := List.pairwise_append.mp later
  have increasing : Increasing newest
      (turnMessages stored conversationID front ++ turnMessages stored conversationID back) := by
    refine List.pairwise_append.mpr ⟨turnMessages_increasing distinct front, turnMessages_increasing distinct back, ?_⟩
    intro first inFront second inBack
    have before := apart _ (mem_turnMessages.mp inFront).2.2 _ (mem_turnMessages.mp inBack).2.2
    exact Prod.Lex.toLex_lt_toLex.mpr (.inl before)
  have nodup : ∀ {messages : List Message}, Increasing newest messages → messages.Nodup := by
    intro messages rising
    exact rising.imp fun less same => absurd (same ▸ less) (lt_irrefl _)
  refine eq_of_increasing (turnMessages_increasing distinct _) increasing ?_
  refine (List.perm_ext_iff_of_nodup (nodup (turnMessages_increasing distinct _)) (nodup increasing)).mpr ?_
  intro message
  rw [List.mem_append, mem_turnMessages, mem_turnMessages, mem_turnMessages, List.mem_append]
  tauto

theorem listByConversationPage_eq (known : conversationID ≠ 0) (page pageSize : Int32) :
    listByConversationPage gorm stored conversationID page pageSize =
      (turnMessages stored conversationID (window (conversationTurns stored conversationID)
          (offset (orDefault page 1) (orDefault pageSize 10)).toNat (pageCount pageSize)),
        decide ((offset (orDefault page 1) (orDefault pageSize 10)).toNat + pageCount pageSize <
          (conversationTurns stored conversationID).length)) := by
  rw [listByConversationPage, if_neg known, atLeast_eq_orDefault, atLeast_eq_orDefault,
    ← oneMore_page gorm (conversationTurns stored conversationID) (turnMessages stored conversationID) page pageSize]
  dsimp only
  generalize gorm.find (conversationTurns stored conversationID) _ _ = found
  by_cases none_ : found = []
  · subst none_
    have filled := pageCount_pos pageSize
    have short : ¬ (orDefault pageSize 10).toInt < ([] : List ℤ).length := by
      rw [toInt_orDefault_pageSize, List.length_nil]
      omega
    have nothing : turnMessages stored conversationID [] = [] := by
      apply List.eq_nil_iff_forall_not_mem.mpr
      intro message listed
      exact List.not_mem_nil (mem_turnMessages.mp listed).2.2
    rw [if_pos rfl, if_neg short, nothing]
  · rw [if_neg none_]

theorem listByConversationPage_isPage_iff (known : conversationID ≠ 0) (page pageSize : Int32) :
    IsPage (turnMessages stored conversationID) (conversationTurns stored conversationID) (pageCount pageSize)
        (pageIndex page) (some (listByConversationPage gorm stored conversationID page pageSize)) ↔
      (conversationTurns stored conversationID).length = 0 ∨
        Fits page pageSize (conversationTurns stored conversationID).length := by
  rw [listByConversationPage_eq known, ← min_query_eq_iff]
  exact isPage_window_iff conversationTurns_nodup (pageCount_pos _) turnMessages_tells

theorem turnMessages_conversationTurns :
    turnMessages stored conversationID (conversationTurns stored conversationID) =
      (stored.filter (·.conversationID = conversationID)).mergeSort (descending [Message.turnID, Message.id]) := by
  rw [turnMessages]
  congr 1
  apply List.filter_congr
  intro message inStore
  rw [Bool.and_eq_left_iff_imp]
  intro own
  exact decide_eq_true (mem_conversationTurns.mpr ⟨message, inStore, of_decide_eq_true own, rfl⟩)

theorem listByConversationPage_read (known : conversationID ≠ 0) (distinct : (stored.map (·.id)).Nodup) (pageSize : Int32)
    (few : (conversationTurns stored conversationID).length < 2 ^ 31) :
    readFrom (fun index => some (listByConversationPage gorm stored conversationID (Int32.ofNat (index + 1)) pageSize))
        ((conversationTurns stored conversationID).length + 1) 0 =
      some ((stored.filter (·.conversationID = conversationID)).mergeSort (descending [Message.turnID, Message.id])) := by
  rw [← turnMessages_conversationTurns]
  refine readFrom_pages (fun page => some (listByConversationPage gorm stored conversationID page pageSize)) pageSize few
    (turnMessages_append distinct) ?_
  intro page _ fits _
  exact (listByConversationPage_isPage_iff known page pageSize).mpr (.inr fits)

end TurnPages

section Listings

/-- **Pages of organizations and messages.** A listing answers with the page that is asked for, and tells whether
anything is left, exactly where the start of the page fits into 32 bits. A start that does not fit is out of range of
the slice, or the query begins at another row. Where 64 bits are used every page is right. Where the pages of a list
are right, reading one after the other tells every row of it once. -/
theorem pages_exact_iff (pathToURL : String → Option String) (gorm : Gorm) (like : String → String → Bool)
    (lower trimSpace : String → String) (stored : List OrganizationModel) (getByIDs : List ℤ → List OrganizationModel) :
    (∀ (memberships : String → String → List OrganizationMembership) (request : GetUserOrganizationListRequest),
      request.username ≠ "" → ((memberships request.username request.roleCode).map (·.organizationID)).Nodup →
        let rows := existingMemberships memberships getByIDs request
        let shown := shownOrganizations pathToURL memberships getByIDs request
        (IsPage shown rows (pageCount request.pageSize) (pageIndex request.page)
            (getUserOrganizationList pathToURL memberships getByIDs request).page ↔
          Fits request.page request.pageSize rows.length) ∧
        (rows.length < 2 ^ 31 →
          readFrom (fun index => (getUserOrganizationList pathToURL memberships getByIDs
            { request with page := Int32.ofNat (index + 1) }).page) (rows.length + 1) 0 = some (shown rows))) ∧
    (∀ (request : ListOrganizationsRequest) (ids : List ℤ),
        let rows := filtered lower trimSpace (getByIDs ids) request.name
        let list (request : ListOrganizationsRequest) :=
          listVisibleOrganizations pathToURL gorm like lower trimSpace stored getByIDs (.organizations ids) request
        IsPage (List.map (orgModelToDTO pathToURL)) rows (pageCount request.pageSize) (pageIndex request.page)
          (list request).page ∧
        (rows.length < 2 ^ 31 →
          readFrom (fun index => (list { request with page := Int32.ofNat (index + 1) }).page) (rows.length + 1) 0 =
            some (rows.map (orgModelToDTO pathToURL)))) ∧
    (∀ (request : ListOrganizationsRequest), (stored.map (·.id)).Nodup →
        let rows := OrganizationDAO.rows like stored request.name
        let list (request : ListOrganizationsRequest) :=
          listVisibleOrganizations pathToURL gorm like lower trimSpace stored getByIDs .platformAdmin request
        (IsPage (List.map (orgModelToDTO pathToURL)) rows (pageCount request.pageSize) (pageIndex request.page)
            (list request).page ↔
          (rows.length = 0 ∨ Fits request.page request.pageSize rows.length) ∧
            Announces request.page request.pageSize rows.length) ∧
        (0 < request.pageSize → rows.length + pageCount request.pageSize ≤ 2 ^ 31 →
          readFrom (fun index => (list { request with page := Int32.ofNat (index + 1) }).page) (rows.length + 1) 0 =
            some (rows.map (orgModelToDTO pathToURL)))) ∧
    (∀ (messages : List Message) (filter : MessageFilter), (messages.map (·.id)).Nodup → filter.usePagination = true →
        let rows := filter.rows messages
        (IsPage id rows (pageCount filter.pageSize) (pageIndex filter.page)
            (some (listByFilter gorm messages filter)) ↔
          rows.length = 0 ∨ Fits filter.page filter.pageSize rows.length) ∧
        (rows.length < 2 ^ 31 →
          readFrom (fun index => some (listByFilter gorm messages { filter with page := Int32.ofNat (index + 1) }))
            (rows.length + 1) 0 = some rows)) ∧
    (∀ (messages : List Message) (conversationID : ℤ) (page pageSize : Int32), (messages.map (·.id)).Nodup →
      conversationID ≠ 0 →
        let rows := conversationTurns messages conversationID
        (IsPage (turnMessages messages conversationID) rows (pageCount pageSize) (pageIndex page)
            (some (listByConversationPage gorm messages conversationID page pageSize)) ↔
          rows.length = 0 ∨ Fits page pageSize rows.length) ∧
        (rows.length < 2 ^ 31 →
          readFrom (fun index =>
              some (listByConversationPage gorm messages conversationID (Int32.ofNat (index + 1)) pageSize))
            (rows.length + 1) 0 =
            some ((messages.filter (·.conversationID = conversationID)).mergeSort
              (descending [Message.turnID, Message.id])))) := by
  refine ⟨?_, ?_, ?_, ?_, ?_⟩
  · intro memberships request named distinct
    exact ⟨getUserOrganizationList_isPage_iff named distinct, getUserOrganizationList_read named distinct⟩
  · intro request ids
    exact ⟨listVisibleOrganizations_isPage ids, listVisibleOrganizations_read ids⟩
  · intro request distinct
    exact ⟨listOrganizations_isPage_iff distinct, listOrganizations_read distinct⟩
  · intro messages filter distinct paginated
    exact ⟨listByFilter_isPage_iff filter paginated distinct, listByFilter_read filter paginated distinct⟩
  · intro messages conversationID page pageSize distinct known
    exact ⟨listByConversationPage_isPage_iff known page pageSize, listByConversationPage_read known distinct pageSize⟩

def greeting : Message := ⟨1, "user", 5, 3, 1, "user", 0, "hello"⟩

theorem rows_greeting (page pageSize : Int32) :
    MessageFilter.rows { usePagination := true, page, pageSize } [greeting] = [greeting] := by
  have kept : [greeting].filter (MessageFilter.keeps { usePagination := true, page, pageSize }) = [greeting] := rfl
  rw [MessageFilter.rows, kept, List.mergeSort_singleton]

/-- The only message of a conversation is read with its first page. -/
theorem pages_exact_greeting :
    IsPage id [greeting] 20 0 (some (listByFilter mysql [greeting] { usePagination := true, page := 1, pageSize := 20 })) ∧
      readFrom (fun index => some (listByFilter mysql [greeting]
        { usePagination := true, page := Int32.ofNat (index + 1), pageSize := 20 })) 2 0 = some [greeting] := by
  obtain ⟨-, -, -, messages, -⟩ := pages_exact_iff (fun _ => none) mysql (fun _ _ => false) id id [] (fun _ => [])
  obtain ⟨page, read⟩ := messages [greeting] { usePagination := true, page := 1, pageSize := 20 } (List.nodup_singleton _) rfl
  rw [rows_greeting] at page read
  exact ⟨page.mpr (.inr (.inl (by decide))), read (by decide)⟩

def ownOrganization : OrganizationModel := ⟨7, "own", "", "", "user", 0, 0⟩

/-- With pages of a hundred, the page 21474838 starts past 2³¹. The slice of the organizations is out of range, and the
messages begin again with the first. -/
theorem far_page_fails :
    getUserOrganizationList (fun _ => none) (fun _ _ => [⟨7, []⟩]) (fun _ => [ownOrganization])
        ⟨"user", "", 21474838, 100⟩ = .panicked ∧
      listByFilter mysql [greeting] { usePagination := true, page := 21474838, pageSize := 100 } = ([greeting], false) ∧
      ¬ IsPage id [greeting] 100 21474837
        (some (listByFilter mysql [greeting] { usePagination := true, page := 21474838, pageSize := 100 })) := by
  have again : listByFilter mysql [greeting] { usePagination := true, page := 21474838, pageSize := 100 } =
      ([greeting], false) := by
    rw [listByFilter, rows_greeting]
    rfl
  refine ⟨rfl, again, ?_⟩
  rw [again, IsPage, window_of_le (by decide)]
  intro same
  cases same

end Listings

end Sico.Listings
