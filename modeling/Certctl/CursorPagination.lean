import Certctl.DomainRecords
import Mathlib.Data.List.TakeWhile

/-!
# Listing certificates page by page

A listing is cut into pages, and the answer to a request with a cursor names the
last row of its page in the cursor for the next request. The cursor joins a
creation time and an identifier with a colon and is cut at the first colon when
it comes back. The time has colons of its own, so no cursor is ever read back,
and a cursor that cannot be read is ignored: every page is the first one.
-/

namespace Certctl.CursorPagination

open DomainRecords

/-- The columns of a certificate row that a listing compares. -/
structure CertRow where
  id : String
  name : String := ""
  commonName : String := ""
  environment : String := ""
  ownerID : String := ""
  teamID : String := ""
  issuerID : String := ""
  profileID : String := ""
  status : String := ""
  /-- Agents of the targets that the certificate is mapped to. -/
  agentIDs : List String := []
  expiresAt : Time := 0
  createdAt : Time := 0
  updatedAt : Time := 0

/-- The query parameters of a request for certificates, apart from the cursor. -/
structure ListQuery where
  status : String := ""
  environment : String := ""
  ownerID : String := ""
  teamID : String := ""
  issuerID : String := ""
  agentID : String := ""
  profileID : String := ""
  expiresBefore : Option Time := none
  expiresAfter : Option Time := none
  createdAfter : Option Time := none
  updatedAfter : Option Time := none
  sort : String := ""
  sortDesc : Bool := false
  perPage : Option ℤ := none
  pageSize : Option ℤ := none

/-- The standard library's texts of times and of bytes. A time is only read from a
text with the colons between its hours, minutes and seconds. -/
structure Texts where
  formatTime : Time→List Char
  parseTime : List Char→Option Time
  encodeToString : List Char→String
  decodeString : String→Option (List Char)
  colon_of_parseTime : ∀ text t,parseTime text=some t → ':' ∈ text

/-- The order in which the database sorts texts. -/
structure Collation where
  le : String→String→Bool
  total : ∀ a b,le a b || le b a
  trans : ∀ a b c,le a b → le b c → le a c

def ListQuery.selects (q : ListQuery) (row : CertRow) : Bool :=
  (q.status="" || row.status=q.status) && (q.environment="" || row.environment=q.environment) &&
    (q.ownerID="" || row.ownerID=q.ownerID) && (q.teamID="" || row.teamID=q.teamID) &&
    (q.issuerID="" || row.issuerID=q.issuerID) && (q.profileID="" || row.profileID=q.profileID) &&
    q.expiresBefore.all (row.expiresAt<·) && q.expiresAfter.all (·<row.expiresAt) &&
    q.createdAfter.all (·<row.createdAt) && q.updatedAfter.all (·<row.updatedAt) &&
    (q.agentID="" || row.agentIDs.contains q.agentID)

/-- A number between 1 and 500 that a request gives. -/
def parsedSize (given : Option ℤ) : Option ℤ := given.filter fun n => 0<n && n≤500

/-- The size in force: the page size when it is given, otherwise the size per page. -/
def ListQuery.limit (q : ListQuery) : ℕ := ((parsedSize q.pageSize).getD ((parsedSize q.perPage).getD 50)).toNat

/-- A column to sort by. -/
inductive SortKey where
  | time (column : CertRow→Time)
  | text (column : CertRow→String)

def sortField (sort : String) : SortKey :=
  if sort="notAfter" ∨ sort="expiresAt" then .time CertRow.expiresAt
  else if sort="updatedAt" then .time CertRow.updatedAt
  else if sort="commonName" then .text CertRow.commonName
  else if sort="name" then .text CertRow.name
  else if sort="status" then .text CertRow.status
  else if sort="environment" then .text CertRow.environment
  else .time CertRow.createdAt

def SortKey.le (C : Collation) (a b : CertRow) : SortKey→Bool
  | .time column => column a≤column b
  | .text column => C.le (column a) (column b)

/-- Row `a` may stand before row `b`. Nothing orders rows with equal keys. -/
def ListQuery.before (q : ListQuery) (C : Collation) (a b : CertRow) : Bool :=
  if q.sortDesc then (sortField q.sort).le C b a else (sortField q.sort).le C a b

def encodeCursor (F : Texts) (createdAt : Time) (id : String) : String :=
  F.encodeToString (F.formatTime createdAt++ ':' :: id.toList)

/-- Read a cursor back. It is cut in two at the first colon. -/
def decodeCursor (F : Texts) (cursor : String) : Option (Time × String) :=
  match F.decodeString cursor with
  | none => none
  | some raw =>
    match raw.dropWhile (· ≠ ':') with
    | [] => none
    | _::id => (F.parseTime (raw.takeWhile (· ≠ ':'))).map fun t => (t,String.ofList id)

variable (F : Texts) (C : Collation) (q : ListQuery) (rows : List CertRow)

/-- The rows that a request with a cursor asks for. -/
def queried (cursor : String) : List CertRow :=
  rows.filter fun row => q.selects row &&
    match decodeCursor F cursor with
    | some (t,id) => row.createdAt<t || (row.createdAt=t && !C.le id row.id)
    | none => true

/-- A listing of rows: the same rows in an order that the database may choose. -/
def Listing (found out : List CertRow) : Prop := out.Perm found ∧ out.Pairwise (q.before C · ·)

/-- The data of an answer to a request with a cursor. -/
def Page (cursor : String) (data : List CertRow) : Prop :=
  ∃ out,Listing C q (queried F C q rows cursor) out ∧ data=out.take q.limit

def nextCursor (data : List CertRow) : String :=
  (data.getLast?.map fun last => encodeCursor F last.createdAt last.id).getD ""

/-- The pages that a client reads from a cursor on until an empty page. -/
inductive Follows : String→List (List CertRow)→Prop
  | done {cursor : String} (h : Page F C q rows cursor []) : Follows cursor []
  | next {cursor : String} {data : List CertRow} {pages : List (List CertRow)} (h : Page F C q rows cursor data)
      (hne : data≠[]) (hrest : Follows (nextCursor F data) pages) : Follows cursor (data::pages)

/-- From an answer on, the pages are the rest of a listing of the matching rows. -/
def Enumerates (cursor : String) : Prop :=
  ∀ data last,Page F C q rows cursor data → data.getLast?=some last →
    ∃ pages,Follows F C q rows (nextCursor F data) pages ∧
      ∃ earlier,Listing C q (rows.filter q.selects) (earlier++last::pages.flatten)

theorem decodeCursor_eq_none (cursor : String) : decodeCursor F cursor=none := by
  unfold decodeCursor
  split
  · rfl
  next raw hraw =>
  split
  · rfl
  rw [Option.map_eq_none_iff,Option.eq_none_iff_forall_ne_some]
  intro t ht
  have hcolon := F.colon_of_parseTime _ t ht
  simpa using List.mem_takeWhile_imp hcolon

theorem queried_eq (cursor : String) : queried F C q rows cursor=rows.filter q.selects := by
  simp only [queried,decodeCursor_eq_none,Bool.and_true]

theorem limit_pos : 0<q.limit := by
  have hsize (given : Option ℤ) : ∀ n∈parsedSize given,0<n := by
    intro n hn
    have hcheck := (Option.filter_eq_some_iff.mp hn).2
    simp only [Bool.and_eq_true,decide_eq_true_eq] at hcheck
    exact hcheck.1
  unfold ListQuery.limit
  cases hpage : parsedSize q.pageSize with
  | some n => simpa using hsize _ n hpage
  | none =>
    cases hper : parsedSize q.perPage with
    | some n => simpa using hsize _ n hper
    | none => decide

theorem before_total (a b : CertRow) : q.before C a b || q.before C b a := by
  have hkey (key : SortKey) (x y : CertRow) : key.le C x y || key.le C y x := by
    cases key with
    | time column => simpa [SortKey.le] using Int.le_total (column x) (column y)
    | text => exact C.total _ _
  unfold ListQuery.before
  split
  · exact hkey _ b a
  · exact hkey _ a b

theorem before_trans (a b c : CertRow) (hab : q.before C a b) (hbc : q.before C b c) : q.before C a c := by
  have hkey (key : SortKey) (x y z : CertRow) (hxy : key.le C x y) (hyz : key.le C y z) : key.le C x z := by
    cases key with
    | time =>
      simp only [SortKey.le,decide_eq_true_eq] at hxy hyz ⊢
      exact Int.le_trans hxy hyz
    | text => exact C.trans _ _ _ hxy hyz
  unfold ListQuery.before at *
  split at hab
  · next hdesc =>
    rw [if_pos hdesc] at hbc ⊢
    exact hkey _ c b a hbc hab
  · next hasc =>
    rw [if_neg hasc] at hbc ⊢
    exact hkey _ a b c hab hbc

theorem exists_listing (found : List CertRow) : ∃ out,Listing C q found out :=
  ⟨found.mergeSort (q.before C),List.mergeSort_perm found _,
    List.pairwise_mergeSort (before_trans C q) (before_total C q) found⟩

variable {F C q rows} {cursor : String} {data : List CertRow}

/-- A page is empty only when no row matches, whatever the cursor. -/
theorem page_eq_nil_iff (h : Page F C q rows cursor data) : data=[] ↔ rows.filter q.selects=[] := by
  obtain ⟨out,⟨hperm,-⟩,rfl⟩ := h
  rw [queried_eq] at hperm
  have hlimit := limit_pos q
  rw [List.take_eq_nil_iff,or_iff_right (Nat.ne_of_gt hlimit),← List.length_eq_zero_iff,hperm.length_eq,
    List.length_eq_zero_iff]

theorem matches_nil_of_follows {pages : List (List CertRow)} (h : Follows F C q rows cursor pages) :
    rows.filter q.selects=[] := by
  induction h with
  | done hpage => exact (page_eq_nil_iff hpage).mp rfl
  | next _ _ _ ih => exact ih

/-- When a row matches, every page has a last row and following it never ends. -/
theorem not_enumerates (h : rows.filter q.selects≠[]) : ¬Enumerates F C q rows cursor := by
  intro henum
  obtain ⟨out,hout⟩ := exists_listing C q (queried F C q rows cursor)
  have hpage : Page F C q rows cursor (out.take q.limit) := ⟨out,hout,rfl⟩
  have hne := (page_eq_nil_iff hpage).not.mpr h
  obtain ⟨pages,hfollows,-⟩ := henum _ _ hpage (List.getLast?_eq_some_getLast hne)
  exact h (matches_nil_of_follows hfollows)

/-- Following cursors enumerates the matching rows exactly when there are none, and no
cursor is read back. -/
theorem cursors_enumerate_iff (F : Texts) (C : Collation) (q : ListQuery) (rows : List CertRow) (cursor : String) :
    (Enumerates F C q rows cursor ↔ ∀ row∈rows,q.selects row=false) ∧
      ∀ t id,decodeCursor F (encodeCursor F t id)≠some (t,id) := by
  constructor
  · constructor
    · intro henum
      by_contra hmatch
      exact not_enumerates (by simpa [List.filter_eq_nil_iff] using hmatch) henum
    · intro hnone data last hpage hlast
      have hdata := (page_eq_nil_iff hpage).mpr (by simpa [List.filter_eq_nil_iff] using hnone)
      rw [hdata] at hlast
      cases hlast
  · intro t id h
    rw [decodeCursor_eq_none] at h
    cases h

def twoDigits (n : ℕ) : List Char := [Nat.digitChar (n/10),Nat.digitChar (n%10)]

def ofTwoDigits (a b : Char) : ℕ := 10*(a.toNat - '0'.toNat)+(b.toNat - '0'.toNat)

/-- RFC 3339 texts of the times of one day, whose zero is midnight. -/
def sampleTexts : Texts where
  formatTime t :=
    let s := (t/second).toNat
    "2026-05-03T".toList++twoDigits (s/3600)++ ':' :: twoDigits (s/60%60)++ ':' :: twoDigits (s%60)++['Z']
  parseTime text :=
    match text.drop 11 with
    | [a,b,':',c,d,':',e,f,'Z'] => some ((3600*ofTwoDigits a b+60*ofTwoDigits c d+ofTwoDigits e f : ℕ)*second)
    | _ => none
  encodeToString := String.ofList
  decodeString text := some text.toList
  colon_of_parseTime text t h := by
    split at h
    · rename_i hshape
      exact List.mem_of_mem_drop (hshape ▸ by simp : ':' ∈ text.drop 11)
    · cases h

def sampleCollation : Collation where
  le a b := a.length≤b.length
  total a b := by simpa using Nat.le_total a.length b.length
  trans a b c hab hbc := by simpa using Nat.le_trans (by simpa using hab) (by simpa using hbc)

def sampleRow : CertRow := {id := "mc-1", createdAt := 43200*second}

/-- With one certificate, the page after it holds it again and the walk never ends. -/
theorem cursor_repeats_row :
    Page sampleTexts sampleCollation {} [sampleRow] (nextCursor sampleTexts [sampleRow]) [sampleRow] ∧
      ¬Enumerates sampleTexts sampleCollation {} [sampleRow] (nextCursor sampleTexts [sampleRow]) := by
  constructor
  · refine ⟨[sampleRow],⟨?_,List.pairwise_singleton _ _⟩,rfl⟩
    exact .refl _
  · exact not_enumerates (by decide)

end Certctl.CursorPagination
