import Minirel.Page
import Mathlib.Logic.Function.Basic

namespace Minirel
open ByteMemory

-- A Unix file is a whole number of pages; page 0 is the DB header page.
abbrev UnixFile := List Page

-- The system calls on a file that fail; a failed write leaves the file as it was.
structure Io where
  read : Int → Bool
  write : Int → Bool

def Io.working : Io := ⟨fun _ => false,fun _ => false⟩

-- DBPage lies over the first twelve bytes of the header page, and of a free page.
namespace DBPage

def nextFree (p : Page) : Int := word p 4 0
def firstPage (p : Page) : Int := word p 4 4
def numPages (p : Page) : Int := word p 4 8
def setNextFree (p : Page) (v : Int) : Page := setWord p 4 0 v
def setFirstPage (p : Page) (v : Int) : Page := setWord p 4 4 v
def setNumPages (p : Page) (v : Int) : Page := setWord p 4 8 v

end DBPage

namespace File

def at? (file : UnixFile) (pageNo : Int) : Option Page := if pageNo < 0 then none else file[pageNo.toNat]?

-- lseek past the end followed by write leaves a hole of zero bytes.
def overwrite (file : UnixFile) (pageNo : Nat) (page : Page) : UnixFile :=
  if pageNo < file.length then file.set pageNo page
  else file ++ List.replicate (pageNo - file.length) (zero 1024) ++ [page]

def intread (io : Io) (file : UnixFile) (pageNo : Int) : Except Status Page :=
  if io.read pageNo then .error .unixErr
  else match at? file pageNo with
    | some page => .ok page
    | none => .error .unixErr

def intwrite (io : Io) (file : UnixFile) (pageNo : Int) (page : Page) : Status × UnixFile :=
  if io.write pageNo ∨ pageNo < 0 then (.unixErr,file) else (.ok,overwrite file pageNo.toNat page)

def readPage (io : Io) (file : UnixFile) (pageNo : Int) : Except Status Page :=
  if pageNo < 1 then .error .badPageNo else intread io file pageNo

def writePage (io : Io) (file : UnixFile) (pageNo : Int) (page : Page) : Status × UnixFile :=
  if pageNo < 1 then (.badPageNo,file) else intwrite io file pageNo page

def getFirstPage (io : Io) (file : UnixFile) : Except Status Int :=
  match intread io file 0 with
  | .error status => .error status
  | .ok header => .ok (DBPage.firstPage header)

-- File::create writes this one page.
def create : UnixFile :=
  [DBPage.setNumPages (DBPage.setFirstPage (DBPage.setNextFree (zero 1024) (-1)) (-1)) 1]

-- The two branches of File::allocatePage: a page of the free list, or a new page at the end.
def takeFree (io : Io) (file : UnixFile) (header : Page) : Except Status Int × UnixFile :=
  let pageNo := DBPage.nextFree header
  match intread io file pageNo with
  | .error status => (.error status,file)
  | .ok firstFree =>
    match intwrite io file 0 (DBPage.setNextFree header (DBPage.nextFree firstFree)) with
    | (.ok,file) => (.ok pageNo,file)
    | (status,file) => (.error status,file)

def extend (io : Io) (file : UnixFile) (header : Page) : Except Status Int × UnixFile :=
  let pageNo := DBPage.numPages header
  match intwrite io file pageNo (zero 1024) with
  | (.ok,file) =>
    let header := DBPage.setNumPages header (DBPage.numPages header + 1)
    let header := if DBPage.firstPage header = -1 then DBPage.setFirstPage header pageNo else header
    match intwrite io file 0 header with
    | (.ok,file) => (.ok pageNo,file)
    | (status,file) => (.error status,file)
  | (status,file) => (.error status,file)

def allocatePage (io : Io) (file : UnixFile) : Except Status Int × UnixFile :=
  match intread io file 0 with
  | .error status => (.error status,file)
  | .ok header => if DBPage.nextFree header ≠ -1 then takeFree io file header else extend io file header

-- The page goes to the head of the free list. The first page of the file is refused, a page that
-- is on the list already is not.
def disposePage (io : Io) (file : UnixFile) (pageNo : Int) : Status × UnixFile :=
  if pageNo < 1 then (.badPageNo,file)
  else match intread io file 0 with
  | .error status => (status,file)
  | .ok header =>
    if DBPage.firstPage header = pageNo ∨ pageNo ≥ DBPage.numPages header then (.badPageNo,file)
    else match intread io file pageNo with
    | .error status => (status,file)
    | .ok _ =>
      let away := DBPage.setNextFree (zero 1024) (DBPage.nextFree header)
      let header := DBPage.setNextFree header pageNo
      match intwrite io file pageNo away with
      | (.ok,file) => intwrite io file 0 header
      | (status,file) => (status,file)

theorem at_some_bound {file : UnixFile} {pageNo : Int} {page : Page} (found : at? file pageNo = some page) :
    0 ≤ pageNo ∧ pageNo < file.length := by
  unfold at? at found
  split at found
  · cases found
  · have bound := (List.getElem?_eq_some_iff.mp found).1
    omega

theorem at_beyond {file : UnixFile} {pageNo : Int} (beyond : pageNo < 0 ∨ file.length ≤ pageNo) :
    at? file pageNo = none := by
  unfold at?
  split
  · rfl
  · exact List.getElem?_eq_none (by omega)

theorem at_inside {file : UnixFile} {pageNo : Int} (low : 0 ≤ pageNo) (high : pageNo < file.length) :
    ∃ page, at? file pageNo = some page := by
  rw [at?,if_neg (by omega)]
  exact ⟨_,List.getElem?_eq_getElem (by omega)⟩

theorem at_overwrite {file : UnixFile} {n : Nat} (page : Page) (near : n ≤ file.length) (pageNo : Int) :
    at? (overwrite file n page) pageNo = if pageNo = n then some page else at? file pageNo := by
  by_cases negative : pageNo < 0
  · rw [at_beyond (.inl negative),at_beyond (.inl negative),if_neg (by omega)]
  · obtain ⟨k,rfl⟩ := Int.eq_ofNat_of_zero_le (Int.not_lt.mp negative)
    simp only [at?,if_neg negative,Int.toNat_natCast,Int.natCast_inj]
    by_cases inside : n < file.length
    · rw [overwrite,if_pos inside,List.getElem?_set]
      by_cases same : n = k
      · subst same; simp [inside]
      · simp [same,Ne.symm same]
    · have ended : n = file.length := by omega
      subst n
      rw [overwrite,if_neg inside,Nat.sub_self,List.replicate_zero,List.append_nil]
      rcases Nat.lt_trichotomy k file.length with less | rfl | more
      · rw [List.getElem?_append_left less,if_neg (by omega)]
      · simp
      · rw [if_neg (by omega),List.getElem?_eq_none (by simpa using by omega),List.getElem?_eq_none (by omega)]

theorem length_overwrite (file : UnixFile) {n : Nat} (page : Page) (near : n ≤ file.length) :
    (overwrite file n page).length = max file.length (n+1) := by
  unfold overwrite
  split
  · simp; omega
  · simp; omega

theorem at_writePage {io : Io} {file file' : UnixFile} {pageNo : Int} {page old : Page}
    (present : at? file pageNo = some old)
    (written : writePage io file pageNo page = (.ok,file')) (q : Int) :
    at? file' q = if q = pageNo then some page else at? file q := by
  obtain ⟨low,high⟩ := at_some_bound present
  unfold writePage intwrite at written
  split at written
  · cases written
  · split at written
    · cases written
    · cases written
      rw [at_overwrite page (by omega),Int.toNat_of_nonneg low]

theorem writePage_length {io : Io} {file file' : UnixFile} {pageNo : Int} {page old : Page} {status : Status}
    (present : at? file pageNo = some old) (written : writePage io file pageNo page = (status,file')) :
    file'.length = file.length := by
  obtain ⟨low,high⟩ := at_some_bound present
  unfold writePage intwrite at written
  split at written
  · cases written; rfl
  · split at written
    · cases written; rfl
    · cases written
      rw [length_overwrite file page (by omega)]
      omega

theorem writePage_failed {io : Io} {file file' : UnixFile} {pageNo : Int} {page : Page} {status : Status}
    (written : writePage io file pageNo page = (status,file')) (failed : status ≠ .ok) : file' = file := by
  unfold writePage intwrite at written
  split at written
  · cases written; rfl
  · split at written
    · cases written; rfl
    · cases written; exact absurd rfl failed

def header (file : UnixFile) : Page := (at? file 0).getD (zero 1024)

-- The header page counts the pages of the file, as far as an int can count.
structure Counted (file : UnixFile) : Prop where
  present : 0 < file.length
  counted : DBPage.numPages (header file) = Int.bmod file.length (256 ^ 4)
  bound : file.length ≤ 2147483648

def NoFreePages (file : UnixFile) : Prop := DBPage.nextFree (header file) = -1

theorem writePage_low {io : Io} {file file' : UnixFile} {pageNo : Int} {page : Page}
    (written : writePage io file pageNo page = (.ok,file')) : 1 ≤ pageNo := by
  unfold writePage at written
  split at written
  · cases written
  · omega

theorem writePage_counted {io : Io} {file file' : UnixFile} {pageNo : Int} {page old : Page} (counted : Counted file)
    (present : at? file pageNo = some old) (written : writePage io file pageNo page = (.ok,file')) : Counted file' := by
  have length := writePage_length present written
  have low := writePage_low written
  have kept : header file' = header file := by
    rw [header,header,at_writePage present written,if_neg (by omega)]
  exact ⟨by rw [length]; exact counted.present,by rw [kept,length]; exact counted.counted,by rw [length]; exact counted.bound⟩

theorem create_counted : Counted create ∧ NoFreePages create := by
  refine ⟨⟨Nat.zero_lt_one,?_,by decide⟩,?_⟩
  · simp (disch := omega) only [create,header,at?,DBPage.numPages,DBPage.setNumPages]
    exact word_setWord (by omega) (by omega)
  · simp (disch := omega) only [NoFreePages,create,header,at?,DBPage.nextFree,DBPage.setNumPages,DBPage.setFirstPage,
      DBPage.setNextFree]
    refine (word_setWord_apart (by omega)).trans ((word_setWord_apart (by omega)).trans
      (word_setWord (by omega) (by omega)))

theorem create_firstPage : DBPage.firstPage (header create) = -1 := by
  simp (disch := omega) only [create,header,at?,DBPage.firstPage,DBPage.setNumPages,DBPage.setFirstPage]
  exact (word_setWord_apart (by omega)).trans (word_setWord (by omega) (by omega))

theorem header_at {file : UnixFile} (present : 0 < file.length) : at? file 0 = some (header file) := by
  obtain ⟨page,found⟩ := at_inside (Int.le_refl 0) (Int.natCast_pos.mpr present)
  rw [header,found,Option.getD_some]

theorem header_overwrite {file : UnixFile} (page : Page) : header (overwrite file 0 page) = page := by
  rw [header,at_overwrite page (Nat.zero_le _),Nat.cast_zero,if_pos rfl,Option.getD_some]

theorem intread_header {io : Io} {file : UnixFile} (present : 0 < file.length) :
    intread io file 0 = if io.read 0 then .error .unixErr else .ok (header file) := by
  rw [intread,header_at present]

theorem intwrite_header {io : Io} {file : UnixFile} (page : Page) (works : io.write 0 = false) :
    intwrite io file 0 page = (.ok,overwrite file 0 page) := by
  simp [intwrite,works]

-- Only the File layer writes page 0.
theorem header_writePage (io : Io) (file : UnixFile) (pageNo : Int) (page : Page) :
    header (writePage io file pageNo page).2 = header file := by
  unfold writePage
  split
  · rfl
  · rename_i low
    unfold intwrite
    split
    · rfl
    · obtain ⟨n,positive⟩ : ∃ n, pageNo.toNat = n + 1 := ⟨pageNo.toNat - 1,by omega⟩
      simp only [header,at?,positive,overwrite,if_neg (Int.lt_irrefl 0),Int.toNat_zero]
      split
      · rw [List.getElem?_set_ne (by omega)]
      · cases file with
        | nil => rfl
        | cons first rest => rfl

-- What allocatePage leaves of the file, whatever it returns.
structure Allocated (file file' : UnixFile) (result : Except Status Int) : Prop where
  counted : Counted file'
  noFree : NoFreePages file → NoFreePages file'
  kept : ∀ q, 1 ≤ q → (at? file q).isSome → at? file' q = at? file q
  handed : ∀ pageNo, result = .ok pageNo → (at? file' pageNo).isSome
  fresh : ∀ pageNo, result = .ok pageNo → NoFreePages file → at? file pageNo = none
  reused : ∀ pageNo, result = .ok pageNo → ¬ NoFreePages file → pageNo = DBPage.nextFree (header file)

theorem Allocated.failed {file : UnixFile} (status : Status) (counted : Counted file) :
    Allocated file file (.error status) :=
  ⟨counted,id,fun _ _ _ => rfl,fun _ given => (by cases given),fun _ given => (by cases given),
    fun _ given => (by cases given)⟩

theorem takeFree_spec {io : Io} {file : UnixFile} (counted : Counted file) (works : io.write 0 = false)
    (free : ¬ NoFreePages file) : Allocated file (takeFree io file (header file)).2
    (takeFree io file (header file)).1 := by
  have present := counted.present
  have bound := counted.bound
  unfold takeFree
  dsimp only
  cases second : intread io file (DBPage.nextFree (header file)) with
  | error status => exact .failed _ counted
  | ok firstFree =>
    dsimp only
    rw [intwrite_header _ works]
    have inside : (at? file (DBPage.nextFree (header file))).isSome := by
      unfold intread at second
      split at second
      · cases second
      · split at second
        · rename_i found; rw [found]; rfl
        · cases second
    generalize image : DBPage.setNextFree (header file) (DBPage.nextFree firstFree) = header'
    have count' : DBPage.numPages header' = DBPage.numPages (header file) := by
      rw [← image]
      exact word_setWord_apart (by omega)
    have length := length_overwrite file header' (Nat.zero_le _)
    have elsewhere : ∀ q, at? (overwrite file 0 header') q = if q = 0 then some header' else at? file q :=
      at_overwrite _ (Nat.zero_le _)
    dsimp only
    refine ⟨⟨by omega,?_,by omega⟩,fun none => absurd none free,?_,?_,fun _ _ none => absurd none free,
      fun _ given _ => (by cases given; rfl)⟩
    · rw [header_overwrite,length,Nat.max_eq_left (by omega),← counted.counted,count']
    · intro q low _
      rw [elsewhere,if_neg (by omega)]
    · intro pageNo given
      cases given
      rw [elsewhere]
      split
      · rfl
      · exact inside

theorem extend_spec {io : Io} {file : UnixFile} (counted : Counted file) (works : io.write 0 = false)
    (none : NoFreePages file) : Allocated file (extend io file (header file)).2 (extend io file (header file)).1 := by
  have present := counted.present
  have bound := counted.bound
  have number := counted.counted
  unfold extend
  dsimp only
  cases written : intwrite io file (DBPage.numPages (header file)) (zero 1024) with
  | mk status file' =>
    unfold intwrite at written
    split at written
    · cases written; exact .failed _ counted
    · rename_i goes
      cases written
      dsimp only
      rw [intwrite_header _ works]
      -- The count was not negative, so it had not wrapped and is the length.
      have exact_count : DBPage.numPages (header file) = file.length := by
        rw [Int.bmod_def] at number
        split at number <;> omega
      rw [exact_count,Int.toNat_natCast]
      generalize image : (if DBPage.firstPage (DBPage.setNumPages (header file) (file.length + 1)) = -1 then
        DBPage.setFirstPage (DBPage.setNumPages (header file) (file.length + 1)) file.length
        else DBPage.setNumPages (header file) (file.length + 1)) = header'
      have count' : DBPage.numPages header' = Int.bmod (file.length + 1) (256 ^ 4) := by
        rw [← image]
        split
        · exact (word_setWord_apart (by omega)).trans (word_setWord (by omega) (by omega))
        · exact word_setWord (by omega) (by omega)
      have free' : DBPage.nextFree header' = DBPage.nextFree (header file) := by
        rw [← image]
        split
        · exact (word_setWord_apart (by omega)).trans (word_setWord_apart (by omega))
        · exact word_setWord_apart (by omega)
      have longer := length_overwrite file (n:=file.length) (zero 1024) (Nat.le_refl _)
      have length := length_overwrite (overwrite file file.length (zero 1024)) (n:=0) header' (Nat.zero_le _)
      have elsewhere : ∀ q, at? (overwrite (overwrite file file.length (zero 1024)) 0 header') q =
          if q = 0 then some header' else if q = file.length then some (zero 1024) else at? file q := by
        intro q
        rw [at_overwrite _ (Nat.zero_le _),at_overwrite _ (Nat.le_refl _),Nat.cast_zero]
      have beyond : at? file file.length = .none := at_beyond (.inr (Int.le_refl _))
      have shorter : file.length < 2147483648 := by
        rcases Nat.lt_or_eq_of_le bound with less | full
        · exact less
        · rw [full] at number exact_count
          rw [exact_count] at number
          exact absurd number (by decide)
      dsimp only
      refine ⟨⟨by omega,?_,by omega⟩,?_,?_,?_,?_,fun _ _ free => absurd none free⟩
      · have grown : ((overwrite (overwrite file file.length (zero 1024)) 0 header').length : Int) =
          file.length + 1 := by omega
        rw [header_overwrite,count',grown]
      · intro _
        rw [NoFreePages,header_overwrite,free']
        exact none
      · intro q low kept
        rw [elsewhere,if_neg (by omega),if_neg]
        rintro rfl
        rw [beyond] at kept
        cases kept
      · intro pageNo given
        cases given
        rw [elsewhere]
        split
        · rfl
        · rw [if_pos rfl]; rfl
      · intro pageNo given _
        cases given
        exact beyond

theorem allocatePage_spec {io : Io} {file : UnixFile} (counted : Counted file) (works : io.write 0 = false) :
    Allocated file (allocatePage io file).2 (allocatePage io file).1 := by
  unfold allocatePage
  rw [intread_header counted.present]
  by_cases broken : io.read 0 = true
  · rw [if_pos broken]; exact .failed _ counted
  · rw [if_neg broken]
    dsimp only
    split
    · rename_i free; exact takeFree_spec counted works free
    · rename_i free; exact extend_spec counted works (not_not.mp free)

theorem intwrite_ok {io : Io} {file file' : UnixFile} {pageNo : Int} {page : Page}
    (written : intwrite io file pageNo page = (.ok,file')) : io.write pageNo = false := by
  unfold intwrite at written
  split at written
  · cases written
  · rename_i goes
    exact Bool.eq_false_iff.mpr fun broken => goes (.inl broken)

-- A number is handed out only after the header page has been written.
theorem allocatePage_ok {io : Io} {file file' : UnixFile} {pageNo : Int}
    (allocated : allocatePage io file = (.ok pageNo,file')) : io.write 0 = false := by
  unfold allocatePage at allocated
  split at allocated
  · cases allocated
  · split at allocated
    · unfold takeFree at allocated
      dsimp only at allocated
      split at allocated
      · cases allocated
      · split at allocated
        · rename_i written; exact intwrite_ok written
        · cases allocated
    · unfold extend at allocated
      dsimp only at allocated
      split at allocated
      · split at allocated
        · rename_i written; exact intwrite_ok written
        · cases allocated
      · cases allocated

-- With working system calls only a page count that no int can hold stops a file from growing.
theorem allocatePage_working {file : UnixFile} (counted : Counted file) (none : NoFreePages file) :
    (file.length = 2147483648 ∧ allocatePage .working file = (.error .unixErr,file)) ∨
    (∃ file', allocatePage .working file = (.ok file.length,file') ∧ file'.length = file.length + 1 ∧
      DBPage.firstPage (header file') =
        if DBPage.firstPage (header file) = -1 then (file.length : Int) else DBPage.firstPage (header file)) := by
  have number := counted.counted
  have bound := counted.bound
  rw [allocatePage,intread_header counted.present]
  simp only [Io.working,Bool.false_eq_true,if_false,show ¬ DBPage.nextFree (header file) ≠ -1 from not_not.mpr none]
  unfold extend
  by_cases wrapped : DBPage.numPages (header file) < 0
  · left
    refine ⟨?_,by simp only [intwrite,Bool.false_eq_true,wrapped,or_true,if_true]⟩
    rw [Int.bmod_def] at number
    split at number <;> omega
  · right
    have exact_count : DBPage.numPages (header file) = file.length := by
      rw [Int.bmod_def] at number
      split at number <;> omega
    have goes : ∀ n : Nat, ¬ (False ∨ (n : Int) < 0) := fun n negative => by
      rcases negative with impossible | negative
      · exact impossible
      · omega
    simp only [intwrite,Bool.false_eq_true,exact_count,goes file.length,show ¬ (False ∨ (0 : Int) < 0) from goes 0,
      if_false,
      Int.toNat_natCast,Int.toNat_zero]
    have present := counted.present
    have longer := length_overwrite file (n:=file.length) (zero 1024) (Nat.le_refl _)
    refine ⟨_,rfl,by rw [length_overwrite _ _ (Nat.zero_le _)]; omega,?_⟩
    rw [header_overwrite]
    have apart : ∀ v, DBPage.firstPage (DBPage.setNumPages (header file) v) = DBPage.firstPage (header file) :=
      fun v => word_setWord_apart (by omega)
    rw [apart]
    split
    · rw [← exact_count]
      refine (word_setWord (by omega) (by omega)).trans ?_
      rw [number,Int.bmod_bmod]
    · exact apart _

end File
end Minirel
