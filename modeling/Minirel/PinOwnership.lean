import Minirel.PoolPins
import Minirel.ScanRuns

namespace Minirel

namespace HeapFile

-- The pins that are the object's own: one on the header page, one on the page that curPage points to.
def holds (h : HeapFile) : Int → Nat := h.curPage.elim 0 (Pi.single · 1) + Pi.single h.headerPageNo 1

-- curPage is NULL or points to the frame of page curPageNo; the others have the rest of the pins.
structure Owns (others : Int → Nat) (b : Pool) (h : HeapFile) : Prop where
  tallied : b.Tallied (others + h.holds)
  headerPage : h.headerPage = some h.headerPageNo
  current : ∀ n, h.curPage = some n → n = h.curPageNo

variable {others : Int → Nat} {b : Pool} {h : HeapFile} {n : Int}

theorem Owns.at_header (owns : Owns others b h) : b.Tallied
    (others + h.curPage.elim 0 (Pi.single · 1) + Pi.single h.headerPageNo 1) := by
  rw [add_assoc]
  exact owns.tallied

theorem Owns.at_current (owns : Owns others b h) (cur : h.curPage = some n) :
    b.Tallied (others + Pi.single h.headerPageNo 1 + Pi.single n 1) := by
  have tallied := owns.at_header
  rw [cur,Option.elim_some,add_right_comm] at tallied
  exact tallied

theorem Owns.alone (owns : Owns others b h) (cur : h.curPage = none) :
    b.Tallied (others + Pi.single h.headerPageNo 1) := by
  have tallied := owns.at_header
  rwa [cur,Option.elim_none,add_zero] at tallied

theorem owns_current {b : Pool} {h : HeapFile}
    (tallied : b.Tallied (others + Pi.single h.headerPageNo 1 + Pi.single h.curPageNo 1))
    (header : h.headerPage = some h.headerPageNo) (cur : h.curPage = some h.curPageNo) : Owns others b h := by
  refine ⟨?_,header,fun n here => ?_⟩
  · rw [holds,cur,Option.elim_some,← add_assoc,add_right_comm]
    exact tallied
  · rw [cur] at here
    cases here
    rfl

theorem owns_fresh {b : Pool} {hdr first : Int} (tallied : b.Tallied (others + Pi.single hdr 1 + Pi.single first 1)) :
    Owns others b (fresh hdr first) := owns_current tallied rfl rfl

theorem owns_alone {b : Pool} {h : HeapFile} (tallied : b.Tallied (others + Pi.single h.headerPageNo 1))
    (header : h.headerPage = some h.headerPageNo) (cur : h.curPage = none) : Owns others b h := by
  refine ⟨?_,header,fun n here => ?_⟩
  · rw [holds,cur,Option.elim_none,zero_add]
    exact tallied
  · rw [cur] at here
    cases here

theorem Owns.header_there (owns : Owns others b h) : ∃ header, b.deref h.headerPage = .ok header := by
  obtain ⟨header,read,_⟩ := owns.at_header.deref
  exact ⟨header,by rw [owns.headerPage]; exact read⟩

theorem Owns.page_there (owns : Owns others b h) (cur : h.curPage ≠ none) :
    ∃ page, b.deref h.curPage = .ok page ∧ b.view h.curPageNo = some page := by
  obtain ⟨n,here⟩ := Option.ne_none_iff_exists'.mp cur
  obtain ⟨page,read,seen⟩ := (owns.at_current here).deref
  rw [here,← owns.current n here]
  exact ⟨page,read,seen⟩

-- Giving back the current page leaves the header page.
theorem Owns.leave (owns : Owns others b h) (cur : h.curPage ≠ none) (dirty : Bool) :
    ∃ b', b.unPinPage h.curPageNo dirty = (.ok,b') ∧ b'.Tallied (others + Pi.single h.headerPageNo 1) ∧
      ∀ m, m ≠ h.curPageNo → (b'.readPage m).1 = (b.readPage m).1 ∧ b'.view m = b.view m := by
  obtain ⟨n,here⟩ := Option.ne_none_iff_exists'.mp cur
  rw [← owns.current n here]
  exact (owns.at_current here).unPinPage dirty

-- Assignments through the two pointers change no pins.
theorem Owns.assign_header (owns : Owns others b h) (page : Page) : Owns others (b.assign h.headerPage page) h := by
  refine ⟨?_,owns.headerPage,owns.current⟩
  have tallied := owns.at_header.assign page
  rwa [add_assoc,← owns.headerPage] at tallied

theorem Owns.assign_page (owns : Owns others b h) (page : Page) : Owns others (b.assign h.curPage page) h := by
  cases cur : h.curPage with
  | none => exact owns
  | some n =>
    refine ⟨?_,owns.headerPage,owns.current⟩
    have tallied := (owns.at_current cur).assign page
    rw [holds,cur,Option.elim_some,← add_assoc,add_right_comm]
    exact tallied

-- What has no say in the ownership may change.
theorem Owns.congr {h' : HeapFile} (owns : Owns others b h) (header : h'.headerPage = h.headerPage)
    (headerNo : h'.headerPageNo = h.headerPageNo)
    (cur : h'.curPage = h.curPage) (curNo : h'.curPageNo = h.curPageNo) : Owns others b h' := by
  refine ⟨?_,by rw [header,headerNo]; exact owns.headerPage,by rw [cur,curNo]; exact owns.current⟩
  rw [holds,cur,headerNo]
  exact owns.tallied

-- The page is pinned already, or a frame and the disk will deliver it.
def readable (b : Pool) (pageNo : Int) : Bool := decide ((b.readPage pageNo).1 = .ok)

-- No change of page is asked for that loses the page pinned now without getting another.
def reaches (b : Pool) (h : HeapFile) (pageNo : Int) :
    Bool := decide (h.curPage = none) || decide (pageNo = h.curPageNo) || readable b pageNo

theorem readRecord_spec (tallied : b.Tallied (others + Pi.single h.headerPageNo 1)) (header : h.headerPage = some h.headerPageNo) (rid : RID)
    (can : h.curPage = none ∨ (b.readPage rid.pageNo).1 = .ok) :
    ∃ result h' b', readRecord b h rid = .ok (result,h',b') ∧ Owns others b' h' ∧
      ∀ page, b.view rid.pageNo = some page → (b.readPage rid.pageNo).1 = .ok → result = page.getRecord rid := by
  rcases tallied.readPage rid.pageNo with ⟨b',read,tallied',view,_⟩ | ⟨status,b',read,refused,tallied',_⟩
  · obtain ⟨page,there,seen⟩ := tallied'.deref
    refine ⟨page.getRecord rid,{h with curPage := some rid.pageNo, curPageNo := rid.pageNo, curDirtyFlag := false, curRec := rid},b',?_,
      owns_current tallied' header rfl,fun page' seen' _ => ?_⟩
    · simp only [readRecord,read,there,ok_bind]
      rfl
    · rw [view,seen'] at seen
      cases seen
      rfl
  · have free : h.curPage = none := by
      rcases can with free | fine
      · exact free
      · rw [read] at fine
        exact absurd fine refused
    refine ⟨.error status,h,b',?_,owns_alone tallied' header free,fun page _ fine => ?_⟩
    · simp only [readRecord,read]
      rfl
    · rw [read] at fine
      exact absurd fine refused

-- getRecord gives the record that the page has for its readers.
theorem Owns.getRecord_spec (owns : Owns others b h) (rid : RID) (can : reaches b h rid.pageNo = true) :
    ∃ result h' b', getRecord b h rid = .ok (result,h',b') ∧ Owns others b' h' ∧
      ∀ page, b.view rid.pageNo = some page → (b.readPage rid.pageNo).1 = .ok → result = page.getRecord rid := by
  simp only [reaches,readable,Bool.or_eq_true,decide_eq_true_eq] at can
  by_cases free : h.curPage = none
  · rw [getRecord,if_pos free]
    exact readRecord_spec (owns.alone free) owns.headerPage rid (.inl free)
  rw [getRecord,if_neg free]
  by_cases here : rid.pageNo = h.curPageNo
  · obtain ⟨page,there,seen⟩ := owns.page_there free
    rw [if_pos here,there]
    refine ⟨page.getRecord rid,{h with curRec := rid},b,rfl,owns.congr rfl rfl rfl rfl,fun page' seen' _ => ?_⟩
    rw [here,seen] at seen'
    cases seen'
    rfl
  · rw [if_neg here]
    have fine := can.resolve_left (not_or.mpr ⟨free,here⟩)
    obtain ⟨b1,unpinned,tallied,same⟩ := owns.leave free h.curDirtyFlag
    obtain ⟨result,h',b',read,owns',told⟩ := readRecord_spec tallied owns.headerPage rid
      (.inr (by rw [(same _ here).1]; exact fine))
    refine ⟨result,h',b',by rw [unpinned]; exact read,owns',fun page seen _ => ?_⟩
    exact told page (by rw [(same _ here).2]; exact seen) (by rw [(same _ here).1]; exact fine)

theorem getFirstPage_tallied {pins : Int → Nat} (tallied : b.Tallied pins) :
    b.getFirstPage.2.Tallied pins ∧ b.getFirstPage.2.openCnt = b.openCnt := by
  rw [Pool.getFirstPage]
  cases b.faults.head?.join <;> exact ⟨tallied.nextCall,rfl⟩

-- The number of the header page, or what the member had before when the file does not tell it.
def headerNo (b : Pool) (raw : HeapFile) : Int :=
  match b.getFirstPage.1 with
  | .ok pageNo => pageNo
  | .error _ => raw.headerPageNo

-- The two readPage calls of the constructor succeed.
def reads (b : Pool) (raw : HeapFile) : Bool :=
  match b.getFirstPage.2.readPage (headerNo b raw) with
  | (.ok,b1) =>
    match b1.deref (some (headerNo b raw)) with
    | .ok header => readable b1 (FileHdrPage.firstPage header)
    | .error _ => false
  | _ => false

-- The constructor succeeds.
def opens (b : Pool) (raw : HeapFile) : Bool := b.getFirstPage.1.isOk && reads b raw

theorem opens_reads {raw : HeapFile} (opened : opens b raw = true) :
    reads b raw = true := (Bool.and_eq_true_iff.mp opened).2

-- How the constructor ends once the file is open: with both pages, with the header page alone, or
-- by taking a pointer for the header page that was never set.
inductive Opening (others : Int → Nat) (b : Pool) (raw : HeapFile) (hdr : Int) :
    Bool → Except Abort (Status × HeapFile × Pool) → Prop where
  | both (header : Page) (b' : Pool) (tallied : b'.Tallied
      (others + Pi.single hdr 1 + Pi.single (FileHdrPage.firstPage header) 1))
      (seen : b'.view hdr = some header) (opens : b'.openCnt = b.openCnt) :
      Opening others b raw hdr true (.ok (.ok,fresh hdr (FileHdrPage.firstPage header),b'))
  | noPage (n : Int) (b' : Pool) (tallied : b'.Tallied (others + Pi.single hdr 1)) (opens : b'.openCnt = b.openCnt) :
      Opening others b raw hdr false (.ok (.ok,{fresh hdr n with curPage := raw.curPage},b'))
  | noHeader : Opening others b raw hdr false (.error .undefined)

theorem Opening.of_first {raw : HeapFile} {hdr first : Int} {header : Page} {b' : Pool}
    (is_first : FileHdrPage.firstPage header = first)
    (tallied : b'.Tallied (others + Pi.single hdr 1 + Pi.single first 1)) (seen : b'.view hdr = some header)
    (opens : b'.openCnt = b.openCnt) :
    Opening others b raw hdr true (.ok (.ok,fresh hdr first,b')) := by
  subst is_first
  exact .both header b' tallied seen opens

theorem construct_opening (tallied : b.Tallied others) (raw : HeapFile) :
    Opening others b raw (headerNo b raw) (reads b raw) (construct b raw) := by
  obtain ⟨tallied0,opens0⟩ := getFirstPage_tallied tallied
  rw [construct,reads,headerNo]
  generalize b.getFirstPage = outcome at tallied0 opens0 ⊢
  obtain ⟨first,b0⟩ := outcome
  dsimp only at tallied0 opens0 ⊢
  -- The rest is the same with either number.
  rcases first with status | hdr
  on_goal 1 => generalize raw.headerPageNo = hdr
  all_goals
    dsimp only
    rcases tallied0.readPage hdr with ⟨b1,read1,tallied1,_,opens1,_⟩ | ⟨status1,b1,read1,refused1,_⟩
    · obtain ⟨header,there,seen⟩ := tallied1.deref
      simp only [read1,there,ok_bind]
      generalize is_first : FileHdrPage.firstPage header = first
      rcases tallied1.readPage first with ⟨b2,read2,tallied2,view2,opens2,_⟩ | ⟨status2,b2,read2,refused2,
        tallied2,opens2,_⟩
      · simp only [readable,read2,decide_true]
        exact .of_first is_first tallied2 (by rw [view2]; exact seen) (opens2.trans (opens1.trans opens0))
      · simp only [readable,read2,refused2,decide_false]
        exact .noPage first b2 tallied2 (opens2.trans (opens1.trans opens0))
    · rw [read1]
      cases status1 <;> first | exact absurd rfl refused1 | exact .noHeader

theorem construct_owns (tallied : b.Tallied others) (raw : HeapFile) (reads : reads b raw = true) :
    ∃ h b', construct b raw = .ok (.ok,h,b') ∧ Owns others b' h ∧ h.curPage ≠ none := by
  have opening := construct_opening tallied raw
  rw [reads] at opening
  generalize construct b raw = result at opening
  cases opening with
  | both header b' tallied _ _ => exact ⟨_,b',rfl,owns_fresh tallied,Option.some_ne_none _⟩

end HeapFile

namespace HeapFileScan

variable {others : Int → Nat} {b : Pool} {s : HeapFileScan}

open HeapFile (Owns owns_current owns_alone reaches readable)

-- What a step of a scan leaves: the pins in order, and a page if it has found something.
def Goes (others : Int → Nat) {ε : Type} (r : Except Status ε × HeapFileScan × Pool) : Prop :=
  Owns others r.2.2 r.2.1.toHeapFile ∧ ∀ found, r.1 = .ok found → r.2.1.curPage ≠ none

theorem endScan_owns (owns : Owns others b s.toHeapFile) :
    Owns others (s.endScan b).2.2 (s.endScan b).2.1.toHeapFile := by
  cases cur : s.curPage with
  | none =>
    simp only [endScan,cur]
    exact owns
  | some n =>
    obtain ⟨b',unpinned,tallied,_⟩ := owns.leave (by rw [cur]; exact Option.some_ne_none n) s.curDirtyFlag
    simp only [endScan,cur,unpinned]
    exact owns_alone tallied owns.headerPage rfl

-- The page of the mark is read after the other one has been given back.
theorem reread_owns {b : Pool} (tallied : b.Tallied (others + Pi.single s.headerPageNo 1))
    (header : s.headerPage = some s.headerPageNo)
    (can : s.curPage = none ∨ (b.readPage s.curPageNo).1 = .ok) :
    let r : Status × HeapFileScan × Pool := match b.readPage s.curPageNo with
      | (.ok,b) => (.ok,{s with curPage := some s.curPageNo, curDirtyFlag := false},b)
      | (status,b) => (status,s,b)
    Owns others r.2.2 r.2.1.toHeapFile := by
  rcases tallied.readPage s.curPageNo with ⟨b',read,tallied',_⟩ | ⟨status,b',read,refused,tallied',_⟩
  · simp only [read]
    exact owns_current tallied' header rfl
  · have free : s.curPage = none := by
      rcases can with free | fine
      · exact free
      · rw [read] at fine
        exact absurd fine refused
    simp only [read]
    exact owns_alone tallied' header free

theorem resetScan_owns (owns : Owns others b s.toHeapFile) (can : reaches b s.toHeapFile s.markedPageNo = true) :
    Owns others (s.resetScan b).2.2 (s.resetScan b).2.1.toHeapFile := by
  simp only [reaches,readable,Bool.or_eq_true,decide_eq_true_eq] at can
  by_cases apart : s.markedPageNo ≠ s.curPageNo
  · cases cur : s.curPage with
    | none =>
      simp only [resetScan,if_pos apart,cur,ne_eq,not_true,if_false]
      exact reread_owns (s:={s with curPage := none, curPageNo := s.markedPageNo, curRec := s.markedRec})
        (owns.alone cur)
        owns.headerPage (.inl rfl)
    | some n =>
      have pinned : s.curPage ≠ none := by rw [cur]; exact Option.some_ne_none n
      obtain ⟨b',unpinned,tallied,same⟩ := owns.leave pinned s.curDirtyFlag
      have fine := can.resolve_left (not_or.mpr ⟨pinned,apart⟩)
      simp only [resetScan,if_pos apart,cur,unpinned,ne_eq,not_true,if_false]
      exact reread_owns (s:={s with curPage := some n, curPageNo := s.markedPageNo, curRec := s.markedRec}) tallied owns.headerPage
        (.inr (by rw [(same _ apart).1]; exact fine))
  · simp only [resetScan,if_neg apart]
    exact owns.congr rfl rfl rfl rfl

theorem nextPages_owns (turns : Nat) (owns : Owns others b s.toHeapFile) (cur : s.curPage ≠ none) :
    Safe (Goes others) (nextPages turns b s) := by
  induction turns generalizing b s with
  | zero => rfl
  | succ turns ih =>
    obtain ⟨page,there,_⟩ := owns.page_there cur
    rw [nextPages,there,ok_bind]
    dsimp only
    by_cases last : page.getNextPage = -1
    · rw [if_pos last]
      exact ⟨owns,fun _ none => by cases none⟩
    rw [if_neg last]
    obtain ⟨b1,unpinned,tallied,_⟩ := owns.leave cur s.curDirtyFlag
    simp only [unpinned]
    generalize page.getNextPage = following
    rcases tallied.readPage following with ⟨b2,read,tallied2,_⟩ | ⟨status,b2,read,_,tallied2,_⟩
    · obtain ⟨next,there2,_⟩ := tallied2.deref
      have owns2 : ∀ rid, Owns others b2 {s.toHeapFile with curPage := some following, curPageNo := following, curDirtyFlag := false, curRec := rid} :=
        fun rid => owns_current tallied2 owns.headerPage rfl
      simp only [read,there2,ok_bind]
      cases next.firstRecord with
      | ok rid => exact ⟨owns2 rid,fun _ _ => Option.some_ne_none _⟩
      | error status => exact ih (owns2 s.curRec) (Option.some_ne_none _)
    · simp only [read]
      exact ⟨owns_alone tallied2 owns.headerPage rfl,fun _ none => by cases none⟩

theorem advance_owns (owns : Owns others b s.toHeapFile) (cur : s.curPage ≠ none) :
    Safe (Goes others) (advance b s) := by
  obtain ⟨page,there,_⟩ := owns.page_there cur
  rw [advance,there,ok_bind]
  cases page.nextRecord s.curRec with
  | ok rid => exact ⟨owns.congr rfl rfl rfl rfl,fun _ _ => cur⟩
  | error status => exact nextPages_owns _ owns cur

theorem nextRecords_owns (turns : Nat) (owns : Owns others b s.toHeapFile) (cur : s.curPage ≠ none) :
    Safe (fun r : Except Status RID × HeapFileScan × Pool => Owns others r.2.2 r.2.1.toHeapFile) (nextRecords turns b s) := by
  induction turns generalizing b s with
  | zero => rfl
  | succ turns ih =>
    rw [nextRecords]
    refine (advance_owns owns cur).bind fun r goes => ?_
    obtain ⟨moved,s1,b1⟩ := r
    obtain ⟨owns1,pinned⟩ := goes
    cases moved with
    | error status => exact owns1
    | ok found =>
      obtain ⟨page,there,_⟩ := owns1.page_there (pinned found rfl)
      dsimp only at there ⊢
      rw [there,ok_bind]
      cases page.getRecord s1.curRec with
      | error status => exact owns1
      | ok rec =>
        dsimp only
        split
        · exact owns1
        · exact ih owns1 (pinned found rfl)

theorem scanFirst_owns (owns : Owns others b s.toHeapFile) (free : s.curPage = none) :
    Safe (fun r : Except Status RID × HeapFileScan × Pool => Owns others r.2.2 r.2.1.toHeapFile) (scanFirst b s) := by
  obtain ⟨header,there⟩ := owns.header_there
  have alone := owns.alone free
  rw [scanFirst,there,ok_bind]
  dsimp only
  by_cases none_at_all : FileHdrPage.firstPage header = -1
  · rw [if_pos none_at_all]
    exact owns_alone alone owns.headerPage free
  rw [if_neg none_at_all]
  generalize FileHdrPage.firstPage header = first
  rcases alone.readPage first with ⟨b1,read,tallied1,_⟩ | ⟨status,b1,read,refused,tallied1,_⟩
  · obtain ⟨page,there1,_⟩ := tallied1.deref
    have owns1 : ∀ rid, Owns others b1 {s.toHeapFile with curPage := some first, curPageNo := first, curDirtyFlag := false, curRec := rid} :=
      fun rid => owns_current tallied1 owns.headerPage rfl
    simp only [read,ne_eq,not_true,if_false,there1,ok_bind]
    cases page.firstRecord with
    | error status =>
      obtain ⟨b2,unpinned,tallied2,_⟩ := tallied1.unPinPage false
      simp only [unpinned]
      exact owns_alone tallied2 owns.headerPage rfl
    | ok rid =>
      dsimp only
      cases page.getRecord rid with
      | error status => exact owns1 rid
      | ok rec =>
        dsimp only
        split
        · exact owns1 rid
        · exact nextRecords_owns _ (owns1 rid) (Option.some_ne_none _)
  · simp only [read,if_pos refused]
    exact owns_alone tallied1 owns.headerPage free

theorem scanNext_owns (owns : Owns others b s.toHeapFile) :
    Safe (fun r : Except Status RID × HeapFileScan × Pool => Owns others r.2.2 r.2.1.toHeapFile) (scanNext b s) := by
  rw [scanNext]
  by_cases over_end : s.curPageNo < 0
  · rw [if_pos over_end]
    exact owns
  rw [if_neg over_end]
  by_cases free : s.curPage = none
  · rw [if_pos free]
    exact scanFirst_owns owns free
  · rw [if_neg free]
    exact nextRecords_owns _ owns free

theorem deleteRecord_owns (owns : Owns others b s.toHeapFile) (cur : s.curPage ≠ none) :
    Safe (fun r : Status × HeapFileScan × Pool => Owns others r.2.2 r.2.1.toHeapFile) (deleteRecord b s) := by
  obtain ⟨page,there,_⟩ := owns.page_there cur
  have owns1 := owns.assign_page (page.deleteRecord s.curRec).2
  obtain ⟨header,there1⟩ := owns1.header_there
  rw [deleteRecord,there,ok_bind]
  dsimp only
  rw [there1,ok_bind]
  exact (owns1.assign_header _).congr rfl rfl rfl rfl

end HeapFileScan

namespace InsertFileScan

variable {others : Int → Nat} {b : Pool} {s : InsertFileScan}

open HeapFile (Owns owns_current owns_alone)

theorem counted_owns (owns : Owns others b s.toHeapFile) :
    ∃ b', counted b s = .ok (⟨{s.toHeapFile with hdrDirtyFlag := true, curDirtyFlag := true}⟩,b') ∧
      Owns others b' {s.toHeapFile with hdrDirtyFlag := true, curDirtyFlag := true} := by
  obtain ⟨header,there⟩ := owns.header_there
  exact ⟨_,by rw [counted,there,ok_bind]; rfl,(owns.assign_header _).congr rfl rfl rfl rfl⟩

-- A new page comes with a pin; the full page is given back.
theorem linkNewPage_owns (owns : Owns others b s.toHeapFile) (cur : s.curPage ≠ none) :
    ∃ result s' b', linkNewPage b s = .ok (result,s',b') ∧ Owns others b' s'.toHeapFile ∧ s'.curPage ≠ none := by
  rcases owns.tallied.allocPage with ⟨m,b1,allocated,tallied1⟩ | ⟨status,b1,failed,tallied1⟩
  · obtain ⟨garbage,there1,_⟩ := tallied1.deref
    have tallied2 := tallied1.assign ((garbage.init m).setNextPage (-1))
    -- To the object the new page is as if another client had it.
    rw [add_right_comm] at tallied2
    have owns2 : Owns (others + Pi.single m 1) (b1.assign (some m) ((garbage.init m).setNextPage (-1))) s.toHeapFile :=
      ⟨tallied2,owns.headerPage,owns.current⟩
    obtain ⟨header,there2⟩ := owns2.header_there
    have owns3 := owns2.assign_header
      (FileHdrPage.setPageCnt (FileHdrPage.setLastPage header m)
        (FileHdrPage.pageCnt (FileHdrPage.setLastPage header m) + 1))
    obtain ⟨page,there3,_⟩ := owns3.page_there cur
    have owns4 := owns3.assign_page (page.setNextPage m)
    obtain ⟨b5,unpinned,tallied5,_⟩ := owns4.leave cur true
    rw [add_right_comm] at tallied5
    refine ⟨.ok (),⟨{s.toHeapFile with hdrDirtyFlag := true, curPage := some m, curPageNo := m}⟩,b5,?_,
      owns_current tallied5 owns.headerPage rfl,Option.some_ne_none m⟩
    simp only [linkNewPage,allocated,there1,ok_bind,there2,there3,unpinned]
    rfl
  · exact ⟨.error status,s,b1,by simp only [linkNewPage,failed]; rfl,⟨tallied1,owns.headerPage,owns.current⟩,cur⟩

theorem insertOnNewPage_owns (owns : Owns others b s.toHeapFile) (cur : s.curPage ≠ none) (rec : Record) :
    ∃ result s' b', insertOnNewPage b s rec = .ok (result,s',b') ∧ Owns others b' s'.toHeapFile := by
  obtain ⟨linked,s1,b1,ran,owns1,cur1⟩ := linkNewPage_owns owns cur
  rw [insertOnNewPage,ran,ok_bind]
  cases linked with
  | error status => exact ⟨.error status,s1,b1,rfl,owns1⟩
  | ok _ =>
    obtain ⟨page,there,_⟩ := owns1.page_there cur1
    obtain ⟨b2,counts,owns2⟩ := counted_owns (owns1.assign_page (page.insertRecord rec).2.2)
    dsimp only
    rw [there,ok_bind]
    generalize page.insertRecord rec = outcome at counts
    obtain ⟨status,slot,page'⟩ := outcome
    cases status with
    | ok =>
      cases slot with
      | some rid => exact ⟨_,_,_,by dsimp only; rw [counts]; rfl,owns2⟩
      | none => exact ⟨_,s1,b1,rfl,owns1⟩
    | _ => exact ⟨_,s1,b1,rfl,owns1⟩

theorem insertOnCurrentPage_owns (owns : Owns others b s.toHeapFile) (cur : s.curPage ≠ none) (rec : Record) :
    ∃ result s' b', insertOnCurrentPage b s rec = .ok (result,s',b') ∧ Owns others b' s'.toHeapFile := by
  obtain ⟨page,there,_⟩ := owns.page_there cur
  obtain ⟨b1,counts,owns1⟩ := counted_owns (owns.assign_page (page.insertRecord rec).2.2)
  rw [insertOnCurrentPage,there,ok_bind]
  generalize page.insertRecord rec = outcome at counts
  obtain ⟨status,slot,page'⟩ := outcome
  cases status with
  | ok =>
    cases slot with
    | some rid => exact ⟨_,_,_,by dsimp only; rw [counts]; rfl,owns1⟩
    | none => exact insertOnNewPage_owns owns cur rec
  | _ => exact insertOnNewPage_owns owns cur rec

theorem insertRecord_owns (owns : Owns others b s.toHeapFile) (rec : Record) :
    ∃ result s' b', insertRecord b s rec = .ok (result,s',b') ∧ Owns others b' s'.toHeapFile := by
  rw [insertRecord]
  by_cases long : rec.length % 2 ^ 32 > dataSize
  · exact ⟨_,s,b,by rw [if_pos long]; rfl,owns⟩
  rw [if_neg long]
  by_cases free : s.curPage = none
  · obtain ⟨header,there⟩ := owns.header_there
    rw [if_pos free,there,ok_bind]
    dsimp only
    generalize FileHdrPage.lastPage header = last
    rcases (owns.alone free).readPage last with ⟨b1,read,tallied1,_⟩ | ⟨status,b1,read,_,tallied1,_⟩
    · have owns1 : Owns others b1 {s.toHeapFile with curPage := some last, curPageNo := last} :=
        owns_current tallied1 owns.headerPage rfl
      simp only [read]
      exact insertOnCurrentPage_owns owns1 (Option.some_ne_none last) rec
    · refine ⟨.error status,⟨{s.toHeapFile with curPageNo := last}⟩,b1,?_,owns_alone tallied1 owns.headerPage free⟩
      simp only [read]
      rfl
  · rw [if_neg free]
    exact insertOnCurrentPage_owns owns free rec

def succeeds (b : Pool) (raw : InsertFileScan) : Bool :=
  match construct b raw with
  | .ok (status,_,_) => decide (status = .ok)
  | .error _ => false

theorem construct_owns (tallied : b.Tallied others) (raw : InsertFileScan)
    (reads : HeapFile.reads b raw.toHeapFile = true)
    (succeeds : succeeds b raw = true) :
    ∃ s b', construct b raw = .ok (.ok,s,b') ∧ Owns others b' s.toHeapFile := by
  obtain ⟨h,b1,opened,owns,cur⟩ := HeapFile.construct_owns tallied raw.toHeapFile reads
  obtain ⟨header,there⟩ := owns.header_there
  rw [InsertFileScan.succeeds] at succeeds
  rw [construct,opened,ok_bind] at succeeds ⊢
  dsimp only at succeeds ⊢
  rw [there,ok_bind] at succeeds ⊢
  generalize FileHdrPage.lastPage header = last at succeeds ⊢
  by_cases elsewhere : h.curPage ≠ none ∧ h.curPageNo ≠ last
  · obtain ⟨b2,unpinned,tallied2,_⟩ := owns.leave cur h.curDirtyFlag
    rw [if_pos elsewhere,unpinned] at succeeds ⊢
    dsimp only at succeeds ⊢
    rcases tallied2.readPage (last) with ⟨b3,read3,tallied3,_⟩ | ⟨status,b3,read3,refused,_⟩
    · refine ⟨⟨{h with curPage := some (last), curPageNo := last, curDirtyFlag := false}⟩,b3,?_,
        owns_current tallied3 owns.headerPage rfl⟩
      rw [read3]
      rfl
    · rw [read3] at succeeds
      cases status <;> first | exact absurd rfl refused | cases succeeds
  · exact ⟨⟨h⟩,b1,by rw [if_neg elsewhere]; rfl,owns⟩

end InsertFileScan

end Minirel
