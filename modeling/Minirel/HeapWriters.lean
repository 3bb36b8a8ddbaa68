import Minirel.ScanRuns

namespace Minirel
open ByteMemory SlotDirectory Page Heap

def Turn.rid? : Turn → Option RID
  | .record rid _ _ => some rid
  | .stopped _ => none

theorem at_index {α : Type} {xs : List α} {a : α} {i : Nat} (there : xs[i]? = some a) :
    ∃ l r, xs = l ++ a::r ∧ i = l.length := by
  obtain ⟨inside,here⟩ := List.getElem?_eq_some_iff.mp there
  exact ⟨xs.take i,xs.drop (i+1),by rw [← here,← List.drop_eq_getElem_cons inside,List.take_append_drop],
    (List.length_take_of_le (Nat.le_of_lt inside)).symm⟩

-- Clients that have one file open for inserting at the same time, and what they were told.
structure Writers where
  pool : Pool
  scans : List InsertFileScan
  ledger : List Entry

inductive WriterCall where
  | openScan
  | insertRecord (scan : Nat) (bytes : List UInt8)
  | closeScan (scan : Nat)
  deriving DecidableEq,Repr

namespace Writers

def noted (ledger : List Entry) (bytes : List UInt8) : Except Status RID → List Entry
  | .ok rid => ledger ++ [(rid,bytes)]
  | .error _ => ledger

def step (raw : InsertFileScan) (w : Writers) : WriterCall → Except Abort Writers
  | .openScan => do
    let (_,b) := w.pool.openFile
    let (_,s,b) ← InsertFileScan.construct b raw
    return ⟨b,w.scans ++ [s],w.ledger⟩
  | .insertRecord i bytes =>
    match w.scans[i]? with
    | none => return w
    | some s => do
      let (result,s,b) ← InsertFileScan.insertRecord w.pool s (.of bytes)
      return ⟨b,w.scans.set i s,noted w.ledger bytes result⟩
  | .closeScan i =>
    match w.scans[i]? with
    | none => return w
    | some s => return ⟨s.destroy w.pool,w.scans.eraseIdx i,w.ledger⟩

def run (raw : InsertFileScan) : Writers → List WriterCall → Except Abort Writers
  | w,[] => return w
  | w,call::rest => do run raw (← step raw w call) rest

-- The page the scan stands on has room, or is the one the header page has as the last.
def fitsOrLast (b : Pool) (s : InsertFileScan) (bytes : List UInt8) : Bool :=
  match b.deref s.curPage,b.deref s.headerPage with
  | .ok page,.ok header =>
    decide (bytes.length + slotSize ≤ page.freeSpace) || decide (s.curPageNo = FileHdrPage.lastPage header)
  | _,_ => false

def linksLast (w : Writers) : WriterCall → Bool
  | .insertRecord i bytes =>
    decide (1 ≤ bytes.length ∧ bytes.length < 2 ^ 31) && (decide (dataSize < bytes.length) || w.scans[i]?.all
      (fitsOrLast w.pool · bytes))
  | _ => true

def linksAll (raw : InsertFileScan) : Writers → List WriterCall → Bool
  | _,[] => true
  | w,call::rest => w.linksLast call && match step raw w call with
    | .ok w' => linksAll raw w' rest
    | .error _ => true

-- What the open scans hold of the file, besides the holds in k.
def grasp (k : Pool.Books) (s : InsertFileScan) : Pool.Books :=
    (k.opened.hold k.first s.hdrDirtyFlag).hold s.curPageNo true

def holds (k : Pool.Books) : List InsertFileScan → Pool.Books
  | [] => k
  | s::rest => grasp (holds k rest) s

variable {k : Pool.Books} {s : InsertFileScan} {l r : List InsertFileScan}

@[simp] theorem holds_first (k : Pool.Books) (scans : List InsertFileScan) : (holds k scans).first = k.first := by
  induction scans with
  | nil => rfl
  | cons s rest ih => exact ih

theorem holds_owned (owned : k.Owned) (scans : List InsertFileScan) : (holds k scans).Owned := by
  induction scans with
  | nil => exact owned
  | cons s rest ih =>
    have opened : (holds k rest).opened.Owned := ih
    exact (opened.hold _ _).hold _ _

theorem grasp_comm (k : Pool.Books) (s t : InsertFileScan) : grasp (grasp k s) t = grasp (grasp k t) s := by
  have flat : ∀ s t : InsertFileScan, grasp (grasp k s) t =
      (((k.opened.opened.hold k.first s.hdrDirtyFlag).hold s.curPageNo true).hold k.first t.hdrDirtyFlag).hold
      t.curPageNo true :=
    fun _ _ => rfl
  rw [flat,flat]
  exact Pool.Books.hold_two_comm ..

-- It does not matter who came first.
theorem holds_middle (k : Pool.Books) (l r : List InsertFileScan) (s : InsertFileScan) :
    holds k (l ++ s::r) = grasp (holds k (l ++ r)) s := by
  induction l with
  | nil => rfl
  | cons t rest ih => rw [List.cons_append,holds,ih,grasp_comm]; rfl

structure Placed (k : Pool.Books) (heap : Heap) (s : InsertFileScan) : Prop where
  member : s.curPageNo ∈ pageNos heap
  headerPage : s.headerPage = some k.first
  headerPageNo : s.headerPageNo = k.first
  curPage : s.curPage = some s.curPageNo

-- Whatever the scans stand on is a page of the chain.
structure Together (k : Pool.Books) (recCnt : Int) (heap : Heap) (w : Writers) : Prop where
  kept : w.pool.Keeps (holds k w.scans)
  stored : Stored w.pool.view k.first heap recCnt
  placed : ∀ s ∈ w.scans, Placed k heap s
  ledger : (records heap).Perm w.ledger

variable {recCnt recCnt' : Int} {heap heap' : Heap} {b : Pool} {ledger : List Entry} {w : Writers}

theorem Together.standing (together : Together k recCnt heap ⟨b,l ++ s::r,ledger⟩) :
    InsertFileScan.Standing (holds k (l ++ r)).opened recCnt b s heap s.curPageNo := by
  have kept := together.kept
  have placed := together.placed s (by simp)
  dsimp only at kept
  rw [holds_middle] at kept
  have first : (holds k (l ++ r)).opened.first = k.first := holds_first k (l ++ r)
  exact ⟨kept,by rw [first]; exact together.stored,placed.member,by rw [first]; exact placed.headerPage,
    by rw [first]; exact placed.headerPageNo,placed.curPage,rfl⟩

-- Back from one scan to all of them; the pages of the chain have not become fewer.
theorem Together.of_standing {n : Int} (standing : InsertFileScan.Standing (holds k (l ++ r)).opened recCnt b s heap' n)
    (others : ∀ t ∈ l ++ r, Placed k heap t) (more : pageNos heap ⊆ pageNos heap')
    (same : (records heap').Perm ledger) :
    Together k recCnt heap' ⟨b,l ++ s::r,ledger⟩ := by
  have first : (holds k (l ++ r)).opened.first = k.first := holds_first k (l ++ r)
  obtain ⟨kept,stored,member,header,headerNo,cur,curNo⟩ := standing
  rw [first] at stored header headerNo
  constructor
  case kept =>
    dsimp only
    rw [holds_middle,grasp,curNo]
    exact kept
  case stored => exact stored
  case placed =>
    intro t inside
    have still : t ∈ l ++ r → Placed k heap' t := fun other =>
      ⟨more (others t other).member,(others t other).headerPage,(others t other).headerPageNo,(others t other).curPage⟩
    rcases List.mem_append.mp inside with left | here_or_right
    · exact still (List.mem_append_left _ left)
    · rcases List.mem_cons.mp here_or_right with rfl | right
      · exact ⟨by rw [curNo]; exact member,header,headerNo,by rw [cur,curNo]⟩
      · exact still (List.mem_append_right _ right)
  case ledger => exact same

theorem Together.others (together : Together k recCnt heap ⟨b,l ++ s::r,ledger⟩) : ∀ t ∈ l ++ r, Placed k heap t := by
  intro t inside
  refine together.placed t ?_
  rcases List.mem_append.mp inside with left | right
  · exact List.mem_append_left _ left
  · exact List.mem_append_right _ (List.mem_cons_of_mem _ right)

theorem noted_perm {l : List Entry} {rid : RID} {bytes : List UInt8} (perm : l.Perm ((rid,bytes)::ledger)) :
    l.Perm (noted ledger bytes (.ok rid)) := perm.trans (List.perm_append_singleton _ _).symm

theorem pageNos_grow (heap more : Heap) : pageNos heap ⊆ pageNos (heap ++ more) := by
  rw [pageNos_append]
  exact List.subset_append_left _ _

-- What insertRecord has done to the records of the file and to their count.
inductive Told (recCnt : Int) (heap : Heap) (bytes : List UInt8) : Except Status RID → Int → Heap → Prop where
  | stored (rid : RID) (heap' : Heap) (perm : (records heap').Perm ((rid,bytes)::records heap)) :
      Told recCnt heap bytes (.ok rid) (Int.bmod (recCnt + 1) (256 ^ 4)) heap'
  | refused (status : Status) (heap' : Heap) (same : records heap' = records heap) : Told recCnt heap bytes
      (.error status) recCnt heap'

-- One insert, seen by the scan that makes it.
theorem insertRecord_told {bytes : List UInt8} (owned : k.Owned)
    (standing : InsertFileScan.Standing k recCnt b s heap s.curPageNo) (positive : 1 ≤ bytes.length)
    (int : bytes.length < 2 ^ 31)
    (meets : dataSize < bytes.length ∨ fitsOrLast b s bytes = true) :
    ∃ recCnt' heap' result s' b' n', InsertFileScan.insertRecord b s (.of bytes) = .ok (result,s',b') ∧
      InsertFileScan.Standing k recCnt' b' s' heap' n' ∧ pageNos heap ⊆ pageNos heap' ∧
        Told recCnt heap bytes result recCnt' heap' := by
  have full : bytes ≠ [] := List.ne_nil_of_length_pos positive
  rcases meets with long | meets
  · have refused : (Record.of bytes).length % 2 ^ 32 > dataSize := by
      dsimp only [Record.of]
      omega
    exact ⟨recCnt,heap,.error .invalidRecLen,s,b,_,by rw [InsertFileScan.insertRecord,if_pos refused]; rfl,standing,
      List.Subset.refl _,.refused _ _ rfl⟩
  obtain ⟨⟨n,d⟩,inside,here⟩ := List.mem_map.mp standing.member
  obtain ⟨before,after,rfl⟩ := List.append_of_mem inside
  dsimp only at here
  rw [← here] at standing
  obtain ⟨page,_,read,held,_⟩ := standing.page
  obtain ⟨header,at_header,_⟩ := standing.stored.header
  have read_header : b.deref s.headerPage = .ok header := by
    rw [standing.headerPage]
    have kept := standing.kept
    rw [Pool.Books.hold_comm] at kept
    exact kept.deref at_header
  rw [fitsOrLast,read,read_header] at meets
  simp only [Bool.or_eq_true,decide_eq_true_eq,← here] at meets
  rcases meets with room | at_end
  · rw [held.freeSpace_eq] at room
    obtain ⟨b',inserted,standing'⟩ := standing.insert_room full room
    exact ⟨_,_,_,_,b',n,inserted,standing',by simp,.stored _ _ (records_put_at before after n d bytes)⟩
  · -- The last page of the chain: whatever happens, the page behind it is linked properly.
    have only : after = [] := standing.stored.at_end at_header at_end
    subst only
    have outcome := standing.inserting.insertRecord_spec owned full int
    generalize InsertFileScan.insertRecord b s (.of bytes) = result at outcome ⊢
    cases outcome with
    | here b' s' done => exact ⟨_,_,_,s',b',n,rfl,done.standing,by simp,.stored _ _ (records_put before n d bytes)⟩
    | newPage b' s' m done =>
      refine ⟨_,_,_,s',b',m,rfl,done.standing,pageNos_grow _ _,.stored _ _ ?_⟩
      have perm := records_put (before ++ [(n,d)]) m [] bytes
      rw [records_linked] at perm
      exact perm
    | refused b' s' status _ still => exact ⟨_,_,_,s',b',n,rfl,still.standing,by simp,.refused _ _ rfl⟩
    | tooLong b' s' m _ still =>
      exact ⟨_,_,_,s',b',m,rfl,still.standing,pageNos_grow _ _,.refused _ _ (records_linked _ m)⟩

theorem insertRecord_spec {bytes : List UInt8} (owned : k.Owned)
    (together : Together k recCnt heap ⟨b,l ++ s::r,ledger⟩)
    (positive : 1 ≤ bytes.length) (int : bytes.length < 2 ^ 31) (meets : dataSize < bytes.length ∨
      fitsOrLast b s bytes = true) :
    ∃ recCnt' heap' result s' b', InsertFileScan.insertRecord b s (.of bytes) = .ok (result,s',b') ∧
      Together k recCnt' heap' ⟨b',l ++ s'::r,noted ledger bytes result⟩ := by
  have owned' : (holds k (l ++ r)).opened.Owned := holds_owned owned (l ++ r)
  obtain ⟨recCnt',heap',result,s',b',n',inserted,standing',more,told⟩ :=
    insertRecord_told owned' together.standing positive int meets
  refine ⟨recCnt',heap',result,s',b',inserted,Together.of_standing standing' together.others more ?_⟩
  cases told with
  | stored rid heap' perm => exact noted_perm (perm.trans (together.ledger.cons _))
  | refused status heap' same =>
    rw [same]
    exact together.ledger

theorem step_spec {call : WriterCall} (owned : k.Owned) (raw : InsertFileScan) (together : Together k recCnt heap w)
    (meets : w.linksLast call = true) : ∃ recCnt' heap' w', step raw w call = .ok w' ∧ Together k recCnt' heap' w' := by
  obtain ⟨b,scans,ledger⟩ := w
  cases call with
  | openScan =>
    obtain ⟨b1,opened,kept1,view1⟩ := together.kept.openFile
    have owned' : (holds k scans).opened.Owned := holds_owned owned scans
    have first : (holds k scans).opened.first = k.first := holds_first k scans
    obtain ⟨b2,s2,before,n,d,constructed,rfl,inserting,_⟩ :=
      InsertFileScan.construct_spec owned' kept1 (by rw [view1,first]; exact together.stored) raw
    have standing := inserting.standing
    rw [← List.append_nil scans] at standing
    refine ⟨_,_,⟨b2,scans ++ [s2],ledger⟩,?_,
      Together.of_standing standing (by rw [List.append_nil]; exact together.placed) (List.Subset.refl _)
        together.ledger⟩
    simp only [step,opened,constructed,ok_bind]
    rfl
  | insertRecord i bytes =>
    cases there : scans[i]? with
    | none => exact ⟨recCnt,heap,_,by simp only [step,there]; rfl,together⟩
    | some s =>
      obtain ⟨l,r,rfl,rfl⟩ := at_index there
      simp only [linksLast,there,Option.all_some,Bool.and_eq_true,Bool.or_eq_true,decide_eq_true_eq] at meets
      obtain ⟨⟨positive,int⟩,fits⟩ := meets
      obtain ⟨recCnt',heap',result,s',b',inserted,together'⟩ := insertRecord_spec owned together positive int fits
      refine ⟨recCnt',heap',_,?_,together'⟩
      simp only [step,there,inserted,ok_bind,List.set_append_right _ _ (Nat.le_refl _),Nat.sub_self,List.set_cons_zero]
      rfl
  | closeScan i =>
    cases there : scans[i]? with
    | none => exact ⟨recCnt,heap,_,by simp only [step,there]; rfl,together⟩
    | some s =>
      obtain ⟨l,r,rfl,rfl⟩ := at_index there
      obtain ⟨kept,view⟩ := together.standing.destroy_spec (holds_owned owned (l ++ r))
      refine ⟨recCnt,heap,⟨s.destroy b,l ++ r,ledger⟩,?_,kept,
        by dsimp only; rw [view]; exact together.stored,together.others,
        together.ledger⟩
      simp only [step,there,List.eraseIdx_append_of_length_le (Nat.le_refl _),Nat.sub_self,List.eraseIdx_cons_zero]
      rfl

theorem run_spec {calls : List WriterCall} (owned : k.Owned) (raw : InsertFileScan)
    (together : Together k recCnt heap w)
    (meets : linksAll raw w calls = true) : ∃ recCnt' heap' w', run raw w calls = .ok w' ∧
    Together k recCnt' heap' w' := by
  induction calls generalizing recCnt heap w with
  | nil => exact ⟨recCnt,heap,w,rfl,together⟩
  | cons call rest ih =>
    rw [linksAll,Bool.and_eq_true] at meets
    obtain ⟨recCnt1,heap1,w1,stepped,together1⟩ := step_spec owned raw together meets.1
    have later := meets.2
    rw [stepped] at later
    obtain ⟨recCnt2,heap2,w2,done,together2⟩ := ih together1 later
    exact ⟨recCnt2,heap2,w2,by rw [run,stepped]; exact done,together2⟩

-- Whoever scans the file finds every record that insertRecord has reported as stored.
def NothingLost (raw : HeapFileScan) (w : Writers) : Prop :=
  ∀ n, ∃ found seen b', found.Perm w.ledger ∧
    HeapFileScan.session w.pool raw 0 0 (some .string) none .eq (fun _ _ => false) n = .ok (seen,b') ∧ seen.length = n ∧
    HeapFileScan.Visits (fun _ _ => false) found seen

-- However many have the file open: as long as nobody links a page behind one that is not the last,
-- the chain has every record.
theorem writers_lose_nothing_linking_last (k : Pool.Books) (heap : Heap) (recCnt : Int) (raw : HeapFileScan) (b : Pool)
    (ledger : List Entry) (kept : b.Keeps k) (owned : k.Owned) (stored : Stored b.view k.first heap recCnt)
    (same : (records heap).Perm ledger) (calls : List WriterCall)
    (meets : linksAll ⟨raw.toHeapFile⟩ ⟨b,[],ledger⟩ calls = true) :
    ∃ w, run ⟨raw.toHeapFile⟩ ⟨b,[],ledger⟩ calls = .ok w ∧
      (∃ heap' recCnt', Stored w.pool.view k.first heap' recCnt' ∧ (records heap').Perm w.ledger) ∧
      (w.scans = [] → NothingLost raw w) := by
  obtain ⟨recCnt',heap',w,done,together⟩ := run_spec owned ⟨raw.toHeapFile⟩ ⟨kept,stored,by simp,same⟩ meets
  refine ⟨w,done,⟨heap',recCnt',together.stored,together.ledger⟩,fun closed n => ?_⟩
  have kept' := together.kept
  rw [closed] at kept'
  obtain ⟨seen,b',scanned,length,visits⟩ := HeapFileScan.full_scan_spec owned kept' together.stored raw n
  exact ⟨records heap',seen,b',together.ledger,scanned,length,visits⟩

def emptyFile : Pool := ((Pool.created fun _ => zero 1024).createHeapFile [114]).toOption.elim
    (.created fun _ => zero 1024) Prod.snd

theorem emptyFile_stored : ∃ hdr n, emptyFile.Keeps {Pool.Books.unused with first := hdr} ∧
    Stored emptyFile.view hdr [(n,[])] 0 := by
  obtain ⟨hdr,n,b,created,kept,stored⟩ := createHeapFile_spec (fun _ => zero 1024) [114]
  have same : emptyFile = b := by rw [emptyFile,created]; rfl
  rw [same]
  exact ⟨hdr,n,kept,stored⟩

def rawScan : HeapFileScan := ⟨HeapFile.fresh 0 0,none,0,nullRid⟩

-- The second writer links a page, and the first one closes in time.
theorem writers_lose_nothing_linking_last_two :
    let calls := [.openScan,.openScan,.insertRecord 0 [1],.insertRecord 1 (List.replicate 996 2),.closeScan 0,
      .insertRecord 0 [3],.closeScan 0]
    ∃ w, run ⟨rawScan.toHeapFile⟩ ⟨emptyFile,[],[]⟩ calls = .ok w ∧ (w.scans = [] → NothingLost rawScan w) := by
  intro calls
  obtain ⟨hdr,n,kept,stored⟩ := emptyFile_stored
  obtain ⟨w,done,_,lossless⟩ := writers_lose_nothing_linking_last _ _ _ rawScan emptyFile [] kept
    (fun _ marked => False.elim marked) stored (by rfl) calls (by decide +kernel)
  exact ⟨w,done,lossless⟩

-- Both link a page behind the first one; the page linked earlier is lost.
def overlapping : List WriterCall :=
  [.openScan,.openScan,.insertRecord 0 (List.replicate 996 1),.insertRecord 1 [2],.insertRecord 0 [3],
    .closeScan 0,.closeScan 0]

theorem writers_lose_a_page : ∃ w, run ⟨rawScan.toHeapFile⟩ ⟨emptyFile,[],[]⟩ overlapping = .ok w ∧
    w.scans = [] ∧ ¬ NothingLost rawScan w := by
  have ran : ((run ⟨rawScan.toHeapFile⟩ ⟨emptyFile,[],[]⟩ overlapping).toOption.map fun w =>
      (w.scans.length,w.ledger.length,(HeapFileScan.session w.pool rawScan 0 0 (some .string) none .eq
        (fun _ _ => false) 3).toOption.map
        fun r => r.1.map Turn.rid?)) = some (0,3,some [some ⟨2,0⟩,some ⟨4,0⟩,none]) := by decide +kernel
  obtain ⟨w,done,facts⟩ := Option.map_eq_some_iff.mp ran
  simp only [Prod.mk.injEq] at facts
  obtain ⟨closed,three,turns⟩ := facts
  refine ⟨w,?_,List.length_eq_zero_iff.mp closed,fun lossless => ?_⟩
  · generalize run ⟨rawScan.toHeapFile⟩ ⟨emptyFile,[],[]⟩ overlapping = result at done
    cases result with
    | error a => cases done
    | ok w' => cases done; rfl
  · obtain ⟨found,seen,b',same,scanned,length,visits⟩ := lossless 3
    have all := same.length_eq.trans three
    rw [scanned] at turns
    have third := visits.records 2 (by omega) (by omega)
    have listed : seen.map Turn.rid? = [some ⟨2,0⟩,some ⟨4,0⟩,none] := Option.some.inj turns
    have here : (seen.map Turn.rid?)[2]? = some none := by rw [listed]; rfl
    rw [List.getElem?_map,third] at here
    cases here

end Writers
end Minirel
