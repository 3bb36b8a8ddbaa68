import Minirel.HeapScan
import Minirel.HeapInsert

namespace Minirel
open ByteMemory SlotDirectory Page Heap

-- One turn of a client that scans: what scanNext and getRecord gave, and what deleteRecord
-- returned if the client went on to call it.
inductive Turn where
  | record (rid : RID) (rec : Except Status Record) (deleted : Option Status)
  | stopped (status : Status)

-- The client decides from all it has seen whether to delete the record it stands on.
abbrev Strategy := List Turn → RID → Bool

def deletedRids (turns : List Turn) : List RID :=
  turns.filterMap fun
    | .record rid _ (some .ok) => some rid
    | _ => none

namespace HeapFileScan

def turn (b : Pool) (s : HeapFileScan) (strategy : Strategy) (seen : List Turn) :
    Except Abort (Turn × HeapFileScan × Pool) := do
  let (result,s,b) ← scanNext b s
  match result with
  | .error status => return (.stopped status,s,b)
  | .ok rid =>
    let rec ← getRecord b s
    if strategy seen rid then
      let (status,s,b) ← deleteRecord b s
      return (.record rid rec (some status),s,b)
    else return (.record rid rec none,s,b)

-- Any number of turns, at the end of the file too.
def turns (strategy : Strategy) (b : Pool) (s : HeapFileScan) : Nat → Except Abort (List Turn × HeapFileScan × Pool)
  | 0 => return ([],s,b)
  | n+1 => do
    let (seen,s,b) ← turns strategy b s n
    let (now,s,b) ← turn b s strategy seen
    return (seen ++ [now],s,b)

-- A whole scan: from db.openFile in the constructor to db.closeFile in the destructor.
def session (b : Pool) (s : HeapFileScan) (offset length : Int) (type : Option Datatype) (filter : Option (List UInt8))
    (op : Operator) (strategy : Strategy) (n : Nat) : Except Abort (List Turn × Pool) := do
  let (_,b) := b.openFile
  let (_,s,b) ← construct b s
  let (_,s) := s.startScan offset length type filter op
  let (seen,s,b) ← turns strategy b s n
  return (seen,destroy b s)

-- The turns of a scan that gives each of these entries once and in order, and then stops for good.
structure Visits (strategy : Strategy) (wanted : List Entry) (seen : List Turn) : Prop where
  records : ∀ i (_ : i < seen.length) (h : i < wanted.length), seen[i]? =
    some (.record wanted[i].1 (.ok (.of wanted[i].2)) (if strategy (seen.take i) wanted[i].1 then some .ok else none))
  stopped : ∀ i, i < seen.length → wanted.length ≤ i → seen[i]? = some (.stopped .fileEof)

theorem Visits.snoc {strategy : Strategy} {wanted : List Entry} {seen : List Turn} {now : Turn}
    (visits : Visits strategy wanted seen)
    (record : ∀ h : seen.length < wanted.length, now = .record wanted[seen.length].1 (.ok (.of wanted[seen.length].2))
      (if strategy seen wanted[seen.length].1 then some .ok else none))
    (stop : wanted.length ≤ seen.length → now = .stopped .fileEof) : Visits strategy wanted (seen ++ [now]) := by
  constructor
  · intro i below inside
    rw [List.length_append,List.length_singleton] at below
    rcases Nat.lt_or_eq_of_le (Nat.le_of_lt_succ below) with old | rfl
    · rw [List.getElem?_append_left old,List.take_append_of_le_length (Nat.le_of_lt old)]
      exact visits.records i old inside
    · rw [List.getElem?_append_right (Nat.le_refl _),List.take_left,Nat.sub_self,record inside]
      rfl
  · intro i below past
    rw [List.length_append,List.length_singleton] at below
    rcases Nat.lt_or_eq_of_le (Nat.le_of_lt_succ below) with old | rfl
    · rw [List.getElem?_append_left old]
      exact visits.stopped i old past
    · rw [List.getElem?_append_right (Nat.le_refl _),Nat.sub_self,stop past]
      rfl

variable {k : Pool.Books} {recCnt : Int} {b : Pool} {s : HeapFileScan} {heap : Heap} {filter : Option Condition}

def accepts (filter : Option Condition) (bytes : List UInt8) : Bool := filter.all fun c => c.matchRec (.of bytes)

theorem matchRec_accepts (same : s.filter = filter) (bytes : List UInt8) :
    s.matchRec (.of bytes) = accepts filter bytes := by
  subst same
  rw [matchRec,accepts]
  cases s.filter <;> rfl

-- A scan without a condition goes from record to record and skips none.
theorem scanNext_current {c : Cursor} (owned : k.Owned) (scanning : Scanning k recCnt b s c) (clear : s.filter = none) :
    ∃ b' s' c', Moves k recCnt b s c b' s' c' ∧ s'.filter = none ∧
      ((scanNext b s = .ok (.error .fileEof,s',b') ∧ c.remaining = [] ∧ c'.remaining = []) ∨
        ∃ bytes, scanNext b s = .ok (.ok s'.curRec,s',b') ∧ c.remaining = (s'.curRec,bytes)::c'.remaining ∧
          c'.Current (s'.curRec,bytes)) := by
  have all : ∀ bytes, s.matchRec (.of bytes) = true := fun bytes => by rw [matchRec_accepts clear]; rfl
  obtain ⟨b',s',c',moves,finds⟩ := scanNext_spec owned scanning
  refine ⟨b',s',c',moves,moves.filter.trans clear,?_⟩
  generalize found : scanNext b s = outcome at finds
  cases finds with
  | eof passed done =>
    refine .inl ⟨rfl,List.eq_nil_iff_forall_not_mem.mpr fun e member => ?_,done⟩
    have refused := passed e member
    rw [all] at refused
    cases refused
  | record skipped bytes remaining passed accepted current =>
    have none_skipped : skipped = [] := by
      apply List.eq_nil_iff_forall_not_mem.mpr
      intro e member
      have refused := passed e member
      rw [all] at refused
      cases refused
    rw [none_skipped,List.nil_append] at remaining
    exact .inr ⟨bytes,rfl,remaining,current⟩

theorem scanNext_all {c : Cursor} (owned : k.Owned) (scanning : Scanning k recCnt b s c)
    (clear : s.filter = none) :
    ∃ b' s' c', Moves k recCnt b s c b' s' c' ∧ s'.filter = none ∧
      ((scanNext b s = .ok (.error .fileEof,s',b') ∧ c.remaining = [] ∧ c'.remaining = []) ∨
        ∃ bytes, scanNext b s = .ok (.ok s'.curRec,s',b') ∧ getRecord b' s' = .ok (.ok (.of bytes)) ∧
          c.remaining = (s'.curRec,bytes)::c'.remaining) := by
  obtain ⟨b',s',c',moves,clear',found⟩ := scanNext_current owned scanning clear
  refine ⟨b',s',c',moves,clear',found.imp_right fun record => ?_⟩
  obtain ⟨bytes,found,remaining,current⟩ := record
  exact ⟨bytes,found,getRecord_spec moves.scanning current rfl,remaining⟩

-- After some turns: what has been seen, what is still to come, and what is left of the file.
structure Reached (k : Pool.Books) (recCnt : Int) (heap : Heap) (filter : Option Condition) (strategy : Strategy)
    (seen : List Turn)
    (b : Pool) (s : HeapFileScan) (c : Cursor) : Prop where
  scanning : Scanning k (Int.bmod (recCnt - (deletedRids seen).length) (256 ^ 4)) b s c
  filtered : s.filter = filter
  visits : Visits strategy ((records heap).filter fun e => accepts filter e.2) seen
  ahead : c.remaining.filter (fun e => accepts filter e.2) =
    ((records heap).filter fun e => accepts filter e.2).drop seen.length
  left : records c.heap = (records heap).filter fun e => e.1 ∉ deletedRids seen

theorem turn_spec {strategy : Strategy} {seen : List Turn} {c : Cursor} (owned : k.Owned)
    (reached : Reached k recCnt heap filter strategy seen b s c) :
    ∃ now s' b' c', turn b s strategy seen = .ok (now,s',b') ∧
      Reached k recCnt heap filter strategy (seen ++ [now]) b' s' c' := by
  obtain ⟨b1,s1,c1,moves,finds⟩ := scanNext_spec owned reached.scanning
  have same : s1.filter = filter := moves.filter.trans reached.filtered
  have wanted : ∀ bytes, s.matchRec (.of bytes) = accepts filter bytes := matchRec_accepts reached.filtered
  generalize result : scanNext b s = outcome at finds
  cases finds with
  | eof passed done =>
    have none_wanted : c.remaining.filter (fun e => accepts filter e.2) = [] :=
      List.filter_eq_nil_iff.mpr fun e member => by rw [← wanted,passed e member]; exact Bool.false_ne_true
    have past := reached.ahead
    rw [none_wanted] at past
    have past := List.drop_eq_nil_iff.mp past.symm
    have same_deleted : deletedRids (seen ++ [.stopped .fileEof]) = deletedRids seen := by simp [deletedRids]
    refine ⟨.stopped .fileEof,s1,b1,c1,by rw [turn,result]; rfl,⟨?_,same,?_,?_,?_⟩⟩
    · rw [same_deleted]; exact moves.scanning
    · exact reached.visits.snoc (fun inside => absurd inside (Nat.not_lt.mpr past)) fun _ => rfl
    · rw [done,List.filter_nil,List.drop_eq_nil_iff.mpr]
      rw [List.length_append]
      omega
    · rw [same_deleted,moves.heap]; exact reached.left
  | record skipped bytes remaining passed accepted current =>
    have none_skipped : skipped.filter (fun e => accepts filter e.2) = [] :=
      List.filter_eq_nil_iff.mpr fun e member => by rw [← wanted,passed e member]; exact Bool.false_ne_true
    have next := reached.ahead
    rw [remaining,List.filter_append,none_skipped,List.nil_append,
      List.filter_cons_of_pos (by rw [← wanted]; exact accepted)] at next
    -- The record is the next one of those the client is to be given.
    have inside : seen.length < ((records heap).filter fun e => accepts filter e.2).length := by
      by_contra past
      rw [List.drop_eq_nil_iff.mpr (Nat.not_lt.mp past)] at next
      cases next
    rw [List.drop_eq_getElem_cons inside,List.cons.injEq] at next
    obtain ⟨here,later⟩ := next
    have got := getRecord_spec moves.scanning current rfl
    have not_past : ¬ ((records heap).filter fun e => accepts filter e.2).length ≤ seen.length := Nat.not_le.mpr inside
    by_cases delete : strategy seen s1.curRec = true
    · obtain ⟨b2,s2,c2,deleted,scanning,filtered,_,ahead,left,_⟩ := deleteRecord_live moves.scanning current rfl
      have one_more : deletedRids (seen ++ [.record s1.curRec (.ok (.of bytes)) (some .ok)]) =
          deletedRids seen ++ [s1.curRec] := by
        simp [deletedRids]
      refine ⟨.record s1.curRec (.ok (.of bytes)) (some .ok),s2,b2,c2,?_,⟨?_,filtered.trans same,?_,?_,?_⟩⟩
      · rw [turn,result,ok_bind]
        simp only [got,ok_bind,delete,if_true,deleted]
        rfl
      · rw [one_more,List.length_append,List.length_singleton]
        rw [Int.bmod_sub_bmod] at scanning
        rw [Nat.cast_add,Nat.cast_one,← Int.sub_sub]
        exact scanning
      · exact reached.visits.snoc (fun _ => by rw [← here,if_pos delete]) fun past => absurd past not_past
      · rw [ahead,later,List.length_append,List.length_singleton]
      · rw [one_more,left,moves.heap,reached.left,List.filter_filter]
        refine List.filter_congr fun e _ => ?_
        simp [not_or,and_comm]
    · have no_more : deletedRids (seen ++ [.record s1.curRec (.ok (.of bytes)) none]) = deletedRids seen := by
        simp [deletedRids]
      refine ⟨.record s1.curRec (.ok (.of bytes)) none,s1,b1,c1,?_,⟨?_,same,?_,?_,?_⟩⟩
      · rw [turn,result,ok_bind]
        simp only [got,ok_bind,delete]
        rfl
      · rw [no_more]; exact moves.scanning
      · exact reached.visits.snoc (fun _ => by rw [← here,if_neg delete]) fun past => absurd past not_past
      · rw [later,List.length_append,List.length_singleton]
      · rw [no_more,moves.heap,reached.left]

theorem turns_spec {strategy : Strategy} {c : Cursor} (owned : k.Owned)
    (reached : Reached k recCnt heap filter strategy [] b s c) (n : Nat) :
    ∃ seen s' b' c', turns strategy b s n = .ok (seen,s',b') ∧ seen.length = n ∧
      Reached k recCnt heap filter strategy seen b' s' c' := by
  induction n with
  | zero => exact ⟨[],s,b,c,rfl,rfl,reached⟩
  | succ n ih =>
    obtain ⟨seen,s1,b1,c1,done,length,now⟩ := ih
    obtain ⟨last,s2,b2,c2,turned,then_⟩ := turn_spec owned now
    refine ⟨seen ++ [last],s2,b2,c2,?_,by rw [List.length_append,length]; rfl,then_⟩
    rw [turns,done,ok_bind]
    dsimp only
    rw [turned]
    rfl

-- The condition that startScan stores depends on its arguments only.
theorem startScan_same {offset length : Int} {type : Option Datatype} {filter : Option (List UInt8)} {op : Operator}
    (accepted : (s.startScan offset length type filter op).1 = .ok) (s' : HeapFileScan) :
    s'.startScan offset length type filter op =
      (.ok,{s' with filter := (s.startScan offset length type filter op).2.filter}) := by
  unfold startScan at accepted ⊢
  cases filter with
  | none => rfl
  | some bytes => cases type with
    | none => cases accepted
    | some type =>
      dsimp only at accepted ⊢
      split at accepted
      · cases accepted
      · rename_i good
        rw [if_neg good,if_neg good]

theorem start_spec {c : Cursor} (scanning : Scanning k recCnt b s c) (strategy : Strategy) (heap_eq : c.heap = heap)
    (all : c.remaining = records heap) (same : s.filter = filter) : Reached k recCnt heap filter strategy [] b s c := by
  refine ⟨?_,same,⟨fun i below => absurd below (Nat.not_lt_zero i),fun i below => absurd below (Nat.not_lt_zero i)⟩,
    ?_,?_⟩
  · have unchanged := scanning.stored.recCnt_int
    rw [show deletedRids [] = [] from rfl,List.length_nil,Nat.cast_zero,Int.sub_zero,unchanged]
    exact scanning
  · rw [all]; rfl
  · rw [heap_eq]
    exact (List.filter_eq_self.mpr fun e _ => by simp [deletedRids]).symm

theorem startScan_keeps (s : HeapFileScan) (offset length : Int) (type : Option Datatype)
    (filter : Option (List UInt8)) (op : Operator) :
    (s.startScan offset length type filter op).2 =
    {s with filter := (s.startScan offset length type filter op).2.filter} := by
  unfold startScan
  cases filter with
  | none => rfl
  | some bytes => cases type with
    | none => rfl
    | some type =>
      dsimp only
      split <;> rfl

theorem session_reaches (owned : k.Owned) (kept : b.Keeps k) (stored : Stored b.view k.first heap recCnt)
    (s : HeapFileScan)
    {offset length : Int} {type : Option Datatype} {filter : Option (List UInt8)} {op : Operator}
    (accepted : (s.startScan offset length type filter op).1 = .ok) (strategy : Strategy) (n : Nat) :
    ∃ seen b' s' c, session b s offset length type filter op strategy n = .ok (seen,destroy b' s') ∧ seen.length = n ∧
      Reached k.opened recCnt heap (s.startScan offset length type filter op).2.filter strategy seen b' s' c := by
  obtain ⟨b1,opened,kept1,view1⟩ := kept.openFile
  have owned' : k.opened.Owned := owned
  obtain ⟨b2,s2,c,constructed,scanning,heap_eq,all,_,view2⟩ := construct_spec kept1 (by rw [view1]; exact stored) s
  have started := startScan_same accepted s2
  generalize (s.startScan offset length type filter op).2.filter = condition at started ⊢
  obtain ⟨seen,s3,b3,c3,done,length_seen,reached⟩ :=
    turns_spec owned' (start_spec (scanning.filtered condition) strategy heap_eq all rfl) n
  refine ⟨seen,b3,s3,c3,?_,length_seen,reached⟩
  simp only [session,opened,constructed,ok_bind,started,done]
  rfl

-- A scan without condition that deletes nothing.
theorem full_scan_spec (owned : k.Owned) (kept : b.Keeps k) (stored : Stored b.view k.first heap recCnt)
    (s : HeapFileScan) (n : Nat) :
    ∃ seen b', session b s 0 0 (some .string) none .eq (fun _ _ => false) n = .ok (seen,b') ∧ seen.length = n ∧
      Visits (fun _ _ => false) (records heap) seen := by
  have started : (s.startScan 0 0 (some .string) none .eq).1 = .ok := rfl
  obtain ⟨seen,b1,s1,c,done,length_seen,reached⟩ := session_reaches owned kept stored s started (fun _ _ => false) n
  have every : ((records heap).filter fun e => accepts (s.startScan 0 0 (some .string) none .eq).2.filter e.2) =
      records heap :=
    List.filter_eq_self.mpr fun e _ => rfl
  refine ⟨seen,_,done,length_seen,?_⟩
  rw [← every]
  exact reached.visits

-- Whatever the client deletes as it goes, the scan gives every matching record once and in order,
-- then FILEEOF for good, and leaves all the other records as they were.
theorem deleting_scan_exact (b : Pool) (k : Pool.Books) (heap : Heap) (recCnt : Int) (kept : b.Keeps k)
    (owned : k.Owned)
    (stored : Stored b.view k.first heap recCnt) (s : HeapFileScan) (offset length : Int) (type : Option Datatype)
    (filter : Option (List UInt8)) (op : Operator) (accepted : (s.startScan offset length type filter op).1 = .ok)
    (strategy : Strategy) (n : Nat) :
    ∃ seen b' heap', session b s offset length type filter op strategy n = .ok (seen,b') ∧ seen.length = n ∧
      Visits strategy ((records heap).filter fun e => (s.startScan offset length type filter op).2.matchRec (.of e.2))
        seen ∧
      b'.Keeps k ∧ Stored b'.view k.first heap' (Int.bmod (recCnt - (deletedRids seen).length) (256 ^ 4)) ∧
      records heap' = (records heap).filter fun e => e.1 ∉ deletedRids seen := by
  obtain ⟨seen,b1,s1,c,done,length_seen,reached⟩ := session_reaches owned kept stored s accepted strategy n
  obtain ⟨kept2,view2⟩ := destroy_spec owned reached.scanning
  refine ⟨seen,destroy b1 s1,c.heap,done,length_seen,?_,kept2,by rw [view2]; exact reached.scanning.stored,reached.left⟩
  simp only [matchRec_accepts (s:=(s.startScan offset length type filter op).2) rfl]
  exact reached.visits

-- Three records on a file of their own; the two that match are deleted as they come.
def sampleRecords : List (List UInt8) := [[1,0,0,0],[2,0,0,0],[1,0,0,0]]

def sampleFile (stale : Int → Page) : Pool :=
  match (do
    let (_,b) ← (Pool.created stale).createHeapFile [114]
    InsertFileScan.session b ⟨HeapFile.fresh 0 0⟩ sampleRecords [] : Except Abort (List Entry × Pool)) with
  | .ok (_,b) => b
  | .error _ => .created stale

theorem sampleFile_stored (stale : Int → Page) :
    ∃ hdr heap recCnt, (sampleFile stale).Keeps {Pool.Books.unused with first := hdr} ∧
      Stored (sampleFile stale).view hdr heap recCnt := by
  obtain ⟨hdr,n,b,created,kept,stored⟩ := createHeapFile_spec stale [114]
  have owned : ({Pool.Books.unused with first := hdr} : Pool.Books).Owned := fun _ marked => False.elim marked
  have storable : ∀ bytes ∈ sampleRecords, InsertFileScan.Storable bytes := by
    intro bytes member
    simp only [sampleRecords,List.mem_cons,List.not_mem_nil,or_false] at member
    rcases member with rfl | rfl | rfl <;> exact ⟨by decide,by decide⟩
  have empty : (records [(n,[])]).Perm ([] : List Entry) := by rfl
  obtain ⟨recCnt,heap,b',ledger,inserted,kept',stored',_⟩ := InsertFileScan.session_spec owned kept stored
    ⟨HeapFile.fresh 0 0⟩ storable empty
  have sample : sampleFile stale = b' := by
    unfold sampleFile
    rw [created,ok_bind]
    dsimp only
    rw [inserted]
  rw [sample]
  exact ⟨hdr,heap,recCnt,kept',stored'⟩

theorem deleting_scan_exact_sample : ∃ k heap recCnt seen b' heap', Stored (sampleFile fun _ => zero 1024).view
    (Pool.Books.first k) heap recCnt ∧
    session (sampleFile fun _ => zero 1024) ⟨HeapFile.fresh 0 0,none,0,nullRid⟩ 0 4 (some .integer) (some [1,0,0,0]) .eq
      (fun _ _ => true) 5 = .ok (seen,b') ∧ seen.length = 5 ∧
    Visits (fun _ _ => true) ((records heap).filter fun e => Condition.matchRec ⟨0,4,.integer,[1,0,0,0],.eq⟩ (.of e.2))
      seen ∧
    records heap' = (records heap).filter fun e => e.1 ∉ deletedRids seen := by
  obtain ⟨hdr,heap,recCnt,kept,stored⟩ := sampleFile_stored fun _ => zero 1024
  have owned : ({Pool.Books.unused with first := hdr} : Pool.Books).Owned := fun _ marked => False.elim marked
  obtain ⟨seen,b',heap',done,length,visits,_,_,left⟩ :=
    deleting_scan_exact (sampleFile fun _ => zero 1024) _ heap recCnt kept owned stored
    ⟨HeapFile.fresh 0 0,none,0,nullRid⟩ 0 4 (some .integer) (some [1,0,0,0]) .eq rfl (fun _ _ => true) 5
  exact ⟨{Pool.Books.unused with first := hdr},heap,recCnt,seen,b',heap',stored,done,length,visits,left⟩

end HeapFileScan
end Minirel
