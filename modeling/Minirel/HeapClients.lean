import Minirel.HeapWriters

namespace Minirel
open ByteMemory SlotDirectory Page Heap

-- An object on the heap file that is open for inserting or for scanning.
inductive Client where
  | inserting (s : InsertFileScan)
  | scanning (s : HeapFileScan)

def Client.file : Client → HeapFile
  | .inserting s => s.toHeapFile
  | .scanning s => s.toHeapFile

-- Whether the object will unpin its page as dirty; an InsertFileScan always does.
def Client.dirty : Client → Bool
  | .inserting _ => true
  | .scanning s => s.curDirtyFlag

def Client.destroy (b : Pool) : Client → Pool
  | .inserting s => s.destroy b
  | .scanning s => s.destroy b

structure Clients where
  pool : Pool
  objects : List Client

inductive ClientCall where
  | openInsert
  | openScan (offset length : Int) (type : Option Datatype) (filter : Option (List UInt8)) (op : Operator)
  | insertRecord (object : Nat) (bytes : List UInt8)
  | scanNext (object : Nat)
  | deleteRecord (object : Nat)
  | close (object : Nat)
  deriving DecidableEq,Repr

namespace Clients

def step (raw : HeapFileScan) (w : Clients) : ClientCall → Except Abort Clients
  | .openInsert => do
    let (_,b) := w.pool.openFile
    let (_,s,b) ← InsertFileScan.construct b ⟨raw.toHeapFile⟩
    return ⟨b,w.objects ++ [.inserting s]⟩
  | .openScan offset length type filter op => do
    let (_,b) := w.pool.openFile
    let (_,s,b) ← HeapFileScan.construct b raw
    let (_,s) := s.startScan offset length type filter op
    return ⟨b,w.objects ++ [.scanning s]⟩
  | .insertRecord i bytes =>
    match w.objects[i]? with
    | some (.inserting s) => do
      let (_,s,b) ← InsertFileScan.insertRecord w.pool s (.of bytes)
      return ⟨b,w.objects.set i (.inserting s)⟩
    | _ => return w
  | .scanNext i =>
    match w.objects[i]? with
    | some (.scanning s) => do
      let (_,s,b) ← HeapFileScan.scanNext w.pool s
      return ⟨b,w.objects.set i (.scanning s)⟩
    | _ => return w
  | .deleteRecord i =>
    match w.objects[i]? with
    | some (.scanning s) => do
      let (_,s,b) ← HeapFileScan.deleteRecord w.pool s
      return ⟨b,w.objects.set i (.scanning s)⟩
    | _ => return w
  | .close i =>
    match w.objects[i]? with
    | some o => return ⟨o.destroy w.pool,w.objects.eraseIdx i⟩
    | none => return w

def run (raw : HeapFileScan) : Clients → List ClientCall → Except Abort Clients
  | w,[] => return w
  | w,call::rest => do run raw (← step raw w call) rest

-- The life of a heap file from createHeapFile on.
def lifetime (stale : Int → Page) (name : Name) (raw : HeapFileScan) (calls : List ClientCall) :
    Except Abort Clients := do
  let (_,b) ← (Pool.created stale).createHeapFile name
  run raw ⟨b,[]⟩ calls

-- The scan stands on a slot of its page that has a record.
def standsOnRecord (b : Pool) (s : HeapFileScan) : Bool :=
  match b.deref s.curPage with
  | .ok page => decide (0 ≤ s.curRec.slotNo) && (page.getRecord s.curRec).isOk
  | .error _ => false

-- A record goes onto a page with room or behind the last page, and only a record that is there is
-- deleted.
def sound (w : Clients) : ClientCall → Bool
  | .insertRecord i bytes =>
    match w.objects[i]? with
    | some (.inserting s) =>
      decide (1 ≤ bytes.length ∧ bytes.length < 2 ^ 31) &&
        (decide (dataSize < bytes.length) || Writers.fitsOrLast w.pool s bytes)
    | _ => true
  | .deleteRecord i =>
    match w.objects[i]? with
    | some (.scanning s) => standsOnRecord w.pool s
    | _ => true
  | _ => true

def allSound (raw : HeapFileScan) : Clients → List ClientCall → Bool
  | _,[] => true
  | w,call::rest => w.sound call && match step raw w call with
    | .ok w' => allSound raw w' rest
    | .error _ => true

def lifetimeSound (stale : Int → Page) (name : Name) (raw : HeapFileScan) (calls : List ClientCall) : Bool :=
  match (Pool.created stale).createHeapFile name with
  | .ok (_,b) => allSound raw ⟨b,[]⟩ calls
  | .error _ => true

-- What the open objects hold of the file, besides the holds in k.
def grasp (k : Pool.Books) (o : Client) : Pool.Books :=
    (k.opened.hold k.first o.file.hdrDirtyFlag).hold o.file.curPageNo o.dirty

def holds (k : Pool.Books) : List Client → Pool.Books
  | [] => k
  | o::rest => grasp (holds k rest) o

theorem length_filter_key {entries : List Entry} {e : Entry} (nodup : (entries.map Prod.fst).Nodup)
    (member : e ∈ entries) :
    (entries.filter fun x => x.1 ≠ e.1).length + 1 = entries.length := by
  have once : (entries.map Prod.fst).count e.1 = 1 := List.count_eq_one_of_mem nodup (List.mem_map_of_mem member)
  rw [List.count,List.countP_map] at once
  have parts := List.length_eq_countP_add_countP (fun x : Entry => x.1 == e.1) (l := entries)
  rw [← List.countP_eq_length_filter]
  have same : (fun x : Entry => decide (x.1 ≠ e.1)) = fun x => decide (¬ (x.1 == e.1) = true) := by
    funext x
    simp
  rw [same,parts,Nat.add_comm]
  congr 1
  exact once.symm

variable {k : Pool.Books} {o : Client} {l r : List Client}

@[simp] theorem holds_first (k : Pool.Books) (objects : List Client) : (holds k objects).first = k.first := by
  induction objects with
  | nil => rfl
  | cons o rest ih => exact ih

theorem holds_owned (owned : k.Owned) (objects : List Client) : (holds k objects).Owned := by
  induction objects with
  | nil => exact owned
  | cons o rest ih =>
    have opened : (holds k rest).opened.Owned := ih
    exact (opened.hold _ _).hold _ _

theorem grasp_comm (k : Pool.Books) (o p : Client) : grasp (grasp k o) p = grasp (grasp k p) o := by
  have flat : ∀ o p : Client, grasp (grasp k o) p =
      (((k.opened.opened.hold k.first o.file.hdrDirtyFlag).hold o.file.curPageNo o.dirty).hold k.first
        p.file.hdrDirtyFlag).hold
        p.file.curPageNo p.dirty := fun _ _ => rfl
  rw [flat,flat]
  exact Pool.Books.hold_two_comm ..

theorem holds_middle (k : Pool.Books) (l r : List Client) (o : Client) :
    holds k (l ++ o::r) = grasp (holds k (l ++ r)) o := by
  induction l with
  | nil => rfl
  | cons p rest ih => rw [List.cons_append,holds,ih,grasp_comm]; rfl

-- An object stands on some page of the chain; a scan never stands before the slot -1.
structure Placed (k : Pool.Books) (heap : Heap) (o : Client) : Prop where
  member : o.file.curPageNo ∈ pageNos heap
  headerPage : o.file.headerPage = some k.first
  headerPageNo : o.file.headerPageNo = k.first
  curPage : o.file.curPage = some o.file.curPageNo
  slot : ∀ s, o = .scanning s → -1 ≤ s.curRec.slotNo

-- The count of the header page is the number of records as far as an int can hold it.
structure Together (k : Pool.Books) (heap : Heap) (w : Clients) : Prop where
  kept : w.pool.Keeps (holds k w.objects)
  stored : Stored w.pool.view k.first heap (Int.bmod (records heap).length (256 ^ 4))
  placed : ∀ o ∈ w.objects, Placed k heap o

variable {heap heap' : Heap} {b : Pool} {w : Clients} {s : InsertFileScan} {hfs : HeapFileScan}

theorem Placed.more (placed : Placed k heap o) (more : pageNos heap ⊆ pageNos heap') : Placed k heap' o :=
  ⟨more placed.member,placed.headerPage,placed.headerPageNo,placed.curPage,placed.slot⟩

theorem Together.others (together : Together k heap ⟨b,l ++ o::r⟩) : ∀ p ∈ l ++ r, Placed k heap p := by
  intro p inside
  refine together.placed p ?_
  rcases List.mem_append.mp inside with left | right
  · exact List.mem_append_left _ left
  · exact List.mem_append_right _ (List.mem_cons_of_mem _ right)

-- Back from one object to all of them.
theorem Together.of_object (kept : b.Keeps (grasp (holds k (l ++ r)) o))
    (stored : Stored b.view k.first heap' (Int.bmod (records heap').length (256 ^ 4)))
    (others : ∀ p ∈ l ++ r, Placed k heap p)
    (more : pageNos heap ⊆ pageNos heap') (placed : Placed k heap' o) : Together k heap' ⟨b,l ++ o::r⟩ := by
  refine ⟨?_,stored,?_⟩
  · dsimp only
    rw [holds_middle]
    exact kept
  · intro p inside
    rcases List.mem_append.mp inside with left | here_or_right
    · exact (others p (List.mem_append_left _ left)).more more
    · rcases List.mem_cons.mp here_or_right with rfl | right
      · exact placed
      · exact (others p (List.mem_append_right _ right)).more more

theorem Together.standing (together : Together k heap ⟨b,l ++ .inserting s::r⟩) :
    InsertFileScan.Standing (holds k (l ++ r)).opened (Int.bmod (records heap).length (256 ^ 4)) b s heap
      s.curPageNo := by
  have kept := together.kept
  have placed := together.placed (.inserting s) (by simp)
  dsimp only at kept
  rw [holds_middle] at kept
  have first : (holds k (l ++ r)).opened.first = k.first := holds_first k (l ++ r)
  exact ⟨kept,by rw [first]; exact together.stored,placed.member,by rw [first]; exact placed.headerPage,
    by rw [first]; exact placed.headerPageNo,placed.curPage,rfl⟩

theorem Together.of_standing {n recCnt : Int}
    (standing : InsertFileScan.Standing (holds k (l ++ r)).opened recCnt b s heap' n)
    (count : recCnt = Int.bmod (records heap').length (256 ^ 4)) (others : ∀ p ∈ l ++ r, Placed k heap p)
    (more : pageNos heap ⊆ pageNos heap') : Together k heap' ⟨b,l ++ .inserting s::r⟩ := by
  have first : (holds k (l ++ r)).opened.first = k.first := holds_first k (l ++ r)
  obtain ⟨kept,stored,member,header,headerNo,cur,curNo⟩ := standing
  rw [first] at stored header headerNo
  rw [count] at stored
  refine Together.of_object ?_ stored others more
    ⟨by rw [Client.file,curNo]; exact member,header,headerNo,by rw [Client.file,cur,curNo],
    fun s' same => by cases same⟩
  rw [grasp,Client.file,curNo]
  exact kept

theorem Together.scanning (together : Together k heap ⟨b,l ++ .scanning hfs::r⟩) :
    ∃ c, HeapFileScan.Scanning (holds k (l ++ r)).opened (Int.bmod (records heap).length (256 ^ 4)) b hfs c ∧
      c.heap = heap := by
  have kept := together.kept
  have placed := together.placed (.scanning hfs) (by simp)
  dsimp only at kept
  rw [holds_middle] at kept
  have first : (holds k (l ++ r)).opened.first = k.first := holds_first k (l ++ r)
  obtain ⟨⟨n,d⟩,inside,here⟩ := List.mem_map.mp placed.member
  obtain ⟨before,after,rfl⟩ := List.append_of_mem inside
  have slot := placed.slot hfs rfl
  have here : n = hfs.curPageNo := here
  have curPage : hfs.curPage = some hfs.curPageNo := placed.curPage
  refine ⟨⟨before,n,d,after,(hfs.curRec.slotNo + 1).toNat⟩,
    ⟨?_,by rw [first]; exact together.stored,by rw [first]; exact placed.headerPage,
    by rw [first]; exact placed.headerPageNo,by rw [here]; exact curPage,here.symm,?_⟩,rfl⟩
  · rw [here]
    exact kept
  · dsimp only
    omega

theorem Together.of_scanning {recCnt : Int} {c : Cursor}
    (scanning : HeapFileScan.Scanning (holds k (l ++ r)).opened recCnt b hfs c)
    (count : recCnt = Int.bmod (records c.heap).length (256 ^ 4)) (others : ∀ p ∈ l ++ r, Placed k heap p)
    (more : pageNos heap ⊆ pageNos c.heap) : Together k c.heap ⟨b,l ++ .scanning hfs::r⟩ := by
  have first : (holds k (l ++ r)).opened.first = k.first := holds_first k (l ++ r)
  obtain ⟨kept,stored,header,headerNo,cur,curNo,slot⟩ := scanning
  rw [first] at stored header headerNo
  rw [count] at stored
  refine Together.of_object ?_ stored others more ⟨?_,header,headerNo,by rw [Client.file,cur,curNo],?_⟩
  · rw [grasp,Client.file,curNo]
    exact kept
  · rw [Client.file,curNo,Cursor.heap]
    simp
  · intro s' same
    cases same
    omega

-- One record more or less on the pages is one more or less in the count.
theorem insertRecord_spec {bytes : List UInt8} (owned : k.Owned) (together : Together k heap ⟨b,l ++ .inserting s::r⟩)
    (positive : 1 ≤ bytes.length) (int : bytes.length < 2 ^ 31) (meets : dataSize < bytes.length ∨
      Writers.fitsOrLast b s bytes = true) :
    ∃ heap' result s' b', InsertFileScan.insertRecord b s (.of bytes) = .ok (result,s',b') ∧
      Together k heap' ⟨b',l ++ .inserting s'::r⟩ := by
  have owned' : (holds k (l ++ r)).opened.Owned := holds_owned owned (l ++ r)
  obtain ⟨recCnt',heap',result,s',b',n',inserted,standing',more,told⟩ :=
    Writers.insertRecord_told owned' together.standing positive int meets
  refine ⟨heap',result,s',b',inserted,Together.of_standing standing' ?_ together.others more⟩
  cases told with
  | stored rid heap' perm => rw [Int.bmod_add_bmod,perm.length_eq,List.length_cons,Nat.cast_succ]
  | refused status heap' same => rw [same]

theorem deleteRecord_spec (together : Together k heap ⟨b,l ++ .scanning hfs::r⟩)
    (stands : standsOnRecord b hfs = true) :
    ∃ heap' status s' b', HeapFileScan.deleteRecord b hfs = .ok (status,s',b') ∧
      Together k heap' ⟨b',l ++ .scanning s'::r⟩ := by
  obtain ⟨c,scanning,rfl⟩ := together.scanning
  obtain ⟨page,_,read,held,_⟩ := scanning.page
  simp only [standsOnRecord,read,Bool.and_eq_true,decide_eq_true_eq] at stands
  obtain ⟨low,there⟩ := stands
  obtain ⟨i,at_slot⟩ := Int.eq_ofNat_of_zero_le low
  have rid : hfs.curRec = ⟨hfs.curRec.pageNo,i⟩ := by rw [← at_slot]
  cases found : lookup c.slots i with
  | none =>
    rw [rid,held.getRecord_dead fun bytes other => by rw [found] at other; cases other] at there
    cases there
  | some bytes =>
    obtain ⟨b',deleted,scanning'⟩ := HeapFileScan.deleteRecord_at scanning at_slot found
    refine ⟨_,_,_,b',deleted,Together.of_scanning scanning' ?_ together.others (by simp [Cursor.heap])⟩
    have member : (⟨c.pageNo,i⟩,bytes) ∈ records c.heap := by
      rw [Cursor.heap,records_append,records_cons]
      exact List.mem_append_right _ (List.mem_append_left _ (mem_pageRecords.mpr ⟨i,rfl,found⟩))
    have fewer := length_filter_key (records_keys_nodup scanning.stored.nodup) member
    have left : records ({c with slots := remove c.slots i} : Cursor).heap = (records c.heap).filter
        (fun e => e.1 ≠ ⟨c.pageNo,i⟩) :=
      records_remove scanning.stored.nodup i
    rw [left,← fewer,Nat.cast_succ,Int.sub_eq_add_neg,Int.bmod_add_bmod,Int.add_neg_cancel_right]

theorem scanNext_spec (owned : k.Owned) (together : Together k heap ⟨b,l ++ .scanning hfs::r⟩) :
    ∃ result s' b', HeapFileScan.scanNext b hfs = .ok (result,s',b') ∧ Together k heap ⟨b',l ++ .scanning s'::r⟩ := by
  have owned' : (holds k (l ++ r)).opened.Owned := holds_owned owned (l ++ r)
  obtain ⟨c,scanning,rfl⟩ := together.scanning
  obtain ⟨b',s',c',moves,finds⟩ := HeapFileScan.scanNext_spec owned' scanning
  have still := Together.of_scanning moves.scanning (by rw [moves.heap]) together.others
    (by rw [moves.heap]; exact List.Subset.refl _)
  rw [moves.heap] at still
  generalize HeapFileScan.scanNext b hfs = result at finds ⊢
  cases finds with
  | record => exact ⟨_,s',b',rfl,still⟩
  | eof => exact ⟨_,s',b',rfl,still⟩

theorem destroy_spec (owned : k.Owned) (together : Together k heap ⟨b,l ++ o::r⟩) :
    (o.destroy b).Keeps (holds k (l ++ r)) ∧ (o.destroy b).view = b.view := by
  have owned' : (holds k (l ++ r)).Owned := holds_owned owned (l ++ r)
  cases o with
  | inserting s => exact together.standing.destroy_spec owned'
  | scanning s =>
    obtain ⟨c,scanning,_⟩ := together.scanning
    exact HeapFileScan.destroy_spec owned' scanning

theorem step_spec {call : ClientCall} (owned : k.Owned) (raw : HeapFileScan) (together : Together k heap w)
    (meets : w.sound call = true) : ∃ heap' w', step raw w call = .ok w' ∧ Together k heap' w' := by
  obtain ⟨b,objects⟩ := w
  have owned' : (holds k objects).opened.Owned := holds_owned owned objects
  have first : (holds k objects).opened.first = k.first := holds_first k objects
  have behind : ∀ p ∈ objects ++ [], Placed k heap p := by rw [List.append_nil]; exact together.placed
  cases call with
  | openInsert =>
    obtain ⟨b1,opened,kept1,view1⟩ := together.kept.openFile
    obtain ⟨b2,s2,before,n,d,constructed,rfl,inserting,_⟩ :=
      InsertFileScan.construct_spec owned' kept1 (by rw [view1,first]; exact together.stored) ⟨raw.toHeapFile⟩
    have standing := inserting.standing
    rw [← List.append_nil objects] at standing
    refine ⟨_,⟨b2,objects ++ [.inserting s2]⟩,?_,Together.of_standing standing rfl behind (List.Subset.refl _)⟩
    simp only [step,opened,constructed,ok_bind]
    rfl
  | openScan offset length type filter op =>
    obtain ⟨b1,opened,kept1,view1⟩ := together.kept.openFile
    obtain ⟨b2,s2,c,constructed,scanning,rfl,_⟩ :=
      HeapFileScan.construct_spec kept1 (by rw [view1,first]; exact together.stored) raw
    have scanning3 := scanning.filtered (s2.startScan offset length type filter op).2.filter
    rw [← HeapFileScan.startScan_keeps,← List.append_nil objects] at scanning3
    refine ⟨_,⟨b2,objects ++ [.scanning (s2.startScan offset length type filter op).2]⟩,?_,
      Together.of_scanning scanning3 rfl behind (List.Subset.refl _)⟩
    simp only [step,opened,constructed,ok_bind]
    rfl
  | insertRecord i bytes =>
    cases there : objects[i]? with
    | none => exact ⟨heap,_,by simp only [step,there]; rfl,together⟩
    | some o =>
      cases o with
      | scanning s => exact ⟨heap,_,by simp only [step,there]; rfl,together⟩
      | inserting s =>
        obtain ⟨l,r,rfl,rfl⟩ := at_index there
        simp only [sound,there,Bool.and_eq_true,Bool.or_eq_true,decide_eq_true_eq] at meets
        obtain ⟨⟨positive,int⟩,fits⟩ := meets
        obtain ⟨heap',result,s',b',inserted,together'⟩ := insertRecord_spec owned together positive int fits
        refine ⟨heap',_,?_,together'⟩
        simp only [step,there,inserted,ok_bind,List.set_append_right _ _ (Nat.le_refl _),Nat.sub_self,
          List.set_cons_zero]
        rfl
  | scanNext i =>
    cases there : objects[i]? with
    | none => exact ⟨heap,_,by simp only [step,there]; rfl,together⟩
    | some o =>
      cases o with
      | inserting s => exact ⟨heap,_,by simp only [step,there]; rfl,together⟩
      | scanning s =>
        obtain ⟨l,r,rfl,rfl⟩ := at_index there
        obtain ⟨result,s',b',scanned,together'⟩ := scanNext_spec owned together
        refine ⟨heap,_,?_,together'⟩
        simp only [step,there,scanned,ok_bind,List.set_append_right _ _ (Nat.le_refl _),Nat.sub_self,List.set_cons_zero]
        rfl
  | deleteRecord i =>
    cases there : objects[i]? with
    | none => exact ⟨heap,_,by simp only [step,there]; rfl,together⟩
    | some o =>
      cases o with
      | inserting s => exact ⟨heap,_,by simp only [step,there]; rfl,together⟩
      | scanning s =>
        obtain ⟨l,r,rfl,rfl⟩ := at_index there
        simp only [sound,there] at meets
        obtain ⟨heap',status,s',b',deleted,together'⟩ := deleteRecord_spec together meets
        refine ⟨heap',_,?_,together'⟩
        simp only [step,there,deleted,ok_bind,List.set_append_right _ _ (Nat.le_refl _),Nat.sub_self,List.set_cons_zero]
        rfl
  | close i =>
    cases there : objects[i]? with
    | none => exact ⟨heap,_,by simp only [step,there]; rfl,together⟩
    | some o =>
      obtain ⟨l,r,rfl,rfl⟩ := at_index there
      obtain ⟨kept,view⟩ := destroy_spec owned together
      refine ⟨heap,⟨o.destroy b,l ++ r⟩,?_,kept,by dsimp only; rw [view]; exact together.stored,together.others⟩
      simp only [step,there,List.eraseIdx_append_of_length_le (Nat.le_refl _),Nat.sub_self,List.eraseIdx_cons_zero]
      rfl

theorem run_spec {calls : List ClientCall} (owned : k.Owned) (raw : HeapFileScan) (together : Together k heap w)
    (meets : allSound raw w calls = true) : ∃ heap' w', run raw w calls = .ok w' ∧ Together k heap' w' := by
  induction calls generalizing heap w with
  | nil => exact ⟨heap,w,rfl,together⟩
  | cons call rest ih =>
    rw [allSound,Bool.and_eq_true] at meets
    obtain ⟨heap1,w1,stepped,together1⟩ := step_spec owned raw together meets.1
    have later := meets.2
    rw [stepped] at later
    obtain ⟨heap2,w2,done,together2⟩ := ih together1 later
    exact ⟨heap2,w2,by rw [run,stepped]; exact done,together2⟩

theorem Together.getRecCnt (together : Together k heap w) (member : o ∈ w.objects) :
    HeapFile.getRecCnt w.pool o.file = .ok (Int.bmod (records heap).length (256 ^ 4)) := by
  obtain ⟨b,objects⟩ := w
  obtain ⟨l,r,rfl⟩ := List.append_of_mem member
  obtain ⟨header,at_header,_,_,_,count⟩ := together.stored.header
  have kept := together.kept
  dsimp only at kept
  rw [holds_middle,grasp,Pool.Books.hold_comm] at kept
  rw [HeapFile.getRecCnt,(together.placed o member).headerPage]
  have first : (holds k (l ++ r)).first = k.first := holds_first k (l ++ r)
  rw [first] at kept
  dsimp only
  rw [kept.deref at_header,ok_bind,count]
  rfl

-- The header page has the number of records, and every object on the file can tell it.
def Exact (w : Clients) : Prop :=
  ∃ hdr heap, Stored w.pool.view hdr heap (records heap).length ∧
    ∀ o ∈ w.objects, HeapFile.getRecCnt w.pool o.file = .ok (records heap).length

-- As long as a record is deleted only where there is one, the count is right at every point of a
-- run, up to the largest int.
theorem getRecCnt_exact (stale : Int → Page) (name : Name) (raw : HeapFileScan) (calls : List ClientCall)
    (meets : lifetimeSound stale name raw calls = true) :
    ∃ w hdr heap recCnt, lifetime stale name raw calls = .ok w ∧ Stored w.pool.view hdr heap recCnt ∧
      ((records heap).length < 2 ^ 31 → Exact w) := by
  obtain ⟨hdr,n,b,created,kept,stored⟩ := createHeapFile_spec stale name
  have owned : ({Pool.Books.unused with first := hdr} : Pool.Books).Owned := fun _ marked => False.elim marked
  rw [lifetimeSound,created] at meets
  have none_yet : records [(n,[])] = [] := rfl
  have start : Together {Pool.Books.unused with first := hdr} [(n,[])] ⟨b,[]⟩ :=
    ⟨kept,by rw [none_yet,List.length_nil,Nat.cast_zero,Int.zero_bmod]; exact stored,by simp⟩
  obtain ⟨heap,w,ran,together⟩ := run_spec owned raw start meets
  refine ⟨w,hdr,heap,_,by rw [lifetime,created]; exact ran,together.stored,?_⟩
  intro few
  have int : Int.bmod (records heap).length (256 ^ 4) = (records heap).length := int_bmod (by omega) (by omega)
  have stored := together.stored
  rw [int] at stored
  refine ⟨hdr,heap,stored,fun o member => ?_⟩
  rw [← int]
  exact together.getRecCnt member

theorem getRecCnt_exact_two :
    let calls := [.openInsert,.insertRecord 0 [1],.openScan 0 0 (some .string) none .eq,.scanNext 1,.insertRecord 0
      [2],.deleteRecord 1,
      .scanNext 1,.deleteRecord 1,.close 0]
    ∃ w hdr heap recCnt, lifetime (fun _ => zero 1024) [114] Writers.rawScan calls = .ok w ∧
      Stored w.pool.view hdr heap recCnt ∧
      ((records heap).length < 2 ^ 31 → Exact w) := by
  intro calls
  exact getRecCnt_exact (fun _ => zero 1024) [114] Writers.rawScan calls (by decide +kernel)

-- Deleting one record twice counts two records less.
def deletedTwice : List ClientCall :=
  [.openInsert,.insertRecord 0 [1],.close 0,.openScan 0 0 (some .string) none .eq,.scanNext 0,.deleteRecord 0,
    .deleteRecord 0]

theorem getRecCnt_negative : ∃ w, lifetime (fun _ => zero 1024) [114] Writers.rawScan deletedTwice =
    .ok w ∧ ¬ Exact w := by
  have ran : (lifetime (fun _ => zero 1024) [114] Writers.rawScan deletedTwice).toOption.map (fun w =>
      w.objects.map fun o => (HeapFile.getRecCnt w.pool o.file).toOption) = some [some (-1)] := by decide +kernel
  obtain ⟨w,done,counts⟩ := Option.map_eq_some_iff.mp ran
  refine ⟨w,?_,?_⟩
  · generalize lifetime (fun _ => zero 1024) [114] Writers.rawScan deletedTwice = result at done
    cases result with
    | error a => cases done
    | ok w' => cases done; rfl
  · rintro ⟨hdr,heap,_,told⟩
    obtain ⟨o,only,count⟩ := List.map_eq_singleton_iff.mp counts
    rw [told o (by rw [only]; exact List.mem_singleton_self o)] at count
    have count : ((records heap).length : Int) = -1 := Option.some.inj count
    omega

end Clients
end Minirel
