import Minirel.PinOwnership
import Minirel.HeapWriters

namespace Minirel

-- An object on the heap file, of any of the three classes.
inductive HeapObject where
  | file (h : HeapFile)
  | scan (s : HeapFileScan)
  | insert (s : InsertFileScan)

inductive ObjectCall where
  | getRecord (rid : RID)
  | getRecCnt
  | startScan (offset length : Int) (type : Option Datatype) (filter : Option (List UInt8)) (op : Operator)
  | endScan
  | markScan
  | resetScan
  | scanNext
  | getCurrent
  | deleteRecord
  | markDirty
  | insertRecord (rec : Record)

namespace HeapObject

def base : HeapObject → HeapFile
  | .file h => h
  | .scan s => s.toHeapFile
  | .insert s => s.toHeapFile

def setBase (h : HeapFile) : HeapObject → HeapObject
  | .file _ => .file h
  | .scan s => .scan {s with toHeapFile := h}
  | .insert _ => .insert ⟨h⟩

def destroy (b : Pool) : HeapObject → Pool
  | .file h => h.destroy b
  | .scan s => s.destroy b
  | .insert s => s.destroy b

-- A call of one of the object's methods.
def call (b : Pool) : HeapObject → ObjectCall → Except Abort (HeapObject × Pool)
  | o,.getRecord rid => do
    let (_,h,b) ← HeapFile.getRecord b o.base rid
    return (o.setBase h,b)
  | o,.getRecCnt => do
    let _ ← HeapFile.getRecCnt b o.base
    return (o,b)
  | .scan s,.startScan offset length type filter op => return (.scan (s.startScan offset length type filter op).2,b)
  | .scan s,.endScan => return (.scan (s.endScan b).2.1,(s.endScan b).2.2)
  | .scan s,.markScan => return (.scan s.markScan.2,b)
  | .scan s,.resetScan => return (.scan (s.resetScan b).2.1,(s.resetScan b).2.2)
  | .scan s,.scanNext => do
    let (_,s,b) ← HeapFileScan.scanNext b s
    return (.scan s,b)
  | .scan s,.getCurrent => do
    let _ ← HeapFileScan.getRecord b s
    return (.scan s,b)
  | .scan s,.deleteRecord => do
    let (_,s,b) ← HeapFileScan.deleteRecord b s
    return (.scan s,b)
  | .scan s,.markDirty => return (.scan s.markDirty.2,b)
  | .insert s,.insertRecord rec => do
    let (_,s,b) ← InsertFileScan.insertRecord b s rec
    return (.insert s,b)
  | o,_ => return (o,b)

-- The page is pinned or in the file, so that a readPage of it can only lack a frame.
def has (b : Pool) (pageNo : Int) : Bool := (b.frames pageNo).isSome ||
    (File.readPage .working b.file pageNo).toOption.isSome

-- So is every page that follows it, for as many pages as the file can have.
def hasChain (b : Pool) : Nat → Int → Bool
  | 0,_ => true
  | turns + 1,pageNo => has b pageNo && (b.view pageNo).all fun page =>
    page.getNextPage = -1 || hasChain b turns page.getNextPage

-- Pages that scanNext and insertRecord find through the header page.
def hasFirst (b : Pool) (h : HeapFile) : Bool :=
  (b.deref h.headerPage).toOption.all fun header =>
    FileHdrPage.firstPage header = -1 || hasChain b b.file.length (FileHdrPage.firstPage header)

def hasLast (b : Pool) (h : HeapFile) : Bool := (b.deref h.headerPage).toOption.all fun header =>
    has b (FileHdrPage.lastPage header)

-- A call finds the pages it goes to in the file, the two calls that may go to a page of the client's choice
-- can read it before they leave the page they have, and a scan without a page is not asked for its record.
def goesWell (b : Pool) (o : HeapObject) : ObjectCall → Bool
  | .getRecord rid => HeapFile.reaches b o.base rid.pageNo && has b rid.pageNo
  | .resetScan =>
    match o with
    | .scan s =>
      HeapFile.reaches b s.toHeapFile s.markedPageNo && (s.markedPageNo = s.curPageNo || has b s.markedPageNo)
    | _ => true
  | .scanNext =>
    match o with
    | .scan s => s.curPageNo < 0 || match s.curPage with
      | none => hasFirst b s.toHeapFile
      | some pageNo => hasChain b b.file.length pageNo
    | _ => true
  | .insertRecord _ =>
    match o with
    | .insert s => s.curPage.isSome || hasLast b s.toHeapFile
    | _ => true
  | .getCurrent => match o with | .scan s => s.curPage.isSome | _ => true
  | .deleteRecord => match o with | .scan s => s.curPage.isSome | _ => true
  | _ => true

open HeapFile (Owns owns_current owns_alone)

variable {others : Int → Nat} {b : Pool} {o : HeapObject}

@[simp] theorem base_setBase (h : HeapFile) (o : HeapObject) : (o.setBase h).base = h := by
  cases o <;> rfl

theorem getRecCnt_there {h : HeapFile} (owns : Owns others b h) : ∃ count, HeapFile.getRecCnt b h = .ok count := by
  obtain ⟨header,there⟩ := owns.header_there
  exact ⟨_,by rw [HeapFile.getRecCnt,there,ok_bind]; rfl⟩

-- Whatever is called, and whatever it returns, the object has the pins that its members say.
theorem call_owns (owns : Owns others b o.base) (c : ObjectCall) (well : goesWell b o c = true) :
    Safe (fun r : HeapObject × Pool => Owns others r.2 r.1.base) (o.call b c) := by
  cases c with
  | getRecord rid =>
    obtain ⟨result,h',b',ran,owns',_⟩ := owns.getRecord_spec rid (Bool.and_eq_true_iff.mp well).1
    have done : o.call b (.getRecord rid) = .ok (o.setBase h',b') := by cases o <;> simp only [call,ran] <;> rfl
    rw [done]
    dsimp only [Safe]
    rw [base_setBase]
    exact owns'
  | getRecCnt =>
    obtain ⟨count,ran⟩ := getRecCnt_there owns
    have done : o.call b .getRecCnt = .ok (o,b) := by cases o <;> simp only [call,ran] <;> rfl
    rw [done]
    exact owns
  | startScan offset length type filter op =>
    cases o with
    | scan s =>
      change Owns others b (s.startScan offset length type filter op).2.toHeapFile
      rw [HeapFileScan.startScan_keeps]
      exact owns
    | _ => exact owns
  | endScan =>
    cases o with
    | scan s => exact HeapFileScan.endScan_owns owns
    | _ => exact owns
  | markScan => cases o <;> exact owns
  | resetScan =>
    cases o with
    | scan s => exact HeapFileScan.resetScan_owns owns (Bool.and_eq_true_iff.mp well).1
    | _ => exact owns
  | scanNext =>
    cases o with
    | scan s => exact (HeapFileScan.scanNext_owns owns).bind fun r owns' => owns'
    | _ => exact owns
  | getCurrent =>
    cases o with
    | scan s =>
      obtain ⟨page,there,_⟩ := owns.page_there (Option.isSome_iff_ne_none.mp well)
      have there : b.deref s.curPage = .ok page := there
      rw [call,HeapFileScan.getRecord,there]
      exact owns
    | _ => exact owns
  | deleteRecord =>
    cases o with
    | scan s => exact (HeapFileScan.deleteRecord_owns owns (Option.isSome_iff_ne_none.mp well)).bind fun r owns' =>
      owns'
    | _ => exact owns
  | markDirty =>
    cases o with
    | scan s => exact owns.congr rfl rfl rfl rfl
    | _ => exact owns
  | insertRecord rec =>
    cases o with
    | insert s =>
      obtain ⟨result,s',b',ran,owns'⟩ := InsertFileScan.insertRecord_owns owns rec
      rw [call,ran]
      exact owns'
    | _ => exact owns

-- The destructors give back what the object has, and nothing else.
theorem destroy_tallied (owns : Owns others b o.base) : (o.destroy b).Tallied others := by
  have done : ∀ {b : Pool} {h : HeapFile}, Owns others b h → (h.destroy b).Tallied others := by
    intro b h owns
    cases cur : h.curPage with
    | none =>
      obtain ⟨b1,unpinned,tallied,_⟩ := (owns.alone cur).unPinPage h.hdrDirtyFlag
      simp only [HeapFile.destroy,cur,unpinned]
      exact tallied.openCnt _
    | some n =>
      obtain ⟨b1,unpinned1,tallied1,_⟩ := owns.leave (by rw [cur]; exact Option.some_ne_none n) h.curDirtyFlag
      obtain ⟨b2,unpinned2,tallied2,_⟩ := tallied1.unPinPage h.hdrDirtyFlag
      simp only [HeapFile.destroy,cur,unpinned1,unpinned2]
      exact tallied2.openCnt _
  cases o with
  | file h => exact done owns
  | scan s => exact done (HeapFileScan.endScan_owns owns)
  | insert s =>
    cases cur : s.curPage with
    | none =>
      simp only [destroy,InsertFileScan.destroy,cur]
      exact done owns
    | some n =>
      have owns : Owns others b s.toHeapFile := owns
      obtain ⟨b1,unpinned,tallied,_⟩ := owns.leave (by rw [cur]; exact Option.some_ne_none n) true
      simp only [destroy,InsertFileScan.destroy,cur,unpinned]
      exact done (owns_alone tallied owns.headerPage rfl)

end HeapObject

-- All the objects that are open on one file.
structure OpenObjects where
  pool : Pool
  objects : List HeapObject

inductive OwnerCall where
  | openFile
  | openScan
  | openInsert
  | call (object : Nat) (c : ObjectCall)
  | close (object : Nat)

namespace OpenObjects

def step (raw : HeapFileScan) (w : OpenObjects) : OwnerCall → Except Abort OpenObjects
  | .openFile => do
    let (_,h,b) ← HeapFile.construct w.pool.openFile.2 raw.toHeapFile
    return ⟨b,w.objects ++ [.file h]⟩
  | .openScan => do
    let (_,s,b) ← HeapFileScan.construct w.pool.openFile.2 raw
    return ⟨b,w.objects ++ [.scan s]⟩
  | .openInsert => do
    let (_,s,b) ← InsertFileScan.construct w.pool.openFile.2 ⟨raw.toHeapFile⟩
    return ⟨b,w.objects ++ [.insert s]⟩
  | .call i c =>
    match w.objects[i]? with
    | none => return w
    | some o => do
      let (o,b) ← o.call w.pool c
      return ⟨b,w.objects.set i o⟩
  | .close i =>
    match w.objects[i]? with
    | none => return w
    | some o => return ⟨o.destroy w.pool,w.objects.eraseIdx i⟩

def run (raw : HeapFileScan) : OpenObjects → List OwnerCall → Except Abort OpenObjects
  | w,[] => return w
  | w,c::rest => do run raw (← step raw w c) rest

-- The pool fails in no other way than that no frame is to be had.
def onlyFull (b : Pool) : Bool := b.faults.all fun fault => fault.all (· = .bufferExceeded)

-- The constructors succeed, and the calls go well.
def well (raw : HeapFileScan) (w : OpenObjects) (c : OwnerCall) : Bool := onlyFull w.pool && match c with
  | .openFile => HeapFile.opens w.pool.openFile.2 raw.toHeapFile
  | .openScan => HeapFile.opens w.pool.openFile.2 raw.toHeapFile
  | .openInsert =>
    HeapFile.opens w.pool.openFile.2 raw.toHeapFile && InsertFileScan.succeeds w.pool.openFile.2 ⟨raw.toHeapFile⟩
  | .call i c => w.objects[i]?.all (HeapObject.goesWell w.pool · c)
  | .close _ => true

def allWell (raw : HeapFileScan) : OpenObjects → List OwnerCall → Bool
  | _,[] => true
  | w,c::rest => w.well raw c && match step raw w c with
    | .ok w' => allWell raw w' rest
    | .error _ => true

def holdings (objects : List HeapObject) : Int → Nat := (objects.map fun o => o.base.holds).sum

-- Each object has its own pins, which its members describe, and others have the rest.
structure Owned (others : Int → Nat) (w : OpenObjects) : Prop where
  tallied : w.pool.Tallied (others + holdings w.objects)
  pointers : ∀ o ∈ w.objects, o.base.headerPage = some o.base.headerPageNo ∧ ∀ n, o.base.curPage = some n →
    n = o.base.curPageNo

-- getRecord gives what the page has for its readers, whenever the page can be had.
def Reads (w : OpenObjects) : Prop :=
  ∀ o ∈ w.objects, ∀ (rid : RID) (page : Page), w.pool.view rid.pageNo = some page →
    HeapFile.readable w.pool rid.pageNo = true →
    ∃ h b, HeapFile.getRecord w.pool o.base rid = .ok (page.getRecord rid,h,b)

variable {others : Int → Nat} {b : Pool} {o : HeapObject} {l r : List HeapObject} {w : OpenObjects}

theorem holdings_middle (l r : List HeapObject) (o : HeapObject) :
    holdings (l ++ o::r) = holdings (l ++ r) + o.base.holds := by
  simp only [holdings,List.map_append,List.map_cons,List.sum_append,List.sum_cons]
  rw [add_left_comm,add_comm]

theorem Owned.owns (owned : Owned others ⟨b,l ++ o::r⟩) : HeapFile.Owns (others + holdings (l ++ r)) b o.base := by
  have tallied := owned.tallied
  obtain ⟨header,current⟩ := owned.pointers o (by simp)
  dsimp only at tallied
  rw [holdings_middle,← add_assoc] at tallied
  exact ⟨tallied,header,current⟩

theorem Owned.beside (owned : Owned others ⟨b,l ++ o::r⟩) :
    ∀ p ∈ l ++ r, p.base.headerPage = some p.base.headerPageNo ∧ ∀ n, p.base.curPage = some n →
      n = p.base.curPageNo := by
  intro p inside
  refine owned.pointers p ?_
  rcases List.mem_append.mp inside with left | right
  · exact List.mem_append_left _ left
  · exact List.mem_append_right _ (List.mem_cons_of_mem _ right)

theorem owned_of_owns (owns : HeapFile.Owns (others + holdings (l ++ r)) b o.base)
    (rest : ∀ p ∈ l ++ r, p.base.headerPage = some p.base.headerPageNo ∧ ∀ n, p.base.curPage = some n → n =
      p.base.curPageNo) :
    Owned others ⟨b,l ++ o::r⟩ := by
  refine ⟨?_,fun p inside => ?_⟩
  · dsimp only
    rw [holdings_middle,← add_assoc]
    exact owns.tallied
  · rcases List.mem_append.mp inside with left | here_or_right
    · exact rest p (List.mem_append_left _ left)
    · rcases List.mem_cons.mp here_or_right with rfl | right
      · exact ⟨owns.headerPage,owns.current⟩
      · exact rest p (List.mem_append_right _ right)

-- An object that has just been made stands behind the others.
theorem Owned.more {b' : Pool} (owned : Owned others w) (owns : HeapFile.Owns (others + holdings w.objects) b' o.base) :
    Owned others ⟨b',w.objects ++ [o]⟩ :=
  owned_of_owns (r:=[]) (by rw [List.append_nil]; exact owns) (by rw [List.append_nil]; exact owned.pointers)

theorem step_owned (raw : HeapFileScan) (owned : Owned others w) (c : OwnerCall) (well : w.well raw c = true) :
    Safe (Owned others) (step raw w c) := by
  obtain ⟨_,well⟩ := Bool.and_eq_true_iff.mp well
  have opened : w.pool.openFile.2.Tallied (others + holdings w.objects) := owned.tallied.openCnt _
  cases c with
  | openFile =>
    obtain ⟨h,b,made,owns,_⟩ := HeapFile.construct_owns opened raw.toHeapFile (HeapFile.opens_reads well)
    rw [step,made]
    exact owned.more (o:=.file h) owns
  | openScan =>
    obtain ⟨h,b,made,owns,_⟩ := HeapFile.construct_owns opened raw.toHeapFile (HeapFile.opens_reads well)
    rw [step,HeapFileScan.construct,made]
    exact owned.more (o:=.scan {raw with toHeapFile := h, filter := none}) owns
  | openInsert =>
    obtain ⟨opens,succeeds⟩ := Bool.and_eq_true_iff.mp well
    obtain ⟨s,b,made,owns⟩ := InsertFileScan.construct_owns opened ⟨raw.toHeapFile⟩ (HeapFile.opens_reads opens)
      succeeds
    rw [step,made]
    exact owned.more (o:=.insert s) owns
  | call i c =>
    obtain ⟨b,objects⟩ := w
    cases there : objects[i]? with
    | none =>
      simp only [step,there]
      exact owned
    | some o =>
      obtain ⟨l,r,rfl,rfl⟩ := at_index there
      simp only [there,Option.all_some] at well
      simp only [step,there]
      refine (HeapObject.call_owns owned.owns c well).bind fun result owns => ?_
      have set : (l ++ o::r).set l.length result.1 = l ++ result.1::r := by
        rw [List.set_append_right _ _ (Nat.le_refl _),Nat.sub_self,List.set_cons_zero]
      rw [set]
      exact owned_of_owns owns owned.beside
  | close i =>
    obtain ⟨b,objects⟩ := w
    cases there : objects[i]? with
    | none =>
      simp only [step,there]
      exact owned
    | some o =>
      obtain ⟨l,r,rfl,rfl⟩ := at_index there
      simp only [step,there]
      have erased : (l ++ o::r).eraseIdx l.length = l ++ r := by
        rw [List.eraseIdx_append_of_length_le (Nat.le_refl _),Nat.sub_self,List.eraseIdx_cons_zero]
      rw [erased]
      exact ⟨HeapObject.destroy_tallied owned.owns,owned.beside⟩

theorem Owned.reads (owned : Owned others w) : w.Reads := by
  obtain ⟨b,objects⟩ := w
  intro o member rid page seen can
  obtain ⟨l,r,rfl⟩ := List.append_of_mem member
  have reaches : HeapFile.reaches b o.base rid.pageNo = true := by
    rw [HeapFile.reaches,can,Bool.or_true]
  obtain ⟨result,h,b',read,_,told⟩ := owned.owns.getRecord_spec rid reaches
  refine ⟨h,b',?_⟩
  rw [read,told page seen (of_decide_eq_true can)]

theorem run_owned (raw : HeapFileScan) (calls : List OwnerCall) (owned : Owned others w)
    (meets : allWell raw w calls = true) :
    Safe (Owned others) (run raw w calls) := by
  induction calls generalizing w with
  | nil => exact owned
  | cons c rest ih =>
    rw [allWell,Bool.and_eq_true] at meets
    have later := meets.2
    have stepped := step_owned raw owned c meets.1
    rw [run]
    generalize step raw w c = outcome at later stepped
    cases outcome with
    | error abort => exact stepped
    | ok w' => exact ih stepped later

-- Pins stay where the members of the objects say they are, and a destructor gives back the pins of
-- its object and no others, as long as no page is read for nothing: a readPage that fails when it has
-- its frame has thrown another page out of the hash table.
theorem pins_owned (others : Int → Nat) (b : Pool) (tallied : b.Tallied others) (raw : HeapFileScan)
    (calls : List OwnerCall)
    (meets : allWell raw ⟨b,[]⟩ calls = true) : Safe (fun w => Owned others w ∧ w.Reads) (run raw ⟨b,[]⟩ calls) := by
  have start : Owned others ⟨b,[]⟩ := ⟨by rw [holdings,List.map_nil,List.sum_nil,add_zero]; exact tallied,by simp⟩
  exact (run_owned raw calls start meets).imp fun w owned => ⟨owned,owned.reads⟩

theorem emptyFile_tallied : Writers.emptyFile.Tallied 0 := by
  obtain ⟨hdr,n,kept,_⟩ := Writers.emptyFile_stored
  have tallied := kept.tallied
  exact tallied

theorem pins_owned_three :
    let calls := [.openFile,.openScan,.openInsert,.call 2 (.insertRecord (.of [1])),.call 1 .scanNext,.call 0
      (.getRecord ⟨2,0⟩),
      .call 0 (.getRecord ⟨2,7⟩),.call 1 .deleteRecord,.call 1 .scanNext,.call 1 .endScan,.call 1
        (.getRecord ⟨2,0⟩),.close 0,.close 1]
    Safe (fun w => Owned 0 w ∧ w.Reads) (run Writers.rawScan ⟨Writers.emptyFile,[]⟩ calls) := by
  intro calls
  have meets : allWell Writers.rawScan ⟨Writers.emptyFile,[]⟩ calls = true := by decide +kernel
  clear_value calls
  exact pins_owned 0 Writers.emptyFile emptyFile_tallied Writers.rawScan calls meets

-- A page that is not in the file: the object has given back its page, and curPage still points there.
def missingPage : List OwnerCall := [.openFile,.call 0 (.getRecord ⟨9,0⟩)]

theorem pin_lost : ∃ w, run Writers.rawScan ⟨Writers.emptyFile,[]⟩ missingPage = .ok w ∧ ¬ Owned 0 w := by
  have ran : ((run Writers.rawScan ⟨Writers.emptyFile,[]⟩ missingPage).toOption.map fun w =>
      w.objects.map fun o => (o.base.curPage,(w.pool.frames 2).isNone)) = some [(some 2,true)] := by decide +kernel
  obtain ⟨w,done,facts⟩ := Option.map_eq_some_iff.mp ran
  refine ⟨w,?_,fun owned => ?_⟩
  · generalize run Writers.rawScan ⟨Writers.emptyFile,[]⟩ missingPage = result at done
    cases result with
    | error a => cases done
    | ok w' => cases done; rfl
  · obtain ⟨o,only,pointer⟩ := List.map_eq_singleton_iff.mp facts
    obtain ⟨cur,unpinned⟩ := Prod.mk.inj pointer
    have count := owned.tallied.pinned 2
    rw [only,Option.isNone_iff_eq_none.mp unpinned,holdings,List.map_singleton,List.sum_singleton,HeapFile.holds,
      cur] at count
    simp at count
    omega

end OpenObjects
end Minirel
