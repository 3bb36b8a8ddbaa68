import Minirel.BufStage6Coherence
import Minirel.Pool

namespace Minirel

namespace File

-- The header page tells how many pages there are.
theorem Counted.length_eq {file other : UnixFile} (counted : Counted file) (counted' : Counted other)
    (same : header other = header file) :
    other.length = file.length := by
  have one := counted.counted
  have two := counted'.counted
  have bound := counted.bound
  have bound' := counted'.bound
  have present := counted.present
  have present' := counted'.present
  rw [same,one,Int.bmod_def,Int.bmod_def] at two
  split at two <;> split at two <;> omega

-- Where nothing is on the free list, the new page and the new header depend on the old header alone.
theorem allocatePage_alike {file other made : UnixFile} {pageNo : Int} (present : 0 < file.length)
    (present' : 0 < other.length)
    (none : NoFreePages file) (same : header other = header file) (ran : allocatePage .working file =
      (.ok pageNo,made)) :
    ∃ made', allocatePage .working other = (.ok pageNo,made') ∧ header made' = header made := by
  have extends_ : ∀ f : UnixFile, header f = header file → 0 < f.length →
      allocatePage .working f = extend .working f (header file) := by
    intro f same there
    have full : DBPage.nextFree (header file) = -1 := none
    rw [allocatePage,intread_header there,same]
    simp only [Io.working,Bool.false_eq_true,if_false,full,ne_eq,not_true_eq_false]
  rw [extends_ file rfl present] at ran
  rw [extends_ other same present']
  unfold extend intwrite at ran ⊢
  by_cases negative : DBPage.numPages (header file) < 0
  · simp [negative] at ran
  · simp only [Io.working,Bool.false_eq_true,negative,or_self,if_false,Int.lt_irrefl] at ran ⊢
    cases ran
    exact ⟨_,rfl,by rw [Int.toNat_zero,header_overwrite,header_overwrite]⟩

-- The page comes next behind those that are there.
theorem allocatePage_next {file made : UnixFile} {pageNo : Int} (counted : Counted file) (none : NoFreePages file)
    (ran : allocatePage .working file = (.ok pageNo,made)) :
    pageNo = file.length ∧ made.length = file.length + 1 := by
  rcases allocatePage_working counted none with ⟨_,failed⟩ | ⟨file',extended,longer,_⟩
  · rw [ran] at failed
    cases failed
  · rw [ran] at extended
    cases extended
    exact ⟨rfl,longer⟩

-- The pages that were there are where they were.
theorem Allocated.at_other {file made : UnixFile} {pageNo : Int} (spec : Allocated file made (.ok pageNo))
    (next : pageNo = file.length) (longer : made.length = file.length + 1) {q : Int} (low : 1 ≤ q)
    (other : q ≠ pageNo) : at? made q = at? file q := by
  rcases Int.lt_or_le q file.length with inside | beyond
  · obtain ⟨page,found⟩ := at_inside (by omega) inside
    exact spec.kept q low (by rw [found]; rfl)
  · exact (at_beyond (.inr (by omega))).trans (at_beyond (.inr beyond)).symm

end File

namespace Stage6
open Consistent

abbrev Pools := FileId → Pool

def works : Faults := fun _ => .working

-- What a status tells.
def checked (status : Status) : Except Status (Option Int) := if status = .ok then .ok none else .error status

-- What the buffer manager answers, with the number of a new page. A client that names no pin of its own makes no call.
def reply (s : System) : Act → Except Status (Option Int)
  | .readPage file pageNo => (readPage works s.storage file pageNo).1.map fun _ => none
  | .allocPage file => (allocPage works s.storage file).1.map fun made => some made.1
  | .modify _ _ => .ok none
  | .unPinPage n dirty =>
    match s.pins[n]? with
    | some pin => checked (unPinPage s.storage pin.file pin.pageNo (dirty || pin.modified)).1
    | none => .ok none
  | .unPinOther file pageNo dirty =>
    if s.pins.any (·.on file pageNo) then .ok none else checked (unPinPage s.storage file pageNo dirty).1
  | .flushFile file => checked (flushFile works s.storage file).1

namespace Pools

def set (pools : Pools) (file : FileId) (b : Pool) : Pools := Function.update pools file b

-- The same acts, on the pools of the files.
def step (pools : Pools) (pins : List Pin) : Act → Pools
  | .readPage file pageNo => pools.set file ((pools file).readPage pageNo).2
  | .allocPage file => pools.set file (pools file).allocPage.2
  | .modify n page =>
    match pins[n]? with
    | some pin => pools.set pin.file ((pools pin.file).assign (some pin.pageNo) page)
    | none => pools
  | .unPinPage n dirty =>
    match pins[n]? with
    | some pin => pools.set pin.file ((pools pin.file).unPinPage pin.pageNo (dirty || pin.modified)).2
    | none => pools
  | .unPinOther _ _ _ => pools
  | .flushFile _ => pools

def reply (pools : Pools) (pins : List Pin) : Act → Except Status (Option Int)
  | .readPage file pageNo => checked ((pools file).readPage pageNo).1
  | .allocPage file => (pools file).allocPage.1.map some
  | .modify _ _ => .ok none
  | .unPinPage n dirty =>
    match pins[n]? with
    | some pin => checked ((pools pin.file).unPinPage pin.pageNo (dirty || pin.modified)).1
    | none => .ok none
  | .unPinOther _ _ _ => .ok none
  | .flushFile _ => .ok none

def restock (pools : Pools) (stale : FileId → Int → Page) : Pools := fun file => {pools file with stale := stale file}

end Pools

-- Calls that succeed, on pages other than the header page.
def Working : System → List Act → Prop
  | _,[] => True
  | s,act::acts =>
    (∀ file, act ≠ .readPage file 0) ∧ (∃ found, reply s act = .ok found) ∧ Working (s.step release works act) acts

-- The frame that the clients of a page see.
def view (last : Contents) (pins : List Pin) (file : FileId) (pageNo : Int) : Option Frame :=
  if pinsOn pins file pageNo = 0 then none else (last file pageNo).map fun page => ⟨page,pinsOn pins file pageNo⟩

structure Sees (s : System) (pools : Pools) : Prop where
  consistent : Consistent hash s.mgr s.disk s.last s.pins
  noFree : ∀ file, File.NoFreePages (s.disk file)
  counted : ∀ file, File.Counted (pools file).file
  header : ∀ file, File.header (pools file).file = File.header (s.disk file)
  stored : ∀ file pageNo, 1 ≤ pageNo → Unmodified s.pins file pageNo →
    File.at? (pools file).file pageNo = s.last file pageNo
  frames : ∀ file pageNo, (pools file).frames pageNo = view s.last s.pins file pageNo
  low : ∀ pin ∈ s.pins, 1 ≤ pin.pageNo
  working : ∀ file, (pools file).faults = []

-- What a client can tell: what is behind the pointers it holds, and where a file begins.
structure Alike (s : System) (pools : Pools) : Prop where
  pages : ∀ pin ∈ s.pins, (pools pin.file).deref (some pin.pageNo) = .ok (s.mgr.bufPool pin.frame)
  firstPage : ∀ file, (pools file).getFirstPage.1 = File.getFirstPage .working (s.disk file)

def Follows : System → Pools → List Act → Prop
  | s,pools,[] => Alike s pools
  | s,pools,act::acts => Alike s pools ∧ pools.reply s.pins act = reply s act ∧
    Follows (s.step release works act) (pools.step s.pins act) acts

variable {s : System} {pools : Pools} {last : Contents} {pins : List Pin} {file : FileId} {pageNo : Int}
  {n : Nat} {pin : Pin}

theorem pinsOn_pos (member : pin ∈ pins) : pinsOn pins pin.file pin.pageNo ≠ 0 := fun none =>
  List.countP_eq_zero.mp none pin member (Pin.on_iff.mpr ⟨rfl,rfl⟩)

theorem unmodified_unpinned (none : pinsOn pins file pageNo = 0) : Unmodified pins file pageNo := fun pin member on =>
  absurd on (List.countP_eq_zero.mp none pin member)

theorem pinsOn_elsewhere (other : ¬ (pin.file = file ∧ pin.pageNo = pageNo)) :
    pinsOn (pin::pins) file pageNo = pinsOn pins file pageNo :=
  pinsOn_off fun on => other (Pin.on_iff.mp on)

theorem view_held (member : pin ∈ pins) {page : Page} (known : last pin.file pin.pageNo = some page) :
    view last pins pin.file pin.pageNo = some ⟨page,pinsOn pins pin.file pin.pageNo⟩ := by
  rw [view,if_neg (pinsOn_pos member),known]
  rfl

theorem Sees.alike (sees : Sees s pools) : Alike s pools := by
  refine ⟨fun pin member => ?_,fun file => ?_⟩
  · rw [Pool.deref,sees.frames,view_held member (sees.consistent.held_contents member)]
  · rw [Pool.getFirstPage,sees.working file]
    change File.getFirstPage .working (pools file).file = _
    rw [File.getFirstPage,File.getFirstPage,File.intread_header (sees.counted file).present,
      File.intread_header (sees.consistent.counted file).present,sees.header]

theorem Sees.unpinned_low (sees : Sees s pools) (below : ¬ 1 ≤ pageNo) : pinsOn s.pins file pageNo = 0 :=
  List.countP_eq_zero.mpr fun pin member on => by
    have least := sees.low pin member
    rw [(Pin.on_iff.mp on).2] at least
    exact below least

theorem Sees.unpinned_unknown (sees : Sees s pools) (unknown : s.last file pageNo = none) :
    pinsOn s.pins file pageNo = 0 :=
  List.countP_eq_zero.mpr fun pin member on => by
    obtain ⟨rfl,rfl⟩ := Pin.on_iff.mp on
    rw [sees.consistent.held_contents member] at unknown
    cases unknown

-- A page that a call leaves alone is seen as before.
theorem Sees.still (sees : Sees s pools) {last : Contents} {pins : List Pin}
    (counts : pinsOn pins file pageNo = pinsOn s.pins file pageNo)
    (same : 1 ≤ pageNo → last file pageNo = s.last file pageNo) :
    (pools file).frames pageNo = view last pins file pageNo := by
  rw [sees.frames,view,view,counts]
  by_cases least : 1 ≤ pageNo
  · rw [same least]
  · rw [if_pos (sees.unpinned_low least),if_pos (sees.unpinned_low least)]

theorem Sees.restock (sees : Sees s pools) (stale : FileId → Int → Page) : Sees s (pools.restock stale) :=
  ⟨sees.consistent,sees.noFree,sees.counted,sees.header,sees.stored,sees.frames,sees.low,sees.working⟩

-- What the pages of one file become is all that a call changes.
theorem Sees.after (sees : Sees s pools) {s' : System} {b : Pool}
    (consistent : Consistent hash s'.mgr s'.disk s'.last s'.pins)
    (header : ∀ g, g ≠ file → File.header (s'.disk g) = File.header (s.disk g)) (own : File.header b.file =
      File.header (s'.disk file))
    (noFree : File.NoFreePages (s'.disk file)) (counted : File.Counted b.file)
    (stored : ∀ q, 1 ≤ q → Unmodified s'.pins file q → File.at? b.file q = s'.last file q)
    (frames : ∀ q, b.frames q = view s'.last s'.pins file q) (low : ∀ pin ∈ s'.pins, 1 ≤ pin.pageNo)
    (working : b.faults = [])
    (counts : ∀ g q, g ≠ file → pinsOn s'.pins g q = pinsOn s.pins g q)
    (marks : ∀ g q, g ≠ file → Unmodified s'.pins g q → Unmodified s.pins g q)
    (others : ∀ g q, g ≠ file → 1 ≤ q → s'.last g q = s.last g q) : Sees s' (pools.set file b) := by
  have own_pool : pools.set file b file = b := Function.update_self ..
  have other_pool : ∀ g, g ≠ file → pools.set file b g = pools g := fun g other => Function.update_of_ne other ..
  refine ⟨consistent,fun g => ?_,fun g => ?_,fun g => ?_,fun g q least still => ?_,fun g q => ?_,low,fun g => ?_⟩
  all_goals
    rcases eq_or_ne g file with rfl | other
  · exact noFree
  · rw [File.NoFreePages,header g other]
    exact sees.noFree g
  · rw [own_pool]
    exact counted
  · rw [other_pool g other]
    exact sees.counted g
  · rw [own_pool]
    exact own
  · rw [other_pool g other,header g other]
    exact sees.header g
  · rw [own_pool]
    exact stored q least still
  · rw [other_pool g other,others g q other least]
    exact sees.stored g q least (marks g q other still)
  · rw [own_pool]
    exact frames q
  · rw [other_pool g other]
    exact sees.still (counts g q other) (others g q other)
  · rw [own_pool]
    exact working
  · rw [other_pool g other]
    exact sees.working g

theorem readPage_header (s : Storage) (file : FileId) (pageNo : Int) (g : FileId) :
    File.header ((readPage works s file pageNo).2.disk g) = File.header (s.disk g) := by
  unfold readPage
  split
  · rfl
  · have kept := allocBuf_header works s g
    cases given : allocBuf works s with
    | mk outcome s' =>
      rw [given] at kept
      cases outcome with
      | error status => exact kept
      | ok frame =>
        dsimp only
        split
        · exact kept
        · split
          · exact kept
          · exact kept

theorem Sees.readPage (sees : Sees s pools) (data : pageNo ≠ 0) {frame : Nat} {storage : Storage}
    (ran : readPage works s.storage file pageNo = (.ok frame,storage)) :
    ((pools file).readPage pageNo).1 = .ok ∧
      Sees (s.afterRead file pageNo (.ok frame,storage)) (pools.set file ((pools file).readPage pageNo).2) := by
  have spec := (readPage_spec works (s:=s.storage) sees.consistent file pageNo).1 frame storage ran
  rw [ran] at spec
  obtain ⟨consistent,known⟩ := spec
  have member : (⟨file,pageNo,frame,false⟩ : Pin) ∈ ⟨file,pageNo,frame,false⟩::s.pins := List.mem_cons_self ..
  have least : 1 ≤ pageNo := by
    obtain ⟨inside,holds⟩ := consistent.found (consistent.held _ member)
    have there := (consistent.used inside holds).stored
    rw [holds.2.2] at there
    obtain ⟨page,there⟩ := Option.isSome_iff_exists.mp there
    have bound : 0 ≤ pageNo := (File.at_some_bound there).1
    omega
  have header : ∀ g, File.header (storage.disk g) = File.header (s.disk g) := fun g => by
    have kept := readPage_header s.storage file pageNo g
    rw [ran] at kept
    exact kept
  -- The pool hands the page out from its frame, or from the file, which has the bytes last left.
  have pool : ((pools file).readPage pageNo).1 = .ok ∧ ((pools file).readPage pageNo).2.file = (pools file).file ∧
      ((pools file).readPage pageNo).2.faults = [] ∧ ((pools file).readPage pageNo).2.frames =
        Function.update (pools file).frames pageNo
          (some ⟨storage.mgr.bufPool frame,pinsOn s.pins file pageNo + 1⟩) := by
    have seen := sees.frames file pageNo
    have faults := sees.working file
    unfold Pool.readPage
    by_cases unpinned : pinsOn s.pins file pageNo = 0
    · rw [view,if_pos unpinned] at seen
      have stored := (sees.stored file pageNo least (unmodified_unpinned unpinned)).trans known
      have read : File.readPage .working (pools file).file pageNo = .ok (storage.mgr.bufPool frame) := by
        rw [File.readPage,if_neg (by omega),File.intread,stored]
        rfl
      rw [seen,faults,unpinned]
      dsimp only [List.head?_nil,Option.join_none]
      rw [read]
      exact ⟨rfl,rfl,congrArg List.tail faults,rfl⟩
    · rw [view,if_neg unpinned,known] at seen
      rw [seen]
      exact ⟨rfl,rfl,faults,rfl⟩
  obtain ⟨status,file_kept,faults,frames⟩ := pool
  have later : ∀ g q, Unmodified (⟨file,pageNo,frame,false⟩::s.pins) g q → Unmodified s.pins g q :=
    fun g q still pin member => still pin (List.mem_cons_of_mem _ member)
  refine ⟨status,sees.after consistent (fun g _ => header g) ?_ ?_ ?_ ?_ ?_ ?_ faults ?_
    (fun g q _ => later g q) fun _ _ _ _ => rfl⟩
  · rw [file_kept]
    exact (sees.header file).trans (header file).symm
  · exact (congrArg DBPage.nextFree (header file)).trans (sees.noFree file)
  · rw [file_kept]
    exact sees.counted file
  · rw [file_kept]
    exact fun q least still => sees.stored file q least (later file q still)
  · intro q
    rw [frames]
    rcases eq_or_ne q pageNo with rfl | other
    · have one_more : pinsOn (⟨file,q,frame,false⟩::s.pins) file q = pinsOn s.pins file q + 1 :=
        pinsOn_on (Pin.on_iff.mpr ⟨rfl,rfl⟩)
      rw [Function.update_self,← one_more]
      exact (view_held member known).symm
    · rw [Function.update_of_ne other]
      exact sees.still (pinsOn_elsewhere fun same => other same.2.symm) fun _ => rfl
  · exact List.forall_mem_cons.mpr ⟨least,sees.low⟩
  · exact fun g q other => pinsOn_elsewhere fun same => other same.1.symm

theorem Sees.modify (sees : Sees s pools) (chosen : s.pins[n]? = some pin) (page : Page) :
    Sees (s.afterModify n pin page) (pools.set pin.file ((pools pin.file).assign (some pin.pageNo) page)) := by
  have member := pin_member chosen
  have consistent := sees.consistent.modify chosen page
  have bound := (List.getElem?_eq_some_iff.mp chosen).1
  have changed : {pin with modified := true} ∈ s.pins.set n {pin with modified := true} :=
    List.mem_of_getElem? (by rw [List.getElem?_set_self bound])
  have counts : ∀ g q, pinsOn (s.pins.set n {pin with modified := true}) g q = pinsOn s.pins g q := by
    intro g q
    rw [pinsOn_split chosen,pinsOn,(List.set_perm_cons_eraseIdx bound _).countP_eq,List.countP_cons]
    rfl
  have kept : ∀ g q, ¬ (pin.file = g ∧ pin.pageNo = q) → Unmodified (s.pins.set n {pin with modified := true}) g q →
      Unmodified s.pins g q := by
    intro g q elsewhere still p old on
    obtain ⟨k,here⟩ := List.mem_iff_getElem?.mp old
    rcases eq_or_ne k n with rfl | apart
    · cases here.symm.trans chosen
      exact absurd (Pin.on_iff.mp on) elsewhere
    · exact still p (List.mem_of_getElem? (by rw [List.getElem?_set_ne (Ne.symm apart)]; exact here)) on
  have others : ∀ g q, ¬ (pin.file = g ∧ pin.pageNo = q) → System.update s.last pin.file pin.pageNo page g q =
      s.last g q :=
    fun g q elsewhere => if_neg fun same => elsewhere ⟨same.1.symm,same.2.symm⟩
  have new : System.update s.last pin.file pin.pageNo page pin.file pin.pageNo = some page := if_pos ⟨rfl,rfl⟩
  have assigned : (pools pin.file).assign (some pin.pageNo) page =
      (pools pin.file).setFrame pin.pageNo (some ⟨page,pinsOn s.pins pin.file pin.pageNo⟩) := by
    rw [Pool.assign,sees.frames,view_held member (sees.consistent.held_contents member)]
  rw [assigned]
  refine sees.after consistent (fun _ _ => rfl) (sees.header pin.file) (sees.noFree pin.file)
    (sees.counted pin.file) ?_ ?_ ?_
    (sees.working pin.file) (fun g q _ => counts g q) (fun g q other => kept g q fun same => other same.1.symm)
    fun g q other _ => others g q fun same => other same.1.symm
  · intro q least still
    have elsewhere : ¬ (pin.file = pin.file ∧ pin.pageNo = q) := fun same => by
      have marked := still _ changed (Pin.on_iff.mpr same)
      cases marked
    exact (sees.stored pin.file q least (kept _ q elsewhere still)).trans (others _ q elsewhere).symm
  · intro q
    rcases eq_or_ne q pin.pageNo with rfl | other
    · refine (Function.update_self ..).trans (Eq.trans ?_ (view_held changed new).symm)
      rw [← counts]
    · have away : ¬ (pin.file = pin.file ∧ pin.pageNo = q) := fun same => other same.2.symm
      exact (Function.update_of_ne other ..).trans (sees.still (counts _ q) fun _ => others _ q away)
  · intro p old
    rcases List.mem_or_eq_of_mem_set old with before | rfl
    · exact sees.low p before
    · exact sees.low pin member

-- What an unpin with dirty = true writes into the pool's file.
theorem Sees.written (sees : Sees s pools) (member : pin ∈ s.pins) :
    ∃ written, File.writePage .working (pools pin.file).file pin.pageNo (s.mgr.bufPool pin.frame) = (.ok,written) ∧
      File.Counted written ∧
      File.header written = File.header (pools pin.file).file ∧ ∀ q, File.at? written q =
        if q = pin.pageNo then s.last pin.file pin.pageNo else File.at? (pools pin.file).file q := by
  have least := sees.low pin member
  have length := (sees.consistent.counted pin.file).length_eq (sees.counted pin.file) (sees.header pin.file)
  obtain ⟨inside,holds⟩ := sees.consistent.found (sees.consistent.held pin member)
  have there := (sees.consistent.used inside holds).stored
  rw [holds.2.2] at there
  obtain ⟨page,there⟩ := Option.isSome_iff_exists.mp there
  have bound := File.at_some_bound there
  have high : pin.pageNo < (pools pin.file).file.length := by
    rw [length]
    exact bound.2
  obtain ⟨old,present⟩ := File.at_inside bound.1 high
  obtain ⟨written,wrote⟩ : ∃ file, File.writePage .working (pools pin.file).file pin.pageNo (s.mgr.bufPool pin.frame) =
      (.ok,file) := by
    rw [File.writePage,if_neg (by omega),File.intwrite,if_neg
      (fun bad => bad.elim Bool.false_ne_true fun below => by omega)]
    exact ⟨_,rfl⟩
  refine ⟨written,wrote,File.writePage_counted (sees.counted pin.file) present wrote,?_,fun q => ?_⟩
  · have same := File.header_writePage .working (pools pin.file).file pin.pageNo (s.mgr.bufPool pin.frame)
    rw [wrote] at same
    exact same
  · rw [File.at_writePage present wrote,sees.consistent.held_contents member]

theorem Sees.unPinPage (sees : Sees s pools) (chosen : s.pins[n]? = some pin) (dirty : Bool)
    (told : pin.modified = true → dirty = true) :
    ((pools pin.file).unPinPage pin.pageNo dirty).1 = .ok ∧ (unPinPage s.storage pin.file pin.pageNo dirty).1 = .ok ∧
      Sees (s.afterUnPin n (unPinPage s.storage pin.file pin.pageNo dirty))
        (pools.set pin.file ((pools pin.file).unPinPage pin.pageNo dirty).2) := by
  have member := pin_member chosen
  have known := sees.consistent.held_contents member
  have given := unPinPage_ok (s:=s.storage) sees.consistent member dirty
  have stays : (s.mgr.bufTable pin.frame).dirty = true → (dirty || (s.mgr.bufTable pin.frame).dirty) = true :=
    fun was => Bool.or_eq_true_iff.mpr (.inr was)
  have consistent := sees.consistent.unpin chosen stays fun changed => Bool.or_eq_true_iff.mpr (.inl (told changed))
  have split := pinsOn_split chosen
  have others : ∀ g q, ¬ (pin.file = g ∧ pin.pageNo = q) →
      pinsOn (s.pins.eraseIdx n) g q = pinsOn s.pins g q := fun g q elsewhere => by
    rw [split,if_neg fun on => elsewhere (Pin.on_iff.mp on),Nat.add_zero]
  have fewer : pinsOn s.pins pin.file pin.pageNo = pinsOn (s.pins.eraseIdx n) pin.file pin.pageNo + 1 := by
    rw [split,if_pos (Pin.on_iff.mpr ⟨rfl,rfl⟩)]
  have kept : ∀ g q, (pin.file = g ∧ pin.pageNo = q → pin.modified = false) → Unmodified (s.pins.eraseIdx n) g q →
      Unmodified s.pins g q := by
    intro g q own still p old on
    rcases List.mem_cons.mp ((pins_split chosen).mem_iff.mp old) with rfl | rest
    · exact own (Pin.on_iff.mp on)
    · exact still p rest on
  obtain ⟨written,wrote,counted,header,after⟩ := sees.written member
  have seen := sees.frames pin.file pin.pageNo
  rw [view_held member known] at seen
  have call : (pools pin.file).unPinPage pin.pageNo dirty =
      (.ok,(if dirty then {pools pin.file with file := written} else pools pin.file).setFrame pin.pageNo
        (view s.last (s.pins.eraseIdx n) pin.file pin.pageNo)) := by
    rw [Pool.unPinPage,seen]
    dsimp only
    rw [wrote,fewer,Nat.add_sub_cancel,view,known]
    congr 2
    exact if_congr (by omega) rfl rfl
  rw [call,given]
  refine ⟨rfl,rfl,sees.after consistent (fun _ _ => rfl) ?_ (sees.noFree pin.file) ?_ ?_ ?_ ?_ ?_
    (fun g q other => others g q fun same => other same.1.symm) (fun g q other => kept g q fun same =>
      absurd same.1.symm other)
    fun _ _ _ _ => rfl⟩
  · cases dirty with
    | true => exact header.trans (sees.header pin.file)
    | false => exact sees.header pin.file
  · cases dirty with
    | true => exact counted
    | false => exact sees.counted pin.file
  · intro q low still
    cases dirty with
    | true =>
      refine (after q).trans ?_
      by_cases here : q = pin.pageNo
      · rw [if_pos here,here]
        rfl
      · rw [if_neg here]
        exact sees.stored pin.file q low (kept _ q (fun same => absurd same.2.symm here) still)
    | false =>
      have clean : pin.modified = false := Bool.eq_false_iff.mpr fun changed => Bool.false_ne_true (told changed)
      exact sees.stored pin.file q low (kept _ q (fun _ => clean) still)
  · intro q
    rcases eq_or_ne q pin.pageNo with rfl | other
    · exact Function.update_self ..
    · have frames : ∀ b : Pool, b.frames = (pools pin.file).frames →
          (b.setFrame pin.pageNo (view s.last (s.pins.eraseIdx n) pin.file pin.pageNo)).frames q =
          (pools pin.file).frames q :=
        fun b same => (Function.update_of_ne other ..).trans (congrFun same q)
      exact (frames _ (by cases dirty <;> rfl)).trans
        (sees.still (others _ q fun same => other same.2.symm) fun _ => rfl)
  · exact fun p old => sees.low p (List.mem_of_mem_eraseIdx old)
  · cases dirty <;> exact sees.working pin.file

theorem allocPage_ok {s' : Storage} {frame : Nat} (sees : Sees s pools)
    (ran : allocPage works s.storage file = (.ok (pageNo,frame),s')) :
    ∃ made, File.allocatePage .working (s.disk file) = (.ok pageNo,made) ∧ (∀ g, File.header (s'.disk g) =
      File.header (Function.update s.disk file made g)) ∧ Consistent hash s'.mgr s'.disk
        (System.update (System.appear s.last file made) file pageNo (s'.mgr.bufPool frame))
        (⟨file,pageNo,frame,true⟩::s.pins) := by
  have inv := sees.consistent
  unfold allocPage at ran
  cases allocated : File.allocatePage (works file) (s.storage.disk file) with
  | mk number made =>
    rw [allocated] at ran
    cases number with
    | error status => cases ran
    | ok q =>
      have fresh := (File.allocatePage_spec (inv.counted file) (File.allocatePage_ok allocated)).fresh q
        (congrArg Prod.fst allocated)
        (sees.noFree file)
      dsimp only at ran
      cases given : allocBuf works ⟨s.storage.mgr,Function.update s.storage.disk file made⟩ with
      | mk outcome s1 =>
        rw [given] at ran
        cases outcome with
        | error status => cases ran
        | ok i =>
          obtain ⟨table,inserted,consistent⟩ := allocPage_handed (s:=s.storage) inv allocated (inv.unknown fresh) given
          dsimp only at ran
          rw [inserted,if_neg (not_not.mpr rfl)] at ran
          cases ran
          refine ⟨made,allocated,fun g => ?_,consistent⟩
          have kept := allocBuf_header works ⟨s.storage.mgr,Function.update s.storage.disk file made⟩ g
          rw [given] at kept
          exact kept

-- A page that the clients know nothing of is not on the disk.
theorem Sees.beyond (sees : Sees s pools) (low : 1 ≤ pageNo) (unknown : s.last file pageNo = none) :
    (s.disk file).length ≤ pageNo := by
  refine Int.not_lt.mp fun inside => ?_
  obtain ⟨page,found⟩ := File.at_inside (by omega) inside
  cases entry : s.mgr.hashTable.find hash file pageNo with
  | none =>
    have away := sees.consistent.away file pageNo low entry
    rw [found,unknown] at away
    cases away
  | some i =>
    obtain ⟨inside,holds⟩ := sees.consistent.found entry
    have contents := (sees.consistent.used inside holds).contents
    rw [holds.2.2,unknown] at contents
    cases contents

-- No other page comes into being with the new one.
theorem Sees.others_appear (sees : Sees s pools) {made : UnixFile} (next : pageNo = (s.disk file).length)
    (longer : made.length = (s.disk file).length + 1) (page : Page) {g : FileId} {q : Int}
    (other : ¬ (file = g ∧ pageNo = q)) (low : 1 ≤ q) :
    System.update (System.appear s.last file made) file pageNo page g q = s.last g q := by
  rw [System.update,if_neg fun both => other ⟨both.1.symm,both.2.symm⟩,System.appear]
  split
  · rename_i unknown
    obtain ⟨rfl,unknown⟩ := unknown
    rw [unknown]
    have apart : q ≠ pageNo := fun same => other ⟨rfl,same.symm⟩
    have beyond := sees.beyond low unknown
    exact File.at_beyond (.inr (by omega))
  · rfl

theorem Sees.allocPage (sees : Sees s pools) {frame : Nat} {storage : Storage}
    (ran : allocPage works s.storage file = (.ok (pageNo,frame),storage)) :
    s.last file pageNo = none ∧ ((pools file).stale pageNo = storage.mgr.bufPool frame →
      (pools file).allocPage.1 = .ok pageNo ∧
        Sees (s.afterAlloc file (File.allocatePage .working (s.disk file)).2 (.ok (pageNo,frame),storage))
          (pools.set file (pools file).allocPage.2)) := by
  obtain ⟨made,allocated,header,consistent⟩ := allocPage_ok sees ran
  have counted := sees.consistent.counted file
  have noFree : File.NoFreePages (pools file).file := (congrArg DBPage.nextFree (sees.header file)).trans
    (sees.noFree file)
  obtain ⟨made',allocated',header'⟩ := File.allocatePage_alike counted.present (sees.counted file).present
    (sees.noFree file) (sees.header file) allocated
  have spec := File.allocatePage_spec counted (File.allocatePage_ok allocated)
  have spec' := File.allocatePage_spec (sees.counted file) (File.allocatePage_ok allocated')
  rw [allocated] at spec
  rw [allocated'] at spec'
  obtain ⟨next,longer⟩ := File.allocatePage_next counted (sees.noFree file) allocated
  obtain ⟨next',longer'⟩ := File.allocatePage_next (sees.counted file) noFree allocated'
  have least : 1 ≤ pageNo := by
    have present := counted.present
    omega
  have unknown : s.last file pageNo = none := by
    have fresh := spec.fresh pageNo rfl (sees.noFree file)
    rw [← sees.consistent.away file pageNo least (sees.consistent.unknown fresh)]
    exact fresh
  refine ⟨unknown,fun stale => ?_⟩
  have call : (pools file).allocPage =
      (.ok pageNo,{pools file with file := made'}.nextCall.setFrame pageNo (some ⟨storage.mgr.bufPool frame,1⟩)) := by
    rw [Pool.allocPage,allocated']
    dsimp only
    rw [sees.working file]
    dsimp only [List.head?_nil,Option.join_none]
    rw [stale]
  have member : (⟨file,pageNo,frame,true⟩ : Pin) ∈ ⟨file,pageNo,frame,true⟩::s.pins := List.mem_cons_self ..
  have new : System.update (System.appear s.last file made) file pageNo (storage.mgr.bufPool frame) file pageNo =
      some (storage.mgr.bufPool frame) := if_pos ⟨rfl,rfl⟩
  rw [allocated,call]
  refine ⟨rfl,sees.after consistent (fun g other => ?_) ?_ ?_ spec'.counted ?_ ?_ ?_ ?_
    (fun g q other => pinsOn_elsewhere fun same => other same.1.symm)
    (fun g q _ still pin old => still pin (List.mem_cons_of_mem _ old)) fun g q other low =>
    sees.others_appear next longer _ (fun same => other same.1.symm) low⟩
  · refine (header g).trans ?_
    rw [Function.update_of_ne other]
  · refine header'.trans ((header file).trans ?_).symm
    rw [Function.update_self]
  · refine (congrArg DBPage.nextFree (header file)).trans ?_
    rw [Function.update_self]
    exact spec.noFree (sees.noFree file)
  · intro q low still
    -- The new page is marked as changed from the start.
    have other : ¬ (file = file ∧ pageNo = q) := fun same => by
      have marked := still _ member (Pin.on_iff.mpr same)
      cases marked
    calc File.at? made' q
      _ = File.at? (pools file).file q := spec'.at_other next' longer' low fun same => other ⟨rfl,same.symm⟩
      _ = s.last file q := sees.stored file q low fun pin old => still pin (List.mem_cons_of_mem _ old)
      _ = _ := (sees.others_appear next longer _ other low).symm
  · intro q
    rcases eq_or_ne q pageNo with rfl | other
    · refine (Function.update_self ..).trans (Eq.trans ?_ (view_held member new).symm)
      rw [pinsOn_on (Pin.on_iff.mpr ⟨rfl,rfl⟩),sees.unpinned_unknown unknown]
    · have away : ¬ (file = file ∧ pageNo = q) := fun same => other same.2.symm
      exact (Function.update_of_ne other ..).trans
        (sees.still (pinsOn_elsewhere away) (sees.others_appear next longer _ away))
  · exact List.forall_mem_cons.mpr ⟨least,sees.low⟩
  · exact congrArg List.tail (sees.working file)

theorem Sees.flushFile (sees : Sees s pools) (file : FileId) :
    Sees {s with storage := (s.storage.flushFile hash works file).2} pools := by
  have header : ∀ g, File.header ((s.storage.flushFile hash works file).2.disk g) = File.header (s.disk g) :=
    fun g => Storage.flushFile_header hash works file s.storage g
  exact ⟨Storage.flushFile_consistent sees.consistent,fun g => (congrArg DBPage.nextFree (header g)).trans
    (sees.noFree g),sees.counted,
    fun g => (sees.header g).trans (header g).symm,sees.stored,sees.frames,sees.low,sees.working⟩

-- No call unpins a page that nobody has pinned.
theorem unPinOther_fails (sees : Sees s pools) (free : ∀ pin ∈ s.pins, ¬ pin.on file pageNo = true) (dirty : Bool) :
    (Stage6.unPinPage s.storage file pageNo dirty).1 ≠ .ok := by
  unfold Stage6.unPinPage
  cases present : s.storage.mgr.hashTable.find hash file pageNo with
  | none =>
    rw [BufHashTbl.lookup_error present]
    exact nofun
  | some frame =>
    obtain ⟨inside,holds⟩ := sees.consistent.found present
    have count := (sees.consistent.used inside holds).pinned
    have none : pinsOn s.pins file pageNo = 0 := List.countP_eq_zero.mpr free
    rw [holds.2.2,none,Nat.cast_zero] at count
    have count : (s.storage.mgr.bufTable frame).pinCnt = 0 := count
    rw [BufHashTbl.lookup_ok present]
    cases dirty with
    | true =>
      dsimp only
      rw [if_pos rfl,if_pos count]
      exact nofun
    | false =>
      dsimp only
      rw [if_neg Bool.false_ne_true,if_pos count]
      exact nofun

-- What the frame of a new page holds is what `stale` has for it.
def Left (s : System) (stale : FileId → Int → Page) : Act → Prop
  | .allocPage file => ∀ pageNo frame storage, allocPage works s.storage file = (.ok (pageNo,frame),storage) →
    stale file pageNo = storage.mgr.bufPool frame
  | _ => True

theorem checked_ok {status : Status} (succeeds : ∃ found, checked status = .ok found) : status = .ok := by
  obtain ⟨found,succeeds⟩ := succeeds
  unfold checked at succeeds
  split at succeeds
  · assumption
  · cases succeeds

theorem Sees.step (sees : Sees s pools) {act : Act} (data : ∀ file, act ≠ .readPage file 0)
    (succeeds : ∃ found, reply s act = .ok found)
    (left : Left s (fun file => (pools file).stale) act) :
    pools.reply s.pins act = reply s act ∧ Sees (s.step release works act) (pools.step s.pins act) := by
  cases act with
  | readPage file pageNo =>
    cases ran : Stage6.readPage works s.storage file pageNo with
    | mk outcome storage =>
      rw [reply,ran] at succeeds
      cases outcome with
      | error status =>
        obtain ⟨found,succeeds⟩ := succeeds
        cases succeeds
      | ok frame =>
        obtain ⟨status,seen⟩ := sees.readPage (fun zero => data file (by rw [zero])) ran
        refine ⟨?_,?_⟩
        · rw [Pools.reply,status,reply,ran]
          rfl
        · change Sees (s.afterRead file pageNo (Stage6.readPage works s.storage file pageNo)) _
          rw [ran]
          exact seen
  | allocPage file =>
    cases ran : Stage6.allocPage works s.storage file with
    | mk outcome storage =>
      rw [reply,ran] at succeeds
      cases outcome with
      | error status =>
        obtain ⟨found,succeeds⟩ := succeeds
        cases succeeds
      | ok made =>
        obtain ⟨pageNo,frame⟩ := made
        obtain ⟨status,seen⟩ := (sees.allocPage ran).2 (left pageNo frame storage ran)
        refine ⟨?_,?_⟩
        · rw [Pools.reply,status,reply,ran]
          rfl
        · change Sees (s.afterAlloc file (File.allocatePage .working (s.disk file)).2
            (Stage6.allocPage works s.storage file)) _
          rw [ran]
          exact seen
  | modify n page =>
    refine ⟨rfl,?_⟩
    cases chosen : s.pins[n]? with
    | none =>
      rw [(System.step_no_pin release works page false chosen).1,Pools.step,chosen]
      exact sees
    | some pin =>
      rw [System.step_modify release works page chosen,Pools.step,chosen]
      exact sees.modify chosen page
  | unPinPage n dirty =>
    cases chosen : s.pins[n]? with
    | none =>
      rw [(System.step_no_pin release works (ByteMemory.zero 1024) dirty chosen).2,Pools.step,Pools.reply,reply,chosen]
      exact ⟨rfl,sees⟩
    | some pin =>
      obtain ⟨status,status',seen⟩ := sees.unPinPage chosen (dirty || pin.modified) fun changed => by
        rw [changed,Bool.or_true]
      rw [System.step_unPinPage release works dirty chosen,Pools.step,Pools.reply,reply,chosen]
      dsimp only
      rw [status,status']
      exact ⟨rfl,seen⟩
  | unPinOther file pageNo dirty =>
    rw [reply] at succeeds ⊢
    rw [Pools.step,Pools.reply,System.step]
    by_cases others : s.pins.any (·.on file pageNo) = true
    · rw [if_pos others,if_pos others]
      exact ⟨rfl,sees⟩
    · rw [if_neg others] at succeeds
      exact absurd (checked_ok succeeds) (unPinOther_fails sees
        (fun pin member on => others (List.any_eq_true.mpr ⟨pin,member,on⟩)) dirty)
  | flushFile file =>
    refine ⟨?_,sees.flushFile file⟩
    rw [reply] at succeeds ⊢
    rw [checked_ok succeeds]
    rfl

def handOut (stale : FileId → Int → Page) (file : FileId) (pageNo : Int) (page : Page) : FileId → Int → Page :=
  Function.update stale file (Function.update (stale file) pageNo page)

def leftover (s : System) (stale : FileId → Int → Page) : Act → FileId → Int → Page
  | .allocPage file =>
    match allocPage works s.storage file with
    | (.ok (pageNo,frame),storage) => handOut stale file pageNo (storage.mgr.bufPool frame)
    | (.error _,_) => stale
  | _ => stale

theorem handOut_same (stale : FileId → Int → Page) (file : FileId) (pageNo : Int) (page : Page) :
    handOut stale file pageNo page file pageNo = page := by
  rw [handOut,Function.update_self,Function.update_self]

theorem handOut_other (stale : FileId → Int → Page) {file g : FileId} {pageNo q : Int} (page : Page)
    (other : ¬ (g = file ∧ q = pageNo)) :
    handOut stale file pageNo page g q = stale g q := by
  unfold handOut
  rcases eq_or_ne g file with rfl | elsewhere
  · rw [Function.update_self,Function.update_of_ne fun same => other ⟨rfl,same⟩]
  · rw [Function.update_of_ne elsewhere]

theorem leftover_left (s : System) (stale : FileId → Int → Page) (act : Act) : Left s (leftover s stale act) act := by
  cases act with
  | allocPage file =>
    intro pageNo frame storage ran
    rw [leftover,ran]
    exact handOut_same ..
  | _ => trivial

theorem Sees.leftover_known (sees : Sees s pools) (stale : FileId → Int → Page) (act : Act)
    (known : (s.last file pageNo).isSome) :
    leftover s stale act file pageNo = stale file pageNo := by
  cases act with
  | allocPage g =>
    rw [leftover]
    cases ran : Stage6.allocPage works s.storage g with
    | mk outcome storage =>
      cases outcome with
      | error status => rfl
      | ok made =>
        obtain ⟨q,frame⟩ := made
        refine handOut_other stale _ ?_
        rintro ⟨rfl,rfl⟩
        rw [(sees.allocPage ran).1] at known
        cases known
  | _ => rfl

-- No page is forgotten.
theorem step_known (s : System) (act : Act) (known : (s.last file pageNo).isSome) :
    ((s.step release works act).last file pageNo).isSome := by
  have updated : ∀ {last : Contents} (f : FileId) (n : Int) (page : Page), (last file pageNo).isSome →
      (System.update last f n page file pageNo).isSome := by
    intro last f n page known
    unfold System.update
    split
    · rfl
    · exact known
  have appeared : ∀ (f : FileId) (unixFile : UnixFile), (System.appear s.last f unixFile file pageNo).isSome := by
    intro f unixFile
    unfold System.appear
    split
    · rename_i unknown
      rw [unknown.2] at known
      cases known
    · exact known
  cases act with
  | readPage f n =>
    change ((s.afterRead f n (readPage works s.storage f n)).last file pageNo).isSome
    rcases readPage works s.storage f n with ⟨frame | status,storage⟩ <;> exact known
  | allocPage f =>
    change ((s.afterAlloc f (File.allocatePage .working (s.disk f)).2 (allocPage works s.storage f)).last
      file pageNo).isSome
    rcases allocPage works s.storage f with ⟨status | made,storage⟩
    · exact appeared ..
    · exact updated _ _ _ (appeared ..)
  | modify n page =>
    cases chosen : s.pins[n]? with
    | none =>
      rw [(System.step_no_pin release works page false chosen).1]
      exact known
    | some pin =>
      rw [System.step_modify release works page chosen]
      exact updated _ _ _ known
  | unPinPage n dirty =>
    cases chosen : s.pins[n]? with
    | none =>
      rw [(System.step_no_pin release works (ByteMemory.zero 1024) dirty chosen).2]
      exact known
    | some pin =>
      rw [System.step_unPinPage release works dirty chosen]
      unfold System.afterUnPin
      split <;> exact known
  | unPinOther f n dirty =>
    rw [System.step]
    split <;> exact known
  | flushFile f => exact known

theorem set_restock (pools : Pools) (file : FileId) (b b' : Pool) (stale : FileId → Int → Page)
    (same : b' = {b with stale := stale file}) :
    (pools.restock stale).set file b' = (pools.set file b).restock stale := by
  funext g
  unfold Pools.restock Pools.set
  rcases eq_or_ne g file with rfl | other
  · rw [Function.update_self,Function.update_self,same]
  · rw [Function.update_of_ne other,Function.update_of_ne other]

-- Only a page that is handed out looks at what has been left.
theorem step_restock (sees : Sees s pools) {act : Act} (succeeds : ∃ found, reply s act = .ok found)
    (stale : FileId → Int → Page)
    (left : Left s (fun file => (pools file).stale) act) (left' : Left s stale act) :
    (pools.restock stale).step s.pins act = (pools.step s.pins act).restock stale := by
  cases act with
  | readPage file pageNo =>
    refine set_restock pools file _ _ stale ?_
    unfold Pool.readPage Pools.restock
    dsimp only
    cases (pools file).frames pageNo with
    | some frame => rfl
    | none =>
      dsimp only
      cases (pools file).faults.head?.join with
      | some status => rfl
      | none =>
        dsimp only
        cases File.readPage .working (pools file).file pageNo with
        | error status => rfl
        | ok page => rfl
  | allocPage file =>
    refine set_restock pools file _ _ stale ?_
    cases ran : Stage6.allocPage works s.storage file with
    | mk outcome storage =>
      rw [reply,ran] at succeeds
      obtain ⟨found,succeeds⟩ := succeeds
      cases outcome with
      | error status => cases succeeds
      | ok made =>
        obtain ⟨pageNo,frame⟩ := made
        have same : stale file pageNo = (pools file).stale pageNo :=
          (left' pageNo frame storage ran).trans (left pageNo frame storage ran).symm
        have number := ((sees.allocPage ran).2 (left pageNo frame storage ran)).1
        unfold Pool.allocPage at number ⊢
        unfold Pools.restock
        dsimp only at number ⊢
        cases allocated : File.allocatePage .working (pools file).file with
        | mk taken made =>
          rw [allocated] at number
          cases taken with
          | error status => rfl
          | ok q =>
            dsimp only at number ⊢
            rw [sees.working file] at number ⊢
            cases number
            dsimp only [List.head?_nil,Option.join_none]
            rw [same]
            rfl
  | modify n page =>
    rw [Pools.step,Pools.step]
    cases s.pins[n]? with
    | none => rfl
    | some pin =>
      refine set_restock pools pin.file _ _ stale ?_
      unfold Pool.assign Pools.restock
      dsimp only
      cases (pools pin.file).frames pin.pageNo with
      | none => rfl
      | some frame => rfl
  | unPinPage n dirty =>
    rw [Pools.step,Pools.step]
    cases s.pins[n]? with
    | none => rfl
    | some pin =>
      refine set_restock pools pin.file _ _ stale ?_
      unfold Pool.unPinPage Pools.restock
      dsimp only
      cases (pools pin.file).frames pin.pageNo with
      | none => rfl
      | some frame =>
        dsimp only
        cases dirty || pin.modified <;> rfl
  | unPinOther file pageNo dirty => rfl
  | flushFile file => rfl

theorem step_stale (sees : Sees s pools) {act : Act} (succeeds : ∃ found, reply s act = .ok found)
    (left : Left s (fun file => (pools file).stale) act) (file : FileId) : ((pools.step s.pins act) file).stale =
    (pools file).stale := by
  have same := step_restock sees succeeds (fun file => (pools file).stale) left left
  have whole : pools.restock (fun file => (pools file).stale) = pools := rfl
  rw [whole] at same
  rw [same]
  rfl

-- A page that has been handed out is known from then on.
theorem Left.of_known {stale stale' : FileId → Int → Page} {act : Act} (left : Left s stale act)
    (agrees : ∀ file pageNo, ((s.step release works act).last file pageNo).isSome → stale' file pageNo =
      stale file pageNo) : Left s stale' act := by
  cases act with
  | allocPage file =>
    intro pageNo frame storage ran
    refine (agrees file pageNo ?_).trans (left pageNo frame storage ran)
    change ((s.afterAlloc file (File.allocatePage .working (s.disk file)).2 (allocPage works s.storage file)).last
      file pageNo).isSome
    rw [ran]
    exact Option.isSome_iff_exists.mpr ⟨_,if_pos ⟨rfl,rfl⟩⟩
  | _ => trivial

theorem Sees.follows (sees : Sees s pools) {acts : List Act} (working : Working s acts) :
    ∃ stale, (∀ file pageNo, (s.last file pageNo).isSome → stale file pageNo = (pools file).stale pageNo) ∧
      Follows s (pools.restock stale) acts := by
  induction acts generalizing s pools with
  | nil => exact ⟨fun file => (pools file).stale,fun _ _ _ => rfl,(sees.restock _).alike⟩
  | cons act acts ih =>
    obtain ⟨data,succeeds,later⟩ := working
    -- The new page of this call, if any, is fixed here; the calls to come fix theirs.
    have left := leftover_left s (fun file => (pools file).stale) act
    have seen := sees.restock (leftover s (fun file => (pools file).stale) act)
    obtain ⟨stale,agrees,follows⟩ := ih (seen.step data succeeds left).2 later
    have agrees' : ∀ file pageNo, ((s.step release works act).last file pageNo).isSome →
        stale file pageNo = leftover s (fun file => (pools file).stale) act file pageNo := fun file pageNo known => by
      rw [agrees file pageNo known,step_stale seen succeeds left]
      rfl
    have left' := left.of_known agrees'
    refine ⟨stale,fun file pageNo known => ?_,(sees.restock stale).alike,
      ((sees.restock stale).step data succeeds left').1,?_⟩
    · exact (agrees' file pageNo (step_known s act known)).trans (sees.leftover_known _ act known)
    · have same := step_restock seen succeeds stale left left'
      exact same ▸ follows

-- A run of the buffer manager in which every call succeeds is a run of the pools of its files.
theorem working_runs_follow (bufs : Nat) (disk : Disk) (acts : List Act) (some_frame : 1 ≤ bufs)
    (counted : ∀ file, File.Counted (disk file))
    (no_free : ∀ file, File.NoFreePages (disk file)) (working : Working (.start bufs disk) acts) :
    ∃ stale : FileId → Int → Page, Follows (.start bufs disk) (fun file => ⟨disk file,fun _ => none,0,stale file,[]⟩)
      acts := by
  have sees : Sees (.start bufs disk) fun file => ⟨disk file,fun _ => none,0,fun _ => ByteMemory.zero 1024,[]⟩ :=
    ⟨.init some_frame counted,no_free,counted,fun _ => rfl,fun _ _ _ _ => rfl,fun _ _ => rfl,nofun,fun _ => rfl⟩
  obtain ⟨stale,_,follows⟩ := sees.follows working
  exact ⟨stale,follows⟩

-- One frame: a new page is filled, evicted for the next one, and read again.
theorem working_runs_follow_one_frame : ∃ stale : FileId → Int → Page,
    Follows (.start 1 fun _ => File.create) (fun file => ⟨File.create,fun _ => none,0,stale file,[]⟩)
      [.allocPage 0,.modify 0 (ByteMemory.zero 1024),.unPinPage 0 true,.allocPage 0,.unPinPage 0 true,
        .readPage 0 1] := by
  refine working_runs_follow 1 (fun _ => File.create) _ (by decide) (fun _ => File.create_counted.1)
    (fun _ => File.create_counted.2) ?_
  exact ⟨nofun,⟨some 1,by decide +kernel⟩,nofun,⟨none,rfl⟩,nofun,⟨none,by decide +kernel⟩,nofun,
    ⟨some 2,by decide +kernel⟩,nofun,
    ⟨none,by decide +kernel⟩,nofun,⟨none,by decide +kernel⟩,trivial⟩

end Stage6
end Minirel
