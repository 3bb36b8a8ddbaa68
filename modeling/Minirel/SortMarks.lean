import Minirel.SortMerge

namespace Minirel
open ByteMemory SlotDirectory Page Heap

def Db.resetScan (db : Db) (name : Name) (s : HeapFileScan) : Except Abort (Status × HeapFileScan × Db) := do
  let (status,s,b) := s.resetScan (← db.pool name)
  return (status,s,db.setPool name b)

namespace SortedFile

def markRun (run : Run) : Run := {run with inFile := run.inFile.markScan.2}

-- The list has the member mark of every run.
def setMark (sf : SortedFile) : Status × SortedFile × List RID :=
  (.ok,{sf with runs := sf.runs.map markRun},sf.runs.map Run.rid)

-- The record in memory is fetched again unless the mark is the end of the run.
def fetchMarked (run : Run) (db : Db) : Except Abort (Except Status Record) :=
  if 0 ≤ run.rid.pageNo then db.getRecord run.name run.inFile else return .ok run.record

def gotoMarks : List Run → List RID → Db → Except Abort (Status × List Run × Db)
  | run::runs,mark::marks,db => do
    let (status,inFile,db) ← db.resetScan run.name run.inFile
    let run := {run with inFile := inFile}
    if status ≠ .ok then return (status,run::runs,db)
    let run := {run with rid := mark}
    match ← fetchMarked run db with
    | .error status => return (status,run::runs,db)
    | .ok rec =>
      let (status,runs,db) ← gotoMarks runs marks db
      return (status,{run with record := rec, valid := true}::runs,db)
  | runs,_,db => return (.ok,runs,db)

def gotoMark (sf : SortedFile) (marks : List RID) (db : Db) : Except Abort (Status × SortedFile × Db) := do
  let (status,runs,db) ← gotoMarks sf.runs marks db
  return (status,{sf with runs := runs},db)

-- Where gotoMark takes a run: to the record it had in memory when the mark was set, or to the end.
inductive Noted (run : Run) (c : Cursor) : RID → List Entry → Prop where
  | record (mark : RID) (bytes : List UInt8) : run.inFile.markedRec = mark → c.Current (mark,bytes) →
      Noted run c mark ((mark,bytes)::c.remaining)
  | ended (mark : RID) : mark.pageNo < 0 → Noted run c mark []

def Kept (shelf : Shelf) (run : Run) (mark : RID) (pending : List Entry) : Prop :=
  ∃ file c, shelf run.name = some file ∧ c.heap = file.heap ∧ HeapFileScan.Marks run.inFile c ∧ Noted run c mark pending

inductive Returns (shelf : Shelf) : List Run → List RID → List (List Entry) → Prop where
  | nil : Returns shelf [] [] []
  | cons {run : Run} {mark : RID} {pending : List Entry} {runs : List Run} {marks : List RID}
      {pendings : List (List Entry)} :
    Kept shelf run mark pending → Returns shelf runs marks pendings →
      Returns shelf (run::runs) (mark::marks) (pending::pendings)

variable {shelf : Shelf} {db db' : Db} {run run' : Run} {pending pending' : List Entry} {mark : RID}

theorem Kept.same (kept : Kept shelf run mark pending) (same : SameRun run run') : Kept shelf run' mark pending := by
  obtain ⟨file,c,there,whole,marks,noted⟩ := kept
  obtain ⟨name,page,rec⟩ := same
  refine ⟨file,c,by rw [name]; exact there,whole,⟨page.trans marks.pageNo,by rw [rec]; exact marks.slot⟩,?_⟩
  cases noted with
  | record bytes marked current => exact .record mark bytes (rec.trans marked) current
  | ended stopped => exact .ended mark stopped

theorem Returns.same {runs runs' : List Run} {marks : List RID} {pendings : List (List Entry)}
    (returns : Returns shelf runs marks pendings)
    (same : List.Forall₂ SameRun runs runs') : Returns shelf runs' marks pendings := by
  induction returns generalizing runs' with
  | nil =>
    cases same
    exact .nil
  | cons kept _ ih =>
    cases same with
    | cons now later => exact .cons (kept.same now) (ih later)

-- Whatever the run has come to, it goes back.
theorem goto_spec (gives : Gives shelf db run pending) (kept : Kept shelf run mark pending') :
    ∃ inFile db1 rec, db.resetScan run.name run.inFile = .ok (.ok,inFile,db1) ∧
      fetchMarked {run with inFile := inFile, rid := mark} db1 = .ok (.ok rec) ∧
      Fetched shelf db1 {run with inFile := inFile, rid := mark, record := rec, valid := true} pending' ∧
      HeapFileScan.SameMark run.inFile inFile ∧ ∀ n, n ≠ run.name → db1.files n = db.files n := by
  obtain ⟨file,b,c,scans,_⟩ := gives
  obtain ⟨file',c',there,whole,marks,noted⟩ := kept
  cases Option.some.inj (scans.listed.symm.trans there)
  have owned : file.books.opened.Owned := scans.owned
  obtain ⟨b1,s1,reset,scanning,_,clear,same,back⟩ :=
    HeapFileScan.resetScan_spec owned scans.scanning marks (scans.whole.trans whole.symm)
  have others : ∀ n, n ≠ run.name → (db.setPool run.name b1).files n = db.files n := fun n other =>
    Db.setPool_other b1 other
  have called : db.resetScan run.name run.inFile = .ok (.ok,s1,db.setPool run.name b1) := by
    rw [Db.resetScan,Db.pool_found scans.present,ok_bind,reset]
    rfl
  have scans' : ∀ rec, Scans shelf (db.setPool run.name b1)
      {run with inFile := s1, rid := mark, record := rec, valid := true} file b1 c' :=
    fun rec => ⟨there,scans.owned,Db.setPool_same ..,scanning,whole,clear.trans scans.clear⟩
  cases noted with
  | record bytes marked current =>
    have here : s1.curRec = mark := back.trans marked
    have forward : 0 ≤ mark.pageNo := Int.not_lt.mp ((scans' run.record).page_positive current)
    refine ⟨s1,_,.of bytes,called,?_,?_,same,others⟩
    · rw [fetchMarked,if_pos forward,Db.getRecord_at]
      exact HeapFileScan.getRecord_spec scanning current here
    · exact Gives.fetched ⟨file,b1,c',scans' _,.fetched bytes rfl here rfl current⟩ rfl
  | ended stopped =>
    refine ⟨s1,_,run.record,called,if_neg (Int.not_le.mpr stopped),?_,same,others⟩
    exact Gives.fetched ⟨file,b1,c',scans' _,.ended rfl stopped⟩ rfl

theorem gotoMarks_spec {runs : List Run} {marks : List RID} {pendings pendings' : List (List Entry)}
    (gives : List.Forall₂ (Gives shelf db) runs pendings) (distinct : (runs.map Run.name).Nodup)
    (returns : Returns shelf runs marks pendings') :
    ∃ runs' db', gotoMarks runs marks db = .ok (.ok,runs',db') ∧ List.Forall₂ (Fetched shelf db') runs' pendings' ∧
      List.Forall₂ SameRun runs runs' ∧ ∀ n, n ∉ runs.map Run.name → db'.files n = db.files n := by
  induction returns generalizing db pendings with
  | nil => exact ⟨[],db,rfl,.nil,.nil,fun _ _ => rfl⟩
  | @cons run mark _ runs marks _ kept _ ih =>
    cases gives with
    | cons now later =>
      obtain ⟨fresh,distinct'⟩ := List.nodup_cons.mp distinct
      obtain ⟨inFile,db1,rec,reset,got,fetched,same,others⟩ := goto_spec now kept
      obtain ⟨runs',db2,rest,fetched',same',others'⟩ := ih (gives_frame later fresh others) distinct'
      let run' : Run := {run with inFile := inFile, rid := mark, record := rec, valid := true}
      refine ⟨run'::runs',db2,?_,.cons (fetched.frame (others' run.name fresh)) fetched',.cons ⟨rfl,same⟩ same',
        fun n absent => ?_⟩
      · rw [gotoMarks,reset,ok_bind]
        dsimp only
        rw [if_neg (not_not_intro rfl),got,ok_bind]
        dsimp only
        rw [rest,ok_bind]
        rfl
      · rw [List.map_cons,List.mem_cons,not_or] at absent
        rw [others' n absent.2,others n absent.1]

theorem Fetched.kept (fetched : Fetched shelf db run pending) : Kept shelf (markRun run) run.rid pending := by
  obtain ⟨file,b,c,scans,head⟩ := fetched.gives
  obtain ⟨_,marks,_⟩ := scans.scanning.markScan
  refine ⟨file,c,scans.listed,scans.whole,marks,?_⟩
  cases head with
  | unread invalid =>
    rw [fetched.valid] at invalid
    cases invalid
  | fetched bytes _ here _ current => exact .record run.rid bytes here current
  | ended _ stopped => exact .ended run.rid stopped

theorem Gives.marked (gives : Gives shelf db run pending) : Gives shelf db (markRun run) pending := by
  obtain ⟨file,b,c,scans,head⟩ := gives
  obtain ⟨scanning,_,clear⟩ := scans.scanning.markScan
  refine ⟨file,b,c,⟨scans.listed,scans.owned,scans.present,scanning,scans.whole,clear.trans scans.clear⟩,?_⟩
  cases head with
  | unread invalid => exact .unread invalid
  | fetched bytes valid here record current => exact .fetched bytes valid here record current
  | ended valid stopped => exact .ended valid stopped

-- A run that has not been read has no record to go back to.
theorem Gives.kept_unread (gives : Gives shelf db run pending) (fresh : run.rid = nullRid) :
    Kept shelf (markRun run) run.rid [] := by
  obtain ⟨file,b,c,scans,_⟩ := gives
  obtain ⟨_,marks,_⟩ := scans.scanning.markScan
  exact ⟨file,c,scans.listed,scans.whole,marks,.ended run.rid (by rw [fresh]; decide)⟩

-- The mark of the run whose record has just been returned is the one of that record.
theorem returns_taken {runs : List Run} {pendings : List (List Entry)}
    (fetched : List.Forall₂ (Fetched shelf db) runs pendings) (i : Nat) :
    Returns shelf ((takeAt i runs).map markRun) ((takeAt i runs).map Run.rid) pendings := by
  induction fetched generalizing i with
  | nil => cases i <;> exact .nil
  | @cons run pending runs pendings now later ih =>
    cases i with
    | zero =>
      have taken : Kept shelf (markRun {run with valid := false}) run.rid pending := now.kept.same ⟨rfl,rfl,rfl⟩
      refine .cons taken ?_
      clear ih now taken
      induction later with
      | nil => exact .nil
      | cons now _ ih => exact .cons now.kept ih
    | succ i => exact .cons now.kept (ih i)

theorem returns_unread {runs : List Run} {pendings : List (List Entry)}
    (gives : List.Forall₂ (Gives shelf db) runs pendings)
    (unread : ∀ run ∈ runs, run.rid = nullRid) : Returns shelf (runs.map markRun) (runs.map Run.rid)
    (pendings.map fun _ => []) := by
  induction gives with
  | nil => exact .nil
  | cons now _ ih =>
    rw [List.forall_mem_cons] at unread
    exact .cons (now.kept_unread unread.1) (ih unread.2)

theorem Streams.marked {sf : SortedFile} {pendings : List (List Entry)}
    (streams : Streams shelf db sf sf.runs pendings) :
    Streams shelf db sf.setMark.2.1 sf.setMark.2.1.runs pendings := by
  refine ⟨List.forall₂_map_left_iff.mpr (streams.gives.imp fun _ _ gives => gives.marked),?_,streams.inside⟩
  have names : (sf.runs.map markRun).map Run.name = sf.runs.map Run.name := by rw [List.map_map]; rfl
  change ((sf.runs.map markRun).map Run.name).Nodup
  rw [names]
  exact streams.distinct

-- From a mark: some calls of next, gotoMark, and what is returned then.
def fromMark (m l : Nat) (sf : SortedFile) (db : Db) : Except Abort (Status × List (Except Status Record)) := do
  let (_,sf,marks) := sf.setMark
  let (_,sf,db) ← nexts m sf db
  let (status,sf,db) ← sf.gotoMark marks db
  let (results,_,_) ← nexts l sf db
  return (status,results)

theorem fromMark_spec {sf : SortedFile} {pendings pendings' : List (List Entry)}
    (streams : Streams shelf db sf sf.runs pendings)
    (returns : Returns shelf (sf.runs.map markRun) (sf.runs.map Run.rid) pendings')
    (inside : ∀ pending ∈ pendings', Inside sf pending)
    (m l : Nat) : fromMark m l sf db = .ok (.ok,told l ((sf.stream pendings').map Prod.snd)) := by
  obtain ⟨runs1,db1,_,called,streams1,same1,_⟩ := nexts_spec streams.marked m
  obtain ⟨runs2,db2,went,fetched,same2,_⟩ := gotoMarks_spec streams1.gives streams1.distinct (returns.same same1)
  have streams2 : Streams shelf db2 {sf with runs := runs2} runs2 pendings' :=
    ⟨fetched_gives fetched,by rw [same_names same2]; exact streams1.distinct,inside⟩
  obtain ⟨_,db3,_,replayed,_⟩ := nexts_spec streams2 l
  rw [fromMark]
  dsimp only
  rw [called,ok_bind]
  dsimp only
  have went' : gotoMark {sf.setMark.2.1 with runs := runs1} sf.setMark.2.2 db1 =
      .ok (.ok,{sf with runs := runs2},db2) := by
    rw [gotoMark]
    dsimp only
    rw [setMark,went,ok_bind]
    rfl
  rw [went',ok_bind]
  dsimp only
  rw [replayed,ok_bind]
  rfl

theorem nexts_snoc (n : Nat) (sf : SortedFile) (db : Db) : nexts (n + 1) sf db = (do
    let (results,sf,db) ← nexts n sf db
    let (result,sf,db) ← next sf db
    return (results ++ [result],sf,db)) := by
  induction n generalizing sf db with
  | zero =>
    rw [nexts,nexts,pure_ok,ok_bind]
    dsimp only
    cases next sf db <;> rfl
  | succ n ih =>
    rw [nexts,nexts]
    cases next sf db with
    | error abort => rfl
    | ok out =>
      obtain ⟨result,sf1,db1⟩ := out
      rw [ok_bind,ok_bind]
      dsimp only
      rw [ih]
      cases nexts n sf1 db1 with
      | error abort => rfl
      | ok out =>
        obtain ⟨results,sf2,db2⟩ := out
        simp only [ok_bind,pure_ok]
        cases next sf2 db2 <;> rfl

theorem told_snoc (n : Nat) (out : List (List UInt8)) (x : List UInt8) (here : out[n]? = some x) :
    told (n + 1) out = told n out ++ [.ok (.of x)] := by
  induction n generalizing out with
  | zero =>
    cases out with
    | nil => cases here
    | cons y rest =>
      cases here
      rfl
  | succ n ih =>
    cases out with
    | nil => cases here
    | cons y rest =>
      rw [told,ih rest here]
      rfl

-- Behind a call of next that returned a record: the runs as they are when it has been chosen, with
-- that record still in memory.
theorem nexts_taken {sf : SortedFile} {pendings : List (List Entry)} (streams : Streams shelf db sf sf.runs pendings)
    {n : Nat}
    (more : n < (sf.stream pendings).length) :
    ∃ runs i db' pendings', nexts (n + 1) sf db = .ok (told (n + 1) ((sf.stream pendings).map Prod.snd),
      {sf with runs := takeAt i runs},db') ∧
      Streams shelf db' {sf with runs := takeAt i runs} (takeAt i runs) (pendings'.modify i List.tail) ∧
      List.Forall₂ (Fetched shelf db') runs pendings' ∧ (∀ pending ∈ pendings', Inside sf pending) ∧
      sf.stream pendings' = (sf.stream pendings).drop n := by
  obtain ⟨runs1,db1,pendings',called,streams1,_,left⟩ := nexts_spec streams n
  obtain ⟨runs2,db2,fetched,same,last⟩ := next_spec streams1
  have left' : SortedFile.stream {sf with runs := runs1} pendings' = (sf.stream pendings).drop n := left
  cases chosen : RunMerge.choose sf.gt (pendings'.map bytes) 0 none with
  | none =>
    have nothing : sf.stream pendings' = [] := RunMerge.merge_none chosen
    rw [left,List.drop_eq_nil_iff] at nothing
    omega
  | some entry =>
    obtain ⟨i,x⟩ := entry
    have last' : next {sf with runs := runs1} db1 = .ok (.ok (.of x),{sf with runs := takeAt i runs2},db2) := by
      have chosen' : RunMerge.choose (gt {sf with runs := runs1}) (pendings'.map bytes) 0 none = some (i,x) := chosen
      rw [last,chosen']
    obtain ⟨rid,rest,there⟩ := chosen_pending chosen
    refine ⟨runs2,i,db2,pendings',?_,streams1.taken fetched same there,fetched,streams1.inside,left⟩
    have here : ((sf.stream pendings).map Prod.snd)[n]? = some x := by
      have head : sf.stream pendings' = (i,x)::RunMerge.merge sf.gt ((pendings'.map bytes).modify i List.tail) :=
        RunMerge.merge_some chosen
      rw [List.getElem?_map,← List.head?_drop,← left,head]
      rfl
    rw [nexts_snoc,called,ok_bind]
    dsimp only
    rw [last',ok_bind,told_snoc n _ x here]
    rfl

-- Some calls of next, the mark, more calls, gotoMark, and what is returned then.
def replay (n m l : Nat) (sf : SortedFile) (db : Db) : Except Abort (Status × List (Except Status Record)) := do
  let (_,sf,db) ← nexts n sf db
  fromMark m l sf db

-- What is asked of gotoMark when these records are the output: back to the one that was returned
-- last, or to the first where none had been.
def Replays (sf : SortedFile) (db : Db) (out : List (List UInt8)) (n : Nat) : Prop :=
  ∀ m l, replay n m l sf db = .ok (.ok,told l (out.drop (n - 1)))

theorem replays_taken {sf : SortedFile} {pendings : List (List Entry)} (streams : Streams shelf db sf sf.runs pendings)
    {n : Nat}
    (more : n < (sf.stream pendings).length) : Replays sf db ((sf.stream pendings).map Prod.snd) (n + 1) := by
  intro m l
  obtain ⟨runs,i,db',pendings',called,streams',fetched,inside,left⟩ := nexts_taken streams more
  have left' : SortedFile.stream {sf with runs := takeAt i runs} pendings' = (sf.stream pendings).drop n := left
  rw [replay,called,ok_bind]
  dsimp only
  rw [fromMark_spec streams' (returns_taken fetched i) inside m l,left',← List.map_drop,Nat.add_sub_cancel]

-- A mark that is set before anything has been fetched is the end of every run.
theorem replay_unread {sf : SortedFile} {pendings : List (List Entry)} (streams : Streams shelf db sf sf.runs pendings)
    (unread : ∀ run ∈ sf.runs, run.rid = nullRid) (m l : Nat) : replay 0 m l sf db = .ok (.ok,told l []) := by
  have none_left : ∀ pending ∈ pendings.map fun _ => ([] : List Entry), pending = [] := by
    intro pending member
    obtain ⟨_,_,rfl⟩ := List.mem_map.mp member
    rfl
  have nothing : sf.stream (pendings.map fun _ => []) = [] := by
    refine RunMerge.merge_none (RunMerge.choose_none.mpr ⟨rfl,fun run member => ?_⟩)
    obtain ⟨pending,here,rfl⟩ := List.mem_map.mp member
    rw [none_left pending here]
    rfl
  have inside : ∀ pending ∈ pendings.map fun _ => ([] : List Entry), Inside sf pending := by
    intro pending member e here
    rw [none_left pending member] at here
    cases here
  rw [replay,nexts,pure_ok,ok_bind]
  dsimp only
  rw [fromMark_spec streams (returns_unread streams.gives unread) inside m l,nothing]
  rfl

-- gotoMark goes back to the mark where next had returned a record before setMark, and where there
-- is no record at all. A mark that is set before takes the calls of next to the end at once.
theorem marks_replay_iff (shelf : Shelf) (db : Db) (stands : db.Stands shelf) (sf : SortedFile) (files : List HeldFile)
    (lies : Lies shelf sf files) :
    ∃ (runs : List Run) (db' : Db) (out : List (List UInt8)), startScans sf.runs db = .ok (.ok,runs,db') ∧
      (∀ n, ∃ sf' db'', nexts n {sf with runs := runs} db' = .ok (told n out,sf',db'')) ∧
      ∀ n, n ≤ out.length → (Replays {sf with runs := runs} db' out n ↔ 1 ≤ n ∨ ∀ file ∈ files, records file.heap =
        []) := by
  obtain ⟨runs,db',started,streams,unread⟩ := lies.started stands
  have empty : sf.stream (files.map fun file => records file.heap) = [] ↔ ∀ file ∈ files, records file.heap = [] := by
    rw [stream,RunMerge.merge_nil,listed_bytes,List.forall_mem_map]
    simp only [List.map_eq_nil_iff]
  generalize files.map (fun file => records file.heap) = pendings at streams empty
  refine ⟨runs,db',(sf.stream pendings).map Prod.snd,started,fun n => ?_,fun n below => ?_⟩
  · obtain ⟨runs',db'',_,told,_⟩ := nexts_spec streams n
    exact ⟨_,db'',told⟩
  · cases n with
    | succ n =>
      rw [List.length_map] at below
      exact iff_of_true (replays_taken streams below) (.inl (Nat.succ_le_succ (Nat.zero_le n)))
    | zero =>
      rw [← empty]
      constructor
      · intro replays
        have one := replays 0 1
        rw [replay_unread streams unread 0 1] at one
        cases here : sf.stream pendings with
        | nil => exact .inr rfl
        | cons e rest =>
          rw [here] at one
          cases one
      · intro either m l
        rcases either with less | nothing
        · omega
        · rw [replay_unread streams unread m l,nothing]
          rfl

theorem marks_replay_iff_sample : ∃ shelf r s runs db', ∃ out : List (List UInt8), sampleDb.Stands shelf ∧
    Lies shelf sampleRuns [r,s] ∧
    startScans sampleRuns.runs sampleDb = .ok (.ok,runs,db') ∧
      (∀ n, ∃ sf' db'', nexts n {sampleRuns with runs := runs} db' = .ok (told n out,sf',db'')) ∧
    ∀ n, n ≤ out.length → (Replays {sampleRuns with runs := runs} db' out n ↔ 1 ≤ n) := by
  obtain ⟨shelf,r,s,stands,lies,recs_r,_⟩ := sampleRuns_lie
  obtain ⟨runs,db',out,started,calls,exactly⟩ := marks_replay_iff shelf sampleDb stands sampleRuns [r,s] lies
  refine ⟨shelf,r,s,runs,db',out,stands,lies,started,calls,fun n below => (exactly n below).trans
    (or_iff_left fun empty => ?_)⟩
  rw [empty r (List.mem_cons_self ..)] at recs_r
  cases recs_r

-- The records are 1 and 1 and 3; behind a mark before the first call there is none.
theorem early_mark_is_end : ∃ (runs : List Run) (db' : Db) (out : List (List UInt8)), startScans sampleRuns.runs
    sampleDb = .ok (.ok,runs,db') ∧
    (∀ n, ∃ sf' db'', nexts n {sampleRuns with runs := runs} db' = .ok (told n out,sf',db'')) ∧ out ≠ [] ∧
    replay 0 0 1 {sampleRuns with runs := runs} db' = .ok (.ok,[.error .fileEof]) ∧ ¬ Replays
      {sampleRuns with runs := runs} db' out 0 := by
  obtain ⟨shelf,r,s,stands,lies,recs_r,_⟩ := sampleRuns_lie
  obtain ⟨runs,db',started,streams,unread⟩ := lies.started stands
  have ended := replay_unread streams unread 0 1
  have some_record : sampleRuns.stream ([r,s].map fun file => records file.heap) ≠ [] := by
    rw [Ne,stream,RunMerge.merge_nil,listed_bytes]
    intro empty
    have nothing : (records r.heap).map Prod.snd = [] := empty _ (List.mem_cons_self ..)
    rw [recs_r] at nothing
    cases nothing
  refine ⟨runs,db',(sampleRuns.stream ([r,s].map fun file => records file.heap)).map Prod.snd,started,fun n => ?_,
    fun nothing => some_record (List.map_eq_nil_iff.mp nothing),ended,fun replays => ?_⟩
  · obtain ⟨runs',db'',_,told,_⟩ := nexts_spec streams n
    exact ⟨_,db'',told⟩
  · have one := replays 0 1
    rw [ended] at one
    cases here : sampleRuns.stream ([r,s].map fun file => records file.heap) with
    | nil => exact some_record here
    | cons e rest =>
      rw [here] at one
      cases one

end SortedFile
end Minirel
