import Minirel.Sort
import Minirel.ScanReplay
import Minirel.RunMerge

namespace Minirel
open ByteMemory SlotDirectory Page Heap

namespace SortedFile

-- The record that a run has in memory, or the place where it has stopped; and with it all that the
-- run has still to give.
inductive Head (run : Run) (c : Cursor) : List Entry → Prop where
  | unread : run.valid = false → Head run c c.remaining
  | fetched (bytes : List UInt8) : run.valid = true → run.inFile.curRec = run.rid → run.record = .of bytes →
    c.Current (run.rid,bytes) → Head run c ((run.rid,bytes)::c.remaining)
  | ended : run.valid = true → run.rid.pageNo < 0 → Head run c []

-- The run file is open, and the scan of the run stands somewhere in it.
structure Scans (shelf : Shelf) (db : Db) (run : Run) (file : HeldFile) (b : Pool) (c : Cursor) : Prop where
  listed : shelf run.name = some file
  owned : file.books.Owned
  present : db.files run.name = some b
  scanning : HeapFileScan.Scanning file.books.opened file.recCnt b run.inFile c
  whole : c.heap = file.heap
  clear : run.inFile.filter = none

def Gives (shelf : Shelf) (db : Db) (run : Run) (pending : List Entry) : Prop :=
  ∃ file b c, Scans shelf db run file b c ∧ Head run c pending

-- The same run, whose scan may have gone on but keeps its mark.
def SameRun (run run' : Run) : Prop := run'.name = run.name ∧ HeapFileScan.SameMark run.inFile run'.inFile

variable {shelf : Shelf} {db db' : Db} {run run' : Run} {pending : List Entry} {file : HeldFile} {b : Pool} {c : Cursor}

theorem SameRun.refl (run : Run) : SameRun run run := ⟨rfl,rfl,rfl⟩

theorem SameRun.trans {run'' : Run} (one : SameRun run run') (two : SameRun run' run'') : SameRun run run'' :=
  ⟨two.1.trans one.1,one.2.trans two.2⟩

theorem Scans.frame (scans : Scans shelf db run file b c) (same : db'.files run.name = db.files run.name) :
    Scans shelf db' run file b c :=
  ⟨scans.listed,scans.owned,same.trans scans.present,scans.scanning,scans.whole,scans.clear⟩

theorem Gives.frame (gives : Gives shelf db run pending) (same : db'.files run.name = db.files run.name) :
    Gives shelf db' run pending := by
  obtain ⟨file,b,c,scans,head⟩ := gives
  exact ⟨file,b,c,scans.frame same,head⟩

theorem Scans.page_positive (scans : Scans shelf db run file b c) {e : Entry} (current : c.Current e) : ¬ e.1.pageNo <
    0 := by
  obtain ⟨_,low,_⟩ := scans.scanning.stored.page
  obtain ⟨_,here,_⟩ := current
  rw [here]
  change ¬ c.pageNo < 0
  omega

-- What fetch leaves of a run: a record in memory, or the end of the run.
structure Fetched (shelf : Shelf) (db : Db) (run : Run) (pending : List Entry) : Prop where
  gives : Gives shelf db run pending
  valid : run.valid = true
  ended : pending = [] → run.rid.pageNo < 0
  record : ∀ e rest, pending = e::rest → ¬ run.rid.pageNo < 0 ∧ run.record = .of e.2

theorem Gives.fetched (gives : Gives shelf db run pending) (valid : run.valid = true) :
    Fetched shelf db run pending := by
  have given := gives
  obtain ⟨file,b,c,scans,head⟩ := given
  cases head with
  | unread invalid =>
    rw [valid] at invalid
    cases invalid
  | fetched bytes _ _ record current =>
    refine ⟨gives,valid,fun nothing => (by cases nothing),fun e rest split => ?_⟩
    cases split
    exact ⟨scans.page_positive current,record⟩
  | ended _ stopped => exact ⟨gives,valid,fun _ => stopped,fun _ _ split => by cases split⟩

theorem Fetched.frame (fetched : Fetched shelf db run pending) (same : db'.files run.name = db.files run.name) :
    Fetched shelf db' run pending :=
  ⟨fetched.gives.frame same,fetched.valid,fetched.ended,fetched.record⟩

theorem scanNext_db (scans : Scans shelf db run file b c) {result : Except Status RID} {s' : HeapFileScan} {b' : Pool}
    (ran : HeapFileScan.scanNext b run.inFile = .ok (result,s',b')) :
    db.scanNext run.name run.inFile = .ok (result,s',db.setPool run.name b') := by
  rw [Db.scanNext,Db.pool_found scans.present,ok_bind,ran]
  rfl

theorem fetch_spec (gives : Gives shelf db run pending) :
    ∃ run' db', fetch run db = .ok (.ok,run',db') ∧ Fetched shelf db' run' pending ∧ SameRun run run' ∧
      ∀ n, n ≠ run.name → db'.files n = db.files n := by
  unfold fetch
  by_cases valid : run.valid = true
  · rw [if_pos valid]
    exact ⟨run,db,rfl,gives.fetched valid,.refl run,fun _ _ => rfl⟩
  · rw [if_neg valid]
    obtain ⟨file,b,c,scans,head⟩ := gives
    have owned : file.books.opened.Owned := scans.owned
    obtain ⟨b',s',c',moves,clear,found⟩ := HeapFileScan.scanNext_current owned scans.scanning scans.clear
    have others : ∀ n, n ≠ run.name → (db.setPool run.name b').files n = db.files n := fun n other =>
      Db.setPool_other b' other
    cases head with
    | fetched _ yes => exact absurd yes valid
    | ended yes => exact absurd yes valid
    | unread =>
      rcases found with ⟨eof,nothing,_⟩ | ⟨bytes,next,remaining,current⟩
      · let run' : Run := {run with inFile := s', rid := {run.rid with pageNo := -1}, valid := true}
        have scans' : Scans shelf (db.setPool run.name b') run' file b' c' :=
          ⟨scans.listed,scans.owned,Db.setPool_same ..,moves.scanning,moves.heap.trans scans.whole,clear⟩
        have stopped : run'.rid.pageNo < 0 := Int.negSucc_lt_zero 0
        have head' : Head run' c' c.remaining := by
          rw [nothing]
          exact .ended rfl stopped
        refine ⟨run',_,?_,Gives.fetched ⟨file,b',c',scans',head'⟩ rfl,⟨rfl,scans.scanning.scanNext_mark eof⟩,others⟩
        rw [scanNext_db scans eof,ok_bind]
        rfl
      · let run' : Run := {run with inFile := s', rid := s'.curRec, record := .of bytes, valid := true}
        have scans' : Scans shelf (db.setPool run.name b') run' file b' c' :=
          ⟨scans.listed,scans.owned,Db.setPool_same ..,moves.scanning,moves.heap.trans scans.whole,clear⟩
        have head' : Head run' c' c.remaining := by
          rw [remaining]
          exact .fetched bytes rfl rfl rfl current
        refine ⟨run',_,?_,Gives.fetched ⟨file,b',c',scans',head'⟩ rfl,⟨rfl,scans.scanning.scanNext_mark next⟩,others⟩
        rw [scanNext_db scans next,ok_bind]
        dsimp only
        rw [Db.getRecord_at,HeapFileScan.getRecord_spec moves.scanning current rfl,ok_bind]
        rfl

-- The merge goes by the sort attribute of the records.
def gt (sf : SortedFile) (x y : List UInt8) : Bool :=
  reccmp ((x.drop sf.offset.toNat).take sf.length.toNat) ((y.drop sf.offset.toNat).take sf.length.toNat)
    sf.length sf.length sf.type = some .gt

def bytes (pending : List Entry) : List (List UInt8) := pending.map Prod.snd

-- The sort attribute lies inside the record.
def Inside (sf : SortedFile) (pending : List Entry) : Prop := ∀ e ∈ pending, sf.offset + sf.length ≤ e.2.length

theorem sortField_inside {sf : SortedFile} {x : List UInt8} (inside : sf.offset + sf.length ≤ x.length) :
    sf.sortField (.of x) = .ok ((x.drop sf.offset.toNat).take sf.length.toNat) := if_pos inside

-- What the loop compares of one run, and what it keeps.
def smaller (sf : SortedFile) (run : Run) (i : Nat) (smallest : Option (Nat × Record)) :
    Except Abort (Option (Nat × Record)) :=
  if run.rid.pageNo < 0 then pure smallest
  else match smallest with
    | none => pure (some (i,run.record))
    | some (j,rec) => do
      let one ← sf.sortField rec
      let two ← sf.sortField run.record
      pure (if reccmp one two sf.length sf.length sf.type = some .gt then some (i,run.record) else some (j,rec))

theorem findSmallest_fetched {sf : SortedFile} (fetching : fetch run db = .ok (.ok,run',db')) (runs : List Run)
    (i : Nat)
    (smallest : Option (Nat × Record)) :
    findSmallest sf (run::runs) i smallest db = (do
      let smallest ← smaller sf run' i smallest
      let (status,runs,smallest,db) ← findSmallest sf runs (i + 1) smallest db'
      return (status,run'::runs,smallest,db)) := by
  rw [findSmallest,fetching,ok_bind]
  dsimp only
  rw [if_neg (not_not_intro rfl)]
  unfold smaller
  split
  · rfl
  · cases smallest with
    | none => rfl
    | some entry =>
      dsimp only
      cases sf.sortField entry.2 with
      | error abort => rfl
      | ok one =>
        cases sf.sortField run'.record with
        | error abort => rfl
        | ok two => rfl

theorem smaller_spec {sf : SortedFile} (fetched : Fetched shelf db run pending) (inside : Inside sf pending) (i : Nat)
    (best : Option (Nat × List UInt8)) (within : ∀ e, best = some e → sf.offset + sf.length ≤ e.2.length) :
    smaller sf run i (best.map fun e => (e.1,Record.of e.2)) =
      .ok ((RunMerge.better sf.gt best i (bytes pending)).map fun e => (e.1,Record.of e.2)) ∧
    ∀ e, RunMerge.better sf.gt best i (bytes pending) = some e → sf.offset + sf.length ≤ e.2.length := by
  unfold smaller
  cases pending with
  | nil =>
    rw [if_pos (fetched.ended rfl)]
    exact ⟨rfl,within⟩
  | cons e rest =>
    obtain ⟨forward,record⟩ := fetched.record e rest rfl
    have long := inside e (List.mem_cons_self ..)
    rw [if_neg forward,record]
    cases best with
    | none =>
      refine ⟨rfl,fun e' same => ?_⟩
      cases same
      exact long
    | some entry =>
      obtain ⟨j,y⟩ := entry
      have long' := within _ rfl
      dsimp only [Option.map_some]
      rw [sortField_inside long',ok_bind,sortField_inside long,ok_bind]
      change (Except.ok _ : Except Abort _) = .ok ((if sf.gt y e.2 then some (i,e.2) else some (j,y)).map _) ∧
        ∀ e', (if sf.gt y e.2 then some (i,e.2) else some (j,y)) = some e' → _
      unfold gt
      simp only [decide_eq_true_eq]
      split
      · refine ⟨rfl,fun e' same => ?_⟩
        cases same
        exact long
      · refine ⟨rfl,fun e' same => ?_⟩
        cases same
        exact long'

-- Each run with what it has still to give, and no two on one file.
structure Streams (shelf : Shelf) (db : Db) (sf : SortedFile) (runs : List Run) (pendings : List (List Entry)) :
    Prop where
  gives : List.Forall₂ (Gives shelf db) runs pendings
  distinct : (runs.map Run.name).Nodup
  inside : ∀ pending ∈ pendings, Inside sf pending

theorem same_names {runs runs' : List Run} (same : List.Forall₂ SameRun runs runs') :
    runs'.map Run.name = runs.map Run.name := by
  induction same with
  | nil => rfl
  | cons one _ ih => rw [List.map_cons,List.map_cons,ih,one.1]

theorem fetched_gives {runs : List Run} {pendings : List (List Entry)}
    (fetched : List.Forall₂ (Fetched shelf db) runs pendings) :
    List.Forall₂ (Gives shelf db) runs pendings := fetched.imp fun _ _ now => now.gives

theorem gives_frame {runs : List Run} {pendings : List (List Entry)}
    (gives : List.Forall₂ (Gives shelf db) runs pendings) {name : Name}
    (fresh : name ∉ runs.map Run.name) (same : ∀ n, n ≠ name → db'.files n = db.files n) :
    List.Forall₂ (Gives shelf db') runs pendings := by
  induction gives with
  | nil => exact .nil
  | cons now _ ih =>
    rw [List.map_cons,List.mem_cons,not_or] at fresh
    exact .cons (now.frame (same _ (Ne.symm fresh.1))) (ih fresh.2)

theorem Streams.tail {sf : SortedFile} {runs : List Run} {pendings : List (List Entry)}
    (streams : Streams shelf db sf (run::runs) (pending::pendings)) (same : ∀ n, n ≠ run.name → db'.files n =
      db.files n) :
    Streams shelf db' sf runs pendings := by
  obtain ⟨fresh,distinct⟩ := List.nodup_cons.mp streams.distinct
  obtain ⟨_,gives⟩ := List.forall₂_cons.mp streams.gives
  exact ⟨gives_frame gives fresh same,distinct,fun p member => streams.inside p (List.mem_cons_of_mem _ member)⟩

theorem findSmallest_spec {sf : SortedFile} {runs : List Run} {pendings : List (List Entry)}
    (streams : Streams shelf db sf runs pendings)
    (i : Nat) (best : Option (Nat × List UInt8)) (within : ∀ e, best = some e → sf.offset + sf.length ≤ e.2.length) :
    ∃ runs' db', findSmallest sf runs i (best.map fun e => (e.1,Record.of e.2)) db =
        .ok (.ok,runs',(RunMerge.choose sf.gt (pendings.map bytes) i best).map fun e => (e.1,Record.of e.2),db') ∧
      List.Forall₂ (Fetched shelf db') runs' pendings ∧ List.Forall₂ SameRun runs runs' ∧
      ∀ n, n ∉ runs.map Run.name → db'.files n = db.files n := by
  induction runs generalizing db pendings i best with
  | nil =>
    cases streams.gives
    exact ⟨[],db,rfl,.nil,.nil,fun _ _ => rfl⟩
  | cons run runs ih =>
    cases pendings with
    | nil => cases streams.gives
    | cons pending pendings =>
      obtain ⟨now,_⟩ := List.forall₂_cons.mp streams.gives
      obtain ⟨run',db1,fetching,fetched,same,others⟩ := fetch_spec now
      obtain ⟨step,within'⟩ := smaller_spec fetched (streams.inside pending (List.mem_cons_self ..)) i best within
      obtain ⟨runs',db2,rest,fetched',same',others'⟩ :=
        ih (streams.tail others) (i + 1) (RunMerge.better sf.gt best i (bytes pending)) within'
      have fresh := (List.nodup_cons.mp streams.distinct).1
      refine ⟨run'::runs',db2,?_,.cons (fetched.frame ?_) fetched',.cons same same',fun n absent => ?_⟩
      · rw [findSmallest_fetched fetching,step,ok_bind,rest,ok_bind]
        rfl
      · rw [same.1]
        exact others' run.name fresh
      · rw [List.map_cons,List.mem_cons,not_or] at absent
        rw [others' n absent.2,others n absent.1]

-- The run whose record has been returned has to fetch another.
def takeAt (i : Nat) (runs : List Run) : List Run := runs.modify i fun run => {run with valid := false}

theorem Fetched.take {e : Entry} {rest : List Entry} (fetched : Fetched shelf db run (e::rest)) :
    Gives shelf db {run with valid := false} rest := by
  obtain ⟨file,b,c,scans,head⟩ := fetched.gives
  have valid := fetched.valid
  generalize split : e::rest = pending at head
  cases head with
  | unread invalid =>
    rw [valid] at invalid
    cases invalid
  | fetched bytes _ _ _ _ =>
    cases split
    exact ⟨file,b,c,⟨scans.listed,scans.owned,scans.present,scans.scanning,scans.whole,scans.clear⟩,.unread rfl⟩
  | ended => cases split

theorem take_gives {runs : List Run} {pendings : List (List Entry)} {i : Nat} {e : Entry} {rest : List Entry}
    (fetched : List.Forall₂ (Fetched shelf db) runs pendings) (there : pendings[i]? = some (e::rest)) :
    List.Forall₂ (Gives shelf db) (takeAt i runs) (pendings.modify i List.tail) := by
  induction fetched generalizing i with
  | nil => cases there
  | cons now later ih =>
    cases i with
    | zero =>
      cases there
      exact .cons now.take (fetched_gives later)
    | succ i => exact .cons now.gives (ih there)

theorem take_same (i : Nat) (runs : List Run) : List.Forall₂ SameRun runs (takeAt i runs) := by
  induction runs generalizing i with
  | nil => cases i <;> exact .nil
  | cons run runs ih =>
    cases i with
    | zero => exact .cons ⟨rfl,rfl,rfl⟩ (List.forall₂_same.mpr fun r _ => .refl r)
    | succ i => exact .cons (.refl run) (ih i)

theorem same_trans {one two three : List Run} (first : List.Forall₂ SameRun one two)
    (second : List.Forall₂ SameRun two three) :
    List.Forall₂ SameRun one three := by
  induction first generalizing three with
  | nil => exact second
  | cons now _ ih =>
    cases second with
    | cons now' later => exact .cons (now.trans now') (ih later)

theorem bytes_tail (pendings : List (List Entry)) (i : Nat) :
    (pendings.modify i List.tail).map bytes = (pendings.map bytes).modify i List.tail := by
  induction pendings generalizing i with
  | nil => cases i <;> rfl
  | cons pending pendings ih =>
    cases i with
    | zero =>
      rw [List.modify_zero_cons,List.map_cons,List.map_cons,List.modify_zero_cons,bytes,List.map_tail]
      rfl
    | succ i => rw [List.modify_succ_cons,List.map_cons,List.map_cons,List.modify_succ_cons,ih]

-- A call of next: the runs all have a record in memory or have ended, and the smallest is taken.
theorem next_spec {sf : SortedFile} {pendings : List (List Entry)} (streams : Streams shelf db sf sf.runs pendings) :
    ∃ runs db', List.Forall₂ (Fetched shelf db') runs pendings ∧ List.Forall₂ SameRun sf.runs runs ∧
      next sf db = .ok (match RunMerge.choose sf.gt (pendings.map bytes) 0 none with
        | none => (.error .fileEof,{sf with runs := runs},db')
        | some (i,x) => (.ok (.of x),{sf with runs := takeAt i runs},db')) := by
  unfold next
  by_cases empty : sf.runs = []
  · rw [if_pos empty]
    have gives := streams.gives
    rw [empty] at gives
    cases gives
    refine ⟨[],db,.nil,by rw [empty]; exact .nil,?_⟩
    rw [← empty]
    rfl
  · rw [if_neg empty]
    obtain ⟨runs,db',found,fetched,same,_⟩ := findSmallest_spec streams 0 none fun _ none => by cases none
    refine ⟨runs,db',fetched,same,?_⟩
    have found' : findSmallest sf sf.runs 0 none db = _ := found
    rw [found',ok_bind]
    dsimp only
    rw [if_neg (not_not_intro rfl)]
    cases RunMerge.choose sf.gt (pendings.map bytes) 0 none with
    | none => rfl
    | some entry => rfl

theorem Streams.fetched {sf : SortedFile} {runs : List Run} {pendings : List (List Entry)}
    (streams : Streams shelf db sf sf.runs pendings)
    (fetched : List.Forall₂ (Fetched shelf db') runs pendings) (same : List.Forall₂ SameRun sf.runs runs) :
    Streams shelf db' {sf with runs := runs} runs pendings :=
  ⟨fetched_gives fetched,by rw [same_names same]; exact streams.distinct,streams.inside⟩

theorem Streams.taken {sf : SortedFile} {runs : List Run} {pendings : List (List Entry)} {i : Nat} {e : Entry}
    {rest : List Entry}
    (streams : Streams shelf db sf sf.runs pendings) (fetched : List.Forall₂ (Fetched shelf db') runs pendings)
    (same : List.Forall₂ SameRun sf.runs runs) (there : pendings[i]? = some (e::rest)) :
    Streams shelf db' {sf with runs := takeAt i runs} (takeAt i runs) (pendings.modify i List.tail) := by
  refine ⟨take_gives fetched there,?_,fun pending member => ?_⟩
  · rw [same_names (take_same i runs),same_names same]
    exact streams.distinct
  · obtain ⟨k,found⟩ := List.mem_iff_getElem?.mp member
    rw [List.getElem?_modify] at found
    cases old : pendings[k]? with
    | none =>
      rw [old] at found
      cases found
    | some p =>
      rw [old] at found
      have long := streams.inside p (List.mem_of_getElem? old)
      cases found
      intro e' member'
      refine long e' ?_
      split at member'
      · exact List.mem_of_mem_tail member'
      · exact member'

theorem chosen_pending {sf : SortedFile} {pendings : List (List Entry)} {i : Nat} {x : List UInt8}
    (chosen : RunMerge.choose sf.gt (pendings.map bytes) 0 none = some (i,x)) : ∃ rid rest, pendings[i]? =
    some ((rid,x)::rest) := by
  obtain ⟨rest,there⟩ := RunMerge.choose_first chosen
  rw [List.getElem?_map] at there
  cases found : pendings[i]? with
  | none =>
    rw [found] at there
    cases there
  | some pending =>
    rw [found] at there
    cases pending with
    | nil => cases there
    | cons e rest' =>
      obtain ⟨rid,y⟩ := e
      cases there
      exact ⟨rid,rest',rfl⟩

-- Some calls of next, and what each returned.
def nexts : Nat → SortedFile → Db → Except Abort (List (Except Status Record) × SortedFile × Db)
  | 0,sf,db => return ([],sf,db)
  | n+1,sf,db => do
    let (result,sf,db) ← next sf db
    let (results,sf,db) ← nexts n sf db
    return (result::results,sf,db)

-- What they return while these records are to come.
def told : Nat → List (List UInt8) → List (Except Status Record)
  | 0,_ => []
  | n+1,[] => .error .fileEof::told n []
  | n+1,x::rest => .ok (.of x)::told n rest

-- The records of the stream, each with the number of its run.
def stream (sf : SortedFile) (pendings : List (List Entry)) : List (Nat × List UInt8) :=
    RunMerge.merge sf.gt (pendings.map bytes)

theorem nexts_spec {sf : SortedFile} {pendings : List (List Entry)} (streams : Streams shelf db sf sf.runs pendings)
    (n : Nat) :
    ∃ runs db' pendings', nexts n sf db = .ok (told n ((sf.stream pendings).map Prod.snd),{sf with runs := runs},db') ∧
      Streams shelf db' {sf with runs := runs} runs pendings' ∧ List.Forall₂ SameRun sf.runs runs ∧
        sf.stream pendings' = (sf.stream pendings).drop n := by
  induction n generalizing sf db pendings with
  | zero => exact ⟨sf.runs,db,pendings,rfl,streams,List.forall₂_same.mpr fun r _ => .refl r,rfl⟩
  | succ n ih =>
    obtain ⟨runs,db1,fetched,same,called⟩ := next_spec streams
    cases chosen : RunMerge.choose sf.gt (pendings.map bytes) 0 none with
    | none =>
      rw [chosen] at called
      have nothing : sf.stream pendings = [] := RunMerge.merge_none chosen
      obtain ⟨runs',db2,pendings',later,streams',same',left⟩ := ih (streams.fetched fetched same)
      have again : SortedFile.stream {sf with runs := runs} pendings = [] := nothing
      rw [again,List.drop_nil] at left
      rw [again] at later
      refine ⟨runs',db2,pendings',?_,streams',same_trans same same',by rw [nothing,List.drop_nil]; exact left⟩
      rw [nexts,called,ok_bind]
      dsimp only
      rw [later,ok_bind,nothing]
      rfl
    | some entry =>
      obtain ⟨i,x⟩ := entry
      rw [chosen] at called
      obtain ⟨rid,rest,there⟩ := chosen_pending chosen
      have more : sf.stream pendings = (i,x)::sf.stream (pendings.modify i List.tail) := by
        unfold stream
        rw [RunMerge.merge_some chosen,bytes_tail]
      obtain ⟨runs',db2,pendings',later,streams',same',left⟩ := ih (streams.taken fetched same there)
      refine ⟨runs',db2,pendings',?_,streams',same_trans same (same_trans (take_same i runs) same'),
        by rw [more]; exact left⟩
      rw [nexts,called,ok_bind]
      dsimp only
      rw [later,ok_bind,more]
      rfl

-- The files that the runs have been written to.
structure Lies (shelf : Shelf) (sf : SortedFile) (files : List HeldFile) : Prop where
  listed : List.Forall₂ (fun run file => shelf run.name = some file) sf.runs files
  distinct : (sf.runs.map Run.name).Nodup
  inside : ∀ file ∈ files, Inside sf (records file.heap)

theorem startScans_spec {runs : List Run} {files : List HeldFile}
    (listed : List.Forall₂ (fun run file => shelf run.name = some file) runs files)
    (distinct : (runs.map Run.name).Nodup)
    (holds : ∀ run ∈ runs, ∀ file, shelf run.name = some file → db.Holds run.name file.books file.heap file.recCnt) :
    ∃ runs' db', startScans runs db = .ok (.ok,runs',db') ∧
      List.Forall₂ (Gives shelf db') runs' (files.map fun file => records file.heap) ∧
      runs'.map Run.name = runs.map Run.name ∧ (∀ run ∈ runs', run.rid = nullRid) ∧
      ∀ n, n ∉ runs.map Run.name → db'.files n = db.files n := by
  induction listed generalizing db with
  | nil => exact ⟨[],db,rfl,.nil,rfl,fun _ none => (by cases none),fun _ _ => rfl⟩
  | @cons run file runs files there _ ih =>
    obtain ⟨fresh,distinct'⟩ := List.nodup_cons.mp distinct
    have held := holds run (List.mem_cons_self ..) file there
    obtain ⟨b,s,c,made,scanning,whole,all,clear⟩ := Db.newHeapFileScan_spec held
    have holds' : ∀ r ∈ runs, ∀ f, shelf r.name = some f →
        (db.setPool run.name b).Holds r.name f.books f.heap f.recCnt := by
      intro r member f found
      refine (holds r (List.mem_cons_of_mem _ member) f found).setPool_other b fun same => fresh ?_
      rw [← same]
      exact List.mem_map_of_mem member
    obtain ⟨runs',db',later,gives,names,unread,others⟩ := ih distinct' holds'
    let run' : Run := {run with inFile := s, valid := false, rid := nullRid}
    have started : s.startScan 0 0 (some .string) none .eq = (.ok,s) := by rw [HeapFileScan.startScan,← clear]
    have scans : Scans shelf db' run' file b c :=
      ⟨there,held.2.1,(others run.name fresh).trans (Db.setPool_same ..),scanning,whole,clear⟩
    refine ⟨run'::runs',db',?_,.cons ⟨file,b,c,scans,?_⟩ gives,by rw [List.map_cons,List.map_cons,names],
      List.forall_mem_cons.mpr ⟨rfl,unread⟩,fun n absent => ?_⟩
    · rw [startScans,made,ok_bind]
      dsimp only
      rw [if_neg (not_not_intro rfl),started]
      dsimp only
      rw [if_neg (not_not_intro rfl),later,ok_bind]
      rfl
    · change Head run' c (records file.heap)
      rw [← all]
      exact .unread rfl
    · rw [List.map_cons,List.mem_cons,not_or] at absent
      rw [others n absent.2,Db.setPool_other b absent.1]

theorem Lies.started {sf : SortedFile} {files : List HeldFile} (lies : Lies shelf sf files) (stands : db.Stands shelf) :
    ∃ runs db', startScans sf.runs db = .ok (.ok,runs,db') ∧
      Streams shelf db' {sf with runs := runs} runs (files.map fun file => records file.heap) ∧
        ∀ run ∈ runs, run.rid = nullRid := by
  obtain ⟨runs,db',started,gives,names,unread,_⟩ := startScans_spec lies.listed lies.distinct fun run _ file there =>
    stands run.name file there
  refine ⟨runs,db',started,⟨gives,by rw [names]; exact lies.distinct,fun pending member => ?_⟩,unread⟩
  obtain ⟨file,there,rfl⟩ := List.mem_map.mp member
  exact lies.inside file there

theorem listed_bytes (files : List HeldFile) :
    (files.map fun file => records file.heap).map bytes = files.map fun file => (records file.heap).map Prod.snd := by
  rw [List.map_map]
  rfl

-- The calls of next return an interleaving of the runs, and then the end of the file for good. Of
-- ascending runs it is ascending, and what is equal comes from the earliest run first. As reccmp reads
-- the sort attribute where the caller has said it is, every record is to contain it (Lies.inside).
theorem next_merges (shelf : Shelf) (db : Db) (stands : db.Stands shelf) (sf : SortedFile) (files : List HeldFile)
    (lies : Lies shelf sf files) :
    ∃ (runs : List Run) (db' : Db) (out : List (Nat × List UInt8)), startScans sf.runs db = .ok (.ok,runs,db') ∧
      (∀ n, ∃ sf' db'', nexts n {sf with runs := runs} db' = .ok (told n (out.map Prod.snd),sf',db'')) ∧
      (∀ (i : Nat) file, files[i]? = some file → ((out.filter fun e => e.1 = i).map Prod.snd) =
        (records file.heap).map Prod.snd) ∧
      (∀ e ∈ out, e.1 < files.length) ∧
      ∀ S : List UInt8 → Prop, RunMerge.TotalOn sf.gt S →
        (∀ file ∈ files, ∀ x ∈ (records file.heap).map Prod.snd, S x) →
        (∀ file ∈ files, ((records file.heap).map Prod.snd).Pairwise fun x y => sf.gt x y = false) →
        out.Pairwise (RunMerge.Before sf.gt) := by
  obtain ⟨runs,db',started,streams,_⟩ := lies.started stands
  have flat := listed_bytes files
  refine ⟨runs,db',sf.stream (files.map fun file => records file.heap),started,fun n => ?_,fun i file there =>
    ?_,fun e member => ?_,
    fun S order within ascending => ?_⟩
  · obtain ⟨runs',db'',_,told,_⟩ := nexts_spec streams n
    exact ⟨_,db'',told⟩
  · rw [stream,RunMerge.merge_interleaves,flat,List.getElem?_map,there]
    rfl
  · obtain ⟨run,there,_⟩ := RunMerge.merge_mem member
    rw [flat,List.getElem?_map] at there
    obtain ⟨file,found,_⟩ := Option.map_eq_some_iff.mp there
    exact (List.getElem?_eq_some_iff.mp found).1
  · rw [stream,flat]
    refine RunMerge.merge_ascends order _ (fun run member => ?_) fun run member => ?_
    · obtain ⟨file,there,rfl⟩ := List.mem_map.mp member
      exact within file there
    · obtain ⟨file,there,rfl⟩ := List.mem_map.mp member
      exact ascending file there

-- The relations R and S as the runs, by their attribute a.
def sampleRuns : SortedFile :=
  ⟨[⟨[82],sampleDb.raw,false,⟨[],0⟩,nullRid⟩,⟨[83],sampleDb.raw,false,⟨[],0⟩,nullRid⟩],[84],.integer,0,4,2⟩

theorem sampleRuns_lie : ∃ shelf r s, sampleDb.Stands shelf ∧ Lies shelf sampleRuns [r,s] ∧
    (records r.heap).map Prod.snd = [[1,0,0,0,2,0,0,0]] ∧ (records s.heap).map Prod.snd = [[1,0,0,0],[3,0,0,0]] := by
  obtain ⟨shelf,_,r,s,_,stands,_,_,at_r,at_s,_,recs_r,recs_s,_⟩ := sampleDb_stands
  refine ⟨shelf,r,s,stands,⟨.cons at_r (.cons at_s .nil),by decide,fun file member e here => ?_⟩,recs_r,recs_s⟩
  have here' : e.2 ∈ (records file.heap).map Prod.snd := List.mem_map_of_mem here
  rcases List.mem_cons.mp member with rfl | member
  · rw [recs_r,List.mem_singleton] at here'
    rw [here']
    decide
  · rw [List.mem_singleton.mp member,recs_s,List.mem_cons,List.mem_singleton] at here'
    rcases here' with same | same <;> rw [same] <;> decide

theorem sampleRuns_order : RunMerge.TotalOn sampleRuns.gt fun x => x ∈ [[1,0,0,0,2,0,0,0],[1,0,0,0],[3,0,0,0]] := by
  have total : ∀ x ∈ [[1,0,0,0,2,0,0,0],[1,0,0,0],[3,0,0,0]], ∀ y ∈ [[1,0,0,0,2,0,0,0],[1,0,0,0],[3,0,0,0]],
      sampleRuns.gt x y = false ∨ sampleRuns.gt y x = false := by decide +kernel
  have trans : ∀ x ∈ [[1,0,0,0,2,0,0,0],[1,0,0,0],[3,0,0,0]], ∀ y ∈ [[1,0,0,0,2,0,0,0],[1,0,0,0],[3,0,0,0]],
      ∀ z ∈ [[1,0,0,0,2,0,0,0],[1,0,0,0],[3,0,0,0]],
      sampleRuns.gt x y = false → sampleRuns.gt y z = false → sampleRuns.gt x z = false := by decide +kernel
  exact ⟨fun x y one two => total x one y two,fun x y z one two three => trans x one y two z three⟩

theorem next_merges_sample : ∃ shelf r s runs db', ∃ out : List (Nat × List UInt8), sampleDb.Stands shelf ∧
    Lies shelf sampleRuns [r,s] ∧
    startScans sampleRuns.runs sampleDb = .ok (.ok,runs,db') ∧
    (∀ n, ∃ sf' db'', nexts n {sampleRuns with runs := runs} db' = .ok (told n (out.map Prod.snd),sf',db'')) ∧
    ((out.filter fun e => e.1 = 1).map Prod.snd) = [[1,0,0,0],[3,0,0,0]] ∧
    out.Pairwise (RunMerge.Before sampleRuns.gt) := by
  obtain ⟨shelf,r,s,stands,lies,recs_r,recs_s⟩ := sampleRuns_lie
  obtain ⟨runs,db',out,started,calls,kept,_,ordered⟩ := next_merges shelf sampleDb stands sampleRuns [r,s] lies
  refine ⟨shelf,r,s,runs,db',out,stands,lies,started,calls,(kept 1 s rfl).trans recs_s,ordered _ sampleRuns_order ?_ ?_⟩
  · intro file member x here
    rcases List.mem_cons.mp member with rfl | member
    · rw [recs_r,List.mem_singleton] at here
      rw [here]
      decide
    · rw [List.mem_singleton.mp member,recs_s,List.mem_cons,List.mem_singleton] at here
      rcases here with rfl | rfl <;> decide
  · intro file member
    rcases List.mem_cons.mp member with rfl | member
    · rw [recs_r]
      decide +kernel
    · rw [List.mem_singleton.mp member,recs_s]
      decide +kernel

end SortedFile
end Minirel
