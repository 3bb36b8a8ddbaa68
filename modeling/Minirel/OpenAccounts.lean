import Minirel.OpenFiles

namespace Minirel.Stage6
open BucketTable

inductive DbCall where
  | createFile (fileName : Name)
  | destroyFile (fileName : Name)
  | openFile (fileName : Name)
  | closeFile (file : FileId)
  deriving DecidableEq,Repr

def Process.call (k : Kernel) (p : Process) : DbCall → Except Abort (Status × Option FileId × Process)
  | .createFile fileName => return ((p.createFile k fileName).1,none,(p.createFile k fileName).2)
  | .destroyFile fileName => return ((p.destroyFile k fileName).1,none,(p.destroyFile k fileName).2)
  | .openFile fileName => p.openFile k fileName
  | .closeFile file => do
    let (status,p) ← p.closeFile k (some file)
    return (status,none,p)

-- The pointers the callers of openFile have been given and have not closed, with the names they asked for.
abbrev Ledger := List (Name × FileId)

namespace Ledger

def count (l : Ledger) (name : Name) : Nat := l.countP fun e => e.1 = name

def after (l : Ledger) : DbCall → Status → Option FileId → Ledger
  | .openFile name,.ok,some file => (name,file)::l
  | .closeFile file,_,_ => l.eraseP fun e => e.2 = file
  | _,_,_ => l

-- A pointer is closed only as often as it has been opened.
def Allows (l : Ledger) : DbCall → Prop
  | .closeFile file => ∃ name, (name,file) ∈ l
  | _ => True

end Ledger

-- Unix opens and closes files that exist; new and ::open give what is not in use.
structure Kernel.Works (k : Kernel) (p : Process) : Prop where
  opens : k.opens = true
  closes : k.closes = true
  address : p.objects k.address = none
  fd : p.unix.fds k.fd = none

inductive Run (p₀ : Process) : Process → Ledger → Prop where
  | start : Run p₀ p₀ []
  | call {p p' : Process} {l : Ledger} {k : Kernel} {c : DbCall} {status : Status} {filePtr : Option FileId} :
    Run p₀ p l → k.Works p → l.Allows c → p.call k c = .ok (status,filePtr,p') → Run p₀ p' (l.after c status filePtr)

-- The calls on a file when its descriptor is fd, or when it has none: every open was followed by
-- the close of the same descriptor before the next open.
def Paired : Option Int → List UnixCall → Prop
  | none,[] => True
  | some fd,.opened fd'::rest => fd = fd' ∧ Paired none rest
  | none,.closed fd::rest => Paired (some fd) rest
  | _,_ => False

structure Live (u : Unix) (l : Ledger) (o : FileObject) : Prop where
  counted : o.openCnt = l.count o.fileName
  positive : 0 < l.count o.fileName
  there : (u.files o.fileName).isSome
  descriptor : u.fds o.unixFile = some o.fileName
  named : o.fileName ≠ []
  paired : Paired (some o.unixFile) (u.calls o.fileName)

-- openFiles, the File objects, Unix and the callers agree about what is open and how often.
structure Balanced (p : Process) (l : Ledger) : Prop where
  sound : Sound p.openFiles
  listed : ∀ name file, lookup OpenFileHashTbl.hash p.openFiles name = some file ↔ ∃ o, p.objects file = some o ∧
    o.fileName = name
  live : ∀ file o, p.objects file = some o → Live p.unix l o
  held : ∀ e ∈ l, ∃ o, p.objects e.2 = some o ∧ o.fileName = e.1
  shut : ∀ name, lookup OpenFileHashTbl.hash p.openFiles name = none → Paired none (p.unix.calls name)

-- The calls that a change of a count asks for.
inductive Changes : Nat → Nat → List UnixCall → List UnixCall → Prop where
  | opened {after : Nat} {calls : List UnixCall} (fd : Int) : 0 < after → Changes 0 after calls (.opened fd::calls)
  | closed {before : Nat} {calls : List UnixCall} (fd : Int) : 0 < before → Changes before 0 calls (.closed fd::calls)
  | same {before after : Nat} {calls : List UnixCall} : (before = 0 ↔ after = 0) → Changes before after calls calls

-- What a call may answer, by the count of its own name and by whether there is such a file.
def MayAnswer (p : Process) (l : Ledger) : DbCall → Status → Option FileId → Prop
  | .createFile name,status,_ => status = .fileExists ↔ name ≠ [] ∧ (0 < l.count name ∨ (p.unix.files name).isSome)
  | .destroyFile name,status,_ => status = .fileOpen ↔ 0 < l.count name
  | .openFile name,status,filePtr =>
    (status = .ok ↔ name ≠ [] ∧ (0 < l.count name ∨ (p.unix.files name).isSome)) ∧
      (status = .ok → filePtr.isSome ∧ ∀ file, (name,file) ∈ l → filePtr = some file)
  | .closeFile _,status,_ => status = .ok

namespace Ledger

variable {l : Ledger} {name other : Name} {file : FileId}

theorem count_open_same : count ((name,file)::l) name = l.count name + 1 := List.countP_cons_of_pos (by simp)

theorem count_open_other (apart : other ≠ name) : count ((name,file)::l) other = l.count other :=
  List.countP_cons_of_neg (by simpa using apart.symm)

-- A pointer that stands for one name takes one from the count of that name.
theorem count_close (member : ∃ name, (name,file) ∈ l) (names : ∀ e ∈ l, e.2 = file → e.1 = name) (n : Name) :
    l.count n = count (l.eraseP fun e => e.2 = file) n + if n = name then 1 else 0 := by
  obtain ⟨asked,member⟩ := member
  obtain ⟨e,before,behind,_,mine,split,erased⟩ := List.exists_of_eraseP (p:=fun e => decide (e.2 = file)) member
    (by simp)
  have called : e.1 = name := names e (by rw [split]; simp) (by simpa using mine)
  rw [erased]
  conv => lhs; rw [split]
  simp only [count,List.countP_append,List.countP_cons,called,decide_eq_true_eq]
  by_cases same : n = name
  · subst same
    simp
    omega
  · simp [same,Ne.symm same]

theorem count_pos : 0 < l.count name ↔ ∃ file, (name,file) ∈ l := by
  simp [count,List.countP_pos_iff]

end Ledger

namespace Balanced

variable {p p' : Process} {l : Ledger} {k : Kernel} {name : Name} {file : FileId} {o : FileObject}

theorem start (p : Process) (nothing : p.openFiles = fun _ => []) (none_live : ∀ file, p.objects file = none)
    (quiet : ∀ name, p.unix.calls name = []) : Balanced p [] where
  sound := by
    intro i
    rw [nothing]
    exact List.nodup_nil
  listed := by
    intro name file
    rw [nothing,none_live]
    constructor
    · intro none
      cases none
    · intro object
      obtain ⟨o,none,_⟩ := object
      cases none
  live := by
    intro file o none
    rw [none_live] at none
    cases none
  held := fun e none => by cases none
  shut := by
    intro name _
    rw [quiet]
    trivial

theorem count_pos (balanced : Balanced p l) :
    0 < l.count name ↔ ∃ file, lookup OpenFileHashTbl.hash p.openFiles name = some file := by
  constructor
  · intro positive
    obtain ⟨file,member⟩ := Ledger.count_pos.mp positive
    obtain ⟨o,object,called⟩ := balanced.held (name,file) member
    exact ⟨file,(balanced.listed name file).mpr ⟨o,object,called⟩⟩
  · intro found
    obtain ⟨file,found⟩ := found
    obtain ⟨o,object,rfl⟩ := (balanced.listed name file).mp found
    exact (balanced.live file o object).positive

theorem count_zero (balanced : Balanced p l) (missing : lookup OpenFileHashTbl.hash p.openFiles name = none) :
    l.count name = 0 := by
  by_contra positive
  obtain ⟨file,found⟩ := balanced.count_pos.mp (Nat.pos_of_ne_zero positive)
  rw [found] at missing
  cases missing

-- The entries of the ledger under a name are all the pointer that openFiles has for it.
theorem same_file (balanced : Balanced p l) (member : (name,file) ∈ l) :
    lookup OpenFileHashTbl.hash p.openFiles name = some file := by
  obtain ⟨o,object,called⟩ := balanced.held (name,file) member
  exact (balanced.listed name file).mpr ⟨o,object,called⟩

theorem one_object (balanced : Balanced p l) {other : FileId} {o' : FileObject} (object : p.objects file = some o)
    (object' : p.objects other = some o') (same : o'.fileName = o.fileName) : other = file :=
  Option.some.inj (((balanced.listed o.fileName other).mpr ⟨o',object',same⟩).symm.trans
    ((balanced.listed o.fileName file).mpr ⟨o,object,rfl⟩))

theorem found_iff (balanced : Balanced p l) (name : Name) : (∃ file, p.openFiles.find name = .ok file) ↔
    0 < l.count name := by
  rw [balanced.count_pos]
  unfold OpenFileHashTbl.find
  cases lookup OpenFileHashTbl.hash p.openFiles name with
  | some file => exact iff_of_true ⟨file,rfl⟩ ⟨file,rfl⟩
  | none =>
    refine iff_of_false ?_ ?_ <;>
    · intro found
      obtain ⟨file,none⟩ := found
      cases none

theorem name_inhabited (balanced : Balanced p l) (positive : 0 < l.count name) : name ≠ [] := by
  obtain ⟨file,found⟩ := balanced.count_pos.mp positive
  obtain ⟨o,object,rfl⟩ := (balanced.listed name file).mp found
  exact (balanced.live file o object).named

-- A file that nobody has open may come and go.
theorem setFile (balanced : Balanced p l) (missing : lookup OpenFileHashTbl.hash p.openFiles name = none)
    (content : Option UnixFile) :
    Balanced {p with unix := p.unix.setFile name content} l where
  sound := balanced.sound
  listed := balanced.listed
  live := by
    intro file o object
    obtain ⟨counted,positive,there,descriptor,named,paired⟩ := balanced.live file o object
    have other : o.fileName ≠ name := by
      intro same
      rw [(balanced.listed name file).mpr ⟨o,object,same⟩] at missing
      cases missing
    refine ⟨counted,positive,?_,descriptor,named,paired⟩
    change (Function.update p.unix.files name content o.fileName).isSome
    rw [Function.update_of_ne other]
    exact there
  held := balanced.held
  shut := balanced.shut

end Balanced

-- What a call leaves behind it.
structure Accounted (p : Process) (l : Ledger) (c : DbCall) (status : Status) (filePtr : Option FileId)
    (p' : Process) : Prop where
  balanced : Balanced p' (l.after c status filePtr)
  answer : MayAnswer p l c status filePtr
  changes : ∀ name, Changes (l.count name) ((l.after c status filePtr).count name) (p.unix.calls name)
    (p'.unix.calls name)

section calls

variable {p : Process} {l : Ledger} {k : Kernel} {name : Name} {file : FileId} {o : FileObject}

theorem find_error {status : Status} (found : p.openFiles.find name = .error status) :
    lookup OpenFileHashTbl.hash p.openFiles name = none := by
  unfold OpenFileHashTbl.find at found
  split at found
  · cases found
  · assumption

theorem find_ok (found : p.openFiles.find name = .ok file) :
    lookup OpenFileHashTbl.hash p.openFiles name = some file := by
  unfold OpenFileHashTbl.find at found
  split at found
  · cases found
    assumption
  · cases found

theorem quiet_changes {p' : Process} (same : p'.unix.calls = p.unix.calls) (name : Name) :
    Changes (l.count name) (l.count name) (p.unix.calls name) (p'.unix.calls name) := by
  rw [same]
  exact .same Iff.rfl

theorem createFile_accounted (balanced : Balanced p l) (k : Kernel) (name : Name) :
    Accounted p l (.createFile name) (p.createFile k name).1 none (p.createFile k name).2 := by
  unfold Process.createFile
  by_cases empty : name = []
  · rw [if_pos empty]
    refine ⟨balanced,?_,quiet_changes rfl⟩
    have other : Status.badFile ≠ .fileExists := Status.noConfusion
    exact iff_of_false other fun both => both.1 empty
  · rw [if_neg empty]
    cases found : p.openFiles.find name with
    | ok file =>
      have positive := (balanced.found_iff name).mp ⟨file,found⟩
      exact ⟨balanced,iff_of_true rfl ⟨empty,.inl positive⟩,quiet_changes rfl⟩
    | error status =>
      have missing := find_error found
      have zero : ¬ 0 < l.count name := by
        rw [balanced.count_zero missing]
        exact Nat.lt_irrefl 0
      dsimp only
      unfold Process.create
      cases there : p.unix.files name with
      | some content => exact ⟨balanced,iff_of_true rfl ⟨empty,.inr (by rw [there]; rfl)⟩,quiet_changes rfl⟩
      | none =>
        have absent : ¬ (name ≠ [] ∧ (0 < l.count name ∨ (p.unix.files name).isSome)) := by
          rw [there]
          intro both
          rcases both.2 with positive | none
          · exact zero positive
          · cases none
        have failed : Status.unixErr ≠ .fileExists := Status.noConfusion
        have done : Status.ok ≠ .fileExists := Status.noConfusion
        dsimp only
        split
        · exact ⟨balanced,iff_of_false failed absent,quiet_changes rfl⟩
        · split
          · exact ⟨balanced.setFile missing _,iff_of_false failed absent,quiet_changes rfl⟩
          · split
            · exact ⟨balanced.setFile missing _,iff_of_false done absent,quiet_changes rfl⟩
            · exact ⟨balanced.setFile missing _,iff_of_false failed absent,quiet_changes rfl⟩

theorem destroyFile_accounted (balanced : Balanced p l) (k : Kernel) (name : Name) :
    Accounted p l (.destroyFile name) (p.destroyFile k name).1 none (p.destroyFile k name).2 := by
  unfold Process.destroyFile
  by_cases empty : name = []
  · rw [if_pos empty]
    refine ⟨balanced,?_,quiet_changes rfl⟩
    have other : Status.badFile ≠ .fileOpen := Status.noConfusion
    exact iff_of_false other fun positive => balanced.name_inhabited positive empty
  · rw [if_neg empty]
    cases found : p.openFiles.find name with
    | ok file => exact ⟨balanced,iff_of_true rfl ((balanced.found_iff name).mp ⟨file,found⟩),quiet_changes rfl⟩
    | error status =>
      have missing := find_error found
      have zero : ¬ 0 < l.count name := by
        rw [balanced.count_zero missing]
        exact Nat.lt_irrefl 0
      have failed : Status.unixErr ≠ .fileOpen := Status.noConfusion
      have done : Status.ok ≠ .fileOpen := Status.noConfusion
      dsimp only
      unfold Process.destroy
      cases p.unix.files name with
      | none => exact ⟨balanced,iff_of_false failed zero,quiet_changes rfl⟩
      | some content =>
        dsimp only
        split
        · exact ⟨balanced.setFile missing _,iff_of_false done zero,quiet_changes rfl⟩
        · exact ⟨balanced,iff_of_false failed zero,quiet_changes rfl⟩

-- The count of an open file changes together with what the ledger has of it.
theorem Balanced.recount (balanced : Balanced p l) (object : p.objects file = some o) {l' : Ledger} {openCnt : Int}
    (counted : openCnt = l'.count o.fileName) (positive : 0 < l'.count o.fileName)
    (others : ∀ name, name ≠ o.fileName → l'.count name = l.count name) (entries : ∀ e ∈ l', e = (o.fileName,file) ∨
      e ∈ l) :
    Balanced (p.setObject file (some {o with openCnt := openCnt})) l' where
  sound := balanced.sound
  listed := by
    intro name g
    refine (balanced.listed name g).trans ?_
    change _ ↔ ∃ o', Function.update p.objects file (some {o with openCnt := openCnt}) g = some o' ∧ o'.fileName = name
    by_cases here : g = file
    · subst here
      rw [Function.update_self]
      constructor
      · intro found
        obtain ⟨o',object',called⟩ := found
        cases object.symm.trans object'
        exact ⟨_,rfl,called⟩
      · intro found
        obtain ⟨o',object',called⟩ := found
        cases object'
        exact ⟨o,object,called⟩
    · rw [Function.update_of_ne here]
  live := by
    intro g o' object'
    change Function.update p.objects file (some {o with openCnt := openCnt}) g = some o' at object'
    by_cases here : g = file
    · subst here
      rw [Function.update_self] at object'
      cases object'
      obtain ⟨_,_,there,descriptor,named,paired⟩ := balanced.live g o object
      exact ⟨counted,positive,there,descriptor,named,paired⟩
    · rw [Function.update_of_ne here] at object'
      have other : o'.fileName ≠ o.fileName := fun same => here (balanced.one_object object object' same)
      obtain ⟨counted',positive',there,descriptor,named,paired⟩ := balanced.live g o' object'
      rw [← others o'.fileName other] at counted' positive'
      exact ⟨counted',positive',there,descriptor,named,paired⟩
  held := by
    intro e member
    change ∃ o', Function.update p.objects file (some {o with openCnt := openCnt}) e.2 = some o' ∧ o'.fileName = e.1
    rcases entries e member with rfl | before
    · exact ⟨_,Function.update_self ..,rfl⟩
    · obtain ⟨o',object',called⟩ := balanced.held e before
      by_cases here : e.2 = file
      · rw [here] at object' ⊢
        cases object.symm.trans object'
        exact ⟨_,Function.update_self ..,called⟩
      · rw [Function.update_of_ne here]
        exact ⟨o',object',called⟩
  shut := balanced.shut

-- A file that is open already: its count goes up by one.
theorem Balanced.reopen (balanced : Balanced p l) (object : p.objects file = some o) :
    Balanced (p.setObject file (some {o with openCnt := o.openCnt + 1})) ((o.fileName,file)::l) := by
  obtain ⟨counted,_⟩ := balanced.live file o object
  apply balanced.recount object
  · rw [Ledger.count_open_same,counted]
    rfl
  · rw [Ledger.count_open_same]
    exact Nat.succ_pos _
  · exact fun name other => Ledger.count_open_other other
  · exact fun e member => List.mem_cons.mp member

-- A file that nobody has open: it gets a File object and a descriptor.
theorem Balanced.openFirst (balanced : Balanced p l) (works : k.Works p) (empty : name ≠ [])
    (missing : lookup OpenFileHashTbl.hash p.openFiles name = none) (there : (p.unix.files name).isSome)
    {t : OpenFileHashTbl}
    (inserted : BucketTable.insert OpenFileHashTbl.hash p.openFiles name k.address = some t) :
    Balanced {p.setObject k.address (some ⟨name,1,k.fd⟩) with openFiles := t, unix := p.unix.openFd name k.fd}
      ((name,k.address)::l) where
  sound := insert_sound balanced.sound inserted
  listed := by
    intro n g
    rw [lookup_insert inserted]
    change _ ↔ ∃ o', Function.update p.objects k.address (some ⟨name,1,k.fd⟩) g = some o' ∧ o'.fileName = n
    by_cases here : g = k.address
    · subst here
      rw [Function.update_self]
      constructor
      · intro found
        split at found
        · rename_i same
          exact ⟨_,rfl,same.symm⟩
        · obtain ⟨o',object',_⟩ := (balanced.listed n k.address).mp found
          rw [works.address] at object'
          cases object'
      · intro found
        obtain ⟨o',object',called⟩ := found
        cases object'
        rw [if_pos called.symm]
    · rw [Function.update_of_ne here]
      by_cases same : n = name
      · subst same
        rw [if_pos rfl]
        refine iff_of_false (fun address => here (Option.some.inj address).symm) fun found => ?_
        rw [(balanced.listed n g).mpr found] at missing
        cases missing
      · rw [if_neg same]
        exact balanced.listed n g
  live := by
    intro g o' object'
    change Function.update p.objects k.address (some ⟨name,1,k.fd⟩) g = some o' at object'
    by_cases here : g = k.address
    · subst here
      rw [Function.update_self] at object'
      cases object'
      refine ⟨?_,?_,there,Function.update_self ..,empty,?_⟩
      · rw [Ledger.count_open_same,balanced.count_zero missing]
        rfl
      · rw [Ledger.count_open_same]
        exact Nat.succ_pos _
      · change Paired (some k.fd) (Function.update p.unix.calls name (.opened k.fd::p.unix.calls name) name)
        rw [Function.update_self]
        exact ⟨rfl,balanced.shut name missing⟩
    · rw [Function.update_of_ne here] at object'
      obtain ⟨counted,positive,there',descriptor,named,paired⟩ := balanced.live g o' object'
      have other : o'.fileName ≠ name := by
        intro same
        rw [(balanced.listed name g).mpr ⟨o',object',same⟩] at missing
        cases missing
      have apart : o'.unixFile ≠ k.fd := by
        intro same
        rw [same,works.fd] at descriptor
        cases descriptor
      refine ⟨by rw [Ledger.count_open_other other]; exact counted,by rw [Ledger.count_open_other other]; exact positive,there',
        (Function.update_of_ne apart ..).trans descriptor,named,?_⟩
      change Paired (some o'.unixFile) (Function.update p.unix.calls name (.opened k.fd::p.unix.calls name) o'.fileName)
      rw [Function.update_of_ne other]
      exact paired
  held := by
    intro e member
    change ∃ o', Function.update p.objects k.address (some ⟨name,1,k.fd⟩) e.2 = some o' ∧ o'.fileName = e.1
    rcases List.mem_cons.mp member with rfl | member
    · exact ⟨_,Function.update_self ..,rfl⟩
    · obtain ⟨o',object',called⟩ := balanced.held e member
      refine ⟨o',?_,called⟩
      rw [Function.update_of_ne]
      · exact object'
      · intro same
        rw [same,works.address] at object'
        cases object'
  shut := by
    intro n nowhere
    rw [lookup_insert inserted] at nowhere
    split at nowhere
    · cases nowhere
    · rename_i other
      change Paired none (Function.update p.unix.calls name (.opened k.fd::p.unix.calls name) n)
      rw [Function.update_of_ne other]
      exact balanced.shut n nowhere

theorem openFile_accounted (balanced : Balanced p l) (works : k.Works p) (name : Name) :
    ∃ status filePtr p', p.openFile k name = .ok (status,filePtr,p') ∧
      Accounted p l (.openFile name) status filePtr p' := by
  have done : Status.ok ≠ .unixErr := Status.noConfusion
  unfold Process.openFile
  by_cases empty : name = []
  · rw [if_pos empty]
    have refused : Status.badFile ≠ .ok := Status.noConfusion
    exact ⟨_,_,_,rfl,balanced,⟨iff_of_false refused fun both => both.1 empty,fun none => absurd none refused⟩,
      quiet_changes rfl⟩
  · rw [if_neg empty]
    cases found : p.openFiles.find name with
    | ok file =>
      have listed := find_ok found
      obtain ⟨o,object,rfl⟩ := (balanced.listed name file).mp listed
      have live := balanced.live file o object
      have positive : o.openCnt ≠ 0 := by
        rw [live.counted]
        exact Nat.cast_ne_zero.mpr (Nat.ne_of_gt live.positive)
      have opened : o.open' k p.unix = (.ok,{o with openCnt := o.openCnt + 1},p.unix) := if_neg positive
      dsimp only
      rw [object]
      dsimp only
      rw [opened]
      refine ⟨_,_,_,rfl,balanced.reopen object,⟨?_,fun _ => ⟨rfl,fun g member => ?_⟩⟩,fun n => ?_⟩
      · exact iff_of_true rfl ⟨empty,.inl live.positive⟩
      · exact listed.symm.trans (balanced.same_file member)
      · refine .same ?_
        by_cases same : n = o.fileName
        · subst same
          exact iff_of_false (Nat.ne_of_gt live.positive)
            (by change Ledger.count ((_,_)::l) _ ≠ 0; rw [Ledger.count_open_same]; omega)
        · change _ ↔ Ledger.count ((o.fileName,file)::l) n = 0
          rw [Ledger.count_open_other same]
    | error status =>
      have missing := find_error found
      have zero := balanced.count_zero missing
      dsimp only
      by_cases there : (p.unix.files name).isSome
      · have opened : (FileObject.construct name).open' k p.unix = (.ok,⟨name,1,k.fd⟩,p.unix.openFd name k.fd) := by
          refine (if_pos ?_).trans (if_pos ⟨there,works.opens⟩)
          rfl
        obtain ⟨t,inserted⟩ := insert_fresh k.address missing
        have entered : p.openFiles.insert name k.address = (.ok,t) := by rw [OpenFileHashTbl.insert,inserted]
        rw [opened]
        dsimp only
        rw [if_neg (not_not.mpr rfl),entered]
        refine ⟨_,_,_,rfl,balanced.openFirst works empty missing there inserted,⟨?_,fun _ => ⟨rfl,fun g member => ?_⟩⟩,
          fun n => ?_⟩
        · exact iff_of_true rfl ⟨empty,.inr there⟩
        · rw [balanced.same_file member] at missing
          cases missing
        · change Changes _ (Ledger.count ((name,k.address)::l) n) _
            (Function.update p.unix.calls name (.opened k.fd::p.unix.calls name) n)
          by_cases same : n = name
          · subst same
            rw [Function.update_self,zero,Ledger.count_open_same]
            exact .opened k.fd (Nat.succ_pos _)
          · rw [Function.update_of_ne same,Ledger.count_open_other same]
            exact .same Iff.rfl
      · have failed : (FileObject.construct name).open' k p.unix = (.unixErr,⟨name,0,-1⟩,p.unix) := by
          refine (if_pos ?_).trans (if_neg fun both => there both.1)
          rfl
        rw [failed]
        dsimp only
        rw [if_pos done.symm]
        refine ⟨_,_,_,rfl,balanced,⟨iff_of_false done.symm fun both => ?_,fun ok => absurd ok done.symm⟩,
          quiet_changes rfl⟩
        rcases both.2 with positive | present
        · rw [zero] at positive
          exact absurd positive (Nat.lt_irrefl 0)
        · exact there present

theorem Balanced.names (balanced : Balanced p l) (object : p.objects file = some o) : ∀ e ∈ l, e.2 = file →
    e.1 = o.fileName := by
  intro e member here
  obtain ⟨o',object',called⟩ := balanced.held e member
  rw [here] at object'
  cases object.symm.trans object'
  exact called.symm

-- A file that stays open: its count goes down by one.
theorem Balanced.closeOne (balanced : Balanced p l) (object : p.objects file = some o)
    (member : ∃ name, (name,file) ∈ l)
    (several : 1 < l.count o.fileName) :
    Balanced (p.setObject file (some {o with openCnt := o.openCnt - 1})) (l.eraseP fun e => e.2 = file) := by
  have counts := Ledger.count_close member (balanced.names object)
  have less := counts o.fileName
  rw [if_pos rfl] at less
  obtain ⟨counted,_⟩ := balanced.live file o object
  apply balanced.recount object
  · omega
  · omega
  · intro name other
    have same := counts name
    rw [if_neg other,Nat.add_zero] at same
    exact same.symm
  · exact fun e stays => .inr (List.mem_of_mem_eraseP stays)

-- The state behind the last close of a file: Unix has closed the descriptor, and the File is gone.
def Process.shutFile (p : Process) (file : FileId) (o : FileObject) (m : BufMgr) (content : Option UnixFile)
    (t : OpenFileHashTbl) : Process where
  openFiles := t
  objects := Function.update p.objects file none
  mgr := m
  unix := {p.unix.setFile o.fileName content with
    fds := Function.update p.unix.fds o.unixFile none
    calls := Function.update p.unix.calls o.fileName (.closed o.unixFile::p.unix.calls o.fileName)}

theorem Balanced.closeLast (balanced : Balanced p l) (object : p.objects file = some o)
    (member : ∃ name, (name,file) ∈ l)
    (last : l.count o.fileName = 1) (m : BufMgr) (content : Option UnixFile) {t : OpenFileHashTbl}
    (erased : BucketTable.remove OpenFileHashTbl.hash p.openFiles o.fileName = some t) :
    Balanced (p.shutFile file o m content t) (l.eraseP fun e => e.2 = file) := by
  have live := balanced.live file o object
  have counts := Ledger.count_close member (balanced.names object)
  have zero := counts o.fileName
  rw [if_pos rfl,last] at zero
  constructor
  case sound => exact remove_sound balanced.sound erased
  case listed =>
    intro n g
    change lookup OpenFileHashTbl.hash t n = some g ↔ ∃ o', Function.update p.objects file none g = some o' ∧
      o'.fileName = n
    rw [lookup_remove balanced.sound erased]
    by_cases here : g = file
    · subst here
      rw [Function.update_self]
      refine iff_of_false ?_ ?_
      · intro found
        split at found
        · cases found
        · rename_i other
          obtain ⟨o',object',called⟩ := (balanced.listed n g).mp found
          cases object.symm.trans object'
          exact other called.symm
      · intro found
        obtain ⟨_,none,_⟩ := found
        cases none
    · rw [Function.update_of_ne here]
      by_cases same : n = o.fileName
      · subst same
        rw [if_pos rfl]
        refine iff_of_false (fun none => by cases none) fun found => ?_
        obtain ⟨o',object',called⟩ := found
        exact here (balanced.one_object object object' called)
      · rw [if_neg same]
        exact balanced.listed n g
  case live =>
    intro g o' object'
    change Function.update p.objects file none g = some o' at object'
    by_cases here : g = file
    · subst here
      rw [Function.update_self] at object'
      cases object'
    · rw [Function.update_of_ne here] at object'
      have other : o'.fileName ≠ o.fileName := fun same => here (balanced.one_object object object' same)
      obtain ⟨counted,positive,there,descriptor,named,paired⟩ := balanced.live g o' object'
      have apart : o'.unixFile ≠ o.unixFile := by
        intro same
        rw [same,live.descriptor] at descriptor
        exact other (Option.some.inj descriptor).symm
      have same := counts o'.fileName
      rw [if_neg other,Nat.add_zero] at same
      refine ⟨by rw [← same]; exact counted,by rw [← same]; exact positive,?_,(Function.update_of_ne apart
        ..).trans descriptor,named,?_⟩
      · change (Function.update p.unix.files o.fileName content o'.fileName).isSome
        rw [Function.update_of_ne other]
        exact there
      · change Paired (some o'.unixFile) (Function.update p.unix.calls o.fileName
          (.closed o.unixFile::p.unix.calls o.fileName) o'.fileName)
        rw [Function.update_of_ne other]
        exact paired
  case held =>
    intro e stays
    obtain ⟨o',object',called⟩ := balanced.held e (List.mem_of_mem_eraseP stays)
    refine ⟨o',?_,called⟩
    change Function.update p.objects file none e.2 = some o'
    rw [Function.update_of_ne]
    · exact object'
    · intro here
      -- It would be a second entry for the file that is closed for the last time.
      have named : e.1 = o.fileName := balanced.names object e (List.mem_of_mem_eraseP stays) here
      have positive : 0 < Ledger.count (l.eraseP fun e => e.2 = file) o.fileName := by
        rw [Ledger.count_pos]
        exact ⟨e.2,by rw [← named]; exact stays⟩
      omega
  case shut =>
    intro n nowhere
    change lookup OpenFileHashTbl.hash t n = none at nowhere
    rw [lookup_remove balanced.sound erased] at nowhere
    change Paired none (Function.update p.unix.calls o.fileName (.closed o.unixFile::p.unix.calls o.fileName) n)
    by_cases same : n = o.fileName
    · subst same
      rw [Function.update_self]
      exact live.paired
    · rw [if_neg same] at nowhere
      rw [Function.update_of_ne same]
      exact balanced.shut n nowhere

theorem Process.closeFile_one (k : Kernel) (object : p.objects file = some o) (several : 1 < o.openCnt) :
    p.closeFile k (some file) = .ok (.ok,p.setObject file (some {o with openCnt := o.openCnt - 1})) := by
  have open_ : ¬ o.openCnt ≤ 0 := by omega
  have stays : ¬ o.openCnt - 1 = 0 := by omega
  unfold closeFile
  dsimp only
  rw [object]
  dsimp only
  rw [close,if_neg open_]
  dsimp only
  rw [if_neg stays]
  dsimp only
  rw [if_neg stays]
  rfl

theorem Process.closeFile_gone {status : Status} {o' : FileObject} {p₁ : Process} {t : OpenFileHashTbl}
    (object : p.objects file = some o)
    (closed : p.close k file o = (status,o',p₁)) (zero : o'.openCnt = 0) (erased : p₁.openFiles.erase o'.fileName =
      (.ok,t)) :
    p.closeFile k (some file) = .ok (.ok,{p₁.setObject file none with openFiles := t}) := by
  unfold closeFile
  simp only [object,closed,zero,setObject,erased,if_true,ne_eq,not_true_eq_false,if_false,Function.update_idem]
  rfl

theorem Process.closeFile_last (object : p.objects file = some o) (last : o.openCnt = 1) (closes : k.closes = true)
    (descriptor : p.unix.fds o.unixFile = some o.fileName) {t : OpenFileHashTbl}
    (erased : BucketTable.remove OpenFileHashTbl.hash p.openFiles o.fileName = some t) :
    p.closeFile k (some file) = .ok (.ok,p.shutFile file o (p.flush k file o).mgr
      ((p.flush k file o).unix.files o.fileName) t) := by
  have open_ : ¬ o.openCnt ≤ 0 := by omega
  have zero : o.openCnt - 1 = 0 := by omega
  have gone : p.openFiles.erase o.fileName = (.ok,t) := by rw [OpenFileHashTbl.erase,erased]
  have shut : (p.flush k file {o with openCnt := o.openCnt - 1}).unix.closeFd o.unixFile =
      (.ok,{(p.flush k file o).unix with
        fds := Function.update p.unix.fds o.unixFile none
        calls := Function.update p.unix.calls o.fileName (.closed o.unixFile::p.unix.calls o.fileName)}) := by
    have same : (p.flush k file {o with openCnt := o.openCnt - 1}).unix.fds o.unixFile = some o.fileName := descriptor
    rw [Unix.closeFd,same]
    rfl
  have closed : p.close k file o = (.ok,{o with openCnt := o.openCnt - 1},
        {p.flush k file o with unix := {(p.flush k file o).unix with
      fds := Function.update p.unix.fds o.unixFile none
      calls := Function.update p.unix.calls o.fileName (.closed o.unixFile::p.unix.calls o.fileName)}}) := by
    rw [close,if_neg open_]
    dsimp only
    rw [if_pos zero,closes,if_pos rfl,shut]
    rfl
  rw [closeFile_gone object closed zero gone]
  unfold shutFile
  simp only [flush,Unix.setFile,Function.update_self]
  rfl

theorem closeFile_accounted (balanced : Balanced p l) (works : k.Works p) (member : ∃ name, (name,file) ∈ l) :
    ∃ p', p.closeFile k (some file) = .ok (.ok,p') ∧ Accounted p l (.closeFile file) .ok none p' := by
  obtain ⟨name,entry⟩ := member
  obtain ⟨o,object,_⟩ := balanced.held (name,file) entry
  have member : ∃ name, (name,file) ∈ l := ⟨name,entry⟩
  have live := balanced.live file o object
  have counted := live.counted
  have positive := live.positive
  have counts := Ledger.count_close member (balanced.names object)
  by_cases several : 1 < o.openCnt
  · refine ⟨_,Process.closeFile_one k object several,balanced.closeOne object member (by omega),rfl,fun n => .same ?_⟩
    have before := counts n
    change _ ↔ Ledger.count (l.eraseP fun e => e.2 = file) n = 0
    split at before
    · subst n
      omega
    · omega
  · have last : o.openCnt = 1 := by omega
    obtain ⟨t,erased⟩ := remove_present ((balanced.listed o.fileName file).mpr ⟨o,object,rfl⟩)
    refine ⟨_,Process.closeFile_last object last works.closes live.descriptor erased,
      balanced.closeLast object member (by omega) _ _ erased,rfl,fun n => ?_⟩
    have before := counts n
    change Changes (l.count n) (Ledger.count (l.eraseP fun e => e.2 = file) n) _
      (Function.update p.unix.calls o.fileName (.closed o.unixFile::p.unix.calls o.fileName) n)
    by_cases same : n = o.fileName
    · subst same
      rw [if_pos rfl] at before
      have zero : Ledger.count (l.eraseP fun e => e.2 = file) o.fileName = 0 := by omega
      rw [Function.update_self,zero]
      exact .closed o.unixFile positive
    · rw [if_neg same] at before
      rw [Function.update_of_ne same]
      exact .same (by rw [before,Nat.add_zero])

theorem call_accounted (balanced : Balanced p l) (works : k.Works p) (c : DbCall) (allowed : l.Allows c) :
    ∃ status filePtr p', p.call k c = .ok (status,filePtr,p') ∧ Accounted p l c status filePtr p' := by
  cases c with
  | createFile name => exact ⟨_,_,_,rfl,createFile_accounted balanced k name⟩
  | destroyFile name => exact ⟨_,_,_,rfl,destroyFile_accounted balanced k name⟩
  | openFile name => exact openFile_accounted balanced works name
  | closeFile file =>
    obtain ⟨p',closed,accounted⟩ := closeFile_accounted balanced works allowed
    refine ⟨_,_,p',?_,accounted⟩
    rw [Process.call,closed]
    rfl

theorem Run.balanced {p₀ : Process} (start : Balanced p₀ []) (run : Run p₀ p l) : Balanced p l := by
  induction run with
  | start => exact start
  | call _ works allowed called ih =>
    obtain ⟨_,_,_,called',accounted⟩ := call_accounted ih works _ allowed
    cases called.symm.trans called'
    exact accounted.balanced

-- After any calls, openFiles, the File objects and Unix are in step with the callers' count of
-- each name, and so is what the next call answers.
theorem open_files_accounted (p₀ p : Process) (l : Ledger) (nothing : p₀.openFiles = fun _ => [])
    (none_live : ∀ file, p₀.objects file = none)
    (quiet : ∀ name, p₀.unix.calls name = []) (run : Run p₀ p l) :
    (∀ name, (∃ file, p.openFiles.find name = .ok file) ↔ 0 < l.count name) ∧
    (∀ name file, p.openFiles.find name = .ok file → ∃ o, p.objects file = some o ∧ o.fileName = name ∧
      o.openCnt = l.count name ∧
      Paired (some o.unixFile) (p.unix.calls name) ∧ ∀ other o', p.objects other = some o' → o'.fileName = name →
        other = file) ∧
    (∀ name file other, (name,file) ∈ l → (name,other) ∈ l → other = file) ∧
    (∀ name, l.count name = 0 → Paired none (p.unix.calls name)) ∧
    ∀ (k : Kernel) (c : DbCall), k.Works p → l.Allows c → ∃ status filePtr p', p.call k c = .ok (status,filePtr,p') ∧
      MayAnswer p l c status filePtr ∧
      ∀ name, Changes (l.count name) ((l.after c status filePtr).count name) (p.unix.calls name)
        (p'.unix.calls name) := by
  have balanced := run.balanced (.start p₀ nothing none_live quiet)
  refine ⟨balanced.found_iff,fun name file found => ?_,fun name file other one two => ?_,fun name zero =>
    ?_,fun k c works allowed => ?_⟩
  · obtain ⟨o,object,rfl⟩ := (balanced.listed name file).mp (find_ok found)
    have live := balanced.live file o object
    exact ⟨o,object,rfl,live.counted,live.paired,fun other o' object' same => balanced.one_object object object' same⟩
  · exact Option.some.inj ((balanced.same_file two).symm.trans (balanced.same_file one))
  · refine balanced.shut name ?_
    cases found : lookup OpenFileHashTbl.hash p.openFiles name with
    | none => rfl
    | some file =>
      have positive := balanced.count_pos.mpr ⟨file,found⟩
      omega
  · obtain ⟨status,filePtr,p',called,accounted⟩ := call_accounted balanced works c allowed
    exact ⟨status,filePtr,p',called,accounted.answer,accounted.changes⟩

-- One file, which is opened twice.
def sampleProcess : Process where
  openFiles := fun _ => []
  objects := fun _ => none
  mgr := .init 1
  unix := ⟨fun name => if name = [97] then some File.create else none,fun _ => none,fun _ => []⟩

def sampleKernel : Kernel := ⟨true,true,true,true,true,.working,7,3⟩

theorem open_files_accounted_twice : ∃ p, Run sampleProcess p [([97],7),([97],7)] ∧
    ∀ name, (∃ file, p.openFiles.find name = .ok file) ↔ 0 < Ledger.count [([97],7),([97],7)] name := by
  have first : sampleKernel.Works sampleProcess := ⟨rfl,rfl,rfl,rfl⟩
  have run₁ := Run.call (c:=.openFile [97]) Run.start first trivial rfl
  have second : {sampleKernel with address := 8, fd := 4}.Works
      {sampleProcess.setObject 7 (some ⟨[97],1,3⟩) with
        openFiles := (sampleProcess.openFiles.insert [97] 7).2, unix := sampleProcess.unix.openFd [97] 3} := ⟨rfl,rfl,rfl,rfl⟩
  have run₂ := Run.call (c:=.openFile [97]) run₁ second trivial rfl
  exact ⟨_,run₂,(open_files_accounted sampleProcess _ _ rfl (fun _ => rfl) (fun _ => rfl) run₂).1⟩

end calls
end Minirel.Stage6
