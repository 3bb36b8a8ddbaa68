import Minirel.Buf

namespace Minirel

-- What the clients of the buffer manager have done: the contents they last left in
-- every page, and the pins they hold with the frame each was handed.
structure Pin where
  file : FileId
  pageNo : Int
  frame : Nat
  modified : Bool
  deriving DecidableEq,Repr

abbrev Contents := FileId → Int → Option Page

structure System where
  storage : Storage
  last : Contents
  pins : List Pin

structure Release where
  hash : Hash
  readPage : Faults → Storage → FileId → Int → Except Status Nat × Storage
  allocPage : Faults → Storage → FileId → Except Status (Int × Nat) × Storage
  unPinPage : Storage → FileId → Int → Bool → Status × Storage

def Pin.on (pin : Pin) (file : FileId) (pageNo : Int) : Bool := pin.file = file ∧ pin.pageNo = pageNo

inductive Act where
  | readPage (file : FileId) (pageNo : Int)
  | allocPage (file : FileId)
  | modify (pin : Nat) (page : Page)
  | unPinPage (pin : Nat) (dirty : Bool)
  | unPinOther (file : FileId) (pageNo : Int) (dirty : Bool)
  | flushFile (file : FileId)

namespace System

def mgr (s : System) : BufMgr := s.storage.mgr
def disk (s : System) : Disk := s.storage.disk

def start (bufs : Nat) (disk : Disk) : System := ⟨⟨.init bufs,disk⟩,fun file => File.at? (disk file),[]⟩

def update (last : Contents) (file : FileId) (pageNo : Int) (page : Page) : Contents :=
  fun g q => if g = file ∧ q = pageNo then some page else last g q

-- A page the File layer has just made holds what the File layer put there.
def appear (last : Contents) (file : FileId) (unixFile : UnixFile) : Contents :=
  fun g q => if g = file ∧ last g q = none then File.at? unixFile q else last g q

def afterRead (s : System) (file : FileId) (pageNo : Int) : Except Status Nat × Storage → System
  | (.ok frame,storage) => ⟨storage,s.last,⟨file,pageNo,frame,false⟩::s.pins⟩
  | (.error _,storage) => {s with storage := storage}

-- A page from allocPage is to be initialised, so its pin counts as modifying from the start.
def afterAlloc (s : System) (file : FileId) (made : UnixFile) : Except Status (Int × Nat) × Storage → System
  | (.ok (pageNo,frame),storage) =>
    ⟨storage,update (appear s.last file made) file pageNo (storage.mgr.bufPool frame),⟨file,pageNo,frame,true⟩::s.pins⟩
  | (.error _,storage) => {s with storage := storage, last := appear s.last file made}

def afterModify (s : System) (n : Nat) (pin : Pin) (page : Page) : System where
  storage := {s.storage with mgr := s.mgr.setPage pin.frame page}
  last := update s.last pin.file pin.pageNo page
  pins := s.pins.set n {pin with modified := true}

def afterUnPin (s : System) (n : Nat) : Status × Storage → System
  | (.ok,storage) => {s with storage := storage, pins := s.pins.eraseIdx n}
  | (_,storage) => {s with storage := storage}

-- A client acts on the pins it holds: it names one by its position. It unpins a page it
-- has modified with dirty = true, and no client unpins a page that only others have pinned.
def step (release : Release) (s : System) (io : Faults) : Act → System
  | .readPage file pageNo => s.afterRead file pageNo (release.readPage io s.storage file pageNo)
  | .allocPage file =>
    s.afterAlloc file (File.allocatePage (io file) (s.disk file)).2 (release.allocPage io s.storage file)
  | .modify n page =>
    match s.pins[n]? with
    | some pin => s.afterModify n pin page
    | none => s
  | .unPinPage n dirty =>
    match s.pins[n]? with
    | some pin => s.afterUnPin n (release.unPinPage s.storage pin.file pin.pageNo (dirty || pin.modified))
    | none => s
  | .unPinOther file pageNo dirty =>
    if s.pins.any (·.on file pageNo) then s
    else {s with storage := (release.unPinPage s.storage file pageNo dirty).2}
  | .flushFile file => {s with storage := (s.storage.flushFile release.hash io file).2}

theorem step_modify {s : System} {n : Nat} {pin : Pin} (release : Release) (io : Faults) (page : Page)
    (chosen : s.pins[n]? = some pin) : s.step release io (.modify n page) = s.afterModify n pin page := by
  rw [step,chosen]

theorem step_unPinPage {s : System} {n : Nat} {pin : Pin} (release : Release) (io : Faults) (dirty : Bool)
    (chosen : s.pins[n]? = some pin) : s.step release io (.unPinPage n dirty) =
      s.afterUnPin n (release.unPinPage s.storage pin.file pin.pageNo (dirty || pin.modified)) := by
  rw [step,chosen]

theorem step_no_pin {s : System} {n : Nat} (release : Release) (io : Faults) (page : Page) (dirty : Bool)
    (none : s.pins[n]? = none) :
    s.step release io (.modify n page) = s ∧ s.step release io (.unPinPage n dirty) = s := by
  rw [step,step,none]
  exact ⟨rfl,rfl⟩

def run (release : Release) (s : System) (acts : List (Faults × Act)) : System :=
  acts.foldl (fun s call => step release s call.1 call.2) s

-- What the clients rely on, whatever the next call is and whichever system calls fail in it.
structure Coherent (release : Release) (s : System) : Prop where
  reads : ∀ io file pageNo frame storage, release.readPage io s.storage file pageNo = (.ok frame,storage) →
    s.last file pageNo = some (storage.mgr.bufPool frame)
  held : ∀ pin ∈ s.pins, s.last pin.file pin.pageNo = some (s.mgr.bufPool pin.frame)
  unpins : ∀ pin ∈ s.pins, ∀ dirty, (release.unPinPage s.storage pin.file pin.pageNo dirty).1 = .ok
  flushes : ∀ io file storage, s.storage.flushFile release.hash io file = (.ok,storage) →
    ∀ pageNo, 1 ≤ pageNo → File.at? (storage.disk file) pageNo = s.last file pageNo
  closes : (∀ pin ∈ s.pins, pin.modified = false) → ∀ io, (∀ file pageNo, (io file).write pageNo = false) →
    ∀ file pageNo, 1 ≤ pageNo → File.at? ((s.storage.close io).disk file) pageNo = s.last file pageNo

end System
end Minirel
