import Minirel.File

namespace Minirel
open ByteMemory

-- How a call can end without returning: by using a pointer to no pinned frame, by looping for
-- ever, or by leaving the process.
inductive Abort where
  | undefined | diverges | exit
  deriving DecidableEq,Repr

theorem ok_bind {α β : Type} (a : α) (f : α → Except Abort β) : (Except.ok a >>= f) = f a := rfl
theorem pure_ok {α : Type} (a : α) : (pure a : Except Abort α) = .ok a := rfl

theorem of_bind_ok {α β : Type} {x : Except Abort α} {f : α → Except Abort β} {b : β} (ran : x >>= f = .ok b) :
    ∃ a, x = .ok a ∧ f a = .ok b := by
  cases x with
  | error a => cases ran
  | ok a => exact ⟨a,rfl,ran⟩

-- A page pointer is the page whose frame it points at; NULL is none.
abbrev Ptr := Option Int

structure Frame where
  page : Page
  pins : Nat

-- What the clients of one open file may rely on, whatever the replacement policy does: `file`
-- has for every page the bytes last left there by an unpin with dirty = true, and only pinned
-- pages have a frame. `faults` says which of the calls to come fail and how, `stale` what the
-- frame given to a new page still holds.
structure Pool where
  file : UnixFile
  frames : Int → Option Frame
  openCnt : Nat
  stale : Int → Page
  faults : List (Option Status)

namespace Pool

def setFrame (b : Pool) (pageNo : Int) (frame : Option Frame) : Pool :=
  {b with frames := Function.update b.frames pageNo frame}

def nextCall (b : Pool) : Pool := {b with faults := b.faults.tail}

def getFirstPage (b : Pool) : Except Status Int × Pool :=
  match b.faults.head?.join with
  | some status => (.error status,b.nextCall)
  | none => (File.getFirstPage .working b.file,b.nextCall)

-- A page that is pinned already needs neither a frame nor the disk. Where the disk fails a read that has its
-- frame, BufMgr has dropped the page of that frame from its table, and later calls may go another way.
def readPage (b : Pool) (pageNo : Int) : Status × Pool :=
  match b.frames pageNo with
  | some frame => (.ok,b.setFrame pageNo (some {frame with pins := frame.pins + 1}))
  | none =>
    match b.faults.head?.join with
    | some status => (status,b.nextCall)
    | none =>
      match File.readPage .working b.file pageNo with
      | .error status => (status,b.nextCall)
      | .ok page => (.ok,b.nextCall.setFrame pageNo (some ⟨page,1⟩))

-- The file is extended first; a missing frame is noticed after that.
def allocPage (b : Pool) : Except Status Int × Pool :=
  let (allocated,file) := File.allocatePage .working b.file
  let b := {b with file := file}
  match allocated with
  | .error status => (.error status,b)
  | .ok pageNo =>
    match b.faults.head?.join with
    | some status => (.error status,b.nextCall)
    | none => (.ok pageNo,b.nextCall.setFrame pageNo (some ⟨b.stale pageNo,1⟩))

def unPinPage (b : Pool) (pageNo : Int) (dirty : Bool) : Status × Pool :=
  match b.frames pageNo with
  | none => (.hashNotFound,b)
  | some frame =>
    let b := if dirty then {b with file := (File.writePage .working b.file pageNo frame.page).2} else b
    (.ok,b.setFrame pageNo (if frame.pins ≤ 1 then none else some {frame with pins := frame.pins - 1}))

def openFile (b : Pool) : Status × Pool := (.ok,{b with openCnt := b.openCnt + 1})

-- Whatever was unpinned is in the file already, so the flush of the last close changes nothing.
def closeFile (b : Pool) : Status × Pool := (.ok,{b with openCnt := b.openCnt - 1})

def deref (b : Pool) : Ptr → Except Abort Page
  | none => .error .undefined
  | some pageNo =>
    match b.frames pageNo with
    | some frame => .ok frame.page
    | none => .error .undefined

def assign (b : Pool) (ptr : Ptr) (page : Page) : Pool :=
  match ptr with
  | none => b
  | some pageNo =>
    match b.frames pageNo with
    | some frame => b.setFrame pageNo (some {frame with page := page})
    | none => b

end Pool
end Minirel
