import Minirel.BufStage6
import Minirel.HeapFile

namespace Minirel.Stage6

-- HTSIZE is 113; the chars of a name are signed and an int wraps around.
abbrev OpenFileHashTbl := BucketTable.Table Name FileId

namespace OpenFileHashTbl

def hash (fileName : Name) : Nat :=
  let value := fileName.foldl (fun value c => Int.bmod (31 * value + c.toInt8.toInt) (2 ^ 32)) 0
  (value.tmod 113).natAbs

def insert (t : OpenFileHashTbl) (fileName : Name) (file : FileId) : Status × OpenFileHashTbl :=
  match BucketTable.insert hash t fileName file with
  | some t => (.ok,t)
  | none => (.hashTblError,t)

def find (t : OpenFileHashTbl) (fileName : Name) : Except Status FileId :=
  match BucketTable.lookup hash t fileName with
  | some file => .ok file
  | none => .error .hashNotFound

def erase (t : OpenFileHashTbl) (fileName : Name) : Status × OpenFileHashTbl :=
  match BucketTable.remove hash t fileName with
  | some t => (.ok,t)
  | none => (.hashTblError,t)

end OpenFileHashTbl

-- The members of class File.
structure FileObject where
  fileName : Name
  openCnt : Int
  unixFile : Int
  deriving DecidableEq,Repr

inductive UnixCall where
  | opened (fd : Int)
  | closed (fd : Int)
  deriving DecidableEq,Repr

-- The files by name, what each descriptor stands for, and the calls of File::open and File::close
-- that worked on a file, the last one first.
structure Unix where
  files : Name → Option UnixFile
  fds : Int → Option Name
  calls : Name → List UnixCall

-- Which system calls work during a call, and the address and the descriptor that new and ::open
-- would give.
structure Kernel where
  creates : Bool
  writes : Bool
  opens : Bool
  closes : Bool
  removes : Bool
  io : Io
  address : FileId
  fd : Int

structure Process where
  openFiles : OpenFileHashTbl
  objects : FileId → Option FileObject
  mgr : BufMgr
  unix : Unix

namespace Unix

def setFile (u : Unix) (fileName : Name) (file : Option UnixFile) : Unix :=
  {u with files := Function.update u.files fileName file}

def openFd (u : Unix) (fileName : Name) (fd : Int) : Unix :=
  {u with fds := Function.update u.fds fd (some fileName), calls := Function.update u.calls fileName (.opened fd::u.calls fileName)}

def closeFd (u : Unix) (fd : Int) : Status × Unix :=
  match u.fds fd with
  | some fileName =>
    (.ok,{u with fds := Function.update u.fds fd none, calls := Function.update u.calls fileName (.closed fd::u.calls fileName)})
  | none => (.unixErr,u)

end Unix

namespace FileObject

def construct (fileName : Name) : FileObject := ⟨fileName,0,-1⟩

def open' (k : Kernel) (u : Unix) (o : FileObject) : Status × FileObject × Unix :=
  if o.openCnt = 0 then
    if (u.files o.fileName).isSome ∧ k.opens then (.ok,{o with openCnt := 1, unixFile := k.fd},u.openFd o.fileName k.fd)
    else (.unixErr,{o with unixFile := -1},u)
  else (.ok,{o with openCnt := o.openCnt + 1},u)

end FileObject

namespace Process

def setObject (p : Process) (file : FileId) (o : Option FileObject) : Process :=
  {p with objects := Function.update p.objects file o}

-- The files as the File objects see them.
def disk (p : Process) : Disk := fun file => (p.objects file).elim [] fun o => (p.unix.files o.fileName).getD []

-- bufMgr->flushFile(this)
def flush (k : Kernel) (p : Process) (file : FileId) (o : FileObject) : Process :=
  let s := (flushFile (fun _ => k.io) ⟨p.mgr,p.disk⟩ file).2
  {p with mgr := s.mgr, unix := p.unix.setFile o.fileName ((p.unix.files o.fileName).map fun _ => s.disk file)}

-- What flushFile returns is not looked at.
def close (k : Kernel) (p : Process) (file : FileId) (o : FileObject) : Status × FileObject × Process :=
  if o.openCnt ≤ 0 then (.fileNotOpen,o,p)
  else
    let o := {o with openCnt := o.openCnt - 1}
    if o.openCnt = 0 then
      let p := p.flush k file o
      if k.closes then
        let (status,unix) := p.unix.closeFd o.unixFile
        (status,o,{p with unix := unix})
      else (.unixErr,o,p)
    else (.ok,o,p)

-- The descriptor that File::create uses is its own.
def create (k : Kernel) (p : Process) (fileName : Name) : Status × Process :=
  match p.unix.files fileName with
  | some _ => (.fileExists,p)
  | none =>
    if k.creates = false then (.unixErr,p)
    else if k.writes = false then (.unixErr,{p with unix := p.unix.setFile fileName (some [])})
    else
      let p := {p with unix := p.unix.setFile fileName (some File.create)}
      if k.closes then (.ok,p) else (.unixErr,p)

def destroy (k : Kernel) (p : Process) (fileName : Name) : Status × Process :=
  match p.unix.files fileName with
  | some _ => if k.removes then (.ok,{p with unix := p.unix.setFile fileName none}) else (.unixErr,p)
  | none => (.unixErr,p)

def createFile (k : Kernel) (p : Process) (fileName : Name) : Status × Process :=
  if fileName = [] then (.badFile,p)
  else match p.openFiles.find fileName with
    | .ok _ => (.fileExists,p)
    | .error _ => p.create k fileName

def destroyFile (k : Kernel) (p : Process) (fileName : Name) : Status × Process :=
  if fileName = [] then (.badFile,p)
  else match p.openFiles.find fileName with
    | .ok _ => (.fileOpen,p)
    | .error _ => p.destroy k fileName

-- filePtr is none where the caller's pointer is left as it was. After a failure it is the address
-- of a File that is gone.
def openFile (k : Kernel) (p : Process) (fileName : Name) : Except Abort (Status × Option FileId × Process) :=
  if fileName = [] then return (.badFile,none,p)
  else match p.openFiles.find fileName with
    | .ok file =>
      match p.objects file with
      | some o =>
        let (status,o,unix) := o.open' k p.unix
        return (status,some file,{p.setObject file (some o) with unix := unix})
      | none => throw .undefined
    | .error _ =>
      let (status,o,unix) := (FileObject.construct fileName).open' k p.unix
      if status ≠ .ok then return (status,some k.address,{p with unix := unix})
      else
        let (status,openFiles) := p.openFiles.insert fileName k.address
        return (status,some k.address,{p.setObject k.address (some o) with openFiles := openFiles, unix := unix})

-- What File::close returns is not looked at.
def closeFile (k : Kernel) (p : Process) (file : Option FileId) : Except Abort (Status × Process) :=
  match file with
  | none => return (.badFilePtr,p)
  | some file =>
    match p.objects file with
    | none => throw .undefined
    | some o =>
      let (_,o,p) := p.close k file o
      let p := p.setObject file (some o)
      if o.openCnt = 0 then
        let (status,openFiles) := p.openFiles.erase o.fileName
        if status ≠ .ok then return (.badFilePtr,p)
        else return (.ok,{p.setObject file none with openFiles := openFiles})
      else return (.ok,p)

end Process
end Minirel.Stage6
