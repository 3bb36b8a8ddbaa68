import Minirel.BufFlush

namespace Minirel
open BucketTable Consistent

variable {hash : Hash} {last : Contents} {pins : List Pin}

-- What both releases' allocBuf leave when they hand out frame i.
structure Freed (hash : Hash) (s s' : Storage) (last : Contents) (pins : List Pin) (i : Nat) : Prop where
  vacant : Vacant hash s'.mgr s'.disk last pins i
  missing : ∀ file pageNo, s.mgr.hashTable.find hash file pageNo = none → s'.mgr.hashTable.find hash file pageNo = none
  stored : ∀ file pageNo, (File.at? (s.disk file) pageNo).isSome → (File.at? (s'.disk file) pageNo).isSome

def AllocBuf (hash : Hash) (last : Contents) (pins : List Pin) (s : Storage) : Except Status Nat × Storage → Prop
  | (.ok i,s') => Freed hash s s' last pins i
  | (.error _,s') => Consistent hash s'.mgr s'.disk last pins

-- What readPage and allocPage leave, with the pin the caller now holds.
def ReadPage (hash : Hash) (last : Contents) (pins : List Pin) (file : FileId) (pageNo : Int) :
    Except Status Nat × Storage → Prop
  | (.ok frame,s') => Consistent hash s'.mgr s'.disk last (⟨file,pageNo,frame,false⟩::pins) ∧
      last file pageNo = some (s'.mgr.bufPool frame)
  | (.error _,s') => Consistent hash s'.mgr s'.disk last pins

def AllocPage (hash : Hash) (last : Contents) (pins : List Pin) (file : FileId) :
    Except Status (Int × Nat) × Storage → Prop
  | (.ok (pageNo,frame),s') => Consistent hash s'.mgr s'.disk (System.update last file pageNo (s'.mgr.bufPool frame))
      (⟨file,pageNo,frame,true⟩::pins)
  | (.error _,s') => Consistent hash s'.mgr s'.disk last pins

theorem AllocBuf.earlier {s t : Storage} {result : Except Status Nat × Storage}
    (after : AllocBuf hash last pins t result)
    (table : t.mgr.hashTable = s.mgr.hashTable) (disk : t.disk = s.disk) : AllocBuf hash last pins s result := by
  obtain ⟨outcome,s'⟩ := result
  cases outcome with
  | error status => exact after
  | ok i =>
    obtain ⟨vacant,missing,stored⟩ := after
    rw [table] at missing
    rw [disk] at stored
    exact ⟨vacant,missing,stored⟩

theorem Consistent.countRead {m : BufMgr} {disk : Disk} (inv : Consistent hash m disk last pins) :
    Consistent hash m.countRead disk last pins :=
  inv.tick ⟨rfl,rfl,rfl,inv.hand,fun i => ⟨(m.bufTable i).refbit,rfl⟩⟩

theorem Consistent.countWrite {m : BufMgr} {disk : Disk} (inv : Consistent hash m disk last pins) :
    Consistent hash m.countWrite disk last pins :=
  inv.tick ⟨rfl,rfl,rfl,inv.hand,fun i => ⟨(m.bufTable i).refbit,rfl⟩⟩

theorem Freed.countWrite {s : Storage} {m : BufMgr} {disk : Disk} {i : Nat}
    (freed : Freed hash s ⟨m,disk⟩ last pins i) :
    Freed hash s ⟨m.countWrite,disk⟩ last pins i :=
  ⟨⟨freed.vacant.inside,freed.vacant.cleared.countWrite⟩,freed.missing,freed.stored⟩

theorem update_known {file : FileId} {pageNo : Int} {page : Page} (known : last file pageNo = some page) :
    System.update last file pageNo page = last := by
  funext g q
  unfold System.update
  split
  · rename_i same; rw [same.1,same.2,known]
  · rfl

-- A page read into a free frame: what the disk has is what the clients last left.
theorem Freed.fetch {s s' : Storage} {i : Nat} {file : FileId} {pageNo : Int} {io : Io} {page : Page}
    (freed : Freed hash s s' last pins i) (missing : s.mgr.hashTable.find hash file pageNo = none)
    (read : File.readPage io (s'.disk file) pageNo = .ok page) :
    ∃ table, ((s'.mgr.countRead.setPage i page).setDesc i ((s'.mgr.bufTable i).set file pageNo)).hashTable.insert hash
        file pageNo i = (.ok,table) ∧
      Consistent hash (((s'.mgr.countRead.setPage i page).setDesc i ((s'.mgr.bufTable i).set file pageNo)).setTable
        table)
        s'.disk last (⟨file,pageNo,i,false⟩::pins) ∧ last file pageNo = some page := by
  obtain ⟨⟨inside,cleared⟩,gone,_⟩ := freed
  have there : 1 ≤ pageNo ∧ File.at? (s'.disk file) pageNo = some page := by
    unfold File.readPage File.intread at read
    split at read
    · cases read
    · split at read
      · cases read
      · split at read
        · rename_i low _ _ found
          cases read
          exact ⟨by omega,found⟩
        · cases read
  have known : last file pageNo = some page := by
    rw [← cleared.away file pageNo there.1 (gone _ _ missing)]
    exact there.2
  have vacant : Vacant hash s'.mgr.countRead s'.disk last pins i := ⟨inside,cleared.countRead⟩
  obtain ⟨table,inserted,inv⟩ := install vacant (gone _ _ missing) (by rw [there.2]; rfl) page false fun _ => there
  rw [update_known known] at inv
  exact ⟨table,inserted,inv,known⟩

-- A page from the File layer put into a free frame, whatever that frame held before.
theorem Freed.hand_out {s s' : Storage} {i : Nat} {file : FileId} {pageNo : Int} (freed : Freed hash s s' last pins i)
    (missing : s.mgr.hashTable.find hash file pageNo = none) (made : (File.at? (s.disk file) pageNo).isSome) :
    ∃ table, (s'.mgr.setDesc i ((s'.mgr.bufTable i).set file pageNo)).hashTable.insert hash file pageNo i =
      (.ok,table) ∧
      Consistent hash ((s'.mgr.setDesc i ((s'.mgr.bufTable i).set file pageNo)).setTable table) s'.disk
        (System.update last file pageNo (s'.mgr.bufPool i)) (⟨file,pageNo,i,true⟩::pins) := by
  have same : s'.mgr.setPage i (s'.mgr.bufPool i) = s'.mgr := by
    rw [BufMgr.setPage,Function.update_eq_self]
  have installed := install freed.vacant (freed.missing _ _ missing) (freed.stored _ _ made) (s'.mgr.bufPool i) true
    fun none => by cases none
  rw [same] at installed
  exact installed

-- The frames of an eviction: write back if dirty, then forget the page.
theorem written_stored {s s' : Storage} {io : Faults} {i : Nat} {file : FileId} {pageNo : Int}
    (inv : Consistent hash s.mgr s.disk last pins) (inside : i < s.mgr.numBufs)
    (holds : (s.mgr.bufTable i).Holds file pageNo)
    (written : s.writeFrame io i = (.ok,s')) (g : FileId) (q : Int) (present : (File.at? (s.disk g) q).isSome) :
    (File.at? (s'.disk g) q).isSome := by
  obtain ⟨_,_,there,elsewhere⟩ := Storage.writeFrame_ok inv inside holds written
  have contents := (inv.used inside holds).contents
  by_cases same : g = file ∧ q = pageNo
  · obtain ⟨rfl,rfl⟩ := same
    rw [holds.2.2] at contents
    rw [there,contents]
    rfl
  · rw [elsewhere g q same]
    exact present

end Minirel
