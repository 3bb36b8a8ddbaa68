import Minirel.File
import Minirel.ThreadedList

namespace Minirel.File
open ByteMemory ThreadedList

-- The owners of the pages of one file: what allocatePage has handed out and nobody has disposed
-- of since, and what has been disposed of and not handed out again.
structure Space where
  file : UnixFile
  handed : List Int
  disposed : List Int

inductive SpaceCall where
  | allocatePage | disposePage (pageNo : Int)
  deriving DecidableEq,Repr

namespace Space

def created : Space := ⟨create,[],[]⟩

def step (s : Space) : SpaceCall → Space
  | .allocatePage =>
    match File.allocatePage .working s.file with
    | (.ok pageNo,file) => ⟨file,pageNo::s.handed,s.disposed.filter (· ≠ pageNo)⟩
    | (.error _,file) => {s with file := file}
  | .disposePage pageNo =>
    match File.disposePage .working s.file pageNo with
    | (.ok,file) => ⟨file,s.handed.filter (· ≠ pageNo),pageNo::s.disposed⟩
    | (_,file) => {s with file := file}

def run (s : Space) (calls : List SpaceCall) : Space := calls.foldl step s

-- Nobody disposes of a page that is on the free list already.
def Safe (s : Space) : SpaceCall → Prop
  | .allocatePage => True
  | .disposePage pageNo => pageNo ∉ s.disposed

instance (s : Space) : DecidablePred s.Safe
  | .allocatePage => isTrue trivial
  | .disposePage pageNo => inferInstanceAs (Decidable (pageNo ∉ s.disposed))

def Safely : Space → List SpaceCall → Prop
  | _,[] => True
  | s,call::rest => s.Safe call ∧ Safely (s.step call) rest

end Space

-- The link in a page of the free list.
def link (file : UnixFile) (pageNo : Int) : Option Int := (at? file pageNo).map DBPage.nextFree

-- The free list is finite and has exactly the pages disposed of; what allocatePage would hand out
-- next has no owner; every page has an owner or is on the list.
structure SoundSpace (s : Space) : Prop where
  freeList : ∃ l, Threaded (link s.file) (-1) (DBPage.nextFree (header s.file)) l ∧ l.Nodup ∧
    (∀ p, p ∈ l ↔ p ∈ s.disposed) ∧
    ∀ p, 1 ≤ p → p < DBPage.numPages (header s.file) → (p ∈ s.handed ∧ p ∉ l ∨ p ∉ s.handed ∧ p ∈ l)
  unowned : ∀ p file, allocatePage .working s.file = (.ok p,file) → p ≠ 0 ∧ p ∉ s.handed ∧
    (DBPage.firstPage (header s.file) ≠ -1 → p ≠ DBPage.firstPage (header s.file))

structure Spaced (s : Space) (l : List Int) : Prop where
  counted : Counted s.file
  threaded : Threaded (link s.file) (-1) (DBPage.nextFree (header s.file)) l
  inside : ∀ p ∈ l, 1 ≤ p ∧ p < s.file.length
  disposed : ∀ p, p ∈ s.disposed ↔ p ∈ l
  handed : ∀ p, p ∈ s.handed ↔ (1 ≤ p ∧ p < s.file.length) ∧ p ∉ l
  first : (DBPage.firstPage (header s.file) = -1 ∧ s.file.length = 1) ∨ DBPage.firstPage (header s.file) ∈ s.handed

variable {s : Space} {l : List Int} {file : UnixFile} {p : Int}

theorem created_spaced : Spaced .created [] :=
  ⟨create_counted.1,create_counted.2,by simp,by simp [Space.created],
    fun p => ⟨fun none => absurd none List.not_mem_nil,fun range => by have := range.1; simp [Space.created,create] at this; omega⟩,
    .inl ⟨create_firstPage,rfl⟩⟩

theorem numPages_le (counted : Counted file) : DBPage.numPages (header file) ≤ file.length := by
  rw [counted.counted,Int.bmod_def]
  split <;> omega

theorem takeFree_working {page : Page} (counted : Counted file) (free : DBPage.nextFree (header file) ≠ -1)
    (stored : at? file (DBPage.nextFree (header file)) = some page) :
    ∃ file', allocatePage .working file = (.ok (DBPage.nextFree (header file)),file') ∧ file'.length = file.length ∧
      DBPage.nextFree (header file') = DBPage.nextFree page ∧
        DBPage.firstPage (header file') = DBPage.firstPage (header file) ∧
      ∀ q, q ≠ 0 → at? file' q = at? file q := by
  have read : intread .working file (DBPage.nextFree (header file)) = .ok page := by
    simp only [intread,Io.working,Bool.false_eq_true,if_false,stored]
  refine ⟨overwrite file 0 (DBPage.setNextFree (header file) (DBPage.nextFree page)),?_,?_,?_,?_,?_⟩
  · rw [allocatePage,intread_header counted.present]
    simp only [show Io.working.read 0 = false from rfl,Bool.false_eq_true,if_false,if_pos free,takeFree,read,
      intwrite_header _ (show Io.working.write 0 = false from rfl)]
  · have present := counted.present
    rw [length_overwrite _ _ (Nat.zero_le _)]
    omega
  · rw [header_overwrite]
    exact (word_setWord (by omega) (by omega)).trans (word_bmod page 4 0)
  · rw [header_overwrite]
    exact word_setWord_apart (by omega)
  · intro q other
    rw [at_overwrite _ (Nat.zero_le _),Nat.cast_zero,if_neg other]

theorem disposePage_refused (counted : Counted file)
    (bad : p < 1 ∨ DBPage.firstPage (header file) = p ∨ p ≥ DBPage.numPages (header file)) :
    disposePage .working file p = (.badPageNo,file) := by
  unfold disposePage
  by_cases low : p < 1
  · rw [if_pos low]
  · rw [if_neg low,intread_header counted.present]
    simp only [show Io.working.read 0 = false from rfl,Bool.false_eq_true,if_false]
    rw [if_pos (bad.resolve_left low)]

theorem disposePage_working (counted : Counted file) (low : 1 ≤ p) (other : DBPage.firstPage (header file) ≠ p)
    (high : p < DBPage.numPages (header file)) :
    ∃ file', disposePage .working file p = (.ok,file') ∧ file'.length = file.length ∧ Counted file' ∧
      DBPage.nextFree (header file') = p ∧ DBPage.firstPage (header file') = DBPage.firstPage (header file) ∧
      link file' p = some (DBPage.nextFree (header file)) ∧ ∀ q, q ≠ 0 → q ≠ p → at? file' q = at? file q := by
  have below := numPages_le counted
  have bound := counted.bound
  have present := counted.present
  obtain ⟨n,rfl⟩ := Int.eq_ofNat_of_zero_le (show 0 ≤ p by omega)
  obtain ⟨old,stored⟩ : ∃ old, at? file n = some old := at_inside (by omega) (by omega)
  have read : intread .working file n = .ok old := by
    simp only [intread,Io.working,Bool.false_eq_true,if_false,stored]
  have goes : ¬ (Io.working.write n = true ∨ (n : Int) < 0) := by
    rintro (broken | negative)
    · exact absurd broken Bool.false_ne_true
    · omega
  generalize image : DBPage.setNextFree (zero 1024) (DBPage.nextFree (header file)) = away
  have wrote : intwrite .working file n away = (.ok,overwrite file n away) := by
    rw [intwrite,if_neg goes,Int.toNat_natCast]
  have length1 := length_overwrite file (n:=n) away (by omega)
  have views : ∀ q, at? (overwrite (overwrite file n away) 0 (DBPage.setNextFree (header file) n)) q =
      if q = 0 then some (DBPage.setNextFree (header file) n) else if q = n then some away else at? file q := by
    intro q
    rw [at_overwrite _ (Nat.zero_le _),at_overwrite _ (by omega),Nat.cast_zero]
  have length2 := length_overwrite (overwrite file n away) (n:=0) (DBPage.setNextFree (header file) n) (Nat.zero_le _)
  have same_count : DBPage.numPages (DBPage.setNextFree (header file) n) = DBPage.numPages (header file) :=
    word_setWord_apart (by omega)
  refine ⟨overwrite (overwrite file n away) 0 (DBPage.setNextFree (header file) n),?_,
    by omega,⟨by omega,?_,by omega⟩,?_,?_,?_,?_⟩
  · unfold disposePage
    rw [if_neg (by omega),intread_header counted.present]
    simp only [show Io.working.read 0 = false from rfl,Bool.false_eq_true,if_false]
    rw [if_neg (by omega),read]
    simp only [image,wrote,intwrite_header _ (show Io.working.write 0 = false from rfl)]
  · have same_length : ((overwrite (overwrite file n away) 0 (DBPage.setNextFree (header file) n)).length : Int) =
        file.length := by
      omega
    rw [header_overwrite,same_count,counted.counted,same_length]
  · rw [header_overwrite]
    exact (word_setWord (by omega) (by omega)).trans (Int.bmod_eq_of_le_mul_two (by omega) (by omega))
  · rw [header_overwrite]
    exact word_setWord_apart (by omega)
  · rw [link,views,if_neg (by omega),if_pos rfl,← image]
    exact congrArg some ((word_setWord (by omega) (by omega)).trans (word_bmod (header file) 4 0))
  · intro q not_header not_page
    rw [views,if_neg not_header,if_neg not_page]

theorem link_congr {file' : UnixFile} {q : Int} (same : at? file' q = at? file q) : link file' q = link file q := by
  rw [link,link,same]

theorem allocatePage_spaced (spaced : Spaced s l) : ∃ l', Spaced (s.step .allocatePage) l' := by
  have counted := spaced.counted
  cases l with
  | nil =>
    have none : NoFreePages s.file := spaced.threaded
    have given : Allocated s.file (allocatePage .working s.file).2 (allocatePage .working s.file).1 :=
      allocatePage_spec counted rfl
    refine ⟨[],?_⟩
    rcases allocatePage_working counted none with ⟨_,failed⟩ | ⟨file,allocated,longer,first⟩
    · rw [Space.step,failed]
      exact spaced
    · rw [allocated] at given
      rw [Space.step,allocated]
      refine ⟨given.counted,given.noFree none,by simp,?_,?_,?_⟩
      · intro q
        simp [spaced.disposed]
      · intro q
        rw [List.mem_cons,spaced.handed,longer]
        have present := counted.present
        simp only [List.not_mem_nil,not_false_eq_true,and_true]
        omega
      · right
        dsimp only
        rw [first]
        split
        · exact List.mem_cons_self ..
        · exact List.mem_cons_of_mem _ (spaced.first.resolve_left fun none_yet => absurd none_yet.1 ‹_›)
  | cons p rest =>
    obtain ⟨start,inner,n,here,tail⟩ := spaced.threaded
    obtain ⟨low,high⟩ := spaced.inside p (List.mem_cons_self ..)
    have nodup := List.nodup_cons.mp spaced.threaded.nodup
    obtain ⟨page,stored,next⟩ := Option.map_eq_some_iff.mp here
    obtain ⟨file,allocated,length,free,first,same⟩ := takeFree_working counted (by rw [start]; exact inner)
      (by rw [start]; exact stored)
    have given : Allocated s.file (allocatePage .working s.file).2 (allocatePage .working s.file).1 :=
      allocatePage_spec counted rfl
    rw [allocated] at given
    rw [start] at allocated
    refine ⟨rest,?_⟩
    rw [Space.step,allocated]
    refine ⟨given.counted,?_,?_,?_,?_,?_⟩
    · dsimp only
      rw [free,next]
      refine tail.congr fun q member => link_congr (same q ?_)
      have := spaced.inside q (List.mem_cons_of_mem _ member)
      omega
    · intro q member
      dsimp only
      rw [length]
      exact spaced.inside q (List.mem_cons_of_mem _ member)
    · intro q
      simp only [List.mem_filter,spaced.disposed,List.mem_cons,decide_eq_true_eq]
      constructor
      · rintro ⟨rfl | later,other⟩
        · exact absurd rfl other
        · exact later
      · exact fun later => ⟨.inr later,fun here => nodup.1 (here ▸ later)⟩
    · intro q
      dsimp only
      rw [List.mem_cons,spaced.handed,List.mem_cons,length]
      by_cases here : q = p
      · subst here
        simp only [true_or,true_iff]
        exact ⟨⟨low,high⟩,nodup.1⟩
      · simp only [here,false_or]
    · dsimp only
      rw [first,length]
      exact spaced.first.imp id (List.mem_cons_of_mem _)

theorem disposePage_spaced (spaced : Spaced s l) (safe : p ∉ s.disposed) :
    ∃ l', Spaced (s.step (.disposePage p)) l' := by
  have counted := spaced.counted
  have refused : (p < 1 ∨ DBPage.firstPage (header s.file) = p ∨ p ≥ DBPage.numPages (header s.file)) →
      ∃ l', Spaced (s.step (.disposePage p)) l' := fun bad =>
    ⟨l,by rw [Space.step,disposePage_refused counted bad]; exact spaced⟩
  by_cases low : p < 1
  · exact refused (.inl low)
  by_cases own : DBPage.firstPage (header s.file) = p
  · exact refused (.inr (.inl own))
  by_cases high : p ≥ DBPage.numPages (header s.file)
  · exact refused (.inr (.inr high))
  obtain ⟨file,disposed,length,counted',free,first,linked,same⟩ := disposePage_working counted (by omega) own (by omega)
  have below := numPages_le counted
  have fresh : p ∉ l := fun member => safe ((spaced.disposed p).mpr member)
  -- No link of the list is in the header page or in the page itself.
  have links : ∀ q ∈ l, link file q = link s.file q := fun q member => by
    have := spaced.inside q member
    exact link_congr (same q (by omega) fun here => fresh (here ▸ member))
  refine ⟨p::l,?_⟩
  rw [Space.step,disposed]
  refine ⟨counted',?_,?_,?_,?_,?_⟩
  · dsimp only
    rw [free]
    exact ⟨rfl,by omega,_,linked,spaced.threaded.congr links⟩
  · intro q member
    dsimp only
    rw [length]
    rcases List.mem_cons.mp member with rfl | later
    · omega
    · exact spaced.inside q later
  · intro q
    rw [List.mem_cons,List.mem_cons,spaced.disposed]
  · intro q
    simp only [List.mem_filter,spaced.handed,List.mem_cons,decide_eq_true_eq,not_or,length]
    constructor
    · exact fun ⟨⟨range,off⟩,other⟩ => ⟨range,other,off⟩
    · exact fun ⟨range,other,off⟩ => ⟨⟨range,off⟩,other⟩
  · dsimp only
    rw [first,length]
    exact spaced.first.imp id fun member => List.mem_filter.mpr ⟨member,decide_eq_true own⟩

theorem step_spaced {call : SpaceCall} (spaced : Spaced s l) (safe : s.Safe call) : ∃ l', Spaced (s.step call) l' := by
  cases call with
  | allocatePage => exact allocatePage_spaced spaced
  | disposePage p => exact disposePage_spaced spaced safe

theorem run_spaced {calls : List SpaceCall} (spaced : Spaced s l) (safely : s.Safely calls) :
    ∃ l', Spaced (s.run calls) l' := by
  induction calls generalizing s l with
  | nil => exact ⟨l,spaced⟩
  | cons call rest ih =>
    obtain ⟨l',now⟩ := step_spaced spaced safely.1
    exact ih now safely.2

theorem Spaced.sound (spaced : Spaced s l) : SoundSpace s := by
  have counted := spaced.counted
  constructor
  case freeList =>
    refine ⟨l,spaced.threaded,spaced.threaded.nodup,fun q => (spaced.disposed q).symm,fun q low high => ?_⟩
    have := numPages_le counted
    rw [spaced.handed]
    by_cases member : q ∈ l
    · exact .inr ⟨fun owned => owned.2 member,member⟩
    · exact .inl ⟨⟨⟨low,by omega⟩,member⟩,member⟩
  case unowned =>
    intro q file allocated
    have off_first : q ∉ s.handed → DBPage.firstPage (header s.file) ≠ -1 → q ≠ DBPage.firstPage (header s.file) := by
      rintro unowned started rfl
      exact unowned (spaced.first.resolve_left fun none_yet => started none_yet.1)
    cases l with
    | nil =>
      rcases allocatePage_working counted spaced.threaded with ⟨_,failed⟩ | ⟨file',grown,_⟩
      · rw [failed] at allocated; cases allocated
      · rw [grown] at allocated
        cases allocated
        have present := counted.present
        have unowned : (s.file.length : Int) ∉ s.handed := fun owned => by have := ((spaced.handed _).mp owned).1; omega
        exact ⟨by omega,unowned,off_first unowned⟩
    | cons p rest =>
      obtain ⟨start,inner,n,here,tail⟩ := spaced.threaded
      obtain ⟨low,high⟩ := spaced.inside p (List.mem_cons_self ..)
      obtain ⟨page,stored,_⟩ := Option.map_eq_some_iff.mp here
      obtain ⟨file',taken,_⟩ := takeFree_working counted (by rw [start]; exact inner) (by rw [start]; exact stored)
      have handed_out : q = p := by
        rw [taken] at allocated
        exact (Except.ok.inj (Prod.mk.inj allocated).1).symm.trans start
      rw [handed_out] at off_first ⊢
      have unowned : p ∉ s.handed := fun owned => ((spaced.handed p).mp owned).2 (List.mem_cons_self ..)
      exact ⟨by omega,unowned,off_first unowned⟩

-- As long as no page on the free list is disposed of again, no page is handed out twice.
theorem space_sound_when_safe (calls : List SpaceCall) (safely : Space.created.Safely calls) :
    SoundSpace (Space.created.run calls) := by
  obtain ⟨l,spaced⟩ := run_spaced created_spaced safely
  exact spaced.sound

-- Disposing of a page that is on the list closes a circle.
theorem disposePage_again (spaced : Spaced s l) (member : p ∈ s.disposed)
    (inside : p < DBPage.numPages (header s.file)) :
    ¬ SoundSpace (s.step (.disposePage p)) := by
  have on_list := (spaced.disposed p).mp member
  obtain ⟨low,high⟩ := spaced.inside p on_list
  have own : DBPage.firstPage (header s.file) ≠ p := by
    rintro rfl
    rcases spaced.first with ⟨none_yet,_⟩ | owned
    · omega
    · exact ((spaced.handed _).mp owned).2 on_list
  obtain ⟨file,disposed,_,_,free,_,linked,same⟩ := disposePage_working spaced.counted low own inside
  rw [Space.step,disposed]
  rintro ⟨⟨l',again,_⟩,_⟩
  dsimp only at again
  rw [free] at again
  refine spaced.threaded.push_again on_list linked (fun q here other => ?_) again
  have := spaced.inside q here
  exact link_congr (same q (by omega) other)

theorem space_unsound_disposed_twice :
    ¬ SoundSpace (Space.created.run [.allocatePage,.allocatePage,.disposePage 2,.disposePage 2]) := by
  have once : Space.created.Safely [.allocatePage,.allocatePage,.disposePage 2] := ⟨trivial,trivial,by decide,trivial⟩
  obtain ⟨l,spaced⟩ := run_spaced created_spaced once
  exact disposePage_again (p:=2) spaced (by decide) (by decide)

theorem space_sound_after_reuse :
    SoundSpace (Space.created.run [.allocatePage,.allocatePage,.disposePage 2,.disposePage 1,.allocatePage]) :=
  space_sound_when_safe [.allocatePage,.allocatePage,.disposePage 2,.disposePage 1,.allocatePage]
    ⟨trivial,trivial,by decide,by decide,trivial,trivial⟩

end Minirel.File
