import Minirel.Pool

namespace Minirel.Pool

-- The bytes a reader of the page gets now.
def view (b : Pool) (pageNo : Int) : Option Page :=
  match b.frames pageNo with
  | some frame => some frame.page
  | none => if pageNo < 1 then none else File.at? b.file pageNo

-- Who holds what: the first page of the file, the number of opens, the pins on every page and
-- the pages whose changes some holder has still to unpin as dirty.
structure Books where
  first : Int
  opens : Nat
  pins : Int → Nat
  loose : Int → Prop

namespace Books

def hold (k : Books) (pageNo : Int) (dirty : Bool) : Books where
  first := k.first
  opens := k.opens
  pins := fun n => if n = pageNo then k.pins n + 1 else k.pins n
  loose := fun n => (dirty = true ∧ n = pageNo) ∨ k.loose n

def opened (k : Books) : Books := {k with opens := k.opens + 1}

-- The first page ever allocated is the first page of the file.
def starting (k : Books) (pageNo : Int) : Books := {k with first := if k.first = -1 then pageNo else k.first}

def Owned (k : Books) : Prop := ∀ n, k.loose n → 0 < k.pins n

@[simp] theorem hold_pins_same (k : Books) (n : Int) (d : Bool) : (k.hold n d).pins n = k.pins n + 1 := if_pos rfl
theorem hold_pins_other (k : Books) {n m : Int} (d : Bool) (other : m ≠ n) : (k.hold n d).pins m = k.pins m :=
    if_neg other

theorem hold_comm (k : Books) (n m : Int) (d e : Bool) : (k.hold n d).hold m e = (k.hold m e).hold n d := by
  unfold hold
  congr 1
  · funext i
    dsimp only
    by_cases one : i = n
    · rw [if_pos one,if_pos one]
      split <;> rfl
    · rw [if_neg one,if_neg one]
  · funext i
    exact propext or_left_comm

-- Two clients with two pins each, in either order.
theorem hold_two_comm (k : Books) (a b c d : Int) (x y z w : Bool) :
    (((k.hold a x).hold b y).hold c z).hold d w = (((k.hold c z).hold d w).hold a x).hold b y := by
  rw [hold_comm (k.hold a x) b c,hold_comm ((k.hold a x).hold c z) b d,hold_comm k a c,hold_comm (k.hold c z) a d]

theorem Owned.hold {k : Books} (owned : k.Owned) (n : Int) (d : Bool) : (k.hold n d).Owned := by
  intro i marked
  dsimp only [Books.hold] at marked ⊢
  rcases marked with ⟨_,rfl⟩ | marked
  · rw [if_pos rfl]; exact Nat.succ_pos _
  · have := owned i marked
    split <;> omega

end Books

structure Keeps (b : Pool) (k : Books) : Prop where
  pinned : ∀ n, ((b.frames n).elim 0 Frame.pins) = k.pins n
  backed : ∀ n frame, b.frames n = some frame → 1 ≤ n ∧ 0 < frame.pins ∧ (File.at? b.file n).isSome
  settled : ∀ n, 1 ≤ n → ¬ k.loose n → b.view n = File.at? b.file n
  first : DBPage.firstPage (File.header b.file) = k.first
  opens : b.openCnt = k.opens
  counted : File.Counted b.file
  noFree : File.NoFreePages b.file
  calm : b.faults = []

variable {b : Pool} {k : Books} {n : Int} {page : Page} {dirty : Bool}

theorem view_setFrame (b : Pool) (n m : Int) (frame : Frame) :
    (b.setFrame n (some frame)).view m = if m = n then some frame.page else b.view m := by
  unfold view setFrame
  by_cases same : m = n
  · subst same; simp
  · simp [same]

theorem Keeps.in_file (kept : b.Keeps k) (seen : b.view n = some page) : 1 ≤ n ∧ (File.at? b.file n).isSome := by
  unfold view at seen
  split at seen
  · rename_i frame held
    exact ⟨(kept.backed n frame held).1,(kept.backed n frame held).2.2⟩
  · split at seen
    · cases seen
    · rw [seen]; exact ⟨by omega,rfl⟩

theorem Keeps.bound (kept : b.Keeps k) (seen : b.view n = some page) : 1 ≤ n ∧ n < 2147483648 := by
  obtain ⟨low,inside⟩ := kept.in_file seen
  obtain ⟨old,found⟩ := Option.isSome_iff_exists.mp inside
  have := File.at_some_bound found
  have := kept.counted.bound
  omega

theorem Keeps.weaken {k' : Books} (kept : b.Keeps k) (same : k'.first = k.first ∧ k'.opens = k.opens ∧ k'.pins = k.pins)
    (more : ∀ n, k.loose n → k'.loose n) : b.Keeps k' := by
  obtain ⟨first,opens,pins⟩ := same
  exact ⟨by rw [pins]; exact kept.pinned,kept.backed,fun n low tight => kept.settled n low (fun l => tight (more n l)),
    by rw [first]; exact kept.first,by rw [opens]; exact kept.opens,kept.counted,kept.noFree,kept.calm⟩

theorem Keeps.held_frame (kept : b.Keeps (k.hold n dirty)) :
    ∃ frame, b.frames n = some frame ∧ frame.pins = k.pins n + 1 := by
  have count := kept.pinned n
  rw [Books.hold_pins_same] at count
  cases held : b.frames n with
  | none => rw [held] at count; simp at count
  | some frame => rw [held] at count; exact ⟨frame,rfl,count⟩

theorem Keeps.deref (kept : b.Keeps (k.hold n dirty)) (seen : b.view n = some page) : b.deref (some n) = .ok page := by
  obtain ⟨frame,held,_⟩ := kept.held_frame
  rw [view,held] at seen
  cases seen
  simp only [Pool.deref,held]

theorem Keeps.nextCall (kept : b.Keeps k) : b.nextCall = b := by
  have none_left : b.faults.tail = b.faults := by rw [kept.calm]; rfl
  rw [Pool.nextCall,none_left]

theorem Keeps.getFirstPage (kept : b.Keeps k) : b.getFirstPage = (.ok k.first,b) := by
  rw [Pool.getFirstPage,kept.nextCall,kept.calm]
  simp only [List.head?_nil,Option.join_none,File.getFirstPage,File.intread_header kept.counted.present,Io.working,
    Bool.false_eq_true,if_false,kept.first]

theorem Keeps.readPage (kept : b.Keeps k) (seen : b.view n = some page) :
    ∃ b', b.readPage n = (.ok,b') ∧ b'.Keeps (k.hold n false) ∧ b'.view = b.view := by
  obtain ⟨low,inside⟩ := kept.in_file seen
  -- Either way the page gets a frame with the bytes a reader saw before, and one more pin.
  have general : ∀ frame, frame.page = page → frame.pins = k.pins n + 1 →
      (b.setFrame n (some frame)).Keeps (k.hold n false) ∧ (b.setFrame n (some frame)).view = b.view := by
    intro frame image count
    have views : (b.setFrame n (some frame)).view = b.view := by
      funext m
      rw [view_setFrame]
      split
      · rename_i here; rw [here,seen,image]
      · rfl
    refine ⟨⟨?_,?_,?_,kept.first,kept.opens,kept.counted,kept.noFree,kept.calm⟩,views⟩
    · intro m
      simp only [setFrame,Books.hold,Function.update_apply]
      split
      · rename_i here; subst here; exact count
      · exact kept.pinned m
    · intro m other held
      simp only [setFrame,Function.update_apply] at held ⊢
      split at held
      · rename_i here; cases held; rw [here]; exact ⟨low,by omega,inside⟩
      · exact kept.backed m other held
    · intro m least tight
      rw [views]
      refine kept.settled m least fun marked => tight (.inr marked)
  cases held : b.frames n with
  | some frame =>
    have count := kept.pinned n
    rw [held,Option.elim_some] at count
    rw [view,held] at seen
    obtain ⟨kept',views⟩ := general {frame with pins := frame.pins + 1} (Option.some.inj seen) (by rw [← count])
    exact ⟨_,by simp only [Pool.readPage,held],kept',views⟩
  | none =>
    have count := kept.pinned n
    rw [held,Option.elim_none] at count
    have stored : File.at? b.file n = some page := by
      rw [view,held] at seen
      simpa [show ¬ n < 1 by omega] using seen
    obtain ⟨kept',views⟩ := general ⟨page,1⟩ rfl (by rw [← count])
    refine ⟨_,?_,kept',views⟩
    simp only [Pool.readPage,held,kept.calm,List.head?_nil,Option.join_none,File.readPage,show ¬ n <
      1 from Int.not_lt.mpr low,if_false,
      File.intread,Io.working,Bool.false_eq_true,stored,kept.nextCall]

theorem Keeps.view_inside (kept : b.Keeps k) (low : 1 ≤ n) : (b.view n).isSome ↔ n < b.file.length := by
  constructor
  · intro seen
    obtain ⟨page,seen⟩ := Option.isSome_iff_exists.mp seen
    obtain ⟨page',there⟩ := Option.isSome_iff_exists.mp (kept.in_file seen).2
    exact (File.at_some_bound there).2
  · intro inside
    obtain ⟨page,there⟩ := File.at_inside (Int.le_trans Int.one_nonneg low) inside
    unfold view
    split
    · rfl
    · rw [if_neg (Int.not_lt.mpr low),there]
      rfl

-- The pages that a client sees say how long the file is.
theorem Keeps.length_of_view {b' : Pool} {k' : Books} (kept : b.Keeps k) (kept' : b'.Keeps k')
    (same : b'.view = b.view) : b'.file.length = b.file.length := by
  have first := kept.counted.present
  have first' := kept'.counted.present
  rcases Nat.lt_trichotomy b'.file.length b.file.length with less | equal | more
  · have seen := (kept.view_inside (n:=b'.file.length) (by omega)).mpr (by omega)
    rw [← same,kept'.view_inside (by omega)] at seen
    omega
  · exact equal
  · have seen := (kept'.view_inside (n:=b.file.length) (by omega)).mpr (by omega)
    rw [same,kept.view_inside (by omega)] at seen
    omega

-- The first half of a dirty unpin: the bytes of the frame become those of the file.
theorem Keeps.save (kept : b.Keeps (k.hold n dirty)) {frame : Frame} (held : b.frames n = some frame) :
    ∃ file, (File.writePage .working b.file n frame.page).2 = file ∧ Keeps {b with file := file} (k.hold n false) ∧
      view {b with file := file} = b.view := by
  obtain ⟨low,positive,inside⟩ := kept.backed n frame held
  obtain ⟨old,stored⟩ := Option.isSome_iff_exists.mp inside
  obtain ⟨file,written⟩ : ∃ file, File.writePage .working b.file n frame.page = (.ok,file) := by
    have goes : ¬ (Io.working.write n = true ∨ n < 0) := by
      rintro (broken | negative)
      · cases broken
      · omega
    exact ⟨_,by rw [File.writePage,if_neg (Int.not_lt.mpr low),File.intwrite,if_neg goes]⟩
  have stores := File.at_writePage stored written
  have header : File.header file = File.header b.file := by
    have := File.header_writePage .working b.file n frame.page
    rwa [written] at this
  have views : view {b with file := file} = b.view := by
    funext m
    by_cases here : m = n
    · subst here; simp only [view,held]
    · simp only [view,stores,if_neg here]
  refine ⟨file,by rw [written],⟨kept.pinned,?_,?_,?_,kept.opens,File.writePage_counted kept.counted stored written,
    ?_,kept.calm⟩,views⟩
  · intro m other present
    obtain ⟨one,two,three⟩ := kept.backed m other present
    refine ⟨one,two,?_⟩
    dsimp only
    rw [stores]
    split
    · rfl
    · exact three
  · intro m least tight
    rw [views]
    dsimp only
    rw [stores]
    split
    · rename_i here; rw [here,view,held]
    · rename_i other
      exact kept.settled m least fun marked => tight (marked.elim (fun h => absurd h.2 other) .inr)
  · dsimp only
    rw [header]
    exact kept.first
  · rw [File.NoFreePages]
    dsimp only
    rw [header]
    exact kept.noFree

-- The second half: the pin goes, and with the last pin the frame.
theorem Keeps.drop (kept : b.Keeps (k.hold n false)) (owned : k.Owned) {frame : Frame}
    (held : b.frames n = some frame) :
    (b.setFrame n (if frame.pins ≤ 1 then none else some {frame with pins := frame.pins - 1})).Keeps k ∧
      (b.setFrame n (if frame.pins ≤ 1 then none else some {frame with pins := frame.pins - 1})).view = b.view := by
  obtain ⟨low,positive,inside⟩ := kept.backed n frame held
  have count : frame.pins = k.pins n + 1 := by
    have := kept.pinned n
    rwa [held,Option.elim_some,Books.hold_pins_same] at this
  have tight : ∀ m, ¬ k.loose m → ¬ (k.hold n false).loose m :=
    fun m tight marked => marked.elim (fun h => absurd h.1 Bool.false_ne_true) tight
  have views : (b.setFrame n (if frame.pins ≤ 1 then none else some {frame with pins := frame.pins - 1})).view =
      b.view := by
    funext m
    by_cases here : m = n
    · subst here
      by_cases last : frame.pins ≤ 1
      · have clean : ¬ k.loose m := fun marked => by have := owned m marked; omega
        rw [kept.settled m low (tight m clean)]
        simp only [view,setFrame,if_pos last,Function.update_self,show ¬ m < 1 by omega,if_false]
      · simp only [view,setFrame,if_neg last,Function.update_self,held]
    · simp only [view,setFrame,Function.update_of_ne here]
  refine ⟨⟨?_,?_,?_,kept.first,kept.opens,kept.counted,kept.noFree,kept.calm⟩,views⟩
  · intro m
    have before := kept.pinned m
    by_cases here : m = n
    · subst here
      simp only [setFrame,Function.update_self]
      split
      · rw [Option.elim_none]; omega
      · rw [Option.elim_some]; dsimp only; omega
    · simpa only [setFrame,Function.update_of_ne here,Books.hold,if_neg here] using before
  · intro m other present
    by_cases here : m = n
    · subst here
      simp only [setFrame,Function.update_self] at present
      split at present
      · cases present
      · cases present
        exact ⟨low,by dsimp only; omega,inside⟩
    · simp only [setFrame,Function.update_of_ne here] at present
      exact kept.backed m other present
  · intro m least clean
    rw [views]
    exact kept.settled m least (tight m clean)

theorem Keeps.unPinPage (kept : b.Keeps (k.hold n dirty)) (owned : k.Owned) (flag : Bool)
    (enough : dirty = true → flag = true) :
    ∃ b', b.unPinPage n flag = (.ok,b') ∧ b'.Keeps k ∧ b'.view = b.view := by
  obtain ⟨frame,held,pins⟩ := kept.held_frame
  cases flag
  · have clean : dirty = false := by
      cases dirty
      · rfl
      · exact (enough rfl).symm
    subst clean
    obtain ⟨kept',views⟩ := kept.drop owned held
    exact ⟨_,by simp only [Pool.unPinPage,held,Bool.false_eq_true,if_false],kept',views⟩
  · obtain ⟨file,written,saved,same⟩ := kept.save held
    obtain ⟨kept',views⟩ := Keeps.drop (b:={b with file := file}) saved owned held
    exact ⟨_,by simp only [Pool.unPinPage,held,if_true,written],kept',views.trans same⟩

theorem Keeps.assign (kept : b.Keeps (k.hold n dirty)) (page : Page) :
    (b.assign (some n) page).Keeps (k.hold n true) ∧
      ∀ m, (b.assign (some n) page).view m = if m = n then some page else b.view m := by
  obtain ⟨frame,held,pins⟩ := kept.held_frame
  have done : b.assign (some n) page = b.setFrame n (some {frame with page := page}) := by
    simp only [Pool.assign,held]
  have views := (view_setFrame b n · {frame with page := page})
  rw [done]
  refine ⟨⟨?_,?_,?_,kept.first,kept.opens,kept.counted,kept.noFree,kept.calm⟩,views⟩
  · intro m
    have before := kept.pinned m
    by_cases here : m = n
    · subst here
      simp only [setFrame,Function.update_self,Option.elim_some,Books.hold,if_true]
      exact pins
    · simpa only [setFrame,Function.update_of_ne here,Books.hold,if_neg here] using before
  · intro m other present
    by_cases here : m = n
    · subst here
      simp only [setFrame,Function.update_self,Option.some.injEq] at present
      subst present
      exact kept.backed m frame held
    · simp only [setFrame,Function.update_of_ne here] at present ⊢
      exact kept.backed m other present
  · intro m least tight
    have other : m ≠ n := fun here => tight (.inl ⟨rfl,here⟩)
    rw [views,if_neg other]
    exact kept.settled m least fun marked => tight (marked.elim (fun h => absurd h.2 other) .inr)

theorem assign_file (b : Pool) (ptr : Ptr) (page : Page) : (b.assign ptr page).file = b.file := by
  unfold Pool.assign
  split
  · rfl
  · split <;> rfl

theorem Keeps.openFile (kept : b.Keeps k) : ∃ b', b.openFile = (.ok,b') ∧ b'.Keeps k.opened ∧ b'.view = b.view :=
  ⟨_,rfl,⟨kept.pinned,kept.backed,kept.settled,kept.first,congrArg (· + 1) kept.opens,kept.counted,kept.noFree,
    kept.calm⟩,rfl⟩

theorem Keeps.closeFile (kept : b.Keeps k.opened) : ∃ b', b.closeFile = (.ok,b') ∧ b'.Keeps k ∧ b'.view = b.view := by
  refine ⟨_,rfl,⟨kept.pinned,kept.backed,kept.settled,kept.first,?_,kept.counted,kept.noFree,kept.calm⟩,rfl⟩
  have count := kept.opens
  dsimp only [Books.opened] at count ⊢
  omega

theorem Keeps.allocPage (kept : b.Keeps k) :
    (b.file.length = 2147483648 ∧ b.allocPage = (.error .unixErr,b)) ∨
    ∃ m page b', b.allocPage = (.ok m,b') ∧ b'.file.length = b.file.length + 1 ∧ 1 ≤ m ∧ b.view m = none ∧
      b'.Keeps ((k.starting m).hold m true) ∧
      b'.view m = some page ∧ ∀ n other, b.view n = some other → b'.view n = some other := by
  have given : File.Allocated b.file (File.allocatePage .working b.file).2 (File.allocatePage .working b.file).1 :=
    File.allocatePage_spec kept.counted rfl
  rcases File.allocatePage_working kept.counted kept.noFree with ⟨huge,failed⟩ | ⟨file,allocated,longer,first⟩
  · left
    exact ⟨huge,by rw [Pool.allocPage,failed]⟩
  right
  rw [allocated] at given
  have fresh := given.fresh _ rfl kept.noFree
  have handed := given.handed _ rfl
  have present := kept.counted.present
  dsimp only at handed
  generalize number : (b.file.length : Int) = m at *
  have unpinned : b.frames m = none := by
    cases held : b.frames m with
    | none => rfl
    | some frame =>
      have := (kept.backed m frame held).2.2
      rw [fresh] at this
      cases this
  have before : b.view m = none := by
    rw [view,unpinned]
    dsimp only
    rw [fresh,ite_self]
  have views : ∀ n other, b.view n = some other →
      (setFrame {b with file := file} m (some ⟨b.stale m,1⟩)).view n = some other := by
    intro n other seen
    have apart : n ≠ m := by rintro rfl; rw [before] at seen; cases seen
    have inside := kept.in_file seen
    rw [view_setFrame,if_neg apart,← seen]
    simp only [view,given.kept n inside.1 inside.2]
  have done : b.allocPage = (.ok m,setFrame {b with file := file} m (some ⟨b.stale m,1⟩)) := by
    simp only [Pool.allocPage,allocated,kept.calm,List.head?_nil,Option.join_none]
    rfl
  refine ⟨m,b.stale m,setFrame {b with file := file} m (some ⟨b.stale m,1⟩),done,longer,by omega,before,
    ⟨?_,?_,?_,?_,kept.opens,given.counted,given.noFree kept.noFree,kept.calm⟩,?_,views⟩
  · intro n
    have count := kept.pinned n
    by_cases here : n = m
    · subst here
      rw [unpinned,Option.elim_none] at count
      simp only [setFrame,Function.update_self,Option.elim_some,Books.hold_pins_same]
      rw [Books.starting,← count]
    · rw [Books.hold_pins_other _ _ here]
      simp only [setFrame,Function.update_of_ne here]
      exact count
  · intro n frame held
    by_cases here : n = m
    · subst here
      simp only [setFrame,Function.update_self,Option.some.injEq] at held
      subst held
      exact ⟨by omega,Nat.one_pos,handed⟩
    · simp only [setFrame,Function.update_of_ne here] at held
      obtain ⟨one,two,three⟩ := kept.backed n frame held
      refine ⟨one,two,?_⟩
      dsimp only [setFrame]
      rw [given.kept n one three]
      exact three
  · intro n low tight
    have other : n ≠ m := fun here => tight (.inl ⟨rfl,here⟩)
    have settled := kept.settled n low fun marked => tight (.inr marked)
    rw [view_setFrame,if_neg other]
    dsimp only [setFrame]
    cases held : b.frames n with
    | some frame =>
      have inside := (kept.backed n frame held).2.2
      rw [given.kept n low inside,← settled]
      simp only [view,held]
    | none => simp only [view,held,show ¬ n < 1 from Int.not_lt.mpr low,if_false]
  · dsimp only [setFrame,Books.hold,Books.starting]
    rw [first,kept.first]
  · rw [view_setFrame,if_pos rfl]

-- A file that has just been created and opened, with whatever the frames to come still hold.
def created (stale : Int → Page) : Pool := ⟨File.create,fun _ => none,1,stale,[]⟩

def Books.unused : Books := ⟨-1,0,fun _ => 0,fun _ => False⟩

theorem created_keeps (stale : Int → Page) : (created stale).Keeps Books.unused.opened := by
  refine ⟨fun _ => rfl,fun _ _ held => (by cases held),fun n low _ => ?_,?_,rfl,File.create_counted.1,
    File.create_counted.2,rfl⟩
  · rw [view]
    dsimp only [created]
    rw [if_neg (by omega)]
  · exact File.create_firstPage

end Minirel.Pool
