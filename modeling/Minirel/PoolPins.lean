import Minirel.PoolBooks

namespace Minirel

variable {α β : Type}

-- A call that uses no pointer it must not use: it ends with P, or it never ends.
def Safe (P : α → Prop) : Except Abort α → Prop
  | .ok a => P a
  | .error abort => abort = .diverges

theorem Safe.bind {P : β → Prop} {Q : α → Prop} {x : Except Abort α} {f : α → Except Abort β} (one : Safe Q x)
    (two : ∀ a, Q a → Safe P (f a)) : Safe P (x >>= f) := by
  cases x with
  | error abort => exact one
  | ok a => exact two a one

theorem Safe.imp {P Q : α → Prop} {x : Except Abort α} (safe : Safe P x) (weaker : ∀ a, P a → Q a) : Safe Q x := by
  cases x with
  | error abort => exact safe
  | ok a => exact weaker a safe

namespace Pool

-- How many pins there are on each page of the file, whoever has them and whatever fails from now on.
structure Tallied (b : Pool) (pins : Int → Nat) : Prop where
  pinned : ∀ n, (b.frames n).elim 0 Frame.pins = pins n
  backed : ∀ n frame, b.frames n = some frame → 1 ≤ n ∧ 0 < frame.pins ∧ (File.at? b.file n).isSome
  counted : File.Counted b.file
  noFree : File.NoFreePages b.file
  failures : some .ok ∉ b.faults

variable {b : Pool} {k : Books} {pins : Int → Nat} {n : Int}

theorem Keeps.tallied (kept : b.Keeps k) : b.Tallied k.pins :=
  ⟨kept.pinned,kept.backed,kept.counted,kept.noFree,by rw [kept.calm]; exact List.not_mem_nil⟩

theorem single_same (pins : Int → Nat) (n : Int) : (pins + Pi.single n 1 : Int → Nat) n = pins n + 1 := by
  rw [Pi.add_apply,Pi.single_eq_same]

theorem single_other (pins : Int → Nat) {n m : Int} (other : m ≠ n) :
    (pins + Pi.single n 1 : Int → Nat) m = pins m := by
  rw [Pi.add_apply,Pi.single_eq_of_ne other,Nat.add_zero]

theorem Tallied.frame (tallied : b.Tallied (pins + Pi.single n 1)) : ∃ frame, b.frames n = some frame ∧
    frame.pins = pins n + 1 := by
  have count := tallied.pinned n
  rw [single_same] at count
  cases held : b.frames n with
  | none => rw [held] at count; simp at count
  | some frame => rw [held] at count; exact ⟨frame,rfl,count⟩

theorem Tallied.deref (tallied : b.Tallied (pins + Pi.single n 1)) : ∃ page, b.deref (some n) = .ok page ∧
    b.view n = some page := by
  obtain ⟨frame,held,_⟩ := tallied.frame
  exact ⟨frame.page,by simp only [Pool.deref,held],by simp only [view,held]⟩

-- One frame changes; the file may only have been written.
theorem Tallied.change {b' : Pool} {pins' : Int → Nat} (tallied : b.Tallied pins) (frame' : Option Frame)
    (frames : b'.frames = Function.update b.frames n frame') (count : frame'.elim 0 Frame.pins = pins' n)
    (others : ∀ m, m ≠ n → pins' m = pins m) (backed : ∀ frame, frame' = some frame → 1 ≤ n ∧ 0 < frame.pins ∧
      (File.at? b'.file n).isSome)
    (present : ∀ m, 1 ≤ m → (File.at? b.file m).isSome → (File.at? b'.file m).isSome) (counted : File.Counted b'.file)
    (noFree : File.NoFreePages b'.file) (failures : some .ok ∉ b'.faults) : b'.Tallied pins' := by
  refine ⟨fun m => ?_,fun m frame held => ?_,counted,noFree,failures⟩
  · rw [frames]
    by_cases here : m = n
    · subst here
      rw [Function.update_self]
      exact count
    · rw [Function.update_of_ne here,others m here]
      exact tallied.pinned m
  · rw [frames] at held
    by_cases here : m = n
    · subst here
      rw [Function.update_self] at held
      exact backed frame held
    · rw [Function.update_of_ne here] at held
      obtain ⟨low,positive,inside⟩ := tallied.backed m frame held
      exact ⟨low,positive,present m low inside⟩

theorem Tallied.assign (tallied : b.Tallied (pins + Pi.single n 1)) (page : Page) :
    (b.assign (some n) page).Tallied (pins + Pi.single n 1) := by
  obtain ⟨frame,held,count⟩ := tallied.frame
  have done : b.assign (some n) page = b.setFrame n (some {frame with page := page}) := by simp only [Pool.assign,held]
  rw [done]
  refine tallied.change (n:=n) (some {frame with page := page}) rfl ?_ (fun _ _ => rfl) ?_
    (fun _ _ inside => inside) tallied.counted tallied.noFree
    tallied.failures
  · rw [single_same]
    exact count
  · rintro _ same
    cases same
    exact tallied.backed n frame held

-- The file after a frame was written to its page.
theorem Tallied.written (tallied : b.Tallied pins) {frame : Frame} (held : b.frames n = some frame) (page : Page) :
    ∃ file, (File.writePage .working b.file n page).2 = file ∧ File.Counted file ∧ File.NoFreePages file ∧
      ∀ m, File.at? file m = if m = n then some page else File.at? b.file m := by
  obtain ⟨low,_,inside⟩ := tallied.backed n frame held
  obtain ⟨old,stored⟩ := Option.isSome_iff_exists.mp inside
  have goes : ¬ (Io.working.write n = true ∨ n < 0) := by
    rintro (broken | negative)
    · cases broken
    · omega
  obtain ⟨file,written⟩ : ∃ file, File.writePage .working b.file n page = (.ok,file) :=
    ⟨_,by rw [File.writePage,if_neg (Int.not_lt.mpr low),File.intwrite,if_neg goes]⟩
  have header : File.header file = File.header b.file := by
    have := File.header_writePage .working b.file n page
    rwa [written] at this
  refine ⟨file,by rw [written],File.writePage_counted tallied.counted stored written,?_,File.at_writePage stored written⟩
  rw [File.NoFreePages,header]
  exact tallied.noFree

-- A pin that is there can be given back; nothing else changes for the readers of other pages.
theorem Tallied.unPinPage (tallied : b.Tallied (pins + Pi.single n 1)) (dirty : Bool) :
    ∃ b', b.unPinPage n dirty = (.ok,b') ∧ b'.Tallied pins ∧
      ∀ m, m ≠ n → (b'.readPage m).1 = (b.readPage m).1 ∧ b'.view m = b.view m := by
  obtain ⟨frame,held,count⟩ := tallied.frame
  obtain ⟨low,positive,inside⟩ := tallied.backed n frame held
  obtain ⟨file,wrote,counted,noFree,stores⟩ := tallied.written held frame.page
  have general : ∀ file', (file' = b.file ∨ file' = file) →
      let b' := setFrame {b with file := file'} n (if frame.pins ≤ 1 then none else some
        {frame with pins := frame.pins - 1})
      b'.Tallied pins ∧ ∀ m, m ≠ n → (b'.readPage m).1 = (b.readPage m).1 ∧ b'.view m = b.view m := by
    intro file' which
    have elsewhere : ∀ m, m ≠ n → File.at? file' m = File.at? b.file m := by
      intro m other
      rcases which with rfl | rfl
      · rfl
      · rw [stores,if_neg other]
    have here : (File.at? file' n).isSome := by
      rcases which with rfl | rfl
      · exact inside
      · rw [stores,if_pos rfl]
        rfl
    refine ⟨tallied.change _ rfl ?_ (fun m other => (single_other pins other).symm) ?_ ?_ ?_ ?_ tallied.failures,
      fun m other => ?_⟩
    · split
      · rw [Option.elim_none]
        omega
      · rw [Option.elim_some]
        dsimp only
        omega
    · intro left same
      split at same
      · cases same
      · cases same
        exact ⟨low,by dsimp only; omega,here⟩
    · intro m _ present
      by_cases same : m = n
      · subst same
        exact here
      · exact (congrArg Option.isSome (elsewhere m same)).trans present
    · rcases which with rfl | rfl
      · exact tallied.counted
      · exact counted
    · rcases which with rfl | rfl
      · exact tallied.noFree
      · exact noFree
    · have frames : (setFrame {b with file := file'} n (if frame.pins ≤ 1 then none else some
        {frame with pins := frame.pins - 1})).frames m =
          b.frames m := Function.update_of_ne other _ _
      refine ⟨?_,?_⟩
      · simp only [Pool.readPage,frames]
        cases b.frames m with
        | some other => rfl
        | none =>
          dsimp only [setFrame]
          cases b.faults.head?.join with
          | some status => rfl
          | none =>
            simp only [File.readPage,File.intread,elsewhere m other]
            split <;> rfl
      · simp only [view,frames]
        dsimp only [setFrame]
        rw [elsewhere m other]
  cases dirty with
  | false => exact ⟨_,by simp only [Pool.unPinPage,held,Bool.false_eq_true,if_false],general b.file (.inl rfl)⟩
  | true => exact ⟨_,by simp only [Pool.unPinPage,held,if_true,wrote],general file (.inr rfl)⟩

theorem failed_status {status : Status} (tallied : b.Tallied pins) (failed : b.faults.head?.join = some status) :
    status ≠ .ok := by
  rintro rfl
  refine tallied.failures ?_
  cases faults : b.faults with
  | nil => rw [faults] at failed; cases failed
  | cons first rest =>
    rw [faults,List.head?_cons,Option.join_some] at failed
    rw [failed]
    exact List.mem_cons_self ..

theorem later_failures (tallied : b.Tallied pins) :
    some .ok ∉ b.faults.tail := fun member => tallied.failures (List.mem_of_mem_tail member)

theorem Tallied.nextCall (tallied : b.Tallied pins) : b.nextCall.Tallied pins :=
  ⟨tallied.pinned,tallied.backed,tallied.counted,tallied.noFree,later_failures tallied⟩

theorem read_found {file : UnixFile} {page : Page} (read : File.readPage .working file n = .ok page) :
    1 ≤ n ∧ File.at? file n = some page := by
  simp only [File.readPage,File.intread,Io.working,Bool.false_eq_true,if_false] at read
  split at read
  · cases read
  · split at read
    · cases read
      exact ⟨by omega,by assumption⟩
    · cases read

theorem read_refused {file : UnixFile} : File.readPage .working file n ≠ .error .ok := by
  intro read
  simp only [File.readPage,File.intread,Io.working,Bool.false_eq_true,if_false] at read
  split at read
  · cases read
  · split at read <;> cases read

-- A page that was read has one pin more, and its readers see what they saw; a page that was not
-- read has as many pins as before.
theorem Tallied.readPage (tallied : b.Tallied pins) (n : Int) :
    (∃ b', b.readPage n = (.ok,b') ∧ b'.Tallied (pins + Pi.single n 1) ∧ b'.view = b.view ∧ b'.openCnt =
      b.openCnt ∧ b'.file = b.file) ∨
      ∃ status b', b.readPage n = (status,b') ∧ status ≠ .ok ∧ b'.Tallied pins ∧ b'.openCnt = b.openCnt ∧
        b'.frames = b.frames ∧
        b.frames n = none := by
  cases held : b.frames n with
  | some frame =>
    left
    have count := tallied.pinned n
    rw [held,Option.elim_some] at count
    obtain ⟨low,_,inside⟩ := tallied.backed n frame held
    refine ⟨b.setFrame n (some {frame with pins := frame.pins + 1}),by simp only [Pool.readPage,held],
      tallied.change _ rfl ?_ (fun m other => single_other pins other) ?_ (fun _ _ inside => inside)
        tallied.counted tallied.noFree
        tallied.failures,?_,rfl,rfl⟩
    · rw [single_same,← count]
      rfl
    · intro frame' same
      cases same
      exact ⟨low,Nat.succ_pos _,inside⟩
    · funext m
      rw [view_setFrame]
      split
      · rename_i here
        simp only [view,here,held]
      · rfl
  | none =>
    cases faulty : b.faults.head?.join with
    | some status =>
      exact .inr ⟨status,b.nextCall,by simp only [Pool.readPage,held,
        faulty],failed_status tallied faulty,tallied.nextCall,rfl,rfl,rfl⟩
    | none =>
      cases read : File.readPage .working b.file n with
      | error status =>
        have refused : status ≠ .ok := by rintro rfl; exact read_refused read
        exact .inr ⟨status,b.nextCall,by simp only [Pool.readPage,held,faulty,
          read],refused,tallied.nextCall,rfl,rfl,rfl⟩
      | ok page =>
        left
        obtain ⟨low,stored⟩ := read_found read
        have count := tallied.pinned n
        rw [held,Option.elim_none] at count
        refine ⟨b.nextCall.setFrame n (some ⟨page,1⟩),by simp only [Pool.readPage,held,faulty,read],
          tallied.nextCall.change _ rfl ?_ (fun m other => single_other pins other) ?_
            (fun _ _ inside => inside) tallied.counted tallied.noFree
            (later_failures tallied),?_,rfl,rfl⟩
        · rw [single_same,← count]
          rfl
        · intro frame' same
          cases same
          exact ⟨low,Nat.one_pos,by dsimp only [setFrame,Pool.nextCall]; rw [stored]; rfl⟩
        · funext m
          rw [view_setFrame]
          split
          · rename_i here
            simp only [view,here,held,stored,show ¬ n < 1 by omega,if_false]
          · rfl

-- A new page is nobody's until the one who asked for it has its only pin.
theorem Tallied.allocPage (tallied : b.Tallied pins) :
    (∃ m b', b.allocPage = (.ok m,b') ∧ b'.Tallied (pins + Pi.single m 1)) ∨
      ∃ status b', b.allocPage = (.error status,b') ∧ b'.Tallied pins := by
  have given : File.Allocated b.file (File.allocatePage .working b.file).2 (File.allocatePage .working b.file).1 :=
    File.allocatePage_spec tallied.counted rfl
  have grown : ({b with file := (File.allocatePage .working b.file).2} : Pool).Tallied pins := by
    refine ⟨tallied.pinned,fun m frame held => ?_,given.counted,given.noFree tallied.noFree,tallied.failures⟩
    obtain ⟨low,positive,inside⟩ := tallied.backed m frame held
    exact ⟨low,positive,by dsimp only; rw [given.kept m low inside]; exact inside⟩
  generalize allocated : File.allocatePage .working b.file = outcome at given grown
  obtain ⟨result,file⟩ := outcome
  dsimp only at given grown
  cases result with
  | error status => exact .inr ⟨status,_,by simp only [Pool.allocPage,allocated],grown⟩
  | ok m =>
    cases faulty : b.faults.head?.join with
    | some status => exact .inr ⟨status,_,by simp only [Pool.allocPage,allocated,faulty],grown.nextCall⟩
    | none =>
      left
      have fresh := given.fresh m rfl tallied.noFree
      have handed := given.handed m rfl
      have low : 1 ≤ m := by
        rcases File.allocatePage_working tallied.counted tallied.noFree with ⟨_,failed⟩ | ⟨_,done,_⟩
        · rw [failed] at allocated
          cases allocated
        · rw [done] at allocated
          cases allocated
          have := tallied.counted.present
          omega
      have unpinned : b.frames m = none := by
        cases held : b.frames m with
        | none => rfl
        | some frame =>
          have inside := (tallied.backed m frame held).2.2
          rw [fresh] at inside
          cases inside
      have count := tallied.pinned m
      rw [unpinned,Option.elim_none] at count
      refine ⟨m,(Pool.nextCall {b with file := file}).setFrame m (some ⟨b.stale m,1⟩),
        by simp only [Pool.allocPage,allocated,faulty],
        grown.nextCall.change (some ⟨b.stale m,1⟩) rfl ?_ (fun _ other => single_other pins other) ?_
          (fun _ _ inside => inside) given.counted
          (given.noFree tallied.noFree) (later_failures grown)⟩
      · rw [single_same,← count]
        rfl
      · intro frame' same
        cases same
        exact ⟨low,Nat.one_pos,handed⟩

theorem Tallied.openCnt (tallied : b.Tallied pins) (count : Nat) : ({b with openCnt := count} : Pool).Tallied pins :=
  ⟨tallied.pinned,tallied.backed,tallied.counted,tallied.noFree,tallied.failures⟩

end Pool
end Minirel
