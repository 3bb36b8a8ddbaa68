import Minirel.PageFrames
import Minirel.SlotDirectory

namespace Minirel.Page
open ByteMemory

-- The live records in the physical order of their bytes, with their slot numbers.
abbrev Extents := List (Nat × List UInt8)

def size (extents : Extents) : Nat := (extents.map fun e => e.2.length).sum

@[simp] theorem size_nil : size [] = 0 := rfl
@[simp] theorem size_append (left right : Extents) : size (left ++ right) = size left + size right := by
  simp [size]
@[simp] theorem size_cons (e : Nat × List UInt8) (rest : Extents) : size (e::rest) = e.2.length + size rest := by
  simp [size]

-- Space accounting, slot contents and data bytes of a page, all read off the
-- physical order: the k-th extent starts where the ones before it end.
structure Layout (p : Page) (n : Nat) (extents : Extents) : Prop where
  slots : p.slotCnt = -n
  ptr : p.freePtr = size extents
  space : p.freeSpace = dataSize - slotSize * n - size extents
  fits : slotSize * n + size extents ≤ dataSize
  nodup : (extents.map Prod.fst).Nodup
  bound : ∀ e ∈ extents, e.1 < n
  free : ∀ i < n, i ∉ extents.map Prod.fst → p.slotLength (-i) = -1
  placed : ∀ before e after, extents = before ++ e::after →
    p.slotOffset (-e.1) = size before ∧ p.slotLength (-e.1) = e.2.length
  bytes : p.copyOut 0 (size extents) = extents.flatMap Prod.snd

theorem init_layout (p : Page) (pageNo : Int) : Layout (p.init pageNo) 0 [] := by
  refine ⟨?_,?_,?_,by decide,by simp,by simp,by simp,by simp,rfl⟩
  all_goals
    simp (disch := omega) only [init,slotCnt,freePtr,freeSpace,setSlotCnt,setFreePtr,setFreeSpace,setNextPage,
      setCurPage,
      word_setWord_apart,word_setWord]
    rfl

theorem Layout.length_of {p : Page} {n : Nat} {extents : Extents} (valid : Layout p n extents)
    {i : Nat} {bytes : List UInt8} (live : (i,bytes) ∈ extents) : p.slotLength (-i) = bytes.length := by
  obtain ⟨before,after,split⟩ := List.append_of_mem live
  exact (valid.placed before (i,bytes) after split).2

theorem Layout.free_iff {p : Page} {n : Nat} {extents : Extents} (valid : Layout p n extents)
    {i : Nat} (below : i < n) : p.slotLength (-i) = -1 ↔ i ∉ extents.map Prod.fst := by
  refine ⟨?_,valid.free i below⟩
  intro minus live
  obtain ⟨⟨_,bytes⟩,member,rfl⟩ := List.mem_map.mp live
  have length := valid.length_of member
  dsimp only at minus
  omega

theorem Layout.findFree_spec {p : Page} {n : Nat} {extents : Extents} (valid : Layout p n extents)
    (turns k : Nat) (reach : k + turns = n) :
    ∃ f : Nat, p.findFree turns (-k) = -(f : Int) ∧ k ≤ f ∧ f ≤ n ∧ f ∉ extents.map Prod.fst ∧
      ∀ j, k ≤ j → j < f → j ∈ extents.map Prod.fst := by
  induction turns generalizing k with
  | zero =>
    refine ⟨k,rfl,Nat.le_refl _,by omega,?_,by omega⟩
    intro live
    obtain ⟨e,member,rfl⟩ := List.mem_map.mp live
    have := valid.bound e member
    omega
  | succ turns ih =>
    by_cases free : p.slotLength (-k) = -1
    · refine ⟨k,by simp [findFree,free],Nat.le_refl _,by omega,(valid.free_iff (by omega)).mp free,by omega⟩
    · obtain ⟨f,found,low,high,dead,occupied⟩ := ih (k+1) (by omega)
      refine ⟨f,?_,by omega,high,dead,?_⟩
      · rw [findFree,if_neg free,← found]
        congr 1
        omega
      · intro j from_k to_f
        rcases Nat.lt_or_eq_of_le from_k with later | rfl
        · exact occupied j later to_f
        · by_contra missing
          exact free ((valid.free_iff (by omega)).mpr missing)


-- The words an insert at slot i writes, over whatever it did to the counters before.
def write (p : Page) (i : Int) (bytes : List UInt8) : Page :=
  let q := (p.setSlotOffset i p.freePtr).setSlotLength i bytes.length
  let q := q.copyIn q.freePtr bytes
  q.setFreePtr (q.freePtr + bytes.length)

theorem write_fields {p : Page} {i : Nat} {ptr : Nat} (bytes : List UInt8) (start : p.freePtr = ptr)
    (room : ptr + bytes.length ≤ 1004 - 4 * i) (deep : i ≤ 250) :
    (p.write (-i) bytes).slotCnt = p.slotCnt ∧ (p.write (-i) bytes).freeSpace = p.freeSpace ∧
    (p.write (-i) bytes).freePtr = ptr + bytes.length ∧
    (p.write (-i) bytes).nextPage = p.nextPage ∧ (p.write (-i) bytes).curPage = p.curPage ∧
    (p.write (-i) bytes).slotOffset (-i) = ptr ∧ (p.write (-i) bytes).slotLength (-i) = bytes.length := by
  have same : ((p.setSlotOffset (-i) ptr).setSlotLength (-i) bytes.length).freePtr = ptr := by
    simp (disch := omega) only [freePtr,setSlotOffset,setSlotLength,word_setWord_apart]
    exact start
  have whole : p.write (-i) bytes = (((p.setSlotOffset (-i) ptr).setSlotLength (-i) bytes.length).copyIn ptr
    bytes).setFreePtr
      (ptr + bytes.length) := by
    have moved : (((p.setSlotOffset (-i) ptr).setSlotLength (-i) bytes.length).copyIn ptr bytes).freePtr = ptr := by
      rw [freePtr,copyIn,word_store_apart (by omega)]
      exact same
    simp only [write,start,same,moved]
  rw [whole]
  refine ⟨?_,?_,?_,?_,?_,?_,?_⟩
  all_goals
    simp (disch := omega) only [slotCnt,freeSpace,freePtr,nextPage,curPage,slotOffset,slotLength,setFreePtr,copyIn,
      setSlotOffset,setSlotLength,word_setWord_apart,word_store_apart,word_setWord,short_bmod]


theorem write_elsewhere {p : Page} {i j : Nat} {ptr : Nat} (bytes : List UInt8) (start : p.freePtr = ptr)
    (deep : i ≤ 250) (shallow : j ≤ 250)
    (above : ptr + bytes.length ≤ 1004 - 4 * j) (other : j ≠ i) :
    (p.write (-i) bytes).slotOffset (-j) = p.slotOffset (-j) ∧
    (p.write (-i) bytes).slotLength (-j) = p.slotLength (-j) := by
  have same : ((p.setSlotOffset (-i) ptr).setSlotLength (-i) bytes.length).freePtr = ptr := by
    simp (disch := omega) only [freePtr,setSlotOffset,setSlotLength,word_setWord_apart]
    exact start
  refine ⟨?_,?_⟩
  all_goals
    simp only [write,start,same]
    simp (disch := omega) only [slotOffset,slotLength,setFreePtr,copyIn,
      setSlotOffset,setSlotLength,word_setWord_apart,word_store_apart]

theorem write_bytes {p : Page} {i : Nat} {ptr : Nat} {bytes : List UInt8} (start : p.freePtr = ptr)
    (room : ptr + bytes.length ≤ 1004 - 4 * i) (deep : i ≤ 250) :
    (p.write (-i) bytes).copyOut 0 (ptr + bytes.length) = p.copyOut 0 ptr ++ bytes := by
  have same : ((p.setSlotOffset (-i) ptr).setSlotLength (-i) bytes.length).freePtr = ptr := by
    simp (disch := omega) only [freePtr,setSlotOffset,setSlotLength,word_setWord_apart]
    exact start
  simp only [write,start,same,copyOut,load_append]
  refine congrArg₂ (· ++ ·) ?_ ?_
  · simp (disch := omega) only [setFreePtr,copyIn,setSlotOffset,setSlotLength,load_setWord_apart,load_store_apart]
  · simp only [setFreePtr,copyIn,Int.zero_add]
    rw [load_setWord_apart (by omega),load_store (by omega) (by omega)]

theorem insertRecord_room {p : Page} (bytes : List UInt8) {i : Int}
    (room : bytes.length + (slotSize : Int) ≤ p.freeSpace)
    (found : p.findFree (-p.slotCnt).toNat 0 = i) :
    p.insertRecord (.of bytes) =
      let base := if i = p.slotCnt then (p.setFreeSpace (p.freeSpace - (bytes.length + slotSize))).setSlotCnt
        (p.slotCnt - 1)
        else p.setFreeSpace (p.freeSpace - bytes.length)
      (.ok,some ⟨(base.write i bytes).curPage,-i⟩,base.write i bytes) := by
  subst i
  simp [insertRecord,Record.of,Int.not_lt.mpr room,write]

theorem insertRecord_full {p : Page} {bytes : List UInt8} (full : p.freeSpace < bytes.length + (slotSize : Int)) :
    p.insertRecord (.of bytes) = (.noSpace,none,p) := by
  simp [insertRecord,Record.of,full]

theorem Layout.insert_spec {p : Page} {n : Nat} {extents : Extents} (valid : Layout p n extents)
    (bytes : List UInt8) (room : slotSize * n + size extents + bytes.length + slotSize ≤ dataSize) :
    ∃ f : Nat, f ≤ n ∧ f ∉ extents.map Prod.fst ∧ (∀ j < f, j ∈ extents.map Prod.fst) ∧
      ∃ q : Page, p.insertRecord (.of bytes) = (.ok,some ⟨p.curPage,f⟩,q) ∧
      Layout q (max n (f+1)) (extents ++ [(f,bytes)]) ∧ q.curPage = p.curPage ∧ q.nextPage = p.nextPage := by
  obtain ⟨f,found,_,high,dead,occupied⟩ := valid.findFree_spec n 0 (by simp)
  refine ⟨f,high,dead,fun j below => occupied j (Nat.zero_le _) below,?_⟩
  simp only [dataSize_eq,slotSize_eq] at room
  have space := valid.space
  have slots := valid.slots
  simp only [dataSize_eq,slotSize_eq] at space
  -- Only the counters differ between taking a new slot and reusing a freed one.
  obtain ⟨base,data,counted,ptr,left,inserted⟩ : ∃ base : Page, SameData p base ∧
      base.slotCnt = -(max n (f+1) : Nat) ∧ base.freePtr = size extents ∧
      base.freeSpace = 1004 - 4 * (max n (f+1) : Nat) - (size extents + bytes.length) ∧
      p.insertRecord (.of bytes) = (.ok,some ⟨(base.write (-f) bytes).curPage,f⟩,base.write (-f) bytes) := by
    have search : p.findFree (-p.slotCnt).toNat 0 = -f := by
      rw [slots,Int.neg_neg,Int.toNat_natCast]; simpa using found
    have step := insertRecord_room bytes (by simp only [slotSize_eq]; omega) search
    rcases Nat.lt_or_eq_of_le high with reused | fresh
    · rw [if_neg (by omega)] at step
      have counters := setFreeSpace_counters p (v:=p.freeSpace - bytes.length) (by omega) (by omega)
      refine ⟨_,setFreeSpace_sameData _ _,?_,?_,?_,by simpa using step⟩
      · rw [counters.1,slots]; omega
      · rw [counters.2.1,valid.ptr]
      · rw [counters.2.2,space]; omega
    · rw [if_pos (by omega)] at step
      have counters := setFreeSpace_counters p (v:=p.freeSpace - (bytes.length + slotSize))
        (by simp only [slotSize_eq]; omega) (by simp only [slotSize_eq]; omega)
      have more := setSlotCnt_counters (p.setFreeSpace (p.freeSpace - (bytes.length + slotSize))) (v:=p.slotCnt - 1)
        (by omega) (by omega)
      refine ⟨_,(setFreeSpace_sameData _ _).trans (setSlotCnt_sameData _ _),?_,?_,?_,by simpa using step⟩
      · rw [more.1,slots]; omega
      · rw [more.2.1,counters.2.1,valid.ptr]
      · rw [more.2.2,counters.2.2,space]; simp only [slotSize_eq]; omega
  have fields := write_fields bytes ptr (i:=f) (by omega) (by omega)
  obtain ⟨cnt,free,moved,next,cur,offset,length⟩ := fields
  have others : ∀ j : Nat, j < max n (f+1) → j ≠ f →
      (base.write (-f) bytes).slotOffset (-j) = p.slotOffset (-j) ∧
      (base.write (-f) bytes).slotLength (-j) = p.slotLength (-j) := by
    intro j bound other
    have kept := write_elsewhere bytes ptr (i:=f) (j:=j) (by omega) (by omega) (by omega) other
    have same := data.slot j (by omega)
    exact ⟨kept.1.trans same.1,kept.2.trans same.2⟩
  refine ⟨base.write (-f) bytes,by rw [inserted,cur,data.curPage],?_,cur.trans data.curPage,next.trans data.nextPage⟩
  refine ⟨?_,?_,?_,?_,?_,?_,?_,?_,?_⟩
  · rw [cnt,counted]
  · rw [moved]; simp
  · rw [free,left]; simp [dataSize_eq,slotSize_eq]; 
  · simp [dataSize_eq,slotSize_eq]; omega
  · rw [List.map_append,List.nodup_append]
    refine ⟨valid.nodup,by simp,?_⟩
    intro i old j new equal
    rw [List.map_singleton,List.mem_singleton] at new
    exact dead (by rw [equal,new] at old; exact old)
  · intro e member
    rcases List.mem_append.mp member with old | new
    · have := valid.bound e old; omega
    · rw [List.mem_singleton] at new; subst e; simp
  · intro i bound missing
    rw [List.map_append,List.mem_append,not_or] at missing
    have other : i ≠ f := by simpa using missing.2
    rw [(others i bound other).2]
    exact valid.free i (by omega) missing.1
  · intro before e after split
    rcases List.eq_nil_or_concat after with last | ⟨most,final,rfl⟩
    · subst after
      obtain ⟨rfl,same⟩ := List.append_inj' split rfl
      cases same
      exact ⟨offset,length⟩
    · rw [List.concat_eq_append,← List.cons_append,← List.append_assoc] at split
      obtain ⟨old,_⟩ := List.append_inj' split rfl
      have member : e ∈ extents := by rw [old]; simp
      have other : e.1 ≠ f := fun equal => dead (equal ▸ List.mem_map_of_mem member)
      have kept := others e.1 (by have := valid.bound e member; omega) other
      rw [kept.1,kept.2]
      exact valid.placed before e most old
  · rw [size_append,size_cons,size_nil,Nat.add_zero,write_bytes ptr (by omega) (by omega),data.bytes _ (by omega),
      valid.bytes,List.flatMap_append,List.flatMap_singleton]

-- What the offset-adjust loop has done after `turns` of its turns.
structure Shifted (p q : Page) (target : Nat) (recLen : Int) (turns : Nat) : Prop where
  length : ∀ j : Nat, j ≤ 250 → q.slotLength (-j) = p.slotLength (-j)
  offset : ∀ j : Nat, j ≤ 250 → q.slotOffset (-j) =
    if j < turns ∧ p.slotLength (-j) ≥ 0 ∧ p.slotOffset (-j) > p.slotOffset (-target) then p.slotOffset (-j) - recLen
    else p.slotOffset (-j)
  bytes : ∀ count : Nat, count + slotSize * turns ≤ dataSize + slotSize → q.copyOut 0 count = p.copyOut 0 count
  slotCnt : q.slotCnt = p.slotCnt
  freePtr : q.freePtr = p.freePtr
  freeSpace : q.freeSpace = p.freeSpace
  curPage : q.curPage = p.curPage
  nextPage : q.nextPage = p.nextPage

theorem shiftOffsets_spec {p : Page} {i : Nat} {r : Int} (turns : Nat) (few : turns ≤ 251) (low : i ≤ 250)
    (range : ∀ j : Nat, j < turns → p.slotLength (-j) ≥ 0 → p.slotOffset (-j) > p.slotOffset (-i) →
      -32768 ≤ p.slotOffset (-j) - r ∧ p.slotOffset (-j) - r < 32768) :
    Shifted p (shiftOffsets (-i) r turns p) i r turns := by
  induction turns with
  | zero => exact ⟨fun _ _ => rfl,by simp [shiftOffsets],fun _ _ => rfl,rfl,rfl,rfl,rfl,rfl⟩
  | succ turns ih =>
    have prior := ih (by omega) (fun j below => range j (by omega))
    -- The slot being deleted keeps its offset, so every turn compares with the same one.
    have pivot : (shiftOffsets (-i) r turns p).slotOffset (-i) = p.slotOffset (-i) := by
      rw [prior.offset i low,if_neg (by omega)]
    have current : (shiftOffsets (-i) r turns p).slotOffset (-turns) = p.slotOffset (-turns) := by
      rw [prior.offset turns (by omega),if_neg (by omega)]
    simp only [shiftOffsets,pivot,current,prior.length turns (by omega)]
    by_cases moves : p.slotLength (-turns) ≥ 0 ∧ p.slotOffset (-turns) > p.slotOffset (-i)
    · rw [if_pos moves]
      obtain ⟨small,large⟩ := range turns (by omega) moves.1 moves.2
      obtain ⟨cnt,ptr,space,cur,next⟩ := setSlotOffset_header (shiftOffsets (-i) r turns p)
        (p.slotOffset (-turns) - r) (i:=turns) (by omega)
      have slot := fun j : Nat => setSlotOffset_slot (shiftOffsets (-i) r turns p)
        (v:=p.slotOffset (-turns) - r) (i:=turns) (j:=j) (by omega) small large
      refine ⟨fun j bound => (slot j).2.trans (prior.length j bound),?_,?_,cnt.trans prior.slotCnt,
        ptr.trans prior.freePtr,
        space.trans prior.freeSpace,cur.trans prior.curPage,next.trans prior.nextPage⟩
      · intro j bound
        rw [(slot j).1]
        rcases eq_or_ne j turns with rfl | other
        · rw [if_pos rfl,if_pos ⟨by omega,moves⟩]
        · have same : j < turns + 1 ↔ j < turns := by omega
          rw [if_neg other,prior.offset j bound]
          simp only [same]
      · intro count room
        rw [← prior.bytes count (by simp only [slotSize_eq] at room ⊢; omega)]
        exact load_setWord_apart (.inl (by simp only [slotSize_eq,dataSize_eq] at room; omega))
    · rw [if_neg moves]
      refine ⟨prior.length,?_,?_,prior.slotCnt,prior.freePtr,prior.freeSpace,prior.curPage,prior.nextPage⟩
      · intro j bound
        rw [prior.offset j bound]
        rcases eq_or_ne j turns with rfl | other
        · rw [if_neg (by omega),if_neg (fun all => moves all.2)]
        · have same : j < turns + 1 ↔ j < turns := by omega
          simp only [same]
      · intro count room
        exact prior.bytes count (by simp only [slotSize_eq] at room ⊢; omega)

theorem popSlot_spec {p : Page} {n : Nat} (few : n + 1 ≤ 251) (slots : p.slotCnt = -(n + 1 : Nat))
    (low : 0 ≤ p.freeSpace) (high : p.freeSpace ≤ 1004) :
    let q := (p.setSlotCnt (p.slotCnt + 1)).setFreeSpace (p.freeSpace + slotSize)
    SameData p q ∧ q.slotCnt = -n ∧ q.freePtr = p.freePtr ∧ q.freeSpace = p.freeSpace + 4 := by
  have cnt := setSlotCnt_counters p (v:=p.slotCnt + 1) (by omega) (by omega)
  have room := setFreeSpace_counters (p.setSlotCnt (p.slotCnt + 1)) (v:=p.freeSpace + slotSize)
    (by simp only [slotSize_eq]; omega) (by simp only [slotSize_eq]; omega)
  refine ⟨(setSlotCnt_sameData _ _).trans (setFreeSpace_sameData _ _),?_,room.2.1.trans cnt.2.1,?_⟩
  · rw [room.1,cnt.1,slots]; omega
  · rw [room.2.2]; rfl

theorem popSlots_spec {p : Page} (turns : Nat) {n : Nat} (enough : n ≤ turns) (few : n + 1 ≤ 251)
    (slots : p.slotCnt = -(n + 1 : Nat)) (low : 0 ≤ p.freeSpace) (high : p.freeSpace + 4 * n ≤ 1004) :
    ∃ m : Nat, m ≤ n ∧ SameData p (popSlots turns p) ∧ (popSlots turns p).slotCnt = -m ∧
      (popSlots turns p).freePtr = p.freePtr ∧ (popSlots turns p).freeSpace = p.freeSpace + 4 * (n + 1 - m : Nat) ∧
      (∀ j : Nat, m ≤ j → j < n → p.slotLength (-j) = -1) ∧ (m = 0 ∨ p.slotLength (-(m - 1 : Nat)) ≠ -1) := by
  induction turns generalizing p n with
  | zero =>
    obtain ⟨data,cnt,ptr,space⟩ := popSlot_spec few slots low (by omega)
    exact ⟨n,Nat.le_refl _,data,cnt,ptr,by rw [popSlots,space]; omega,by omega,.inl (by omega)⟩
  | succ turns ih =>
    obtain ⟨data,cnt,ptr,space⟩ := popSlot_spec few slots low (by omega)
    rw [popSlots]
    generalize (p.setSlotCnt (p.slotCnt + 1)).setFreeSpace (p.freeSpace + slotSize) = q at data cnt ptr space
    by_cases again : q.slotCnt < 0 ∧ q.slotLength (q.slotCnt + 1) = -1
    · rw [if_pos again]
      obtain ⟨k,rfl⟩ : ∃ k, n = k + 1 := ⟨n-1,by omega⟩
      have top : q.slotLength (-k) = -1 := by
        have here := again.2
        rw [cnt,show (-(k + 1 : Nat) : Int) + 1 = -k by omega] at here
        exact here
      obtain ⟨m,below,data',cnt',ptr',space',dead,live⟩ :=
        ih (p:=q) (n:=k) (by omega) (by omega) cnt (by omega) (by omega)
      have same : ∀ j : Nat, j ≤ 250 → q.slotLength (-j) = p.slotLength (-j) := fun j bound => (data.slot j bound).2
      refine ⟨m,by omega,data.trans data',cnt',ptr'.trans ptr,by rw [space',space]; omega,?_,?_⟩
      · intro j from_m below_n
        rw [← same j (by omega)]
        rcases Nat.lt_or_eq_of_le (Nat.lt_succ_iff.mp below_n) with less | rfl
        · exact dead j from_m less
        · exact top
      · rw [← same (m-1) (by omega)]
        exact live
    · rw [if_neg again]
      refine ⟨n,Nat.le_refl _,data,cnt,ptr,by rw [space]; omega,by omega,?_⟩
      by_cases none_left : n = 0
      · exact .inl none_left
      · refine .inr fun free => again ⟨by omega,?_⟩
        rw [cnt,show (-n : Int) + 1 = -(n - 1 : Nat) by omega,(data.slot (n-1) (by omega)).2]
        exact free

theorem deleteRecord_dead {p : Page} {rid : RID} (dead : ¬ (-rid.slotNo > p.slotCnt ∧ p.slotLength (-rid.slotNo) > 0)) :
    p.deleteRecord rid = (.invalidSlotNo,p) := by
  simp only [deleteRecord,if_neg dead]

theorem length_flatMap_snd (extents : Extents) : (extents.flatMap Prod.snd).length = size extents := by
  simp [size,List.length_flatMap]

theorem Layout.offset_range {p : Page} {n j : Nat} {extents : Extents} (valid : Layout p n extents)
    (below : j < n) (used : p.slotLength (-j) ≥ 0) : 0 ≤ p.slotOffset (-j) ∧ p.slotOffset (-j) ≤ 1004 := by
  have live : j ∈ extents.map Prod.fst := by
    by_contra missing
    have := valid.free j below missing
    omega
  obtain ⟨e,member,rfl⟩ := List.mem_map.mp live
  obtain ⟨l,r,split⟩ := List.append_of_mem member
  have placed := (valid.placed l e r split).1
  have fits := valid.fits
  rw [split,size_append,size_cons,dataSize_eq] at fits
  omega

theorem Layout.split_bytes {p : Page} {n i : Nat} {bytes : List UInt8} {before after : Extents}
    (valid : Layout p n (before ++ (i,bytes)::after)) :
    p.copyOut 0 (size before) = before.flatMap Prod.snd ∧ p.copyOut (size before) bytes.length = bytes ∧
    p.copyOut (size before + bytes.length : Nat) (size after) = after.flatMap Prod.snd := by
  have all := valid.bytes
  rw [size_append,size_cons,copyOut,load_append,load_append,List.flatMap_append,List.flatMap_cons,Int.zero_add] at all
  obtain ⟨first,rest⟩ := List.append_inj all (by rw [length_load,length_flatMap_snd])
  obtain ⟨mid,last⟩ := List.append_inj rest (length_load _ _ _)
  exact ⟨first,mid,by rw [copyOut,Nat.cast_add]; exact last⟩

-- Closing the hole: the bytes after the record move down and the offsets of
-- exactly the extents behind it follow; both counters of the data area move too.
theorem Layout.compact_spec {p : Page} {n i : Nat} {bytes : List UInt8} {before after : Extents}
    (valid : Layout p n (before ++ (i,bytes)::after)) (positive : 0 < bytes.length) :
    let q := p.copyIn (size before) (p.copyOut (size before + bytes.length) (size after))
    let q := shiftOffsets (-i) bytes.length n q
    let q := q.setFreePtr (q.freePtr - bytes.length)
    let q := q.setFreeSpace (q.freeSpace + bytes.length)
    q.slotCnt = -n ∧ q.freePtr = size before + size after ∧
    q.freeSpace = dataSize - slotSize * n - (size before + size after) ∧
    q.curPage = p.curPage ∧ q.nextPage = p.nextPage ∧
    q.copyOut 0 (size before + size after) = before.flatMap Prod.snd ++ after.flatMap Prod.snd ∧
    (∀ j : Nat, j < n → q.slotLength (-j) = p.slotLength (-j)) ∧
    (∀ l e r, before = l ++ e::r → q.slotOffset (-e.1) = size l) ∧
    (∀ l e r, after = l ++ e::r → q.slotOffset (-e.1) = size before + size l) := by
  have fits := valid.fits
  have deep := valid.bound (i,bytes) (by simp)
  have space := valid.space
  have ptr := valid.ptr
  obtain ⟨first,_,last⟩ := valid.split_bytes
  rw [size_append,size_cons,dataSize_eq,slotSize_eq] at fits
  rw [size_append,size_cons] at space ptr
  dsimp only at fits space ptr deep
  simp only [slotSize_eq,dataSize_eq] at space deep ⊢
  -- The moved bytes stay below the slot array.
  have moved : (p.copyOut (size before + bytes.length) (size after)).length = size after := length_load _ _ _
  have slots : ∀ j : Nat, j < n →
      (p.copyIn (size before) (p.copyOut (size before + bytes.length) (size after))).slotOffset (-j) =
      p.slotOffset (-j) ∧
      (p.copyIn (size before) (p.copyOut (size before + bytes.length) (size after))).slotLength (-j) =
      p.slotLength (-j) := by
    intro j below
    exact ⟨word_store_apart (by omega),word_store_apart (by omega)⟩
  have header : ∀ a : Int, 1008 ≤ a → ∀ w : Nat,
      word (p.copyIn (size before) (p.copyOut (size before + bytes.length) (size after))) w a = word p w a :=
    fun a high w => word_store_apart (by omega)
  have low : (p.copyIn (size before) (p.copyOut (size before + bytes.length) (size after))).copyOut 0
    (size before + size after) =
      before.flatMap Prod.snd ++ after.flatMap Prod.snd := by
    rw [copyOut,load_append,← first,← last,Int.zero_add]
    refine congrArg₂ (· ++ ·) (load_store_apart (by omega)) ?_
    have back := load_store (m:=p) (a:=size before) (v:=p.copyOut (size before + bytes.length) (size after))
      (by omega) (by omega)
    rw [moved] at back
    rw [Nat.cast_add]
    exact back
  generalize p.copyIn (size before) (p.copyOut (size before + bytes.length) (size after)) = q at slots header low ⊢
  have pivot : q.slotOffset (-i) = size before := by
    rw [(slots i deep).1]
    exact (valid.placed before (i,bytes) after rfl).1
  have shifted := shiftOffsets_spec (p:=q) (i:=i) (r:=bytes.length) n (by omega) (by omega) (by
    intro j below used behind
    rw [(slots j below).2] at used
    rw [(slots j below).1]
    have := valid.offset_range below used
    omega)
  generalize shiftOffsets (-i) bytes.length n q = q₂ at shifted ⊢
  have ptr₂ : q₂.freePtr = size before + (bytes.length + size after) := by
    rw [shifted.freePtr,freePtr,header 1010 (by decide),← freePtr,ptr]; omega
  have space₂ : q₂.freeSpace = 1004 - 4 * n - (size before + (bytes.length + size after)) := by
    rw [shifted.freeSpace,freeSpace,header 1012 (by decide),← freeSpace,space]; omega
  have step₃ := setFreePtr_counters q₂ (v:=q₂.freePtr - bytes.length) (by omega) (by omega)
  have data₃ := setFreePtr_sameData q₂ (q₂.freePtr - bytes.length)
  generalize q₂.setFreePtr (q₂.freePtr - bytes.length) = q₃ at step₃ data₃ ⊢
  have space₃ : q₃.freeSpace = 1004 - 4 * n - (size before + (bytes.length + size after)) := step₃.2.2.trans space₂
  have step₄ := setFreeSpace_counters q₃ (v:=q₃.freeSpace + bytes.length) (by omega) (by omega)
  have data₄ := setFreeSpace_sameData q₃ (q₃.freeSpace + bytes.length)
  generalize q₃.setFreeSpace (q₃.freeSpace + bytes.length) = q₄ at step₄ data₄ ⊢
  have data := data₃.trans data₄
  refine ⟨?_,?_,?_,?_,?_,?_,?_,?_,?_⟩
  · rw [step₄.1,step₃.1,shifted.slotCnt,slotCnt,header 1008 (by decide),← slotCnt,valid.slots]
  · rw [step₄.2.1,step₃.2.1,ptr₂]; omega
  · rw [step₄.2.2,space₃]; omega
  · rw [data.curPage,shifted.curPage,curPage,header 1020 (by decide),← curPage]
  · rw [data.nextPage,shifted.nextPage,nextPage,header 1016 (by decide),← nextPage]
  · rw [data.bytes _ (by omega),shifted.bytes _ (by simp only [slotSize_eq,dataSize_eq]; omega),low]
  · intro j below
    rw [(data.slot j (by omega)).2,shifted.length j (by omega),(slots j below).2]
  · rintro l e r rfl
    have below := valid.bound e (by simp)
    rw [(data.slot e.1 (by omega)).1,shifted.offset e.1 (by omega),pivot,(slots e.1 below).1,
      (valid.placed l e (r ++ (i,bytes)::after) (by simp)).1,if_neg]
    rw [size_append]
    omega
  · rintro l e r rfl
    have below := valid.bound e (by simp)
    have placed := valid.placed (before ++ (i,bytes)::l) e r (by simp)
    rw [(data.slot e.1 (by omega)).1,shifted.offset e.1 (by omega),pivot,(slots e.1 below).1,(slots e.1 below).2,
      placed.1,placed.2,
      size_append,size_cons,if_pos (by dsimp only; omega)]
    dsimp only
    omega

theorem mem_middle {before after : Extents} {x e : Nat × List UInt8} (member : e ∈ before ++ after) :
    e ∈ before ++ x::after := by
  rcases List.mem_append.mp member with left | right
  · exact List.mem_append_left _ left
  · exact List.mem_append_right _ (List.mem_cons_of_mem _ right)

theorem missing_middle {before after : Extents} {x : Nat × List UInt8} {j : Nat}
    (missing : j ∉ (before ++ after).map Prod.fst) (other : j ≠ x.1) : j ∉ (before ++ x::after).map Prod.fst := by
  intro live
  obtain ⟨e,member,rfl⟩ := List.mem_map.mp live
  rcases List.mem_append.mp member with left | right
  · exact missing (List.mem_map_of_mem (List.mem_append_left _ left))
  · rcases List.mem_cons.mp right with rfl | tail
    · exact other rfl
    · exact missing (List.mem_map_of_mem (List.mem_append_right _ tail))

theorem Layout.others {p : Page} {n : Nat} {x : Nat × List UInt8} {before after : Extents}
    (valid : Layout p n (before ++ x::after)) {e : Nat × List UInt8} (member : e ∈ before ++ after) : e.1 ≠ x.1 ∧
    e.1 < n := by
  have nodup := valid.nodup
  rw [List.map_append,List.map_cons,List.nodup_middle,← List.map_append] at nodup
  exact ⟨fun equal => (List.nodup_cons.mp nodup).1 (equal ▸ List.mem_map_of_mem member),valid.bound e
    (mem_middle member)⟩

-- Dropping an extent leaves a layout as soon as the slots are settled: the
-- count, the mark on every slot without a record, and the untouched live slots.
theorem Layout.of_compacted {p q : Page} {n m i : Nat} {bytes : List UInt8} {before after : Extents}
    (valid : Layout p n (before ++ (i,bytes)::after)) (fewer : m ≤ n) (slots : q.slotCnt = -m)
    (ptr : q.freePtr = size before + size after) (space : q.freeSpace =
      dataSize - slotSize * m - (size before + size after))
    (data : q.copyOut 0 (size before + size after) = before.flatMap Prod.snd ++ after.flatMap Prod.snd)
    (kept : ∀ j < n, j ≠ i → q.slotLength (-j) = p.slotLength (-j))
    (freed : i < m → q.slotLength (-i) = -1) (live : ∀ e ∈ before ++ after, e.1 < m)
    (low : ∀ l e r, before = l ++ e::r → q.slotOffset (-e.1) = size l)
    (high : ∀ l e r, after = l ++ e::r → q.slotOffset (-e.1) = size before + size l) : Layout q m (before ++ after) := by
  have fits := valid.fits
  have nodup := valid.nodup
  rw [size_append,size_cons,dataSize_eq,slotSize_eq] at fits
  dsimp only at fits
  rw [List.map_append,List.map_cons,List.nodup_middle] at nodup
  have lengths : ∀ e ∈ before ++ after, q.slotLength (-e.1) = e.2.length := by
    intro e member
    rw [kept e.1 (valid.others member).2 (valid.others member).1]
    exact valid.length_of (mem_middle member)
  refine ⟨slots,by rw [ptr,size_append,Nat.cast_add],by rw [space,size_append,Nat.cast_add],?_,?_,live,?_,?_,?_⟩
  · rw [size_append,dataSize_eq,slotSize_eq]; omega
  · rw [List.map_append]; exact (List.nodup_cons.mp nodup).2
  · intro j below missing
    rcases eq_or_ne j i with rfl | other
    · exact freed below
    · rw [kept j (by omega) other]
      exact valid.free j (by omega) (missing_middle missing other)
  · intro l e r split
    refine ⟨?_,lengths e (by rw [split]; simp)⟩
    rcases List.append_eq_append_iff.mp split with ⟨mid,rfl,tail⟩ | ⟨mid,rfl,tail⟩
    · rw [high mid e r tail,size_append,Nat.cast_add]
    · cases mid with
      | nil => simpa using high [] e r (by simpa using tail.symm)
      | cons x mid =>
        obtain ⟨rfl,_⟩ := List.cons.inj tail
        exact low l e mid rfl
  · rw [size_append,data,List.flatMap_append]

theorem Layout.delete_spec {p : Page} {n i : Nat} {bytes : List UInt8} {before after : Extents} (pageNo : Int)
    (valid : Layout p n (before ++ (i,bytes)::after)) (positive : 0 < bytes.length) :
    ∃ (m : Nat) (q : Page), p.deleteRecord ⟨pageNo,i⟩ = (.ok,q) ∧ Layout q m (before ++ after) ∧
      m ≤ n ∧ (i + 1 < n → m = n) ∧ (i + 1 = n → m = 0 ∨ m - 1 ∈ (before ++ after).map Prod.fst) ∧
      q.curPage = p.curPage ∧ q.nextPage = p.nextPage := by
  have fits := valid.fits
  have deep := valid.bound (i,bytes) (by simp)
  have slots := valid.slots
  have ptr := valid.ptr
  have offset := (valid.placed before (i,bytes) after rfl).1
  have length := (valid.placed before (i,bytes) after rfl).2
  rw [size_append,size_cons,dataSize_eq,slotSize_eq] at fits
  rw [size_append,size_cons] at ptr
  dsimp only at fits deep offset length ptr
  have cnt : (p.freePtr - (size before + bytes.length)).toNat = size after := by rw [ptr]; omega
  have loops : (-(p.copyIn (size before) (p.copyOut (size before + bytes.length) (size after))).slotCnt).toNat = n := by
    have same : (p.copyIn (size before) (p.copyOut (size before + bytes.length) (size after))).slotCnt = p.slotCnt :=
      word_store_apart (.inr (by rw [copyOut,length_load]; omega))
    rw [same,slots]; omega
  have alive : -(i : Int) > p.slotCnt ∧ (bytes.length : Int) > 0 := by rw [slots]; omega
  obtain ⟨cnt₄,ptr₄,space₄,cur₄,next₄,bytes₄,length₄,low₄,high₄⟩ := valid.compact_spec positive
  simp only [deleteRecord,if_pos alive,offset,length,cnt,loops]
  generalize (shiftOffsets (-i) bytes.length n (p.copyIn (size before)
    (p.copyOut (size before + bytes.length) (size after)))) = q₂
    at cnt₄ ptr₄ space₄ cur₄ next₄ bytes₄ length₄ low₄ high₄ ⊢
  generalize q₂.setFreePtr (q₂.freePtr - bytes.length) = q₃ at cnt₄ ptr₄ space₄ cur₄ next₄ bytes₄ length₄ low₄ high₄ ⊢
  generalize q₃.setFreeSpace (q₃.freeSpace + bytes.length) = q₄ at cnt₄ ptr₄ space₄ cur₄ next₄ bytes₄ length₄ low₄ high₄ ⊢
  rw [dataSize_eq,slotSize_eq] at space₄
  by_cases last : i + 1 = n
  · -- The slot array ends here: the slot and every free one before it go.
    rw [if_pos (by rw [cnt₄]; omega)]
    obtain ⟨m,below,data,cnt₅,ptr₅,space₅,dead,top⟩ := popSlots_spec (p:=q₄) (-q₄.slotCnt).toNat (n:=i)
      (by rw [cnt₄]; omega) (by omega) (by rw [cnt₄]; omega) (by omega) (by omega)
    generalize popSlots (-q₄.slotCnt).toNat q₄ = q₅ at data cnt₅ ptr₅ space₅ dead top ⊢
    have live : ∀ e ∈ before ++ after, e.1 < m := by
      intro e member
      obtain ⟨other,bound⟩ := valid.others member
      dsimp only at other
      by_contra beyond
      have free := dead e.1 (by omega) (by omega)
      rw [length₄ e.1 bound,valid.length_of (mem_middle member)] at free
      omega
    refine ⟨m,q₅,rfl,?_,by omega,by omega,?_,data.curPage.trans cur₄,data.nextPage.trans next₄⟩
    · refine valid.of_compacted (by omega) cnt₅ (ptr₅.trans ptr₄) ?_ ?_ ?_
        (fun above => absurd above (Nat.not_lt.mpr below)) live ?_ ?_
      · rw [space₅,space₄,dataSize_eq,slotSize_eq]; omega
      · rw [data.bytes _ (by omega),bytes₄]
      · intro j below_n _
        rw [(data.slot j (by omega)).2,length₄ j below_n]
      · rintro l e r rfl
        have := live e (by simp)
        rw [(data.slot e.1 (by omega)).1,low₄ l e r rfl]
      · rintro l e r rfl
        have := live e (by simp)
        rw [(data.slot e.1 (by omega)).1,high₄ l e r rfl]
    · intro _
      rcases top with none_left | occupied
      · exact .inl none_left
      · by_cases none_left : m = 0
        · exact .inl none_left
        right
        by_contra missing
        apply occupied
        rw [length₄ (m-1) (by omega)]
        exact valid.free (m-1) (by omega) (missing_middle missing (by dsimp only; omega))
  · -- A hole in the middle: the slot stays, marked free.
    rw [if_neg (by rw [cnt₄]; omega)]
    have slot₅ := fun j : Nat => setSlotLength_slot q₄ (i:=i) (j:=j) (v:=-1) (by omega) (by omega) (by omega)
    have header₅ := setSlotLength_header q₄ (i:=i) (-1) (by omega)
    have bytes₅ : (q₄.setSlotLength (-i) (-1)).copyOut 0 (size before + size after) =
        q₄.copyOut 0 (size before + size after) :=
      load_setWord_apart (.inl (by omega))
    generalize q₄.setSlotLength (-i) (-1) = q₅ at slot₅ header₅ bytes₅ ⊢
    have slot₆ := fun j : Nat => setSlotOffset_slot q₅ (i:=i) (j:=j) (v:=0) (by omega) (by omega) (by omega)
    have header₆ := setSlotOffset_header q₅ (i:=i) 0 (by omega)
    have bytes₆ : (q₅.setSlotOffset (-i) 0).copyOut 0 (size before + size after) =
        q₅.copyOut 0 (size before + size after) :=
      load_setWord_apart (.inl (by omega))
    generalize q₅.setSlotOffset (-i) 0 = q₆ at slot₆ header₆ bytes₆ ⊢
    have apart : ∀ e ∈ before ++ after, e.1 ≠ i ∧ e.1 < n := fun e member => valid.others member
    refine ⟨n,q₆,rfl,?_,Nat.le_refl _,fun _ => rfl,fun equal => absurd equal last,?_,?_⟩
    · refine valid.of_compacted (Nat.le_refl _) ?_ ?_ ?_ ?_ ?_ ?_ (fun e member => (apart e member).2) ?_ ?_
      · rw [header₆.1,header₅.1,cnt₄]
      · rw [header₆.2.1,header₅.2.1,ptr₄]
      · rw [header₆.2.2.1,header₅.2.2.1,space₄,dataSize_eq,slotSize_eq]
      · rw [bytes₆,bytes₅,bytes₄]
      · intro j below other
        rw [(slot₆ j).2,(slot₅ j).2,if_neg other,length₄ j below]
      · intro _
        rw [(slot₆ i).2,(slot₅ i).2,if_pos rfl]
      · rintro l e r rfl
        rw [(slot₆ e.1).1,if_neg (apart e (by simp)).1,(slot₅ e.1).1,low₄ l e r rfl]
      · rintro l e r rfl
        rw [(slot₆ e.1).1,if_neg (apart e (by simp)).1,(slot₅ e.1).1,high₄ l e r rfl]
    · rw [header₆.2.2.2.1,header₅.2.2.2.1,cur₄]
    · rw [header₆.2.2.2.2,header₅.2.2.2.2,next₄]

end Minirel.Page
