import Minirel.Page

namespace Minirel.Page
open ByteMemory

theorem dataSize_eq : dataSize = 1004 := by decide
theorem slotSize_eq : slotSize = 4 := by decide

theorem short_bmod {v : Int} (low : -32768 ≤ v) (high : v < 32768) : Int.bmod v (256 ^ 2) = v :=
  Int.bmod_eq_of_le_mul_two (by omega) (by omega)

theorem int_bmod {v : Int} (low : -2147483648 ≤ v) (high : v < 2147483648) : Int.bmod v (256 ^ 4) = v :=
  Int.bmod_eq_of_le_mul_two (by omega) (by omega)

-- Two pages that may differ in their counters only.
structure SameData (p q : Page) : Prop where
  slot : ∀ j : Nat, j ≤ 250 → q.slotOffset (-j) = p.slotOffset (-j) ∧ q.slotLength (-j) = p.slotLength (-j)
  bytes : ∀ count : Nat, count ≤ 1004 → q.copyOut 0 count = p.copyOut 0 count
  curPage : q.curPage = p.curPage
  nextPage : q.nextPage = p.nextPage

theorem SameData.trans {p q r : Page} (one : SameData p q) (two : SameData q r) : SameData p r :=
  ⟨fun j low => ⟨(two.slot j low).1.trans (one.slot j low).1,(two.slot j low).2.trans (one.slot j low).2⟩,
    fun count low => (two.bytes count low).trans (one.bytes count low),
    two.curPage.trans one.curPage,two.nextPage.trans one.nextPage⟩

-- Every counter is a short between the slot array and the page pointers.
theorem setShort_sameData (p : Page) {a v : Int} (low : 1008 ≤ a) (high : a ≤ 1012) : SameData p (setWord p 2 a v) := by
  refine ⟨?_,?_,?_,?_⟩
  · intro j bound
    simp (disch := omega) only [slotOffset,slotLength,word_setWord_apart,and_self]
  · intro count bound
    exact load_setWord_apart (.inl (by omega))
  all_goals simp (disch := omega) only [curPage,nextPage,word_setWord_apart]

theorem setSlotCnt_sameData (p : Page) (v : Int) : SameData p (p.setSlotCnt v) :=
  setShort_sameData p (by decide) (by decide)
theorem setFreePtr_sameData (p : Page) (v : Int) : SameData p (p.setFreePtr v) :=
  setShort_sameData p (by decide) (by decide)
theorem setFreeSpace_sameData (p : Page) (v : Int) : SameData p (p.setFreeSpace v) :=
  setShort_sameData p (by decide) (by decide)

theorem setSlotCnt_counters (p : Page) {v : Int} (low : -32768 ≤ v) (high : v < 32768) :
    (p.setSlotCnt v).slotCnt = v ∧ (p.setSlotCnt v).freePtr = p.freePtr ∧ (p.setSlotCnt v).freeSpace = p.freeSpace := by
  simp (disch := omega) only [setSlotCnt,slotCnt,freePtr,freeSpace,word_setWord_apart,word_setWord,short_bmod,and_self]
theorem setFreePtr_counters (p : Page) {v : Int} (low : -32768 ≤ v) (high : v < 32768) :
    (p.setFreePtr v).slotCnt = p.slotCnt ∧ (p.setFreePtr v).freePtr = v ∧ (p.setFreePtr v).freeSpace = p.freeSpace := by
  simp (disch := omega) only [setFreePtr,slotCnt,freePtr,freeSpace,word_setWord_apart,word_setWord,short_bmod,and_self]
theorem setFreeSpace_counters (p : Page) {v : Int} (low : -32768 ≤ v) (high : v < 32768) :
    (p.setFreeSpace v).slotCnt = p.slotCnt ∧ (p.setFreeSpace v).freePtr = p.freePtr ∧
    (p.setFreeSpace v).freeSpace = v := by
  simp (disch := omega) only [setFreeSpace,slotCnt,freePtr,freeSpace,word_setWord_apart,word_setWord,short_bmod,
    and_self]

theorem setSlotOffset_header (p : Page) {i : Nat} (v : Int) (deep : i ≤ 250) :
    (p.setSlotOffset (-i) v).slotCnt = p.slotCnt ∧ (p.setSlotOffset (-i) v).freePtr = p.freePtr ∧
    (p.setSlotOffset (-i) v).freeSpace = p.freeSpace ∧ (p.setSlotOffset (-i) v).curPage = p.curPage ∧
    (p.setSlotOffset (-i) v).nextPage = p.nextPage := by
  simp (disch := omega) only [setSlotOffset,slotCnt,freePtr,freeSpace,curPage,nextPage,word_setWord_apart,and_self]

theorem setSlotLength_header (p : Page) {i : Nat} (v : Int) (deep : i ≤ 250) :
    (p.setSlotLength (-i) v).slotCnt = p.slotCnt ∧ (p.setSlotLength (-i) v).freePtr = p.freePtr ∧
    (p.setSlotLength (-i) v).freeSpace = p.freeSpace ∧ (p.setSlotLength (-i) v).curPage = p.curPage ∧
    (p.setSlotLength (-i) v).nextPage = p.nextPage := by
  simp (disch := omega) only [setSlotLength,slotCnt,freePtr,freeSpace,curPage,nextPage,word_setWord_apart,and_self]

theorem setSlotOffset_slot (p : Page) {i j : Nat} {v : Int} (deep : i ≤ 250) (low : -32768 ≤ v) (high : v < 32768) :
    (p.setSlotOffset (-i) v).slotOffset (-j) = (if j = i then v else p.slotOffset (-j)) ∧
    (p.setSlotOffset (-i) v).slotLength (-j) = p.slotLength (-j) := by
  refine ⟨?_,word_setWord_apart (by omega)⟩
  rcases eq_or_ne j i with rfl | other
  · rw [if_pos rfl,slotOffset,setSlotOffset,word_setWord (by omega) (by omega),short_bmod low high]
  · rw [if_neg other]
    exact word_setWord_apart (by omega)

theorem setSlotLength_slot (p : Page) {i j : Nat} {v : Int} (deep : i ≤ 250) (low : -32768 ≤ v) (high : v < 32768) :
    (p.setSlotLength (-i) v).slotOffset (-j) = p.slotOffset (-j) ∧
    (p.setSlotLength (-i) v).slotLength (-j) = (if j = i then v else p.slotLength (-j)) := by
  refine ⟨word_setWord_apart (by omega),?_⟩
  rcases eq_or_ne j i with rfl | other
  · rw [if_pos rfl,slotLength,setSlotLength,word_setWord (by omega) (by omega),short_bmod low high]
  · rw [if_neg other]
    exact word_setWord_apart (by omega)

end Minirel.Page
