import Minirel.PageRuns

namespace Minirel.Page
open ByteMemory SlotDirectory

-- A slot in use that is not marked free, and the bytes of the data area it stands for.
def Live (p : Page) (i : Nat) : Prop := -(i : Int) > p.slotCnt ∧ p.slotLength (-i) ≠ -1
def Covers (p : Page) (i : Nat) (a : Int) : Prop := p.slotOffset (-i) ≤ a ∧ a < p.slotOffset (-i) + p.slotLength (-i)

structure Slotted (p : Page) : Prop where
  disjoint : ∀ i j a, p.Live i → p.Live j → p.Covers i a → p.Covers j a → i = j
  tiles : ∀ a, (0 ≤ a ∧ a < p.freePtr) ↔ ∃ i, p.Live i ∧ p.Covers i a
  accounted : p.freePtr + p.freeSpace + slotSize * -p.slotCnt = dataSize
  last : p.slotCnt < 0 → p.slotLength (p.slotCnt + 1) ≠ -1
  apart : p.slotCnt ≤ 0 ∧ p.freePtr ≤ dataSize + slotSize * p.slotCnt
  empty : (∀ i, ¬ p.Live i) → p.slotCnt = 0 ∧ p.freePtr = 0 ∧ p.freeSpace = dataSize

-- Both tests a RID has to pass look at one slot at most: && needs no length when the number is too
-- large for the slots in use.
def testedSlots (p : Page) (rid : RID) : List Int := if -rid.slotNo > p.slotCnt then [-rid.slotNo] else []

-- What a RID may find: a record that was inserted and is not deleted, or nothing at all.
structure Validates (p : Page) (live : LiveMap) (rid : RID) : Prop where
  reads : (p.getRecord rid).toOption.isSome ↔ (live rid.slotNo).isSome
  deletes : (p.deleteRecord rid).1 = .ok ↔ (live rid.slotNo).isSome
  absent : live rid.slotNo = none → p.getRecord rid = .error .invalidSlotNo
  refuses : live rid.slotNo = none → p.deleteRecord rid = (.invalidSlotNo,p)
  inside : live rid.slotNo = none → ∀ i ∈ p.testedSlots rid, p.slotCnt < i ∧ i ≤ 0

variable {p : Page} {n : Nat} {extents : Extents}

theorem Layout.live_iff (valid : Layout p n extents) {i : Nat} : p.Live i ↔ i ∈ extents.map Prod.fst := by
  rw [Live,valid.slots]
  constructor
  · rintro ⟨below,used⟩
    by_contra missing
    exact used (valid.free i (by omega) missing)
  · intro member
    obtain ⟨⟨_,bytes⟩,inside,rfl⟩ := List.mem_map.mp member
    have below := valid.bound _ inside
    have length := valid.length_of inside
    dsimp only at below length ⊢
    omega

theorem Layout.covers_iff (valid : Layout p n extents) {before after : Extents} {e : Nat × List UInt8}
    (split : extents = before ++ e::after) (a : Int) :
    p.Covers e.1 a ↔ (size before : Int) ≤ a ∧ a < size before + e.2.length := by
  obtain ⟨offset,length⟩ := valid.placed before e after split
  rw [Covers,offset,length]

-- The extents lie one behind the other, so each byte below the free pointer is in one of them.
theorem extent_at (extents : Extents) {a : Nat} (below : a < size extents) :
    ∃ before e after, extents = before ++ e::after ∧ size before ≤ a ∧ a < size before + e.2.length := by
  induction extents generalizing a with
  | nil => cases below
  | cons e rest ih =>
    by_cases here : a < e.2.length
    · exact ⟨[],e,rest,rfl,Nat.zero_le _,by simpa using here⟩
    · rw [size_cons] at below
      obtain ⟨before,e',after,rfl,low,high⟩ := ih (a:=a - e.2.length) (by omega)
      refine ⟨e::before,e',after,rfl,?_,?_⟩
      · rw [size_cons]; omega
      · rw [size_cons]; omega

theorem Layout.disjoint (valid : Layout p n extents) {one two : Nat × List UInt8} (first : one ∈ extents)
    (second : two ∈ extents)
    {a : Int} (covers : p.Covers one.1 a) (also : p.Covers two.1 a) : one = two := by
  obtain ⟨before,after,split⟩ := List.append_of_mem first
  rw [valid.covers_iff split] at covers
  have there := second
  rw [split,List.mem_append,List.mem_cons] at there
  rcases there with earlier | rfl | later
  · obtain ⟨left,right,rfl⟩ := List.append_of_mem earlier
    have split' : extents = left ++ two::(right ++ one::after) := by rw [split]; simp
    rw [valid.covers_iff split'] at also
    rw [size_append,size_cons] at covers
    omega
  · rfl
  · obtain ⟨left,right,rfl⟩ := List.append_of_mem later
    have split' : extents = (before ++ one::left) ++ two::right := by rw [split]; simp
    rw [valid.covers_iff split'] at also
    rw [size_append,size_cons] at also
    omega

theorem Represents.slotted {pageNo : Int} {d : Slots} (held : Represents p pageNo d) : Slotted p := by
  obtain ⟨⟨extents,valid,contents⟩,trimmed,_⟩ := held
  have fits := valid.fits
  have slots := valid.slots
  have ptr := valid.ptr
  have space := valid.space
  have live : ∀ {i}, p.Live i ↔ i ∈ extents.map Prod.fst := valid.live_iff
  rw [slotSize_eq,dataSize_eq] at fits space
  constructor
  case disjoint =>
    intro i j a one two covers also
    obtain ⟨e,first,rfl⟩ := List.mem_map.mp (live.mp one)
    obtain ⟨e',second,rfl⟩ := List.mem_map.mp (live.mp two)
    rw [valid.disjoint first second covers also]
  case tiles =>
    intro a
    rw [ptr]
    constructor
    · rintro ⟨low,high⟩
      obtain ⟨k,rfl⟩ := Int.eq_ofNat_of_zero_le low
      obtain ⟨before,e,after,split,from_here,to_there⟩ := extent_at extents (a:=k) (by omega)
      exact ⟨e.1,live.mpr (List.mem_map_of_mem (by rw [split]; simp)),(valid.covers_iff split k).mpr (by omega)⟩
    · rintro ⟨i,one,covers⟩
      obtain ⟨e,member,rfl⟩ := List.mem_map.mp (live.mp one)
      obtain ⟨before,after,split⟩ := List.append_of_mem member
      rw [valid.covers_iff split] at covers
      rw [split,size_append,size_cons]
      omega
  case accounted =>
    rw [slots,ptr,space,slotSize_eq,dataSize_eq]
    omega
  case last =>
    intro used
    rw [slots] at used ⊢
    obtain ⟨v,found⟩ := trimmed.last_live (List.ne_nil_of_length_pos (by omega))
    have member := (valid.key_live contents).mpr ⟨v,found⟩
    have top : -(d.length : Int) + 1 = -((d.length - 1 : Nat) : Int) := by omega
    rw [top]
    exact (live.mpr member).2
  case apart =>
    rw [slots,ptr,slotSize_eq,dataSize_eq]
    omega
  case empty =>
    intro none
    have no_extents : extents = [] := by
      by_contra some_extent
      obtain ⟨e,rest,rfl⟩ := List.exists_cons_of_ne_nil some_extent
      exact none e.1 (live.mpr (by simp))
    subst no_extents
    have no_slots : d.length = 0 := by
      by_contra some_slot
      obtain ⟨v,found⟩ := trimmed.last_live (fun empty => some_slot (by rw [empty]; rfl))
      have := (contents _ v).mpr found
      simp at this
    rw [slots,ptr,space,no_slots,dataSize_eq]
    simp

variable {pageNo : Int} {state : Page × LiveMap} {d : Slots}

-- Every page that harmless calls lead to accounts for each of its bytes.
theorem page_slotted_when_harmless (p : Page) (pageNo : Int) (calls : List Call) (low : -2147483648 ≤ pageNo)
    (high : pageNo < 2147483648) (harmless : Harmlessly (p.init pageNo,fun _ => none) calls) :
    Slotted (run (p.init pageNo,fun _ => none) calls).1 := by
  obtain ⟨d,mirrors⟩ := run_mirrors (init_mirrors p low high) harmless
  exact mirrors.held.slotted

theorem page_slotted_when_harmless_emptied :
    Slotted (run (Page.init (zero 1024) 7,fun _ => none) [.insert [1,2],.insert [3],.delete ⟨7,1⟩,.delete
      ⟨7,0⟩,.delete nullRid]).1 :=
  page_slotted_when_harmless (zero 1024) 7 [.insert [1,2],.insert [3],.delete ⟨7,1⟩,.delete ⟨7,0⟩,.delete nullRid]
    (by decide)
    (by decide) ⟨by decide,by decide,by decide,by decide,by decide,trivial⟩

-- NULLRID on a page with records: slot[1] is slotCnt and freePtr.
theorem page_unslotted_null_rid :
    ¬ Slotted (run (Page.init (zero 1024) 7,fun _ => none) [.insert [1,2],.delete nullRid]).1 := by
  intro slotted
  have accounted := slotted.accounted
  revert accounted
  decide

theorem Mirrors.validates_iff (mirrors : Mirrors pageNo state d) (rid : RID) :
    Validates state.1 state.2 rid ↔ 0 ≤ rid.slotNo ∧ state.2 rid.slotNo ≠ some [] := by
  obtain ⟨p,live⟩ := state
  obtain ⟨anyNo,slotNo⟩ := rid
  dsimp only
  constructor
  · intro validates
    by_cases low : slotNo < 0
    · -- The test has looked at a slot that lies over the words behind the slot array.
      have slots := mirrors.held.slots
      dsimp only at slots
      have tested : -slotNo ∈ p.testedSlots ⟨anyNo,slotNo⟩ := by
        rw [testedSlots,if_pos (show -slotNo > p.slotCnt by omega)]
        exact List.mem_cons_self ..
      have := (validates.inside (mirrors.negative slotNo low) _ tested).2
      omega
    · obtain ⟨i,rfl⟩ := Int.eq_ofNat_of_zero_le (Int.not_lt.mp low)
      refine ⟨Int.natCast_nonneg i,fun empty => ?_⟩
      have found : lookup d i = some [] := (mirrors.live i).symm.trans empty
      have reads := validates.reads
      rw [mirrors.held.getRecord_dead fun bytes here => by rw [found] at here; cases here; rfl] at reads
      have readable := reads.mpr (by dsimp only; rw [empty]; rfl)
      cases readable
  · rintro ⟨high,full⟩
    obtain ⟨i,rfl⟩ := Int.eq_ofNat_of_zero_le high
    have same : live i = lookup d i := mirrors.live i
    rcases found : lookup d i with _ | bytes
    · have gone : live i = none := same.trans found
      have dead : ∀ bytes, lookup d i = some bytes → bytes = [] := fun bytes here => by rw [found] at here; cases here
      have read : p.getRecord ⟨anyNo,i⟩ = .error .invalidSlotNo := mirrors.held.getRecord_dead dead
      have deleted := mirrors.held.delete_dead anyNo dead
      refine ⟨?_,?_,fun _ => read,fun _ => deleted,fun _ j tested => ?_⟩
      · rw [read,gone]; exact Iff.rfl
      · rw [deleted,gone]; simp
      · rw [testedSlots] at tested
        split at tested
        · rename_i below
          rw [List.mem_singleton] at tested
          subst tested
          exact ⟨below,by dsimp only; omega⟩
        · cases tested
    · have here : live i = some bytes := same.trans found
      have positive : bytes ≠ [] := fun empty => full (by rw [here,empty])
      have read : p.getRecord ⟨anyNo,i⟩ = .ok (.of bytes) := mirrors.held.getRecord_live found positive
      obtain ⟨q,deleted,_⟩ := mirrors.held.delete_live anyNo found positive
      have there : live i ≠ none := by rw [here]; exact Option.some_ne_none _
      refine ⟨?_,?_,fun gone => absurd gone there,fun gone => absurd gone there,fun gone => absurd gone there⟩
      · rw [read,here]; exact Iff.rfl
      · rw [deleted,here]; simp

-- A page reached by harmless calls answers a RID as it should exactly when the number is not
-- negative and no record without bytes is in its slot.
theorem rid_validated_iff (p : Page) (pageNo : Int) (calls : List Call) (low : -2147483648 ≤ pageNo)
    (high : pageNo < 2147483648)
    (harmless : Harmlessly (p.init pageNo,fun _ => none) calls) (rid : RID) :
    Validates (run (p.init pageNo,fun _ => none) calls).1 (run (p.init pageNo,fun _ => none) calls).2 rid ↔
      0 ≤ rid.slotNo ∧ (run (p.init pageNo,fun _ => none) calls).2 rid.slotNo ≠ some [] := by
  obtain ⟨d,mirrors⟩ := run_mirrors (init_mirrors p low high) harmless
  exact mirrors.validates_iff rid

theorem rid_validated_iff_reused :
    let calls := [.insert [1,2],.insert [],.delete ⟨7,0⟩,.insert [3]]
    Validates (run (Page.init (zero 1024) 7,fun _ => none) calls).1
      (run (Page.init (zero 1024) 7,fun _ => none) calls).2 ⟨7,0⟩ ↔
      0 ≤ (0 : Int) ∧ (run (Page.init (zero 1024) 7,fun _ => none) calls).2 0 ≠ some [] :=
  rid_validated_iff (zero 1024) 7 [.insert [1,2],.insert [],.delete ⟨7,0⟩,.insert [3]] (by decide) (by decide)
    ⟨by decide,by decide,by decide,by decide,trivial⟩ ⟨7,0⟩

-- With one record of two bytes, NULLRID is taken for a record.
theorem rid_unvalidated_null_rid :
    ¬ Validates (run (Page.init (zero 1024) 7,fun _ => none) [.insert [1,2]]).1
      (run (Page.init (zero 1024) 7,fun _ => none) [.insert [1,2]]).2 nullRid := by
  intro validates
  have none_live : (run (Page.init (zero 1024) 7,fun _ => none) [.insert [1,2]]).2 nullRid.slotNo = none := by decide
  have refused := congrArg Prod.fst (validates.refuses none_live)
  revert refused
  decide

end Minirel.Page
