import Minirel.PageLayout

namespace Minirel.Page
open ByteMemory SlotDirectory

abbrev Slots := Directory (List UInt8)

def dataUsed (d : Slots) : Nat := size (entries d)
def spaceLeft (d : Slots) : Int := dataSize - slotSize * d.length - dataUsed d

-- The page bytes hold exactly this slot directory; where each record's bytes
-- lie is forgotten, which is all that compaction and slot reuse can change.
structure Represents (p : Page) (pageNo : Int) (d : Slots) : Prop where
  layout : ∃ extents, Layout p d.length extents ∧ ∀ i v, (i,v) ∈ extents ↔ lookup d i = some v
  trimmed : Trimmed d
  own : p.curPage = pageNo

theorem size_perm {one two : Extents} (same : one.Perm two) : size one = size two :=
  (same.map fun e : Nat × List UInt8 => e.2.length).sum_nat

theorem Layout.size_eq {p : Page} {n : Nat} {extents : Extents} {d : Slots} (valid : Layout p n extents)
    (contents : ∀ i v, (i,v) ∈ extents ↔ lookup d i = some v) : size extents = dataUsed d := by
  apply size_perm
  rw [List.perm_ext_iff_of_nodup (List.Nodup.of_map _ valid.nodup) (List.Nodup.of_map _ (entries_keys_nodup d))]
  rintro ⟨i,v⟩
  rw [contents,mem_entries]

theorem Layout.key_live {p : Page} {n : Nat} {extents : Extents} {d : Slots} (_valid : Layout p n extents)
    (contents : ∀ i v, (i,v) ∈ extents ↔ lookup d i = some v) {i : Nat} :
    i ∈ extents.map Prod.fst ↔ ∃ v, lookup d i = some v := by
  constructor
  · intro live
    obtain ⟨⟨_,v⟩,member,rfl⟩ := List.mem_map.mp live
    exact ⟨v,(contents _ v).mp member⟩
  · rintro ⟨v,found⟩
    exact List.mem_map.mpr ⟨(i,v),(contents i v).mpr found,rfl⟩

theorem init_represents (p : Page) {pageNo : Int} (low : -2147483648 ≤ pageNo) (high : pageNo < 2147483648) :
    Represents (p.init pageNo) pageNo [] := by
  refine ⟨⟨[],init_layout p pageNo,by simp⟩,rfl,?_⟩
  simp (disch := omega) only [init,curPage,setSlotCnt,setFreePtr,setFreeSpace,setNextPage,setCurPage,
    word_setWord_apart,word_setWord,int_bmod]

-- The pointer to the next page is behind everything that holds records.
theorem Represents.setNextPage {p : Page} {pageNo : Int} {d : Slots} (held : Represents p pageNo d) (v : Int) :
    Represents (p.setNextPage v) pageNo d := by
  obtain ⟨⟨extents,valid,contents⟩,trimmed,own⟩ := held
  have fits := valid.fits
  rw [slotSize_eq,dataSize_eq] at fits
  have below : ∀ {w : Nat} {a : Int}, a + w ≤ 1016 → word (p.setNextPage v) w a = word p w a :=
    fun bound => word_setWord_apart (.inl bound)
  refine ⟨⟨extents,⟨?_,?_,?_,valid.fits,valid.nodup,valid.bound,?_,?_,?_⟩,contents⟩,trimmed,?_⟩
  · exact (below (by omega)).trans valid.slots
  · exact (below (by omega)).trans valid.ptr
  · exact (below (by omega)).trans valid.space
  · exact fun i low dead => (below (by omega)).trans (valid.free i low dead)
  · intro before e after split
    obtain ⟨offset,length⟩ := valid.placed before e after split
    have low := valid.bound e (by rw [split]; simp)
    exact ⟨(below (by omega)).trans offset,(below (by omega)).trans length⟩
  · exact (load_setWord_apart (.inl (by omega))).trans valid.bytes
  · exact (word_setWord_apart (.inr (by omega))).trans own

theorem Represents.insert_full {p : Page} {pageNo : Int} {d : Slots} {bytes : List UInt8} (held : Represents p pageNo d)
    (full : spaceLeft d < bytes.length + slotSize) : p.insertRecord (.of bytes) = (.noSpace,none,p) := by
  obtain ⟨⟨extents,valid,contents⟩,_,_⟩ := held
  apply insertRecord_full
  rw [valid.space,valid.size_eq contents]
  exact full

theorem Represents.insert_room {p : Page} {pageNo : Int} {d : Slots} {bytes : List UInt8} (held : Represents p pageNo d)
    (room : bytes.length + slotSize ≤ spaceLeft d) :
    ∃ q, p.insertRecord (.of bytes) = (.ok,some ⟨pageNo,firstFree d⟩,q) ∧ Represents q pageNo (put d bytes) ∧
      q.nextPage = p.nextPage := by
  obtain ⟨⟨extents,valid,contents⟩,trimmed,own⟩ := held
  have sized := valid.size_eq contents
  rw [spaceLeft,dataSize_eq,slotSize_eq] at room
  obtain ⟨f,low,dead,occupied,q,inserted,valid',cur,next⟩ :=
    valid.insert_spec bytes (by rw [slotSize_eq,dataSize_eq]; omega)
  -- Both searches stop at the lowest slot without a record.
  have same : f = firstFree d := by
    rcases Nat.lt_trichotomy f (firstFree d) with less | equal | more
    · exact absurd ((valid.key_live contents).mpr (below_firstFree less)) dead
    · exact equal
    · obtain ⟨v,found⟩ := (valid.key_live contents).mp (occupied _ more)
      rw [lookup_firstFree] at found
      cases found
  subst f
  refine ⟨q,by rw [inserted,own],⟨⟨extents ++ [(firstFree d,bytes)],?_,?_⟩,put_trimmed trimmed bytes,
    cur.trans own⟩,next⟩
  · have length : (put d bytes).length = max d.length (firstFree d + 1) := by
      rw [length_put]
      split <;> omega
    rw [length]
    exact valid'
  · intro i v
    rw [List.mem_append,List.mem_singleton,lookup_put,contents]
    rcases eq_or_ne i (firstFree d) with rfl | other
    · simp [lookup_firstFree,eq_comm]
    · simp [other]

theorem Represents.dead_slot {p : Page} {pageNo : Int} {d : Slots} {i : Nat} (held : Represents p pageNo d)
    (dead : ∀ bytes, lookup d i = some bytes → bytes = []) : ¬ (-(i : Int) > p.slotCnt ∧ p.slotLength (-i) > 0) := by
  obtain ⟨⟨extents,valid,contents⟩,_,_⟩ := held
  rintro ⟨below,positive⟩
  rw [valid.slots] at below
  by_cases live : i ∈ extents.map Prod.fst
  · obtain ⟨v,found⟩ := (valid.key_live contents).mp live
    rw [valid.length_of ((contents i v).mpr found),dead v found] at positive
    simp at positive
  · rw [valid.free i (by omega) live] at positive
    omega

theorem Represents.delete_dead {p : Page} {pageNo : Int} (anyNo : Int) {d : Slots} {i : Nat}
    (held : Represents p pageNo d)
    (dead : ∀ bytes, lookup d i = some bytes → bytes = []) : p.deleteRecord ⟨anyNo,i⟩ = (.invalidSlotNo,p) :=
  deleteRecord_dead (held.dead_slot dead)

theorem Represents.delete_live {p : Page} {pageNo : Int} (anyNo : Int) {d : Slots} {i : Nat} {bytes : List UInt8}
    (held : Represents p pageNo d) (found : lookup d i = some bytes) (positive : bytes ≠ []) :
    ∃ q, p.deleteRecord ⟨anyNo,i⟩ = (.ok,q) ∧ Represents q pageNo (remove d i) ∧ q.nextPage = p.nextPage := by
  obtain ⟨⟨extents,valid,contents⟩,trimmed,own⟩ := held
  obtain ⟨before,after,rfl⟩ := List.append_of_mem ((contents i bytes).mpr found)
  obtain ⟨m,q,deleted,valid',fewer,middle,top,cur,next⟩ :=
    valid.delete_spec anyNo (List.length_pos_of_ne_nil positive)
  have contents' : ∀ j v, (j,v) ∈ before ++ after ↔ lookup (remove d i) j = some v := by
    intro j v
    rw [lookup_remove]
    rcases eq_or_ne j i with rfl | other
    · simp only [if_true,reduceCtorEq,iff_false]
      exact fun member => (valid.others member).1 rfl
    · rw [if_neg other,← contents,List.mem_append,List.mem_append,List.mem_cons]
      simp [other]
  have bound := lookup_bound found
  have shorter : (remove d i).length = m := by
    apply (remove_trimmed d i).length_eq
    · intro j v live
      exact valid'.bound (j,v) ((contents' j v).mpr live)
    · rcases Nat.lt_or_eq_of_le (Nat.succ_le_of_lt bound) with inner | last
      · right
        obtain ⟨v,live⟩ := trimmed.last_live (List.ne_nil_of_length_pos (by omega))
        refine ⟨v,?_⟩
        rw [middle inner,lookup_remove,if_neg (by omega),live]
      · rcases top last with zero | live
        · exact .inl zero
        · exact .inr ((valid'.key_live contents').mp live)
  exact ⟨q,deleted,⟨⟨before ++ after,by rw [shorter]; exact valid',contents'⟩,remove_trimmed d i,cur.trans own⟩,next⟩

theorem Represents.getRecord_live {p : Page} {pageNo anyNo : Int} {d : Slots} {i : Nat} {bytes : List UInt8}
    (held : Represents p pageNo d) (found : lookup d i = some bytes) (positive : bytes ≠ []) :
    p.getRecord ⟨anyNo,i⟩ = .ok (.of bytes) := by
  obtain ⟨⟨extents,valid,contents⟩,_,_⟩ := held
  obtain ⟨before,after,rfl⟩ := List.append_of_mem ((contents i bytes).mpr found)
  have placed := valid.placed before (i,bytes) after rfl
  have bound := lookup_bound found
  have long := List.length_pos_of_ne_nil positive
  dsimp only at placed
  have live : -(i : Int) > -(d.length : Int) ∧ (bytes.length : Int) > 0 := by omega
  simp only [getRecord,valid.slots,placed.1,placed.2,if_pos live,Record.of,Int.toNat_natCast,valid.split_bytes.2.1]

theorem Represents.getRecord_dead {p : Page} {pageNo anyNo : Int} {d : Slots} {i : Nat} (held : Represents p pageNo d)
    (dead : ∀ bytes, lookup d i = some bytes → bytes = []) : p.getRecord ⟨anyNo,i⟩ = .error .invalidSlotNo := by
  simp only [getRecord,if_neg (held.dead_slot dead)]

theorem Represents.free_iff {p : Page} {pageNo : Int} {d : Slots} {i : Nat} (held : Represents p pageNo d)
    (below : i < d.length) : p.slotLength (-i) = -1 ↔ lookup d i = none := by
  obtain ⟨⟨extents,valid,contents⟩,_,_⟩ := held
  rw [valid.free_iff below,valid.key_live contents]
  cases lookup d i <;> simp

theorem Represents.slots {p : Page} {pageNo : Int} {d : Slots} (held : Represents p pageNo d) :
    p.slotCnt = -d.length := by
  obtain ⟨⟨extents,valid,contents⟩,_,_⟩ := held
  exact valid.slots

-- A page without empty records represents one directory only.
theorem Represents.unique {p : Page} {pageNo pageNo' : Int} {d d' : Slots} (one : Represents p pageNo d)
    (two : Represents p pageNo' d')
    (full : ∀ i, lookup d i ≠ some []) (full' : ∀ i, lookup d' i ≠ some []) : d = d' := by
  have read : ∀ {pageNo : Int} {d : Slots} (_ : Represents p pageNo d) (_ : ∀ i, lookup d i ≠ some [])
    (i : Nat) (bytes : List UInt8),
      lookup d i = some bytes ↔ p.getRecord ⟨0,i⟩ = .ok (.of bytes) := by
    intro pageNo d held full i bytes
    constructor
    · intro found
      exact held.getRecord_live found fun empty => full i (by rw [found,empty])
    · intro got
      cases found : lookup d i with
      | none =>
        rw [held.getRecord_dead (by simp [found])] at got
        cases got
      | some other =>
        rw [held.getRecord_live found fun empty => full i (by rw [found,empty])] at got
        cases congrArg Record.data (Except.ok.inj got)
        rfl
  have length : d.length = d'.length := by
    have slots := one.slots.symm.trans two.slots
    omega
  apply List.ext_getElem length
  intro i low high
  have same : lookup d i = lookup d' i := by
    apply Option.ext
    intro bytes
    rw [read one full,read two full']
  rw [lookup,lookup,List.getElem?_eq_getElem low,List.getElem?_eq_getElem high] at same
  exact same

theorem Represents.freeSpace_eq {p : Page} {pageNo : Int} {d : Slots} (held : Represents p pageNo d) :
    p.freeSpace = spaceLeft d := by
  obtain ⟨⟨extents,valid,contents⟩,_,_⟩ := held
  rw [valid.space,valid.size_eq contents,spaceLeft]

theorem Represents.few_slots {p : Page} {pageNo : Int} {d : Slots} (held : Represents p pageNo d) :
    4 * d.length + dataUsed d ≤ 1004 := by
  obtain ⟨⟨extents,valid,contents⟩,_,_⟩ := held
  have fits := valid.fits
  rw [valid.size_eq contents,slotSize_eq,dataSize_eq] at fits
  exact fits

-- The loop shared by firstRecord and nextRecord stops at the next live slot, or at slotCnt.
theorem Represents.skipFree_spec {p : Page} {pageNo : Int} {d : Slots} (held : Represents p pageNo d)
    (turns k : Nat) (reach : k + turns = d.length) :
    ∃ f : Nat, p.skipFree turns (-k) = -(f : Int) ∧ k ≤ f ∧ f ≤ d.length ∧
      (∀ j, k ≤ j → j < f → lookup d j = none) ∧ (f < d.length → ∃ v, lookup d f = some v) := by
  induction turns generalizing k with
  | zero => exact ⟨k,rfl,Nat.le_refl _,by omega,by omega,by omega⟩
  | succ turns ih =>
    by_cases free : p.slotLength (-k) = -1
    · obtain ⟨f,found,low,high,gone,live⟩ := ih (k+1) (by omega)
      refine ⟨f,?_,by omega,high,?_,live⟩
      · rw [skipFree,if_pos free,← found]
        congr 1
        omega
      · intro j from_k to_f
        rcases Nat.lt_or_eq_of_le from_k with later | rfl
        · exact gone j later to_f
        · exact (held.free_iff (by omega)).mp free
    · refine ⟨k,by rw [skipFree,if_neg free],Nat.le_refl _,by omega,by omega,fun below => ?_⟩
      exact Option.ne_none_iff_exists'.mp fun none => free ((held.free_iff below).mpr none)

theorem Represents.nextRecord_spec {p : Page} {pageNo : Int} {d : Slots} (held : Represents p pageNo d)
    (anyNo : Int) (k : Nat) :
    p.nextRecord ⟨anyNo,(k : Int) - 1⟩ =
      match liveFrom d k with
      | [] => .error .endOfPage
      | (j,_)::_ => .ok ⟨pageNo,j⟩ := by
  have slots := held.slots
  have start : -((k : Int) - 1) - 1 = -k := by omega
  simp only [nextRecord,start,slots]
  by_cases past : d.length < k
  · have none_left : liveFrom d k = [] := liveFrom_nil fun j behind => lookup_beyond (by omega)
    have stay : ((-(k : Int)) - -(d.length : Int)).toNat = 0 := by omega
    rw [stay,skipFree,if_pos (.inl (by omega)),none_left]
  · have turns : ((-(k : Int)) - -(d.length : Int)).toNat = d.length - k := by omega
    obtain ⟨f,found,low,high,gone,live⟩ := held.skipFree_spec (d.length - k) k (by omega)
    rw [turns,found]
    rcases Nat.lt_or_eq_of_le high with inside | ended
    · obtain ⟨v,here⟩ := live inside
      have used : ¬ (-(f : Int) ≤ -(d.length : Int) ∨ p.slotLength (-f) = -1) := by
        rintro (low | free)
        · omega
        · rw [(held.free_iff inside).mp free] at here; cases here
      rw [if_neg used,liveFrom_cons low here gone,held.own]
      simp
    · rw [if_pos (.inl (by omega)),liveFrom_nil]
      intro j behind
      rcases Nat.lt_or_ge j f with before | after
      · exact gone j behind before
      · exact lookup_beyond (by omega)

theorem Represents.firstRecord_spec {p : Page} {pageNo : Int} {d : Slots} (held : Represents p pageNo d) :
    p.firstRecord = match entries d with
      | [] => .error .noRecords
      | (j,_)::_ => .ok ⟨pageNo,j⟩ := by
  have slots := held.slots
  obtain ⟨f,found,_,high,gone,live⟩ := held.skipFree_spec d.length 0 (by omega)
  have start : p.skipFree (-p.slotCnt).toNat 0 = -f := by
    rw [slots,Int.neg_neg,Int.toNat_natCast]; simpa using found
  simp only [firstRecord,start]
  rw [slots,← liveFrom_zero]
  rcases Nat.lt_or_eq_of_le high with inside | ended
  · obtain ⟨v,here⟩ := live inside
    have used : ¬ (-(f : Int) = -(d.length : Int) ∨ p.slotLength (-f) = -1) := by
      rintro (low | free)
      · omega
      · rw [(held.free_iff inside).mp free] at here; cases here
    rw [if_neg used,liveFrom_cons (Nat.zero_le f) here gone,held.own]
    simp
  · rw [if_pos (.inl (by omega)),liveFrom_nil]
    intro j _
    rcases Nat.lt_or_ge j f with before | after
    · exact gone j (Nat.zero_le _) before
    · exact lookup_beyond (by omega)

end Minirel.Page
