import Minirel.PageInvariant

namespace Minirel.Page
open ByteMemory SlotDirectory

-- nextRecord up to its first error, with a bound on the turns.
def follow (p : Page) : Nat → RID → Option (List RID × Status)
  | 0,_ => none
  | turns+1,rid =>
    match p.nextRecord rid with
    | .error status => some ([],status)
    | .ok next => (follow p turns next).map fun rest => (next::rest.1,rest.2)

-- firstRecord and then nextRecord. No slot in use comes twice, so there are no more turns than slots.
def iterate (p : Page) : Option (List RID × Status) :=
  match p.firstRecord with
  | .error status => some ([],status)
  | .ok first => (follow p (-p.slotCnt).toNat first).map fun rest => (first::rest.1,rest.2)

-- The smallest live slot number behind a given one.
structure NextLive (live : LiveMap) (after slotNo : Int) : Prop where
  behind : after < slotNo
  present : (live slotNo).isSome
  least : ∀ other, after < other → (live other).isSome → slotNo ≤ other

structure Iterates (p : Page) (pageNo : Int) (live : LiveMap) : Prop where
  slots : ∀ i : Nat, p.Live i ↔ (live i).isSome
  enumerates : ∃ rids status, p.iterate = some (rids,status) ∧ (rids.map RID.slotNo).Pairwise (· < ·) ∧
    (∀ rid, rid ∈ rids ↔ rid.pageNo = pageNo ∧ (live rid.slotNo).isSome) ∧
    status = if rids = [] then .noRecords else .endOfPage
  empty : p.firstRecord = .error .noRecords ↔ ∀ slotNo, live slotNo = none
  next : ∀ rid, -1 ≤ rid.slotNo → (∃ slotNo, NextLive live rid.slotNo slotNo ∧ p.nextRecord rid = .ok ⟨pageNo,slotNo⟩) ∨
    (∀ slotNo, rid.slotNo < slotNo → live slotNo = none) ∧ p.nextRecord rid = .error .endOfPage

section directory

variable {p : Page} {pageNo : Int} {d : Slots}

def ridsOf (pageNo : Int) (l : List (Nat × List UInt8)) : List RID := l.map fun e => ⟨pageNo,e.1⟩

-- From any slot on, what follows is what the directory has from there on.
theorem Represents.follow_spec (held : Represents p pageNo d) (turns : Nat) (anyNo : Int) (k : Nat)
    (enough : (liveFrom d k).length < turns) :
    p.follow turns ⟨anyNo,(k : Int) - 1⟩ = some (ridsOf pageNo (liveFrom d k),.endOfPage) := by
  induction turns generalizing anyNo k with
  | zero => cases enough
  | succ turns ih =>
    rw [follow,held.nextRecord_spec]
    cases left : liveFrom d k with
    | nil => rfl
    | cons e rest =>
      obtain ⟨j,bytes⟩ := e
      obtain ⟨_,_,later⟩ := liveFrom_step left
      have fewer : (liveFrom d (j+1)).length < turns := by
        rw [left,List.length_cons,later] at enough
        omega
      have run := ih pageNo (j+1) fewer
      have here : ((j+1 : Nat) : Int) - 1 = j := by omega
      rw [here] at run
      dsimp only
      rw [run,later]
      rfl

theorem Represents.iterate_spec (held : Represents p pageNo d) :
    p.iterate = some (ridsOf pageNo (entries d),if entries d = [] then .noRecords else .endOfPage) := by
  rw [iterate,held.firstRecord_spec]
  cases all : entries d with
  | nil => rfl
  | cons e rest =>
    obtain ⟨j,bytes⟩ := e
    have first : liveFrom d 0 = (j,bytes)::rest := (liveFrom_zero d).trans all
    obtain ⟨_,_,later⟩ := liveFrom_step first
    have turns : (-p.slotCnt).toNat = d.length := by rw [held.slots,Int.neg_neg,Int.toNat_natCast]
    have few := length_entries_le d
    rw [all,List.length_cons,later] at few
    have run := held.follow_spec d.length pageNo (j+1) few
    have here : ((j+1 : Nat) : Int) - 1 = j := by omega
    rw [here] at run
    dsimp only
    rw [turns,run,later]
    rfl

end directory

section mirror

variable {pageNo : Int} {state : Page × LiveMap} {d : Slots}

theorem Mirrors.live_iff (mirrors : Mirrors pageNo state d) (slotNo : Int) :
    (state.2 slotNo).isSome ↔ ∃ i bytes, slotNo = (i : Nat) ∧ lookup d i = some bytes := by
  constructor
  · intro live
    obtain ⟨bytes,found⟩ := Option.isSome_iff_exists.mp live
    by_cases below : slotNo < 0
    · rw [mirrors.negative slotNo below] at found
      cases found
    · obtain ⟨i,rfl⟩ := Int.eq_ofNat_of_zero_le (Int.not_lt.mp below)
      exact ⟨i,bytes,rfl,(mirrors.live i).symm.trans found⟩
  · intro there
    obtain ⟨i,bytes,rfl,found⟩ := there
    rw [mirrors.live i,found]
    rfl

theorem Mirrors.dead_iff (mirrors : Mirrors pageNo state d) (slotNo : Int) :
    state.2 slotNo = none ↔ ∀ i bytes, slotNo = (i : Nat) → lookup d i ≠ some bytes := by
  rw [← Option.not_isSome_iff_eq_none,mirrors.live_iff]
  constructor
  · intro dead i bytes same found
    exact dead ⟨i,bytes,same,found⟩
  · intro dead there
    obtain ⟨i,bytes,same,found⟩ := there
    exact dead i bytes same found

theorem Mirrors.slot_live (mirrors : Mirrors pageNo state d) (i : Nat) : state.1.Live i ↔ (state.2 i).isSome := by
  obtain ⟨extents,valid,contents⟩ := mirrors.held.layout
  rw [valid.live_iff,valid.key_live contents,mirrors.live i,Option.isSome_iff_exists]

theorem Mirrors.next (mirrors : Mirrors pageNo state d) (rid : RID) (low : -1 ≤ rid.slotNo) :
    (∃ slotNo, NextLive state.2 rid.slotNo slotNo ∧ state.1.nextRecord rid = .ok ⟨pageNo,slotNo⟩) ∨
    (∀ slotNo, rid.slotNo < slotNo → state.2 slotNo = none) ∧ state.1.nextRecord rid = .error .endOfPage := by
  obtain ⟨anyNo,after⟩ := rid
  obtain ⟨k,start⟩ := Int.eq_ofNat_of_zero_le (show 0 ≤ after + 1 by dsimp only at low; omega)
  obtain rfl : after = (k : Int) - 1 := by omega
  have answer := mirrors.held.nextRecord_spec anyNo k
  cases left : liveFrom d k with
  | nil =>
    rw [left] at answer
    refine .inr ⟨fun slotNo behind => (mirrors.dead_iff slotNo).mpr fun i bytes same found => ?_,answer⟩
    have member := mem_liveFrom.mpr ⟨show k ≤ i by dsimp only at behind; omega,found⟩
    rw [left] at member
    cases member
  | cons e rest =>
    obtain ⟨j,bytes⟩ := e
    obtain ⟨behind,found,later⟩ := liveFrom_step left
    rw [left] at answer
    refine .inl ⟨j,⟨by dsimp only; omega,(mirrors.live_iff j).mpr ⟨j,bytes,rfl,found⟩,fun other after live => ?_⟩,
      answer⟩
    obtain ⟨i,bytes',rfl,there⟩ := (mirrors.live_iff other).mp live
    have member := mem_liveFrom.mpr ⟨show k ≤ i by dsimp only at after; omega,there⟩
    rw [left,List.mem_cons] at member
    rcases member with same | member
    · cases same
      exact Int.le_refl _
    · rw [later,mem_liveFrom] at member
      omega

theorem Mirrors.iterates (mirrors : Mirrors pageNo state d) : Iterates state.1 pageNo state.2 := by
  have run := mirrors.held.iterate_spec
  refine ⟨mirrors.slot_live,⟨_,_,run,?_,fun rid => ?_,?_⟩,?_,mirrors.next⟩
  · rw [ridsOf,List.map_map,List.pairwise_map]
    exact (entries_ascending d).imp fun less => Int.ofNat_lt.mpr less
  · obtain ⟨anyNo,slotNo⟩ := rid
    rw [ridsOf,List.mem_map,mirrors.live_iff]
    constructor
    · intro listed
      obtain ⟨e,member,same⟩ := listed
      cases same
      exact ⟨rfl,e.1,e.2,rfl,mem_entries.mp member⟩
    · intro live
      obtain ⟨rfl,i,bytes,rfl,found⟩ := live
      exact ⟨(i,bytes),mem_entries.mpr found,rfl⟩
  · simp only [ridsOf,List.map_eq_nil_iff]
  · rw [mirrors.held.firstRecord_spec]
    constructor
    · intro nothing slotNo
      refine (mirrors.dead_iff slotNo).mpr fun i bytes _ found => ?_
      have member := mem_entries.mpr found
      cases all : entries d with
      | nil =>
        rw [all] at member
        cases member
      | cons e rest =>
        rw [all] at nothing
        cases nothing
    · intro dead
      cases all : entries d with
      | nil => rfl
      | cons e rest =>
        have found : lookup d e.1 = some e.2 := mem_entries.mp (all ▸ List.mem_cons_self)
        exact absurd found ((mirrors.dead_iff e.1).mp (dead e.1) e.1 e.2 rfl)

end mirror

-- Every page that harmless calls lead to is iterated over completely, and answers from any slot number.
theorem page_iteration_complete (p : Page) (pageNo : Int) (calls : List Call) (low : -2147483648 ≤ pageNo)
    (high : pageNo < 2147483648)
    (harmless : Harmlessly (p.init pageNo,fun _ => none) calls) :
    Iterates (run (p.init pageNo,fun _ => none) calls).1 pageNo (run (p.init pageNo,fun _ => none) calls).2 := by
  obtain ⟨d,mirrors⟩ := run_mirrors (init_mirrors p low high) harmless
  exact mirrors.iterates

-- The last two slots are cut off, and the first one is a hole.
theorem page_iteration_complete_holes :
    let calls := [.insert [1],.insert [2,3],.insert [4],.insert [5],.delete ⟨7,0⟩,.delete ⟨7,2⟩,.delete ⟨7,3⟩]
    Iterates (run (Page.init (zero 1024) 7,fun _ => none) calls).1 7
      (run (Page.init (zero 1024) 7,fun _ => none) calls).2 :=
  page_iteration_complete (zero 1024) 7 [.insert [1],.insert [2,3],.insert [4],.insert [5],.delete ⟨7,0⟩,.delete
    ⟨7,2⟩,.delete ⟨7,3⟩]
    (by decide) (by decide) ⟨by decide,by decide,by decide,by decide,by decide,by decide,by decide,trivial⟩

-- After a delete with NULLRID the page has no record to begin with, though its record was never deleted.
theorem page_iteration_empty_null_rid :
    ¬ Iterates (run (Page.init (zero 1024) 7,fun _ => none) [.insert [1,2],.delete nullRid]).1 7
      (run (Page.init (zero 1024) 7,fun _ => none) [.insert [1,2],.delete nullRid]).2 := by
  intro iterates
  have nothing : (run (Page.init (zero 1024) 7,fun _ => none) [.insert [1,2],.delete nullRid]).1.firstRecord =
    .error .noRecords := by decide
  have gone := iterates.empty.mp nothing 0
  revert gone
  decide

end Minirel.Page
