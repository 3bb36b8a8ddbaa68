import Minirel.Clock
import Minirel.BufCalls

namespace Minirel
open Consistent

namespace BufMgr

def vacant (m : BufMgr) (i : Nat) : Bool := !(m.bufTable i).valid
def unpinned (m : BufMgr) (i : Nat) : Bool := (m.bufTable i).pinCnt = 0
def released (m : BufMgr) (i : Nat) : Bool := ¬ (m.bufTable i).pinCnt > 0
def refs (m : BufMgr) (i : Nat) : Bool := (m.bufTable i).refbit

variable {m : BufMgr} {i : Nat}

theorem vacant_iff : m.vacant i = true ↔ (m.bufTable i).valid = false := by simp [vacant]
theorem unpinned_iff : m.unpinned i = true ↔ (m.bufTable i).pinCnt = 0 := by simp [unpinned]
theorem released_iff : m.released i = true ↔ ¬ (m.bufTable i).pinCnt > 0 := by simp [released]

theorem occupied (valid : (m.bufTable i).valid = true) : ¬ m.vacant i = true := by simp [vacant,valid]

-- A reference bit taken down changes nothing that the search goes by but that bit.
theorem lowered_refs : (m.setDesc i {m.bufTable i with refbit := false}).refs = Function.update m.refs i false := by
  funext j
  rcases eq_or_ne j i with rfl | other
  · rw [refs,setDesc_same,Function.update_self]
  · rw [refs,setDesc_other _ _ other,Function.update_of_ne other]
    rfl

theorem lowered {α : Type} (look : BufDesc → α) (same : ∀ d : BufDesc, look {d with refbit := false} = look d)
    (j : Nat) :
    look ((m.setDesc i {m.bufTable i with refbit := false}).bufTable j) = look (m.bufTable j) := by
  rcases eq_or_ne j i with rfl | other
  · rw [setDesc_same,same]
  · rw [setDesc_other _ _ other]

theorem lowered_vacant : (m.setDesc i {m.bufTable i with refbit := false}).vacant = m.vacant :=
  funext (lowered (fun d => !d.valid) fun _ => rfl)
theorem lowered_unpinned : (m.setDesc i {m.bufTable i with refbit := false}).unpinned = m.unpinned :=
  funext (lowered (fun d => decide (d.pinCnt = 0)) fun _ => rfl)
theorem lowered_released : (m.setDesc i {m.bufTable i with refbit := false}).released = m.released :=
  funext (lowered (fun d => decide (¬ d.pinCnt > 0)) fun _ => rfl)

end BufMgr

namespace Storage

-- The write-back that handing out frame i takes.
def writeBack (io : Faults) (s : Storage) (i : Nat) : Status :=
  if (s.mgr.bufTable i).dirty then (s.writeFrame io i).1 else .ok

theorem writeBack_same {io : Faults} {s : Storage} {m' : BufMgr} (ticked : Ticked s.mgr m') (i : Nat) :
    writeBack io ⟨m',s.disk⟩ i = s.writeBack io i := by
  obtain ⟨b,same⟩ := ticked.descs i
  unfold writeBack writeFrame
  dsimp only
  rw [same,ticked.bufPool]
  dsimp only
  cases (s.mgr.bufTable i).file with
  | none => rfl
  | some file => rfl

theorem writeFrame_status (io : Faults) (s : Storage) (i : Nat) :
    (s.writeFrame io i).1 ∈ [Status.ok,.badPageNo,.unixErr,.badFilePtr] := by
  unfold writeFrame File.writePage File.intwrite
  split
  · dsimp only
    split
    · simp
    · split
      · simp
      · simp
  · simp

theorem writeBack_known (io : Faults) (s : Storage) (i : Nat) : s.writeBack io i ≠ .bufferExceeded := by
  have known := s.writeFrame_status io i
  unfold writeBack
  split
  · intro same
    rw [same] at known
    exact absurd known (by decide)
  · intro same
    cases same

end Storage

-- The frame, once what it held is safe on the disk.
def given (status : Status) (i : Nat) : Except Status Nat := if status = .ok then .ok i else .error status

namespace Part3

-- What the search comes to, read off the pool as it was.
def answer (io : Faults) (s : Storage) : Option (Nat × Nat) → Except Status Nat
  | none => .error .bufferExceeded
  | some (i,_) => if (s.mgr.bufTable i).valid then given (s.writeBack io i) i else .ok i

def search (m : BufMgr) (turns : Nat) : Option (Nat × Nat) :=
  Clock.search m.numBufs m.vacant m.released turns m.clockHand m.refs

theorem answer_same {io : Faults} {s : Storage} {m' : BufMgr} (ticked : Ticked s.mgr m') (taken : Option (Nat × Nat)) :
    answer io ⟨m',s.disk⟩ taken = answer io s taken := by
  cases taken with
  | none => rfl
  | some place =>
    obtain ⟨i,left⟩ := place
    obtain ⟨b,same⟩ := ticked.descs i
    unfold answer
    dsimp only
    rw [Storage.writeBack_same ticked i,same]

theorem allocTurns_search (io : Faults) (turns : Nat) {s : Storage} (hand : s.mgr.clockHand < s.mgr.numBufs) :
    (allocTurns io turns s).1 = answer io s (search s.mgr turns) := by
  induction turns generalizing s with
  | zero => rfl
  | succ turns ih =>
    unfold search Clock.search allocTurns
    dsimp only
    by_cases invalid : ¬ (s.mgr.bufTable s.mgr.clockHand).valid = true
    · rw [if_pos (BufMgr.vacant_iff.mpr (Bool.eq_false_iff.mpr invalid)),if_pos invalid,answer,if_neg invalid]
    · have valid := not_not.mp invalid
      rw [if_neg invalid,if_neg (BufMgr.occupied valid)]
      by_cases referenced : (s.mgr.bufTable s.mgr.clockHand).refbit = true
      · rw [if_pos (show s.mgr.refs s.mgr.clockHand = true from referenced),if_pos referenced]
        have ticked := unreferenced hand s.mgr.clockHand
        refine (ih (s:=⟨_,s.disk⟩) ticked.hand).trans ((answer_same ticked _).trans (congrArg (answer io s) ?_))
        rw [← BufMgr.lowered_refs,← BufMgr.lowered_vacant (i:=s.mgr.clockHand),← BufMgr.lowered_released
          (i:=s.mgr.clockHand)]
        rfl
      · rw [if_neg (show ¬ s.mgr.refs s.mgr.clockHand = true from referenced),if_neg referenced]
        by_cases pinned : (s.mgr.bufTable s.mgr.clockHand).pinCnt > 0
        · rw [if_pos pinned,if_neg fun rests => BufMgr.released_iff.mp rests pinned]
          exact (ih (s:=⟨s.mgr.advanceClock,s.disk⟩) (passed_over hand).hand).trans (answer_same (passed_over hand) _)
        · rw [if_neg pinned,if_pos (BufMgr.released_iff.mpr pinned),answer,if_pos valid,Storage.writeBack]
          by_cases dirty : (s.mgr.bufTable s.mgr.clockHand).dirty = true
          · rw [if_pos dirty,if_pos dirty]
            cases written : s.writeFrame io s.mgr.clockHand with
            | mk status s' =>
              dsimp only
              unfold given
              by_cases works : status = .ok
              · rw [if_neg (not_not.mpr works),if_pos works]
              · rw [if_pos works,if_neg works]
          · rw [if_neg dirty,if_neg dirty,given,if_pos rfl]

end Part3

namespace Stage6

def answer (io : Faults) (s : Storage) : Option (Nat × Nat) → Except Status Nat
  | none => .error .bufferExceeded
  | some (i,_) => given (s.writeBack io i) i

-- This release moves the hand before it looks.
def search (m : BufMgr) (turns : Nat) : Option (Nat × Nat) :=
  Clock.search m.numBufs m.vacant m.unpinned turns ((m.clockHand + 1) % m.numBufs) m.refs

-- How the loop ends: at a frame, with the turns left and whether there is a page to evict, or out of turns.
structure Stops (m : BufMgr) (result : BufMgr × Nat × Bool) (taken : Option (Nat × Nat)) : Prop where
  took : ∀ i left, taken = some (i,left) → result.1.clockHand = i ∧ result.2 = (left,(m.bufTable i).valid)
  missed : taken = none → result.2 = (0,false)

theorem Stops.earlier {m t : BufMgr} {result : BufMgr × Nat × Bool} {taken : Option (Nat × Nat)} (ticked : Ticked m t)
    (stops : Stops t result taken) : Stops m result taken := by
  refine ⟨fun i left found => ?_,stops.missed⟩
  obtain ⟨hand,rest⟩ := stops.took i left found
  obtain ⟨b,same⟩ := ticked.descs i
  exact ⟨hand,by rw [rest,same]⟩

theorem sweep_search (turns : Nat) {m : BufMgr} (hand : m.clockHand < m.numBufs) :
    Stops m (sweep turns m) (search m turns) := by
  induction turns generalizing m with
  | zero => exact ⟨fun _ _ found => (by cases found),fun _ => rfl⟩
  | succ turns ih =>
    have advanced : Ticked m m.advanceClock :=
      ⟨rfl,rfl,rfl,Nat.mod_lt _ (Nat.lt_of_le_of_lt (Nat.zero_le _) hand),fun i => ⟨(m.bufTable i).refbit,rfl⟩⟩
    have inside := advanced.hand
    unfold sweep search Clock.search
    dsimp only
    change Stops m _ (if m.advanceClock.vacant m.advanceClock.clockHand = true then _ else
      if m.advanceClock.refs m.advanceClock.clockHand = true then _ else
      if m.advanceClock.unpinned m.advanceClock.clockHand = true then _ else _)
    by_cases invalid : ¬ (m.advanceClock.bufTable m.advanceClock.clockHand).valid = true
    · rw [if_pos invalid,if_pos (BufMgr.vacant_iff.mpr (Bool.eq_false_iff.mpr invalid))]
      refine ⟨fun i left found => ?_,fun none => by cases none⟩
      cases found
      exact ⟨rfl,Prod.ext rfl (Bool.eq_false_iff.mpr invalid).symm⟩
    · rw [if_neg invalid,if_neg (BufMgr.occupied (not_not.mp invalid))]
      by_cases unreferenced : ¬ (m.advanceClock.bufTable m.advanceClock.clockHand).refbit = true
      · rw [if_pos unreferenced,if_neg (show ¬ m.advanceClock.refs m.advanceClock.clockHand = true from unreferenced)]
        by_cases unpinned : (m.advanceClock.bufTable m.advanceClock.clockHand).pinCnt = 0
        · rw [if_pos unpinned,if_pos (BufMgr.unpinned_iff.mpr unpinned)]
          refine ⟨fun i left found => ?_,fun none => by cases none⟩
          cases found
          exact ⟨rfl,Prod.ext rfl (not_not.mp invalid).symm⟩
        · rw [if_neg unpinned,if_neg fun rests => unpinned (BufMgr.unpinned_iff.mp rests)]
          exact (ih inside).earlier advanced
      · rw [if_neg unreferenced,if_pos (show m.advanceClock.refs m.advanceClock.clockHand =
          true from not_not.mp unreferenced)]
        have lowered := advanced.trans (cleared (i:=m.advanceClock.clockHand) inside)
        rw [← BufMgr.lowered_refs,← BufMgr.lowered_vacant (i:=m.advanceClock.clockHand),
          ← BufMgr.lowered_unpinned (i:=m.advanceClock.clockHand)]
        exact (ih (m:=m.advanceClock.countAccess.setDesc m.advanceClock.clockHand
          {m.advanceClock.bufTable m.advanceClock.clockHand with refbit := false}) inside).earlier lowered

theorem allocBuf_search (io : Faults) {s : Storage} (hand : s.mgr.clockHand < s.mgr.numBufs) :
    (allocBuf io s).1 = answer io s (search s.mgr (2 * s.mgr.numBufs)) := by
  have ticked := (sweep_spec (2 * s.mgr.numBufs) s.mgr hand).ticked
  obtain ⟨took,missed⟩ := sweep_search (2 * s.mgr.numBufs) hand
  unfold allocBuf
  generalize sweep (2 * s.mgr.numBufs) s.mgr = swept at took missed ticked ⊢
  obtain ⟨m,left,hit⟩ := swept
  dsimp only at took missed ticked ⊢
  cases taken : search s.mgr (2 * s.mgr.numBufs) with
  | none =>
    cases missed taken
    rfl
  | some place =>
    obtain ⟨i,left'⟩ := place
    obtain ⟨here,same⟩ := took i left' taken
    cases same
    -- The loop cannot have stopped at an empty frame with no turns left.
    have spare : ¬ (¬ (s.mgr.bufTable i).valid = true ∧ left = 0) := by
      rintro ⟨invalid,ended⟩
      have := Clock.search_vacant (Nat.mod_lt _ (by omega)) taken
        (BufMgr.vacant_iff.mpr (Bool.eq_false_iff.mpr invalid))
      omega
    rw [if_neg spare,answer,Storage.writeBack]
    have dropped : ∀ b : Bool, (if b = true then m.dropEntry hash m.clockHand else m).clockHand = i ∧
        (if b = true then m.dropEntry hash m.clockHand else m).bufTable = m.bufTable ∧
        (if b = true then m.dropEntry hash m.clockHand else m).bufPool = m.bufPool := by
      intro b
      cases b
      · exact ⟨here,rfl,rfl⟩
      · rw [if_pos rfl]
        unfold BufMgr.dropEntry
        split
        · exact ⟨here,rfl,rfl⟩
        · exact ⟨here,rfl,rfl⟩
    obtain ⟨stays,descs,pool⟩ := dropped (s.mgr.bufTable i).valid
    generalize (if (s.mgr.bufTable i).valid = true then m.dropEntry hash m.clockHand else m) = k at stays descs pool ⊢
    obtain ⟨b,desc⟩ := ticked.descs i
    have dirty : (m.bufTable i).dirty = (s.mgr.bufTable i).dirty := by rw [desc]
    rw [stays,descs,dirty]
    by_cases needed : (s.mgr.bufTable i).dirty = true
    · rw [if_pos needed,if_pos needed]
      have written : Storage.writeFrame io ⟨k.countWrite,s.disk⟩ i =
          ((Storage.writeFrame io ⟨s.mgr.setDesc i (m.bufTable i),s.disk⟩ i).1,
            ⟨k.countWrite,(Storage.writeFrame io ⟨s.mgr.setDesc i (m.bufTable i),s.disk⟩ i).2.disk⟩) := by
        refine writeFrame_congr ?_ ?_
        · rw [BufMgr.setDesc_same]; exact congrFun descs i
        · change k.bufPool i = s.mgr.bufPool i
          rw [pool,ticked.bufPool]
      have plain : (Storage.writeFrame io ⟨s.mgr.setDesc i (m.bufTable i),s.disk⟩ i).1 = (s.writeFrame io i).1 := by
        unfold Storage.writeFrame
        dsimp only
        rw [BufMgr.setDesc_same,desc]
        dsimp only
        cases (s.mgr.bufTable i).file with
        | none => rfl
        | some file => rfl
      rw [written]
      dsimp only
      rw [plain]
      unfold given
      by_cases works : (s.writeFrame io i).1 = .ok
      · rw [if_neg (not_not.mpr works),if_pos works]
      · rw [if_pos works,if_neg works]
    · rw [if_neg needed,if_neg needed,given,if_pos rfl]

end Stage6

def BufDesc.Busy (d : BufDesc) : Prop := d.valid = true ∧ 0 < d.pinCnt

-- A pool of at least one frame; a pin count never goes below zero.
structure PoolState (m : BufMgr) : Prop where
  hand : m.clockHand < m.numBufs
  pins : ∀ i, i < m.numBufs → 0 ≤ (m.bufTable i).pinCnt

-- What the search for a frame comes to, whichever release makes it.
structure Replacement (io : Faults) (s : Storage) (result : Except Status Nat × Storage) : Prop where
  exceeded : result.1 = .error .bufferExceeded ↔ ∀ i, i < s.mgr.numBufs → (s.mgr.bufTable i).Busy
  reuses : ¬ (∀ i, i < s.mgr.numBufs → (s.mgr.bufTable i).Busy) → ∃ steps i, steps ≤ 2 * s.mgr.numBufs ∧
    i = (s.mgr.clockHand + steps) % s.mgr.numBufs ∧ ((s.mgr.bufTable i).valid = false ∨ (s.mgr.bufTable i).pinCnt = 0) ∧
    (((s.mgr.bufTable i).dirty = true → (s.writeFrame io i).1 = .ok) → result.1 = .ok i)
  spares : ∀ i, 0 < (s.mgr.bufTable i).pinCnt → Kept s.mgr result.2.mgr i

theorem given_known {io : Faults} {s : Storage} {i : Nat} : given (s.writeBack io i) i ≠ .error .bufferExceeded := by
  unfold given
  split
  · intro none; cases none
  · intro same
    exact s.writeBack_known io i (Except.error.inj same)

theorem given_written {io : Faults} {s : Storage} {i : Nat}
    (works : (s.mgr.bufTable i).dirty = true → (s.writeFrame io i).1 = .ok) :
    given (s.writeBack io i) i = .ok i := by
  unfold given Storage.writeBack
  rw [if_pos]
  split
  · rename_i dirty; exact works dirty
  · rfl

-- Both searches are the clock's; they differ in where the hand starts and in the name for an idle frame.
theorem replacement_of_search {io : Faults} {s : Storage} {result : Except Status Nat × Storage} {start : Nat}
    (idle : Nat → Bool)
    (ahead : Nat) (state : PoolState s.mgr) (idle_iff : ∀ i, i < s.mgr.numBufs →
      (idle i = true ↔ (s.mgr.bufTable i).pinCnt = 0))
    (inside : start < s.mgr.numBufs) (started : start = (s.mgr.clockHand + ahead) % s.mgr.numBufs) (close : ahead ≤ 1)
    (missed : Clock.search s.mgr.numBufs s.mgr.vacant idle (2 * s.mgr.numBufs) start s.mgr.refs = none →
      result.1 = .error .bufferExceeded)
    (took : ∀ i left, Clock.search s.mgr.numBufs s.mgr.vacant idle (2 * s.mgr.numBufs) start s.mgr.refs =
      some (i,left) →
      result.1 ≠ .error .bufferExceeded ∧
        (((s.mgr.bufTable i).dirty = true → (s.writeFrame io i).1 = .ok) → result.1 = .ok i))
    (spares : ∀ i, 0 < (s.mgr.bufTable i).pinCnt → Kept s.mgr result.2.mgr i) : Replacement io s result := by
  have full : (∀ i, i < s.mgr.numBufs → s.mgr.vacant i = false ∧ idle i = false) ↔
      ∀ i, i < s.mgr.numBufs → (s.mgr.bufTable i).Busy := by
    refine forall_congr' fun i => forall_congr' fun place => ?_
    have low := state.pins i place
    rw [← Bool.not_eq_true,← Bool.not_eq_true,BufMgr.vacant_iff,Bool.not_eq_false,idle_iff i place,BufDesc.Busy]
    exact and_congr_right fun _ => by omega
  have rounds : Clock.search s.mgr.numBufs s.mgr.vacant idle (2 * s.mgr.numBufs) start s.mgr.refs = none ↔ _ :=
    Clock.search_two_rounds inside
  rw [← rounds] at full
  cases search : Clock.search s.mgr.numBufs s.mgr.vacant idle (2 * s.mgr.numBufs) start s.mgr.refs with
  | none =>
    exact ⟨⟨fun _ => full.mp search,fun _ => missed search⟩,fun some_free => absurd (full.mp search) some_free,spares⟩
  | some place =>
    obtain ⟨i,left⟩ := place
    obtain ⟨known,works⟩ := took i left search
    refine ⟨⟨fun same => absurd same known,fun busy => ?_⟩,fun _ => ?_,spares⟩
    · cases search.symm.trans (full.mpr busy)
    · obtain ⟨fit,steps,count,here⟩ := Clock.search_sound inside search
      have place : i = (s.mgr.clockHand + (ahead + steps)) % s.mgr.numBufs := by
        rw [here,started,Nat.mod_add_mod,Nat.add_assoc]
      have below : i < s.mgr.numBufs := place ▸ Nat.mod_lt _ (by omega)
      exact ⟨ahead + steps,i,by omega,place,fit.imp BufMgr.vacant_iff.mp (idle_iff i below).mp,works⟩

namespace Part3

theorem allocTurns_kept (io : Faults) (turns : Nat) {s : Storage} (hand : s.mgr.clockHand < s.mgr.numBufs) {i : Nat}
    (pinned : 0 < (s.mgr.bufTable i).pinCnt) : Kept s.mgr (allocTurns io turns s).2.mgr i := by
  induction turns generalizing s with
  | zero => exact .refl
  | succ turns ih =>
    have later : ∀ {m'}, Ticked s.mgr m' → Kept s.mgr (allocTurns io turns ⟨m',s.disk⟩).2.mgr i := fun ticked =>
      (Kept.tick ticked i).trans (ih (s:=⟨_,s.disk⟩) (lt_of_lt_of_eq ticked.hand ticked.numBufs.symm) (by
        rw [(Kept.tick ticked i).pinCnt]; exact pinned))
    unfold allocTurns
    dsimp only
    split
    · exact .refl
    · split
      · exact later (unreferenced hand s.mgr.clockHand)
      · split
        · exact later (passed_over hand)
        · rename_i unpinned
          have other : i ≠ s.mgr.clockHand := by rintro rfl; exact unpinned pinned
          split
          · have same := Storage.writeFrame_mgr io s s.mgr.clockHand
            cases written : s.writeFrame io s.mgr.clockHand with
            | mk status s' =>
              rw [written] at same
              dsimp only at same ⊢
              rw [same]
              split
              · exact .of_same rfl rfl
              · have counted : Kept s.mgr s.mgr.countWrite i := .of_same rfl rfl
                exact counted.trans ((Kept.dropEntry hash).trans (.setDesc _ other))
          · exact (Kept.dropEntry hash).trans (.setDesc _ other)

theorem allocBuf_replacement (io : Faults) {s : Storage} (state : PoolState s.mgr) :
    Replacement io s (allocBuf io s) := by
  have answered := allocTurns_search io (2 * s.mgr.numBufs) state.hand
  refine replacement_of_search s.mgr.released 0 state (fun i place => ?_) state.hand ?_ (Nat.zero_le 1)
    (fun missed => ?_) (fun i left taken => ?_) fun i pinned => allocTurns_kept io _ state.hand pinned
  · have low := state.pins i place
    rw [BufMgr.released_iff]
    omega
  · rw [Nat.add_zero,Nat.mod_eq_of_lt state.hand]
  · rw [allocBuf,answered,search,missed,answer]
  · rw [allocBuf,answered,search,taken,answer]
    split
    · exact ⟨given_known,given_written⟩
    · exact ⟨fun same => (by cases same),fun _ => rfl⟩

end Part3

namespace Stage6

theorem allocBuf_kept (io : Faults) {s : Storage} (hand : s.mgr.clockHand < s.mgr.numBufs) (i : Nat) :
    Kept s.mgr (allocBuf io s).2.mgr i := by
  have kept := Kept.tick (sweep_spec (2 * s.mgr.numBufs) s.mgr hand).ticked i
  unfold allocBuf
  generalize sweep (2 * s.mgr.numBufs) s.mgr = swept at kept ⊢
  obtain ⟨m,left,hit⟩ := swept
  dsimp only at kept ⊢
  have dropped : Kept s.mgr (if hit = true then m.dropEntry hash m.clockHand else m) i := by
    split
    · exact kept.trans (.dropEntry hash)
    · exact kept
  generalize (if hit = true then m.dropEntry hash m.clockHand else m) = k at dropped ⊢
  split
  · exact dropped
  · split
    · have same := Storage.writeFrame_mgr io ⟨k.countWrite,s.disk⟩ k.clockHand
      cases written : Storage.writeFrame io ⟨k.countWrite,s.disk⟩ k.clockHand with
      | mk status t =>
        rw [written] at same
        dsimp only at same ⊢
        have counted : Kept s.mgr t.mgr i := by
          rw [same]
          exact dropped.trans (.of_same rfl rfl)
        split
        · exact counted
        · exact counted
    · exact dropped

theorem allocBuf_replacement (io : Faults) {s : Storage} (state : PoolState s.mgr) :
    Replacement io s (allocBuf io s) := by
  have answered := allocBuf_search io state.hand
  have some_frame : 0 < s.mgr.numBufs := Nat.lt_of_le_of_lt (Nat.zero_le _) state.hand
  refine replacement_of_search s.mgr.unpinned 1 state (fun i _ => BufMgr.unpinned_iff) (Nat.mod_lt _ some_frame) rfl
    (Nat.le_refl 1) (fun missed => ?_) (fun i left taken => ?_) fun i _ => allocBuf_kept io state.hand i
  · rw [answered,search,missed,answer]
  · rw [answered,search,taken,answer]
    exact ⟨given_known,given_written⟩

end Stage6

-- What a call that goes for a frame leaves alone.
structure RespectsPins (release : Release) (allocBuf : Faults → Storage → Except Status Nat × Storage) (s : Storage) :
    Prop where
  state : PoolState s.mgr
  searches : ∀ io i, 0 < (s.mgr.bufTable i).pinCnt → Kept s.mgr (allocBuf io s).2.mgr i
  reads : ∀ io file pageNo, s.mgr.hashTable.find release.hash file pageNo = none →
    ∀ i, 0 < (s.mgr.bufTable i).pinCnt → Kept s.mgr (release.readPage io s file pageNo).2.mgr i
  allocs : ∀ io file i, 0 < (s.mgr.bufTable i).pinCnt → Kept s.mgr (release.allocPage io s file).2.mgr i

theorem clock_replacement :
    (∀ io (s : Storage), PoolState s.mgr → Replacement io s (Part3.allocBuf io s) ∧
      Replacement io s (Stage6.allocBuf io s)) ∧
    ∀ (bufs : Nat) (disk : Disk) (run : List (Faults × Call)), 1 ≤ bufs →
      RespectsPins Part3.release Part3.allocBuf ((Storage.start bufs disk).calls Part3.release run) ∧
      RespectsPins Stage6.release Stage6.allocBuf ((Storage.start bufs disk).calls Stage6.release run) := by
  refine ⟨fun io s state => ⟨Part3.allocBuf_replacement io state,Stage6.allocBuf_replacement io state⟩,
    fun bufs disk run some_frame => ⟨?_,?_⟩⟩
  · have inv : Listed Part3.hash ((Storage.start bufs disk).calls Part3.release run).mgr :=
      calls_listed (fun io s c before => Part3.call_listed io before c) run (.init some_frame)
    generalize (Storage.start bufs disk).calls Part3.release run = s at inv
    have state : PoolState s.mgr := ⟨inv.hand,inv.pins⟩
    exact ⟨state,fun io i pinned => (Part3.allocBuf_replacement io state).spares i pinned,
      fun io file pageNo missing => ((Part3.readPage_listed io inv file pageNo).2 missing).spares,
      fun io file => (Part3.allocPage_listed io inv file).spares⟩
  · have inv : Listed Stage6.hash ((Storage.start bufs disk).calls Stage6.release run).mgr :=
      calls_listed (fun io s c before => Stage6.call_listed io before c) run (.init some_frame)
    generalize (Storage.start bufs disk).calls Stage6.release run = s at inv
    have state : PoolState s.mgr := ⟨inv.hand,inv.pins⟩
    exact ⟨state,fun io i pinned => (Stage6.allocBuf_replacement io state).spares i pinned,
      fun io file pageNo missing => ((Stage6.readPage_listed io inv file pageNo).2 missing).spares,
      fun io file => (Stage6.allocPage_listed io inv file).spares⟩

-- One frame, taken and still pinned: neither release has another to give.
theorem clock_replacement_one_frame :
    let works : Faults := fun _ => .working
    let s := (Storage.start 1 fun _ => File.create).calls Part3.release [(works,.allocPage 0)]
    (Part3.allocBuf works s).1 = .error .bufferExceeded ∧ (Stage6.allocBuf works s).1 = .error .bufferExceeded ∧
      Kept s.mgr (Part3.allocPage works s 0).2.mgr 0 := by
  intro works s
  have respects := (clock_replacement.2 1 (fun _ => File.create) [(works,.allocPage 0)] (by decide)).1
  obtain ⟨third,sixth⟩ := clock_replacement.1 works s respects.state
  have busy : ∀ i, i < s.mgr.numBufs → (s.mgr.bufTable i).Busy := by
    intro i inside
    obtain rfl : i = 0 := by have : s.mgr.numBufs = 1 := by decide
                             omega
    exact ⟨by decide,by decide⟩
  exact ⟨third.exceeded.mpr busy,sixth.exceeded.mpr busy,respects.allocs works 0 0 (by decide)⟩

end Minirel
