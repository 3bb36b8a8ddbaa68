import Minirel.PageDirectory
import Mathlib.Logic.Function.Basic

namespace Minirel.Page
open ByteMemory SlotDirectory

inductive Call where
  | insert (bytes : List UInt8)
  | delete (rid : RID)
  deriving DecidableEq,Repr

-- InsertFileScan turns away records longer than PAGESIZE - DPFIXED bytes.
def Call.Sized : Call → Prop
  | .insert bytes => 1 ≤ bytes.length ∧ bytes.length ≤ dataSize
  | .delete _ => True

instance : DecidablePred Call.Sized
  | .insert bytes => inferInstanceAs (Decidable (1 ≤ bytes.length ∧ bytes.length ≤ dataSize))
  | .delete _ => inferInstanceAs (Decidable True)

def Call.apply (p : Page) : Call → Status × Option RID × Page
  | .insert bytes => p.insertRecord (.of bytes)
  | .delete rid => ((p.deleteRecord rid).1,none,(p.deleteRecord rid).2)

-- What a client knows to be on the page from the results it has seen.
abbrev LiveMap := Int → Option (List UInt8)

def Call.note (live : LiveMap) : Call → Status → Option RID → LiveMap
  | .insert bytes,.ok,some rid => Function.update live rid.slotNo (some bytes)
  | .delete rid,.ok,_ => Function.update live rid.slotNo none
  | _,_,_ => live

def step (state : Page × LiveMap) (call : Call) : Page × LiveMap :=
  let result := call.apply state.1
  (result.2.2,call.note state.2 result.1 result.2.1)

def run (start : Page × LiveMap) (calls : List Call) : Page × LiveMap := calls.foldl step start

-- slot[1] to slot[4] lie over the words behind the slot array. A delete with such a number does
-- nothing as long as the word it takes for a length is not positive.
def Call.Harmless (p : Page) : Call → Prop
  | .insert bytes => bytes.length ≤ dataSize
  | .delete rid => 0 ≤ rid.slotNo ∨ -4 ≤ rid.slotNo ∧ p.slotLength (-rid.slotNo) ≤ 0

instance (p : Page) : DecidablePred (Call.Harmless p)
  | .insert bytes => inferInstanceAs (Decidable (bytes.length ≤ dataSize))
  | .delete rid => inferInstanceAs (Decidable (0 ≤ rid.slotNo ∨ -4 ≤ rid.slotNo ∧ p.slotLength (-rid.slotNo) ≤ 0))

def Harmlessly : Page × LiveMap → List Call → Prop
  | _,[] => True
  | state,call::rest => call.Harmless state.1 ∧ Harmlessly (step state call) rest

-- Every operation of the page behaves as the operation of the finite map.
structure ActsAs (p : Page) (pageNo : Int) (live : LiveMap) : Prop where
  key : ∀ slotNo bytes, live slotNo = some bytes → 0 ≤ slotNo ∧ bytes ≠ []
  finite : ∃ bound : Nat, ∀ slotNo, (live slotNo).isSome → slotNo < bound
  inserts : ∀ bytes, (Call.insert bytes).Sized →
    (∃ rid q, p.insertRecord (.of bytes) = (.ok,some rid,q) ∧ rid.pageNo = pageNo ∧ 0 ≤ rid.slotNo ∧
      live rid.slotNo = none) ∨
    p.insertRecord (.of bytes) = (.noSpace,none,p)
  deletes : ∀ rid, (live rid.slotNo).isSome → ∃ q, p.deleteRecord rid = (.ok,q)
  refuses : ∀ rid, 0 ≤ rid.slotNo → live rid.slotNo = none → p.deleteRecord rid = (.invalidSlotNo,p)
  reads : ∀ rid bytes, live rid.slotNo = some bytes → p.getRecord rid = .ok (.of bytes)
  absent : ∀ rid, 0 ≤ rid.slotNo → live rid.slotNo = none → p.getRecord rid = .error .invalidSlotNo

-- The directory behind the page and the client's map, records without bytes included.
structure Mirrors (pageNo : Int) (state : Page × LiveMap) (d : Slots) : Prop where
  held : Represents state.1 pageNo d
  live : ∀ i : Nat, state.2 i = lookup d i
  negative : ∀ slotNo, slotNo < 0 → state.2 slotNo = none

variable {pageNo : Int} {state : Page × LiveMap} {d : Slots}

theorem init_mirrors (p : Page) (low : -2147483648 ≤ pageNo) (high : pageNo < 2147483648) :
    Mirrors pageNo (p.init pageNo,fun _ => none) [] :=
  ⟨init_represents p low high,fun i => by rw [lookup_nil],fun _ _ => rfl⟩

theorem insert_mirrors {bytes : List UInt8} (mirrors : Mirrors pageNo state d) :
    ∃ d', Mirrors pageNo (step state (.insert bytes)) d' := by
  obtain ⟨p,live⟩ := state
  rcases lt_or_ge (spaceLeft d) (bytes.length + slotSize) with full | room
  · refine ⟨d,?_⟩
    simp only [step,Call.apply,mirrors.held.insert_full full,Call.note]
    exact mirrors
  · obtain ⟨q,inserted,held',_⟩ := mirrors.held.insert_room room
    refine ⟨put d bytes,?_⟩
    simp only [step,Call.apply,inserted,Call.note]
    refine ⟨held',fun i => ?_,fun slotNo below => ?_⟩
    · rw [lookup_put,← mirrors.live]
      by_cases here : i = firstFree d <;> simp [Function.update,here]
    · dsimp only
      rw [Function.update_of_ne (by omega)]
      exact mirrors.negative slotNo below

theorem delete_mirrors {rid : RID} (mirrors : Mirrors pageNo state d) (harmless : (Call.delete rid).Harmless state.1) :
    ∃ d', Mirrors pageNo (step state (.delete rid)) d' := by
  obtain ⟨p,live⟩ := state
  obtain ⟨anyNo,slotNo⟩ := rid
  have refused : p.deleteRecord ⟨anyNo,slotNo⟩ = (.invalidSlotNo,p) →
      ∃ d', Mirrors pageNo (step (p,live) (.delete ⟨anyNo,slotNo⟩)) d' :=
    fun same => ⟨d,by simp only [step,Call.apply,same,Call.note]; exact mirrors⟩
  by_cases low : slotNo < 0
  · have quiet := harmless.resolve_left (fun high => by dsimp only at high; omega)
    exact refused (deleteRecord_dead fun alive => absurd alive.2 (Int.not_lt.mpr quiet.2))
  · obtain ⟨i,rfl⟩ := Int.eq_ofNat_of_zero_le (Int.not_lt.mp low)
    by_cases full : ∃ bytes, lookup d i = some bytes ∧ bytes ≠ []
    · obtain ⟨bytes,found,positive⟩ := full
      obtain ⟨q,deleted,held',_⟩ := mirrors.held.delete_live anyNo found positive
      refine ⟨remove d i,?_⟩
      simp only [step,Call.apply,deleted,Call.note]
      refine ⟨held',fun j => ?_,fun slotNo below => ?_⟩
      · rw [lookup_remove,← mirrors.live]
        by_cases here : j = i <;> simp [Function.update,here]
      · dsimp only
        rw [Function.update_of_ne (by omega)]
        exact mirrors.negative slotNo below
    · refine refused (mirrors.held.delete_dead anyNo fun bytes found => ?_)
      by_contra positive
      exact full ⟨bytes,found,positive⟩

theorem step_mirrors {call : Call} (mirrors : Mirrors pageNo state d) (harmless : call.Harmless state.1) :
    ∃ d', Mirrors pageNo (step state call) d' := by
  cases call with
  | insert bytes => exact insert_mirrors mirrors
  | delete rid => exact delete_mirrors mirrors harmless

theorem run_mirrors {calls : List Call} (mirrors : Mirrors pageNo state d) (harmless : Harmlessly state calls) :
    ∃ d', Mirrors pageNo (run state calls) d' := by
  induction calls generalizing state d with
  | nil => exact ⟨d,mirrors⟩
  | cons call rest ih =>
    obtain ⟨d',mirrors'⟩ := step_mirrors mirrors harmless.1
    exact ih mirrors' harmless.2

-- No record is without bytes when none was inserted without.
def Full (live : LiveMap) : Prop := ∀ slotNo bytes, live slotNo = some bytes → bytes ≠ []

theorem Full.update {live : LiveMap} (full : Full live) (slotNo : Int) {value : Option (List UInt8)}
    (some_bytes : value ≠ some []) :
    Full (Function.update live slotNo value) := by
  intro other bytes found
  by_cases here : other = slotNo
  · rw [here,Function.update_self] at found
    rintro rfl
    exact some_bytes found
  · rw [Function.update_of_ne here] at found
    exact full other bytes found

theorem step_full {call : Call} (full : Full state.2) (sized : call.Sized) : Full (step state call).2 := by
  have noted : ∀ status rid, Full (Call.note state.2 call status rid) := by
    intro status rid
    unfold Call.note
    split
    · refine full.update _ fun same => ?_
      have empty := Option.some.inj same
      have positive := sized.1
      rw [empty] at positive
      cases positive
    · exact full.update _ nofun
    · exact full
  exact noted _ _

theorem run_full {calls : List Call} (full : Full state.2) (sized : ∀ call ∈ calls, call.Sized) :
    Full (run state calls).2 := by
  induction calls generalizing state with
  | nil => exact full
  | cons call rest ih =>
    exact ih (step_full full (sized call List.mem_cons_self)) fun later member =>
      sized later (List.mem_cons_of_mem _ member)

theorem Mirrors.dead {i : Nat} (mirrors : Mirrors pageNo state d) (gone : state.2 i = none) :
    ∀ bytes, lookup d i = some bytes → bytes = [] := by
  intro bytes found
  rw [← mirrors.live,gone] at found
  cases found

theorem Mirrors.acts (mirrors : Mirrors pageNo state d) (full : Full state.2) : ActsAs state.1 pageNo state.2 := by
  obtain ⟨p,live⟩ := state
  have position : ∀ {slotNo bytes}, live slotNo = some bytes → ∃ i : Nat, slotNo = i ∧ lookup d i = some bytes := by
    intro slotNo bytes found
    rcases lt_or_ge slotNo 0 with below | above
    · cases found.symm.trans (mirrors.negative slotNo below)
    · obtain ⟨i,rfl⟩ := Int.eq_ofNat_of_zero_le above
      exact ⟨i,rfl,by rw [← mirrors.live]; exact found⟩
  constructor
  case key =>
    intro slotNo bytes found
    obtain ⟨i,rfl,here⟩ := position found
    exact ⟨Int.natCast_nonneg i,full _ bytes found⟩
  case finite =>
    refine ⟨d.length,fun slotNo some_bytes => ?_⟩
    obtain ⟨bytes,found⟩ := Option.isSome_iff_exists.mp some_bytes
    obtain ⟨i,rfl,here⟩ := position found
    exact Int.ofNat_lt.mpr (lookup_bound here)
  case inserts =>
    intro bytes sized
    rcases lt_or_ge (spaceLeft d) (bytes.length + slotSize) with tight | room
    · exact .inr (mirrors.held.insert_full tight)
    · obtain ⟨q,inserted,_⟩ := mirrors.held.insert_room room
      exact .inl ⟨_,q,inserted,rfl,Int.natCast_nonneg _,(mirrors.live _).trans (lookup_firstFree d)⟩
  case deletes =>
    rintro ⟨anyNo,slotNo⟩ some_bytes
    obtain ⟨bytes,found⟩ := Option.isSome_iff_exists.mp some_bytes
    obtain ⟨i,rfl,here⟩ := position found
    obtain ⟨q,deleted,_⟩ := mirrors.held.delete_live anyNo here (full _ bytes found)
    exact ⟨q,deleted⟩
  case refuses =>
    rintro ⟨anyNo,slotNo⟩ above gone
    obtain ⟨i,rfl⟩ := Int.eq_ofNat_of_zero_le above
    exact mirrors.held.delete_dead _ (mirrors.dead gone)
  case reads =>
    rintro ⟨anyNo,slotNo⟩ bytes found
    obtain ⟨i,rfl,here⟩ := position found
    exact mirrors.held.getRecord_live here (full _ bytes found)
  case absent =>
    rintro ⟨anyNo,slotNo⟩ above gone
    obtain ⟨i,rfl⟩ := Int.eq_ofNat_of_zero_le above
    exact mirrors.held.getRecord_dead (mirrors.dead gone)

-- Deletes of negative slot numbers have to be harmless: such a number is refused, or it is taken for a record.
theorem page_is_finite_map (p : Page) (pageNo : Int) (calls : List Call) (low : -2147483648 ≤ pageNo)
    (high : pageNo < 2147483648) (sized : ∀ call ∈ calls, call.Sized)
    (harmless : Harmlessly (p.init pageNo,fun _ => none) calls) :
    ActsAs (run (p.init pageNo,fun _ => none) calls).1 pageNo (run (p.init pageNo,fun _ => none) calls).2 := by
  obtain ⟨d,mirrors⟩ := run_mirrors (init_mirrors p low high) harmless
  exact mirrors.acts (run_full nofun sized)

theorem page_is_finite_map_after_reuse :
    let calls := [.insert [1,2],.insert [3],.insert [4,5,6],.delete ⟨7,1⟩,.insert [8,9]]
    ActsAs (run (Page.init (zero 1024) 7,fun _ => none) calls).1 7
      (run (Page.init (zero 1024) 7,fun _ => none) calls).2 :=
  page_is_finite_map (zero 1024) 7 [.insert [1,2],.insert [3],.insert [4,5,6],.delete ⟨7,1⟩,.insert [8,9]]
    (by decide) (by decide)
    (by decide) ⟨by decide,by decide,by decide,by decide,by decide,trivial⟩

-- NULLRID is taken for a record, and the one record of the page is no longer found.
theorem page_forgets_record_null_rid :
    ¬ ActsAs (run (Page.init (zero 1024) 7,fun _ => none) [.insert [1,2],.delete nullRid]).1 7
      (run (Page.init (zero 1024) 7,fun _ => none) [.insert [1,2],.delete nullRid]).2 := by
  intro acts
  have live : (run (Page.init (zero 1024) 7,fun _ => none) [.insert [1,2],.delete nullRid]).2 0 = some [1,2] := by
    decide
  have read := acts.reads ⟨7,0⟩ [1,2] live
  revert read
  decide

end Minirel.Page
