import Minirel.Delete
import Minirel.Select

namespace Minirel
open ByteMemory SlotDirectory Page Heap

-- Whether QU_Select returns a record: its scan has started, and the record matches.
def returned (atof : List UInt8 → List UInt8) (d : AttrDesc) (op : Operator) (attrValue bytes : List UInt8) : Bool :=
  let condition := selectCondition atof (some d) op attrValue
  condition.all (fun c => decide c.Sound) && HeapFileScan.accepts condition bytes

-- What a delete is to do with the records that a selection returns: fail and delete nothing, or
-- remove just these.
def Removes (shelf : Shelf) (relation : Name) (file : HeldFile) (answer : List UInt8 → Bool)
    (outcome : Except Abort (Status × Db)) : Prop :=
  (∃ status db', outcome = .ok (status,db') ∧ status ≠ .ok ∧ db'.Stands shelf) ∨
  ∃ db' file', outcome = .ok (.ok,db') ∧ db'.Stands (Function.update shelf relation (some file')) ∧
    file'.books = file.books ∧
    records file'.heap = (records file.heap).filter fun e => !answer e.2

-- A literal of the attribute's own type is compared in the same way by both.
theorem returned_own_type (atof : List UInt8 → List UInt8) {d : AttrDesc} {type : Datatype}
    (own : Datatype.ofCode d.attrType = some type)
    (op : Operator) (attrValue bytes : List UInt8) (sound : (deleteCondition atof d op type attrValue).Sound) :
    returned atof d op attrValue bytes = (deleteCondition atof d op type attrValue).matchRec (.of bytes) := by
  have chosen : selectCondition atof (some d) op attrValue = some (deleteCondition atof d op type attrValue) := by
    rw [selectCondition,Option.bind_some,own]
    rfl
  have started : decide (deleteCondition atof d op type attrValue).Sound = true := decide_eq_true sound
  rw [returned,chosen,Option.all_some,started,Bool.true_and]
  rfl

theorem removed_answer_iff {c : Condition} {answer : List UInt8 → Bool} {entries : List Entry} :
    entries.filter (fun e => ¬ c.matchRec (.of e.2)) = entries.filter (fun e => !answer e.2) ↔
      ∀ e ∈ entries, c.matchRec (.of e.2) = answer e.2 := by
  constructor
  · intro same e member
    have both : e ∈ entries.filter (fun e => ¬ c.matchRec (.of e.2)) ↔ e ∈ entries.filter (fun e => !answer e.2) := by
      rw [same]
    rw [List.mem_filter,List.mem_filter] at both
    cases left : c.matchRec (.of e.2) <;> cases right : answer e.2 <;> simp [member,left,right] at both ⊢
  · intro agree
    refine List.filter_congr fun e member => ?_
    rw [agree e member]
    cases answer e.2 <;> rfl

-- A delete that has removed what matches c removes an answer when no record tells the two apart.
theorem removes_iff {shelf : Shelf} {relation : Name} {file file' : HeldFile} {c : Condition} {db' : Db}
    (stands : db'.Stands (Function.update shelf relation (some file'))) (removed : Removed file file' c)
    (answer : List UInt8 → Bool) :
    Removes shelf relation file answer (.ok (.ok,db')) ↔ ∀ e ∈ records file.heap, c.matchRec (.of e.2) =
      answer e.2 := by
  obtain ⟨books,left⟩ := removed
  constructor
  · rintro (⟨status,db2,failed,bad,_⟩ | ⟨db2,file2,same,stands2,books2,left2⟩)
    · obtain ⟨fine,_⟩ := Prod.mk.inj (Except.ok.inj failed)
      exact absurd fine.symm bad
    · obtain ⟨_,rfl⟩ := Prod.mk.inj (Except.ok.inj same)
      have one : file2.heap = file'.heap := stands.unique stands2 (Function.update_self ..) (Function.update_self ..)
        (books2.trans books.symm)
      rw [one,left] at left2
      exact removed_answer_iff.mp left2
  · intro agree
    exact .inr ⟨db',file',rfl,stands,books,left.trans (removed_answer_iff.mpr agree)⟩

-- QU_Delete compares under the type of the literal and QU_Select under the type in the catalog. They
-- agree where startScan refuses the delete or no record tells the two comparisons apart.
theorem delete_removes_selection_iff (atof : List UInt8 → List UInt8) (db : Db) (shelf : Shelf)
    (stands : db.Stands shelf)
    (cat file : HeldFile) (catalog : shelf attrCatName = some cat) (wide : Rows cat.heap AttrDesc.size)
    (relation attrName : Name)
    (clean : 0 ∉ relation) (present : shelf relation = some file) (given : attrName ≠ []) (d : AttrDesc)
    (found : attrOf cat.heap relation attrName = some d) (op : Operator) (type : Datatype) (attrValue : List UInt8)
    (attrDesc : AttrDesc) :
    let c := deleteCondition atof d op type attrValue
    Removes shelf relation file (returned atof d op attrValue)
      (QU_Delete atof db relation attrName op type attrValue attrDesc) ↔
      ¬ c.Sound ∨ ∀ e ∈ records file.heap, c.matchRec (.of e.2) = returned atof d op attrValue e.2 := by
  intro c
  obtain ⟨deletes,refuses⟩ := QU_Delete_spec atof stands catalog wide present clean given op type attrValue attrDesc
  rw [deleteDesc,found] at deletes refuses
  by_cases sound : c.Sound
  · obtain ⟨db1,file1,done,stands1,removed⟩ := deletes sound
    rw [done,removes_iff stands1 removed]
    constructor
    · exact .inr
    · intro agree
      exact agree.resolve_left (not_not_intro sound)
  · obtain ⟨db1,refused,stands1⟩ := refuses sound
    rw [refused]
    exact ⟨fun _ => .inl sound,fun _ => .inl ⟨.badScanParm,db1,rfl,by decide,stands1⟩⟩

theorem delete_removes_selection_iff_sample : ∃ shelf r, shelf [82] = some r ∧
    Removes shelf [82] r (returned id ⟨[82],[97],0,1,4⟩ .eq [49])
      (QU_Delete id sampleDb [82] [97] .eq .integer [49] ⟨[],[],0,0,0⟩) := by
  obtain ⟨shelf,cat,r,_,_,stands,catalog,wide,present,_,_,_,_,_,attrs,_⟩ := sampleDb_stands
  have found : attrOf cat.heap [82] [97] = some ⟨[82],[97],0,1,4⟩ := by rw [attrOf,attrs]; decide
  refine ⟨shelf,r,present,(delete_removes_selection_iff id sampleDb shelf stands cat r catalog wide [82] [97]
    (by decide) present (by decide) _
    found .eq .integer [49] ⟨[],[],0,0,0⟩).mpr (.inr fun e _ => ?_)⟩
  exact (returned_own_type id rfl .eq [49] e.2 (by decide)).symm

-- a is an integer and the literal is quoted: the record with 1 there is returned, and not deleted.
theorem delete_misses_selection : ∃ shelf r, sampleDb.Stands shelf ∧ shelf [82] = some r ∧
    (records r.heap).map Prod.snd = [[1,0,0,0,2,0,0,0]] ∧ returned id ⟨[82],[97],0,1,4⟩ .eq [49] [1,0,0,0,2,0,0,0] =
    true ∧
    ¬ Removes shelf [82] r (returned id ⟨[82],[97],0,1,4⟩ .eq [49])
      (QU_Delete id sampleDb [82] [97] .eq .string [49] ⟨[],[],0,0,0⟩) := by
  obtain ⟨shelf,cat,r,_,_,stands,catalog,wide,present,_,_,recs,_,_,attrs,_⟩ := sampleDb_stands
  have found : attrOf cat.heap [82] [97] = some ⟨[82],[97],0,1,4⟩ := by rw [attrOf,attrs]; decide
  obtain ⟨deletes,_⟩ := QU_Delete_spec id stands catalog wide present (by decide) (by decide : ([97] : Name) ≠ [])
    .eq .string
    [49] ⟨[],[],0,0,0⟩
  rw [deleteDesc,found,Option.getD_some] at deletes
  obtain ⟨db',file',done,stands',removed⟩ := deletes (by decide)
  refine ⟨shelf,r,stands,present,recs,by decide,?_⟩
  rw [done,removes_iff stands' removed]
  intro agree
  have judged : ∀ bytes ∈ (records r.heap).map Prod.snd,
      (deleteCondition id ⟨[82],[97],0,1,4⟩ .eq .string [49]).matchRec (.of bytes) =
      returned id ⟨[82],[97],0,1,4⟩ .eq [49] bytes := by
    intro bytes member
    obtain ⟨e,there,rfl⟩ := List.mem_map.mp member
    exact agree e there
  rw [recs] at judged
  exact absurd (judged _ (List.mem_singleton.mpr rfl)) (by decide)

end Minirel
