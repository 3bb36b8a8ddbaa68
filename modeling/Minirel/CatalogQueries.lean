import Minirel.CatalogSound
import Minirel.JoinNames

namespace Minirel
open ByteMemory SlotDirectory Page Heap Db

variable {db db' : Db} {shelf : Shelf} {base : Db} {schema : Schema} {relation : Name} {attrs : List AttrInfo}

-- What a name that the scanner delivers has.
def Written (name : Name) : Prop := name ≠ [] ∧ 0 ∉ name

instance (name : Name) : Decidable (Written name) := inferInstanceAs (Decidable (_ ∧ _))

-- What createRel is given for an attribute.
structure Column (info : AttrInfo) : Prop where
  name : Written info.attrName ∧ info.attrName.length < maxName
  type : IsInt info.attrType
  narrow : 0 ≤ info.attrLen ∧ info.attrLen ≤ 255

theorem Schema.declarable_of_columns (few : attrs.length ≤ maxAttrs) (columns : ∀ attr ∈ attrs, Column attr) :
    Declarable attrs := by
  have nonnegative : ∀ attr ∈ attrs, 0 ≤ attr.attrLen := fun attr member => (columns attr member).narrow.1
  have low := sum_lens nonnegative
  have high : (attrs.map AttrInfo.attrLen).sum ≤ attrs.length • (255 : Int) := by
    have bound := List.sum_le_card_nsmul (attrs.map AttrInfo.attrLen) 255 (by
      intro len member
      obtain ⟨attr,inside,rfl⟩ := List.mem_map.mp member
      exact (columns attr inside).narrow.2)
    rwa [List.length_map] at bound
  rw [nsmul_eq_mul] at high
  have capacity : maxAttrs = 40 := rfl
  refine ⟨?_,?_,?_,offsets_int nonnegative ?_⟩
  · unfold IsInt
    omega
  · intro attr member
    obtain ⟨⟨given,clean⟩,short⟩ := (columns attr member).name
    exact ⟨⟨clean,short⟩,given⟩
  · intro attr member
    have narrow := (columns attr member).narrow
    refine ⟨(columns attr member).type,?_⟩
    unfold IsInt
    omega
  · unfold IsInt
    omega

theorem SoundCatalogs.createColumns (sound : SoundCatalogs db shelf schema) (roomy : Roomy db) (clean : 0 ∉ relation)
    (few : attrs.length ≤ maxAttrs)
    (columns : ∀ attr ∈ attrs, Column attr) : Ends (fun r => Intact r.2) (RelCatalog.createRel db relation attrs) :=
  sound.createRel roomy clean few (Schema.declarable_of_columns few columns) fun attr member =>
    (columns attr member).narrow

namespace Interp

theorem parseFormatString_narrow {format : Int} {type : Datatype} {len : Int}
    (parsed : parseFormatString format = some (type,len)) :
    0 ≤ len ∧ len ≤ 255 := by
  unfold parseFormatString at parsed
  split_ifs at parsed with int real string
  all_goals
    cases parsed
    omega

theorem code_int (type : Datatype) : IsInt type.code := by
  cases type <;> decide

-- Every attribute that is declared has a name from the list with a type and a length that can be.
theorem createArguments_formatted {attrlist : List (Name × Int)} {infos : List AttrInfo}
    (made : createArguments relation attrlist = .ok (.ok infos)) :
    infos.length ≤ maxAttrs ∧ ∀ info ∈ infos, ∃ a ∈ attrlist, ∃ type, info.attrName = a.1 ∧ a.1.length < maxName ∧
      info.attrType = Datatype.code type ∧
      parseFormatString a.2 = some (type,info.attrLen) := by
  obtain ⟨taken,refused⟩ := createArguments_spec relation attrlist none
  by_cases accepted : (Node.create relation attrlist none).Accepted
  swap
  · obtain ⟨refusal,run⟩ := refused accepted
    rw [run] at made
    cases made
  obtain ⟨format,formatted,run⟩ := taken accepted
  rw [run] at made
  obtain ⟨infos',copied,same⟩ := of_bind_ok made
  cases same
  have stored := (attrInfos_defined_iff _).mp (copied ▸ defined_ok infos)
  rw [attrInfos_ok stored] at copied
  cases copied
  refine ⟨?_,?_⟩
  · rw [List.length_map,List.length_map]
    exact accepted.1.le
  · intro info member
    obtain ⟨e,inside,rfl⟩ := List.mem_map.mp member
    obtain ⟨a,listed,rfl⟩ := List.mem_map.mp inside
    exact ⟨a,listed,_,rfl,(stored _ inside).2,rfl,formatted a listed⟩

theorem createArguments_columns {attrlist : List (Name × Int)} {infos : List AttrInfo}
    (written : ∀ a ∈ attrlist, Written a.1)
    (made : createArguments relation attrlist = .ok (.ok infos)) : infos.length ≤ maxAttrs ∧
    ∀ info ∈ infos, Column info := by
  obtain ⟨few,formatted⟩ := createArguments_formatted made
  refine ⟨few,fun info member => ?_⟩
  obtain ⟨a,listed,type,named,short,is_type,parsed⟩ := formatted info member
  refine ⟨?_,?_,parseFormatString_narrow parsed⟩
  · rw [named]
    exact ⟨written a listed,short⟩
  · rw [is_type]
    exact code_int type

end Interp

section query
open Interp JoinNames

variable {request : Request} {resultName : Name} {infos made : List AttrInfo} {s : Interpreter}

theorem decimal_clean (v : Int) : 0 ∉ decimal v := by
  intro there
  obtain ⟨c,member,same⟩ := List.mem_map.mp there
  rcases decimal_char member with rfl | digit
  · exact absurd same (by decide)
  · have value := congrArg UInt8.toNat same
    rw [Nat.toUInt8_eq,UInt8.toNat_ofNat'] at value
    have : UInt8.toNat 0 = 0 := rfl
    omega

theorem createName_written (request : Request) (counter : Int) (made : List AttrInfo) {name : Name}
    (written : Written name) :
    Written (createName request counter made name).1 := by
  cases request with
  | select attr op attrValue => exact written
  | join attr1 op attr2 =>
    rw [createName]
    split
    · refine ⟨by simp,?_⟩
      rw [List.mem_append,List.mem_cons]
      rintro (inside | zero | inside)
      · exact written.2 inside
      · exact absurd zero (by decide)
      · exact decimal_clean counter inside
    · exact written

-- The attributes of a new result relation have types and lengths that have been declared before.
theorem createInfos_sound (sound : SoundCatalogs s.db shelf schema) (roomy : Roomy s.db)
    (written : ∀ info ∈ infos, Written info.relName ∧ Written info.attrName)
    (before : ∀ info ∈ made, Written info.attrName ∧ IsInt info.attrType ∧ 0 ≤ info.attrLen ∧ info.attrLen ≤ 255) :
    Ends (fun r => (∃ shelf', SoundCatalogs r.2.2.db shelf' schema ∧ Roomy r.2.2.db) ∧
      (r.1 = .ok → r.2.1.length = made.length + infos.length ∧
        ∀ info ∈ r.2.1, Written info.attrName ∧ IsInt info.attrType ∧ 0 ≤ info.attrLen ∧ info.attrLen ≤ 255))
      (createInfos request resultName infos made s) := by
  induction infos generalizing shelf made s with
  | nil => exact .ok ⟨⟨shelf,sound,roomy⟩,fun _ => ⟨rfl,before⟩⟩
  | cons attr attrs ih =>
    obtain ⟨⟨relation_given,relation_clean⟩,attr_written⟩ := written attr (List.mem_cons_self ..)
    rw [createInfos]
    intro r ended
    obtain ⟨info,copied,ended⟩ := of_bind_ok ended
    obtain ⟨name,_⟩ := attrInfo_stored copied
    rw [name] at ended
    obtain ⟨b,asked,_⟩ := sound.registered.attrInfo relation_clean relation_given attr_written.1 ⟨[],[],0,0,0⟩
    obtain ⟨shelf1,sound1,roomy1⟩ := sound.read (AttrCatalog.getInfo_stays sound.shelved.stays _ _ _ _ asked) roomy
    dsimp only at ended sound1 roomy1
    rw [asked,ok_bind] at ended
    dsimp only at ended
    cases found : (schema.described attr.relName).find? fun d => d.attrName = attr.attrName with
    | none =>
      rw [found] at ended
      cases ended
      exact ⟨⟨shelf1,sound1,roomy1⟩,fun fine => by cases fine⟩
    | some d =>
      rw [found] at ended
      have member := List.mem_of_find?_eq_some found
      have sized : IsInt d.attrType ∧ 0 ≤ d.attrLen ∧ d.attrLen ≤ 255 := by
        cases there : schema attr.relName with
        | none =>
          rw [Schema.described,there] at member
          cases member
        | some declared =>
          rw [Schema.described,there,Option.elim_some] at member
          obtain ⟨_,a,inside,_,type,len,_⟩ := Schema.mem_description member
          rw [type,len]
          exact ⟨((sound.registered.declared _ _ there).2.2.2.ints a inside).1,sound.narrow _ _ there a inside⟩
      obtain ⟨left,columns⟩ := ih (s:=⟨_,_⟩) sound1 roomy1
        (fun info member => written info (List.mem_cons_of_mem _ member))
        (List.forall_mem_append.mpr ⟨before,List.forall_mem_singleton.mpr
          ⟨createName_written request s.counter made attr_written,sized⟩⟩) r ended
      refine ⟨left,fun fine => ⟨?_,(columns fine).2⟩⟩
      rw [(columns fine).1,List.length_append,List.length_singleton,List.length_cons]
      omega

theorem matchTypes_stays (stays : db.Stays shelf base) (pairs : List (AttrInfo × AttrDesc)) :
    Ends (fun r => r.2.Stays shelf base) (matchTypes db pairs) := by
  induction pairs generalizing db with
  | nil => exact .ok stays
  | cons pair rest ih =>
    obtain ⟨info,attr⟩ := pair
    rw [matchTypes]
    refine (AttrCatalog.getInfo_stays stays _ _ _).bind fun r asked => ?_
    obtain ⟨status,d,db1⟩ := r
    dsimp only
    split
    · exact .ok asked
    split
    · exact .ok asked
    · exact ih asked

theorem prepareResult_intact (sound : SoundCatalogs s.db shelf schema) (roomy : Roomy s.db) (clean : 0 ∉ resultName)
    (few : infos.length ≤ maxAttrs)
    (written : ∀ info ∈ infos, Written info.relName ∧ Written info.attrName)
    (fit : ∀ name ∈ namesGiven request s.counter [] (infos.map AttrInfo.attrName),
      (∀ info ∈ infos, Short info.attrName) → Short name)
    (existing : Option (List AttrDesc)) : Ends (fun r => Intact r.2.db)
    (prepareResult request resultName existing infos s) := by
  unfold prepareResult
  cases existing with
  | none =>
    intro r ended
    obtain ⟨⟨status,created,s1⟩,ran,ended⟩ := of_bind_ok ended
    obtain ⟨⟨shelf1,sound1,roomy1⟩,columns⟩ := createInfos_sound sound roomy written (by simp) _ ran
    dsimp only at ended sound1 roomy1 columns
    by_cases fine : status = .ok
    swap
    · rw [if_pos fine] at ended
      cases ended
      exact sound1.intact
    rw [if_neg (not_not_intro fine)] at ended
    subst fine
    obtain ⟨names,shorts⟩ := createInfos_names ran
    obtain ⟨count,columns⟩ := columns rfl
    have all : ∀ info ∈ created, Column info := by
      intro info member
      obtain ⟨named,type,narrow⟩ := columns info member
      refine ⟨⟨named,fit _ ?_ shorts⟩,type,narrow⟩
      rw [List.map_nil,List.nil_append] at names
      rw [← names]
      exact List.mem_map_of_mem member
    obtain ⟨⟨status,db2⟩,made,ended⟩ := of_bind_ok ended
    cases ended
    exact sound1.createColumns roomy1 clean (by rw [count,List.length_nil]; omega) all _ made
  | some attrs =>
    dsimp only
    split
    · exact .ok sound.intact
    · refine (matchTypes_stays sound.shelved.stays _).bind fun r matched => .ok ?_
      obtain ⟨shelf1,sound1,_⟩ := sound.stays matched
      exact sound1.intact

theorem resultRelation_stays (stays : db.Stays shelf base) (relname : Option Name) :
    Ends (fun r => r.2.Stays shelf base ∧ ∀ found, r.1 = some found → found.1 = relname.getD tmpResultName)
      (resultRelation db relname) := by
  unfold resultRelation
  cases relname with
  | some resultName =>
    refine (AttrCatalog.getRelInfo_stays stays _).bind fun r asked => ?_
    obtain ⟨status,attrs,db1⟩ := r
    dsimp only
    split
    · exact .ok ⟨asked,fun found same => by cases same⟩
    · refine .ok ⟨asked,fun found same => ?_⟩
      cases same
      rfl
  | none =>
    refine (RelCatalog.getInfo_stays stays _ _).bind fun r asked => .ok ⟨asked,fun found same => ?_⟩
    dsimp only at same
    split at same
    · cases same
      rfl
    · cases same

theorem queryArguments_written {setting : Setting} {attrlist : List (Name × Name)} {qual : Option Qual}
    (run : queryArguments setting attrlist qual = .ok (.ok (infos,request)))
    (written : ∀ a ∈ attrlist, Written a.1 ∧ Written a.2) :
    infos.length ≤ maxAttrs ∧ (∀ info ∈ infos, Written info.relName ∧ Written info.attrName) ∧
      infos.map AttrInfo.attrName = attrlist.map Prod.snd := by
  obtain ⟨few,copied,_⟩ := queryArguments_made run
  have stored := (attrInfos_defined_iff _).mp (copied ▸ defined_ok infos)
  rw [attrInfos_ok stored] at copied
  cases copied
  refine ⟨by simpa using few.le,?_,?_⟩
  · intro info member
    obtain ⟨e,inside,rfl⟩ := List.mem_map.mp member
    obtain ⟨a,listed,rfl⟩ := List.mem_map.mp inside
    exact written a listed
  · rw [List.map_map,List.map_map]
    rfl

theorem requestOf_join {setting : Setting} {qual : Option Qual} {attr1 attr2 : AttrInfo} {op : Operator}
    (asked : requestOf setting qual = .ok (.join attr1 op attr2)) : ∃ joinattr1 joinattr2, qual =
    some (.join joinattr1 op joinattr2) := by
  cases qual with
  | none => cases asked
  | some qual =>
    cases qual with
    | select selattr op value =>
      obtain ⟨_,_,asked⟩ := of_bind_ok asked
      obtain ⟨_,_,asked⟩ := of_bind_ok asked
      cases asked
    | join joinattr1 op joinattr2 =>
      obtain ⟨_,_,asked⟩ := of_bind_ok asked
      obtain ⟨_,_,asked⟩ := of_bind_ok asked
      cases asked
      exact ⟨joinattr1,joinattr2,rfl⟩

-- A query into a relation that is no catalog.
theorem interpQuery_intact (setting : Setting) {relname : Option Name} {attrlist : List (Name × Name)}
    {qual : Option Qual}
    (sound : SoundCatalogs s.db shelf schema) (roomy : Roomy s.db) (named : ∀ r ∈ relname, Written r ∧ r ≠
      relCatName ∧ r ≠ attrCatName)
    (written : ∀ a ∈ attrlist, Written a.1 ∧ Written a.2)
    (fit : ∀ joinattr1 op joinattr2, qual = some (.join joinattr1 op joinattr2) →
      ∀ name ∈ Numbering.names numbered increment s.counter [] (attrlist.map Prod.snd), Short name) :
    Ends (fun s' => Intact s'.db) (interpQuery setting relname attrlist qual s) := by
  have target : ∀ name, name = relname.getD tmpResultName → 0 ∉ name ∧ name ≠ relCatName ∧ name ≠ attrCatName := by
    rintro _ rfl
    cases relname with
    | none => decide
    | some r =>
      obtain ⟨written_r,apart⟩ := named r rfl
      exact ⟨written_r.2,apart⟩
  rw [interpQuery]
  refine (resultRelation_stays sound.shelved.stays relname).bind fun r asked => ?_
  obtain ⟨found,db1⟩ := r
  obtain ⟨shelf1,sound1,roomy1⟩ := sound.read asked.1 roomy
  dsimp only
  cases found with
  | none => exact .ok sound1.intact
  | some found =>
    obtain ⟨resultName,existing⟩ := found
    obtain ⟨clean,not_rel,not_attr⟩ := target resultName (asked.2 _ rfl)
    dsimp only
    intro s' ended
    obtain ⟨arguments,accepted,ended⟩ := of_bind_ok ended
    cases arguments with
    | error refusal =>
      cases ended
      exact sound1.intact
    | ok arguments =>
      obtain ⟨infos,request⟩ := arguments
      obtain ⟨few,written_infos,names⟩ := queryArguments_written accepted written
      have fits : ∀ name ∈ namesGiven request s.counter [] (infos.map AttrInfo.attrName),
          (∀ info ∈ infos, Short info.attrName) → Short name := by
        intro name member shorts
        obtain ⟨_,_,asked⟩ := queryArguments_made accepted
        cases request with
        | select attr op attrValue =>
          obtain ⟨info,inside,rfl⟩ := List.mem_map.mp member
          exact shorts info inside
        | join attr1 op attr2 =>
          rw [namesGiven,names] at member
          obtain ⟨joinattr1,joinattr2,same⟩ := requestOf_join asked
          exact fit joinattr1 op joinattr2 same name member
      obtain ⟨⟨status,s2⟩,prepared,ended⟩ := of_bind_ok ended
      obtain ⟨shelf2,schema2,sound2⟩ := prepareResult_intact (s:=⟨db1,s.counter⟩) sound1 roomy1 clean few
        written_infos fits existing _ prepared
      dsimp only at ended sound2
      split at ended
      · cases ended
        exact sound2.intact
      obtain ⟨⟨status3,db3⟩,queried,ended⟩ := of_bind_ok ended
      obtain ⟨shelf3,sound3,_⟩ :=
        sound2.stays (runRequest_stays sound2.shelved.stays (sound2.off not_rel not_attr) setting infos
        request _ queried)
      dsimp only at ended sound3
      split at ended
      · cases ended
        exact sound3.intact
      obtain ⟨⟨status4,recs,db4⟩,printed,ended⟩ := of_bind_ok ended
      obtain ⟨shelf4,sound4,_⟩ := sound3.stays (UT_Print_stays sound3.shelved.stays setting.turns resultName _ printed)
      dsimp only at ended sound4
      obtain ⟨⟨status5,db5⟩,destroyed,ended⟩ := of_bind_ok ended
      cases ended
      exact sound4.destroyRel clean _ destroyed

end query
end Minirel
