import Minirel.CatalogHistory
import Minirel.NameLimits
import Minirel.Numbering

namespace Minirel
open ByteMemory Interp

theorem decimal_chars (v : Int) : (toString v).toList = if 0 ≤ v then Nat.toDigits 10 v.toNat else '-'::Nat.toDigits 10
    (-v).toNat := by
  rw [Int.toString_eq_repr,Int.repr_eq_if]
  split
  · exact Nat.toList_repr
  · rw [String.toList_append,Nat.toList_repr]
    rfl

theorem digit_of_toDigits {n : Nat} {c : Char} (member : c ∈ Nat.toDigits 10 n) : 48 ≤ c.toNat ∧ c.toNat ≤ 57 := by
  have judged := Nat.isDigit_of_mem_toDigits (by decide) (by decide) member
  rw [Char.isDigit,Bool.and_eq_true,decide_eq_true_iff,decide_eq_true_iff,ge_iff_le,UInt32.le_iff_toNat_le,
    UInt32.le_iff_toNat_le] at judged
  exact judged

theorem decimal_char {v : Int} {c : Char} (member : c ∈ (toString v).toList) : c = '-' ∨ 48 ≤ c.toNat ∧
    c.toNat ≤ 57 := by
  rw [decimal_chars] at member
  split at member
  · exact .inr (digit_of_toDigits member)
  · rcases List.mem_cons.mp member with rfl | member
    · exact .inl rfl
    · exact .inr (digit_of_toDigits member)

theorem decimal_no_underscore (v : Int) : 95 ∉ decimal v := by
  intro there
  obtain ⟨c,member,same⟩ := List.mem_map.mp there
  rcases decimal_char member with rfl | digit
  · exact absurd same (by decide)
  · have value := congrArg UInt8.toNat same
    rw [Nat.toUInt8_eq,UInt8.toNat_ofNat'] at value
    have : UInt8.toNat 95 = 95 := rfl
    omega

theorem toDigits_inj {n m : Nat} (same : Nat.toDigits 10 n = Nat.toDigits 10 m) : n = m := by
  have value := congrArg (fun ds => Nat.ofDigitChars 10 ds 0) same
  rwa [Nat.ofDigitChars_ten_toDigits,Nat.ofDigitChars_ten_toDigits] at value

theorem not_minus (n : Nat) (ds : List Char) : Nat.toDigits 10 n ≠ '-'::ds := by
  intro same
  have digit := digit_of_toDigits (same ▸ List.mem_cons_self : '-' ∈ Nat.toDigits 10 n)
  have : '-'.toNat = 45 := rfl
  omega

theorem decimal_inj {v w : Int} (same : decimal v = decimal w) : v = w := by
  have back : ∀ u : Int, (decimal u).map (fun b => Char.ofNat b.toNat) = (toString u).toList := by
    intro u
    rw [decimal,List.map_map]
    refine (List.map_congr_left fun c member => ?_).trans (List.map_id _)
    have ascii : c.toNat < 256 := by
      rcases decimal_char member with rfl | digit
      · decide
      · omega
    rw [Function.comp_apply,Nat.toUInt8_eq,UInt8.toNat_ofNat_of_lt' ascii,Char.ofNat_toNat]
    rfl
  have chars : (toString v).toList = (toString w).toList := by rw [← back v,← back w,same]
  rw [decimal_chars,decimal_chars] at chars
  split at chars <;> split at chars
  · have value := toDigits_inj chars
    omega
  · exact absurd chars (not_minus _ _)
  · exact absurd chars.symm (not_minus _ _)
  · have value := toDigits_inj (List.cons.inj chars).2
    omega

-- What is behind the last mark of its kind.
theorem behind_last {α : Type} {a b s t : List α} {c : α} (in_s : c ∉ s) (in_t : c ∉ t)
    (same : a ++ c::s = b ++ c::t) : s = t := by
  rcases List.append_eq_append_iff.mp same with ⟨k,_,rest⟩ | ⟨k,_,rest⟩
  · cases k with
    | nil => exact (List.cons.inj rest).2
    | cons d k => exact absurd ((List.cons.inj rest).2 ▸ List.mem_append_right k List.mem_cons_self) in_s
  · cases k with
    | nil => exact (List.cons.inj rest).2.symm
    | cons d k => exact absurd ((List.cons.inj rest).2 ▸ List.mem_append_right k List.mem_cons_self) in_t

namespace JoinNames

-- sprintf("%s_%d") and counter++, where an int overflows to the other end.
def numbered (attrName : Name) (counter : Int) : Name := attrName ++ 95::decimal counter
def increment (counter : Int) : Int := Int.bmod (counter + 1) (2 ^ 32)
def Short (attrName : Name) : Prop := attrName.length < maxName

instance (attrName : Name) : Decidable (Short attrName) := inferInstanceAs (Decidable (_ < _))

theorem numbered_inj {a b : Name} {c d : Int} (same : numbered a c = numbered b d) : c = d :=
  decimal_inj (behind_last (decimal_no_underscore c) (decimal_no_underscore d) same)

theorem increment_iterate (counter : Int) (i : Nat) : (increment^[i] counter) % 2 ^ 32 = (counter + i) % 2 ^ 32 := by
  induction i with
  | zero => rw [Function.iterate_zero_apply,Nat.cast_zero,add_zero]
  | succ i ih =>
    have wrapped : (Int.bmod (increment^[i] counter + 1) (2 ^ 32)) % 2 ^ 32 = (increment^[i] counter + 1) % 2 ^ 32 :=
      Int.bmod_emod
    rw [Function.iterate_succ_apply',increment,wrapped]
    push_cast
    omega

theorem numbered_apart (counter : Int) {n : Nat} (few : n ≤ 2 ^ 32) : Numbering.Apart numbered increment counter n := by
  intro a b i j before inside same
  have first := increment_iterate counter i
  have second := increment_iterate counter j
  rw [numbered_inj same] at first
  omega

theorem attrInfo_stored {relName attrName : Name} {info : AttrInfo}
    (ran : attrInfo relName attrName 0 0 none = .ok info) :
    info.attrName = attrName ∧ Short attrName := by
  obtain ⟨rel,attr⟩ := (attrInfo_defined_iff relName attrName 0 0 none).mp (ran ▸ defined_ok info)
  rw [attrInfo_ok rel attr] at ran
  cases ran
  exact ⟨rfl,attr⟩

variable {attr1 attr2 : AttrInfo} {op : Operator} {resultName : Name}

-- Only a join numbers names.
def namesGiven (request : Request) (counter : Int) (taken names : List Name) : List Name :=
  match request with
  | .select .. => names
  | .join .. => Numbering.names numbered increment counter taken names

theorem namesGiven_cons (request : Request) (counter : Int) (made : List AttrInfo) (name : Name) (names : List Name) :
    namesGiven request counter (made.map AttrInfo.attrName) (name::names) = (createName request counter made name).1::
      namesGiven request (createName request counter made name).2
        (made.map AttrInfo.attrName ++ [(createName request counter made name).1]) names := by
  cases request with
  | select attr op attrValue => rfl
  | join attr1 op attr2 =>
    rw [namesGiven,Numbering.names,createName]
    split <;> rfl

theorem createInfos_names {request : Request} {infos made created : List AttrInfo} {s s' : Interpreter}
    (ran : createInfos request resultName infos made s = .ok (.ok,created,s')) :
    created.map AttrInfo.attrName = made.map AttrInfo.attrName ++
      namesGiven request s.counter (made.map AttrInfo.attrName) (infos.map AttrInfo.attrName) ∧
    ∀ info ∈ infos, Short info.attrName := by
  induction infos generalizing made s with
  | nil =>
    cases ran
    refine ⟨?_,List.forall_mem_nil _⟩
    cases request <;> exact (List.append_nil _).symm
  | cons attr attrs ih =>
    rw [createInfos] at ran
    cases copied : attrInfo resultName attr.attrName 0 0 none with
    | error abort =>
      rw [copied] at ran
      cases ran
    | ok info =>
      obtain ⟨name,short⟩ := attrInfo_stored copied
      rw [copied,ok_bind,name] at ran
      dsimp only at ran
      cases found : AttrCatalog.getInfo s.db attr.relName attr.attrName ⟨[],[],0,0,0⟩ with
      | error abort =>
        rw [found] at ran
        cases ran
      | ok result =>
        obtain ⟨status,attrDesc,db⟩ := result
        rw [found,ok_bind] at ran
        dsimp only at ran
        by_cases fine : status = .ok
        · rw [if_neg (not_not_intro fine)] at ran
          obtain ⟨names,shorts⟩ := ih ran
          rw [List.map_append,List.map_singleton,List.append_assoc,List.singleton_append] at names
          refine ⟨?_,List.forall_mem_cons.mpr ⟨short,shorts⟩⟩
          rw [names,List.map_cons,namesGiven_cons]
        · rw [if_pos fine] at ran
          cases ran
          exact absurd rfl fine

theorem queryArguments_join {setting : Setting} {attrlist : List (Name × Name)} {joinattr1 joinattr2 : Name × Name}
    {infos : List AttrInfo}
    {request : Request} (run : queryArguments setting attrlist (some (.join joinattr1 op joinattr2)) =
      .ok (.ok (infos,request))) :
    attrlist.length < maxAttrs ∧ ∃ attr1 attr2, request = .join attr1 op attr2 := by
  obtain ⟨few,_,asked⟩ := queryArguments_made run
  obtain ⟨attr1,_,asked⟩ := of_bind_ok asked
  obtain ⟨attr2,_,asked⟩ := of_bind_ok asked
  cases asked
  exact ⟨few,attr1,attr2,rfl⟩

end JoinNames

open JoinNames

-- What the attributes of a new result relation are to be for createRel.
structure Creatable (resultName : Name) (createAttrInfo : List AttrInfo) : Prop where
  distinct : (createAttrInfo.map AttrInfo.attrName).Nodup
  fit : ∀ info ∈ createAttrInfo, info.attrName.length < maxName
  taken : ∀ db shelf schema status db', Catalogued db shelf schema →
    (CatalogCall.createRel resultName createAttrInfo).Proper →
    RelCatalog.createRel db resultName createAttrInfo = .ok (status,db') → status ≠ .duplAttr

theorem createRel_no_duplicate {db db' : Db} {shelf : Shelf} {schema : Schema} {relation : Name}
    {attrList : List AttrInfo} {status : Status}
    (distinct : (attrList.map AttrInfo.attrName).Nodup) (catalogued : Catalogued db shelf schema)
    (proper : (CatalogCall.createRel relation attrList).Proper) (ran : RelCatalog.createRel db relation attrList =
      .ok (status,db')) :
    status ≠ .duplAttr := by
  obtain ⟨status',db1,ran',answer⟩ := catalogued.createRel_spec proper.1 proper.2
  cases ran.symm.trans ran'
  rcases answer with failed | answer
  · rw [failed]
    exact Status.noConfusion
  · rw [answer.1,Schema.create,if_neg (not_not_intro distinct)]
    split_ifs <;> exact Status.noConfusion

theorem join_names_creatable_iff {setting : Setting} {attrlist : List (Name × Name)}
    {joinattr1 joinattr2 : Name × Name} {op : Operator}
    {infos createAttrInfo : List AttrInfo} {request : Request} {resultName : Name} {s s' : Interpreter}
    (accepted : queryArguments setting attrlist (some (.join joinattr1 op joinattr2)) = .ok (.ok (infos,request)))
    (named : createInfos request resultName infos [] s = .ok (.ok,createAttrInfo,s')) :
    Creatable resultName createAttrInfo ↔ Numbering.Clear numbered increment Short s.counter [] []
      (attrlist.map Prod.snd) := by
  obtain ⟨few,attr1,attr2,rfl⟩ := queryArguments_join accepted
  have listed : infos.map AttrInfo.attrName = attrlist.map Prod.snd := by
    rw [attrInfos_names (queryArguments_infos accepted),List.map_map]
    rfl
  obtain ⟨names,shorts⟩ := createInfos_names named
  rw [List.map_nil,List.nil_append,listed,namesGiven] at names
  have short : ∀ name ∈ attrlist.map Prod.snd, Short name := by
    intro name member
    obtain ⟨info,inside,same⟩ := List.mem_map.mp (listed ▸ member)
    exact same ▸ shorts info inside
  have few_names : (attrlist.map Prod.snd).length ≤ 2 ^ 32 := by
    rw [List.length_map]
    exact few.le.trans (by decide)
  have known : Numbering.Known ([] : List Name) [] [] := fun _ => by rw [or_self]
  have ahead : Numbering.Ahead numbered increment s.counter (attrlist.map Prod.snd).length [] := fun x member =>
    absurd member List.not_mem_nil
  have judged := Numbering.names_nodup_iff known (numbered_apart s.counter few_names) ahead List.nodup_nil short
  rw [List.nil_append,← names,List.forall_mem_map] at judged
  rw [← judged]
  exact ⟨fun creatable => ⟨creatable.distinct,creatable.fit⟩,fun apart =>
    ⟨apart.1,apart.2,fun _ _ _ _ _ catalogued proper ran => createRel_no_duplicate apart.1 catalogued proper ran⟩⟩

-- R has the int attribute a, S has a and a_0.
def twinTables : List (Name × List (List UInt8)) :=
  [(relCatName,[RelDesc.bytes ⟨[82],1⟩,RelDesc.bytes ⟨[83],2⟩]),
    (attrCatName,[AttrDesc.bytes ⟨[82],[97],0,1,4⟩,AttrDesc.bytes ⟨[83],[97],0,1,4⟩,AttrDesc.bytes
      ⟨[83],[97,95,48],4,1,4⟩])]

def twinDb : Db := Db.holding (fun _ _ => zero 1024) ⟨HeapFile.fresh 0 0,none,0,nullRid⟩ twinTables

def bareSetting : Setting := ⟨id,id,0,[],⟨[],[],0,0,0⟩,.nlJoin,fun _ => none⟩

def twinJoin : Request := .join ⟨[82],[97],-1,-1,none⟩ .eq ⟨[83],[97],-1,-1,none⟩

theorem named_of_read {request : Request} {resultName : Name} {infos created : List AttrInfo} {s : Interpreter}
    {P : Interpreter → Prop}
    [DecidablePred P] (read : (createInfos request resultName infos [] s).toOption.map
      (fun r => (r.1,r.2.1,decide (P r.2.2))) = some (.ok,created,true)) :
    ∃ s', createInfos request resultName infos [] s = .ok (.ok,created,s') ∧ P s' := by
  cases ran : createInfos request resultName infos [] s with
  | error abort =>
    rw [ran] at read
    cases read
  | ok result =>
    rw [ran] at read
    obtain ⟨status,created',s'⟩ := result
    obtain ⟨rfl,rest⟩ := Prod.mk.inj (Option.some.inj read)
    obtain ⟨rfl,holds⟩ := Prod.mk.inj rest
    exact ⟨s',rfl,of_decide_eq_true holds⟩

-- R.a, S.a
theorem join_names_creatable_iff_twice : ∃ infos created s',
    queryArguments bareSetting [([82],[97]),([83],[97])] (some (.join ([82],[97]) .eq ([83],[97]))) =
      .ok (.ok (infos,twinJoin)) ∧
    createInfos twinJoin [84] infos [] ⟨twinDb,0⟩ = .ok (.ok,created,s') ∧
      created.map AttrInfo.attrName = [[97],[97,95,48]] ∧
    Creatable [84] created := by
  have accepted : queryArguments bareSetting [([82],[97]),([83],[97])] (some (.join ([82],[97]) .eq ([83],[97]))) =
      .ok (.ok ([⟨[82],[97],-1,-1,none⟩,⟨[83],[97],-1,-1,none⟩],twinJoin)) := rfl
  obtain ⟨s',named,_⟩ := named_of_read (P:=fun _ => True) (by decide +kernel :
    (createInfos twinJoin [84] [⟨[82],[97],-1,-1,none⟩,⟨[83],[97],-1,-1,none⟩] [] ⟨twinDb,0⟩).toOption.map
    (fun r => (r.1,r.2.1,decide True)) =
      some (.ok,[⟨[84],[97],1,4,none⟩,⟨[84],[97,95,48],1,4,none⟩],true))
  exact ⟨_,_,s',accepted,named,rfl,(join_names_creatable_iff accepted named).mpr (by decide +kernel)⟩

-- S.a_0, R.a, S.a: the first duplicate is named like the attribute in front.
theorem numbered_name_collides : ∃ infos created s',
    queryArguments bareSetting [([83],[97,95,48]),([82],[97]),([83],[97])] (some (.join ([82],[97]) .eq ([83],[97]))) =
      .ok (.ok (infos,twinJoin)) ∧
    createInfos twinJoin [84] infos [] ⟨twinDb,0⟩ = .ok (.ok,created,s') ∧
      created.map AttrInfo.attrName = [[97,95,48],[97],[97,95,48]] ∧
    ((RelCatalog.createRel s'.db [84] created).toOption.map Prod.fst) = some .duplAttr := by
  obtain ⟨s',named,refused⟩ := named_of_read
    (P:=fun s' => (RelCatalog.createRel s'.db [84] [⟨[84],[97,95,48],1,4,none⟩,⟨[84],[97],1,4,none⟩,
      ⟨[84],[97,95,48],1,4,none⟩]).toOption.map Prod.fst =
      some .duplAttr) (by decide +kernel :
    (createInfos twinJoin [84] [⟨[83],[97,95,48],-1,-1,none⟩,⟨[82],[97],-1,-1,none⟩,⟨[83],[97],-1,-1,none⟩]
      [] ⟨twinDb,0⟩).toOption.map
      (fun r => (r.1,r.2.1,decide ((RelCatalog.createRel r.2.2.db [84]
        [⟨[84],[97,95,48],1,4,none⟩,⟨[84],[97],1,4,none⟩,⟨[84],[97,95,48],1,4,none⟩]).toOption.map Prod.fst =
        some .duplAttr))) =
      some (.ok,[⟨[84],[97,95,48],1,4,none⟩,⟨[84],[97],1,4,none⟩,⟨[84],[97,95,48],1,4,none⟩],true))
  exact ⟨_,_,s',rfl,named,rfl,refused⟩

end Minirel
