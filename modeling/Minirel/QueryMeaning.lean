import Minirel.StatementMeaning

namespace Minirel
open ByteMemory SlotDirectory Page Heap Db Interp Database

variable {users : Name → Option HeapFile} {db db' : Db} {shelf shelf' : Shelf} {D : Database} {relation result : Name}
  {table : Table} {file : HeldFile} {s : Interpreter}
  {setting : Setting} {infos : List AttrInfo} {request : Request}

-- Arguments with names that the scanner has delivered and that fit in their arrays.
def Argument (info : AttrInfo) : Prop := Written info.relName ∧ Written info.attrName ∧ info.attrName.length < maxName

theorem resultAttrs_cons (D : Database) (request : Request) (result : Name) (info : AttrInfo)
    (infos made : List AttrInfo) (counter : Int) :
    D.resultAttrs request result (info::infos) made counter =
      (D.attr info.relName info.attrName).elim
          (.attrNotFound,made,(createName request counter made info.attrName).2) fun d =>
        D.resultAttrs request result infos
          (made ++ [⟨result,(createName request counter made info.attrName).1,d.attrType,d.attrLen,none⟩])
          (createName request counter made info.attrName).2 := by
  rw [resultAttrs]
  cases D.attr info.relName info.attrName <;> rfl

namespace Represents

-- The loop asks attrcat for what the tables say.
theorem createInfos (represents : Represents users db shelf D) (request : Request) (short : result.length < maxName)
    (arguments : ∀ info ∈ infos, Argument info)
    (made : List AttrInfo) (counter : Int) :
    ∃ db', Minirel.createInfos request result infos made ⟨db,counter⟩ =
      .ok ((D.resultAttrs request result infos made counter).1,
        (D.resultAttrs request result infos made counter).2.1,⟨db',
          (D.resultAttrs request result infos made counter).2.2⟩) ∧
      Represents users db' shelf D := by
  induction infos generalizing db made counter with
  | nil => exact ⟨db,rfl,represents⟩
  | cons info infos ih =>
    obtain ⟨rel_written,attr_written,fits⟩ := arguments info (List.mem_cons_self ..)
    obtain ⟨d,db1,asked,told,represents1⟩ := represents.attrInfo rel_written attr_written ⟨[],[],0,0,0⟩
    rw [resultAttrs_cons,Minirel.createInfos,attrInfo_ok short fits,ok_bind]
    dsimp only
    rw [asked,ok_bind]
    cases found : D.attr info.relName info.attrName with
    | none =>
      have refused : Status.attrNotFound ≠ .ok := Status.noConfusion
      exact ⟨db1,by rw [Option.isSome_none,if_neg Bool.false_ne_true]; rfl,represents1⟩
    | some d' =>
      cases told d' found
      rw [Option.isSome_some,if_pos rfl,Option.elim_some]
      exact ih represents1 (fun info member => arguments info (List.mem_cons_of_mem _ member)) _ _

theorem matchTypes (represents : Represents users db shelf D) {pairs : List (AttrInfo × AttrDesc)}
    (arguments : ∀ pair ∈ pairs, Argument pair.1) :
    ∃ status db', Minirel.matchTypes db pairs = .ok (status,db') ∧
      (status = .ok ↔ ∀ pair ∈ pairs, D.Matches pair.1 pair.2) ∧
      Represents users db' shelf D := by
  induction pairs generalizing db with
  | nil => exact ⟨.ok,db,rfl,⟨fun _ _ member => absurd member List.not_mem_nil,fun _ => rfl⟩,represents⟩
  | cons pair pairs ih =>
    obtain ⟨info,attr⟩ := pair
    obtain ⟨rel_written,attr_written,_⟩ := arguments (info,attr) (List.mem_cons_self ..)
    obtain ⟨d,db1,asked,told,represents1⟩ := represents.attrInfo rel_written attr_written ⟨[],[],0,0,0⟩
    rw [Minirel.matchTypes,asked,ok_bind]
    dsimp only
    cases found : D.attr info.relName info.attrName with
    | none =>
      have refused : Status.attrNotFound ≠ .ok := Status.noConfusion
      rw [Option.isSome_none,if_neg Bool.false_ne_true,if_pos refused]
      refine ⟨.attrNotFound,db1,rfl,⟨fun fine => absurd fine refused,fun all => ?_⟩,represents1⟩
      obtain ⟨_,there,_⟩ := all (info,attr) (List.mem_cons_self ..)
      rw [found] at there
      cases there
    | some d' =>
      cases told d' found
      rw [Option.isSome_some,if_pos rfl,if_neg (not_not_intro rfl)]
      by_cases differs : d.attrType ≠ attr.attrType ∨ d.attrLen ≠ attr.attrLen
      · have refused : Status.attrTypeMismatch ≠ .ok := Status.noConfusion
        rw [if_pos differs]
        refine ⟨.attrTypeMismatch,db1,rfl,⟨fun fine => absurd fine refused,fun all => ?_⟩,represents1⟩
        obtain ⟨_,there,type,len⟩ := all (info,attr) (List.mem_cons_self ..)
        cases found.symm.trans there
        rcases differs with other | other
        · exact absurd type other
        · exact absurd len other
      · rw [if_neg differs]
        obtain ⟨status,db2,ran,fine,represents2⟩ :=
          ih represents1 (fun pair member => arguments pair (List.mem_cons_of_mem _ member))
        refine ⟨status,db2,ran,fine.trans ?_,represents2⟩
        rw [List.forall_mem_cons]
        have own : D.Matches info attr := ⟨d,found,by tauto⟩
        exact ⟨fun rest => ⟨own,rest⟩,And.right⟩

theorem resultRelation (represents : Represents users db shelf D) {relname : Option Name}
    (named : relname.getD tmpResultName = result)
    (written : ∀ r ∈ relname, Written r) :
    ∃ db', Minirel.resultRelation db relname = .ok (if relname = none ∧ D.schema result ≠ none then none
        else some (result,if D.schema result = none then none else some (D.schema.described result)),db') ∧
          Represents users db' shelf D := by
  cases relname with
  | some r =>
    cases named
    obtain ⟨db1,asked,represents1⟩ := represents.relAttrs (written r rfl)
    refine ⟨db1,?_,represents1⟩
    rw [Minirel.resultRelation,asked,ok_bind]
    by_cases unknown : D.schema r = none <;> simp [unknown,pure_ok]
  | none =>
    cases named
    obtain ⟨db1,asked,represents1⟩ := represents.relInfo (by decide : Written tmpResultName) ⟨[],0⟩
    refine ⟨db1,?_,represents1⟩
    rw [Minirel.resultRelation,asked,ok_bind]
    by_cases unknown : D.schema tmpResultName = none <;> simp [unknown,pure_ok]

theorem attr_listed {attrName : Name} {d : AttrDesc} (known : D.attr relation attrName = some d) :
    d ∈ D.schema.described relation ∧ d.attrName = attrName := by
  refine ⟨List.mem_of_find?_eq_some known,?_⟩
  simpa using List.find?_some known

theorem names_found (represents : Represents users db shelf D) {cat : Heap}
    (attributes : ∀ relation, Minirel.attributes cat relation = D.schema.described relation)
    {info : AttrInfo} {d : AttrDesc} (names : D.Names relation info d) : Found cat relation info d := by
  obtain ⟨rel,known⟩ := names
  obtain ⟨listed,named⟩ := attr_listed known
  refine ⟨rel,?_,?_⟩
  · rw [← named]
    exact represents.catalogued.registered.attrsGiven listed
  · rw [attrOf,attributes]
    exact known

theorem described (there : D.tables relation = some table) :
    D.schema.described relation = Schema.description relation table.attrs := by
  rw [Schema.described,schema_some there]
  rfl

theorem listed_inside (represents : Represents users db shelf D) (there : D.tables relation = some table) {d : AttrDesc}
    (listed : d ∈ D.schema.described relation) {t : List UInt8} (member : t ∈ table.tuples) : Inside d t := by
  rw [described there] at listed
  exact (represents.sound relation table there).inside (represents.some_attr there) member listed

-- startScan accepts the attributes of the tables.
theorem scannable (represents : Represents users db shelf D) (there : D.tables relation = some table) {d : AttrDesc}
    (listed : d ∈ D.schema.described relation) : ∃ type, Scannable d type := by
  have sound := represents.sound relation table there
  rw [described there] at listed
  obtain ⟨known,four⟩ := sound.typed relation d listed
  obtain ⟨type,code⟩ := Option.isSome_iff_exists.mp known
  obtain ⟨low,positive,_⟩ := (sound.laid (represents.some_attr there) relation).inside d listed
  refine ⟨type,code,low,positive,fun number => four fun string => number ?_⟩
  rw [string] at code
  exact (Option.some.inj code).symm

theorem bag_mem {heap : Heap} {tuples : Multiset (List UInt8)} (bag : heap.bag = tuples) {e : Entry}
    (member : e ∈ records heap) : e.2 ∈ tuples := by
  rw [← bag,Heap.bag,Multiset.mem_coe]
  exact List.mem_map_of_mem member

theorem bag_card {heap : Heap} {tuples : Multiset (List UInt8)} (bag : heap.bag = tuples) :
    (records heap).length = tuples.card := by
  rw [← bag,Heap.bag,Multiset.coe_card,List.length_map]

theorem coe_filter (wanted : List UInt8 → Bool) (tuples : List (List UInt8)) :
    ((tuples.filter wanted : List (List UInt8)) : Multiset (List UInt8)) =
    Multiset.filter (fun t => wanted t) tuples := by
  rw [Multiset.filter_coe]
  simp only [Bool.decide_eq_true]

theorem selects (represents : Represents users db shelf D) {source : Name} {table target : Table}
    {descs : List AttrDesc} {attr : Option AttrInfo}
    {attrDesc : Option AttrDesc} (user : User result) (into : D.tables result = some target)
    (there : D.tables source = some table)
    (some_attr : infos ≠ []) (found : List.Forall₂ (D.Names source) infos descs)
    (chosen : Option.Rel (D.Names source) attr attrDesc)
    (narrow : Narrow descs) (apart : source ≠ result) (width : (descs.map AttrDesc.attrLen).sum =
      (target.attrs.map AttrInfo.attrLen).sum)
    (atof : List UInt8 → List UInt8) (op : Operator) (text : List UInt8) (turns : Nat)
    (enough : table.tuples.card < turns) :
    let rows := (table.tuples.filter fun t => HeapFileScan.accepts (selectCondition atof attrDesc op text) t).map
      (projection descs)
    D.Room rows.card → ∃ db' shelf', QU_Select atof turns db result infos attr op text = .ok (.ok,db') ∧
      Represents users db' shelf' (D.gain result rows) := by
  intro rows room
  obtain ⟨cat,catalog,wide,attributes⟩ := represents.found
  obtain ⟨file,present,bag⟩ := represents.tables source table there
  obtain ⟨own,at_result,own_bag⟩ := represents.tables result target into
  have named := represents.catalogued.declared source table.attrs (schema_some there)
  have found' : List.Forall₂ (Found cat.heap source) infos descs :=
    found.imp fun _ _ names => represents.names_found attributes names
  have chosen' : Option.Rel (Found cat.heap source) attr attrDesc := by
    cases chosen with
    | some names => exact .some (represents.names_found attributes names)
    | none => exact .none
  have laid : ∀ e ∈ records file.heap, ∀ d ∈ Minirel.attributes cat.heap source, Inside d e.2 := by
    rw [attributes]
    exact fun e member d listed => represents.listed_inside there listed (bag_mem bag member)
  have query : SelectQuery db shelf cat file own source result infos descs attr attrDesc :=
    ⟨represents.catalogued.stands,catalog,wide,named.1.1,present,at_result,laid,some_attr,found',chosen'⟩
  have listed : (selected file.heap (selectCondition atof attrDesc op text) descs : Multiset (List UInt8)) = rows := by
    rw [selected_of_bytes,← Multiset.map_coe,coe_filter]
    exact congrArg (fun tuples => (Multiset.filter _ tuples).map (projection descs)) bag
  have count : (selected file.heap (selectCondition atof attrDesc op text) descs).length = rows.card := by
    rw [← listed,Multiset.coe_card]
  have sound : ∀ c, selectCondition atof attrDesc op text = some c → c.Sound := by
    intro c made
    obtain ⟨d,given,made⟩ := Option.bind_eq_some_iff.mp made
    obtain ⟨type,code,rfl⟩ := Option.map_eq_some_iff.mp made
    rw [given] at chosen
    cases chosen with
    | some names =>
      obtain ⟨type',scannable⟩ := represents.scannable there (attr_listed names.2).1
      cases code.symm.trans scannable.code
      exact scannable.sound _ _
  have length : db.length result ≤ D.written + 3 :=
    represents.lengths result (by rw [at_result]; exact Option.some_ne_none _)
  obtain ⟨db',ran,fills⟩ := QU_Select_room query apart atof op text narrow sound turns
    (by rw [bag_card bag]; exact enough)
    (by rw [count]; unfold Room at room; omega)
  have stays := QU_Select_stays (represents.aside result) (Function.update_self ..) atof turns infos attr op text _ ran
  obtain ⟨shelf',represents'⟩ := represents.gain user into at_result own_bag fills stays (by
    intro t member
    obtain ⟨e,inside,rfl⟩ := List.mem_map.mp member
    have there_e := bag_mem bag (List.mem_filter.mp inside).1
    rw [← width]
    exact length_gathered fun d listed => by
      have known := Found.listed found' d listed
      rw [attributes] at known
      exact represents.listed_inside there known there_e)
  rw [listed] at represents'
  exact ⟨db',shelf',ran,represents'⟩

theorem joins (represents : Represents users db shelf D) {one two : Name} {table1 table2 target : Table}
    {descs : List AttrDesc} {attr1 attr2 : AttrInfo}
    {d1 d2 : AttrDesc} (user : User result) (into : D.tables result = some target) (there1 : D.tables one = some table1)
    (there2 : D.tables two = some table2) (some_attr : infos ≠ [])
    (found : List.Forall₂ (fun info d => D.Names one info d ∨ D.Names two info d) infos descs)
    (found1 : D.Names one attr1 d1)
    (found2 : D.Names two attr2 d2) (lengths : d1.attrLen = d2.attrLen) (narrow : Narrow descs)
    (apart1 : one ≠ result) (apart2 : two ≠ result)
    (untyped : attr1.attrType = attr2.attrType ∧ attr1.attrLen = attr2.attrLen)
    (width : (descs.map AttrDesc.attrLen).sum = (target.attrs.map AttrInfo.attrLen).sum) (op : Operator) (turns : Nat)
    (enough1 : table1.tuples.card < turns) (enough2 : table2.tuples.card < turns) {joinMethod : JoinType}
    (method : joinMethod = .nlJoin ∨ joinMethod = .hashJoin ∧ op ≠ .eq) :
    let rows := table1.tuples.bind fun t1 =>
      (table2.tuples.filter fun t2 => HeapFileScan.accepts (joinCondition d1 d2 op t1) t2).map fun t2 =>
      gathered (sourceOf one t1 t2) descs
    D.Room rows.card → ∃ db' shelf', QU_Join joinMethod turns db result infos attr1 op attr2 = .ok (.ok,db') ∧
      Represents users db' shelf' (D.gain result rows) := by
  intro rows room
  obtain ⟨cat,catalog,wide,attributes⟩ := represents.found
  obtain ⟨file1,present1,bag1⟩ := represents.tables one table1 there1
  obtain ⟨file2,present2,bag2⟩ := represents.tables two table2 there2
  obtain ⟨own,at_result,own_bag⟩ := represents.tables result target into
  have named1 := represents.catalogued.declared one table1.attrs (schema_some there1)
  have named2 := represents.catalogued.declared two table2.attrs (schema_some there2)
  have found' : List.Forall₂ (FoundIn cat.heap one two) infos descs :=
    found.imp fun _ _ either => either.imp (represents.names_found attributes) (represents.names_found attributes)
  have laid : ∀ {relation table heap}, D.tables relation = some table → Heap.bag heap = table.tuples →
      ∀ e ∈ records heap, ∀ d ∈ Minirel.attributes cat.heap relation, Inside d e.2 := by
    intro relation table heap there bag e member d listed
    rw [attributes] at listed
    exact represents.listed_inside there listed (bag_mem bag member)
  have query : JoinQuery db shelf cat file1 file2 own one two result infos descs attr1 attr2 d1 d2 :=
    ⟨⟨represents.catalogued.stands,catalog,wide,named1.1.1,named2.1.1,present1,present2,at_result,laid there1 bag1,
      laid there2 bag2,
      some_attr,found',represents.names_found attributes found1,represents.names_found attributes found2⟩,lengths⟩
  have listed : (joined one descs d1 d2 op (records file1.heap) file2.heap : Multiset (List UInt8)) = rows := by
    have inner : ∀ t1, (joinedWith one descs d1 d2 op file2.heap t1 : Multiset (List UInt8)) =
        (table2.tuples.filter fun t2 => HeapFileScan.accepts (joinCondition d1 d2 op t1) t2).map fun t2 =>
        gathered (sourceOf one t1 t2) descs := by
      intro t1
      rw [← bag2,Heap.bag,← coe_filter,Multiset.map_coe,List.filter_map,List.map_map]
      rfl
    rw [joined,← Multiset.coe_bind]
    simp only [inner]
    change _ = table1.tuples.bind _
    rw [← bag1,Heap.bag,← Multiset.map_coe,Multiset.bind_map]
  have count : (joined one descs d1 d2 op (records file1.heap) file2.heap).length = rows.card := by
    rw [← listed,Multiset.coe_card]
  obtain ⟨type,scannable⟩ := represents.scannable there2 (attr_listed found2.2).1
  have length : db.length result ≤ D.written + 3 :=
    represents.lengths result (by rw [at_result]; exact Option.some_ne_none _)
  obtain ⟨db',ran,fills⟩ := QU_NL_Join_room query apart1 apart2 untyped.1 untyped.2 narrow scannable op turns
    (by rw [bag_card bag1]; exact enough1)
    (by rw [bag_card bag2]; exact enough2) (by rw [count]; unfold Room at room; omega)
  have chosen : QU_Join joinMethod turns db result infos attr1 op attr2 = .ok (.ok,db') := by
    rw [QU_Join,if_pos method,ran]
  have stays := QU_Join_stays (represents.aside result) (Function.update_self ..) joinMethod turns infos
    attr1 op attr2 _ chosen
  obtain ⟨shelf',represents'⟩ := represents.gain user into at_result own_bag fills stays (by
    intro t member
    obtain ⟨e1,inside1,member⟩ := List.mem_flatMap.mp member
    obtain ⟨e2,inside2,rfl⟩ := List.mem_map.mp member
    rw [← width]
    exact length_gathered (query.inside e1 inside1 e2 (List.mem_filter.mp inside2).1))
  rw [listed] at represents'
  exact ⟨db',shelf',chosen,represents'⟩

-- The rows that were asked for come to the result.
theorem runs (represents : Represents users db shelf D) {target : Table} {sources : List Name}
    {rows : Multiset (List UInt8)} (user : User result)
    (into : D.tables result = some target) (asked : Requested setting D infos request sources rows)
    (apart : result ∉ sources) (room : D.Room rows.card)
    (untyped : ∀ attr1 op attr2, request = .join attr1 op attr2 → attr1.attrType = attr2.attrType ∧
      attr1.attrLen = attr2.attrLen)
    (width : ∀ descs, List.Forall₂ (fun info d => D.attr info.relName info.attrName = some d) infos descs →
      (descs.map AttrDesc.attrLen).sum = (target.attrs.map AttrInfo.attrLen).sum) :
    ∃ db' shelf', runRequest setting db result infos request = .ok (.ok,db') ∧
      Represents users db' shelf' (D.gain result rows) := by
  have named : ∀ {relation info d}, D.Names relation info d → D.attr info.relName info.attrName = some d := by
    rintro relation info d ⟨rfl,known⟩
    exact known
  cases asked with
  | selected there some_attr found chosen narrow enough =>
    exact represents.selects user into there some_attr found chosen narrow
      (fun same => apart (List.mem_singleton.mpr same.symm))
      (width _ (found.imp fun _ _ => named)) setting.atof _ _ setting.turns enough room
  | joined there1 there2 some_attr found found1 found2 lengths narrow method enough1 enough2 =>
    exact represents.joins user into there1 there2 some_attr found found1 found2 lengths narrow
      (fun same => apart (same ▸ List.mem_cons_self ..))
      (fun same => apart (same ▸ List.mem_cons_of_mem _ (List.mem_cons_self ..))) (untyped _ _ _ rfl)
      (width _ (found.imp fun _ _ either => either.elim named named)) _ setting.turns enough1 enough2 method room
  | @notJoined attr1 attr2 op method =>
    obtain ⟨types,lens⟩ := untyped attr1 op attr2 rfl
    have same : ¬ (attr1.attrType ≠ attr2.attrType ∨ attr1.attrLen ≠ attr2.attrLen) :=
      not_or.mpr ⟨not_not_intro types,not_not_intro lens⟩
    refine ⟨db,shelf,?_,represents.counted gain_zero (Nat.le_refl _)⟩
    rw [runRequest,QU_Join,if_neg method,QU_SM_Join,QU_Hash_Join,if_neg same]
    split <;> rfl

-- The attributes in the tables are as the interpreter declares them.
theorem known_usable (represents : Represents users db shelf D) {attrName : Name} {d : AttrDesc}
    (known : D.attr relation attrName = some d) :
    D.schema relation ≠ none ∧ ∃ attr, Usable attr ∧ d.attrType = attr.attrType ∧ d.attrLen = attr.attrLen := by
  obtain ⟨listed,_⟩ := attr_listed known
  have declared : D.schema relation ≠ none := by
    intro unknown
    rw [Schema.described,unknown] at listed
    cases listed
  obtain ⟨table,there⟩ := Option.ne_none_iff_exists'.mp (mt schema_none.mpr declared)
  rw [described there] at listed
  obtain ⟨_,attr,inside,_,type,len,_⟩ := Schema.mem_description listed
  exact ⟨declared,attr,(represents.sound relation table there).usable attr inside,type,len⟩

end Represents

-- What an attribute to project on gives a new result.
structure Made (D : Database) (info attr : AttrInfo) : Prop where
  written : Written attr.attrName
  known : ∃ d, D.attr info.relName info.attrName = some d ∧ attr.attrType = d.attrType ∧ attr.attrLen = d.attrLen

theorem resultAttrs_made {made all : List AttrInfo} {counter counter' : Int} (arguments : ∀ info ∈ infos, Argument info)
    (done : D.resultAttrs request result infos made counter = (.ok,all,counter')) : ∃ new, all = made ++ new ∧
    List.Forall₂ (Made D) infos new := by
  induction infos generalizing made counter with
  | nil =>
    cases done
    exact ⟨[],(List.append_nil _).symm,.nil⟩
  | cons info infos ih =>
    rw [resultAttrs_cons] at done
    cases found : D.attr info.relName info.attrName with
    | none =>
      rw [found] at done
      cases done
    | some d =>
      rw [found,Option.elim_some] at done
      obtain ⟨new,rfl,rest⟩ := ih (fun info member => arguments info (List.mem_cons_of_mem _ member)) done
      refine ⟨_::new,List.append_assoc ..,.cons ⟨?_,d,found,rfl,rfl⟩ rest⟩
      exact createName_written request counter made (arguments info (List.mem_cons_self ..)).2.1

-- Attributes of the same lengths, whichever way they are found, have one width.
theorem width_unique {β : Type} {len : β → Int} {find : AttrInfo → Option AttrDesc} {descs : List AttrDesc}
    {attrs : List β}
    (found : List.Forall₂ (fun info d => find info = some d) infos descs)
    (made : List.Forall₂ (fun info attr => ∃ d, find info = some d ∧ d.attrLen = len attr) infos attrs) :
    (descs.map AttrDesc.attrLen).sum = (attrs.map len).sum := by
  induction found generalizing attrs with
  | nil =>
    cases made
    rfl
  | cons here _ ih =>
    cases made with
    | cons there rest =>
      obtain ⟨d,known,same⟩ := there
      cases here.symm.trans known
      rw [List.map_cons,List.map_cons,List.sum_cons,List.sum_cons,ih rest,same]

theorem queryArguments_arguments {attrlist : List (Name × Name)} {qual : Option Qual}
    (made : queryArguments setting attrlist qual = .ok (.ok (infos,request)))
    (written : ∀ a ∈ attrlist, Written a.1 ∧ Written a.2) :
    infos.length ≤ maxAttrs ∧ (∀ info ∈ infos, Argument info) ∧
      ∀ attr1 op attr2, request = .join attr1 op attr2 → attr1.attrType = attr2.attrType ∧
        attr1.attrLen = attr2.attrLen := by
  obtain ⟨few,named,_⟩ := queryArguments_written made written
  obtain ⟨_,copied,asked⟩ := queryArguments_made made
  have stored := (attrInfos_defined_iff _).mp (copied ▸ defined_ok infos)
  rw [attrInfos_ok stored] at copied
  cases copied
  refine ⟨few,fun info member => ⟨(named info member).1,(named info member).2,?_⟩,?_⟩
  · obtain ⟨e,inside,rfl⟩ := List.mem_map.mp member
    exact (stored e inside).2
  · rintro attr1 op attr2 rfl
    obtain ⟨joinattr1,joinattr2,rfl⟩ := requestOf_join asked
    obtain ⟨a1,copied1,asked⟩ := of_bind_ok asked
    obtain ⟨a2,copied2,asked⟩ := of_bind_ok asked
    cases asked
    obtain ⟨rel1,attr1⟩ := (attrInfo_defined_iff _ _ _ _ _).mp (copied1 ▸ defined_ok _)
    obtain ⟨rel2,attr2⟩ := (attrInfo_defined_iff _ _ _ _ _).mp (copied2 ▸ defined_ok _)
    rw [attrInfo_ok rel1 attr1] at copied1
    rw [attrInfo_ok rel2 attr2] at copied2
    cases copied1
    cases copied2
    exact ⟨rfl,rfl⟩

end Minirel
