import Minirel.InterpMeaning
import Minirel.Simulation
import Minirel.StartMeaning

namespace Minirel
open ByteMemory Page Heap Db Interp Database

-- The catalogs list themselves, and there is nothing else.
def Database.start : Database where
  tables := fun name =>
    if name = relCatName then some ⟨Schema.infos relCatAttributes,relRows⟩
    else if name = attrCatName then some ⟨Schema.infos attrCatAttributes,attrRows⟩ else none
  counter := 0
  written := 7

-- A statement of the parser, whose names have been written as names are.
def Stated (D : Database) (i : Setting × Node) (answer : Multiset (List UInt8)) (D' : Database) : Prop :=
  (∀ name ∈ i.2.names, Written name) ∧ Means i.1 D i.2 answer D'

def execute (i : Setting × Node) (s : Interpreter) : Except Abort (List Record × Interpreter) :=
    interpPrinting i.1 i.2 s

-- The files of the directory have the tables' tuples, and there are no others.
def Db.Shows (db : Db) (D : Database) : Prop :=
  (∀ name table, D.tables name = some table → ∃ rows, db.contents name = .ok rows ∧ (rows : Multiset (List UInt8)) =
    table.tuples) ∧
    ∀ name, D.tables name = none → db.files name = none

-- One run of minirel, with what is in its memory at first.
structure Invocation where
  script : List (Setting × Node)
  stale : Name → Int → Page
  raw : HeapFileScan

def Invocation.run (invocation : Invocation) (db : Db) : Except Abort (List (List Record) × Db) := do
  let (o,db) ← openObjects (db.exited invocation.stale invocation.raw)
  let (shown,s) ← Simulation.runAll execute invocation.script ⟨db,0⟩
  let db ← UT_Quit o s.db
  return (shown,db)

-- Every process counts from zero.
def Invocation.Means (D : Database) (invocation : Invocation) (answers : List (Multiset (List UInt8)))
    (D' : Database) : Prop :=
  Simulation.Script Stated {D with counter := 0} invocation.script answers D'

def nobody : Name → Option HeapFile := fun _ => none

def CatalogObjects.users (o : CatalogObjects) : Name → Option HeapFile :=
  Function.update (Function.update nobody relCatName (some o.relCat)) attrCatName (some o.attrCat)

-- Between two processes.
def AtRest (db : Db) (D : Database) : Prop := ∃ shelf, Represents nobody db shelf D

variable {users : Name → Option HeapFile} {db db0 db' : Db} {shelf : Shelf} {D : Database} {s : Interpreter}
  {catalog : Name} {file file' : HeldFile}
  {o : CatalogObjects}

namespace Represents

theorem shows_tables (represents : Represents users db shelf D) : db.Shows D := by
  refine ⟨fun name table there => ?_,fun name undeclared => represents.catalogued.missing name
    (schema_none.mpr undeclared)⟩
  obtain ⟨file,present,bag⟩ := represents.tables name table there
  exact ⟨_,Db.contents_spec represents.catalogued.stands present,bag⟩

-- A catalog that has been opened or closed, and is otherwise as it was.
theorem used_anew (represents : Represents users db shelf D) (either : catalog = relCatName ∨ catalog = attrCatName)
    (present : shelf catalog = some file) (stands : db'.Stands (Function.update shelf catalog (some file')))
    {user : Option HeapFile}
    (used : UsedBy user file'.books) (same : file'.heap = file.heap) (elsewhere : Elsewhere catalog db db')
    (lengths : ∀ other, db'.length other = db.length other) :
    Represents (Function.update users catalog user) db' (Function.update shelf catalog (some file')) D := by
  have catalogued := represents.catalogued
  have records : SameRecords shelf (Function.update shelf catalog (some file')) := .put present (by rw [same])
  have not_user : ∀ {name}, User name → name ≠ catalog := by
    rintro name own rfl
    exact either.elim own.1 own.2
  refine ⟨⟨stands,?_,?_,catalogued.declared,catalogued.catalogs,?_,?_⟩,?_,represents.sound,represents.itself,?_,?_,?_⟩
  · obtain ⟨rc,rels⟩ := catalogued.relCat
    obtain ⟨rc',at_rel,kept⟩ := records.find rels.present
    exact ⟨rc',rels.same_records at_rel kept⟩
  · obtain ⟨ac,attrLists⟩ := catalogued.attrCat
    obtain ⟨ac',at_attr,kept⟩ := records.find attrLists.present
    exact ⟨ac',attrLists.same_records at_attr kept⟩
  · intro name undeclared
    have apart : name ≠ catalog := by
      rintro rfl
      exact either.elim (fun is_rel => catalogued.catalogs.1 (is_rel ▸ undeclared)) fun is_attr =>
        catalogued.catalogs.2 (is_attr ▸ undeclared)
    rw [elsewhere name apart]
    exact catalogued.missing name undeclared
  · intro name declared not_rel not_attr
    rw [Function.update_of_ne (not_user ⟨not_rel,not_attr⟩)]
    exact catalogued.closed name declared not_rel not_attr
  · intro name table there
    obtain ⟨found,at_name,bag⟩ := represents.tables name table there
    obtain ⟨found',at_name',kept⟩ := records.find at_name
    exact ⟨found',at_name',by rw [Heap.bag,kept]; exact bag⟩
  · intro name on
    rw [lengths]
    exact represents.lengths name (mt (records.off name).mpr on)
  · intro name found at_name
    by_cases here : name = catalog
    · rw [here,Function.update_self] at at_name
      cases at_name
      rw [here,Function.update_self]
      exact used
    · rw [Function.update_of_ne here] at at_name ⊢
      exact represents.used name found at_name
  · intro name own
    rw [Function.update_of_ne (not_user own)]
    exact represents.free name own

theorem catalog_present (represents : Represents users db shelf D)
    (either : catalog = relCatName ∨ catalog = attrCatName) :
    ∃ file, shelf catalog = some file := by
  rcases either with rfl | rfl
  · obtain ⟨rc,rels⟩ := represents.catalogued.relCat
    exact ⟨rc,rels.present⟩
  · obtain ⟨ac,attrLists⟩ := represents.catalogued.attrCat
    exact ⟨ac,attrLists.present⟩

theorem opens (represents : Represents users db shelf D) (either : catalog = relCatName ∨ catalog = attrCatName)
    (unused : users catalog = none) :
    ∃ h db' shelf', db.newHeapFile catalog = .ok (.ok,h,db') ∧
      Represents (Function.update users catalog (some h)) db' shelf' D := by
  obtain ⟨file,present⟩ := represents.catalog_present either
  have used := represents.used catalog file present
  rw [unused] at used
  obtain ⟨h,db',file',made,stands,used',same,elsewhere,lengths⟩ := represents.catalogued.stands.opens present used
  exact ⟨h,db',_,made,represents.used_anew either present stands used' same elsewhere lengths⟩

theorem closes {h : HeapFile} (represents : Represents users db shelf D)
    (either : catalog = relCatName ∨ catalog = attrCatName)
    (user : users catalog = some h) :
    ∃ db' shelf', db.deleteHeapFile catalog h = .ok db' ∧
      Represents (Function.update users catalog none) db' shelf' D := by
  obtain ⟨file,present⟩ := represents.catalog_present either
  have used := represents.used catalog file present
  rw [user] at used
  obtain ⟨db',file',deleted,stands,used',same,elsewhere,lengths⟩ := represents.catalogued.stands.closes present used
  exact ⟨db',_,deleted,represents.used_anew either present stands used' same elsewhere lengths⟩

theorem starts (represents : Represents nobody db shelf D) :
    ∃ o db' shelf', openObjects db = .ok (o,db') ∧ Represents o.users db' shelf' D := by
  obtain ⟨relCat,db1,shelf1,made1,represents1⟩ := represents.opens (.inl rfl) rfl
  have unused : Function.update nobody relCatName (some relCat) attrCatName = none :=
    Function.update_of_ne (by decide) ..
  obtain ⟨attrCat,db2,shelf2,made2,represents2⟩ := represents1.opens (.inr rfl) unused
  refine ⟨⟨relCat,attrCat⟩,db2,shelf2,?_,represents2⟩
  simp only [openObjects,call,made1,made2,ok_bind,if_true]
  rfl

theorem quits (represents : Represents o.users db shelf D) : ∃ db' shelf', UT_Quit o db = .ok db' ∧
    Represents nobody db' shelf' D := by
  have relCat : o.users relCatName = some o.relCat :=
    (Function.update_of_ne (by decide) ..).trans (Function.update_self ..)
  obtain ⟨db1,shelf1,closed1,represents1⟩ := represents.closes (.inl rfl) relCat
  have attrCat : Function.update o.users relCatName none attrCatName = some o.attrCat :=
    (Function.update_of_ne (by decide) ..).trans (Function.update_self ..)
  obtain ⟨db2,shelf2,closed2,represents2⟩ := represents1.closes (.inr rfl) attrCat
  have gone : Function.update (Function.update o.users relCatName none) attrCatName none = nobody := by
    funext name
    by_cases is_attr : name = attrCatName
    · rw [is_attr,Function.update_self]
      rfl
    rw [Function.update_of_ne is_attr]
    by_cases is_rel : name = relCatName
    · rw [is_rel,Function.update_self]
      rfl
    · rw [Function.update_of_ne is_rel,CatalogObjects.users,Function.update_of_ne is_attr,Function.update_of_ne is_rel]
  rw [gone] at represents2
  refine ⟨db2,shelf2,?_,represents2⟩
  rw [UT_Quit,closed1,ok_bind,closed2]

-- Nothing that matters is lost with the memory.
theorem exited (represents : Represents nobody db shelf D) (stale : Name → Int → Page) (raw : HeapFileScan) :
    Represents nobody (db.exited stale raw) shelf D := by
  have catalogued := represents.catalogued
  refine ⟨⟨?_,catalogued.relCat,catalogued.attrCat,catalogued.declared,catalogued.catalogs,?_,catalogued.closed⟩,
    represents.tables,represents.sound,
    represents.itself,?_,represents.used,represents.free⟩
  · intro name file there
    have holds := catalogued.stands name file there
    have used := represents.used name file there
    obtain ⟨books,heap,recCnt⟩ := file
    cases used with
    | free first => exact holds.exited stale raw
  · intro name undeclared
    rw [Db.exited]
    dsimp only
    rw [catalogued.missing name undeclared]
    rfl
  · intro name on
    rw [Db.exited_length]
    exact represents.lengths name on

end Represents

theorem Serves.shows (serves : Serves users s D) : s.db.Shows D := by
  obtain ⟨⟨shelf,represents⟩,_⟩ := serves
  exact represents.shows_tables

theorem execute_simulates (users : Name → Option HeapFile) :
    Simulation.Simulates Stated execute (Serves users) answerOf := by
  intro s i D answer D' serves stated
  obtain ⟨recs,s',ran,told,serves'⟩ := performs serves stated.1 stated.2
  exact ⟨recs,s',ran,told,serves'⟩

theorem invocations_simulate : Simulation.Simulates Invocation.Means Invocation.run AtRest (List.map answerOf) := by
  intro db D invocation answers D' rests means
  obtain ⟨shelf,represents⟩ := rests
  obtain ⟨o,db1,shelf1,opened,represents1⟩ := (represents.exited invocation.stale invocation.raw).starts
  have serves : Serves o.users ⟨db1,0⟩ {D with counter := 0} := ⟨⟨shelf1,represents1.counted rfl (Nat.le_refl _)⟩,rfl⟩
  obtain ⟨shown,s,ran,told,⟨shelf2,represents2⟩,_⟩ := (execute_simulates o.users).runAll means serves
  obtain ⟨db3,shelf3,quit,represents3⟩ := represents2.quits
  refine ⟨shown,db3,?_,told,shelf3,represents3⟩
  rw [Invocation.run,opened,ok_bind]
  dsimp only
  rw [ran,ok_bind]
  dsimp only
  rw [quit]
  rfl

-- What UT_Print shows left out, that is interp, statement after statement.
theorem runAll_interp (is : List (Setting × Node)) (s : Interpreter) :
    (Simulation.runAll execute is s).map Prod.snd = is.foldlM (fun s i => interp i.1 i.2 s) s := by
  rw [Simulation.runAll_foldlM]
  congr 1
  funext s i
  exact interpPrinting_interp i.1 i.2 s

namespace Database

theorem start_schema : start.schema = Schema.start := by
  funext name
  rw [schema,start,Schema.start]
  dsimp only
  split_ifs <;> rfl

theorem start_cases {name : Name} {table : Table} (there : start.tables name = some table) :
    (name = relCatName ∧ table = ⟨Schema.infos relCatAttributes,relRows⟩) ∨
    (name = attrCatName ∧ table = ⟨Schema.infos attrCatAttributes,attrRows⟩) := by
  unfold start at there
  dsimp only at there
  split_ifs at there with is_rel is_attr
  · exact .inl ⟨is_rel,(Option.some.inj there).symm⟩
  · exact .inr ⟨is_attr,(Option.some.inj there).symm⟩

theorem infos_usable {attrs : List AttrDesc} (typed : ∀ d ∈ attrs, (Datatype.ofCode d.attrType).isSome ∧
    (1 ≤ d.attrLen ∧ d.attrLen ≤ 255) ∧
    (d.attrType ≠ Datatype.string.code → d.attrLen = 4)) : ∀ attr ∈ Schema.infos attrs, Usable attr := by
  intro attr member
  obtain ⟨d,listed,rfl⟩ := List.mem_map.mp member
  obtain ⟨type,narrow,four⟩ := typed d listed
  exact ⟨type,narrow,four⟩

theorem start_sound {name : Name} {table : Table} (there : start.tables name = some table) : table.Sound := by
  rcases start_cases there with ⟨_,rfl⟩ | ⟨_,rfl⟩
  · exact ⟨infos_usable (by decide),by decide,by decide,by decide⟩
  · exact ⟨infos_usable (by decide),by decide,by decide,by decide⟩

end Database

theorem Building.rests {hdr hdr' n m : Int} (building : Building db0 db {Pool.Books.unused with first := hdr}
    {Pool.Books.unused with first := hdr'} n m
    relRows attrRows) (within : Within db 5 10) (bare : ∀ name, db0.files name = none) : AtRest db Database.start := by
  obtain ⟨shelf,registered,only⟩ := building.registered
  obtain ⟨rc,rels⟩ := registered.relCat
  obtain ⟨ac,attrLists⟩ := registered.attrCat
  refine ⟨shelf,?_,?_,fun name table there => Database.start_sound there,?_,?_,?_,fun _ _ => rfl⟩
  · rw [start_schema]
    refine ⟨registered.stands,registered.relCat,registered.attrCat,registered.declared,by decide,?_,?_⟩
    · intro relation undeclared
      rw [building.others relation]
      · exact bare relation
      · rintro rfl
        cases undeclared
      · rintro rfl
        cases undeclared
    · intro relation declared not_rel not_attr
      rcases Schema.start_cases relation with is_rel | is_attr | undeclared
      · exact absurd is_rel not_rel
      · exact absurd is_attr not_attr
      · exact absurd undeclared declared
  · intro name table there
    rcases start_cases there with ⟨rfl,rfl⟩ | ⟨rfl,rfl⟩
    · refine ⟨rc,rels.present,?_⟩
      rcases only _ rc rels.present with ⟨_,whole,_⟩ | ⟨other,_⟩
      · rw [Heap.bag,whole]
      · exact absurd other (by decide)
    · refine ⟨ac,attrLists.present,?_⟩
      rcases only _ ac attrLists.present with ⟨other,_⟩ | ⟨_,whole,_⟩
      · exact absurd other (by decide)
      · rw [Heap.bag,whole]
  · rw [start_schema]
    exact ⟨rfl,rfl⟩
  · intro name on
    obtain ⟨file,there⟩ := Option.ne_none_iff_exists'.mp on
    rcases only name file there with ⟨rfl,_⟩ | ⟨rfl,_⟩
    · exact within.relCat.trans (by decide)
    · exact within.attrCat
  · intro name file there
    rcases only name file there with ⟨_,_,books⟩ | ⟨_,_,books⟩
    · rw [books]
      exact .free hdr
    · rw [books]
      exact .free hdr'

theorem dbcreate_rests (bare : ∀ name, db0.files name = none) : ∃ db1, dbcreate db0 = .ok db1 ∧
    AtRest db1 Database.start := by
  obtain ⟨db1,hdr,hdr',n,m,built,building,within⟩ := dbcreate_within (bare relCatName) (bare attrCatName)
  exact ⟨db1,built,building.rests within bare⟩

-- From the database that dbcreate makes, whatever a script of statements means, the interpreter does.
theorem interpreter_refines_database (db0 : Db) (bare : ∀ name, db0.files name = none) (script : List (Setting × Node))
    (answers : List (Multiset (List UInt8))) (D : Database)
    (means : Simulation.Script Stated Database.start script answers D) :
    ∃ db1 db2 shown s, dbcreate db0 = .ok db1 ∧ openCatalogs db1 = .ok db2 ∧
      Simulation.runAll execute script ⟨db2,0⟩ = .ok (shown,s) ∧
      script.foldlM (fun s i => interp i.1 i.2 s) ⟨db2,0⟩ = .ok s ∧ shown.map answerOf = answers ∧ s.db.Shows D := by
  obtain ⟨db1,built,shelf,represents⟩ := dbcreate_rests bare
  obtain ⟨o,db2,shelf2,opened,represents2⟩ := represents.starts
  obtain ⟨shown,s,ran,told,serves⟩ := (execute_simulates o.users).runAll (g:=⟨db2,0⟩) means ⟨⟨shelf2,represents2⟩,rfl⟩
  refine ⟨db1,db2,shown,s,built,?_,ran,?_,told,serves.shows⟩
  · rw [← openObjects_openCatalogs,opened]
    rfl
  · rw [← runAll_interp,ran]
    rfl

-- The database outlives the processes: so do any number of them, one after the other, each with any memory.
theorem invocations_refine_database (db0 : Db) (bare : ∀ name, db0.files name = none) (invocations : List Invocation)
    (answers : List (List (Multiset (List UInt8)))) (D : Database)
    (means : Simulation.Script Invocation.Means Database.start invocations answers D) :
    ∃ db1 shown db, dbcreate db0 = .ok db1 ∧ Simulation.runAll Invocation.run invocations db1 = .ok (shown,db) ∧
      shown.map (List.map answerOf) = answers ∧ db.Shows D := by
  obtain ⟨db1,built,rests⟩ := dbcreate_rests bare
  obtain ⟨shown,db,ran,told,shelf,represents⟩ := invocations_simulate.runAll means rests
  exact ⟨db1,shown,db,built,ran,told,represents.shows_tables⟩

section sample

def sampleSetting : Setting := {bareSetting with turns := 3}

def sampleFilling : List (Setting × Node) := [.create [114] [([97],-23),([98],1)] none,
  .insert [114] [([98],.string [120]),([97],.integer 7)],.insert [114]
    [([97],.integer 8),([98],.string [121])]].map fun n => (sampleSetting,n)

def sampleAsking : List (Setting × Node) := [.query none [([114],[98])] (some (.select ([114],[97]) .gt (.integer 7))),
  .delete [114] (some (.select ([114],[97]) .eq (.integer 7))),.print [114]].map fun n => (sampleSetting,n)

def sampleAttrs : List AttrInfo := [⟨[114],[97],1,4,none⟩,⟨[114],[98],0,1,none⟩]

theorem sampleAttrs_complete {infos : List AttrInfo} (names : (infos.map AttrInfo.attrName).Perm [[97],[98]])
    (values : ∀ attr ∈ infos, (attr.attrName = [97] → attr.attrType = 1 ∧ attr.attrValue.isSome = true) ∧
      (attr.attrName = [98] → attr.attrType = 0 ∧ attr.attrValue.isSome = true)) :
      Complete (Schema.description [114] sampleAttrs) infos := by
  refine ⟨names,fun d listed attr member named => ?_⟩
  obtain ⟨number,char⟩ := values attr member
  have among : d ∈ [(⟨[114],[97],0,1,4⟩ : AttrDesc),⟨[114],[98],4,0,1⟩] := listed
  simp only [List.mem_cons,List.not_mem_nil,or_false] at among
  rcases among with rfl | rfl
  · obtain ⟨type,given⟩ := number named
    obtain ⟨value,is_value⟩ := Option.isSome_iff_exists.mp given
    exact ⟨type,value,is_value,fun string => absurd string (by decide)⟩
  · obtain ⟨type,given⟩ := char named
    obtain ⟨value,is_value⟩ := Option.isSome_iff_exists.mp given
    exact ⟨type,value,is_value,fun _ => Int.le_add_of_nonneg_left (Int.natCast_nonneg _)⟩

theorem sampleAttrs_narrow : Narrow (Schema.description [114] sampleAttrs) := ⟨by decide,by decide⟩

def sampleCreated : Database := Database.start.declare [114] sampleAttrs
def sampleOne : Database := sampleCreated.gain [114] {[7,0,0,0,120]}
def sampleFilled : Database := sampleOne.gain [114] {[8,0,0,0,121]}
def sampleResult : Database := {sampleFilled.declare tmpResultName [⟨tmpResultName,[98],0,1,none⟩] with counter := 0}
def sampleShown : Database := (sampleResult.gain tmpResultName {[121]}).forget tmpResultName
def sampleLeft : Database :=
    sampleShown.keep [114] fun t => ¬ (deleteCondition id ⟨[114],[97],0,1,4⟩ .eq .integer [55]).matchRec (.of t)

theorem sample_created : Stated Database.start (sampleSetting,.create [114] [([97],-23),([98],1)] none) 0
    sampleCreated :=
  ⟨by decide,.created rfl (by decide) (by decide)⟩

theorem sample_first : Stated sampleCreated (sampleSetting,.insert [114] [([98],.string [120]),([97],.integer 7)])
    0 sampleOne := by
  have made : insertArguments sampleSetting [114] [([98],.string [120]),([97],.integer 7)] =
      .ok (.ok [⟨[114],[98],0,-1,some [120]⟩,⟨[114],[97],1,-1,some [55]⟩]) := rfl
  have there : sampleCreated.tables [114] = some ⟨sampleAttrs,0⟩ := rfl
  exact ⟨by decide,.inserted (by decide) there made (sampleAttrs_complete (by decide)
    (by decide)) sampleAttrs_narrow (by decide)⟩

theorem sample_second : Stated sampleOne (sampleSetting,.insert [114] [([97],.integer 8),([98],.string [121])])
    0 sampleFilled := by
  have made : insertArguments sampleSetting [114] [([97],.integer 8),([98],.string [121])] =
      .ok (.ok [⟨[114],[97],1,-1,some [56]⟩,⟨[114],[98],0,-1,some [121]⟩]) := rfl
  have there : sampleOne.tables [114] = some ⟨sampleAttrs,{[7,0,0,0,120]}⟩ := rfl
  exact ⟨by decide,.inserted (by decide) there made (sampleAttrs_complete (by decide)
    (by decide)) sampleAttrs_narrow (by decide)⟩

theorem sample_asked : Requested sampleSetting sampleResult [⟨[114],[98],-1,-1,none⟩]
    (.select (some ⟨[114],[97],1,-1,some [55]⟩) .gt [55])
    [[114]] {[121]} := by
  have source : sampleResult.tables [114] = some ⟨sampleAttrs,{[7,0,0,0,120],[8,0,0,0,121]}⟩ := rfl
  have answer : (({[7,0,0,0,120],[8,0,0,0,121]} : Multiset (List UInt8)).filter fun t =>
      HeapFileScan.accepts (selectCondition sampleSetting.atof (some ⟨[114],[97],0,1,4⟩) .gt [55]) t).map
        (projection [⟨[114],[98],4,0,1⟩]) = {[121]} := by
    decide
  rw [← answer]
  exact .selected source (by decide) (.cons ⟨rfl,rfl⟩ .nil) (.some ⟨rfl,rfl⟩) ⟨by decide,by decide⟩ (by decide)

theorem sample_queried : Stated sampleFilled
    (sampleSetting,.query none [([114],[98])] (some (.select ([114],[97]) .gt (.integer 7)))) {[121]}
    sampleShown := by
  have shown : (sampleResult.gain tmpResultName {[121]}).shown tmpResultName = ({[121]},sampleShown) := by
    rw [Database.shown,if_pos rfl]
    rfl
  have queried : Means sampleSetting sampleFilled
    (.query none [([114],[98])] (some (.select ([114],[97]) .gt (.integer 7))))
      ((sampleResult.gain tmpResultName {[121]}).shown tmpResultName).1
      ((sampleResult.gain tmpResultName {[121]}).shown tmpResultName).2 :=
    .produced rfl rfl (by decide) rfl rfl (by decide) (by decide) rfl sample_asked (by decide) (by decide) (by decide)
  rw [shown] at queried
  exact ⟨by decide,queried⟩

theorem sample_deleted : Stated sampleShown
    (sampleSetting,.delete [114] (some (.select ([114],[97]) .eq (.integer 7)))) 0 sampleLeft := by
  have there : sampleShown.tables [114] = some ⟨sampleAttrs,{[7,0,0,0,120],[8,0,0,0,121]}⟩ := rfl
  have known : sampleShown.attr [114] [97] = some ⟨[114],[97],0,1,4⟩ := rfl
  exact ⟨by decide,.deleted (by decide) there rfl known (by decide)⟩

theorem sample_printed : Stated sampleLeft (sampleSetting,.print [114]) {[8,0,0,0,121]} sampleLeft := by
  have there : sampleLeft.tables [114] = some ⟨sampleAttrs,{[8,0,0,0,121]}⟩ := rfl
  exact ⟨by decide,.printed there (by decide)⟩

theorem sample_filling : Simulation.Script Stated Database.start sampleFilling [0,0,0] sampleFilled :=
  .cons sample_created (.cons sample_first (.cons sample_second .nil))

theorem sample_asking : Simulation.Script Stated sampleFilled sampleAsking [{[121]},0,{[8,0,0,0,121]}] sampleLeft :=
  .cons sample_queried (.cons sample_deleted (.cons sample_printed .nil))

def sampleInvocations (stale : Name → Int → Page) (raw : HeapFileScan) :
    List Invocation := [⟨sampleFilling,stale,raw⟩,⟨sampleAsking,stale,raw⟩]

end sample

theorem interpreter_refines_database_sample : ∃ db1 db2 shown s, dbcreate emptyDirectory = .ok db1 ∧
    openCatalogs db1 = .ok db2 ∧
    Simulation.runAll execute (sampleFilling ++ sampleAsking) ⟨db2,0⟩ = .ok (shown,s) ∧
      shown.map answerOf = [0,0,0,{[121]},0,{[8,0,0,0,121]}] := by
  obtain ⟨db1,db2,shown,s,built,opened,ran,_,told,_⟩ := interpreter_refines_database emptyDirectory (fun _ => rfl)
    (sampleFilling ++ sampleAsking) ([0,0,0] ++ [{[121]},0,{[8,0,0,0,121]}]) sampleLeft
    (sample_filling.append sample_asking)
  exact ⟨db1,db2,shown,s,built,opened,ran,told⟩

theorem invocations_refine_database_sample : ∃ db1 shown db, dbcreate emptyDirectory = .ok db1 ∧
    Simulation.runAll Invocation.run (sampleInvocations (fun _ _ => zero 1024) emptyDirectory.raw) db1 =
      .ok (shown,db) ∧
      shown.map (List.map answerOf) = [[0,0,0],[{[121]},0,{[8,0,0,0,121]}]] := by
  obtain ⟨db1,shown,db,built,ran,told,_⟩ := invocations_refine_database emptyDirectory (fun _ => rfl)
    (sampleInvocations (fun _ _ => zero 1024) emptyDirectory.raw) _ sampleLeft
    (.cons sample_filling (.cons sample_asking .nil))
  exact ⟨db1,shown,db,built,ran,told⟩

end Minirel
