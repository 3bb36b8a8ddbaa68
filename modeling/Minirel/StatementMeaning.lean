import Minirel.CatalogRuns
import Minirel.Printing
import Minirel.Represents

namespace Minirel
open ByteMemory SlotDirectory Page Heap Db Interp Database

-- The interpreter's state, with the counter.
def Serves (users : Name → Option HeapFile) (s : Interpreter) (D : Database) :
    Prop := (∃ shelf, Represents users s.db shelf D) ∧ s.counter = D.counter

def answerOf (recs : List Record) : Multiset (List UInt8) := (recs.map Record.data : List (List UInt8))

-- The statement returns, with the answer, in a state for the database.
def Performs (users : Name → Option HeapFile) (setting : Setting) (n : Node) (s : Interpreter)
    (answer : Multiset (List UInt8)) (D' : Database) : Prop :=
  ∃ recs s', interpPrinting setting n s = .ok (recs,s') ∧ answerOf recs = answer ∧ Serves users s' D'

variable {users : Name → Option HeapFile} {db db' : Db} {shelf shelf' : Shelf} {D : Database} {relation : Name}
  {table : Table} {file : HeldFile} {s : Interpreter} {setting : Setting}

theorem Db.Stands.without (stands : db.Stands shelf) (name : Name) : db.Stands (Function.update shelf name none) := by
  intro other found there
  by_cases here : other = name
  · rw [here,Function.update_self] at there
    cases there
  · rw [Function.update_of_ne here] at there
    exact stands other found there

namespace Represents

theorem aside (represents : Represents users db shelf D) (relation : Name) :
    db.Stays (Function.update shelf relation none) db :=
  (represents.catalogued.stands.without relation).shelved.stays

-- What the query layer finds in attrcat.
theorem found (represents : Represents users db shelf D) :
    ∃ cat, shelf attrCatName = some cat ∧ Rows cat.heap AttrDesc.size ∧
      ∀ relation, attributes cat.heap relation = D.schema.described relation := by
  obtain ⟨cat,lists⟩ := represents.catalogued.attrCat
  exact ⟨cat,lists.present,lists.wide,represents.catalogued.registered.attributes_described lists⟩

theorem target (represents : Represents users db shelf D) (there : D.tables relation = some table)
    (clean : 0 ∉ relation) :
    ∃ cat file, InsertTarget db shelf cat file relation (Schema.description relation table.attrs) ∧
      file.heap.bag = table.tuples := by
  obtain ⟨cat,catalog,wide,attributes⟩ := represents.found
  obtain ⟨file,present,bag⟩ := represents.tables relation table there
  refine ⟨cat,file,⟨represents.catalogued.stands,catalog,wide,present,clean,?_,
    (represents.sound relation table there).laid (represents.some_attr there) relation⟩,bag⟩
  rw [attributes,Schema.described,schema_some there]
  rfl

theorem gain (represents : Represents users db shelf D) (user : User relation) (there : D.tables relation = some table)
    (present : shelf relation = some file)
    (bag : file.heap.bag = table.tuples) {rows : List (List UInt8)}
    (fills : Fills shelf relation file rows (db.length relation) db')
    (stays : db'.Stays (Function.update shelf relation none) db) (wide : ∀ t ∈ rows, (t.length : Int) =
      (table.attrs.map AttrInfo.attrLen).sum) :
    ∃ shelf', Represents users db' shelf' (D.gain relation rows) := by
  have length : db.length relation ≤ D.written + 3 :=
    represents.lengths relation (by rw [present]; exact Option.some_ne_none _)
  have rewritten := fills.rewritten
  rw [bag] at rewritten
  refine represents.rewrite user there present (f:=fun tuples => tuples + rows) rewritten stays ?_
    (Nat.le_add_right ..) ?_
  · intro t member
    rcases Multiset.mem_add.mp member with before | new
    · exact (represents.sound relation table there).wide t before
    · exact wide t (Multiset.mem_coe.mp new)
  · rw [Multiset.coe_card]
    omega

theorem keep (represents : Represents users db shelf D) (user : User relation) (there : D.tables relation = some table)
    (present : shelf relation = some file)
    (wanted : List UInt8 → Prop) [DecidablePred wanted]
    (rewritten : Rewritten shelf relation file (table.tuples.filter wanted) (db.length relation) db')
    (stays : db'.Stays (Function.update shelf relation none) db) : ∃ shelf', Represents users db' shelf'
    (D.keep relation wanted) := by
  have length : db.length relation ≤ D.written + 3 :=
    represents.lengths relation (by rw [present]; exact Option.some_ne_none _)
  refine represents.rewrite user there present (f:=Multiset.filter wanted) rewritten stays (fun t member => ?_)
    (Nat.le_refl _) length
  exact (represents.sound relation table there).wide t (Multiset.mem_filter.mp member).1

-- An exact copy of all tuples, with nothing gained.
theorem unchanged (represents : Represents users db shelf D) (user : User relation)
    (there : D.tables relation = some table)
    (present : shelf relation = some file) (bag : file.heap.bag = table.tuples)
    (fills : Fills shelf relation file [] (db.length relation) db')
    (stays : db'.Stays (Function.update shelf relation none) db) : ∃ shelf', Represents users db' shelf' D := by
  obtain ⟨shelf',represents'⟩ := represents.gain user there present bag fills stays (fun _ member => nomatch member)
  exact ⟨shelf',represents'.counted gain_zero.symm (Nat.le_refl _)⟩

theorem inserts (represents : Represents users db shelf D) (user : User relation)
    (there : D.tables relation = some table) (clean : 0 ∉ relation)
    {infos : List AttrInfo} (complete : Complete (Schema.description relation table.attrs) infos)
    (narrow : Narrow (Schema.description relation table.attrs)) (room : D.Room 1) (atof : List UInt8 → List UInt8)
    (stack : List UInt8) :
    ∃ db' shelf', QU_Insert atof stack db relation infos = .ok (.ok,db') ∧
      Represents users db' shelf' (D.gain relation {rowOf atof (Schema.description relation table.attrs) infos}) := by
  obtain ⟨cat,file,target,bag⟩ := represents.target there clean
  have sound := represents.sound relation table there
  have typed := sound.typed relation
  have readable : Readable atof infos (Schema.description relation table.attrs) := complete.readable target.laid typed
  have length : db.length relation ≤ D.written + 3 :=
    represents.lengths relation (by rw [target.present]; exact Option.some_ne_none _)
  obtain ⟨db',inserted,fills⟩ := target.QU_Insert_room complete.checked readable stack narrow
    (by unfold Room at room; omega)
  have stays := QU_Insert_stays (represents.aside relation) (Function.update_self ..) atof stack infos _ inserted
  rw [complete.tuple_rowOf target.laid typed sound.lens stack] at fills
  obtain ⟨shelf',represents'⟩ := represents.gain user there target.present bag fills stays (by
    intro t member
    rw [List.mem_singleton.mp member,← complete.tuple_rowOf target.laid typed sound.lens stack,
      target.laid.length_tuple stack readable,
      width_description])
  exact ⟨db',shelf',inserted,represents'⟩

theorem refusesInsert (represents : Represents users db shelf D) (user : User relation)
    (there : D.tables relation = some table) (clean : 0 ∉ relation)
    {infos : List AttrInfo} (miscounted : infos.length ≠ table.attrs.length) (atof : List UInt8 → List UInt8)
    (stack : List UInt8) :
    ∃ db' shelf', QU_Insert atof stack db relation infos = .ok (.badCatParm,db') ∧ Represents users db' shelf' D := by
  obtain ⟨cat,file,target,bag⟩ := represents.target there clean
  have count : (Schema.description relation table.attrs).length = table.attrs.length := List.length_mapIdx ..
  rw [← count] at miscounted
  obtain ⟨db',refused,fills⟩ := target.QU_Insert_refused miscounted stack
  have stays := QU_Insert_stays (represents.aside relation) (Function.update_self ..) atof stack infos _ refused
  obtain ⟨shelf',represents'⟩ := represents.unchanged user there target.present bag fills stays
  exact ⟨db',shelf',refused,represents'⟩

theorem deletes (represents : Represents users db shelf D) (user : User relation)
    (there : D.tables relation = some table) (clean : 0 ∉ relation)
    {attrName : Name} {d : AttrDesc} (known : attrName ≠ [] → D.attr relation attrName = some d)
    (atof : List UInt8 → List UInt8) (op : Operator)
    (type : Datatype) (attrValue : List UInt8) (attrDesc : AttrDesc) (sound : attrName ≠ [] →
      (deleteCondition atof d op type attrValue).Sound) :
    ∃ db' shelf', QU_Delete atof db relation attrName op type attrValue attrDesc = .ok (.ok,db') ∧
      Represents users db' shelf' (D.keep relation fun t => ¬ (attrName = [] ∨
        (deleteCondition atof d op type attrValue).matchRec (.of t))) := by
  obtain ⟨cat,catalog,wide,attributes⟩ := represents.found
  obtain ⟨file,present,bag⟩ := represents.tables relation table there
  have found : attrName ≠ [] → attrOf cat.heap relation attrName = some d := by
    rw [attrOf,attributes]
    exact known
  obtain ⟨db',deleted,rewritten⟩ := QU_Delete_rewrites atof represents.catalogued.stands catalog wide present
    clean user.2 found op type attrValue
    attrDesc sound
  have stays := QU_Delete_stays (represents.aside relation) (Function.update_self ..) atof attrName op type
    attrValue attrDesc _ deleted
  rw [bag] at rewritten
  obtain ⟨shelf',represents'⟩ := represents.keep user there present _ rewritten stays
  exact ⟨db',shelf',deleted,represents'⟩

theorem loads (represents : Represents users db shelf D) (user : User relation)
    (there : D.tables relation = some table) (written : Written relation)
    (narrow : Narrow (Schema.description relation table.attrs)) {fileName : Name} (named : fileName ≠ [])
    (fd : DataFile) (turns : Nat)
    {rows : List (List UInt8)} (read : DataFile.tuples fd.reads (table.attrs.map AttrInfo.attrLen).sum turns 0 =
      some rows) (room : D.Room rows.length) :
    ∃ status db' shelf', UT_Load turns db relation fileName (some fd) = .ok (status,db') ∧
      Represents users db' shelf' (D.gain relation rows) := by
  obtain ⟨file,present,bag⟩ := represents.tables relation table there
  have described : D.schema.described relation = Schema.description relation table.attrs := by
    rw [Schema.described,schema_some there]
    rfl
  have length : db.length relation ≤ D.written + 3 :=
    represents.lengths relation (by rw [present]; exact Option.some_ne_none _)
  obtain ⟨status,db',loaded,fills⟩ := represents.catalogued.UT_Load_room written.2 written.1 user.1 user.2
    (schema_given there) present
    (by rw [described]; exact narrow) named fd turns
    (by rw [described]; rw [← width_description relation] at read; exact read)
    (by unfold Room at room; omega)
  have stays := represents.catalogued.registered.UT_Load_stays written.2 (represents.aside relation)
    (fun _ _ => Function.update_self ..) turns fileName (some fd) _ loaded
  obtain ⟨shelf',represents'⟩ := represents.gain user there present bag fills stays (DataFile.tuples_wide read)
  exact ⟨status,db',shelf',loaded,represents'⟩

theorem prints (represents : Represents users db shelf D) (there : D.tables relation = some table)
    (written : Written relation) (turns : Nat)
    (enough : table.tuples.card < turns) :
    ∃ recs db', UT_Print turns db relation = .ok (.ok,recs,db') ∧ answerOf recs = table.tuples ∧
      Represents users db' shelf D := by
  obtain ⟨file,present,bag⟩ := represents.tables relation table there
  have few : (records file.heap).length < turns := by
    rw [← bag,Heap.bag,Multiset.coe_card,List.length_map] at enough
    exact enough
  obtain ⟨db',printed,catalogued⟩ := represents.catalogued.UT_Print_spec written.2 written.1
    (schema_given there) present turns few
  refine ⟨_,db',printed,?_,represents.reads catalogued
    (UT_Print_stays represents.catalogued.stands.shelved.stays turns relation _ printed)⟩
  rw [answerOf,List.map_map,← bag,Heap.bag]
  rfl

-- HELP asks both catalogs for a relation.
theorem helps (represents : Represents users db shelf D) (written : Written relation) (turns : Nat) :
    ∃ db', RelCatalog.help turns db relation = .ok (if D.schema relation = none then .relNotFound else .ok,db') ∧
      Represents users db' shelf D := by
  obtain ⟨db1,asked,represents1⟩ := represents.relInfo written ⟨[],0⟩
  rw [RelCatalog.help,if_neg written.1,asked,ok_bind]
  by_cases unknown : D.schema relation = none
  · have refused : Status.relNotFound ≠ .ok := Status.noConfusion
    rw [if_pos unknown]
    dsimp only
    rw [if_pos refused]
    exact ⟨db1,rfl,represents1⟩
  · obtain ⟨db2,listed,represents2⟩ := represents1.relAttrs written
    rw [if_neg unknown] at listed ⊢
    dsimp only
    rw [if_neg (not_not_intro rfl),listed]
    exact ⟨db2,rfl,represents2⟩

end Represents

end Minirel
