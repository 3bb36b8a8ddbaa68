import Minirel.DatabaseRuns

namespace Minirel
open ByteMemory Page Heap Db Interp Database

variable {users : Name → Option HeapFile} {db : Db} {shelf : Shelf} {D D' : Database} {relation : Name}
  {attrs : List AttrInfo}
  {table relcat attrcat : Table} {rows answer : Multiset (List UInt8)} {setting : Setting}
    {attrlist : List (Name × Name)} {qual : Option Qual}

namespace Database

-- No row of the catalogs is a row of the relation.
structure Unlisted (D : Database) (relation : Name) (relcat attrcat : Table) : Prop where
  relCat : D.tables relCatName = some relcat
  attrCat : D.tables attrCatName = some attrcat
  rels : ∀ row ∈ relcat.tuples, ¬ OfRelation relation row
  attrs : ∀ row ∈ attrcat.tuples, ¬ OfRelation relation row

theorem filter_forget {listed new : Multiset (List UInt8)} (unlisted : ∀ row ∈ listed, ¬ OfRelation relation row)
    (own : ∀ row ∈ new, OfRelation relation row) :
    ((listed + new).filter fun row => ¬ OfRelation relation row) = listed := by
  rw [Multiset.filter_add,Multiset.filter_eq_self.mpr unlisted,Multiset.filter_eq_nil.mpr fun row member =>
    not_not_intro (own row member),
    Multiset.add_zero]

-- A relation that is made, filled and forgotten leaves nothing behind.
theorem forget_declare (unlisted : D.Unlisted relation relcat attrcat) (new : D.tables relation = none)
    (fits : Fits relation) :
    (((D.declare relation attrs).gain relation rows).forget relation).tables = D.tables := by
  obtain ⟨at_rel,at_attr,rels,attr_rows⟩ := unlisted
  have not_rel : relCatName ≠ relation := by
    rintro rfl
    exact absurd (at_rel.symm.trans new) (Option.some_ne_none _)
  have not_attr : attrCatName ≠ relation := by
    rintro rfl
    exact absurd (at_attr.symm.trans new) (Option.some_ne_none _)
  have gained : ∀ {name}, name ≠ relation → ((D.declare relation attrs).gain relation rows).tables name =
      (D.declare relation attrs).tables name :=
    fun apart => change_other apart
  funext name
  by_cases here : name = relation
  · rw [here,forget_self,new]
  by_cases is_rel : name = relCatName
  · rw [is_rel,forget_relCat not_rel ((gained not_rel).trans (declare_relCat not_rel at_rel)),at_rel,filter_forget rels]
    intro row member
    rw [Multiset.mem_singleton.mp member]
    exact Schema.ofRelation_relDesc fits
  by_cases is_attr : name = attrCatName
  · rw [is_attr,forget_attrCat not_attr ((gained not_attr).trans (declare_attrCat not_attr at_attr)),at_attr,
      filter_forget attr_rows]
    intro row member
    obtain ⟨d,listed,rfl⟩ := List.mem_map.mp (Multiset.mem_coe.mp member)
    have named := (Schema.mem_description listed).1
    exact named ▸ Schema.ofRelation_attrDesc (named ▸ fits)
  · rw [forget_other here ⟨is_rel,is_attr⟩]
    exact (gained here).trans (declare_other here ⟨is_rel,is_attr⟩)

end Database

theorem Database.shown_temporary (D : Database) : (D.shown tmpResultName).2 = D.forget tmpResultName := by
  rw [shown,if_pos rfl]

theorem Represents.unlisted (represents : Represents users db shelf D) (undeclared : D.tables relation = none) :
    ∃ relcat attrcat, D.Unlisted relation relcat attrcat := by
  obtain ⟨relcat,at_rel,_⟩ := represents.relCat
  obtain ⟨attrcat,at_attr,_⟩ := represents.attrCat
  obtain ⟨rc,rels⟩ := represents.catalogued.relCat
  obtain ⟨ac,attrLists⟩ := represents.catalogued.attrCat
  obtain ⟨rc',present,rc_bag⟩ := represents.tables _ _ at_rel
  cases rels.present.symm.trans present
  obtain ⟨ac',present',ac_bag⟩ := represents.tables _ _ at_attr
  cases attrLists.present.symm.trans present'
  have none_of : ∀ {heap : Heap}, Minirel.rows heap relation = [] → ∀ row ∈ heap.bag, ¬ OfRelation relation row := by
    intro heap empty row member own
    obtain ⟨e,inside,rfl⟩ := List.mem_map.mp (Multiset.mem_coe.mp member)
    have there := mem_rows.mpr ⟨inside,own⟩
    rw [empty] at there
    exact List.not_mem_nil there
  have undescribed := schema_none.mpr undeclared
  refine ⟨relcat,attrcat,at_rel,at_attr,?_,?_⟩
  · rw [← rc_bag]
    exact none_of (rels.rows_nil.mpr (Schema.relRows_none undescribed))
  · rw [← ac_bag]
    exact none_of (attrLists.rows_nil.mpr (Schema.attrRows_none undescribed))

-- A query without INTO answers, and nothing else.
theorem Represents.query_leaves (represents : Represents users db shelf D)
    (means : Means setting D (.query none attrlist qual) answer D') :
    D'.tables = D.tables := by
  cases means with
  | badQuery refused => rfl
  | taken there => rfl
  | produced named new short arguments attributes shorts done declares asked apart room shows =>
    cases named
    cases declares
    obtain ⟨relcat,attrcat,unlisted⟩ := represents.unlisted new
    rw [Option.getD_none,shown_temporary]
    exact forget_declare (D:=D) unlisted new (by decide)
  | notProduced named new short arguments attributes refused => rfl

-- The same files, each with the same records.
def Db.SameTables (db db' : Db) : Prop :=
  ∀ name, (db'.files name = none ↔ db.files name = none) ∧
    ∀ rows, db.contents name = .ok rows → ∃ rows', db'.contents name = .ok rows' ∧ rows'.Perm rows

theorem Db.contents_there {name : Name} {rows : List (List UInt8)} (read : db.contents name = .ok rows) :
    db.files name ≠ none := by
  intro missing
  rw [contents,newHeapFileScan,openFile,missing] at read
  by_cases given : name = []
  · rw [if_pos given] at read
    cases read
  · rw [if_neg given] at read
    cases read

theorem Db.Shows.same {db' : Db} (before : db.Shows D) (after : db'.Shows D') (same : D'.tables = D.tables) :
    db.SameTables db' := by
  intro name
  cases there : D.tables name with
  | none =>
    have missing := before.2 name there
    exact ⟨iff_of_true (after.2 name (same ▸ there)) missing,fun rows read => absurd missing (Db.contents_there read)⟩
  | some table =>
    obtain ⟨rows,read,bag⟩ := before.1 name table there
    obtain ⟨rows',read',bag'⟩ := after.1 name table (same ▸ there)
    refine ⟨iff_of_false (Db.contents_there read') (Db.contents_there read),fun rows1 read1 => ⟨rows',read',?_⟩⟩
    cases read.symm.trans read1
    exact Multiset.coe_eq_coe.mp (bag'.trans bag.symm)

-- After every script, a query without INTO leaves all files as they were, whatever it answers.
theorem query_leaves_files (db0 : Db) (bare : ∀ name, db0.files name = none) (script : List (Setting × Node))
    (answers : List (Multiset (List UInt8)))
    (D : Database) (means : Simulation.Script Stated Database.start script answers D) (setting : Setting)
    (attrlist : List (Name × Name))
    (qual : Option Qual) (answer : Multiset (List UInt8)) (D' : Database)
    (asked : Stated D (setting,.query none attrlist qual) answer D') :
    ∃ db1 db2 shown s recs s', dbcreate db0 = .ok db1 ∧ openCatalogs db1 = .ok db2 ∧
      Simulation.runAll execute script ⟨db2,0⟩ = .ok (shown,s) ∧
      interpPrinting setting (.query none attrlist qual) s = .ok (recs,s') ∧ answerOf recs = answer ∧
        s.db.SameTables s'.db := by
  obtain ⟨db1,built,shelf,represents⟩ := dbcreate_rests bare
  obtain ⟨o,db2,shelf2,opened,represents2⟩ := represents.starts
  obtain ⟨shown,s,ran,told,serves⟩ := (execute_simulates o.users).runAll (g:=⟨db2,0⟩) means ⟨⟨shelf2,represents2⟩,rfl⟩
  obtain ⟨⟨shelf3,represents3⟩,counted⟩ := id serves
  obtain ⟨recs,s',queried,answered,serves'⟩ := performs serves asked.1 asked.2
  refine ⟨db1,db2,shown,s,recs,s',built,?_,ran,queried,answered,serves.shows.same serves'.shows
    (represents3.query_leaves asked.2)⟩
  rw [← openObjects_openCatalogs,opened]
  rfl

theorem query_leaves_files_sample : ∃ db1 db2 shown s recs s', dbcreate emptyDirectory = .ok db1 ∧
    openCatalogs db1 = .ok db2 ∧
    Simulation.runAll execute sampleFilling ⟨db2,0⟩ = .ok (shown,s) ∧
      interpPrinting sampleSetting (.query none [([114],[98])] (some (.select ([114],[97]) .gt (.integer 7)))) s =
        .ok (recs,s') ∧
        answerOf recs = {[121]} ∧ s.db.SameTables s'.db :=
  query_leaves_files emptyDirectory (fun _ => rfl) sampleFilling [0,0,0] sampleFilled sample_filling _ _ _
    _ _ sample_queried

end Minirel
