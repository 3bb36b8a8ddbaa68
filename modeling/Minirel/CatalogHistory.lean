import Minirel.Dbcreate
import Mathlib.Algebra.Order.BigOperators.Group.List

namespace Minirel
open ByteMemory SlotDirectory Page Heap

variable {db db0 : Db} {shelf : Shelf} {schema : Schema} {relation : Name} {attrs : List AttrInfo}

-- createRel and destroyRel as their clients call them.
inductive CatalogCall where
  | createRel (relation : Name) (attrList : List AttrInfo)
  | destroyRel (relation : Name)

namespace CatalogCall

def run (db : Db) : CatalogCall → Except Abort (Status × Db)
  | .createRel relation attrList => RelCatalog.createRel db relation attrList
  | .destroyRel relation => RelCatalog.destroyRel db relation

-- A history goes on until a call meets an I/O failure.
def runAll : List CatalogCall → Db → Except Abort (List Status × Db)
  | [],db => return ([],db)
  | call::calls,db => do
    let (status,db) ← call.run db
    if status = .unixErr then return ([status],db)
    let (statuses,db) ← runAll calls db
    return (status::statuses,db)

-- The names are C strings, and what is let through has short names and offsets that an int holds.
def Proper : CatalogCall → Prop
  | .createRel relation attrList =>
    0 ∉ relation ∧ (RelCatalog.tupleWidth attrList ≤ pageSize → Schema.Declarable attrList)
  | .destroyRel relation => 0 ∉ relation

end CatalogCall

namespace Schema

def infos (attrs : List AttrDesc) : List AttrInfo := attrs.map fun d => ⟨d.relName,d.attrName,d.attrType,d.attrLen,none⟩

-- What dbcreate declares.
def start : Schema := fun relation =>
  if relation = relCatName then some (infos relCatAttributes) else if relation = attrCatName then some
    (infos attrCatAttributes) else none

-- A relation has been created and not destroyed since: what the calls returned says so.
def after (schema : Schema) (status : Status) : CatalogCall → Schema
  | .createRel relation attrList => if status = .ok then Function.update schema relation (some attrList) else schema
  | .destroyRel relation => if status = .ok then Function.update schema relation none else schema

def history : List CatalogCall → List Status → Schema → Schema
  | call::calls,status::statuses,schema => history calls statuses (schema.after status call)
  | _,_,schema => schema

theorem create_ok (fine : (schema.create relation attrs).1 = .ok) :
    relation ≠ [] ∧ relation.length < maxName ∧ schema relation = none ∧
      (schema.create relation attrs).2 = Function.update schema relation (some attrs) := by
  unfold create at *
  split_ifs at fine ⊢ with parm long known nodup wide
  exact ⟨(not_or.mp parm).1,Nat.lt_of_not_le long,not_not.mp known,rfl⟩

theorem create_after (schema : Schema) (relation : Name) (attrs : List AttrInfo) :
    (schema.create relation attrs).2 = schema.after (schema.create relation attrs).1 (.createRel relation attrs) := by
  unfold create after
  split_ifs <;> first | rfl | contradiction

theorem destroy_after (schema : Schema) (relation : Name) :
    (schema.destroy relation).2 = schema.after (schema.destroy relation).1 (.destroyRel relation) := by
  unfold destroy after
  split_ifs <;> first | rfl | contradiction

-- No relation has two attributes of one name.
def Distinct (schema : Schema) : Prop := ∀ relation attrs, schema relation =
    some attrs → (attrs.map AttrInfo.attrName).Nodup

theorem Distinct.update (distinct : schema.Distinct) {change : Option (List AttrInfo)} (relation : Name)
    (nodup : ∀ attrs, change = some attrs → (attrs.map AttrInfo.attrName).Nodup) :
    Distinct (Function.update schema relation change) := by
  intro other attrs there
  by_cases here : other = relation
  · rw [here,Function.update_self] at there
    exact nodup attrs there
  · rw [Function.update_of_ne here] at there
    exact distinct other attrs there

theorem Distinct.create (distinct : schema.Distinct) (relation : Name) (attrs : List AttrInfo) :
    (schema.create relation attrs).2.Distinct := by
  unfold Schema.create
  split_ifs with parm long known nodup wide
  case neg =>
    apply distinct.update
    intro attrs' same
    cases same
    exact nodup
  all_goals exact distinct

theorem Distinct.destroy (distinct : schema.Distinct) (relation : Name) : (schema.destroy relation).2.Distinct := by
  unfold Schema.destroy
  split_ifs
  case neg => exact distinct.update relation fun _ same => by cases same
  all_goals exact distinct

theorem Distinct.described (distinct : schema.Distinct) (relation : Name) :
    ((schema.described relation).map AttrDesc.attrName).Nodup := by
  cases there : schema relation with
  | none =>
    rw [Schema.described,there]
    exact List.nodup_nil
  | some attrs =>
    have names : (description relation attrs).map AttrDesc.attrName = attrs.map AttrInfo.attrName := by
      apply List.ext_getElem
      · simp [description]
      · simp [description]
    rw [Schema.described,there,Option.elim_some,names]
    exact distinct relation attrs there

theorem start_distinct : start.Distinct := by
  intro relation attrs there
  unfold start at there
  split_ifs at there
  · cases there
    decide
  · cases there
    decide

-- Lengths that are not negative and fit an int together have offsets that do.
theorem sum_lens (lens : ∀ attr ∈ attrs, 0 ≤ attr.attrLen) : 0 ≤ (attrs.map AttrInfo.attrLen).sum := by
  apply List.sum_nonneg
  intro len member
  obtain ⟨attr,inside,rfl⟩ := List.mem_map.mp member
  exact lens attr inside

theorem offsets_int (lens : ∀ attr ∈ attrs, 0 ≤ attr.attrLen) (total : IsInt (attrs.map AttrInfo.attrLen).sum)
    (i : Nat) :
    IsInt ((attrs.take i).map AttrInfo.attrLen).sum := by
  have whole : (attrs.map AttrInfo.attrLen).sum = ((attrs.take i).map AttrInfo.attrLen).sum +
      ((attrs.drop i).map AttrInfo.attrLen).sum := by
    rw [← List.sum_append,← List.map_append,List.take_append_drop]
  have front := @sum_lens (attrs.take i) fun attr member => lens attr (List.mem_of_mem_take member)
  have back := @sum_lens (attrs.drop i) fun attr member => lens attr (List.mem_of_mem_drop member)
  unfold IsInt at *
  omega

theorem start_declared (there : start relation = some attrs) : Fits relation ∧ relation ≠ [] ∧ attrs ≠ [] ∧
    Declarable attrs := by
  unfold start at there
  split_ifs at there with is_rel is_attr
  · cases there
    rw [is_rel]
    exact ⟨by decide,by decide,by decide,by decide,by decide,by decide,offsets_int (by decide) (by decide)⟩
  · cases there
    rw [is_attr]
    exact ⟨by decide,by decide,by decide,by decide,by decide,by decide,offsets_int (by decide) (by decide)⟩

-- Rows of relcat and attrcat are rows of no other relation.
theorem filter_start {rows : List (List UInt8)} (listed : ∀ row ∈ rows, OfRelation relCatName row ∨
    OfRelation attrCatName row)
    (undeclared : start relation = none) : (rows.filter fun row => OfRelation relation row) = [] := by
  rw [List.filter_eq_nil_iff]
  intro row member own
  have mine : OfRelation relation row := of_decide_eq_true own
  rcases listed row member with other | other
  · rw [OfRelation.unique other mine] at undeclared
    cases undeclared
  · rw [OfRelation.unique other mine] at undeclared
    cases undeclared

theorem start_cases (relation : Name) : relation = relCatName ∨ relation = attrCatName ∨ start relation = none := by
  by_cases is_rel : relation = relCatName
  · exact .inl is_rel
  by_cases is_attr : relation = attrCatName
  · exact .inr (.inl is_attr)
  · exact .inr (.inr (by rw [start,if_neg is_rel,if_neg is_attr]))

theorem relRows_start (relation : Name) : start.relRows relation = Minirel.relRows.filter fun row =>
    OfRelation relation row := by
  rcases start_cases relation with rfl | rfl | undeclared
  · decide
  · decide
  · rw [relRows_none undeclared,filter_start (by decide) undeclared]

theorem attrRows_start (relation : Name) : start.attrRows relation = Minirel.attrRows.filter fun row =>
    OfRelation relation row := by
  rcases start_cases relation with rfl | rfl | undeclared
  · decide
  · decide
  · rw [attrRows_none undeclared,filter_start (by decide) undeclared]

end Schema

theorem Begun.lists {catalog : Name} {k : Pool.Books} {n : Int} {rows : List (List UInt8)}
    (begun : Begun db catalog k n rows) (size : Nat)
    (wide : ∀ row ∈ rows, row.length = size) (listed : Name → List (List UInt8))
    (told : ∀ relation, listed relation = rows.filter fun row => OfRelation relation row) :
    ∃ file, db.Holds catalog file.books file.heap file.recCnt ∧
      ((records file.heap).map Prod.snd = rows ∧ file.books = k) ∧
      ∀ shelf : Shelf, shelf catalog = some file → Lists shelf catalog size listed file := by
  obtain ⟨d,recCnt,holds,appending,_⟩ := begun
  have whole : (records [(n,d)]).map Prod.snd = rows := appending.gains.all rfl
  refine ⟨⟨k,[(n,d)],recCnt⟩,holds,⟨whole,rfl⟩,fun shelf present => ⟨present,rows_of_bytes whole wide,?_⟩⟩
  intro relation
  rw [told,← whole,Minirel.rows,List.filter_map]
  rfl

-- The interpreter's start. The catalogs list themselves and nothing else.
theorem Building.registered {rk ak : Pool.Books} {n m : Int} (building : Building db0 db rk ak n m relRows attrRows) :
    ∃ shelf, Registered db shelf Schema.start ∧ ∀ name file, shelf name = some file →
      (name = relCatName ∧ (records file.heap).map Prod.snd = relRows ∧ file.books = rk) ∨
        (name = attrCatName ∧ (records file.heap).map Prod.snd = attrRows ∧ file.books = ak) := by
  obtain ⟨rc,holds_rel,rel_rows,rels⟩ := building.relCat.lists RelDesc.size (by decide) _ Schema.relRows_start
  obtain ⟨ac,holds_attr,attr_rows,attrLists⟩ := building.attrCat.lists AttrDesc.size (by decide) _ Schema.attrRows_start
  let shelf : Shelf := fun name => if name = relCatName then some rc else if name = attrCatName then some ac else none
  have only : ∀ name file, shelf name = some file → (name = relCatName ∧ file = rc) ∨
      (name = attrCatName ∧ file = ac) := by
    intro name file there
    simp only [shelf] at there
    split_ifs at there with is_rel is_attr
    · exact .inl ⟨is_rel,(Option.some.inj there).symm⟩
    · exact .inr ⟨is_attr,(Option.some.inj there).symm⟩
  refine ⟨shelf,⟨?_,⟨rc,rels shelf rfl⟩,⟨ac,attrLists shelf rfl⟩,fun _ _ => Schema.start_declared⟩,?_⟩
  · intro name file there
    rcases only name file there with ⟨rfl,rfl⟩ | ⟨rfl,rfl⟩
    · exact holds_rel
    · exact holds_attr
  · intro name file there
    rcases only name file there with ⟨rfl,rfl⟩ | ⟨rfl,rfl⟩
    · exact .inl ⟨rfl,rel_rows⟩
    · exact .inr ⟨rfl,attr_rows⟩

-- In a directory that had nothing in it.
theorem Building.catalogued {rk ak : Pool.Books} {n m : Int} (building : Building db0 db rk ak n m relRows attrRows)
    (bare : ∀ name, db0.files name = none) : ∃ shelf, Catalogued db shelf Schema.start := by
  obtain ⟨shelf,registered,_⟩ := building.registered
  refine ⟨shelf,registered.stands,registered.relCat,registered.attrCat,registered.declared,by decide,?_,?_⟩
  · intro relation undeclared
    rw [building.others relation]
    · exact bare relation
    · rintro rfl
      cases undeclared
    · rintro rfl
      cases undeclared
  · intro relation declared not_rel not_attr
    rcases Schema.start_cases relation with is_rel | is_attr | undeclared
    · exact absurd is_rel not_rel
    · exact absurd is_attr not_attr
    · exact absurd undeclared declared

namespace CatalogCall

-- One call returns, and unless the file could not grow the catalogs say what it declared.
theorem run_spec (catalogued : Catalogued db shelf schema) (distinct : schema.Distinct) (call : CatalogCall)
    (proper : call.Proper) :
    ∃ status db', call.run db = .ok (status,db') ∧ (status ≠ .unixErr →
      (∃ shelf', Catalogued db' shelf' (schema.after status call)) ∧ (schema.after status call).Distinct) := by
  cases call with
  | createRel relation attrs =>
    obtain ⟨status,db',ran,told⟩ := catalogued.createRel_spec proper.1 proper.2
    refine ⟨status,db',ran,fun fine => ?_⟩
    rcases told with failed | ⟨rfl,shelf',catalogued',_⟩
    · exact absurd failed fine
    · rw [← Schema.create_after]
      exact ⟨⟨shelf',catalogued'⟩,distinct.create relation attrs⟩
  | destroyRel relation =>
    obtain ⟨db',shelf',ran,catalogued',_⟩ := catalogued.destroyRel_spec proper
    refine ⟨_,db',ran,fun _ => ?_⟩
    rw [← Schema.destroy_after]
    exact ⟨⟨shelf',catalogued'⟩,distinct.destroy relation⟩

theorem runAll_spec (catalogued : Catalogued db shelf schema) (distinct : schema.Distinct) (calls : List CatalogCall)
    (proper : ∀ call ∈ calls, call.Proper) :
    ∃ statuses db', runAll calls db = .ok (statuses,db') ∧ (.unixErr ∉ statuses →
      (∃ shelf', Catalogued db' shelf' (schema.history calls statuses)) ∧
      (schema.history calls statuses).Distinct) := by
  induction calls generalizing db shelf schema with
  | nil => exact ⟨[],db,rfl,fun _ => ⟨⟨shelf,catalogued⟩,distinct⟩⟩
  | cons call rest ih =>
    obtain ⟨status,db1,ran,told⟩ := run_spec catalogued distinct call (proper call (List.mem_cons_self ..))
    rw [runAll,ran,ok_bind]
    dsimp only
    by_cases failed : status = .unixErr
    · rw [if_pos failed]
      exact ⟨[status],db1,rfl,fun fine => absurd (List.mem_singleton.mpr failed.symm) fine⟩
    · rw [if_neg failed]
      obtain ⟨⟨shelf1,catalogued1⟩,distinct1⟩ := told failed
      obtain ⟨statuses,db2,done,told2⟩ := ih catalogued1 distinct1 fun later member =>
        proper later (List.mem_cons_of_mem _ member)
      refine ⟨status::statuses,db2,by rw [done]; rfl,fun fine => ?_⟩
      exact told2 fun member => fine (List.mem_cons_of_mem _ member)

end CatalogCall

-- What the methods of the catalogs answer for a relation is what has been declared of it.
structure Declares (db : Db) (schema : Schema) (relation : Name) : Prop where
  relInfo : ∀ record, ∃ db', RelCatalog.getInfo db relation record =
    .ok (if schema relation = none then .relNotFound else .ok,(schema relation).elim record fun attrs =>
      ⟨relation,attrs.length⟩,db')
  relAttrs : ∃ db', AttrCatalog.getRelInfo db relation =
    .ok (if schema relation = none then .relNotFound else .ok,schema.described relation,db')
  attrInfo : ∀ attrName, attrName ≠ [] → ∀ record, ∃ status d db', AttrCatalog.getInfo db relation attrName record =
    .ok (status,d,db') ∧
    ((∀ e ∈ schema.described relation, e.attrName ≠ attrName) → status = .attrNotFound) ∧
    ∀ e ∈ schema.described relation, e.attrName = attrName → status = .ok ∧ d = e

-- The look-ups turn the empty name away.
structure RefusesNameless (db : Db) : Prop where
  relInfo : ∀ record, RelCatalog.getInfo db [] record = .ok (.badCatParm,record,db)
  relAttrs : AttrCatalog.getRelInfo db [] = .ok (.badCatParm,[],db)
  attrInfo : ∀ relation record, AttrCatalog.getInfo db relation [] record = .ok (.badCatParm,record,db)

theorem refusesNameless (db : Db) : RefusesNameless db :=
  ⟨fun _ => rfl,rfl,fun _ _ => by rw [AttrCatalog.getInfo,if_pos (.inr rfl)]; rfl⟩

-- A relation that is created and destroyed leaves the rows of both catalogs, in their order.
def Restores (db : Db) (relation : Name) (attrs : List AttrInfo) : Prop :=
  ∀ db', RelCatalog.createRel db relation attrs = .ok (.ok,db') →
    ∃ db'', RelCatalog.destroyRel db' relation = .ok (.ok,db'') ∧
      db''.contents relCatName = db.contents relCatName ∧ db''.contents attrCatName = db.contents attrCatName

namespace Catalogued

theorem declares (catalogued : Catalogued db shelf schema) (distinct : schema.Distinct) (clean : 0 ∉ relation)
    (given : relation ≠ []) :
    Declares db schema relation := by
  refine ⟨fun record => ?_,?_,fun attrName attr_given record => ?_⟩
  · obtain ⟨b,asked,_⟩ := catalogued.relInfo clean given record
    exact ⟨_,asked⟩
  · obtain ⟨b,asked,_⟩ := catalogued.relAttrs clean given
    exact ⟨_,asked⟩
  obtain ⟨b,asked,_⟩ := catalogued.attrInfo clean given attr_given record
  refine ⟨_,_,_,asked,fun nowhere => ?_,fun e member named => ?_⟩
  · have missed : (schema.described relation).find? (fun d => d.attrName = attrName) = none := by
      rw [List.find?_eq_none]
      simpa using nowhere
    rw [missed]
    rfl
  · have found : (schema.described relation).find? (fun d => d.attrName = attrName) = some e := by
      cases seen : (schema.described relation).find? fun d => d.attrName = attrName with
      | none => exact absurd (List.find?_eq_none.mp seen e member) (by simpa using named)
      | some d =>
        have same : d.attrName = attrName := by simpa using List.find?_some seen
        exact congrArg _ (List.inj_on_of_nodup_map (distinct.described relation) (List.mem_of_find?_eq_some seen) member
          (same.trans named.symm))
    rw [found]
    exact ⟨rfl,rfl⟩

theorem restores (catalogued : Catalogued db shelf schema) (proper : (CatalogCall.createRel relation attrs).Proper) :
    Restores db relation attrs := by
  intro db' created
  obtain ⟨status,db1,ran,told⟩ := catalogued.createRel_spec proper.1 proper.2
  cases created.symm.trans ran
  rcases told with failed | ⟨same,shelf1,catalogued1,entered⟩
  · cases failed
  obtain ⟨given,short,undeclared,declared⟩ := Schema.create_ok same.symm
  rw [declared] at catalogued1
  obtain ⟨db2,shelf2,destroyed,catalogued2,left⟩ := catalogued1.destroyRel_spec proper.1
  have allowed : ¬ (relation = [] ∨ relation = relCatName ∨ relation = attrCatName) := by
    rintro (nameless | rfl | rfl)
    · exact given nameless
    · exact catalogued.catalogs.1 undeclared
    · exact catalogued.catalogs.2 undeclared
  have fine : (Schema.destroy (Function.update schema relation (some attrs)) relation).1 = .ok := by
    rw [Schema.destroy,if_neg allowed,if_neg (by rw [Function.update_self]; exact Option.some_ne_none _)]
  rw [fine] at destroyed
  have same_rows : ∀ catalog, catalog = relCatName ∨ catalog = attrCatName →
      db2.contents catalog = db.contents catalog := by
    intro catalog either
    obtain ⟨file,file2,present,present2,rows⟩ :=
      (entered rfl).left (left fine) ⟨proper.1,short⟩ catalogued1.stands catalogued undeclared either
    rw [Db.contents_spec catalogued2.stands present2,Db.contents_spec catalogued.stands present,rows]
  exact ⟨db2,destroyed,same_rows _ (.inl rfl),same_rows _ (.inr rfl)⟩

end Catalogued

-- From the catalogs that dbcreate builds, after every history of creations and destructions.
theorem catalog_history (db0 : Db) (bare : ∀ name, db0.files name = none) (calls : List CatalogCall)
    (proper : ∀ call ∈ calls, call.Proper) :
    ∃ db1 db2 statuses db, dbcreate db0 = .ok db1 ∧ openCatalogs db1 = .ok db2 ∧
      CatalogCall.runAll calls db2 = .ok (statuses,db) ∧
      (.unixErr ∉ statuses →
        (∀ relation, 0 ∉ relation → relation ≠ [] → Declares db (Schema.start.history calls statuses) relation) ∧
        (∀ relation attrs, (CatalogCall.createRel relation attrs).Proper → Restores db relation attrs) ∧
        RefusesNameless db) := by
  obtain ⟨db1,hdr,hdr',n,m,built,building⟩ := dbcreate_spec (bare relCatName) (bare attrCatName)
  obtain ⟨db2,opened,building2⟩ := openCatalogs_spec building
  obtain ⟨shelf,catalogued⟩ := building2.catalogued bare
  obtain ⟨statuses,db,ran,told⟩ := CatalogCall.runAll_spec catalogued Schema.start_distinct calls proper
  refine ⟨db1,db2,statuses,db,built,opened,ran,fun fine => ?_⟩
  obtain ⟨⟨shelf',catalogued'⟩,distinct'⟩ := told fine
  exact ⟨fun relation clean given => catalogued'.declares distinct' clean given,fun relation attrs proper' =>
    catalogued'.restores proper',
    refusesNameless db⟩

def emptyDirectory : Db := ⟨fun _ => none,fun _ _ => zero 1024,⟨HeapFile.fresh 0 0,none,0,nullRid⟩,.untouched⟩

-- R has an int and three characters, RR eight characters; R goes again, and so do its rows between
-- those of relcat and attrcat and those of RR.
def madeCalls : List CatalogCall :=
  [.createRel [82] [⟨[],[97],1,4,none⟩,⟨[],[98],0,3,none⟩],.createRel [82,82] [⟨[],[97],0,8,none⟩],.destroyRel [82]]

theorem declarable_of_short {attrs : List AttrInfo} (count : IsInt attrs.length)
    (attrNames : ∀ attr ∈ attrs, Fits attr.attrName ∧ attr.attrName ≠ []) (types : ∀ attr ∈ attrs, IsInt attr.attrType)
    (lens : ∀ attr ∈ attrs, 0 ≤ attr.attrLen ∧ attr.attrLen < 2147483648)
    (total : IsInt (attrs.map AttrInfo.attrLen).sum) :
    Schema.Declarable attrs := by
  refine ⟨count,attrNames,fun attr member => ⟨types attr member,?_⟩,Schema.offsets_int
    (fun attr member => (lens attr member).1) total⟩
  have len := lens attr member
  unfold IsInt
  omega

theorem madeCalls_proper : ∀ call ∈ madeCalls, call.Proper := by
  intro call member
  simp only [madeCalls,List.mem_cons,List.not_mem_nil,or_false] at member
  rcases member with rfl | rfl | rfl
  · exact ⟨by decide,fun _ => declarable_of_short (by decide) (by decide) (by decide) (by decide) (by decide)⟩
  · exact ⟨by decide,fun _ => declarable_of_short (by decide) (by decide) (by decide) (by decide) (by decide)⟩
  · exact (by decide : (0 : UInt8) ∉ ([82] : Name))

-- The catalogs of an empty directory, and what follows on them.
def fromStart {α : Type} (f : Db → Except Abort α) : Except Abort α := do
  f (← openCatalogs (← dbcreate emptyDirectory))

theorem fromStart_eq {α : Type} {f : Db → Except Abort α} {db1 db2 : Db} (built : dbcreate emptyDirectory = .ok db1)
    (opened : openCatalogs db1 = .ok db2) : fromStart f = f db2 := by
  rw [fromStart,built,ok_bind,opened,ok_bind]

theorem madeCalls_answered : (fromStart (CatalogCall.runAll madeCalls)).toOption.map Prod.fst = some [.ok,.ok,.ok] := by
  decide +kernel

theorem catalog_history_made : ∃ db1 db2 db, dbcreate emptyDirectory = .ok db1 ∧ openCatalogs db1 = .ok db2 ∧
    CatalogCall.runAll madeCalls db2 = .ok ([.ok,.ok,.ok],db) ∧
    (∃ db', AttrCatalog.getRelInfo db [82,82] = .ok (.ok,[⟨[82,82],[97],0,0,8⟩],db')) ∧
    (∃ db', AttrCatalog.getRelInfo db [82] = .ok (.relNotFound,[],db')) ∧
    ∀ relation attrs, (CatalogCall.createRel relation attrs).Proper → Restores db relation attrs := by
  obtain ⟨db1,db2,statuses,db,built,opened,ran,told⟩ :=
    catalog_history emptyDirectory (fun _ => rfl) madeCalls madeCalls_proper
  have answered := madeCalls_answered
  rw [fromStart_eq built opened,ran] at answered
  obtain rfl : statuses = [.ok,.ok,.ok] := Option.some.inj answered
  obtain ⟨declares,restores,_⟩ := told (by decide)
  have there : Schema.start.history madeCalls [.ok,.ok,.ok] [82,82] = some [⟨[],[97],0,8,none⟩] := by decide
  have gone : Schema.start.history madeCalls [.ok,.ok,.ok] [82] = none := by decide
  have longer := (declares [82,82] (by decide) (by decide)).relAttrs
  have shorter := (declares [82] (by decide) (by decide)).relAttrs
  rw [Schema.described,there,if_neg (Option.some_ne_none _)] at longer
  rw [Schema.described,gone,if_pos rfl] at shorter
  exact ⟨db1,db2,db,built,opened,ran,longer,shorter,restores⟩

-- An attribute without a name, and lengths that go round to a width of one byte.
def namelessAttrs : List AttrInfo := [⟨[],[],1,4,none⟩]
def longAttrs : List AttrInfo := [⟨[],[97],0,2147483647,none⟩,⟨[],[98],0,2147483647,none⟩,⟨[],[99],0,3,none⟩]

def namelessRun : Except Abort (Status × Status × Status) :=
  fromStart fun db => do
    let (created,db) ← RelCatalog.createRel db [82] namelessAttrs
    let (found,_,db) ← AttrCatalog.getInfo db [82] [] ⟨[],[],0,0,0⟩
    let (destroyed,_) ← RelCatalog.destroyRel db [82]
    return (created,found,destroyed)

def longRun : Except Abort (Status × Status × Int) :=
  fromStart fun db => do
    let (created,db) ← RelCatalog.createRel db [82] longAttrs
    let (found,record,_) ← AttrCatalog.getInfo db [82] [99] ⟨[],[],0,0,0⟩
    return (created,found,record.attrOffset)

theorem namelessRun_answered : namelessRun.toOption = some (.ok,.badCatParm,.badCatParm) := by
  decide +kernel

theorem longRun_answered : longRun.toOption = some (.ok,.ok,-2) := by
  decide +kernel

-- The empty name is not reported as unknown. An attribute may have it, is then not found, and keeps its
-- relation from being destroyed; and an offset that no int holds is not the sum of the lengths before it.
theorem catalog_history_broken :
    (∀ db record, RelCatalog.getInfo db [] record = .ok (.badCatParm,record,db)) ∧
      namelessRun.toOption = some (.ok,.badCatParm,.badCatParm) ∧ longRun.toOption = some (.ok,.ok,-2) :=
  ⟨fun db record => (refusesNameless db).relInfo record,namelessRun_answered,longRun_answered⟩

end Minirel
