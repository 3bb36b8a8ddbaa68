import Minirel.InsertLists
import Minirel.StatementRoom

namespace Minirel
open ByteMemory Heap Interp

-- A relation, with its tuples in no order.
structure Table where
  attrs : List AttrInfo
  tuples : Multiset (List UInt8)

-- What the interpreter's user works with. Joins number the names of their results with the counter.
-- Records that were ever written bound the lengths of the files.
structure Database where
  tables : Name → Option Table
  counter : Int
  written : Nat

namespace Database

section operations

variable (D : Database) (relation : Name)

def schema : Schema := fun name => (D.tables name).map Table.attrs

def attr (attrName : Name) : Option AttrDesc := (D.schema.described relation).find? fun d => d.attrName = attrName

def change (f : Multiset (List UInt8) → Multiset (List UInt8)) : Database :=
  {D with tables := Function.update D.tables relation ((D.tables relation).map fun table =>
    {table with tuples := f table.tuples})}

def gain (rows : Multiset (List UInt8)) : Database :=
    {D.change relation (· + rows) with written := D.written + rows.card}

def keep (wanted : List UInt8 → Prop) [DecidablePred wanted] : Database := D.change relation (Multiset.filter wanted)

-- The catalogs are tables like the others.
def declare (attrs : List AttrInfo) : Database :=
  let listed := (D.change relCatName (· + {RelDesc.bytes ⟨relation,attrs.length⟩})).change attrCatName
    (· + ((Schema.description relation attrs).map AttrDesc.bytes : List (List UInt8)))
  {listed with tables := Function.update listed.tables relation (some ⟨attrs,0⟩),written := D.written + attrs.length}

def forget : Database :=
  let listed := (D.keep relCatName fun row => ¬ OfRelation relation row).keep attrCatName fun row => ¬ OfRelation
    relation row
  {listed with tables := Function.update listed.tables relation none}

-- The result of a query without INTO is shown and forgotten.
def shown : Multiset (List UInt8) × Database :=
  if relation = tmpResultName then ((D.tables relation).elim 0 Table.tuples,D.forget relation) else (0,D)

-- A file can take so many pages more.
def Room (n : Nat) : Prop := D.written + 3 + n ≤ 2 ^ 31

instance (n : Nat) : Decidable (D.Room n) := inferInstanceAs (Decidable (_ ≤ _))

end operations

section tables

variable {D : Database} {relation name : Name} {attrs : List AttrInfo} {table : Table}
  {f : Multiset (List UInt8) → Multiset (List UInt8)}

theorem change_self (there : D.tables relation = some table) :
    (D.change relation f).tables relation = some ⟨table.attrs,f table.tuples⟩ := by
  rw [change]
  dsimp only
  rw [Function.update_self,there]
  rfl

theorem change_other (apart : name ≠ relation) : (D.change relation f).tables name = D.tables name :=
    Function.update_of_ne apart ..

theorem schema_change : (D.change relation f).schema = D.schema := by
  funext name
  rw [schema,schema]
  by_cases here : name = relation
  · rw [here,change]
    dsimp only
    rw [Function.update_self,Option.map_map]
    rfl
  · rw [change_other here]

theorem keep_congr {wanted wanted' : List UInt8 → Prop} [DecidablePred wanted] [DecidablePred wanted']
    (same : ∀ t, wanted t ↔ wanted' t) :
    D.keep relation wanted = D.keep relation wanted' := by
  have filters : Multiset.filter wanted = Multiset.filter wanted' :=
    funext fun tuples => Multiset.filter_congr fun t _ => same t
  rw [keep,keep,filters]

theorem gain_zero : (D.gain relation 0).tables = D.tables := by
  funext name
  by_cases here : name = relation
  · rw [here,gain,change]
    dsimp only
    rw [Function.update_self]
    cases D.tables relation with
    | none => rfl
    | some table => exact congrArg (fun tuples => some (Table.mk table.attrs tuples)) (Multiset.add_zero table.tuples)
  · exact change_other here

theorem declare_self : (D.declare relation attrs).tables relation = some ⟨attrs,0⟩ := Function.update_self ..

theorem declare_other (apart : name ≠ relation) (user : name ≠ relCatName ∧ name ≠ attrCatName) :
    (D.declare relation attrs).tables name = D.tables name := by
  refine (Function.update_of_ne apart ..).trans ?_
  rw [change_other user.2,change_other user.1]

theorem declare_relCat (apart : relCatName ≠ relation) (there : D.tables relCatName = some table) :
    (D.declare relation attrs).tables relCatName =
    some ⟨table.attrs,table.tuples + {RelDesc.bytes ⟨relation,attrs.length⟩}⟩ := by
  refine (Function.update_of_ne apart ..).trans ?_
  rw [change_other (by decide),change_self there]

theorem declare_attrCat (apart : attrCatName ≠ relation) (there : D.tables attrCatName = some table) :
    (D.declare relation attrs).tables attrCatName =
      some ⟨table.attrs,table.tuples + ((Schema.description relation attrs).map AttrDesc.bytes :
        List (List UInt8))⟩ := by
  refine (Function.update_of_ne apart ..).trans ?_
  exact change_self ((change_other (by decide)).trans there)

theorem forget_self : (D.forget relation).tables relation = none := Function.update_self ..

theorem forget_other (apart : name ≠ relation) (user : name ≠ relCatName ∧ name ≠ attrCatName) :
    (D.forget relation).tables name = D.tables name := by
  refine (Function.update_of_ne apart ..).trans ?_
  rw [keep,keep,change_other user.2,change_other user.1]

theorem forget_relCat (apart : relCatName ≠ relation) (there : D.tables relCatName = some table) :
    (D.forget relation).tables relCatName = some ⟨table.attrs,table.tuples.filter fun row => ¬ OfRelation
      relation row⟩ := by
  refine (Function.update_of_ne apart ..).trans ?_
  rw [keep,keep,change_other (by decide),change_self there]

theorem forget_attrCat (apart : attrCatName ≠ relation) (there : D.tables attrCatName = some table) :
    (D.forget relation).tables attrCatName = some ⟨table.attrs,table.tuples.filter fun row => ¬ OfRelation
      relation row⟩ := by
  refine (Function.update_of_ne apart ..).trans ?_
  exact change_self ((change_other (by decide)).trans there)

theorem schema_declare : (D.declare relation attrs).schema = Function.update D.schema relation (some attrs) := by
  funext name
  by_cases here : name = relation
  · rw [here,Function.update_self,schema,declare_self]
    rfl
  · rw [Function.update_of_ne here,schema,declare]
    dsimp only
    rw [Function.update_of_ne here]
    exact congrFun (schema_change.trans schema_change) name

theorem schema_forget : (D.forget relation).schema = Function.update D.schema relation none := by
  funext name
  by_cases here : name = relation
  · rw [here,Function.update_self,schema,forget_self]
    rfl
  · rw [Function.update_of_ne here,schema,forget]
    dsimp only
    rw [Function.update_of_ne here]
    exact congrFun (schema_change.trans schema_change) name

theorem schema_some (there : D.tables name = some table) : D.schema name = some table.attrs := by
  rw [schema,there]
  rfl

theorem schema_given (there : D.tables name = some table) : D.schema name ≠ none := by
  rw [schema_some there]
  exact Option.some_ne_none _

theorem schema_none : D.schema name = none ↔ D.tables name = none := Option.map_eq_none_iff

end tables

theorem attr_declare {D : Database} {relation result attrName : Name} {attrs : List AttrInfo}
    (apart : relation ≠ result) :
    (D.declare result attrs).attr relation attrName = D.attr relation attrName := by
  rw [attr,attr,schema_declare,Schema.described_update _ apart]

-- The attributes of a new result, up to the first that is in no table.
def resultAttrs (D : Database) (request : Request) (result : Name) : List AttrInfo → List AttrInfo → Int →
    Status × List AttrInfo × Int
  | [],made,counter => (.ok,made,counter)
  | info::infos,made,counter =>
    let named := createName request counter made info.attrName
    match D.attr info.relName info.attrName with
    | none => (.attrNotFound,made,named.2)
    | some d => D.resultAttrs request result infos (made ++ [⟨result,named.1,d.attrType,d.attrLen,none⟩]) named.2

-- The attributes to project on have those of an existing result's types and lengths.
def Matches (D : Database) (info : AttrInfo) (attr : AttrDesc) : Prop :=
  ∃ d, D.attr info.relName info.attrName = some d ∧ d.attrType = attr.attrType ∧ d.attrLen = attr.attrLen

-- A user may write to all relations but the catalogs.
def User (relation : Name) : Prop := relation ≠ relCatName ∧ relation ≠ attrCatName

instance (relation : Name) : Decidable (User relation) := inferInstanceAs (Decidable (_ ∧ _))

-- The attribute of this relation that an argument names.
def Names (D : Database) (relation : Name) (info : AttrInfo) (d : AttrDesc) : Prop :=
  info.relName = relation ∧ D.attr relation info.attrName = some d

end Database

-- An inserted tuple has every attribute's value where the attribute lies.
def rowOf (atof : List UInt8 → List UInt8) (attrs : List AttrDesc) (attrList : List AttrInfo) : List UInt8 :=
  attrs.flatMap fun d => representation atof d
    (((attrList.find? fun attr => attr.attrName = d.attrName).bind AttrInfo.attrValue).getD [])

open Database

-- The rows that a request asks for, and the tables that they come from.
inductive Requested (setting : Setting) (D : Database) (infos : List AttrInfo) : Request → List Name →
    Multiset (List UInt8) → Prop where
  | selected {source : Name} {table : Table} {descs : List AttrDesc} {attr : Option AttrInfo}
      {attrDesc : Option AttrDesc} {op : Operator}
      {text : List UInt8} (there : D.tables source = some table) (some_attr : infos ≠ [])
      (found : List.Forall₂ (D.Names source) infos descs)
      (chosen : Option.Rel (D.Names source) attr attrDesc) (narrow : Narrow descs)
      (enough : table.tuples.card < setting.turns) :
      Requested setting D infos (.select attr op text) [source]
        ((table.tuples.filter fun t => HeapFileScan.accepts (selectCondition setting.atof attrDesc op text) t).map
          (projection descs))
  | joined {one two : Name} {table1 table2 : Table} {descs : List AttrDesc} {attr1 attr2 : AttrInfo}
      {d1 d2 : AttrDesc} {op : Operator}
      (there1 : D.tables one = some table1) (there2 : D.tables two = some table2) (some_attr : infos ≠ [])
      (found : List.Forall₂ (fun info d => D.Names one info d ∨ D.Names two info d) infos descs)
      (found1 : D.Names one attr1 d1)
      (found2 : D.Names two attr2 d2) (lengths : d1.attrLen = d2.attrLen) (narrow : Narrow descs)
      (method : setting.joinMethod = .nlJoin ∨ setting.joinMethod = .hashJoin ∧ op ≠ .eq)
      (enough1 : table1.tuples.card < setting.turns)
      (enough2 : table2.tuples.card < setting.turns) :
      Requested setting D infos (.join attr1 op attr2) [one,two] (table1.tuples.bind fun t1 =>
        (table2.tuples.filter fun t2 => HeapFileScan.accepts (joinCondition d1 d2 op t1) t2).map fun t2 =>
        gathered (sourceOf one t1 t2) descs)
  -- The other methods join nothing.
  | notJoined {attr1 attr2 : AttrInfo} {op : Operator}
      (method : ¬ (setting.joinMethod = .nlJoin ∨ setting.joinMethod = .hashJoin ∧ op ≠ .eq)) :
      Requested setting D infos (.join attr1 op attr2) [] 0

-- What a statement answers, and the database after it. A statement that needs more than the program
-- promises, as a literal shorter than its attribute or one more page than a file can have, means nothing.
inductive Means (setting : Setting) (D : Database) : Node → Multiset (List UInt8) → Database → Prop where
  | destroyed {relname : Name} (done : (D.schema.destroy relname).1 = .ok) : Means setting D (.destroy relname) 0
      (D.forget relname)
  | notDestroyed {relname : Name} (refused : (D.schema.destroy relname).1 ≠ .ok) :
      Means setting D (.destroy relname) 0 D
  | created {relname : Name} {attrlist : List (Name × Int)} {primattr : Option (Name × Int)} {infos : List AttrInfo}
      (made : createArguments relname attrlist = .ok (.ok infos)) (done : (D.schema.create relname infos).1 = .ok)
      (room : D.Room infos.length) :
      Means setting D (.create relname attrlist primattr) 0 (D.declare relname infos)
  | notCreated {relname : Name} {attrlist : List (Name × Int)} {primattr : Option (Name × Int)} {infos : List AttrInfo}
      (made : createArguments relname attrlist = .ok (.ok infos)) (refused : (D.schema.create relname infos).1 ≠ .ok) :
      Means setting D (.create relname attrlist primattr) 0 D
  | badCreate {relname : Name} {attrlist : List (Name × Int)} {primattr : Option (Name × Int)} {refusal : Refusal}
      (refused : createArguments relname attrlist = .ok (.error refusal)) :
      Means setting D (.create relname attrlist primattr) 0 D
  | inserted {relname : Name} {attrlist : List (Name × Value)} {infos : List AttrInfo} {table : Table}
      (user : User relname)
      (there : D.tables relname = some table) (made : insertArguments setting relname attrlist = .ok (.ok infos))
      (complete : Complete (Schema.description relname table.attrs) infos)
      (narrow : Narrow (Schema.description relname table.attrs)) (room : D.Room 1) :
      Means setting D (.insert relname attrlist) 0
        (D.gain relname {rowOf setting.atof (Schema.description relname table.attrs) infos})
  | notInserted {relname : Name} {attrlist : List (Name × Value)} {infos : List AttrInfo} {table : Table}
      (user : User relname)
      (there : D.tables relname = some table) (made : insertArguments setting relname attrlist = .ok (.ok infos))
      (miscounted : infos.length ≠ table.attrs.length) : Means setting D (.insert relname attrlist) 0 D
  | badInsert {relname : Name} {attrlist : List (Name × Value)} {refusal : Refusal}
      (refused : insertArguments setting relname attrlist = .ok (.error refusal)) :
      Means setting D (.insert relname attrlist) 0 D
  | emptied {relname : Name} {table : Table} (user : User relname) (there : D.tables relname = some table) :
      Means setting D (.delete relname none) 0 (D.keep relname fun _ => False)
  | deleted {relname : Name} {table : Table} {selattr : Name × Name} {op : Operator} {value : Value}
      {text : List UInt8} {d : AttrDesc}
      (user : User relname) (there : D.tables relname = some table) (given : value.valueOf setting = .ok text)
      (known : D.attr relname selattr.2 = some d)
      (sound : (deleteCondition setting.atof d op value.typeOf text).Sound) :
      Means setting D (.delete relname (some (.select selattr op value))) 0
        (D.keep relname fun t => ¬ (deleteCondition setting.atof d op value.typeOf text).matchRec (.of t))
  | notDeleted {relname : Name} {joinattr1 joinattr2 : Name × Name} {op : Operator} :
      Means setting D (.delete relname (some (.join joinattr1 op joinattr2))) 0 D
  | loaded {relname filename : Name} {table : Table} {fd : DataFile} {rows : List (List UInt8)} (user : User relname)
      (there : D.tables relname = some table) (named : filename ≠ []) (opened : setting.unixFile filename = some fd)
      (narrow : Narrow (Schema.description relname table.attrs))
      (read : DataFile.tuples fd.reads (table.attrs.map AttrInfo.attrLen).sum setting.turns 0 = some rows)
      (room : D.Room rows.length) :
      Means setting D (.load relname filename) 0 (D.gain relname rows)
  | printed {relname : Name} {table : Table} (there : D.tables relname = some table)
      (enough : table.tuples.card < setting.turns) :
      Means setting D (.print relname) table.tuples D
  | notPrinted {relname : Name} (unknown : D.tables relname = none) : Means setting D (.print relname) 0 D
  | helped {relname : Name} : Means setting D (.help (some relname)) 0 D
  | helpedAll {table : Table} (there : D.tables relCatName = some table) (enough : table.tuples.card < setting.turns) :
      Means setting D (.help none) table.tuples D
  | badQuery {relname : Option Name} {attrlist : List (Name × Name)} {qual : Option Qual} {refusal : Refusal}
      (refused : queryArguments setting attrlist qual = .ok (.error refusal)) :
      Means setting D (.query relname attrlist qual) 0 D
  -- The name of the result of a query without INTO is taken.
  | taken {attrlist : List (Name × Name)} {qual : Option Qual} (there : D.tables tmpResultName ≠ none) :
      Means setting D (.query none attrlist qual) 0 D
  | added {result : Name} {attrlist : List (Name × Name)} {qual : Option Qual} {infos : List AttrInfo}
      {request : Request} {table : Table}
      {sources : List Name} {rows : Multiset (List UInt8)} (user : User result) (there : D.tables result = some table)
      (made : queryArguments setting attrlist qual = .ok (.ok (infos,request)))
      (matched : List.Forall₂ D.Matches infos (D.schema.described result))
      (asked : Requested setting D infos request sources rows) (apart : result ∉ sources) (room : D.Room rows.card)
      (shows : result = tmpResultName → (table.tuples + rows).card < setting.turns) :
      Means setting D (.query (some result) attrlist qual) ((D.gain result rows).shown result).1
        ((D.gain result rows).shown result).2
  | mismatched {result : Name} {attrlist : List (Name × Name)} {qual : Option Qual} {infos : List AttrInfo}
      {request : Request} {table : Table}
      (there : D.tables result = some table) (made : queryArguments setting attrlist qual = .ok (.ok (infos,request)))
      (other : ¬ List.Forall₂ D.Matches infos (D.schema.described result)) :
      Means setting D (.query (some result) attrlist qual) 0 D
  | produced {relname : Option Name} {result : Name} {attrlist : List (Name × Name)} {qual : Option Qual}
      {infos made : List AttrInfo}
      {request : Request} {counter : Int} {declared : Database} {sources : List Name} {rows : Multiset (List UInt8)}
      (named : relname.getD tmpResultName = result) (new : D.tables result = none) (short : result.length < maxName)
      (arguments : queryArguments setting attrlist qual = .ok (.ok (infos,request)))
      (attributes : D.resultAttrs request result infos [] D.counter = (.ok,made,counter))
      (shorts : ∀ attr ∈ made, attr.attrName.length < maxName)
      (done : (D.schema.create result made).1 = .ok) (declares : declared =
        {D.declare result made with counter := counter})
      (asked : Requested setting declared infos request sources rows) (apart : result ∉ sources)
      (room : D.Room (made.length + rows.card))
      (shows : result = tmpResultName → rows.card < setting.turns) :
      Means setting D (.query relname attrlist qual) ((declared.gain result rows).shown result).1
        ((declared.gain result rows).shown result).2
  | notProduced {relname : Option Name} {result : Name} {attrlist : List (Name × Name)} {qual : Option Qual}
      {infos made : List AttrInfo}
      {request : Request} {status : Status} {counter : Int} (named : relname.getD tmpResultName = result)
      (new : D.tables result = none)
      (short : result.length < maxName) (arguments : queryArguments setting attrlist qual = .ok (.ok (infos,request)))
      (attributes : D.resultAttrs request result infos [] D.counter = (status,made,counter))
      (refused : status ≠ .ok ∨ (D.schema.create result made).1 ≠ .ok) :
      Means setting D (.query relname attrlist qual) 0 {D with counter := counter}

end Minirel
