import Minirel.Aliases

namespace Minirel
open ByteMemory

-- A literal as the scanner has read it; a real is the bytes of a float.
inductive Value where
  | integer (ival : Int)
  | real (rval : List UInt8)
  | string (sval : List UInt8)
  deriving DecidableEq,Repr

inductive Qual where
  | select (selattr : Name × Name) (op : Operator) (value : Value)
  | join (joinattr1 : Name × Name) (op : Operator) (joinattr2 : Name × Name)
  deriving DecidableEq,Repr

-- A parse tree, after the parser has put a relation for every alias.
inductive Node where
  | query (relname : Option Name) (attrlist : List (Name × Name)) (qual : Option Qual)
  | insert (relname : Name) (attrlist : List (Name × Value))
  | delete (relname : Name) (qual : Option Qual)
  | create (relname : Name) (attrlist : List (Name × Int)) (primattr : Option (Name × Int))
  | destroy (relname : Name)
  | build (relname attrname : Name)
  | drop (relname : Name) (attrname : Option Name)
  | load (relname filename : Name)
  | print (relname : Name)
  | help (relname : Option Name)
  deriving DecidableEq,Repr

-- What the grammar derives. Its lists are right recursive and have at least one item.
inductive NonMt (α : Type) where
  | one (item : α)
  | cons (item : α) (rest : NonMt α)
  deriving DecidableEq,Repr

def NonMt.toList {α : Type} : NonMt α → List α
  | .one item => [item]
  | .cons item rest => item::rest.toList

inductive AttrType where
  | int
  | real
  | char (length : Value)
  | oneChar
  deriving DecidableEq,Repr

inductive Where where
  | selection (selattr : QualAttr) (op : Operator) (value : Value)
  | join (joinattr1 : QualAttr) (op : Operator) (joinattr2 : QualAttr)
  deriving DecidableEq,Repr

inductive Statement where
  | query (attrs : NonMt QualAttr) (into : Option Name) (tables : NonMt TableRef) (where_ : Option Where)
  | insert (relname : Name) (attribs : NonMt Name) (values : NonMt Value)
  | delete (relname : Name) (where_ : Option Where)
  | create (relname : Name) (attrs : NonMt (Name × AttrType)) (primary : Option (Name × Int))
  | destroy (relname : Name)
  | build (relname attrname : Name)
  | drop (relname : Name) (attrname : Option Name)
  | load (relname filename : Name)
  | print (relname : Name)
  | help (relname : Option Name)
  deriving DecidableEq,Repr

def maxNode : Nat := 100

-- The actions of the grammar, with nodeptr as their state; new_query has set it to 0.
abbrev Parser (α : Type) := Nat → Except Abort (α × Nat)

namespace Parser

-- newnode and what is stored in the node.
def newnode {α : Type} (n : α) : Parser α := fun nodeptr => if nodeptr = maxNode then .error .exit else .ok
    (n,nodeptr + 1)

-- list_node for the last item of a list, prepend for the others, which come before it.
def list {α β : Type} (item : α → Parser β) : NonMt α → Parser (List β)
  | .one a => fun nodeptr => do
    let (n,nodeptr) ← item a nodeptr
    newnode [n] nodeptr
  | .cons a rest => fun nodeptr => do
    let (n,nodeptr) ← item a nodeptr
    let (ns,nodeptr) ← list item rest nodeptr
    newnode (n::ns) nodeptr

-- The member ival of the union that holds the value: for a string it is part of an address.
def ival (address : List UInt8 → Int) : Value → Int
  | .integer i => i
  | .real bytes => decode bytes
  | .string s => address s

-- 'i'-128 and 'f'-128
def attrtype (address : List UInt8 → Int) (attr : Name × AttrType) : Parser (Name × Int) :=
  match attr.2 with
  | .int => newnode (attr.1,-23)
  | .real => newnode (attr.1,-26)
  | .char length => fun nodeptr => do
    let (value,nodeptr) ← newnode length nodeptr
    newnode (attr.1,ival address value) nodeptr
  | .oneChar => newnode (attr.1,2)

def whereClause : Option Where → Parser (Option Where)
  | none => fun nodeptr => return (none,nodeptr)
  | some (.selection selattr op value) => fun nodeptr => do
    let (selattr,nodeptr) ← newnode selattr nodeptr
    let (value,nodeptr) ← newnode value nodeptr
    newnode (some (.selection selattr op value)) nodeptr
  | some (.join joinattr1 op joinattr2) => fun nodeptr => do
    let (joinattr1,nodeptr) ← newnode joinattr1 nodeptr
    let (joinattr2,nodeptr) ← newnode joinattr2 nodeptr
    newnode (some (.join joinattr1 op joinattr2)) nodeptr

def replaceAliasInCondition (tables : List TableRef) : Where → Option Qual
  | .selection selattr op value => do return .select (← replaceAlias tables selattr) op value
  | .join joinattr1 op joinattr2 => do
    return .join (← replaceAlias tables joinattr1) op (← replaceAlias tables joinattr2)

-- $$ = NULL where something is wrong with a qualifier, which has been printed.
def resolve (tables : List TableRef) (attrs : List QualAttr) (where_ : Option Where) :
    Option (List (Name × Name) × Option Qual) := do
  let attrlist ← replaceAliasInQualattrList tables attrs
  match where_ with
  | none => return (attrlist,none)
  | some condition => return (attrlist,some (← replaceAliasInCondition tables condition))

def mergeAttrValueList (attrs : List Name) (values : List Value) : Option (List (Name × Value)) :=
  if attrs.length = values.length then some (attrs.zip values) else none

-- The node for a statement when the lists are in order, or NULL.
def node {α : Type} (made : Option α) : Parser (Option α)
  := fun nodeptr => match made with
  | none => return (none,nodeptr)
  | some n => newnode (some n) nodeptr

-- A qualifier in the condition of delete is not looked up.
def whereQual : Option Where → Option Qual
  | none => none
  | some (.selection selattr op value) => some (.select (selattr.relname.getD [],selattr.attrname) op value)
  | some (.join joinattr1 op joinattr2) =>
    some (.join (joinattr1.relname.getD [],joinattr1.attrname) op (joinattr2.relname.getD [],joinattr2.attrname))

def statement (address : List UInt8 → Int) : Statement → Parser (Option Node)
  | .query attrs into tables where_ => fun nodeptr => do
    let (attrs,nodeptr) ← list newnode attrs nodeptr
    let (tables,nodeptr) ← list newnode tables nodeptr
    let (where_,nodeptr) ← whereClause where_ nodeptr
    node ((resolve tables attrs where_).map fun found => .query into found.1 found.2) nodeptr
  | .insert relname attribs values => fun nodeptr => do
    let (attribs,nodeptr) ← list newnode attribs nodeptr
    let (values,nodeptr) ← list newnode values nodeptr
    node ((mergeAttrValueList attribs values).map (.insert relname)) nodeptr
  | .delete relname where_ => fun nodeptr => do
    let (where_,nodeptr) ← whereClause where_ nodeptr
    newnode (some (.delete relname (whereQual where_))) nodeptr
  | .create relname attrs primary => fun nodeptr => do
    let (attrs,nodeptr) ← list (attrtype address) attrs nodeptr
    let (primary,nodeptr) ← node primary nodeptr
    newnode (some (.create relname attrs primary)) nodeptr
  | .destroy relname => newnode (some (.destroy relname))
  | .build relname attrname => newnode (some (.build relname attrname))
  | .drop relname attrname => newnode (some (.drop relname attrname))
  | .load relname filename => newnode (some (.load relname filename))
  | .print relname => newnode (some (.print relname))
  | .help relname => newnode (some (.help relname))

-- The actions that yyparse runs for a statement that the grammar derives.
def actions (address : List UInt8 → Int) (s : Statement) : Except Abort (Option Node) := do
  let (n,_) ← statement address s 0
  return n

end Parser
end Minirel
