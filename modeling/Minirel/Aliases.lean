import Minirel.ThetaJoin

namespace Minirel
open ByteMemory SlotDirectory Page Heap

-- An entry of the FROM list, and an attribute with the qualifier it is written with.
structure TableRef where
  relname : Name
  relAlias : Option Name
  deriving DecidableEq,Repr

structure QualAttr where
  relname : Option Name
  attrname : Name
  deriving DecidableEq,Repr

def maxAttrs : Nat := 40

-- The qualifier itself when a relation is called so, else the relation it stands for; what comes
-- first in the list decides.
def findMatchInAlias : List TableRef → Name → Option Name
  | [],_ => none
  | t::rest,relAlias =>
    if t.relname = relAlias then some relAlias
    else if t.relAlias = some relAlias then some t.relname
    else findMatchInAlias rest relAlias

-- The body of replace_alias_in_qualattr_list, which replace_alias_in_condition has for both sides.
def replaceAlias (tables : List TableRef) (q : QualAttr) : Option (Name × Name) :=
  match q.relname with
  | none =>
    match tables with
    | [t] => some (t.relname,q.attrname)
    | _ => none
  | some relAlias => (findMatchInAlias tables relAlias).map fun relname => (relname,q.attrname)

def replaceAliasInQualattrList (tables : List TableRef) : List QualAttr → Option (List (Name × Name))
  | [] => some []
  | q::rest => do
    let one ← replaceAlias tables q
    return one::(← replaceAliasInQualattrList tables rest)

def mkQualAttrs (attrs : List (Name × Name)) (relname1 relname2 : Name) : Option (List (Name × Name)) :=
  if maxAttrs ≤ attrs.length then none
  else if attrs.all fun a => a.1 = relname1 ∨ a.1 = relname2 then some attrs else none

-- attrInfo as interp fills it in for a join: type and length are -1.
def joinInfo (a : Name × Name) : AttrInfo := ⟨a.1,a.2,-1,-1,none⟩

-- What the parser and interp make of a join statement: the arguments of QU_Join, or an error message.
def joinArguments (tables : List TableRef) (select : List QualAttr) (joinattr1 joinattr2 : QualAttr) :
    Option (List AttrInfo × AttrInfo × AttrInfo) := do
  let attrs ← replaceAliasInQualattrList tables select
  let a1 ← replaceAlias tables joinattr1
  let a2 ← replaceAlias tables joinattr2
  let attrs ← mkQualAttrs attrs a1.1 a2.1
  return (attrs.map joinInfo,joinInfo a1,joinInfo a2)

section lists

variable {α β γ : Type}

end lists

section binding

variable {tables : List TableRef} {left right other one two inner : Name} {select : List QualAttr} {cat : Heap}
  {infos : List AttrInfo} {attrs : List AttrDesc}

-- The bytes of an attribute in a tuple.
def valueOf (d : AttrDesc) (bytes : List UInt8) : List UInt8 := (bytes.drop d.attrOffset.toNat).take d.attrLen.toNat

end binding

end Minirel
