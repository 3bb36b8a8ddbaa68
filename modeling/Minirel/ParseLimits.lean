import Minirel.ParseNodes

namespace Minirel

-- The text of a literal, which value_of puts into its array.
def Value.text (setting : Setting) : Value → List UInt8
  | integer ival => decimal ival
  | real rval => setting.sprintf rval
  | string sval => sval

-- A string that mk_ins_attrs refuses.
def Value.tooLong : Value → Bool
  | .string sval => sval.length > maxStringLen
  | _ => false

def Where.names : Where → List Name
  | selection selattr _ _ => selattr.relname.toList ++ [selattr.attrname]
  | join joinattr1 _ joinattr2 =>
    joinattr1.relname.toList ++ [joinattr1.attrname] ++ joinattr2.relname.toList ++ [joinattr2.attrname]

def Where.literals : Where → List Value
  | selection _ _ value => [value]
  | join .. => []

-- The identifiers of a statement, and the literals that are values.
def Statement.names : Statement → List Name
  | query attrs into tables where_ => (attrs.toList.flatMap fun q => q.relname.toList ++ [q.attrname]) ++ into.toList ++
    (tables.toList.flatMap fun t => t.relname::t.relAlias.toList) ++ where_.elim [] Where.names
  | insert relname attribs _ => relname::attribs.toList
  | delete relname where_ => relname::where_.elim [] Where.names
  | create relname attrs primary => relname::attrs.toList.map Prod.fst ++ primary.toList.map Prod.fst
  | destroy relname => [relname]
  | build relname attrname => [relname,attrname]
  | drop relname attrname => relname::attrname.toList
  | load relname _ => [relname]
  | print relname => [relname]
  | help relname => relname.toList

def Statement.literals : Statement → List Value
  | query _ _ _ where_ => where_.elim [] Where.literals
  | insert _ _ values => values.toList
  | delete _ where_ => where_.elim [] Where.literals
  | _ => []

-- Identifiers and literals that fit in the arrays they are copied to.
structure Statement.Ordinary (setting : Setting) (s : Statement) : Prop where
  names : ∀ name ∈ s.names, name.length < maxName
  literals : ∀ value ∈ s.literals, (value.text setting).length < 255

namespace Interp

-- What interp makes of the list of a statement for the query layer.
def listArguments (setting : Setting) : Node → Except Abort (Except Refusal (List AttrInfo))
  | .query _ attrlist qual => do
    match ← queryArguments setting attrlist qual with
    | .error refusal => return .error refusal
    | .ok (infos,_) => return .ok infos
  | .insert relname attrlist => insertArguments setting relname attrlist
  | .create relname attrlist _ => createArguments relname attrlist
  | _ => return .ok []

-- A statement up to the query layer; none is a tree that is NULL, after a message.
def frontEnd (address : List UInt8 → Int) (setting : Setting) (s : Statement) :
    Except Abort (Option (Except Refusal (List AttrInfo))) := do
  match ← Parser.actions address s with
  | none => return none
  | some n => return some (← listArguments setting n)

section alive

variable {α β : Type} {item : α → Except Abort (Except Refusal β)}

-- None of this ends the process.
def Alive (x : Except Abort α) : Prop := x ≠ .error .exit

theorem alive_ok (a : α) : Alive (.ok a) := fun ended => by cases ended

theorem Alive.bind {x : Except Abort α} {f : α → Except Abort β} (first : Alive x) (later : ∀ a, Alive (f a)) :
    Alive (x >>= f) := by
  cases x with
  | ok a => exact later a
  | error abort =>
    intro ended
    cases ended
    exact first rfl

theorem strcpy_alive (size : Nat) (src : List UInt8) : Alive (strcpy size src) := by
  unfold strcpy
  split
  · exact alive_ok _
  · exact fun ended => by cases ended

theorem valueOf_alive (setting : Setting) (value : Value) : Alive (value.valueOf setting) := by
  cases value <;> exact strcpy_alive _ _

theorem convert_alive (items : ∀ a, Alive (item a)) (list : List α) : Alive (convert item list) := by
  induction list with
  | nil => exact alive_ok _
  | cons a rest ih =>
    refine (items a).bind fun made => ?_
    cases made with
    | error refusal => exact alive_ok _
    | ok b =>
      refine ih.bind fun bs => ?_
      cases bs <;> exact alive_ok _

theorem mkList_alive (items : ∀ a, Alive (item a)) (list : List α) : Alive (mkList item list) := by
  refine (convert_alive items _).bind fun made => ?_
  cases made <;> exact alive_ok _

theorem attrInfo_alive (relName attrName : Name) (attrType attrLen : Int) (attrValue : Option (List UInt8)) :
    Alive (attrInfo relName attrName attrType attrLen attrValue) :=
  (strcpy_alive _ _).bind fun _ => (strcpy_alive _ _).bind fun _ => alive_ok _

theorem attrInfos_alive (list : List (Name × Name × Int × Int × Option (List UInt8))) : Alive (attrInfos list) := by
  induction list with
  | nil => exact alive_ok _
  | cons e rest ih => exact (attrInfo_alive _ _ _ _ _).bind fun _ => ih.bind fun _ => alive_ok _

theorem insAttr_eq (setting : Setting) (a : Name × Value) :
    insAttr setting a = if a.2.tooLong then .ok (.error .stringTooLong) else do
    let value ← a.2.valueOf setting
    return .ok (a.1,a.2.typeOf,value) := by
  obtain ⟨attrname,value⟩ := a
  cases value <;> rfl

theorem insAttr_alive (setting : Setting) (a : Name × Value) : Alive (insAttr setting a) := by
  rw [insAttr_eq]
  split
  · exact alive_ok _
  · exact (valueOf_alive setting a.2).bind fun _ => alive_ok _

theorem queryArguments_alive (setting : Setting) (attrlist : List (Name × Name)) (qual : Option Qual) :
    Alive (queryArguments setting attrlist qual) := by
  cases qual with
  | none =>
    refine (mkList_alive (fun _ => alive_ok _) attrlist).bind fun made => ?_
    cases made with
    | error refusal => exact alive_ok _
    | ok attrs => exact (attrInfos_alive _).bind fun _ => alive_ok _
  | some qual =>
    cases qual with
    | select selattr op value =>
      refine (mkList_alive (fun _ => alive_ok _) attrlist).bind fun made => ?_
      cases made with
      | error refusal => exact alive_ok _
      | ok attrs =>
        exact (attrInfos_alive _).bind fun _ => (attrInfo_alive _ _ _ _ _).bind fun _ =>
          (valueOf_alive _ _).bind fun _ => alive_ok _
    | join joinattr1 op joinattr2 =>
      refine (mkList_alive (fun _ => alive_ok _) attrlist).bind fun made => ?_
      cases made with
      | error refusal => exact alive_ok _
      | ok attrs =>
        exact (attrInfos_alive _).bind fun _ => (attrInfo_alive _ _ _ _ _).bind fun _ =>
          (attrInfo_alive _ _ _ _ _).bind fun _ => alive_ok _

theorem listArguments_alive (setting : Setting) (n : Node) : Alive (listArguments setting n) := by
  cases n with
  | query relname attrlist qual =>
    refine (queryArguments_alive setting attrlist qual).bind fun made => ?_
    cases made <;> exact alive_ok _
  | insert relname attrlist =>
    refine (mkList_alive (insAttr_alive setting) attrlist).bind fun made => ?_
    cases made with
    | error refusal => exact alive_ok _
    | ok attrs => exact (attrInfos_alive _).bind fun _ => alive_ok _
  | create relname attrlist primattr =>
    refine (mkList_alive (fun _ => alive_ok _) attrlist).bind fun made => ?_
    cases made with
    | error refusal => exact alive_ok _
    | ok attrs => exact (attrInfos_alive _).bind fun _ => alive_ok _
  | _ => exact alive_ok _

end alive

section lists

variable {α β : Type} {item : α → Except Abort (Except Refusal β)} (made : α → β)

theorem convert_ok {list : List α} (fine : ∀ a ∈ list, item a = .ok (.ok (made a))) :
    convert item list = .ok (.ok (list.map made)) := by
  induction list with
  | nil => rfl
  | cons a rest ih =>
    have tail := ih fun b member => fine b (List.mem_cons_of_mem _ member)
    simp [convert,fine a,tail,ok_bind]
    rfl

theorem mkList_ok {list : List α} (short : list.length < maxAttrs) (fine : ∀ a ∈ list, item a = .ok (.ok (made a))) :
    mkList item list = .ok (.ok (list.map made)) := by
  rw [mkList,List.take_of_length_le (Nat.le_of_lt short),convert_ok made fine,ok_bind]
  simp [Nat.not_le.mpr short]
  rfl

theorem mkList_tooMany {list : List α} (long : maxAttrs ≤ list.length)
    (fine : ∀ a ∈ list.take maxAttrs, item a = .ok (.ok (made a))) :
    mkList item list = .ok (.error .tooManyAttrs) := by
  rw [mkList,convert_ok made fine,ok_bind]
  simp [long]
  rfl

end lists

theorem strcpy_ok {size : Nat} {src : List UInt8} (fits : src.length < size) : strcpy size src = .ok src := if_pos fits

theorem valueOf_ok {setting : Setting} {value : Value} (fits : (value.text setting).length < 255) :
    value.valueOf setting = .ok (value.text setting) := by
  cases value <;> exact strcpy_ok fits

theorem attrInfo_ok {relName attrName : Name} (rel : relName.length < maxName) (attr : attrName.length < maxName)
    (attrType attrLen : Int) (attrValue : Option (List UInt8)) :
    attrInfo relName attrName attrType attrLen attrValue = .ok ⟨relName,attrName,attrType,attrLen,attrValue⟩ := by
  rw [attrInfo,strcpy_ok rel,ok_bind,strcpy_ok attr,ok_bind]
  rfl

theorem attrInfos_ok {list : List (Name × Name × Int × Int × Option (List UInt8))}
    (fits : ∀ e ∈ list, e.1.length < maxName ∧ e.2.1.length < maxName) :
    attrInfos list = .ok (list.map fun e => ⟨e.1,e.2.1,e.2.2.1,e.2.2.2.1,e.2.2.2.2⟩) := by
  induction list with
  | nil => rfl
  | cons e rest ih =>
    obtain ⟨relName,attrName,attrType,attrLen,attrValue⟩ := e
    have ⟨rel,attr⟩ := fits _ List.mem_cons_self
    rw [attrInfos,attrInfo_ok rel attr,ok_bind,ih fun f member => fits f (List.mem_cons_of_mem _ member)]
    rfl

end Interp

-- The attributes that a statement lists, and nothing wrong with those before the limit.
def Node.attributes : Node → Nat
  | query _ attrlist _ => attrlist.length
  | insert _ attrlist => attrlist.length
  | create _ attrlist _ => attrlist.length
  | _ => 0

def Node.Faultless : Node → Prop
  | query _ attrlist none => ∀ a ∈ attrlist.take maxAttrs, some a.1 = attrlist.head?.map Prod.fst
  | query _ attrlist (some (.select selattr _ _)) => ∀ a ∈ attrlist.take maxAttrs, a.1 = selattr.1
  | query _ attrlist (some (.join joinattr1 _ joinattr2)) =>
    ∀ a ∈ attrlist.take maxAttrs, a.1 = joinattr1.1 ∨ a.1 = joinattr2.1
  | insert _ attrlist => ∀ a ∈ attrlist.take maxAttrs, a.2.tooLong = false
  | create _ attrlist _ => ∀ a ∈ attrlist.take maxAttrs, (Interp.parseFormatString a.2).isSome
  | _ => True

namespace Interp

-- A list that is too long is refused as such, unless something before the limit is refused.
theorem listArguments_tooMany (setting : Setting) (n : Node) (long : maxAttrs ≤ n.attributes) (faultless : n.Faultless)
    (fits : ∀ relname attrlist, n = .insert relname attrlist → ∀ a ∈ attrlist, (a.2.text setting).length < 255) :
    listArguments setting n = .ok (.error .tooManyAttrs) := by
  cases n with
  | query relname attrlist qual =>
    have refused : queryArguments setting attrlist qual = .ok (.error .tooManyAttrs) := by
      cases qual with
      | none =>
        have made : mkAttrnames attrlist none = .ok (.error .tooManyAttrs) :=
          mkList_tooMany id long fun a member => by simp [(faultless a member).symm]; rfl
        rw [queryArguments,made]
        rfl
      | some qual =>
        cases qual with
        | select selattr op value =>
          have made : mkAttrnames attrlist (some selattr.1) = .ok (.error .tooManyAttrs) :=
            mkList_tooMany id long fun a member => by simp [show a.1 = selattr.1 from faultless a member]; rfl
          simp [queryArguments,made,ok_bind]
          rfl
        | join joinattr1 op joinattr2 =>
          have made : mkQualAttrs attrlist joinattr1.1 joinattr2.1 = .ok (.error .tooManyAttrs) :=
            mkList_tooMany id long fun a member => by
              simp [show a.1 = joinattr1.1 ∨ a.1 = joinattr2.1 from faultless a member]; rfl
          simp [queryArguments,made,ok_bind]
          rfl
    rw [listArguments,refused]
    rfl
  | insert relname attrlist =>
    have made : mkInsAttrs setting attrlist = .ok (.error .tooManyAttrs) :=
      mkList_tooMany (fun a => (a.1,a.2.typeOf,a.2.text setting)) long fun a member => by
        rw [insAttr_eq,valueOf_ok (fits relname attrlist rfl a (List.mem_of_mem_take member))]
        simp [show a.2.tooLong = false from faultless a member]
    rw [listArguments,insertArguments,made]
    rfl
  | create relname attrlist primattr =>
    have made : mkAttrDescrs attrlist = .ok (.error .tooManyAttrs) :=
      mkList_tooMany (fun a => (a.1,(parseFormatString a.2).getD (.string,0))) long fun a member => by
        obtain ⟨format,found⟩ := Option.isSome_iff_exists.mp (faultless a member)
        simp [found]
        rfl
    rw [listArguments,createArguments,made]
    rfl
  | _ => exact absurd long (show ¬ maxAttrs ≤ 0 by decide)

end Interp

-- No statement ends the process for want of a node; too many attributes are refused as such, and an
-- insert into all attributes of a relation that a create makes is not refused.
structure Statement.Survives (address : List UInt8 → Int) (setting : Setting) (s : Statement) : Prop where
  alive : Interp.frontEnd address setting s ≠ .error .exit
  limited : ∀ n, Parser.tree address s = some n → maxAttrs ≤ n.attributes → n.Faultless →
    Interp.frontEnd address setting s = .ok (some (.error .tooManyAttrs))
  insertable : ∀ relname attribs values, s = .insert relname attribs values →
    attribs.toList.length = values.toList.length →
    ∀ columns primary infos, Interp.frontEnd address setting (.create relname columns primary) =
      .ok (some (.ok infos)) →
      attribs.toList.Perm (columns.toList.map Prod.fst) → ∃ infos, Interp.frontEnd address setting s =
        .ok (some (.ok infos))

section pool

variable {address : List UInt8 → Int} {setting : Setting} {s : Statement}

-- With its nodes in the pool, a statement is its tree.
theorem frontEnd_tree (room : Parser.nodes s ≤ maxNode) :
    Interp.frontEnd address setting s = match Parser.tree address s with
    | none => .ok none
    | some n => (do return some (← Interp.listArguments setting n)) := by
  rw [Interp.frontEnd,Parser.actions_spec,if_pos room,ok_bind]
  split <;> rfl

theorem frontEnd_alive (room : Parser.nodes s ≤ maxNode) : Interp.frontEnd address setting s ≠ .error .exit := by
  rw [frontEnd_tree room]
  cases Parser.tree address s with
  | none => exact Interp.alive_ok none
  | some n => exact (Interp.listArguments_alive setting n).bind fun _ => Interp.alive_ok _

theorem frontEnd_exit (full : ¬ Parser.nodes s ≤ maxNode) : Interp.frontEnd address setting s = .error .exit := by
  rw [Interp.frontEnd,Parser.actions_spec,if_neg full]
  rfl

theorem insert_tree {relname : Name} {attribs : NonMt Name} {values : NonMt Value} {n : Node}
    (made : Parser.tree address (.insert relname attribs values) = some n) :
    attribs.toList.length = values.toList.length ∧ n = .insert relname (attribs.toList.zip values.toList) := by
  rw [Parser.tree,Parser.mergeAttrValueList] at made
  split at made
  · rename_i even
    exact ⟨even,(Option.some.inj made).symm⟩
  · cases made

-- Only an insert makes the node of an insert.
theorem tree_insert {relname : Name} {attrlist : List (Name × Value)}
    (made : Parser.tree address s = some (.insert relname attrlist)) :
    ∃ attribs values, s = .insert relname attribs values ∧ attrlist = attribs.toList.zip values.toList := by
  cases s with
  | insert relname' attribs values =>
    obtain ⟨_,same⟩ := insert_tree made
    injection same with rel attrs
    subst rel attrs
    exact ⟨attribs,values,rfl,rfl⟩
  | query attrs into tables where_ =>
    rw [Parser.tree] at made
    obtain ⟨found,_,same⟩ := Option.map_eq_some_iff.mp made
    cases same
  | _ => cases made

theorem insert_fits {relname : Name} {attrlist : List (Name × Value)} (ordinary : s.Ordinary setting)
    (made : Parser.tree address s = some (.insert relname attrlist)) : ∀ a ∈ attrlist, (a.2.text setting).length <
    255 := by
  obtain ⟨attribs,values,rfl,rfl⟩ := tree_insert made
  intro a member
  exact ordinary.literals a.2 (List.of_mem_zip member).2

-- Too few attributes for the limit fit in the pool with their values.
theorem insert_short {relname : Name} {attribs : NonMt Name} {values : NonMt Value}
    (even : attribs.toList.length = values.toList.length)
    (room : Parser.nodes (.insert relname attribs values) ≤ maxNode) : (attribs.toList.zip values.toList).length <
    maxAttrs := by
  rw [Parser.nodes] at room
  rw [List.length_zip]
  unfold maxNode at room
  unfold maxAttrs
  omega

theorem insert_made {relname : Name} {attribs : NonMt Name} {values : NonMt Value}
    (ordinary : (Statement.insert relname attribs values).Ordinary setting)
    (even : attribs.toList.length = values.toList.length) (room : Parser.nodes (.insert relname attribs values) ≤
      maxNode) :
    ∃ infos, Interp.frontEnd address setting (.insert relname attribs values) = .ok (some (.ok infos)) := by
  have attrs : Interp.mkInsAttrs setting (attribs.toList.zip values.toList) =
      .ok (.ok ((attribs.toList.zip values.toList).map fun a => (a.1,a.2.typeOf,a.2.text setting))) := by
    apply Interp.mkList_ok _ (insert_short even room)
    intro a member
    have fits := ordinary.literals a.2 (List.of_mem_zip member).2
    rw [Interp.insAttr_eq,Interp.valueOf_ok fits]
    have short : a.2.tooLong = false := by
      cases value : a.2 with
      | string sval =>
        rw [value] at fits
        exact decide_eq_false (by unfold maxStringLen; exact Nat.not_lt.mpr (Nat.le_of_lt fits))
      | _ => rfl
    simp [short]
  have names : ∀ name ∈ relname::attribs.toList, name.length < maxName := ordinary.names
  have stored : ∀ e ∈ ((attribs.toList.zip values.toList).map fun a => (a.1,a.2.typeOf,a.2.text setting)).map
      (fun a => (relname,a.1,a.2.1.code,(-1 : Int),some a.2.2)), e.1.length < maxName ∧ e.2.1.length < maxName := by
    intro e member
    obtain ⟨b,memberB,rfl⟩ := List.mem_map.mp member
    obtain ⟨a,memberA,rfl⟩ := List.mem_map.mp memberB
    exact ⟨names _ List.mem_cons_self,names _ (List.mem_cons_of_mem _ (List.of_mem_zip memberA).1)⟩
  have infos := Interp.attrInfos_ok stored
  rw [frontEnd_tree room,Parser.tree,Parser.mergeAttrValueList,if_pos even]
  simp only [Option.map_some,Interp.listArguments,Interp.insertArguments,attrs,ok_bind,infos]
  exact ⟨_,rfl⟩

end pool

-- A statement survives exactly when its nodes fit in the pool.
theorem survives_iff (address : List UInt8 → Int) (setting : Setting) (s : Statement) (ordinary : s.Ordinary setting) :
    s.Survives address setting ↔ Parser.nodes s ≤ maxNode := by
  constructor
  · intro survives
    by_contra full
    exact survives.alive (frontEnd_exit full)
  · intro room
    refine ⟨frontEnd_alive room,?_,?_⟩
    · intro n made long faultless
      have refused := Interp.listArguments_tooMany setting n long faultless fun relname attrlist same => by
        subst same
        exact insert_fits ordinary made
      rw [frontEnd_tree room,made]
      simp only [refused,ok_bind]
      rfl
    · intro relname attribs values same even columns primary infos created all
      subst same
      exact insert_made ordinary even room

-- A relation r of char columns a, aA, aB and so on, and an insert of an x for each of them.
def charColumns : Nat → NonMt (Name × AttrType)
  | 0 => .one ([120],.oneChar)
  | n+1 => .cons ([120,(65 + n).toUInt8],.oneChar) (charColumns n)

def columnNames : Nat → NonMt Name
  | 0 => .one [120]
  | n+1 => .cons [120,(65 + n).toUInt8] (columnNames n)

def columnValues : Nat → NonMt Value
  | 0 => .one (.string [120])
  | n+1 => .cons (.string [120]) (columnValues n)

def wideCreate (n : Nat) : Statement := .create [114] (charColumns n) none

def wideInsert (n : Nat) : Statement := .insert [114] (columnNames n) (columnValues n)

def someSetting : Setting := ⟨fun _ => [],fun _ => [],0,[],⟨[],[],0,0,0⟩,.nlJoin,fun _ => none⟩

theorem survives_iff_narrow : (wideInsert 1).Survives (fun _ => 0) someSetting ↔
    Parser.nodes (wideInsert 1) ≤ maxNode :=
  survives_iff _ _ _ ⟨by decide,by decide⟩

-- With 25 columns the relation is made, and naming all of them takes 101 nodes.
theorem wide_insert_exits : (wideCreate 24).Ordinary someSetting ∧ (wideInsert 24).Ordinary someSetting ∧
    (∃ infos, Interp.frontEnd (fun _ => 0) someSetting (wideCreate 24) = .ok (some (.ok infos)) ∧ infos.length = 25) ∧
    Interp.frontEnd (fun _ => 0) someSetting (wideInsert 24) = .error .exit :=
  ⟨⟨by decide,by decide⟩,⟨by decide,by decide⟩,⟨_,rfl,rfl⟩,frontEnd_exit (by decide)⟩

end Minirel
