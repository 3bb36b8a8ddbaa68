import Minirel.Interp

namespace Minirel

namespace Parser

-- The action takes this many nodes of the pool: it gives its result when they are there, and ends the
-- process when they are not.
def Makes {α : Type} (p : Parser α) (count : Nat) (a : α) : Prop :=
  ∀ nodeptr, nodeptr ≤ maxNode → p nodeptr = if nodeptr + count ≤ maxNode then .ok (a,nodeptr + count) else .error .exit

variable {α β : Type} {address : List UInt8 → Int}

theorem newnode_makes (a : α) : Makes (newnode a) 1 a := by
  intro nodeptr inside
  unfold newnode
  by_cases full : nodeptr = maxNode
  · rw [if_pos full,if_neg (by omega)]
  · rw [if_neg full,if_pos (by omega)]

theorem nothing_makes (a : α) : Makes (fun nodeptr => return (a,nodeptr)) 0 a := by
  intro nodeptr inside
  rw [if_pos (show nodeptr + 0 ≤ maxNode from inside)]
  rfl

theorem Makes.bind {p : Parser α} {count count' : Nat} {a : α} {b : β} (first : Makes p count a) (f : α → Parser β)
    (second : Makes (f a) count' b) :
    Makes (fun nodeptr => p nodeptr >>= fun made => f made.1 made.2) (count + count') b := by
  intro nodeptr inside
  dsimp only
  rw [first nodeptr inside]
  by_cases room : nodeptr + count ≤ maxNode
  · rw [if_pos room,ok_bind]
    dsimp only
    rw [second _ room,Nat.add_assoc]
  · rw [if_neg room,if_neg (by omega)]
    rfl

theorem list_makes {item : α → Parser β} {count : α → Nat} (made : α → β)
    (items : ∀ a, Makes (item a) (count a) (made a)) (list : NonMt α) :
    Makes (Parser.list item list) (list.toList.map fun a => count a + 1).sum (list.toList.map made) := by
  induction list with
  | one a => exact (items a).bind (fun n => newnode [n]) (newnode_makes _)
  | cons a rest ih =>
    have both := (items a).bind (fun n nodeptr => Parser.list item rest nodeptr >>= fun ns => newnode (n::ns.1) ns.2)
      (ih.bind (fun ns => newnode (made a::ns)) (newnode_makes _))
    rw [NonMt.toList,List.map_cons,List.map_cons,List.sum_cons,Nat.add_assoc,Nat.add_comm 1]
    exact both

def attrtypeNodes : AttrType → Nat
  | .char _ => 2
  | _ => 1

-- The encoding of a column type.
def format (address : List UInt8 → Int) : AttrType → Int
  | .int => -23
  | .real => -26
  | .char length => ival address length
  | .oneChar => 2

theorem attrtype_makes (attr : Name × AttrType) : Makes (attrtype address attr) (attrtypeNodes attr.2)
    (attr.1,format address attr.2) := by
  obtain ⟨attrname,type⟩ := attr
  cases type with
  | char length =>
    exact (newnode_makes length).bind (fun value => newnode (attrname,ival address value)) (newnode_makes _)
  | int => exact newnode_makes _
  | real => exact newnode_makes _
  | oneChar => exact newnode_makes _

def whereNodes (where_ : Option Where) : Nat := where_.elim 0 fun _ => 3

theorem whereClause_makes (where_ : Option Where) : Makes (whereClause where_) (whereNodes where_) where_ := by
  cases where_ with
  | none => exact nothing_makes none
  | some condition =>
    cases condition with
    | selection selattr op value =>
      exact (newnode_makes selattr).bind (fun selattr nodeptr => newnode value nodeptr >>= fun made =>
          newnode (some (Where.selection selattr op made.1)) made.2)
        ((newnode_makes value).bind (fun value => newnode (some (Where.selection selattr op value))) (newnode_makes _))
    | join joinattr1 op joinattr2 =>
      exact (newnode_makes joinattr1).bind (fun joinattr1 nodeptr => newnode joinattr2 nodeptr >>= fun made =>
          newnode (some (Where.join joinattr1 op made.1)) made.2)
        ((newnode_makes joinattr2).bind (fun joinattr2 => newnode (some (Where.join joinattr1 op joinattr2)))
          (newnode_makes _))

theorem node_makes (made : Option α) : Makes (node made) (made.elim 0 fun _ => 1) made := by
  cases made with
  | none => exact nothing_makes none
  | some n => exact newnode_makes (some n)

-- The tree of a statement, and the nodes that it takes.
def tree (address : List UInt8 → Int) : Statement → Option Node
  | .query attrs into tables where_ => (resolve tables.toList attrs.toList where_).map fun found =>
    .query into found.1 found.2
  | .insert relname attribs values => (mergeAttrValueList attribs.toList values.toList).map (.insert relname)
  | .delete relname where_ => some (.delete relname (whereQual where_))
  | .create relname attrs primary => some (.create relname (attrs.toList.map fun a => (a.1,format address a.2)) primary)
  | .destroy relname => some (.destroy relname)
  | .build relname attrname => some (.build relname attrname)
  | .drop relname attrname => some (.drop relname attrname)
  | .load relname filename => some (.load relname filename)
  | .print relname => some (.print relname)
  | .help relname => some (.help relname)

def nodes : Statement → Nat
  | .query attrs _ tables where_ =>
    2 * attrs.toList.length + 2 * tables.toList.length + whereNodes
      where_ + if (resolve tables.toList attrs.toList where_).isSome then 1 else 0
  | .insert _ attribs values =>
    2 * attribs.toList.length + 2 * values.toList.length + if attribs.toList.length = values.toList.length then 1 else 0
  | .delete _ where_ => whereNodes where_ + 1
  | .create _ attrs primary => (attrs.toList.map fun a => attrtypeNodes a.2 + 1).sum + (primary.elim 0 fun _ => 1) + 1
  | _ => 1

theorem sum_two (list : List α) : (list.map fun _ => 1 + 1).sum = 2 * list.length := by
  induction list with
  | nil => rfl
  | cons a list ih =>
    rw [List.map_cons,List.sum_cons,ih,List.length_cons]
    omega

theorem newnodes_makes (list : NonMt α) : Makes (Parser.list newnode list) (2 * list.toList.length) list.toList := by
  have made := list_makes id (fun a : α => newnode_makes a) list
  rw [sum_two,List.map_id] at made
  exact made

theorem statement_makes (s : Statement) : Makes (statement address s) (nodes s) (tree address s) := by
  cases s with
  | query attrs into tables where_ =>
    have count : nodes (.query attrs into tables where_) = 2 * attrs.toList.length +
      (2 * tables.toList.length + (whereNodes where_ +
        ((resolve tables.toList attrs.toList where_).map fun found => Node.query into found.1 found.2).elim 0 fun _ =>
        1)) := by
      rw [nodes,Nat.add_assoc,Nat.add_assoc]
      cases resolve tables.toList attrs.toList where_ <;> rfl
    rw [count]
    have last := (whereClause_makes where_).bind
      (fun where_ => node ((resolve tables.toList attrs.toList where_).map fun found =>
        Node.query into found.1 found.2)) (node_makes _)
    have listed := (newnodes_makes tables).bind (fun tables nodeptr => whereClause where_ nodeptr >>= fun condition =>
      node ((resolve tables attrs.toList condition.1).map fun found => Node.query into found.1 found.2)
        condition.2) last
    exact (newnodes_makes attrs).bind (fun attrs nodeptr => Parser.list newnode tables nodeptr >>= fun tables =>
      whereClause where_ tables.2 >>= fun condition =>
      node ((resolve tables.1 attrs condition.1).map fun found => Node.query into found.1 found.2) condition.2) listed
  | insert relname attribs values =>
    have count : nodes (.insert relname attribs values) = 2 * attribs.toList.length + (2 * values.toList.length +
        ((mergeAttrValueList attribs.toList values.toList).map (Node.insert relname)).elim 0 fun _ => 1) := by
      rw [nodes,Nat.add_assoc,mergeAttrValueList]
      split <;> rfl
    rw [count]
    have last := (newnodes_makes values).bind (fun values =>
      node ((mergeAttrValueList attribs.toList values).map (Node.insert relname)))
      (node_makes _)
    exact (newnodes_makes attribs).bind (fun attribs nodeptr => Parser.list newnode values nodeptr >>= fun values =>
      node ((mergeAttrValueList attribs values.1).map (Node.insert relname)) values.2) last
  | delete relname where_ =>
    exact (whereClause_makes where_).bind (fun where_ => newnode (some (Node.delete relname (whereQual where_))))
      (newnode_makes _)
  | create relname attrs primary =>
    rw [nodes,Nat.add_assoc]
    have last := (node_makes primary).bind
      (fun primary => newnode (some (Node.create relname (attrs.toList.map fun a => (a.1,format address a.2))
        primary))) (newnode_makes _)
    exact (list_makes _ (fun attr => attrtype_makes attr) attrs).bind
        (fun attrs nodeptr => node primary nodeptr >>= fun primary =>
      newnode (some (Node.create relname attrs primary.1)) primary.2) last
  | _ => exact newnode_makes _

-- Parsing ends the process exactly when the statement needs more nodes than there are.
theorem actions_spec (address : List UInt8 → Int) (s : Statement) :
    actions address s = if nodes s ≤ maxNode then .ok (tree address s) else .error .exit := by
  rw [actions,statement_makes s 0 (Nat.zero_le _),Nat.zero_add]
  split <;> rfl

end Parser
end Minirel
