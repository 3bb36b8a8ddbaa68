import Minirel.Grammar
import Minirel.Makers
import Minirel.ParseNodes

namespace Minirel.Grammar
open Scan Readers Maker

-- The rules of parse.y with the nodes that their actions take. A rule is reduced when all of it has been read,
-- except that one that may go on is reduced at the first token with which it does not, whatever is then made of
-- this token: bison does so by default.
def qualattrNode : Maker Lexeme QualAttr := one (read qualattr)
def tableNode : Maker Lexeme TableRef := one (read table)
def valueNode : Maker Lexeme Value := one (read (terminal value))
def attribNode : Maker Lexeme Name := one (read (terminal string))

def charTypeNode (s : Name) : Maker Lexeme (Name × AttrType) := do
  read (expect (reserved .charType))
  branch (· = lparen)
    (do read (expect lparen); let length ← valueNode; read (expect rparen); return (s,.char length))
    (return (s,.oneChar))

def attrtypeNode : Maker Lexeme (Name × AttrType) := one do
  let s ← read (terminal string)
  branch (· = reserved .intType) (do read (expect (reserved .intType)); return (s,.int))
    (branch (· = reserved .realType) (do read (expect (reserved .realType)); return (s,.real)) (charTypeNode s))

def nonMtQualattrListNodes : Maker Lexeme (NonMt QualAttr) := items (some (lparen,rparen)) comma qualattrNode .one .cons
def tableListNodes : Maker Lexeme (NonMt TableRef) := items (some (lparen,rparen)) comma tableNode .one .cons
def attribListNodes : Maker Lexeme (NonMt Name) := items none comma attribNode .one .cons
def valueListNodes : Maker Lexeme (NonMt Value) := items none comma valueNode .one .cons
def nonMtAttrtypeListNodes : Maker Lexeme (NonMt (Name × AttrType)) := items none comma attrtypeNode .one .cons

def qualNode : Maker Lexeme Where := one do
  let left ← qualattrNode
  let o ← read (terminal op)
  branch (fun t => (value t).isSome) (do let v ← valueNode; return .selection left o v)
    (do let right ← qualattrNode; return .join left o right)

def optWhereNode : Maker Lexeme (Option Where) :=
  branch (· = reserved .rwWhere) (do read (expect (reserved .rwWhere)); let q ← qualNode; return some q) (return none)

def optPrimaryAttrNode : Maker Lexeme (Option (Name × Int)) :=
  branch (· = reserved .rwPrimary)
    (one do
      read (expect (reserved .rwPrimary))
      let attrname ← read (terminal string)
      read (expect (reserved .rwNumbuckets))
      read (expect (.op .eq))
      let nbuckets ← read (terminal int)
      return some (attrname,nbuckets))
    (return none)

def commandNode : Reserved → Maker Lexeme Input
  | .rwSelect => do
    let attrs ← nonMtQualattrListNodes
    let into ← read (optName .rwInto)
    read (expect (reserved .rwFrom))
    let tables ← tableListNodes
    let where_ ← optWhereNode
    make (if (Parser.resolve tables.toList attrs.toList where_).isSome then 1 else 0)
    read (expect semicolon)
    return .statement (.query attrs into tables where_)
  | .rwInsert => do
    read (expect (reserved .rwInto))
    let relname ← read (terminal string)
    read (expect lparen)
    let attribs ← attribListNodes
    read (expect rparen)
    read (expect (reserved .rwValues))
    read (expect lparen)
    let values ← valueListNodes
    read (expect rparen)
    make (if attribs.toList.length = values.toList.length then 1 else 0)
    read (expect semicolon)
    return .statement (.insert relname attribs values)
  | .rwDelete => do
    read (expect (reserved .rwFrom))
    let relname ← read (terminal string)
    let where_ ← optWhereNode
    make 1
    read (expect semicolon)
    return .statement (.delete relname where_)
  | .rwCreate => do
    read (expect (reserved .rwTable))
    let relname ← read (terminal string)
    read (expect lparen)
    let attrs ← nonMtAttrtypeListNodes
    read (expect rparen)
    let primary ← optPrimaryAttrNode
    make 1
    read (expect semicolon)
    return .statement (.create relname attrs primary)
  | .rwDestroy => do
    read (expect (reserved .rwTable))
    let relname ← read (terminal string)
    make 1
    read (expect semicolon)
    return .statement (.destroy relname)
  | .rwBuild => do
    let relname ← read (terminal string)
    read (expect lparen)
    let attrname ← read (terminal string)
    read (expect rparen)
    make 1
    read (expect semicolon)
    return .statement (.build relname attrname)
  | .rwDrop => do
    let relname ← read (terminal string)
    branch (· = lparen)
      (do
        read (expect lparen)
        let attrname ← read (terminal string)
        read (expect rparen)
        make 1
        read (expect semicolon)
        return .statement (.drop relname (some attrname)))
      (do
        make 1
        read (expect semicolon)
        return .statement (.drop relname none))
  | .rwLoad => do
    read (expect (reserved .rwTable))
    let relname ← read (terminal string)
    read (expect (reserved .rwFrom))
    read (expect lparen)
    let filename ← read (terminal qstring)
    read (expect rparen)
    make 1
    read (expect semicolon)
    return .statement (.load relname filename)
  | .rwPrint => do
    read (expect (reserved .rwTable))
    let relname ← read (terminal string)
    make 1
    read (expect semicolon)
    return .statement (.print relname)
  | .rwHelp => do
    let relname ← read (optName .rwTable)
    make 1
    read (expect semicolon)
    return .statement (.help relname)
  | .rwQuit => do
    read (expect semicolon)
    return .quit
  | _ => read fail

def firstNode : Lexeme → Maker Lexeme Input
  | .id (.reserved word) => commandNode word
  | .shellCmd sval => return .shellCmd sval
  | .eof => return .quit
  | .char c => if c = 59 then return .nothing else read fail
  | _ => read fail

def startNode : Maker Lexeme Input := Maker.next firstNode

-- With the nodes left out, these are the rules as they are read.
section outcome

theorem forget_charType (s : Name) : forget (charTypeNode s) = charType s := by
  unfold charTypeNode charType valueNode
  simp only [forget_bind,forget_branch,forget_read,forget_pure,forget_one]

theorem forget_attrtype : forget attrtypeNode = attrtype := by
  unfold attrtypeNode attrtype
  simp only [forget_one,forget_bind,forget_branch,forget_read,forget_pure,forget_charType]

theorem forget_qual : forget qualNode = qual := by
  unfold qualNode qual qualattrNode valueNode
  simp only [forget_one,forget_bind,forget_branch,forget_read,forget_pure]

theorem forget_optWhere : forget optWhereNode = optWhere := by
  unfold optWhereNode optWhere
  simp only [forget_bind,forget_branch,forget_read,forget_pure,forget_qual]

theorem forget_optPrimaryAttr : forget optPrimaryAttrNode = optPrimaryAttr := by
  unfold optPrimaryAttrNode optPrimaryAttr
  simp only [forget_one,forget_bind,forget_branch,forget_read,forget_pure]

theorem forget_command (word : Reserved) : forget (commandNode word) = command word := by
  cases word with
  | rwSelect =>
    unfold commandNode nonMtQualattrListNodes tableListNodes qualattrNode tableNode
    simp only [forget_bind,forget_read,forget_pure,forget_make,forget_one,forget_items,forget_optWhere,reader_pure_bind]
    rfl
  | rwInsert =>
    unfold commandNode attribListNodes valueListNodes attribNode valueNode
    simp only [forget_bind,forget_read,forget_pure,forget_make,forget_one,forget_items,reader_pure_bind]
    rfl
  | rwCreate =>
    unfold commandNode nonMtAttrtypeListNodes
    simp only [forget_bind,forget_read,forget_pure,forget_make,forget_items,forget_attrtype,forget_optPrimaryAttr,
      reader_pure_bind]
    rfl
  | _ =>
    unfold commandNode
    simp only [forget_bind,forget_branch,forget_read,forget_pure,forget_make,forget_optWhere,reader_pure_bind]
    try rfl

theorem forget_start : forget startNode = start := by
  have each : ∀ t, forget (firstNode t) = first t := by
    intro t
    cases t with
    | id token =>
      cases token with
      | reserved word => exact forget_command word
      | _ => rfl
    | char c =>
      change forget (if c = 59 then _ else _) = if c = 59 then _ else _
      split <;> rfl
    | _ => rfl
  rw [startNode,forget_next,start]
  exact congrArg Readers.next (funext each)

end outcome

-- A whole statement takes the nodes that its actions take.
section nodes

variable {w rest : List Lexeme} {n : Nat}

theorem one_made {α : Type} {p : Maker Lexeme α} {a : α} (ran : one p w = (.ok a rest,n)) :
    ∃ k, p w = (.ok a rest,k) ∧ n = k + 1 := by
  obtain ⟨a',middle,k,_,first,behind,rfl⟩ := bind_ok_iff.mp ran
  obtain ⟨_,_,_,_,made,ended,rfl⟩ := bind_ok_iff.mp behind
  obtain ⟨rfl,rfl⟩ := make_ok_iff.mp made
  obtain ⟨rfl,rfl,rfl⟩ := pure_ok_iff.mp ended
  exact ⟨k,first,rfl⟩

theorem read_made {α : Type} {p : Reader Lexeme α} {a : α} (ran : one (read p) w = (.ok a rest,n)) : n = 1 := by
  obtain ⟨k,found,rfl⟩ := one_made ran
  obtain ⟨_,rfl⟩ := read_ok_iff.mp found
  rfl

theorem charType_made {s : Name} {a : Name × AttrType} (ran : charTypeNode s w = (.ok a rest,n)) :
    n + 1 = Parser.attrtypeNodes a.2 := by
  obtain ⟨_,middle,_,_,took,behind,rfl⟩ := bind_ok_iff.mp ran
  obtain ⟨_,rfl⟩ := read_ok_iff.mp took
  cases middle with
  | nil => cases behind
  | cons t middle =>
    rw [branch_step] at behind
    split at behind
    · obtain ⟨_,_,_,_,opened,inside,rfl⟩ := bind_ok_iff.mp behind
      obtain ⟨_,rfl⟩ := read_ok_iff.mp opened
      obtain ⟨length,_,k,_,valued,closing,rfl⟩ := bind_ok_iff.mp inside
      obtain ⟨_,_,_,_,closed,ended,rfl⟩ := bind_ok_iff.mp closing
      obtain ⟨_,rfl⟩ := read_ok_iff.mp closed
      obtain ⟨rfl,rfl,rfl⟩ := pure_ok_iff.mp ended
      obtain rfl := read_made valued
      rfl
    · obtain ⟨rfl,rfl,rfl⟩ := pure_ok_iff.mp behind
      rfl

theorem attrtype_made {a : Name × AttrType} (ran : attrtypeNode w = (.ok a rest,n)) : n = Parser.attrtypeNodes a.2 := by
  obtain ⟨k,inside,rfl⟩ := one_made ran
  obtain ⟨s,middle,_,_,named,behind,rfl⟩ := bind_ok_iff.mp inside
  obtain ⟨_,rfl⟩ := read_ok_iff.mp named
  -- The types that are a word of their own.
  have plain : ∀ {word : Reserved} {type : AttrType} {v : List Lexeme} {m : Nat},
      (do read (expect (reserved word)); return (s,type) : Maker Lexeme (Name × AttrType)) v = (.ok a rest,m) →
      m = 0 ∧ a.2 = type := by
    intro word type v m ran
    obtain ⟨_,_,_,_,took,ended,rfl⟩ := bind_ok_iff.mp ran
    obtain ⟨_,rfl⟩ := read_ok_iff.mp took
    obtain ⟨rfl,rfl,rfl⟩ := pure_ok_iff.mp ended
    exact ⟨rfl,rfl⟩
  cases middle with
  | nil => cases behind
  | cons t middle =>
    rw [branch_step] at behind
    split at behind
    · obtain ⟨rfl,same⟩ := plain behind
      rw [same]
      rfl
    · rw [branch_step] at behind
      split at behind
      · obtain ⟨rfl,same⟩ := plain behind
        rw [same]
        rfl
      · rw [← charType_made behind,Nat.zero_add]

-- The number of nodes for the items of a list and their places.
def listNodes {α : Type} (count : α → Nat) (list : NonMt α) : Nat := (list.toList.map fun a => count a + 1).sum

theorem list_made {α : Type} {brackets : Option (Lexeme × Lexeme)} {item : Maker Lexeme α} {count : α → Nat}
    (each : ∀ w a rest n, item w = (.ok a rest,n) → n = count a) {list : NonMt α}
    (ran : items brackets comma item NonMt.one NonMt.cons w = (.ok list rest,n)) : n = listNodes count list :=
  items_made (listNodes count) each (fun a => by simp [listNodes,NonMt.toList])
    (fun a b => by simp [listNodes,NonMt.toList]) ran

theorem plain_list_made {α : Type} {brackets : Option (Lexeme × Lexeme)} {p : Reader Lexeme α} {list : NonMt α}
    (ran : items brackets comma (one (read p)) NonMt.one NonMt.cons w = (.ok list rest,n)) : n =
    2 * list.toList.length := by
  rw [list_made (fun _ _ _ _ => read_made) ran,listNodes,Parser.sum_two]

theorem qual_made {q : Where} (ran : qualNode w = (.ok q rest,n)) : n = 3 := by
  obtain ⟨k,inside,rfl⟩ := one_made ran
  obtain ⟨left,_,_,_,named,compares,rfl⟩ := bind_ok_iff.mp inside
  obtain rfl := read_made named
  obtain ⟨o,middle,_,_,compared,behind,rfl⟩ := bind_ok_iff.mp compares
  obtain ⟨_,rfl⟩ := read_ok_iff.mp compared
  cases middle with
  | nil => cases behind
  | cons t middle =>
    rw [branch_step] at behind
    split at behind
    all_goals
      obtain ⟨_,_,_,_,right,ended,rfl⟩ := bind_ok_iff.mp behind
      obtain rfl := read_made right
      obtain ⟨_,_,rfl⟩ := pure_ok_iff.mp ended
      rfl

theorem optWhere_made {where_ : Option Where} (ran : optWhereNode w = (.ok where_ rest,n)) :
    n = Parser.whereNodes where_ := by
  cases w with
  | nil => cases ran
  | cons t w =>
    rw [optWhereNode,branch_step] at ran
    split at ran
    · obtain ⟨_,_,_,_,took,behind,rfl⟩ := bind_ok_iff.mp ran
      obtain ⟨_,rfl⟩ := read_ok_iff.mp took
      obtain ⟨q,_,_,_,condition,ended,rfl⟩ := bind_ok_iff.mp behind
      obtain rfl := qual_made condition
      obtain ⟨rfl,_,rfl⟩ := pure_ok_iff.mp ended
      rfl
    · obtain ⟨rfl,_,rfl⟩ := pure_ok_iff.mp ran
      rfl

theorem optPrimaryAttr_made {primary : Option (Name × Int)} (ran : optPrimaryAttrNode w = (.ok primary rest,n)) :
    n = primary.elim 0 fun _ => 1 := by
  cases w with
  | nil => cases ran
  | cons t w =>
    rw [optPrimaryAttrNode,branch_step] at ran
    split at ran
    · obtain ⟨k,inside,rfl⟩ := one_made ran
      obtain ⟨_,_,_,_,took1,behind1,rfl⟩ := bind_ok_iff.mp inside
      obtain ⟨_,_,_,_,took2,behind2,rfl⟩ := bind_ok_iff.mp behind1
      obtain ⟨_,_,_,_,took3,behind3,rfl⟩ := bind_ok_iff.mp behind2
      obtain ⟨_,_,_,_,took4,behind4,rfl⟩ := bind_ok_iff.mp behind3
      obtain ⟨_,_,_,_,took5,ended,rfl⟩ := bind_ok_iff.mp behind4
      obtain ⟨_,rfl⟩ := read_ok_iff.mp took1
      obtain ⟨_,rfl⟩ := read_ok_iff.mp took2
      obtain ⟨_,rfl⟩ := read_ok_iff.mp took3
      obtain ⟨_,rfl⟩ := read_ok_iff.mp took4
      obtain ⟨_,rfl⟩ := read_ok_iff.mp took5
      obtain ⟨rfl,_,rfl⟩ := pure_ok_iff.mp ended
      rfl
    · obtain ⟨rfl,_,rfl⟩ := pure_ok_iff.mp ran
      rfl

def Input.nodes : Input → Nat
  | .statement s => Parser.nodes s
  | _ => 0

-- The end of a command: its own node or none, a semicolon and the value.
theorem ended_made {k : Nat} {i j : Input}
    (ran : (do make k; read (expect semicolon); return i : Maker Lexeme Input) w = (.ok j rest,n)) :
    j = i ∧ n = k := by
  obtain ⟨_,_,_,_,made,behind,rfl⟩ := bind_ok_iff.mp ran
  obtain ⟨rfl,rfl⟩ := make_ok_iff.mp made
  obtain ⟨_,_,_,_,took,ended,rfl⟩ := bind_ok_iff.mp behind
  obtain ⟨_,rfl⟩ := read_ok_iff.mp took
  obtain ⟨rfl,_,rfl⟩ := pure_ok_iff.mp ended
  exact ⟨rfl,rfl⟩

-- Tokens that take no node are only passed.
theorem passed {α : Type} {p : Reader Lexeme α} {q : α → Maker Lexeme Input} {i : Input}
    (ran : (read p >>= q) w = (.ok i rest,n)) : ∃ a middle, q a middle = (.ok i rest,n) := by
  obtain ⟨a,middle,_,_,took,behind,rfl⟩ := bind_ok_iff.mp ran
  obtain ⟨_,rfl⟩ := read_ok_iff.mp took
  rw [Nat.zero_add]
  exact ⟨a,middle,behind⟩

theorem command_made {word : Reserved} {i : Input} (ran : commandNode word w = (.ok i rest,n)) : n = i.nodes := by
  cases word with
  | rwSelect =>
    obtain ⟨attrs,_,_,_,projected,behind,rfl⟩ := bind_ok_iff.mp ran
    obtain ⟨into,_,behind⟩ := passed behind
    obtain ⟨_,_,behind⟩ := passed behind
    obtain ⟨tables,_,_,_,listed,last,rfl⟩ := bind_ok_iff.mp behind
    obtain ⟨where_,_,_,_,condition,ended,rfl⟩ := bind_ok_iff.mp last
    obtain ⟨rfl,rfl⟩ := ended_made ended
    rw [plain_list_made projected,plain_list_made listed,optWhere_made condition,Input.nodes,Parser.nodes]
    omega
  | rwInsert =>
    obtain ⟨_,_,ran⟩ := passed ran
    obtain ⟨relname,_,ran⟩ := passed ran
    obtain ⟨_,_,ran⟩ := passed ran
    obtain ⟨attribs,_,_,_,left,behind,rfl⟩ := bind_ok_iff.mp ran
    obtain ⟨_,_,behind⟩ := passed behind
    obtain ⟨_,_,behind⟩ := passed behind
    obtain ⟨_,_,behind⟩ := passed behind
    obtain ⟨values,_,_,_,right,last,rfl⟩ := bind_ok_iff.mp behind
    obtain ⟨_,_,ended⟩ := passed last
    obtain ⟨rfl,rfl⟩ := ended_made ended
    rw [plain_list_made left,plain_list_made right,Input.nodes,Parser.nodes]
    omega
  | rwDelete =>
    obtain ⟨_,_,ran⟩ := passed ran
    obtain ⟨relname,_,ran⟩ := passed ran
    obtain ⟨where_,_,_,_,condition,ended,rfl⟩ := bind_ok_iff.mp ran
    obtain ⟨rfl,rfl⟩ := ended_made ended
    rw [optWhere_made condition]
    rfl
  | rwCreate =>
    obtain ⟨_,_,ran⟩ := passed ran
    obtain ⟨relname,_,ran⟩ := passed ran
    obtain ⟨_,_,ran⟩ := passed ran
    obtain ⟨attrs,_,_,_,columns,behind,rfl⟩ := bind_ok_iff.mp ran
    obtain ⟨_,_,behind⟩ := passed behind
    obtain ⟨primary,_,_,_,key,ended,rfl⟩ := bind_ok_iff.mp behind
    obtain ⟨rfl,rfl⟩ := ended_made ended
    rw [list_made (fun _ _ _ _ => attrtype_made) columns,optPrimaryAttr_made key,Input.nodes,Parser.nodes,listNodes]
    omega
  | rwDestroy | rwPrint =>
    obtain ⟨_,_,ran⟩ := passed ran
    obtain ⟨relname,_,ran⟩ := passed ran
    obtain ⟨rfl,rfl⟩ := ended_made ran
    rfl
  | rwBuild =>
    obtain ⟨relname,_,ran⟩ := passed ran
    obtain ⟨_,_,ran⟩ := passed ran
    obtain ⟨attrname,_,ran⟩ := passed ran
    obtain ⟨_,_,ran⟩ := passed ran
    obtain ⟨rfl,rfl⟩ := ended_made ran
    rfl
  | rwDrop =>
    obtain ⟨relname,middle,ran⟩ := passed ran
    cases middle with
    | nil => cases ran
    | cons t middle =>
      rw [branch_step] at ran
      split at ran
      · obtain ⟨_,_,ran⟩ := passed ran
        obtain ⟨attrname,_,ran⟩ := passed ran
        obtain ⟨_,_,ran⟩ := passed ran
        obtain ⟨rfl,rfl⟩ := ended_made ran
        rfl
      · obtain ⟨rfl,rfl⟩ := ended_made ran
        rfl
  | rwLoad =>
    obtain ⟨_,_,ran⟩ := passed ran
    obtain ⟨relname,_,ran⟩ := passed ran
    obtain ⟨_,_,ran⟩ := passed ran
    obtain ⟨_,_,ran⟩ := passed ran
    obtain ⟨filename,_,ran⟩ := passed ran
    obtain ⟨_,_,ran⟩ := passed ran
    obtain ⟨rfl,rfl⟩ := ended_made ran
    rfl
  | rwHelp =>
    obtain ⟨relname,_,ran⟩ := passed ran
    obtain ⟨rfl,rfl⟩ := ended_made ran
    rfl
  | rwQuit =>
    obtain ⟨_,_,ran⟩ := passed ran
    obtain ⟨rfl,_,rfl⟩ := pure_ok_iff.mp ran
    rfl
  | _ => cases ran

theorem start_made {i : Input} (ran : startNode w = (.ok i rest,n)) : n = i.nodes := by
  cases w with
  | nil => cases ran
  | cons t w =>
    change firstNode t w = _ at ran
    unfold firstNode at ran
    split at ran
    · exact command_made ran
    · cases ran
      rfl
    · cases ran
      rfl
    · split at ran
      · cases ran
        rfl
      · cases ran
    · cases ran

end nodes

-- A parser that has seen less has made no more.
section steady

theorem steady_expect (c : Lexeme) : Steady (read (expect c)) := steady_terminal _

theorem steady_fail {α : Type} : Steady (read (fail : Reader Lexeme α)) := by
  refine ⟨fun _ ran => (nomatch ran),fun more ran => ?_,fun _ ran => (nomatch ran)⟩
  cases ran
  rfl

-- A rule that takes one token at least.
theorem taking_terminal {α : Type} (f : Lexeme → Option α) : Taking (one (read (terminal f))) := by
  refine ⟨rfl,fun {w a rest n} ran => ?_⟩
  obtain ⟨k,found,_⟩ := one_made ran
  obtain ⟨found,_⟩ := read_ok_iff.mp found
  cases w with
  | nil => cases found
  | cons t w =>
    change (f t).elim fail pure w = _ at found
    cases known : f t with
    | none =>
      rw [known] at found
      cases found
    | some a' =>
      rw [known] at found
      cases found
      exact Nat.le_succ _

-- So does one that a reader of phrases reads.
theorem taking_one {α : Type} {p : Maker Lexeme α} {P : List Lexeme → α → Prop} {F : List Lexeme → Prop}
    (asks : one p [] = (.more,0))
    (reads : Readers.Reads (forget p) P F) : Taking (one p) := by
  refine ⟨asks,fun {w a rest n} ran => ?_⟩
  obtain ⟨k,found,_⟩ := one_made ran
  obtain ⟨u,rfl,_⟩ := (reads.upTo w.length).sound w a rest (Nat.le_refl _) (congrArg Prod.fst found)
  rw [List.length_append]
  omega

theorem steady_qualattr : Steady qualattrNode := (steady_read reads_qualattr).one
theorem steady_table : Steady tableNode := (steady_read reads_table).one
theorem steady_value : Steady valueNode := (steady_terminal _).one
theorem steady_attrib : Steady attribNode := (steady_terminal _).one

theorem steady_charType (s : Name) : Steady (charTypeNode s) :=
  (steady_expect _).bind fun _ => .branch _ ((steady_expect _).bind fun _ => steady_value.bind fun _ =>
    (steady_expect _).bind fun _ => steady_pure _)
    (steady_pure _)

theorem steady_attrtype : Steady attrtypeNode :=
  .one ((steady_terminal _).bind fun s => .branch _ ((steady_expect _).bind fun _ => steady_pure _)
    (.branch _ ((steady_expect _).bind fun _ => steady_pure _) (steady_charType s)))

theorem steady_qual : Steady qualNode :=
  .one (steady_qualattr.bind fun _ => (steady_terminal _).bind fun _ =>
    .branch _ (steady_value.bind fun _ => steady_pure _) (steady_qualattr.bind fun _ => steady_pure _))

theorem steady_optWhere : Steady optWhereNode :=
  .branch _ ((steady_expect _).bind fun _ => steady_qual.bind fun _ => steady_pure _) (steady_pure _)

theorem steady_optName (word : Reserved) : Steady (read (optName word)) := steady_read (reads_optName word)

theorem steady_optPrimaryAttr : Steady optPrimaryAttrNode :=
  .branch _ (.one ((steady_expect _).bind fun _ => (steady_terminal _).bind fun _ => (steady_expect _).bind fun _ =>
      (steady_expect _).bind fun _ =>
    (steady_terminal _).bind fun _ => steady_pure _)) (steady_pure _)

theorem taking_attrtype : Taking attrtypeNode := by
  refine taking_one rfl (P:=Attrtype) (F:=Follow fun t => t ≠ lparen) ?_
  have same := forget_attrtype
  rw [attrtypeNode,forget_one] at same
  rw [same]
  exact reads_attrtype

theorem steady_ended (k : Nat) (i : Input) : Steady (do make k; read (expect semicolon); return i : Maker Lexeme Input) :=
  (steady_make k).bind fun _ => (steady_expect _).bind fun _ => steady_pure i

theorem steady_command (word : Reserved) : Steady (commandNode word) := by
  cases word with
  | rwSelect =>
    exact (steady_items (taking_one (p:=read qualattr) rfl reads_qualattr) steady_qualattr).bind fun attrs =>
        (steady_optName _).bind fun into =>
      (steady_expect _).bind fun _ => (steady_items (taking_one (p:=read table) rfl reads_table)
        steady_table).bind fun tables =>
      steady_optWhere.bind fun where_ => steady_ended _ _
  | rwInsert =>
    exact (steady_expect _).bind fun _ => (steady_terminal _).bind fun relname => (steady_expect _).bind fun _ =>
      (steady_items (taking_terminal _) steady_attrib).bind fun attribs => (steady_expect _).bind fun _ =>
      (steady_expect _).bind fun _ =>
      (steady_expect _).bind fun _ => (steady_items (taking_terminal _) steady_value).bind fun values =>
      (steady_expect _).bind fun _ =>
      steady_ended _ _
  | rwDelete =>
    exact (steady_expect _).bind fun _ => (steady_terminal _).bind fun relname => steady_optWhere.bind fun where_ =>
      steady_ended _ _
  | rwCreate =>
    exact (steady_expect _).bind fun _ => (steady_terminal _).bind fun relname => (steady_expect _).bind fun _ =>
      (steady_items taking_attrtype steady_attrtype).bind fun attrs => (steady_expect _).bind fun _ =>
      steady_optPrimaryAttr.bind fun primary => steady_ended _ _
  | rwDestroy | rwPrint => exact (steady_expect _).bind fun _ => (steady_terminal _).bind fun relname => steady_ended _ _
  | rwBuild =>
    exact (steady_terminal _).bind fun relname => (steady_expect _).bind fun _ =>
        (steady_terminal _).bind fun attrname =>
      (steady_expect _).bind fun _ => steady_ended _ _
  | rwDrop =>
    exact (steady_terminal _).bind fun relname => .branch _ ((steady_expect _).bind fun _ =>
        (steady_terminal _).bind fun attrname =>
      (steady_expect _).bind fun _ => steady_ended _ _) (steady_ended _ _)
  | rwLoad =>
    exact (steady_expect _).bind fun _ => (steady_terminal _).bind fun relname => (steady_expect _).bind fun _ =>
        (steady_expect _).bind fun _ =>
      (steady_terminal _).bind fun filename => (steady_expect _).bind fun _ => steady_ended _ _
  | rwHelp => exact (steady_optName _).bind fun relname => steady_ended _ _
  | rwQuit => exact (steady_expect _).bind fun _ => steady_pure _
  | _ => exact steady_fail

theorem steady_start : Steady startNode := by
  refine Steady.next fun t => ?_
  unfold firstNode
  split
  · exact steady_command _
  · exact steady_pure _
  · exact steady_pure _
  · split
    · exact steady_pure _
    · exact steady_fail
  · exact steady_fail

end steady

-- The nodes that the parser has taken when it has seen these tokens.
def nodesBy (w : List Lexeme) : Nat := (startNode w).2

theorem start_outcome (w : List Lexeme) : (startNode w).1 = start w := congrFun forget_start w

theorem nodesBy_sentence {w : List Lexeme} {i : Input} (sentence : Start w i) : nodesBy w = i.nodes := by
  have whole : (startNode w).1 = .ok i [] := by rw [start_outcome]; exact reads_start.phrase_iff.mp sentence
  exact start_made (Prod.ext whole rfl)

theorem nodesBy_front {w more : List Lexeme} : nodesBy w ≤ nodesBy (w ++ more) := by
  rw [nodesBy,nodesBy]
  cases outcome : startNode w with
  | mk o n =>
    cases o with
    | ok i rest => rw [steady_start.ok_stays more outcome]
    | more => exact steady_start.more_grows more outcome
    | error => rw [steady_start.error_stays more outcome]

end Minirel.Grammar
