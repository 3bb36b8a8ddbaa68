import Minirel.Readers
import Minirel.Yylex

namespace Minirel.Grammar
open Scan Readers

abbrev reserved (word : Reserved) : Lexeme := .id (.reserved word)
abbrev named (sval : Name) : Lexeme := .id (.string sval)
abbrev lparen : Lexeme := .char 40
abbrev rparen : Lexeme := .char 41
abbrev comma : Lexeme := .char 44
abbrev dot : Lexeme := .char 46
abbrev semicolon : Lexeme := .char 59

-- The rules string, value and op, and T_QSTRING and T_INT by themselves.
def string : Lexeme → Option Name
  | .id (.string sval) => some sval
  | _ => none

def value : Lexeme → Option Value
  | .int ival => some (.integer ival)
  | .real rval => some (.real rval)
  | .qstring sval => some (.string sval)
  | _ => none

def op : Lexeme → Option Operator
  | .op op => some op
  | _ => none

def qstring : Lexeme → Option (List UInt8)
  | .qstring sval => some sval
  | _ => none

def int : Lexeme → Option Int
  | .int ival => some ival
  | _ => none

-- The rules of parse.y, each with the tokens that it derives and its value.
inductive Qualattr : List Lexeme → QualAttr → Prop where
  | qualified (relname attrname : Name) : Qualattr [named relname,dot,named attrname] ⟨some relname,attrname⟩
  | unqualified (attrname : Name) : Qualattr [named attrname] ⟨none,attrname⟩

inductive Table : List Lexeme → TableRef → Prop where
  | aliased (relname relAlias : Name) : Table [named relname,named relAlias] ⟨relname,some relAlias⟩
  | plain (relname : Name) : Table [named relname] ⟨relname,none⟩

inductive Attrtype : List Lexeme → Name × AttrType → Prop where
  | int (attrname : Name) : Attrtype [named attrname,reserved .intType] (attrname,.int)
  | real (attrname : Name) : Attrtype [named attrname,reserved .realType] (attrname,.real)
  | char (attrname : Name) {t : Lexeme} {length : Value} (known : value t = some length) :
    Attrtype [named attrname,reserved .charType,lparen,t,rparen] (attrname,.char length)
  | oneChar (attrname : Name) : Attrtype [named attrname,reserved .charType] (attrname,.oneChar)

-- The two lists that may be in parentheses, and the three that may not.
abbrev NonMtQualattrList : List Lexeme → NonMt QualAttr → Prop := Items (some (lparen,rparen)) comma Qualattr .one .cons
abbrev TableList : List Lexeme → NonMt TableRef → Prop := Items (some (lparen,rparen)) comma Table .one .cons
abbrev AttribList : List Lexeme → NonMt Name → Prop := Items none comma (Terminal string) .one .cons
abbrev ValueList : List Lexeme → NonMt Value → Prop := Items none comma (Terminal value) .one .cons
abbrev NonMtAttrtypeList : List Lexeme → NonMt (Name × AttrType) → Prop := Items none comma Attrtype .one .cons

inductive Qual : List Lexeme → Where → Prop where
  | selection {u : List Lexeme} {t : Lexeme} {selattr : QualAttr} {v : Value} (left : Qualattr u selattr)
      (o : Operator) (known : value t = some v) :
    Qual (u ++ [.op o,t]) (.selection selattr o v)
  | join {u v : List Lexeme} {joinattr1 joinattr2 : QualAttr} (left : Qualattr u joinattr1) (o : Operator)
      (right : Qualattr v joinattr2) :
    Qual (u ++ .op o::v) (.join joinattr1 o joinattr2)

inductive OptWhere : List Lexeme → Option Where → Prop where
  | qual {u : List Lexeme} {q : Where} (condition : Qual u q) : OptWhere (reserved .rwWhere::u) (some q)
  | nothing : OptWhere [] none

inductive OptName (word : Reserved) : List Lexeme → Option Name → Prop where
  | name (sval : Name) : OptName word [reserved word,named sval] (some sval)
  | nothing : OptName word [] none

abbrev OptIntoRelname : List Lexeme → Option Name → Prop := OptName .rwInto
abbrev OptRelname : List Lexeme → Option Name → Prop := OptName .rwTable

inductive OptPrimaryAttr : List Lexeme → Option (Name × Int) → Prop where
  | primary (attrname : Name) (nbuckets : Int) :
    OptPrimaryAttr [reserved .rwPrimary,named attrname,reserved .rwNumbuckets,.op .eq,.int nbuckets]
      (some (attrname,nbuckets))
  | nothing : OptPrimaryAttr [] none

inductive Command : List Lexeme → Statement → Prop where
  | query {us is ts ws : List Lexeme} {attrs : NonMt QualAttr} {into : Option Name} {tables : NonMt TableRef}
      {where_ : Option Where}
    (projected : NonMtQualattrList us attrs) (result : OptIntoRelname is into) (listed : TableList ts tables)
    (condition : OptWhere ws where_) :
    Command (reserved .rwSelect::(us ++ (is ++ reserved .rwFrom::(ts ++ ws)))) (.query attrs into tables where_)
  | insert (relname : Name) {us vs : List Lexeme} {attribs : NonMt Name} {values : NonMt Value}
      (left : AttribList us attribs)
    (right : ValueList vs values) :
    Command (reserved .rwInsert::reserved .rwInto::named relname::lparen::(us ++
      rparen::reserved .rwValues::lparen::(vs ++ [rparen])))
      (.insert relname attribs values)
  | delete (relname : Name) {ws : List Lexeme} {where_ : Option Where} (condition : OptWhere ws where_) :
    Command (reserved .rwDelete::reserved .rwFrom::named relname::ws) (.delete relname where_)
  | create (relname : Name) {us ps : List Lexeme} {attrs : NonMt (Name × AttrType)} {primary : Option (Name × Int)}
    (columns : NonMtAttrtypeList us attrs) (key : OptPrimaryAttr ps primary) :
    Command (reserved .rwCreate::reserved .rwTable::named relname::lparen::(us ++ rparen::ps))
      (.create relname attrs primary)
  | destroy (relname : Name) : Command [reserved .rwDestroy,reserved .rwTable,named relname] (.destroy relname)
  | build (relname attrname : Name) : Command [reserved .rwBuild,named relname,lparen,named attrname,rparen]
      (.build relname attrname)
  | drop (relname attrname : Name) : Command [reserved .rwDrop,named relname,lparen,named attrname,rparen]
      (.drop relname (some attrname))
  | dropAll (relname : Name) : Command [reserved .rwDrop,named relname] (.drop relname none)
  | load (relname : Name) (filename : List UInt8) :
    Command [reserved .rwLoad,reserved .rwTable,named relname,reserved .rwFrom,lparen,.qstring filename,rparen]
      (.load relname filename)
  | print (relname : Name) : Command [reserved .rwPrint,reserved .rwTable,named relname] (.print relname)
  | help {us : List Lexeme} {relname : Option Name} (relation : OptRelname us relname) :
      Command (reserved .rwHelp::us) (.help relname)

-- What yyparse has read; quit ends the process, with its own semicolon or at the end of the input.
inductive Input where
  | statement (s : Statement)
  | nothing
  | shellCmd (sval : List UInt8)
  | quit
  deriving DecidableEq,Repr

-- start, without the rule for errors
inductive Start : List Lexeme → Input → Prop where
  | command {u : List Lexeme} {s : Statement} (statement : Command u s) : Start (u ++ [semicolon]) (.statement s)
  | nothing : Start [semicolon] .nothing
  | quit : Start [reserved .rwQuit,semicolon] .quit
  | shellCmd (sval : List UInt8) : Start [.shellCmd sval] (.shellCmd sval)
  | eof : Start [.eof] .quit

-- The same rules as a parser with one token to look at.
def qualattr : Reader Lexeme QualAttr := do
  let s ← terminal string
  branch (· = dot) (do expect dot; return ⟨some s,← terminal string⟩) (return ⟨none,s⟩)

def table : Reader Lexeme TableRef := do
  let s ← terminal string
  branch (fun t => (string t).isSome) (do return ⟨s,some (← terminal string)⟩) (return ⟨s,none⟩)

def charType (s : Name) : Reader Lexeme (Name × AttrType) := do
  expect (reserved .charType)
  branch (· = lparen) (do expect lparen; let length ← terminal value; expect rparen; return (s,.char length))
    (return (s,.oneChar))

def attrtype : Reader Lexeme (Name × AttrType) := do
  let s ← terminal string
  branch (· = reserved .intType) (do expect (reserved .intType); return (s,.int))
    (branch (· = reserved .realType) (do expect (reserved .realType); return (s,.real)) (charType s))

def nonMtQualattrList : Reader Lexeme (NonMt QualAttr) := items (some (lparen,rparen)) comma qualattr .one .cons
def tableList : Reader Lexeme (NonMt TableRef) := items (some (lparen,rparen)) comma table .one .cons
def attribList : Reader Lexeme (NonMt Name) := items none comma (terminal string) .one .cons
def valueList : Reader Lexeme (NonMt Value) := items none comma (terminal value) .one .cons
def nonMtAttrtypeList : Reader Lexeme (NonMt (Name × AttrType)) := items none comma attrtype .one .cons

def qual : Reader Lexeme Where := do
  let left ← qualattr
  let o ← terminal op
  branch (fun t => (value t).isSome) (do return .selection left o (← terminal value))
    (do return .join left o (← qualattr))

def optWhere : Reader Lexeme (Option Where) := branch (· = reserved .rwWhere)
    (do expect (reserved .rwWhere); return some (← qual)) (return none)

def optName (word : Reserved) : Reader Lexeme (Option Name) :=
  branch (· = reserved word) (do expect (reserved word); return some (← terminal string)) (return none)

def optPrimaryAttr : Reader Lexeme (Option (Name × Int)) :=
  branch (· = reserved .rwPrimary)
    (do
      expect (reserved .rwPrimary)
      let attrname ← terminal string
      expect (reserved .rwNumbuckets)
      expect (.op .eq)
      return some (attrname,← terminal int))
    (return none)

-- A command up to its semicolon, behind the word that it begins with.
abbrev command : Reserved → Reader Lexeme Input
  | .rwSelect => do
    let attrs ← nonMtQualattrList
    let into ← optName .rwInto
    expect (reserved .rwFrom)
    let tables ← tableList
    let where_ ← optWhere
    expect semicolon
    return .statement (.query attrs into tables where_)
  | .rwInsert => do
    expect (reserved .rwInto)
    let relname ← terminal string
    expect lparen
    let attribs ← attribList
    expect rparen
    expect (reserved .rwValues)
    expect lparen
    let values ← valueList
    expect rparen
    expect semicolon
    return .statement (.insert relname attribs values)
  | .rwDelete => do
    expect (reserved .rwFrom)
    let relname ← terminal string
    let where_ ← optWhere
    expect semicolon
    return .statement (.delete relname where_)
  | .rwCreate => do
    expect (reserved .rwTable)
    let relname ← terminal string
    expect lparen
    let attrs ← nonMtAttrtypeList
    expect rparen
    let primary ← optPrimaryAttr
    expect semicolon
    return .statement (.create relname attrs primary)
  | .rwDestroy => do
    expect (reserved .rwTable)
    let relname ← terminal string
    expect semicolon
    return .statement (.destroy relname)
  | .rwBuild => do
    let relname ← terminal string
    expect lparen
    let attrname ← terminal string
    expect rparen
    expect semicolon
    return .statement (.build relname attrname)
  | .rwDrop => do
    let relname ← terminal string
    branch (· = lparen)
      (do
        expect lparen
        let attrname ← terminal string
        expect rparen
        expect semicolon
        return .statement (.drop relname (some attrname)))
      (do
        expect semicolon
        return .statement (.drop relname none))
  | .rwLoad => do
    expect (reserved .rwTable)
    let relname ← terminal string
    expect (reserved .rwFrom)
    expect lparen
    let filename ← terminal qstring
    expect rparen
    expect semicolon
    return .statement (.load relname filename)
  | .rwPrint => do
    expect (reserved .rwTable)
    let relname ← terminal string
    expect semicolon
    return .statement (.print relname)
  | .rwHelp => do
    let relname ← optName .rwTable
    expect semicolon
    return .statement (.help relname)
  | .rwQuit => do
    expect semicolon
    return .quit
  | _ => fail

def first : Lexeme → Reader Lexeme Input
  | .id (.reserved word) => command word
  | .shellCmd sval => return .shellCmd sval
  | .eof => return .quit
  | .char c => if c = 59 then return .nothing else fail
  | _ => fail

def start : Reader Lexeme Input := next first

theorem string_some {t : Lexeme} {s : Name} : string t = some s ↔ t = named s := by
  constructor
  · intro known
    unfold string at known
    split at known
    · cases known
      rfl
    · cases known
  · rintro rfl
    rfl

theorem op_some {t : Lexeme} {o : Operator} : op t = some o ↔ t = .op o := by
  constructor
  · intro known
    unfold op at known
    split at known
    · cases known
      rfl
    · cases known
  · rintro rfl
    rfl

theorem qstring_some {t : Lexeme} {s : List UInt8} : qstring t = some s ↔ t = .qstring s := by
  constructor
  · intro known
    unfold qstring at known
    split at known
    · cases known
      rfl
    · cases known
  · rintro rfl
    rfl

theorem int_some {t : Lexeme} {n : Int} : int t = some n ↔ t = .int n := by
  constructor
  · intro known
    unfold int at known
    split at known
    · cases known
      rfl
    · cases known
  · rintro rfl
    rfl

variable {F : List Lexeme → Prop}

theorem reads_qualattr : Reads qualattr Qualattr (Follow fun t => t ≠ dot) := by
  have behind := fun s : Name => Reads.optional (c:=dot) (a:=(⟨none,s⟩ : QualAttr)) (F:=Follow fun t => t ≠ dot)
    (Reads.map (.one (f:=string) (t:=named []) rfl) fun t => ⟨some s,t⟩) fun _ => id
  refine (Reads.terminal (f:=string) (t:=named []) rfl behind).congr fun w q => ⟨?_,?_⟩
  · rintro ⟨_,s,_,rfl,known,⟨_,rfl,t,⟨_,rfl,known'⟩,rfl⟩ | ⟨rfl,rfl⟩⟩
    · rw [string_some.mp known,string_some.mp known']
      exact .qualified s t
    · rw [string_some.mp known]
      exact .unqualified s
  · intro phrase
    cases phrase with
    | qualified s t => exact ⟨_,s,_,rfl,rfl,.inl ⟨_,rfl,t,⟨_,rfl,rfl⟩,rfl⟩⟩
    | unqualified s => exact ⟨_,s,_,rfl,rfl,.inr ⟨rfl,rfl⟩⟩

theorem reads_table : Reads table Table (Follow fun t => string t = none) := by
  have behind := fun s : Name => Reads.branch (d:=fun t => (string t).isSome) (F:=Follow fun t => string t = none)
    (Reads.map (.one (f:=string) (t:=named []) rfl) fun t => (⟨s,some t⟩ : TableRef)) (.yields (⟨s,none⟩ : TableRef))
    (by
      rintro u q ⟨a,⟨t,rfl,known⟩,_⟩
      exact ⟨t,[],rfl,Option.isSome_iff_exists.mpr ⟨a,known⟩⟩)
    (by
      rintro u q rest ⟨rfl,_⟩ ⟨t,v,rfl,other⟩
      exact ⟨t,v,rfl,Option.isSome_eq_false_iff.mpr (Option.isNone_iff_eq_none.mpr other)⟩)
  refine (Reads.terminal (f:=string) (t:=named []) rfl behind).congr fun w q => ⟨?_,?_⟩
  · rintro ⟨_,s,_,rfl,known,⟨t,⟨_,rfl,known'⟩,rfl⟩ | ⟨rfl,rfl⟩⟩
    · rw [string_some.mp known,string_some.mp known']
      exact .aliased s t
    · rw [string_some.mp known]
      exact .plain s
  · intro phrase
    cases phrase with
    | aliased s t => exact ⟨_,s,_,rfl,rfl,.inl ⟨t,⟨_,rfl,rfl⟩,rfl⟩⟩
    | plain s => exact ⟨_,s,_,rfl,rfl,.inr ⟨rfl,rfl⟩⟩

theorem reads_charType (s : Name) : Reads (charType s)
    (fun w a => Attrtype (named s::w) a ∧ ∃ v, w = reserved .charType::v)
    (Follow fun t => t ≠ lparen) := by
  have length : Reads (do let length ← terminal value; expect rparen; return (s,AttrType.char length)) _
      (Follow fun t => t ≠ lparen) :=
    Reads.terminal (f:=value) (t:=.int 0) rfl fun length => .expect (.yields (s,AttrType.char length))
  refine (Reads.expect (.optional (a:=(s,.oneChar)) length fun _ => id)).congr fun w a => ⟨?_,?_⟩
  · rintro ⟨_,rfl,⟨_,rfl,t,v,_,rfl,known,_,rfl,rfl,rfl⟩ | ⟨rfl,rfl⟩⟩
    · exact ⟨.char s known,_,rfl⟩
    · exact ⟨.oneChar s,_,rfl⟩
  · rintro ⟨phrase,v,rfl⟩
    cases phrase with
    | char _ known => exact ⟨_,rfl,.inl ⟨_,rfl,_,_,_,rfl,known,_,rfl,rfl,rfl⟩⟩
    | oneChar => exact ⟨_,rfl,.inr ⟨rfl,rfl⟩⟩

theorem reads_attrtype : Reads attrtype Attrtype (Follow fun t => t ≠ lparen) := by
  have real := fun s : Name => Reads.branch (d:=(· = reserved .realType)) (.expect (.yields (s,AttrType.real)))
    (reads_charType s)
    (by
      rintro u a ⟨v,rfl,_⟩
      exact ⟨_,v,rfl,decide_eq_true rfl⟩)
    (by
      rintro u a rest ⟨_,v,rfl⟩ _
      exact ⟨_,v ++ rest,rfl,rfl⟩)
  have int := fun s : Name => Reads.branch (d:=(· = reserved .intType)) (.expect (.yields (s,AttrType.int))) (real s)
    (by
      rintro u a ⟨v,rfl,_⟩
      exact ⟨_,v,rfl,decide_eq_true rfl⟩)
    (by
      rintro u a rest (⟨v,rfl,_⟩ | ⟨_,v,rfl⟩) _
      · exact ⟨_,v ++ rest,rfl,rfl⟩
      · exact ⟨_,v ++ rest,rfl,rfl⟩)
  refine (Reads.terminal (f:=string) (t:=named []) rfl int).congr fun w a => ⟨?_,?_⟩
  · rintro ⟨_,s,_,rfl,known,⟨_,rfl,rfl,rfl⟩ | ⟨_,rfl,rfl,rfl⟩ | ⟨phrase,_,rfl⟩⟩
    · rw [string_some.mp known]
      exact .int s
    · rw [string_some.mp known]
      exact .real s
    · rw [string_some.mp known]
      exact phrase
  · intro phrase
    cases phrase with
    | int s => exact ⟨_,s,_,rfl,rfl,.inl ⟨_,rfl,rfl,rfl⟩⟩
    | real s => exact ⟨_,s,_,rfl,rfl,.inr (.inl ⟨_,rfl,rfl,rfl⟩)⟩
    | char s known => exact ⟨_,s,_,rfl,rfl,.inr (.inr ⟨.char s known,_,rfl⟩)⟩
    | oneChar s => exact ⟨_,s,_,rfl,rfl,.inr (.inr ⟨.oneChar s,_,rfl⟩)⟩

theorem qualattr_begins {u : List Lexeme} {q : QualAttr} (phrase : Qualattr u q) : ∃ s v, u = named s::v := by
  cases phrase with
  | qualified s t => exact ⟨s,_,rfl⟩
  | unqualified s => exact ⟨s,_,rfl⟩

theorem reads_qual : Reads qual Qual (Follow fun t => t ≠ dot) := by
  have right := fun (left : QualAttr) (o : Operator) => Reads.branch (d:=fun t => (value t).isSome)
    (Reads.map (.one (f:=value) (t:=.int 0) rfl) fun v => Where.selection left o v)
    (reads_qualattr.map fun q => Where.join left o q)
    (by
      rintro u q ⟨a,⟨t,rfl,known⟩,_⟩
      exact ⟨t,[],rfl,Option.isSome_iff_exists.mpr ⟨a,known⟩⟩)
    (by
      rintro u q rest ⟨a,phrase,_⟩ _
      obtain ⟨s,v,rfl⟩ := qualattr_begins phrase
      exact ⟨_,v ++ rest,rfl,rfl⟩)
  have behind := fun left : QualAttr => Reads.terminal (f:=op) (t:=.op .lt) rfl (right left)
  refine (reads_qualattr.bind behind ?_).congr fun w q => ⟨?_,?_⟩
  · rintro left u q rest ⟨t,o,v,rfl,known,_⟩ _
    rw [op_some.mp known]
    exact ⟨_,v ++ rest,rfl,nofun⟩
  · rintro ⟨u,_,left,rfl,phrase,_,o,_,rfl,known,⟨v,⟨t,rfl,known'⟩,rfl⟩ | ⟨q,phrase',rfl⟩⟩
    · rw [op_some.mp known]
      exact .selection phrase o known'
    · rw [op_some.mp known]
      exact .join phrase o phrase'
  · intro phrase
    cases phrase with
    | selection left o known => exact ⟨_,_,_,rfl,left,_,o,_,rfl,rfl,.inl ⟨_,⟨_,rfl,known⟩,rfl⟩⟩
    | join left o right => exact ⟨_,_,_,rfl,left,_,o,_,rfl,rfl,.inr ⟨_,right,rfl⟩⟩

theorem reads_optWhere : Reads optWhere OptWhere (Follow fun t => t = semicolon) := by
  have condition := (reads_qual.map some).mono (G:=Follow fun t => t = semicolon) (by
    rintro rest ⟨t,v,rfl,rfl⟩
    exact ⟨_,v,rfl,by decide⟩)
  refine (condition.optional (c:=reserved .rwWhere) (a:=none) ?_).congr fun w q => ⟨?_,?_⟩
  · rintro rest ⟨t,v,rfl,rfl⟩
    exact ⟨_,v,rfl,by decide⟩
  · rintro (⟨_,rfl,q,phrase,rfl⟩ | ⟨rfl,rfl⟩)
    · exact .qual phrase
    · exact .nothing
  · intro phrase
    cases phrase with
    | qual condition => exact .inl ⟨_,rfl,_,condition,rfl⟩
    | nothing => exact .inr ⟨rfl,rfl⟩

theorem reads_optName (word : Reserved) : Reads (optName word) (OptName word) (Follow fun t => t ≠ reserved word) := by
  have relname := Reads.map (F:=Follow fun t => t ≠ reserved word) (.one (f:=string) (t:=named []) rfl) some
  refine (relname.optional (c:=reserved word) (a:=none) fun _ => id).congr fun w q => ⟨?_,?_⟩
  · rintro (⟨_,rfl,s,⟨t,rfl,known⟩,rfl⟩ | ⟨rfl,rfl⟩)
    · rw [string_some.mp known]
      exact .name s
    · exact .nothing
  · intro phrase
    cases phrase with
    | name s => exact .inl ⟨_,rfl,s,⟨_,rfl,rfl⟩,rfl⟩
    | nothing => exact .inr ⟨rfl,rfl⟩

theorem reads_optPrimaryAttr : Reads optPrimaryAttr OptPrimaryAttr (Follow fun t => t = semicolon) := by
  have buckets := fun attrname : Name => (Reads.map (F:=Follow fun t => t = semicolon) (.one (f:=int) (t:=.int 0) rfl)
    fun n => some (attrname,n)).expect (c:=.op .eq) |>.expect (c:=reserved .rwNumbuckets)
  refine ((Reads.terminal (f:=string) (t:=named []) rfl buckets).optional (c:=reserved .rwPrimary)
    (a:=none) ?_).congr fun w q => ⟨?_,?_⟩
  · rintro rest ⟨t,v,rfl,rfl⟩
    exact ⟨_,v,rfl,by decide⟩
  · rintro (⟨_,rfl,_,s,_,rfl,known,_,rfl,_,rfl,n,⟨t,rfl,known'⟩,rfl⟩ | ⟨rfl,rfl⟩)
    · rw [string_some.mp known,int_some.mp known']
      exact .primary s n
    · exact .nothing
  · intro phrase
    cases phrase with
    | primary s n => exact .inl ⟨_,rfl,_,s,_,rfl,rfl,_,rfl,_,rfl,n,⟨_,rfl,rfl⟩,rfl⟩
    | nothing => exact .inr ⟨rfl,rfl⟩

theorem reads_nonMtQualattrList : Reads nonMtQualattrList NonMtQualattrList (Follow fun t => t ≠ dot ∧ t ≠ comma) := by
  refine reads_items ⟨by decide,?_,?_⟩ reads_qualattr
  · rintro l r same
    cases same
    exact ⟨by decide,by decide⟩
  · rintro l r same u a phrase
    cases same
    obtain ⟨s,v,rfl⟩ := qualattr_begins phrase
    exact ⟨_,v,rfl,nofun⟩

theorem reads_tableList : Reads tableList TableList (Follow fun t => string t = none ∧ t ≠ comma) := by
  refine reads_items ⟨rfl,?_,?_⟩ reads_table
  · rintro l r same
    cases same
    exact ⟨rfl,by decide⟩
  · rintro l r same u a phrase
    cases same
    cases phrase with
    | aliased s t => exact ⟨_,_,rfl,nofun⟩
    | plain s => exact ⟨_,_,rfl,nofun⟩

theorem reads_attribList : Reads attribList AttribList (Follow fun t => True ∧ t ≠ comma) :=
  reads_items ⟨trivial,nofun,nofun⟩ (.one (t:=named []) rfl)

theorem reads_valueList : Reads valueList ValueList (Follow fun t => True ∧ t ≠ comma) :=
  reads_items ⟨trivial,nofun,nofun⟩ (.one (t:=.int 0) rfl)

theorem reads_nonMtAttrtypeList : Reads nonMtAttrtypeList NonMtAttrtypeList (Follow fun t => t ≠ lparen ∧ t ≠ comma) :=
  reads_items ⟨by decide,nofun,nofun⟩ reads_attrtype

-- A command behind its first word.
theorem start_behind {word : Reserved} {u : List Lexeme} {i : Input} : Start (reserved word::u) i ↔
    (∃ v s, u = v ++ [semicolon] ∧ i = .statement s ∧ Command (reserved word::v) s) ∨ word = .rwQuit ∧
    u = [semicolon] ∧ i = .quit := by
  constructor
  · intro phrase
    generalize same : reserved word::u = w at phrase
    cases phrase with
    | @command v s statement =>
      cases v with
      | nil => cases statement
      | cons t v =>
        obtain ⟨rfl,rfl⟩ := List.cons.inj same
        exact .inl ⟨v,s,rfl,rfl,statement⟩
    | quit =>
      cases same
      exact .inr ⟨rfl,rfl,rfl⟩
    | nothing => cases same
    | shellCmd sval => cases same
    | eof => cases same
  · rintro (⟨v,s,rfl,rfl,statement⟩ | ⟨rfl,rfl,rfl⟩)
    · exact .command statement
    · exact .quit

-- What a reader behind the first word of a command has to read.
theorem statement_behind {word : Reserved} (apart : word ≠ .rwQuit) {u : List Lexeme} {i : Input} :
    Start (reserved word::u) i ↔
    ∃ v s, u = v ++ [semicolon] ∧ i = .statement s ∧ Command (reserved word::v) s := by
  rw [start_behind]
  exact or_iff_left fun quit => apart quit.1

theorem reads_query : Reads (command .rwSelect) (fun u => Start (reserved .rwSelect::u)) F := by
  have ended := fun attrs into tables where_ => Reads.yields (F:=F) (Input.statement (.query attrs into tables where_))
  have condition := fun attrs into tables => reads_optWhere.before (c:=semicolon) rfl (ended attrs into tables)
  have listed := fun attrs into => reads_tableList.bind (condition attrs into) (by
    rintro tables w i rest ⟨ws,v,where_,rfl,phrase,_⟩ _
    cases phrase with
    | qual => exact ⟨_,_,rfl,by decide⟩
    | nothing => exact ⟨_,_,rfl,by decide⟩)
  have result := fun attrs => (reads_optName .rwInto).before (c:=reserved .rwFrom) (by decide) (listed attrs)
  have projected := reads_nonMtQualattrList.bind result (by
    rintro attrs w i rest ⟨is,v,into,rfl,phrase,_⟩ _
    cases phrase with
    | name s => exact ⟨_,_,rfl,by decide⟩
    | nothing => exact ⟨_,_,rfl,by decide⟩)
  refine projected.congr fun w i => ?_
  rw [statement_behind (by decide)]
  constructor
  · rintro ⟨us,_,attrs,rfl,projected,is,_,into,rfl,result,ts,_,tables,rfl,listed,ws,_,where_,rfl,condition,rfl,rfl⟩
    exact ⟨us ++ (is ++ reserved .rwFrom::(ts ++ ws)),_,by simp,rfl,.query projected result listed condition⟩
  · rintro ⟨v,s,rfl,rfl,statement⟩
    cases statement with
    | @query us is ts ws attrs into tables where_ projected result listed condition =>
      exact ⟨us,is ++ reserved .rwFrom::(ts ++ ws ++ [semicolon]),attrs,
        by simp,projected,is,ts ++ ws ++ [semicolon],into,rfl,result,ts,
        ws ++ [semicolon],tables,List.append_assoc ..,listed,ws,[],where_,rfl,condition,rfl,rfl⟩

theorem reads_insert : Reads (command .rwInsert) (fun u => Start (reserved .rwInsert::u)) F := by
  have ended := fun relname attribs values => Reads.yields (F:=F) (Input.statement (.insert relname attribs values))
  have right := fun relname attribs => reads_valueList.before (c:=rparen) ⟨trivial,by decide⟩ fun values =>
    (ended relname attribs values).expect (c:=semicolon)
  have left := fun relname => reads_attribList.before (c:=rparen) ⟨trivial,by decide⟩ fun attribs =>
    ((right relname attribs).expect (c:=lparen)).expect (c:=reserved .rwValues)
  refine ((Reads.terminal (f:=string) (t:=named []) rfl fun relname => (left relname).expect (c:=lparen)).expect
    (c:=reserved .rwInto)).congr
    fun w i => ?_
  rw [statement_behind (by decide)]
  constructor
  · rintro ⟨_,rfl,_,relname,_,rfl,known,_,rfl,us,_,attribs,rfl,left,_,rfl,_,rfl,vs,_,values,rfl,right,_,rfl,rfl,rfl⟩
    rw [string_some.mp known]
    exact ⟨_,_,by simp,rfl,.insert relname left right⟩
  · rintro ⟨v,s,rfl,rfl,statement⟩
    cases statement with
    | @insert relname us vs attribs values left right =>
      exact ⟨_,rfl,_,relname,_,rfl,rfl,_,rfl,us,reserved .rwValues::lparen::(vs ++ [rparen,semicolon]),attribs,
        by simp,left,_,rfl,_,rfl,vs,
        [semicolon],values,rfl,right,_,rfl,rfl,rfl⟩

theorem reads_delete : Reads (command .rwDelete) (fun u => Start (reserved .rwDelete::u)) F := by
  have ended := fun relname where_ => Reads.yields (F:=F) (Input.statement (.delete relname where_))
  have condition := fun relname => reads_optWhere.before (c:=semicolon) rfl (ended relname)
  refine ((Reads.terminal (f:=string) (t:=named []) rfl condition).expect (c:=reserved .rwFrom)).congr fun w i => ?_
  rw [statement_behind (by decide)]
  constructor
  · rintro ⟨_,rfl,_,relname,_,rfl,known,ws,_,where_,rfl,condition,rfl,rfl⟩
    rw [string_some.mp known]
    exact ⟨_,_,rfl,rfl,.delete relname condition⟩
  · rintro ⟨v,s,rfl,rfl,statement⟩
    cases statement with
    | delete relname condition => exact ⟨_,rfl,_,relname,_,rfl,rfl,_,[],_,rfl,condition,rfl,rfl⟩

theorem reads_create : Reads (command .rwCreate) (fun u => Start (reserved .rwCreate::u)) F := by
  have ended := fun relname attrs primary => Reads.yields (F:=F) (Input.statement (.create relname attrs primary))
  have key := fun relname attrs => reads_optPrimaryAttr.before (c:=semicolon) rfl (ended relname attrs)
  have columns := fun relname => reads_nonMtAttrtypeList.before (c:=rparen) (by decide) (key relname)
  refine ((Reads.terminal (f:=string) (t:=named []) rfl fun relname => (columns relname).expect (c:=lparen)).expect
    (c:=reserved .rwTable)).congr
    fun w i => ?_
  rw [statement_behind (by decide)]
  constructor
  · rintro ⟨_,rfl,_,relname,_,rfl,known,_,rfl,us,_,attrs,rfl,columns,ps,_,primary,rfl,key,rfl,rfl⟩
    rw [string_some.mp known]
    exact ⟨_,_,by simp,rfl,.create relname columns key⟩
  · rintro ⟨v,s,rfl,rfl,statement⟩
    cases statement with
    | @create relname us ps attrs primary columns key =>
      exact ⟨_,rfl,_,relname,_,rfl,rfl,_,rfl,us,ps ++ [semicolon],attrs,by simp,columns,ps,[],primary,rfl,key,rfl,rfl⟩

-- The commands that have only the name of a relation behind the word TABLE.
theorem reads_named (made : Name → Statement) : Reads (do
      expect (reserved .rwTable)
      let relname ← terminal string
      expect semicolon
      return Input.statement (made relname))
    (fun w i => ∃ relname, w = [reserved .rwTable,named relname,semicolon] ∧ i = .statement (made relname)) F := by
  have ended := fun relname => (Reads.yields (F:=F) (Input.statement (made relname))).expect (c:=semicolon)
  refine ((Reads.terminal (f:=string) (t:=named []) rfl ended).expect (c:=reserved .rwTable)).congr fun w i => ⟨?_,?_⟩
  · rintro ⟨_,rfl,_,relname,_,rfl,known,_,rfl,rfl,rfl⟩
    rw [string_some.mp known]
    exact ⟨relname,rfl,rfl⟩
  · rintro ⟨relname,rfl,rfl⟩
    exact ⟨_,rfl,_,relname,_,rfl,rfl,_,rfl,rfl,rfl⟩

theorem reads_destroy : Reads (command .rwDestroy) (fun u => Start (reserved .rwDestroy::u)) F := by
  refine (reads_named .destroy).congr fun w i => ?_
  rw [statement_behind (by decide)]
  constructor
  · rintro ⟨relname,rfl,rfl⟩
    exact ⟨[reserved .rwTable,named relname],_,rfl,rfl,.destroy relname⟩
  · rintro ⟨v,s,rfl,rfl,statement⟩
    cases statement with
    | destroy relname => exact ⟨relname,rfl,rfl⟩

theorem reads_print : Reads (command .rwPrint) (fun u => Start (reserved .rwPrint::u)) F := by
  refine (reads_named .print).congr fun w i => ?_
  rw [statement_behind (by decide)]
  constructor
  · rintro ⟨relname,rfl,rfl⟩
    exact ⟨[reserved .rwTable,named relname],_,rfl,rfl,.print relname⟩
  · rintro ⟨v,s,rfl,rfl,statement⟩
    cases statement with
    | print relname => exact ⟨relname,rfl,rfl⟩

-- An index of a relation, up to the semicolon.
theorem reads_attribute (i : Name → Input) : Reads
    (do expect lparen; let attrname ← terminal string; expect rparen; expect semicolon; return i attrname)
    (fun w j => ∃ attrname, w = [lparen,named attrname,rparen,semicolon] ∧ j = i attrname) F := by
  have ended := fun attrname => ((Reads.yields (F:=F) (i attrname)).expect (c:=semicolon)).expect (c:=rparen)
  refine ((Reads.terminal (f:=string) (t:=named []) rfl ended).expect (c:=lparen)).congr fun w j => ⟨?_,?_⟩
  · rintro ⟨_,rfl,_,attrname,_,rfl,known,_,rfl,_,rfl,rfl,rfl⟩
    rw [string_some.mp known]
    exact ⟨attrname,rfl,rfl⟩
  · rintro ⟨attrname,rfl,rfl⟩
    exact ⟨_,rfl,_,attrname,_,rfl,rfl,_,rfl,_,rfl,rfl,rfl⟩

theorem reads_build : Reads (command .rwBuild) (fun u => Start (reserved .rwBuild::u)) F := by
  refine (Reads.terminal (f:=string) (t:=named []) rfl fun relname => reads_attribute fun attrname =>
    .statement (.build relname attrname)).congr
    fun w i => ?_
  rw [statement_behind (by decide)]
  constructor
  · rintro ⟨_,relname,_,rfl,known,attrname,rfl,rfl⟩
    rw [string_some.mp known]
    exact ⟨[named relname,lparen,named attrname,rparen],_,rfl,rfl,.build relname attrname⟩
  · rintro ⟨v,s,rfl,rfl,statement⟩
    cases statement with
    | build relname attrname => exact ⟨_,relname,_,rfl,rfl,attrname,rfl,rfl⟩

theorem reads_drop : Reads (command .rwDrop) (fun u => Start (reserved .rwDrop::u)) F := by
  have either := fun relname : Name => Reads.branch (d:=(· = lparen)) (F:=F)
    (reads_attribute fun attrname => .statement (.drop relname (some attrname)))
    ((Reads.yields (Input.statement (.drop relname none))).expect (c:=semicolon))
    (by
      rintro u i ⟨attrname,rfl,_⟩
      exact ⟨_,_,rfl,by decide⟩)
    (by
      rintro u i rest ⟨v,rfl,_⟩ _
      exact ⟨_,v ++ rest,rfl,by decide⟩)
  refine (Reads.terminal (f:=string) (t:=named []) rfl either).congr fun w i => ?_
  rw [statement_behind (by decide)]
  constructor
  · rintro ⟨_,relname,_,rfl,known,⟨attrname,rfl,rfl⟩ | ⟨_,rfl,rfl,rfl⟩⟩
    · rw [string_some.mp known]
      exact ⟨[named relname,lparen,named attrname,rparen],_,rfl,rfl,.drop relname attrname⟩
    · rw [string_some.mp known]
      exact ⟨[named relname],_,rfl,rfl,.dropAll relname⟩
  · rintro ⟨v,s,rfl,rfl,statement⟩
    cases statement with
    | drop relname attrname => exact ⟨_,relname,_,rfl,rfl,.inl ⟨attrname,rfl,rfl⟩⟩
    | dropAll relname => exact ⟨_,relname,_,rfl,rfl,.inr ⟨_,rfl,rfl,rfl⟩⟩

theorem reads_load : Reads (command .rwLoad) (fun u => Start (reserved .rwLoad::u)) F := by
  have ended := fun relname filename => ((Reads.yields (F:=F) (Input.statement (.load relname filename))).expect
    (c:=semicolon)).expect (c:=rparen)
  have file := fun relname => ((Reads.terminal (f:=qstring) (t:=.qstring []) rfl (ended relname)).expect
    (c:=lparen)).expect (c:=reserved .rwFrom)
  refine ((Reads.terminal (f:=string) (t:=named []) rfl file).expect (c:=reserved .rwTable)).congr fun w i => ?_
  rw [statement_behind (by decide)]
  constructor
  · rintro ⟨_,rfl,_,relname,_,rfl,known,_,rfl,_,rfl,_,filename,_,rfl,known',_,rfl,_,rfl,rfl,rfl⟩
    rw [string_some.mp known,qstring_some.mp known']
    exact ⟨[reserved .rwTable,named relname,reserved .rwFrom,lparen,.qstring filename,rparen],_,rfl,rfl,
      .load relname filename⟩
  · rintro ⟨v,s,rfl,rfl,statement⟩
    cases statement with
    | load relname filename => exact ⟨_,rfl,_,relname,_,rfl,rfl,_,rfl,_,rfl,_,filename,_,rfl,rfl,_,rfl,_,rfl,rfl,rfl⟩

theorem reads_help : Reads (command .rwHelp) (fun u => Start (reserved .rwHelp::u)) F := by
  have ended := fun relname => Reads.yields (F:=F) (Input.statement (.help relname))
  refine ((reads_optName .rwTable).before (c:=semicolon) (by decide) ended).congr fun w i => ?_
  rw [statement_behind (by decide)]
  constructor
  · rintro ⟨us,_,relname,rfl,relation,rfl,rfl⟩
    exact ⟨us,_,rfl,rfl,.help relation⟩
  · rintro ⟨v,s,rfl,rfl,statement⟩
    cases statement with
    | help relation => exact ⟨_,[],_,rfl,relation,rfl,rfl⟩

theorem reads_quit : Reads (command .rwQuit) (fun u => Start (reserved .rwQuit::u)) F := by
  refine ((Reads.yields (F:=F) Input.quit).expect (c:=semicolon)).congr fun w i => ?_
  rw [start_behind]
  constructor
  · rintro ⟨_,rfl,rfl,rfl⟩
    exact .inr ⟨rfl,rfl,rfl⟩
  · rintro (⟨v,s,rfl,rfl,statement⟩ | ⟨_,rfl,rfl⟩)
    · cases statement
    · exact ⟨_,rfl,rfl,rfl⟩

def words : List Reserved :=
    [.rwSelect,.rwInsert,.rwDelete,.rwCreate,.rwDestroy,.rwBuild,.rwDrop,.rwLoad,.rwPrint,.rwHelp,.rwQuit]

theorem start_word {word : Reserved} {u : List Lexeme} {i : Input} (phrase : Start (reserved word::u) i) :
    word ∈ words := by
  rcases start_behind.mp phrase with ⟨v,s,_,_,statement⟩ | ⟨rfl,_⟩
  · cases statement <;> decide
  · decide

theorem reads_other {t : Lexeme} {n : Nat} (other : ∀ u i, ¬ Start (t::u) i) :
    ReadsUpTo n (fail : Reader Lexeme Input) (fun u => Start (t::u)) F :=
  reads_fail.congr fun u i => iff_of_false id (other u i)

theorem reads_command (word : Reserved) (n : Nat) :
    ReadsUpTo n (command word) (fun u => Start (reserved word::u)) F := by
  by_cases among : word ∈ words
  · simp only [words,List.mem_cons,List.not_mem_nil,or_false] at among
    rcases among with rfl | rfl | rfl | rfl | rfl | rfl | rfl | rfl | rfl | rfl | rfl
    · exact reads_query.upTo n
    · exact reads_insert.upTo n
    · exact reads_delete.upTo n
    · exact reads_create.upTo n
    · exact reads_destroy.upTo n
    · exact reads_build.upTo n
    · exact reads_drop.upTo n
    · exact reads_load.upTo n
    · exact reads_print.upTo n
    · exact reads_help.upTo n
    · exact reads_quit.upTo n
  · have refused : command word = fail := by
      cases word with
      | rwSelect | rwInsert | rwDelete | rwCreate | rwDestroy | rwBuild | rwDrop | rwLoad | rwPrint | rwHelp | rwQuit => exact absurd (by decide) among
      | _ => rfl
    rw [refused]
    exact reads_other fun u i phrase => among (start_word phrase)

theorem start_cases {t : Lexeme} {u : List Lexeme} {i : Input} (phrase : Start (t::u) i) : (∃ word, t = reserved word) ∨
    (t = semicolon ∧ u = [] ∧ i = .nothing) ∨ (∃ sval, t = .shellCmd sval ∧ u = [] ∧ i = .shellCmd sval) ∨
    (t = .eof ∧ u = [] ∧ i = .quit) := by
  generalize same : t::u = w at phrase
  cases phrase with
  | @command v s statement =>
    cases v with
    | nil => cases statement
    | cons t' v =>
      obtain ⟨rfl,_⟩ := List.cons.inj same
      cases statement <;> exact .inl ⟨_,rfl⟩
  | quit =>
    cases same
    exact .inl ⟨_,rfl⟩
  | nothing =>
    cases same
    exact .inr (.inl ⟨rfl,rfl,rfl⟩)
  | shellCmd sval =>
    cases same
    exact .inr (.inr (.inl ⟨sval,rfl,rfl,rfl⟩))
  | eof =>
    cases same
    exact .inr (.inr (.inr ⟨rfl,rfl,rfl⟩))

theorem reads_none (t : Lexeme) {n : Nat} (word : ∀ w, t ≠ reserved w) (some_semicolon : t ≠ semicolon)
    (shell : ∀ s, t ≠ .shellCmd s)
    (ended : t ≠ .eof) : ReadsUpTo n (fail : Reader Lexeme Input) (fun u => Start (t::u)) F := by
  refine reads_other fun u i phrase => ?_
  rcases start_cases phrase with ⟨w,same⟩ | ⟨same,_⟩ | ⟨s,same,_⟩ | ⟨same,_⟩
  · exact word w same
  · exact some_semicolon same
  · exact shell s same
  · exact ended same

theorem reads_start : Reads start Start fun _ => True := by
  refine .next (fun t n => ?_) ⟨_,_,.eof⟩ fun i none => ?_
  · cases t with
    | id token =>
      cases token with
      | reserved word => exact reads_command word n
      | noToken => exact reads_none (.id .noToken) nofun nofun nofun nofun
      | string s => exact reads_none (.id (.string s)) nofun nofun nofun nofun
    | shellCmd sval =>
      refine (reads_pure (Input.shellCmd sval)).congr fun u i => ⟨?_,fun phrase => ?_⟩
      · rintro ⟨rfl,rfl⟩
        exact .shellCmd sval
      · rcases start_cases phrase with ⟨w,same⟩ | ⟨same,_⟩ | ⟨s,same,rfl,rfl⟩ | ⟨same,_⟩ <;> cases same
        exact ⟨rfl,rfl⟩
    | eof =>
      refine (reads_pure Input.quit).congr fun u i => ⟨?_,fun phrase => ?_⟩
      · rintro ⟨rfl,rfl⟩
        exact .eof
      · rcases start_cases phrase with ⟨w,same⟩ | ⟨same,_⟩ | ⟨s,same,_⟩ | ⟨_,rfl,rfl⟩
        · cases same
        · cases same
        · cases same
        · exact ⟨rfl,rfl⟩
    | char c =>
      by_cases ended : c = 59
      · obtain rfl := ended
        refine (reads_pure Input.nothing).congr fun u i => ⟨?_,fun phrase => ?_⟩
        · rintro ⟨rfl,rfl⟩
          exact .nothing
        · rcases start_cases phrase with ⟨w,same⟩ | ⟨_,rfl,rfl⟩ | ⟨s,same,_⟩ | ⟨same,_⟩
          · cases same
          · exact ⟨rfl,rfl⟩
          · cases same
          · cases same
      · rw [first,if_neg ended]
        exact reads_none (.char c) nofun (fun same => ended (Lexeme.char.inj same)) nofun nofun
    | int ival => exact reads_none (.int ival) nofun nofun nofun nofun
    | real rval => exact reads_none (.real rval) nofun nofun nofun nofun
    | qstring sval => exact reads_none (.qstring sval) nofun nofun nofun nofun
    | op o => exact reads_none (.op o) nofun nofun nofun nofun
  · generalize same : ([] : List Lexeme) = w at none
    cases none with
    | command statement => exact absurd same (by simp)
    | nothing => cases same
    | quit => cases same
    | shellCmd sval => cases same
    | eof => cases same

section spelling

-- A statement written down, without a parenthesis that it does not need.
def valueToken : Value → Lexeme
  | .integer ival => .int ival
  | .real rval => .real rval
  | .string sval => .qstring sval

def qualattrTokens : QualAttr → List Lexeme
  | ⟨some relname,attrname⟩ => [named relname,dot,named attrname]
  | ⟨none,attrname⟩ => [named attrname]

def tableTokens : TableRef → List Lexeme
  | ⟨relname,some relAlias⟩ => [named relname,named relAlias]
  | ⟨relname,none⟩ => [named relname]

def attrtypeTokens : Name × AttrType → List Lexeme
  | (attrname,.int) => [named attrname,reserved .intType]
  | (attrname,.real) => [named attrname,reserved .realType]
  | (attrname,.char length) => [named attrname,reserved .charType,lparen,valueToken length,rparen]
  | (attrname,.oneChar) => [named attrname,reserved .charType]

def listTokens {α : Type} (item : α → List Lexeme) : NonMt α → List Lexeme
  | .one a => item a
  | .cons a rest => item a ++ comma::listTokens item rest

def whereTokens : Option Where → List Lexeme
  | none => []
  | some (.selection selattr o v) => reserved .rwWhere::(qualattrTokens selattr ++ [.op o,valueToken v])
  | some (.join joinattr1 o joinattr2) =>
    reserved .rwWhere::(qualattrTokens joinattr1 ++ .op o::qualattrTokens joinattr2)

def nameTokens (word : Reserved) : Option Name → List Lexeme
  | none => []
  | some sval => [reserved word,named sval]

def primaryTokens : Option (Name × Int) → List Lexeme
  | none => []
  | some (attrname,nbuckets) => [reserved .rwPrimary,named attrname,reserved .rwNumbuckets,.op .eq,.int nbuckets]

def tokens : Statement → List Lexeme
  | .query attrs into tables where_ =>
    reserved .rwSelect::(listTokens qualattrTokens attrs ++ (nameTokens .rwInto into ++
      reserved .rwFrom::(listTokens tableTokens tables ++ whereTokens where_)))
  | .insert relname attribs values =>
    reserved .rwInsert::reserved .rwInto::named relname::lparen::(listTokens (fun a => [named a]) attribs ++
      rparen::reserved .rwValues::lparen::(listTokens (fun v => [valueToken v]) values ++ [rparen]))
  | .delete relname where_ => reserved .rwDelete::reserved .rwFrom::named relname::whereTokens where_
  | .create relname attrs primary =>
    reserved .rwCreate::reserved .rwTable::named relname::lparen::(listTokens attrtypeTokens attrs ++
      rparen::primaryTokens primary)
  | .destroy relname => [reserved .rwDestroy,reserved .rwTable,named relname]
  | .build relname attrname => [reserved .rwBuild,named relname,lparen,named attrname,rparen]
  | .drop relname (some attrname) => [reserved .rwDrop,named relname,lparen,named attrname,rparen]
  | .drop relname none => [reserved .rwDrop,named relname]
  | .load relname filename =>
    [reserved .rwLoad,reserved .rwTable,named relname,reserved .rwFrom,lparen,.qstring filename,rparen]
  | .print relname => [reserved .rwPrint,reserved .rwTable,named relname]
  | .help relname => reserved .rwHelp::nameTokens .rwTable relname

theorem value_token (v : Value) : value (valueToken v) = some v := by
  cases v <;> rfl

theorem qualattr_tokens (q : QualAttr) : Qualattr (qualattrTokens q) q := by
  obtain ⟨relname,attrname⟩ := q
  cases relname with
  | none => exact .unqualified attrname
  | some relname => exact .qualified relname attrname

theorem table_tokens (t : TableRef) : Table (tableTokens t) t := by
  obtain ⟨relname,relAlias⟩ := t
  cases relAlias with
  | none => exact .plain relname
  | some relAlias => exact .aliased relname relAlias

theorem attrtype_tokens (a : Name × AttrType) : Attrtype (attrtypeTokens a) a := by
  obtain ⟨attrname,type⟩ := a
  cases type with
  | int => exact .int attrname
  | real => exact .real attrname
  | char length => exact .char attrname (value_token length)
  | oneChar => exact .oneChar attrname

theorem list_tokens {α : Type} {brackets : Option (Lexeme × Lexeme)} {Item : List Lexeme → α → Prop}
    {item : α → List Lexeme}
    (each : ∀ a, Item (item a) a) (list : NonMt α) : Items brackets comma Item .one .cons
    (listTokens item list) list := by
  induction list with
  | one a => exact .one (each a)
  | cons a rest ih => exact .cons (each a) ih

theorem where_tokens (where_ : Option Where) : OptWhere (whereTokens where_) where_ := by
  cases where_ with
  | none => exact .nothing
  | some condition =>
    cases condition with
    | selection selattr o v => exact .qual (.selection (qualattr_tokens selattr) o (value_token v))
    | join joinattr1 o joinattr2 => exact .qual (.join (qualattr_tokens joinattr1) o (qualattr_tokens joinattr2))

theorem name_tokens (word : Reserved) (relname : Option Name) : OptName word (nameTokens word relname) relname := by
  cases relname with
  | none => exact .nothing
  | some sval => exact .name sval

theorem primary_tokens (primary : Option (Name × Int)) : OptPrimaryAttr (primaryTokens primary) primary := by
  cases primary with
  | none => exact .nothing
  | some both => exact .primary both.1 both.2

-- The grammar has every statement.
theorem command_tokens (s : Statement) : Command (tokens s) s := by
  cases s with
  | query attrs into tables where_ =>
    exact .query (list_tokens qualattr_tokens attrs) (name_tokens _ into) (list_tokens table_tokens tables)
      (where_tokens where_)
  | insert relname attribs values =>
    exact .insert relname (list_tokens (fun a => ⟨_,rfl,rfl⟩) attribs)
      (list_tokens (fun v => ⟨_,rfl,value_token v⟩) values)
  | delete relname where_ => exact .delete relname (where_tokens where_)
  | create relname attrs primary => exact .create relname (list_tokens attrtype_tokens attrs) (primary_tokens primary)
  | destroy relname => exact .destroy relname
  | build relname attrname => exact .build relname attrname
  | drop relname attrname =>
    cases attrname with
    | none => exact .dropAll relname
    | some attrname => exact .drop relname attrname
  | load relname filename => exact .load relname filename
  | print relname => exact .print relname
  | help relname => exact .help (name_tokens _ relname)

end spelling

-- One way to read what is read, and no statement that another one begins with: the parser knows a statement at its last
-- token, an error at the first token that none has there, and needs to look at nothing behind.
theorem statements_told_apart :
    (∀ u more i j, Start u i → Start (u ++ more) j → more = [] ∧ i = j) ∧
    (∀ s rest, start (tokens s ++ semicolon::rest) = .ok (.statement s) rest) ∧
    (∀ w i rest, start w = .ok i rest ↔ ∃ u, w = u ++ rest ∧ Start u i) ∧
    (∀ w, start w = .more ↔ ∃ t more i, Start (w ++ t::more) i) ∧
    ∀ w, start w = .error ↔ ∀ u i, Start u i → ¬ u <+: w ∧ ¬ w <+: u := by
  refine ⟨fun u more i j => reads_start.unique,fun s rest => ?_,fun w i rest => reads_start.ok_iff,fun w =>
    reads_start.more_iff,
    fun w => reads_start.error_iff⟩
  exact reads_start.ok_iff.mpr ⟨tokens s ++ [semicolon],by simp,.command (command_tokens s)⟩

end Minirel.Grammar
