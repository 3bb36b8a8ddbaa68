import Minirel.Reductions

namespace Minirel.Grammar
open Scan Readers LongestMatch

-- The stack that bison gives the parser: how many states it has held at most when these tokens are
-- read, which its tables
-- tell, and the number of them (YYMAXDEPTH) that it cannot hold. There is one at first, and a token
-- adds itself and at most
-- one empty rule.
structure Stack where
  depth : List Lexeme → Nat
  limit : Nat
  bounded : ∀ w, depth w ≤ 2 * w.length + 2

-- What a call of yyparse comes to, when it returns or quits. A shell command has been executed then, and after a syntax
-- error reset_scanner has been called.
inductive Answer where
  | tree (parseTree : Option Node)
  | nothing
  | shellCmd (sval : List UInt8)
  | quit
  | syntaxError
  | exhausted

def accept (address : List UInt8 → Int) : Input → Except Abort Answer
  | .statement st => do
    let parseTree ← Parser.actions address st
    return .tree parseTree
  | .nothing => return .nothing
  | .shellCmd sval => return .shellCmd sval
  | .quit => return .quit

-- The parser is asked about the tokens read so far, and newnode ends the process as soon as the
-- actions want a node too many.
def yyparseTurns (k : Stack) (address : List UInt8 → Int) (sscanf : List UInt8 → List UInt8) :
    Nat → List Lexeme → LexState → Except Abort (Answer × LexState)
  | 0,_,_ => throw .diverges
  | turns+1,read,s =>
    if k.limit ≤ k.depth read then return (.exhausted,s)
    else
      let (outcome,nodeptr) := startNode read
      if maxNode < nodeptr then throw .exit
      else match outcome with
      | .ok i _ => do
        let answer ← accept address i
        return (answer,s)
      | .error => return (.syntaxError,s)
      | .more => do
        let (t,s) ← yylex sscanf s
        yyparseTurns k address sscanf turns (read ++ [t]) s

def yyparse (k : Stack) (address : List UInt8 → Int) (sscanf : List UInt8 → List UInt8) (s : LexState) :
    Except Abort (Answer × LexState) :=
  yyparseTurns k address sscanf (s.input.length + 2) [] s

variable {k : Stack} {address : List UInt8 → Int} {sscanf : List UInt8 → List UInt8} {s s' s1 : LexState}
  {ts read : List Lexeme}

-- The tokens that the scanner delivers, one after the other.
inductive Lexes (sscanf : List UInt8 → List UInt8) : LexState → List Lexeme → LexState → Prop where
  | nil {s : LexState} : Lexes sscanf s [] s
  | cons {s s1 s' : LexState} {t : Lexeme} {ts : List Lexeme} (first : yylex sscanf s = .ok (t,s1))
      (rest : Lexes sscanf s1 ts s') :
    Lexes sscanf s (t::ts) s'

theorem Lexes.snoc {t : Lexeme} (front : Lexes sscanf s ts s1) (last : yylex sscanf s1 = .ok (t,s')) :
    Lexes sscanf s (ts ++ [t]) s' := by
  induction front with
  | nil => exact .cons last .nil
  | cons first _ ih => exact .cons first (ih last)

theorem qualattr_tokened {u : List Lexeme} {q : QualAttr} (phrase : Qualattr u q) : ∀ t ∈ u, t ≠ .eof := by
  cases phrase <;> simp

theorem terminal_tokened {α : Type} {f : Lexeme → Option α} (refused : f .eof = none) {u : List Lexeme}
    {a : α} (phrase : Terminal f u a) :
    ∀ t ∈ u, t ≠ .eof := by
  obtain ⟨t,rfl,known⟩ := phrase
  refine List.forall_mem_singleton.mpr ?_
  rintro rfl
  rw [refused] at known
  cases known

theorem attrtype_tokened {u : List Lexeme} {a : Name × AttrType} (phrase : Attrtype u a) : ∀ t ∈ u, t ≠ .eof := by
  cases phrase with
  | char attrname known =>
    have length := terminal_tokened rfl ⟨_,rfl,known⟩
    simpa using length
  | _ => simp

theorem qual_tokened {u : List Lexeme} {q : Where} (phrase : Qual u q) : ∀ t ∈ u, t ≠ .eof := by
  cases phrase with
  | selection left o known =>
    have right := terminal_tokened rfl ⟨_,rfl,known⟩
    exact List.forall_mem_append.mpr ⟨qualattr_tokened left,List.forall_mem_cons.mpr ⟨nofun,right⟩⟩
  | join left o right =>
    exact List.forall_mem_append.mpr ⟨qualattr_tokened left,List.forall_mem_cons.mpr ⟨nofun,qualattr_tokened right⟩⟩

theorem optWhere_tokened {u : List Lexeme} {where_ : Option Where} (phrase : OptWhere u where_) :
    ∀ t ∈ u, t ≠ .eof := by
  cases phrase with
  | qual condition => exact List.forall_mem_cons.mpr ⟨nofun,qual_tokened condition⟩
  | nothing => simp

theorem optName_tokened {word : Reserved} {u : List Lexeme} {relname : Option Name} (phrase : OptName word u relname) :
    ∀ t ∈ u, t ≠ .eof := by
  cases phrase <;> simp

theorem parens_tokened (l r : Lexeme) (both : some (lparen,rparen) = some (l,r)) : l ≠ .eof ∧ r ≠ .eof := by
  cases both
  exact ⟨nofun,nofun⟩

-- The end of the input is inside no command.
theorem command_tokened {u : List Lexeme} {st : Statement} (statement : Command u st) : ∀ t ∈ u, t ≠ .eof := by
  cases statement with
  | query projected result listed condition =>
    have attrs := projected.each (fun _ _ => qualattr_tokened) nofun parens_tokened
    have tables := listed.each (fun _ _ phrase => by cases phrase <;> simp) nofun parens_tokened
    exact List.forall_mem_cons.mpr ⟨nofun,List.forall_mem_append.mpr
      ⟨attrs,List.forall_mem_append.mpr ⟨optName_tokened result,
      List.forall_mem_cons.mpr ⟨nofun,List.forall_mem_append.mpr ⟨tables,optWhere_tokened condition⟩⟩⟩⟩⟩
  | insert relname left right =>
    have attribs := left.each (fun _ _ => terminal_tokened rfl) nofun nofun
    have values := right.each (fun _ _ => terminal_tokened rfl) nofun nofun
    simp only [List.forall_mem_cons,List.forall_mem_append]
    exact ⟨nofun,nofun,nofun,nofun,attribs,nofun,nofun,nofun,values,nofun,nofun⟩
  | delete relname condition =>
    simp only [List.forall_mem_cons]
    exact ⟨nofun,nofun,nofun,optWhere_tokened condition⟩
  | create relname columns key =>
    have attrs := columns.each (fun _ _ => attrtype_tokened) nofun nofun
    simp only [List.forall_mem_cons,List.forall_mem_append]
    refine ⟨nofun,nofun,nofun,nofun,attrs,nofun,?_⟩
    cases key <;> simp
  | help relation => exact List.forall_mem_cons.mpr ⟨nofun,optName_tokened relation⟩
  | _ => simp

theorem eof_alone {w more : List Lexeme} {i : Input} (phrase : Start (w ++ .eof::more) i) : w = [] ∧ more = [] := by
  generalize same : w ++ Lexeme.eof::more = u at phrase
  have inside : Lexeme.eof ∈ u := same ▸ List.mem_append_right w List.mem_cons_self
  cases phrase with
  | command statement =>
    rcases List.mem_append.mp inside with within | last
    · exact absurd rfl (command_tokened statement _ within)
    · simp at last
  | nothing => simp at inside
  | quit => simp at inside
  | shellCmd sval => simp at inside
  | eof =>
    obtain ⟨rfl,rest⟩ | ⟨v,_,none⟩ := List.append_eq_cons_iff.mp same
    · exact ⟨rfl,(List.cons.inj rest).2⟩
    · exact absurd none (by simp)

theorem longestUpTo_shorter {α ρ : Type} [DecidableEq α] {rules : List (Rule α ρ)} {input text rest : List α}
    {action : ρ} {n : Nat}
    (inside : n ≤ input.length) (found : longestUpTo rules input n = some (action,text,rest)) : rest.length <
    input.length := by
  induction n with
  | zero => cases found
  | succ n ih =>
    rw [longestUpTo] at found
    split at found
    · cases found
      rw [List.length_drop]
      omega
    · exact ih (Nat.le_of_succ_le inside) found

theorem deliver_input {yytext : List UInt8} {action : Action} {l : Option Lexeme}
    (ran : deliverLexeme sscanf yytext s action = .ok (l,s')) :
    s'.input = s.input := by
  cases action with
  | qstring =>
    change (getQstring yytext s.scanner >>= fun got => Except.ok
      (some (Lexeme.qstring got.1),{s with scanner := got.2})) = _ at ran
    cases got : getQstring yytext s.scanner with
    | error e =>
      rw [got] at ran
      cases ran
    | ok found =>
      rw [got,ok_bind] at ran
      cases ran
      rfl
  | id =>
    change (getId yytext s.scanner >>= fun got => Except.ok (some (Lexeme.id got.1),{s with scanner := got.2})) =
      _ at ran
    cases got : getId yytext s.scanner with
    | error e =>
      rw [got] at ran
      cases ran
    | ok found =>
      rw [got,ok_bind] at ran
      cases ran
      rfl
  | _ =>
    cases ran
    rfl

theorem yylexTurns_input {t : Lexeme} {turns : Nat} (ran : yylexTurns sscanf turns s = .ok (t,s')) :
    t = .eof ∨ s'.input.length < s.input.length := by
  induction turns generalizing s with
  | zero =>
    rw [yylexTurns] at ran
    split at ran
    · cases ran
      exact .inl rfl
    · cases ran
  | succ turns ih =>
    rw [yylexTurns] at ran
    split at ran
    · cases ran
      exact .inl rfl
    · rename_i some_byte
      cases found : longest (rules s.start) s.input with
      | none =>
        rw [found] at ran
        rcases ih ran with ended | shorter
        · exact .inl ended
        · right
          exact Nat.lt_of_lt_of_le shorter (by simp)
      | some hit =>
        obtain ⟨action,yytext,rest⟩ := hit
        have taken : rest.length < s.input.length := longestUpTo_shorter (Nat.le_refl _) found
        rw [found] at ran
        dsimp only at ran
        cases delivered : deliverLexeme sscanf yytext {s with input := rest} action with
        | error e =>
          rw [delivered] at ran
          cases ran
        | ok made =>
          obtain ⟨l,s1⟩ := made
          have left := deliver_input delivered
          rw [delivered,ok_bind] at ran
          cases l with
          | some l =>
            cases ran
            right
            rw [left]
            exact taken
          | none =>
            rcases ih ran with ended | shorter
            · exact .inl ended
            · right
              rw [left] at shorter
              exact Nat.lt_trans shorter taken

theorem yylex_input {t : Lexeme} (ran : yylex sscanf s = .ok (t,s')) : t = .eof ∨ s'.input.length < s.input.length :=
    yylexTurns_input ran

-- Some sentence begins with these tokens and has more.
def Viable (w : List Lexeme) : Prop := ∃ t more i, Start (w ++ t::more) i

theorem start_viable {w : List Lexeme} : start w = .more ↔ Viable w := reads_start.more_iff

-- The value of a sentence whose nodes are there.
def Input.answer (address : List UInt8 → Int) : Input → Answer
  | .statement st => .tree (Parser.tree address st)
  | .nothing => .nothing
  | .shellCmd sval => .shellCmd sval
  | .quit => .quit

theorem accept_answer {i : Input} (room : i.nodes ≤ maxNode) : accept address i = .ok (i.answer address) := by
  cases i with
  | statement st =>
    have ran := Parser.actions_spec address st
    rw [if_pos (show Parser.nodes st ≤ maxNode from room)] at ran
    rw [accept,ran]
    rfl
  | _ => rfl

-- The stack holds these tokens, one after the other.
def Stack.Holds (k : Stack) (ts : List Lexeme) : Prop := ∀ w, w <+: ts → k.depth w < k.limit

theorem Stack.holds_short (short : 2 * ts.length + 2 < k.limit) : k.Holds ts := by
  intro w front
  have fewer := front.length_le
  have bounded := k.bounded w
  omega

theorem Stack.Holds.whole (holds : k.Holds ts) : ¬ k.limit ≤ k.depth ts :=
    Nat.not_le.mpr (holds ts (List.prefix_refl ts))

theorem Stack.Holds.front {more : List Lexeme} (holds : k.Holds (ts ++ more)) : k.Holds ts :=
  fun w front => holds w (front.trans (List.prefix_append ts more))

theorem Stack.Holds.snoc {t : Lexeme} (holds : k.Holds ts) (last : ¬ k.limit ≤ k.depth (ts ++ [t])) :
    k.Holds (ts ++ [t]) := by
  intro w front
  rcases List.prefix_concat_iff.mp front with rfl | earlier
  · exact Nat.not_le.mp last
  · exact holds w earlier

-- A turn of the parser, by what it has read.
theorem yyparseTurns_turn (turns : Nat) (read : List Lexeme) (s : LexState) :
    yyparseTurns k address sscanf (turns + 1) read s =
    if k.limit ≤ k.depth read then .ok (.exhausted,s)
    else if maxNode < nodesBy read then .error .exit
    else match start read with
    | .ok i _ => accept address i >>= fun answer => .ok (answer,s)
    | .error => .ok (.syntaxError,s)
    | .more => yylex sscanf s >>= fun next => yyparseTurns k address sscanf turns (read ++ [next.1]) next.2 := by
  rw [yyparseTurns,← start_outcome,nodesBy]
  rfl

-- Along a beginning of a sentence that the stack holds, yyparse takes the tokens until it lacks a node.
theorem yyparseTurns_along (address : List UInt8 → Int) (read back : List Lexeme) (turns : Nat) {front : List Lexeme}
    {i : Input} (sentence : Start (read ++ (front ++ back)) i)
    (lexes : Lexes sscanf s front s1) (holds : k.Holds (read ++ front)) (enough : s.input.length + 2 ≤ turns ∨
      front = [] ∧ 1 ≤ turns) :
    (maxNode < nodesBy (read ++ front) ∧ yyparseTurns k address sscanf turns read s = .error .exit) ∨
    ∃ left, yyparseTurns k address sscanf turns read s = yyparseTurns k address sscanf (left + 1)
      (read ++ front) s1 := by
  induction lexes generalizing read turns with
  | nil =>
    obtain ⟨left,rfl⟩ := Nat.exists_eq_succ_of_ne_zero (show turns ≠ 0 by omega)
    exact .inr ⟨left,by rw [List.append_nil]⟩
  | @cons s s2 s1 t rest first later ih =>
    have enough : s.input.length + 2 ≤ turns := enough.resolve_right fun none => nomatch none.1
    obtain ⟨turns,rfl⟩ := Nat.exists_eq_succ_of_ne_zero (show turns ≠ 0 by omega)
    have further : read ++ t::rest = (read ++ [t]) ++ rest := by simp
    rw [Nat.succ_eq_add_one,yyparseTurns_turn,if_neg holds.front.whole]
    by_cases short : maxNode < nodesBy read
    · rw [if_pos short]
      exact .inl ⟨Nat.lt_of_lt_of_le short nodesBy_front,rfl⟩
    · rw [if_neg short,start_viable.mpr ⟨t,rest ++ back,i,sentence⟩]
      dsimp only
      rw [first,ok_bind]
      rw [further] at holds ⊢
      refine ih _ _ (by simpa using sentence) holds ?_
      rcases yylex_input first with rfl | shorter
      · -- The end of the input is a sentence alone.
        have alone := eof_alone sentence
        have none : rest = [] := (List.append_eq_nil_iff.mp alone.2).1
        exact .inr ⟨none,by omega⟩
      · exact .inl (by omega)

theorem yyparse_sentence (address : List UInt8 → Int) {i : Input} (lexes : Lexes sscanf s ts s')
    (sentence : Start ts i) (holds : k.Holds ts) :
    yyparse k address sscanf s = if i.nodes ≤ maxNode then .ok (i.answer address,s') else .error .exit := by
  have count := nodesBy_sentence sentence
  have along := yyparseTurns_along address [] [] (s.input.length + 2)
    (by rw [List.append_nil]; exact sentence) lexes holds (.inl (Nat.le_refl _))
  rw [List.nil_append,count] at along
  rw [yyparse]
  rcases along with ⟨short,ran⟩ | ⟨left,ran⟩
  · rw [ran,if_neg (Nat.not_le.mpr short)]
  · rw [ran,yyparseTurns_turn,if_neg holds.whole,count,reads_start.phrase_iff.mp sentence]
    by_cases room : i.nodes ≤ maxNode
    · rw [if_pos room,if_neg (Nat.not_lt.mpr room)]
      dsimp only
      rw [accept_answer room,ok_bind]
    · rw [if_neg room,if_pos (Nat.not_le.mp room)]

-- Where the scanner leaves the process inside a sentence, so does yyparse.
theorem yyparse_front {front back : List Lexeme} {l : Lexeme} {i : Input} (sentence : Start (front ++ l::back) i)
    (lexes : Lexes sscanf s front s1) (holds : k.Holds front) (ended : yylex sscanf s1 = .error .exit) :
    yyparse k address sscanf s = .error .exit := by
  have along := yyparseTurns_along address [] _ (s.input.length + 2) sentence lexes holds (.inl (Nat.le_refl _))
  rw [yyparse]
  rcases along with ⟨_,ran⟩ | ⟨left,ran⟩
  · exact ran
  · rw [ran,List.nil_append,yyparseTurns_turn,if_neg holds.whole]
    split
    · rfl
    · rw [start_viable.mpr ⟨l,back,i,sentence⟩]
      dsimp only
      rw [ended]
      rfl

-- How a call of yyparse can go.
inductive Parses (k : Stack) (address : List UInt8 → Int) (sscanf : List UInt8 → List UInt8) (s : LexState) :
    Except Abort (Answer × LexState) → Prop where
  | accepted {ts : List Lexeme} {i : Input} {s' : LexState} (lexes : Lexes sscanf s ts s') (sentence : Start ts i)
      (holds : k.Holds ts)
    (room : i.nodes ≤ maxNode) : Parses k address sscanf s (.ok (i.answer address,s'))
  | syntaxError {ts : List Lexeme} {t : Lexeme} {s1 s' : LexState} (lexes : Lexes sscanf s ts s1) (viable : Viable ts)
    (last : yylex sscanf s1 = .ok (t,s')) (refused : ∀ more i, ¬ Start (ts ++ t::more) i) (holds : k.Holds (ts ++ [t]))
    (room : nodesBy (ts ++ [t]) ≤ maxNode) : Parses k address sscanf s (.ok (.syntaxError,s'))
  | exhausted {ts : List Lexeme} {s' : LexState} (lexes : Lexes sscanf s ts s') (full : k.limit ≤ k.depth ts) :
    Parses k address sscanf s (.ok (.exhausted,s'))
  | noNode {ts : List Lexeme} {s' : LexState} (lexes : Lexes sscanf s ts s') (holds : k.Holds ts)
      (short : maxNode < nodesBy ts) :
    Parses k address sscanf s (.error .exit)
  | aborted {ts : List Lexeme} {s1 : LexState} {e : Abort} (lexes : Lexes sscanf s ts s1) (viable : Viable ts)
    (last : yylex sscanf s1 = .error e) : Parses k address sscanf s (.error e)

theorem yyparseTurns_parses {s0 : LexState} {turns : Nat} (lexes : Lexes sscanf s0 read s) (viable : Viable read)
    (holds : k.Holds read)
    (room : nodesBy read ≤ maxNode) (enough : s.input.length + 2 ≤ turns) :
    Parses k address sscanf s0 (yyparseTurns k address sscanf turns read s) := by
  induction turns generalizing read s with
  | zero => exact absurd enough (by omega)
  | succ turns ih =>
    rw [yyparseTurns_turn,if_neg holds.whole,if_neg (Nat.not_lt.mpr room),start_viable.mpr viable]
    dsimp only
    cases last : yylex sscanf s with
    | error e => exact .aborted lexes viable last
    | ok made =>
      obtain ⟨t,s1⟩ := made
      have further := lexes.snoc last
      obtain ⟨turns,rfl⟩ := Nat.exists_eq_succ_of_ne_zero (show turns ≠ 0 by omega)
      rw [ok_bind]
      dsimp only
      by_cases full : k.limit ≤ k.depth (read ++ [t])
      · rw [Nat.succ_eq_add_one,yyparseTurns_turn,if_pos full]
        exact .exhausted further full
      have held := holds.snoc full
      by_cases short : maxNode < nodesBy (read ++ [t])
      · rw [Nat.succ_eq_add_one,yyparseTurns_turn,if_neg full,if_pos short]
        exact .noNode further held short
      have fits := Nat.not_lt.mp short
      cases judged : start (read ++ [t]) with
      | ok i rest =>
        obtain ⟨u,split,sentence⟩ := reads_start.ok_iff.mp judged
        -- The sentence ends with the token, for without it there was none.
        rcases List.eq_nil_or_concat rest with rfl | ⟨rest,t',rfl⟩
        · rw [List.append_nil] at split
          rw [← split] at sentence
          have nodes : i.nodes ≤ maxNode := by rw [← nodesBy_sentence sentence]; exact fits
          rw [Nat.succ_eq_add_one,yyparseTurns_turn,if_neg full,if_neg short,judged]
          dsimp only
          rw [accept_answer nodes,ok_bind]
          exact .accepted further sentence held nodes
        · rw [List.concat_eq_append,← List.append_assoc] at split
          have before := (List.append_inj' split rfl).1
          obtain ⟨t2,more,j,longer⟩ := viable
          rw [before,List.append_assoc] at longer
          exact absurd (reads_start.unique sentence longer).1 (by simp)
      | error =>
        rw [Nat.succ_eq_add_one,yyparseTurns_turn,if_neg full,if_neg short,judged]
        refine .syntaxError lexes viable last (fun more i longer => ?_) held fits
        exact (reads_start.error_iff.mp judged _ i longer).2 ⟨more,by simp⟩
      | more =>
        have further_viable := start_viable.mp judged
        refine ih further further_viable held fits ?_
        rcases yylex_input last with rfl | shorter
        · obtain ⟨t2,more,j,longer⟩ := further_viable
          rw [List.append_assoc] at longer
          exact absurd (eof_alone longer).2 (by simp)
        · omega

theorem yyparse_parses (k : Stack) (address : List UInt8 → Int) (sscanf : List UInt8 → List UInt8) (s : LexState) :
    Parses k address sscanf s (yyparse k address sscanf s) := by
  rw [yyparse]
  by_cases full : k.limit ≤ k.depth []
  · rw [yyparseTurns_turn,if_pos full]
    exact .exhausted .nil full
  · refine yyparseTurns_parses .nil ⟨.eof,[],.quit,.eof⟩ (fun w front => ?_) (Nat.zero_le _) (Nat.le_refl _)
    rw [List.prefix_nil.mp front]
    exact Nat.not_le.mp full

-- yyparse always ends, and it returns the value of a sentence exactly when the next tokens are this
-- sentence, and the stack
-- and the pool of nodes are large enough for it. Of what follows it has taken nothing.
theorem yyparse_exact (k : Stack) (address : List UInt8 → Int) (sscanf : List UInt8 → List UInt8) (s : LexState) :
    Parses k address sscanf s (yyparse k address sscanf s) ∧ ∀ a s', a ≠ .syntaxError → a ≠ .exhausted →
      (yyparse k address sscanf s = .ok (a,s') ↔
        ∃ ts i, Lexes sscanf s ts s' ∧ Start ts i ∧ i.nodes ≤ maxNode ∧ k.Holds ts ∧ a = i.answer address) := by
  have parses := yyparse_parses k address sscanf s
  refine ⟨parses,fun a s' no_error no_end => ⟨fun ran => ?_,?_⟩⟩
  · rw [ran] at parses
    generalize same : (Except.ok (a,s') : Except Abort (Answer × LexState)) = result at parses
    cases parses with
    | accepted lexes sentence holds room =>
      cases same
      exact ⟨_,_,lexes,sentence,room,holds,rfl⟩
    | syntaxError =>
      cases same
      exact absurd rfl no_error
    | exhausted =>
      cases same
      exact absurd rfl no_end
    | noNode => cases same
    | aborted => cases same
  · rintro ⟨ts,i,lexes,sentence,room,holds,rfl⟩
    rw [yyparse_sentence address lexes sentence holds,if_pos room]

end Minirel.Grammar
