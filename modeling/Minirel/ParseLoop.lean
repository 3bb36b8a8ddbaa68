import Minirel.DatabaseRuns
import Minirel.Spelling

namespace Minirel.ParseLoop
open Scan Grammar Database

-- What a process finds: the stack of the parser; sscanf for a float; for the statements one by one
-- where their strings are
-- and what interp has beside the database; what a command of the shell does to the directory; and
-- what yyrestart leaves of
-- the input, which depends on how much of it has been buffered.
structure Surroundings where
  stack : Stack
  sscanf : List UInt8 → List UInt8
  address : Nat → List UInt8 → Int
  setting : Nat → Setting
  system : List UInt8 → Db → Db
  restart : List UInt8 → List UInt8

-- parse, which new_query gives an empty charpool and pool of nodes each time; count is the number
-- of statements so far. What
-- it prints of the records is all that is kept of its output.
def parseTurns (e : Surroundings) : Nat → Nat → LexState → Interpreter → Except Abort (List (List Record) × Interpreter)
  | 0,_,_,_ => throw .diverges
  | turns+1,count,s,g => do
    let (answer,s) ← yyparse e.stack (e.address count) e.sscanf {s with scanner := {s.scanner with charptr := 0}}
    match answer with
    | .syntaxError => parseTurns e turns count {s with input := e.restart s.input} g
    | .exhausted => parseTurns e turns count s g
    | .quit => return ([],g)
    | .nothing => parseTurns e turns count s g
    | .shellCmd sval => parseTurns e turns count s {g with db := e.system sval g.db}
    | .tree none => parseTurns e turns (count + 1) s g
    | .tree (some n) => do
      let (recs,g) ← interpPrinting (e.setting count) n g
      let (shown,g) ← parseTurns e turns (count + 1) s g
      return (recs::shown,g)

-- A turn that does not leave takes a byte of the input.
def parse (e : Surroundings) (s : LexState) (g : Interpreter) : Except Abort (List (List Record) × Interpreter) :=
  parseTurns e (s.input.length + 1) 0 s g

-- main, from the objects for the catalogs to UT_Quit, with the input and what is in memory at first.
structure Process where
  surroundings : Surroundings
  input : List UInt8
  stale : Name → Int → Page
  raw : HeapFileScan

def Process.main (p : Process) (db : Db) : Except Abort (List (List Record) × Db) := do
  let (o,db) ← openObjects (db.exited p.stale p.raw)
  let (shown,g) ← parse p.surroundings ⟨.initial,p.input,⟨Vector.replicate _ 0,0⟩⟩ ⟨db,0⟩
  let db ← UT_Quit o g.db
  return (shown,db)

-- A text of statements, each with gaps where there must be some and room for its strings, its nodes and on the stack; a
-- semicolon more does no harm.
inductive Typed (limit : Nat) (sscanf : List UInt8 → List UInt8) : List Statement → List UInt8 → List UInt8 → Prop where
  | nil {rest : List UInt8} : Typed limit sscanf [] rest rest
  | cons {ls : List Lexeme} {st : Statement} {sts : List Statement} {input middle rest : List UInt8}
      (sentence : Start ls (.statement st))
    (text : Text sscanf ls input middle) (room : costs ls ≤ maxChar) (nodes : Parser.nodes st ≤ maxNode)
    (short : 2 * ls.length + 2 < limit)
    (later : Typed limit sscanf sts middle rest) : Typed limit sscanf (st::sts) input rest
  | nothing {sts : List Statement} {input middle rest : List UInt8} (text : Text sscanf [semicolon] input middle)
    (later : Typed limit sscanf sts middle rest) : Typed limit sscanf sts input rest

-- Nothing more, or quit and anything.
def Closing (sscanf : List UInt8 → List UInt8) (rest : List UInt8) : Prop :=
  Gap rest ∨ ∃ behind, Text sscanf [reserved .rwQuit,semicolon] rest behind

-- The trees of a script; a statement whose qualifiers or lists are not in order has none, and is passed over.
def script (e : Surroundings) : Nat → List Statement → List (Setting × Node)
  | _,[] => []
  | count,st::sts =>
    match Parser.tree (e.address count) st with
    | none => script e (count + 1) sts
    | some n => (e.setting count,n)::script e (count + 1) sts

def Process.script (p : Process) (sts : List Statement) :
    Invocation := ⟨ParseLoop.script p.surroundings 0 sts,p.stale,p.raw⟩

variable {k : Stack} {limit : Nat} {sscanf : List UInt8 → List UInt8} {address : List UInt8 → Int}
  {e : Surroundings} {sts : List Statement} {input middle rest : List UInt8} {ls : List Lexeme}

theorem text_length (text : Text sscanf ls input rest) : ls.length + rest.length ≤ input.length := by
  induction text with
  | nil => simp
  | @cons sep text input rest l ls gap spells apart behind ih =>
    have some_byte := List.length_pos_iff.mpr (spells_some spells)
    rw [List.length_cons,List.length_append,List.length_append]
    omega

theorem start_some {i : Input} (sentence : Start ls i) : 0 < ls.length := by
  cases sentence <;> simp

theorem typed_length (typed : Typed limit sscanf sts input rest) : rest.length ≤ input.length := by
  induction typed with
  | nil => exact Nat.le_refl _
  | cons sentence text room nodes short later ih =>
    have taken := text_length text
    omega
  | nothing text later ih =>
    have taken := text_length text
    omega

theorem yylex_end (gap : Gap rest) (scanner : Scanner) :
    yylex sscanf ⟨.initial,rest,scanner⟩ = .ok (.eof,⟨.initial,[],scanner⟩) := by
  rw [← List.append_nil rest,yylex_gap gap]
  rfl

theorem closing_quits (closing : Closing sscanf rest) {scanner : Scanner} (empty : scanner.charptr = 0)
    (usable : 6 < k.limit) :
    ∃ s, yyparse k address sscanf ⟨.initial,rest,scanner⟩ = .ok (.quit,s) := by
  rcases closing with gap | ⟨behind,text⟩
  · have holds : k.Holds [.eof] := Stack.holds_short (by simp only [List.length_singleton]; omega)
    have lexes : Lexes sscanf ⟨.initial,rest,scanner⟩ [.eof] ⟨.initial,[],scanner⟩ := .cons (yylex_end gap scanner) .nil
    exact ⟨_,(yyparse_sentence address lexes .eof holds).trans (if_pos (Nat.zero_le _))⟩
  · have room : scanner.charptr + costs [reserved .rwQuit,semicolon] ≤ maxChar := by rw [empty]; decide
    obtain ⟨scanner',_,ran⟩ := yyparse_text k address .quit text room (Nat.zero_le _) usable
    exact ⟨_,ran⟩

-- The statements of the text are what is executed, in their order.
theorem parseTurns_typed (usable : 6 < e.stack.limit) (typed : Typed e.stack.limit e.sscanf sts input rest)
    (closing : Closing e.sscanf rest) {turns : Nat} (enough : input.length + 1 ≤ turns + rest.length)
    (count : Nat) (scanner : Scanner)
    (g : Interpreter) :
    parseTurns e turns count ⟨.initial,input,scanner⟩ g = Simulation.runAll execute (script e count sts) g := by
  induction typed generalizing turns count scanner g with
  | nil =>
    obtain ⟨turns,rfl⟩ := Nat.exists_eq_succ_of_ne_zero (show turns ≠ 0 by omega)
    have empty : Scanner.charptr {scanner with charptr := 0} = 0 := rfl
    obtain ⟨s,ran⟩ := closing_quits closing empty usable
    rw [parseTurns]
    dsimp only
    rw [ran]
    rfl
  | @cons ls st sts input middle rest sentence text room nodes short later ih =>
    have left := typed_length later
    have taken := text_length text
    have some_token := start_some sentence
    obtain ⟨turns,rfl⟩ := Nat.exists_eq_succ_of_ne_zero (show turns ≠ 0 by omega)
    have enough : middle.length + 1 ≤ turns + rest.length := by omega
    have whole : Scanner.charptr {scanner with charptr := 0} + costs ls ≤ maxChar := by rw [Nat.zero_add]; exact room
    obtain ⟨scanner',_,ran⟩ := yyparse_text e.stack (e.address count) sentence text whole nodes short
    rw [parseTurns]
    dsimp only
    rw [ran,ok_bind,script]
    dsimp only [Input.answer]
    cases Parser.tree (e.address count) st with
    | none => exact ih closing enough (count + 1) scanner' g
    | some n =>
      dsimp only
      rw [Simulation.runAll,execute]
      dsimp only
      cases interpPrinting (e.setting count) n g with
      | error abort => rfl
      | ok made =>
        obtain ⟨recs,g1⟩ := made
        rw [ok_bind]
        dsimp only
        rw [ih closing enough (count + 1) scanner' g1]
        cases Simulation.runAll execute (script e (count + 1) sts) g1 <;> rfl
  | @nothing sts input middle rest text later ih =>
    have left := typed_length later
    have taken := text_length text
    rw [List.length_singleton] at taken
    obtain ⟨turns,rfl⟩ := Nat.exists_eq_succ_of_ne_zero (show turns ≠ 0 by omega)
    have enough : middle.length + 1 ≤ turns + rest.length := by omega
    have room : Scanner.charptr {scanner with charptr := 0} + costs [semicolon] ≤ maxChar :=
      show 0 + costs [semicolon] ≤ maxChar by decide
    obtain ⟨scanner',_,ran⟩ := yyparse_text e.stack (e.address count) .nothing text room (Nat.zero_le _)
      (by simp only [List.length_singleton]; omega)
    rw [parseTurns]
    dsimp only
    rw [ran,ok_bind]
    exact ih closing enough count scanner' g

theorem main_invocation {p : Process} (usable : 6 < p.surroundings.stack.limit)
    (typed : Typed p.surroundings.stack.limit p.surroundings.sscanf sts p.input rest)
    (closing : Closing p.surroundings.sscanf rest) (db : Db) :
    p.main db = (p.script sts).run db := by
  rw [Process.main,Invocation.run]
  refine bind_congr fun opened => ?_
  obtain ⟨o,db⟩ := opened
  dsimp only
  rw [parse,parseTurns_typed usable typed closing (Nat.le_add_right _ _)]
  rfl

-- What a text means is what its statements mean.
def Process.Means (D : Database) (p : Process) (answers : List (Multiset (List UInt8))) (D' : Database) : Prop :=
  6 < p.surroundings.stack.limit ∧ ∃ sts rest, Typed p.surroundings.stack.limit p.surroundings.sscanf sts p.input rest ∧
    Closing p.surroundings.sscanf rest ∧ (p.script sts).Means D answers D'

theorem main_simulates : Simulation.Simulates Process.Means Process.main AtRest (List.map answerOf) := by
  intro db D p answers D' rests means
  obtain ⟨usable,sts,rest,typed,closing,means⟩ := means
  rw [main_invocation usable typed closing]
  exact invocations_simulate db D (p.script sts) answers D' rests means

-- From the bytes that the processes are given to the tuples in the files that they leave.
theorem texts_refine_database (db0 : Db) (bare : ∀ name, db0.files name = none) (processes : List Process)
    (answers : List (List (Multiset (List UInt8)))) (D : Database)
    (means : Simulation.Script Process.Means Database.start processes answers D) :
    ∃ db1 shown db, dbcreate db0 = .ok db1 ∧ Simulation.runAll Process.main processes db1 = .ok (shown,db) ∧
      shown.map (List.map answerOf) = answers ∧ db.Shows D := by
  obtain ⟨db1,built,rests⟩ := dbcreate_rests bare
  obtain ⟨shown,db,ran,told,shelf,represents⟩ := main_simulates.runAll means rests
  exact ⟨db1,shown,db,built,ran,told,represents.shows_tables⟩

section sample

def sampleSurroundings : Surroundings := ⟨bisonStack,id,fun _ _ => 0,fun _ => sampleSetting,fun _ db => db,id⟩

-- create table r ( a int , b char ( 1 ) ) ;
def createTexts : List (List UInt8) :=
    [[99,114,101,97,116,101],[116,97,98,108,101],[114],[40],[97],[105,110,116],[44],[98],[99,104,97,114],[40],[49],
  [41],[41],[59]]

-- insert into r ( b , a ) values ( "x" , 7 ) ;
def insertTexts : List (List UInt8) :=
    [[105,110,115,101,114,116],[105,110,116,111],[114],[40],[98],[44],[97],[41],[118,97,108,117,101,115],[40],
  [34,120,34],[44],[55],[41],[59]]

def createStatement : Statement := .create [114] (.cons ([97],.int) (.one ([98],.char (.integer 1)))) none
def insertStatement : Statement := .insert [114] (.cons [98] (.one [97])) (.cons (.string [120]) (.one (.integer 7)))

theorem spells_x : Spells id [34,120,34] (.qstring [120]) := .qstring (s:=[120]) (by decide) (by decide) (by decide)

theorem create_spelled : List.Forall₂ (Spells id) createTexts (tokens createStatement ++ [semicolon]) :=
  .cons (spells_reserved (by decide +kernel)) (.cons (spells_reserved (by decide +kernel))
    (.cons (spells_named (by decide +kernel))
    (.cons (spells_char (by decide)) (.cons (spells_named (by decide +kernel))
      (.cons (spells_reserved (by decide +kernel))
    (.cons (spells_char (by decide)) (.cons (spells_named (by decide +kernel))
      (.cons (spells_reserved (by decide +kernel))
    (.cons (spells_char (by decide)) (.cons (spells_int (by decide +kernel))
      (.cons (spells_char (by decide)) (.cons (spells_char (by decide))
    (.cons (spells_char (by decide)) .nil)))))))))))))

theorem insert_spelled : List.Forall₂ (Spells id) insertTexts (tokens insertStatement ++ [semicolon]) :=
  .cons (spells_reserved (by decide +kernel)) (.cons (spells_reserved (by decide +kernel))
    (.cons (spells_named (by decide +kernel))
    (.cons (spells_char (by decide)) (.cons (spells_named (by decide +kernel)) (.cons (spells_char (by decide))
    (.cons (spells_named (by decide +kernel)) (.cons (spells_char (by decide))
      (.cons (spells_reserved (by decide +kernel))
    (.cons (spells_char (by decide))
      (.cons spells_x (.cons (spells_char (by decide)) (.cons (spells_int (by decide +kernel))
    (.cons (spells_char (by decide)) (.cons (spells_char (by decide)) .nil))))))))))))))

def fillingText : List UInt8 := line createTexts ++ (line insertTexts ++ [])
def askingText : List UInt8 := line printTexts ++ []

theorem filling_typed : Typed 10000 id [createStatement,insertStatement] fillingText [] :=
  .cons (.command (command_tokens _)) (text_line create_spelled (.inr rfl)) (by decide) (by decide) (by decide)
    (.cons (.command (command_tokens _)) (text_line insert_spelled (.inl rfl)) (by decide) (by decide) (by decide) .nil)

theorem asking_typed : Typed 10000 id [.print [114]] askingText [] :=
  .cons (.command (command_tokens _)) (text_line print_spelled (.inl rfl)) (by decide) (by decide) (by decide) .nil

theorem sample_asked_for : Stated sampleOne (sampleSetting,.print [114]) {[7,0,0,0,120]} sampleOne := by
  have there : sampleOne.tables [114] = some ⟨sampleAttrs,{[7,0,0,0,120]}⟩ := rfl
  exact ⟨by decide,.printed there (by decide)⟩

def sampleProcesses (stale : Name → Int → Page) (raw : HeapFileScan) : List Process :=
  [⟨sampleSurroundings,fillingText,stale,raw⟩,⟨sampleSurroundings,askingText,stale,raw⟩]

theorem filling_means (stale : Name → Int → Page) (raw : HeapFileScan) :
    Process.Means Database.start ⟨sampleSurroundings,fillingText,stale,raw⟩ [0,0] sampleOne := by
  have means : Simulation.Script Stated Database.start (script sampleSurroundings 0 [createStatement,insertStatement])
      [0,0] sampleOne :=
    .cons sample_created (.cons sample_first .nil)
  exact ⟨show 6 < 10000 by decide,[createStatement,insertStatement],[],filling_typed,.inl .nil,means⟩

theorem asking_means (stale : Name → Int → Page) (raw : HeapFileScan) :
    Process.Means sampleOne ⟨sampleSurroundings,askingText,stale,raw⟩ [{[7,0,0,0,120]}] sampleOne := by
  have means : Simulation.Script Stated sampleOne (script sampleSurroundings 0 [.print [114]])
      [{[7,0,0,0,120]}] sampleOne :=
    .cons sample_asked_for .nil
  exact ⟨show 6 < 10000 by decide,[.print [114]],[],asking_typed,.inl .nil,means⟩

end sample

theorem texts_refine_database_sample : ∃ db1 shown db, dbcreate emptyDirectory = .ok db1 ∧
    Simulation.runAll Process.main (sampleProcesses (fun _ _ => ByteMemory.zero 1024) emptyDirectory.raw) db1 =
      .ok (shown,db) ∧
      shown.map (List.map answerOf) = [[0,0],[{[7,0,0,0,120]}]] := by
  obtain ⟨db1,shown,db,built,ran,told,_⟩ := texts_refine_database emptyDirectory (fun _ => rfl)
    (sampleProcesses (fun _ _ => ByteMemory.zero 1024) emptyDirectory.raw) _ sampleOne
    (.cons (filling_means _ _) (.cons (asking_means _ _) .nil))
  exact ⟨db1,shown,db,built,ran,told⟩

end Minirel.ParseLoop
