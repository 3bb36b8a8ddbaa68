import Minirel.LongestMatch
import Minirel.Scan

namespace Minirel.Scan
open LongestMatch RegularExpression

-- The definitions of scan.l, over bytes.
def bytes : List UInt8 := (List.range 256).map Nat.toUInt8
def letter : RegularExpression UInt8 := oneOf ((List.range 26).map fun i => (65 + i).toUInt8) + oneOf
    ((List.range 26).map fun i => (97 + i).toUInt8)
def digit : RegularExpression UInt8 := oneOf ((List.range 10).map fun i => (48 + i).toUInt8)
def num : RegularExpression UInt8 := many digit
def sNum : RegularExpression UInt8 := (1 + oneOf [43,45]) * num

-- {s_num}\.{num}, and the same with an exponent
def fixed : RegularExpression UInt8 := sNum * char 46 * num
def scientific : RegularExpression UInt8 := fixed * oneOf [69,101] * sNum

-- ([^\"\n]|(\"\"))*
def quoted : RegularExpression UInt8 := (oneOf (bytes.filter fun c => c ≠ 34 ∧ c ≠ 10) + word [34,34]).star

-- Quotes around it, and the rule for a string that its line ends.
def closed : RegularExpression UInt8 := char 34 * quoted * char 34
def unclosed : RegularExpression UInt8 := char 34 * quoted * char 10

inductive Start where
  | initial | comment | shellCmd
  deriving DecidableEq,Repr

-- Of the messages that some actions print nothing is kept.
inductive Action where
  | ignore
  | start (state : Start)
  | int | real | qstring | newline | id
  | op (op : Operator)
  | shellCmd | char | illegal
  deriving DecidableEq,Repr

-- The rules of each start condition, in their order.
def rules : Start → List (Rule UInt8 Action)
  | .initial =>
    [⟨word [47,42],.start .comment⟩,⟨oneOf [32,10,9],.ignore⟩,⟨sNum,.int⟩,⟨fixed,.real⟩,⟨scientific,.real⟩,
      ⟨closed,.qstring⟩,⟨unclosed,.newline⟩,
     ⟨letter * (letter + digit + RegularExpression.char 95).star,.id⟩,⟨word [60],.op .lt⟩,⟨word [60,61],
       .op .lte⟩,⟨word [62],.op .gt⟩,
     ⟨word [62,61],.op .gte⟩,⟨word [61],.op .eq⟩,⟨word [33,61],.op .ne⟩,⟨word [60,62],.op .ne⟩,⟨word [33],
       .start .shellCmd⟩,
     ⟨oneOf [42,47,43,45,61,60,62,39,58,59,44,46,124,38,40,41],.char⟩,⟨oneOf (bytes.filter fun c => c ≠ 10),.illegal⟩]
  | .comment => [⟨oneOf (bytes.filter fun c => c ≠ 42),.ignore⟩,⟨word [42,47],.start .initial⟩,⟨word [42],.ignore⟩]
  | .shellCmd => [⟨(oneOf (bytes.filter fun c => c ≠ 10)).star,.shellCmd⟩,⟨word [10],.start .initial⟩]

-- A token with what yylval has for it; eof is T_EOF.
inductive Lexeme where
  | int (ival : Int)
  | real (rval : List UInt8)
  | qstring (sval : List UInt8)
  | id (token : Token)
  | op (op : Operator)
  | shellCmd (sval : List UInt8)
  | char (c : UInt8)
  | eof
  deriving DecidableEq,Repr

-- get_qstring, on yytext and yyleng. strncpy stops at a NUL, and so does whoever reads the copy.
def getQstring (qstring : List UInt8) (s : Scanner) : Except Abort (List UInt8 × Scanner) := do
  let (copy,s) ← mkString ((qstring.drop 1).take (qstring.length - 2)) s
  return (copy.takeWhile (· ≠ 0),s)

structure LexState where
  start : Start
  input : List UInt8
  scanner : Scanner

-- What an action makes of yytext, unless it goes on scanning. sscanf is the library's for a float.
def deliverLexeme (sscanf : List UInt8 → List UInt8) (yytext : List UInt8) (s : LexState) :
    Action → Except Abort (Option Lexeme × LexState)
  | .ignore | .newline | .illegal => return (none,s)
  | .start state => return (none,{s with start := state})
  | .int => return (some (.int (atoi yytext)),s)
  | .real => return (some (.real (sscanf yytext)),s)
  | .qstring => do
    let (sval,scanner) ← getQstring yytext s.scanner
    return (some (.qstring sval),{s with scanner := scanner})
  | .id => do
    let (token,scanner) ← getId yytext s.scanner
    return (some (.id token),{s with scanner := scanner})
  | .op op => return (some (.op op),s)
  | .shellCmd => return (some (.shellCmd yytext),s)
  | .char => return (yytext.head?.map .char,s)

-- One turn takes a text that a rule matches; a byte that none matches is only copied to the output.
def yylexTurns (sscanf : List UInt8 → List UInt8) : Nat → LexState → Except Abort (Lexeme × LexState)
  | 0,s => if s.input = [] then return (.eof,s) else throw .diverges
  | turns+1,s => do
    if s.input = [] then return (.eof,s)
    let some (action,yytext,rest) := longest (rules s.start) s.input | yylexTurns sscanf turns {s with input := s.input.tail}
    match ← deliverLexeme sscanf yytext {s with input := rest} action with
    | (some lexeme,s) => return (lexeme,s)
    | (none,s) => yylexTurns sscanf turns s

-- Every turn takes at least one byte of the input.
def yylex (sscanf : List UInt8 → List UInt8) (s : LexState) : Except Abort (Lexeme × LexState) :=
    yylexTurns sscanf s.input.length s

end Minirel.Scan
