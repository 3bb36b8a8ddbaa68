import Minirel.ColumnTypes
import Minirel.QuotedStrings
import Minirel.Yyparse

namespace Minirel.Scan
open LongestMatch RegularExpression Quoting

def isLetter (c : UInt8) : Bool := (65 ≤ c && c ≤ 90) || (97 ≤ c && c ≤ 122)
def isWord (c : UInt8) : Bool := isLetter c || isDigit c || c == 95
def isBlank (c : UInt8) : Bool := c == 32 || c == 10 || c == 9

def identifier : RegularExpression UInt8 := letter * (letter + digit + RegularExpression.char 95).star

theorem mem_letter {x : List UInt8} : x ∈ letter.matches' ↔ ∃ c, isLetter c = true ∧ x = [c] := by
  have known : ∀ c : UInt8, isLetter c = true ↔ 65 ≤ c.toNat ∧ c.toNat ≤ 90 ∨ 97 ≤ c.toNat ∧ c.toNat ≤ 122 := by
    intro c
    simp only [isLetter,Bool.or_eq_true,Bool.and_eq_true,decide_eq_true_iff,UInt8.le_iff_toNat_le]
    exact Iff.rfl
  have listed : ∀ (first : Nat) (c : UInt8), first + 26 ≤ 256 →
    (c ∈ (List.range 26).map (fun i => (first + i).toUInt8) ↔
      first ≤ c.toNat ∧ c.toNat < first + 26) := by
    intro first c inside
    rw [List.mem_map]
    constructor
    · rintro ⟨i,among,rfl⟩
      have below := List.mem_range.mp among
      rw [Nat.toUInt8_eq,UInt8.toNat_ofNat']
      omega
    · rintro ⟨low,high⟩
      refine ⟨c.toNat - first,List.mem_range.mpr (by omega),?_⟩
      rw [Nat.add_sub_cancel' low]
      exact UInt8.ofNat_toNat
  rw [letter,mem_add,mem_oneOf,mem_oneOf]
  constructor
  · rintro (⟨c,among,rfl⟩ | ⟨c,among,rfl⟩)
    · have place := (listed 65 c (by decide)).mp among
      exact ⟨c,(known c).mpr (by omega),rfl⟩
    · have place := (listed 97 c (by decide)).mp among
      exact ⟨c,(known c).mpr (by omega),rfl⟩
  · rintro ⟨c,judged,rfl⟩
    rcases (known c).mp judged with upper | lower
    · exact .inl ⟨c,(listed 65 c (by decide)).mpr (by omega),rfl⟩
    · exact .inr ⟨c,(listed 97 c (by decide)).mpr (by omega),rfl⟩

theorem mem_wordStar {x : List UInt8} : x ∈ (letter + digit + RegularExpression.char 95).star.matches' ↔
    ∀ c ∈ x, isWord c = true := by
  have one : ∀ y : List UInt8, y ∈ (letter + digit + RegularExpression.char 95).matches' ↔ ∃ c, isWord c = true ∧
      y = [c] := by
    intro y
    rw [mem_add,mem_add,mem_letter,mem_digit]
    constructor
    · rintro ((⟨c,judged,rfl⟩ | ⟨c,judged,rfl⟩) | other)
      · exact ⟨c,by rw [isWord,judged]; rfl,rfl⟩
      · exact ⟨c,by rw [isWord,judged,Bool.or_true]; rfl,rfl⟩
      · exact ⟨95,rfl,other⟩
    · rintro ⟨c,judged,rfl⟩
      rw [isWord,Bool.or_eq_true,Bool.or_eq_true] at judged
      rcases judged with (is_letter | is_digit) | other
      · exact .inl (.inl ⟨c,is_letter,rfl⟩)
      · exact .inl (.inr ⟨c,is_digit,rfl⟩)
      · rw [eq_of_beq other]
        exact .inr rfl
  induction x with
  | nil => exact iff_of_true (mem_star.mpr (.inl rfl)) (fun c member => absurd member List.not_mem_nil)
  | cons c x ih =>
    rw [List.forall_mem_cons,mem_star]
    constructor
    · rintro (none | ⟨a,b,_,first,rest,same⟩)
      · cases none
      · obtain ⟨d,judged,rfl⟩ := (one a).mp first
        obtain ⟨rfl,rfl⟩ := List.cons.inj same
        exact ⟨judged,ih.mp rest⟩
    · rintro ⟨judged,rest⟩
      exact .inr ⟨[c],x,List.cons_ne_nil _ _,(one _).mpr ⟨c,judged,rfl⟩,ih.mpr rest,rfl⟩

theorem mem_identifier {x : List UInt8} : x ∈ identifier.matches' ↔
    ∃ c y, isLetter c = true ∧ (∀ d ∈ y, isWord d = true) ∧ x = c::y := by
  rw [identifier,mem_mul]
  constructor
  · rintro ⟨a,y,first,rest,rfl⟩
    obtain ⟨c,judged,rfl⟩ := mem_letter.mp first
    exact ⟨c,y,judged,mem_wordStar.mp rest,rfl⟩
  · rintro ⟨c,y,judged,rest,rfl⟩
    exact ⟨[c],y,mem_letter.mpr ⟨c,judged,rfl⟩,mem_wordStar.mpr rest,rfl⟩

-- A sign or none, and digits.
structure Signed (x : List UInt8) (g ds : List UInt8) : Prop where
  sign : g = [] ∨ g = [43] ∨ g = [45]
  some_digit : ds ≠ []
  digits : ∀ c ∈ ds, isDigit c = true
  whole : x = g ++ ds

theorem signed_of {x : List UInt8} (member : x ∈ sNum.matches') : ∃ g ds, Signed x g ds := by
  obtain ⟨ds,⟨some_digit,each⟩,rfl | rfl | rfl⟩ := mem_sNum member
  · exact ⟨[],x,.inl rfl,some_digit,each,rfl⟩
  · exact ⟨[43],ds,.inr (.inl rfl),some_digit,each,rfl⟩
  · exact ⟨[45],ds,.inr (.inr rfl),some_digit,each,rfl⟩

-- What comes behind digits is not one.
def Stops (a : List UInt8) : Prop := ∀ c y, a = c::y → isDigit c = false

theorem takeWhile_digits {ds a : List UInt8} (each : ∀ c ∈ ds, isDigit c = true) (stops : Stops a) :
    (ds ++ a).takeWhile isDigit = ds := by
  rw [List.takeWhile_append_of_pos each]
  cases a with
  | nil => simp
  | cons c a =>
    rw [List.takeWhile_cons_of_neg (by rw [stops c a rfl]; exact Bool.false_ne_true),List.append_nil]

theorem digits_split {ds ds' a b : List UInt8} (each : ∀ c ∈ ds, isDigit c = true)
    (each' : ∀ c ∈ ds', isDigit c = true) (stops : Stops a)
    (stops' : Stops b) (same : ds ++ a = ds' ++ b) : ds = ds' ∧ a = b := by
  have front : ds = ds' := by
    rw [← takeWhile_digits each stops,same,takeWhile_digits each' stops']
  rw [front] at same
  exact ⟨front,List.append_cancel_left same⟩

theorem signed_split {x x' g g' ds ds' a b : List UInt8} (first : Signed x g ds) (second : Signed x' g' ds')
    (stops : Stops a) (stops' : Stops b)
    (same : x ++ a = x' ++ b) : x = x' ∧ a = b := by
  have head : ∀ {x g ds : List UInt8}, Signed x g ds → ∀ y, (x ++ y).head? = some 43 ∧ g = [43] ∨
    (x ++ y).head? = some 45 ∧ g = [45] ∨
      (x ++ y).head? ≠ some 43 ∧ (x ++ y).head? ≠ some 45 ∧ g = [] := by
    intro x g ds signed y
    rcases signed.sign with none | plus | minus
    · right; right
      obtain ⟨c,ds',rfl⟩ := List.exists_cons_of_ne_nil signed.some_digit
      have judged := signed.digits c List.mem_cons_self
      rw [signed.whole,none]
      refine ⟨?_,?_,rfl⟩
      · exact fun same => not_byte judged (b:=43) rfl (Option.some.inj same)
      · exact fun same => not_byte judged (b:=45) rfl (Option.some.inj same)
    · left
      rw [signed.whole,plus]
      exact ⟨rfl,rfl⟩
    · right; left
      rw [signed.whole,minus]
      exact ⟨rfl,rfl⟩
  have signs : g = g' := by
    have one := head first a
    have other := head second b
    rw [same] at one
    rcases one with ⟨here,rfl⟩ | ⟨here,rfl⟩ | ⟨plus,minus,rfl⟩ <;> rcases other with ⟨here',rfl⟩ | ⟨here',
      rfl⟩ | ⟨plus',minus',rfl⟩ <;> simp_all
  rw [first.whole,second.whole,signs,List.append_assoc,List.append_assoc] at same
  obtain ⟨digits,rest⟩ := digits_split first.digits second.digits stops stops' (List.append_cancel_left same)
  exact ⟨by rw [first.whole,second.whole,signs,digits],rest⟩

theorem fixed_of {x : List UInt8} (member : x ∈ fixed.matches') :
    ∃ n es, n ∈ sNum.matches' ∧ (∀ c ∈ es, isDigit c = true) ∧ x = n ++ 46::es := by
  obtain ⟨_,es,front,digits,rfl⟩ := mem_mul.mp member
  obtain ⟨n,_,signed,point,rfl⟩ := mem_mul.mp front
  obtain rfl : _ = [46] := point
  exact ⟨n,es,signed,(mem_num digits).2,by simp⟩

theorem scientific_of {x : List UInt8} (member : x ∈ scientific.matches') :
    ∃ f e n, f ∈ fixed.matches' ∧ (e = 69 ∨ e = 101) ∧ n ∈ sNum.matches' ∧ x = f ++ e::n := by
  obtain ⟨_,n,front,exponent,rfl⟩ := mem_mul.mp member
  obtain ⟨f,_,plain,letter,rfl⟩ := mem_mul.mp front
  obtain ⟨e,among,rfl⟩ := mem_oneOf.mp letter
  refine ⟨f,e,n,plain,?_,exponent,by simp⟩
  rcases List.mem_cons.mp among with rfl | among
  · exact .inl rfl
  · exact .inr (List.mem_singleton.mp among)

theorem stops_cons {c : UInt8} {y : List UInt8} (other : isDigit c = false) : Stops (c::y) := by
  rintro d z same
  rw [← (List.cons.inj same).1]
  exact other

theorem stops_nil : Stops [] := nofun

-- No number goes on as another, unless by the byte that tells.
theorem sNum_more {n x a b : List UInt8} (first : n ∈ sNum.matches') (second : x ∈ sNum.matches') (stops : Stops a)
    (stops' : Stops b)
    (same : n ++ a = x ++ b) : n = x ∧ a = b := by
  obtain ⟨g,ds,signed⟩ := signed_of first
  obtain ⟨g',ds',signed'⟩ := signed_of second
  exact signed_split signed signed' stops stops' same

theorem fixed_more {f x a b : List UInt8} (first : f ∈ fixed.matches') (second : x ∈ fixed.matches')
    (stops : Stops a) (stops' : Stops b)
    (same : f ++ a = x ++ b) : f = x ∧ a = b := by
  obtain ⟨n,es,signed,digits,rfl⟩ := fixed_of first
  obtain ⟨n',es',signed',digits',rfl⟩ := fixed_of second
  rw [List.append_assoc,List.append_assoc] at same
  obtain ⟨rfl,behind⟩ := sNum_more signed signed' (stops_cons rfl) (stops_cons rfl) same
  obtain ⟨rfl,rest⟩ := digits_split digits digits' stops stops' (List.cons.inj behind).2
  exact ⟨rfl,rest⟩

theorem fixed_not_sNum {f x a : List UInt8} (first : f ∈ fixed.matches') (second : x ∈ sNum.matches') : f ++ a ≠ x := by
  obtain ⟨n,es,signed,_,rfl⟩ := fixed_of first
  intro same
  have behind := (sNum_more (b:=[]) signed second (stops_cons (c:=46) (y:=es ++ a) rfl) stops_nil
    (by rw [List.append_nil,← same]; simp)).2
  cases behind

theorem scientific_not_fixed {f x a : List UInt8} (first : f ∈ scientific.matches') (second : x ∈ fixed.matches') :
    f ++ a ≠ x := by
  obtain ⟨g,e,n,plain,letter,_,rfl⟩ := scientific_of first
  intro same
  have other : isDigit e = false := by rcases letter with rfl | rfl <;> rfl
  have behind := (fixed_more (b:=[]) plain second (stops_cons (y:=n ++ a) other) stops_nil
    (by rw [List.append_nil,← same]; simp)).2
  cases behind

theorem scientific_not_sNum {f x a : List UInt8} (first : f ∈ scientific.matches') (second : x ∈ sNum.matches') :
    f ++ a ≠ x := by
  obtain ⟨g,e,n,plain,_,_,rfl⟩ := scientific_of first
  rw [List.append_assoc]
  exact fixed_not_sNum plain second

def StartsNumber (c : UInt8) : Prop := isDigit c = true ∨ c = 43 ∨ c = 45

theorem sNum_head {x : List UInt8} (member : x ∈ sNum.matches') : ∃ c y, x = c::y ∧ StartsNumber c := by
  obtain ⟨ds,⟨some_digit,each⟩,rfl | rfl | rfl⟩ := mem_sNum member
  · obtain ⟨c,y,rfl⟩ := List.exists_cons_of_ne_nil some_digit
    exact ⟨c,y,rfl,.inl (each c List.mem_cons_self)⟩
  · exact ⟨43,ds,rfl,.inr (.inl rfl)⟩
  · exact ⟨45,ds,rfl,.inr (.inr rfl)⟩

theorem fixed_head {x : List UInt8} (member : x ∈ fixed.matches') : ∃ c y, x = c::y ∧ StartsNumber c := by
  obtain ⟨n,es,signed,_,rfl⟩ := fixed_of member
  obtain ⟨c,y,rfl,starts⟩ := sNum_head signed
  exact ⟨c,_,rfl,starts⟩

theorem scientific_head {x : List UInt8} (member : x ∈ scientific.matches') : ∃ c y, x = c::y ∧ StartsNumber c := by
  obtain ⟨f,e,n,plain,_,_,rfl⟩ := scientific_of member
  obtain ⟨c,y,rfl,starts⟩ := fixed_head plain
  exact ⟨c,_,rfl,starts⟩

def longWords : List (List UInt8) := [[47,42],[60,61],[62,61],[33,61],[60,62]]

-- What the rules outside comments and commands can match.
inductive Shape : List UInt8 → Prop where
  | byte (c : UInt8) : Shape [c]
  | word {x : List UInt8} (among : x ∈ longWords) : Shape x
  | int {x : List UInt8} (member : x ∈ sNum.matches') : Shape x
  | fixed {x : List UInt8} (member : x ∈ fixed.matches') : Shape x
  | scientific {x : List UInt8} (member : x ∈ scientific.matches') : Shape x
  | quoted (y : List UInt8) : Shape (34::y)
  | identifier {x : List UInt8} (member : x ∈ identifier.matches') : Shape x

theorem word_shape {w x : List UInt8} (among : w ∈ longWords) (matched : x ∈ (word w).matches') : Shape x := by
  rw [mem_word.mp matched]
  exact .word among

theorem byte_shape {c : UInt8} {x : List UInt8} (matched : x ∈ (word [c]).matches') : Shape x := by
  rw [mem_word.mp matched]
  exact .byte c

theorem oneOf_shape {chars x : List UInt8} (matched : x ∈ (oneOf chars).matches') : Shape x := by
  obtain ⟨c,_,rfl⟩ := mem_oneOf.mp matched
  exact .byte c

theorem quoted_shape {e : UInt8} {x : List UInt8}
    (matched : x ∈ (RegularExpression.char 34 * quoted * RegularExpression.char e).matches') :
    Shape x := by
  obtain ⟨body,_,rfl⟩ := closed_split matched
  exact .quoted _

theorem initial_shape : ∀ r ∈ rules .initial, ∀ x, x ∈ r.pattern.matches' → Shape x := by
  simp only [rules,List.forall_mem_cons]
  exact ⟨fun _ => word_shape (by decide),fun _ => oneOf_shape,fun _ => .int,fun _ => .fixed,fun _ =>
    .scientific,fun _ => quoted_shape,
    fun _ => quoted_shape,fun _ => .identifier,fun _ => byte_shape,fun _ => word_shape (by decide),fun _ => byte_shape,
    fun _ => word_shape (by decide),fun _ => byte_shape,fun _ => word_shape (by decide),fun _ =>
      word_shape (by decide),fun _ => byte_shape,
    fun _ => oneOf_shape,fun _ => oneOf_shape,fun r member => absurd member List.not_mem_nil⟩

-- A text that a rule matches and no earlier one, and that no rule matches with what follows.
theorem find_rule {rs : List (Rule UInt8 Action)} {text : List UInt8} {r : Rule UInt8 Action} (k : Nat)
    (here : rs[k]? = some r)
    (matched : r.pattern.rmatch text = true) (before : ∀ r' ∈ rs.take k, r'.pattern.rmatch text = false) :
    rs.find? (fun r => r.pattern.rmatch text) = some r := by
  obtain ⟨inside,same⟩ := List.getElem?_eq_some_iff.mp here
  rw [List.find?_eq_some_iff_append]
  refine ⟨matched,rs.take k,rs.drop (k + 1),?_,fun r' member => ?_⟩
  · rw [← same,← List.drop_eq_getElem_cons inside,List.take_append_drop]
  · rw [before r' member]
    rfl

theorem longest_of {text rest : List UInt8} {r : Rule UInt8 Action} (k : Nat) (here : (rules .initial)[k]? = some r)
    (some_char : text ≠ [])
    (matched : r.pattern.rmatch text = true) (before : ∀ r' ∈ (rules .initial).take k, r'.pattern.rmatch text = false)
    (apart : ∀ d more, rest.head? = some d → ¬ Shape (text ++ d::more)) :
    longest (rules .initial) (text ++ rest) = some (r.action,text,rest) := by
  refine longest_eq some_char (find_rule k here matched before) fun more rest' some_more split r member =>
    Bool.eq_false_iff.mpr fun longer => ?_
  obtain ⟨d,more,rfl⟩ := List.exists_cons_of_ne_nil some_more
  rw [rmatch_iff_matches'] at longer
  exact apart d more (by rw [split]; rfl) (initial_shape r member _ longer)

def operators : List (List UInt8 × Operator) :=
    [([60],.lt),([60,61],.lte),([62],.gt),([62,61],.gte),([61],.eq),([33,61],.ne),([60,62],.ne)]

-- The bytes that the grammar has as they are.
def punctuation : List UInt8 := [40,41,44,46,59]

-- A text for a token.
inductive Spells (sscanf : List UInt8 → List UInt8) : List UInt8 → Lexeme → Prop where
  | reserved {text : List UInt8} {entry : List UInt8 × Reserved} (spelled : text ∈ identifier.matches')
      (short : text.length < maxStringLen)
    (known : (reservedWords.find? fun e => e.1 = text.map lowerCase) = some entry) : Spells sscanf text
    (.id (.reserved entry.2))
  | name {text : List UInt8} (spelled : text ∈ identifier.matches') (short : text.length < maxStringLen)
    (other : (reservedWords.find? fun e => e.1 = text.map lowerCase) = none) : Spells sscanf text (.id (.string text))
  | int {text : List UInt8} (spelled : text ∈ sNum.matches') : Spells sscanf text (.int (atoi text))
  | real {text : List UInt8} (spelled : text ∈ fixed.matches' ∨ text ∈ scientific.matches') :
      Spells sscanf text (.real (sscanf text))
  | qstring {s : List UInt8} (line : 10 ∉ s) (plain : 34 ∉ s) (text : 0 ∉ s) : Spells sscanf (enclose 34 s) (.qstring s)
  | op {text : List UInt8} {op : Operator} (among : (text,op) ∈ operators) : Spells sscanf text (.op op)
  | char {c : UInt8} (among : c ∈ punctuation) : Spells sscanf [c] (.char c)

-- The bytes with which a token may go on.
def continues : Lexeme → UInt8 → Bool
  | .id _,c => isWord c
  | .int _,c => isDigit c || c == 46
  | .real _,c => isDigit c || c == 69 || c == 101
  | .qstring _,c => c == 34
  | .op .lt,c => c == 61 || c == 62
  | .op .gt,c => c == 61
  | _,_ => false

def Apart (l : Lexeme) (rest : List UInt8) : Prop := ∀ c, rest.head? = some c → continues l c = false

def actionOf : Lexeme → Action
  | .id _ => .id
  | .int _ => .int
  | .real _ => .real
  | .qstring _ => .qstring
  | .op op => .op op
  | .char _ => .char
  | _ => .illegal

-- What a token takes of charpool.
def cost : Lexeme → Nat
  | .id (.string sval) => sval.length + 1
  | .qstring sval => sval.length + 1
  | _ => 0

variable {sscanf : List UInt8 → List UInt8} {text rest : List UInt8} {l : Lexeme}

theorem letter_no_number {c : UInt8} (judged : isLetter c = true) : ¬ StartsNumber c := by
  rintro (is_digit | rfl | rfl)
  · have low := isDigit_iff.mp is_digit
    simp only [isLetter,Bool.or_eq_true,Bool.and_eq_true,decide_eq_true_iff,UInt8.le_iff_toNat_le] at judged
    have : (65 : UInt8).toNat = 65 := rfl
    have : (97 : UInt8).toNat = 97 := rfl
    omega
  · cases judged
  · cases judged

theorem longWord_head {c : UInt8} {y : List UInt8} (among : c::y ∈ longWords) : c = 47 ∨ c = 60 ∨ c = 62 ∨ c = 33 := by
  simp only [longWords,List.mem_cons,List.cons.injEq,List.not_mem_nil,or_false] at among
  rcases among with ⟨rfl,_⟩ | ⟨rfl,_⟩ | ⟨rfl,_⟩ | ⟨rfl,_⟩ | ⟨rfl,_⟩ <;> simp

instance (c : UInt8) : Decidable (StartsNumber c) := inferInstanceAs (Decidable (_ ∨ _ ∨ _))

theorem number_no_word {c : UInt8} {y : List UInt8} (starts : StartsNumber c) : c::y ∉ longWords := by
  intro among
  rcases longWord_head among with rfl | rfl | rfl | rfl <;> exact absurd starts (by decide)

theorem letter_no_word {c : UInt8} {y : List UInt8} (judged : isLetter c = true) : c::y ∉ longWords := by
  intro among
  rcases longWord_head among with rfl | rfl | rfl | rfl <;> cases judged

-- Two bytes or more are a fixed word, a number, a literal or an identifier, and the first of them tells which.
theorem Shape.split {c : UInt8} {z : List UInt8} (longer : z ≠ []) (shape : Shape (c::z)) : c::z ∈ longWords ∨
    (StartsNumber c ∧ (c::z ∈ sNum.matches' ∨ c::z ∈ Scan.fixed.matches' ∨ c::z ∈ Scan.scientific.matches')) ∨ c = 34 ∨
    isLetter c = true ∧ ∀ e ∈ z, isWord e = true := by
  generalize same : c::z = x at shape
  cases shape with
  | byte d =>
    cases same
    exact absurd rfl longer
  | word among => exact .inl among
  | int member =>
    obtain ⟨d,y,rfl,starts⟩ := sNum_head member
    obtain ⟨rfl,rfl⟩ := List.cons.inj same
    exact .inr (.inl ⟨starts,.inl member⟩)
  | fixed member =>
    obtain ⟨d,y,rfl,starts⟩ := fixed_head member
    obtain ⟨rfl,rfl⟩ := List.cons.inj same
    exact .inr (.inl ⟨starts,.inr (.inl member)⟩)
  | scientific member =>
    obtain ⟨d,y,rfl,starts⟩ := scientific_head member
    obtain ⟨rfl,rfl⟩ := List.cons.inj same
    exact .inr (.inl ⟨starts,.inr (.inr member)⟩)
  | quoted y => exact .inr (.inr (.inl (List.cons.inj same).1))
  | identifier member =>
    obtain ⟨d,y,is_letter,words,rfl⟩ := mem_identifier.mp member
    obtain ⟨rfl,rfl⟩ := List.cons.inj same
    exact .inr (.inr (.inr ⟨is_letter,words⟩))

theorem append_cons_ne_nil (y : List UInt8) (d : UInt8) (more : List UInt8) : y ++ d::more ≠ [] := by simp

theorem longest_identifier (spelled : text ∈ identifier.matches')
    (apart : ∀ c, rest.head? = some c → isWord c = false) :
    longest (rules .initial) (text ++ rest) = some (.id,text,rest) := by
  obtain ⟨c,y,is_letter,words,rfl⟩ := mem_identifier.mp spelled
  have no_number := letter_no_number is_letter
  have before : ∀ r ∈ (rules .initial).take 7, c::y ∉ r.pattern.matches' := by
    simp only [rules,List.take_succ_cons,List.take_zero,List.forall_mem_cons]
    refine ⟨fun matched => ?_,fun matched => ?_,fun matched => ?_,fun matched => ?_,fun matched =>
      ?_,fun matched => ?_,fun matched => ?_,
      fun r member => absurd member List.not_mem_nil⟩
    · rw [(List.cons.inj (mem_word.mp matched)).1] at is_letter
      cases is_letter
    · obtain ⟨d,among,same⟩ := mem_oneOf.mp matched
      rw [(List.cons.inj same).1] at is_letter
      simp only [List.mem_cons,List.not_mem_nil,or_false] at among
      rcases among with rfl | rfl | rfl <;> cases is_letter
    · obtain ⟨d,z,same,starts⟩ := sNum_head matched
      exact no_number ((List.cons.inj same).1 ▸ starts)
    · obtain ⟨d,z,same,starts⟩ := fixed_head matched
      exact no_number ((List.cons.inj same).1 ▸ starts)
    · obtain ⟨d,z,same,starts⟩ := scientific_head matched
      exact no_number ((List.cons.inj same).1 ▸ starts)
    · obtain ⟨body,_,same⟩ := closed_split matched
      rw [(List.cons.inj same).1] at is_letter
      cases is_letter
    · obtain ⟨body,_,same⟩ := closed_split matched
      rw [(List.cons.inj same).1] at is_letter
      cases is_letter
  refine longest_of (r:=⟨identifier,.id⟩) 7 rfl (List.cons_ne_nil _ _) ((rmatch_iff_matches' _ _).mpr spelled)
    (fun r member => Bool.eq_false_iff.mpr fun matched => before r member ((rmatch_iff_matches' _ _).mp matched)) fun d
    more head shape => ?_
  rcases shape.split (append_cons_ne_nil y d more) with among | ⟨starts,_⟩ | quote | ⟨_,all⟩
  · exact letter_no_word is_letter among
  · exact no_number starts
  · rw [quote] at is_letter
    cases is_letter
  · have inside := all d (List.mem_append_right y List.mem_cons_self)
    rw [apart d head] at inside
    cases inside

-- What a number does not begin, in front of the rules for numbers.
theorem number_before {c : UInt8} {y : List UInt8} (starts : StartsNumber c) :
    ∀ r ∈ (rules .initial).take 2, c::y ∉ r.pattern.matches' := by
  simp only [rules,List.take_succ_cons,List.take_zero,List.forall_mem_cons]
  refine ⟨fun matched => ?_,fun matched => ?_,fun r member => absurd member List.not_mem_nil⟩
  · rw [(List.cons.inj (mem_word.mp matched)).1] at starts
    exact absurd starts (by decide)
  · obtain ⟨d,among,same⟩ := mem_oneOf.mp matched
    rw [(List.cons.inj same).1] at starts
    simp only [List.mem_cons,List.not_mem_nil,or_false] at among
    rcases among with rfl | rfl | rfl <;> exact absurd starts (by decide)

-- A number, when no number goes on from it.
theorem longest_number {c : UInt8} {y : List UInt8} {r : Rule UInt8 Action} (k : Nat)
    (here : (rules .initial)[k]? = some r)
    (starts : StartsNumber c) (matched : c::y ∈ r.pattern.matches')
    (before : ∀ r' ∈ (rules .initial).take k, c::y ∉ r'.pattern.matches')
    (apart : ∀ d more, rest.head? = some d → c::y ++ d::more ∉ sNum.matches' ∧ c::y ++ d::more ∉ fixed.matches' ∧
      c::y ++ d::more ∉ scientific.matches') : longest (rules .initial) (c::y ++ rest) = some (r.action,c::y,rest) := by
  refine longest_of k here (List.cons_ne_nil _ _) ((rmatch_iff_matches' _ _).mpr matched)
    (fun r member => Bool.eq_false_iff.mpr fun matched => before r member ((rmatch_iff_matches' _ _).mp matched)) fun d
    more head shape => ?_
  obtain ⟨no_int,no_fixed,no_scientific⟩ := apart d more head
  rcases shape.split (append_cons_ne_nil y d more) with among | ⟨_,int | fixed | scientific⟩ | quote | ⟨is_letter,_⟩
  · exact number_no_word starts among
  · exact no_int int
  · exact no_fixed fixed
  · exact no_scientific scientific
  · rw [quote] at starts
    exact absurd starts (by decide)
  · exact letter_no_number is_letter starts

theorem longest_int (spelled : text ∈ sNum.matches') (apart : ∀ c, rest.head? = some c → isDigit c = false ∧ c ≠ 46) :
    longest (rules .initial) (text ++ rest) = some (.int,text,rest) := by
  obtain ⟨c,y,rfl,starts⟩ := sNum_head spelled
  refine longest_number (r:=⟨sNum,.int⟩) 2 rfl starts spelled (number_before starts) fun d more head => ?_
  obtain ⟨no_digit,no_point⟩ := apart d head
  have no_fixed : ∀ z, c::y ++ d::z ∉ fixed.matches' := by
    intro z member
    obtain ⟨n,es,signed,_,same⟩ := fixed_of member
    have behind := (sNum_more spelled signed (stops_cons no_digit) (stops_cons rfl) same).2
    exact no_point (List.cons.inj behind).1
  refine ⟨fun member => ?_,no_fixed more,fun member => ?_⟩
  · have behind := (sNum_more (b:=[]) spelled member (stops_cons no_digit) stops_nil (List.append_nil _).symm).2
    cases behind
  · obtain ⟨f,e,n,plain,_,_,same⟩ := scientific_of member
    obtain ⟨m,es,signed,_,rfl⟩ := fixed_of plain
    rw [List.append_assoc] at same
    have behind := (sNum_more spelled signed (stops_cons no_digit) (stops_cons (c:=46) rfl) same).2
    exact no_point (List.cons.inj behind).1

theorem longest_fixed (spelled : text ∈ fixed.matches')
    (apart : ∀ c, rest.head? = some c → isDigit c = false ∧ c ≠ 69 ∧ c ≠ 101) :
    longest (rules .initial) (text ++ rest) = some (.real,text,rest) := by
  obtain ⟨c,y,rfl,starts⟩ := fixed_head spelled
  have before : ∀ r ∈ (rules .initial).take 3, c::y ∉ r.pattern.matches' := by
    rw [show (rules .initial).take 3 = (rules .initial).take 2 ++ [⟨sNum,.int⟩] from rfl,List.forall_mem_append]
    refine ⟨number_before starts,List.forall_mem_singleton.mpr fun matched => ?_⟩
    exact fixed_not_sNum (a:=[]) spelled matched (List.append_nil _)
  refine longest_number (r:=⟨fixed,.real⟩) 3 rfl starts spelled before fun d more head => ?_
  obtain ⟨no_digit,no_upper,no_lower⟩ := apart d head
  refine ⟨fun member => fixed_not_sNum spelled member rfl,fun member => ?_,fun member => ?_⟩
  · have behind := (fixed_more (b:=[]) spelled member (stops_cons no_digit) stops_nil (List.append_nil _).symm).2
    cases behind
  · obtain ⟨f,e,n,plain,letter,_,same⟩ := scientific_of member
    have other : isDigit e = false := by rcases letter with rfl | rfl <;> rfl
    have behind := (fixed_more spelled plain (stops_cons no_digit) (stops_cons other) same).2
    rcases letter with rfl | rfl
    · exact no_upper (List.cons.inj behind).1
    · exact no_lower (List.cons.inj behind).1

theorem longest_scientific (spelled : text ∈ scientific.matches')
    (apart : ∀ c, rest.head? = some c → isDigit c = false) :
    longest (rules .initial) (text ++ rest) = some (.real,text,rest) := by
  obtain ⟨c,y,rfl,starts⟩ := scientific_head spelled
  have before : ∀ r ∈ (rules .initial).take 4, c::y ∉ r.pattern.matches' := by
    rw [show (rules .initial).take 4 = (rules .initial).take 2 ++ [⟨sNum,.int⟩,⟨fixed,.real⟩] from rfl,
      List.forall_mem_append]
    refine ⟨number_before starts,List.forall_mem_cons.mpr
      ⟨fun matched => ?_,List.forall_mem_singleton.mpr fun matched => ?_⟩⟩
    · exact scientific_not_sNum (a:=[]) spelled matched (List.append_nil _)
    · exact scientific_not_fixed (a:=[]) spelled matched (List.append_nil _)
  refine longest_number (r:=⟨scientific,.real⟩) 4 rfl starts spelled before fun d more head => ?_
  refine ⟨fun member => scientific_not_sNum spelled member rfl,fun member => scientific_not_fixed spelled member rfl,
    fun member => ?_⟩
  obtain ⟨f,e,n,plain,letter,exponent,same⟩ := scientific_of spelled
  obtain ⟨f',e',n',plain',letter',exponent',same'⟩ := scientific_of member
  have other : isDigit e = false := by rcases letter with rfl | rfl <;> rfl
  have other' : isDigit e' = false := by rcases letter' with rfl | rfl <;> rfl
  rw [same,List.append_assoc] at same'
  have behind := (fixed_more plain plain' (stops_cons (y:=n ++ d::more) other) (stops_cons other') same').2
  have rest := (sNum_more (b:=[]) exponent exponent' (stops_cons (apart d head)) stops_nil
    (by rw [List.append_nil]; exact (List.cons.inj behind).2)).2
  cases rest

-- The texts that have a rule of their own.
theorem longest_own {c : UInt8} {y : List UInt8} {r : Rule UInt8 Action} (k : Nat)
    (here : (rules .initial)[k]? = some r)
    (matched : r.pattern.rmatch (c::y) = true) (before : ∀ r' ∈ (rules .initial).take k, r'.pattern.rmatch (c::y) =
      false)
    (other : ¬ StartsNumber c ∧ c ≠ 34 ∧ isLetter c = false) (apart : ∀ d more, rest.head? = some d →
      c::y ++ d::more ∉ longWords) :
    longest (rules .initial) (c::y ++ rest) = some (r.action,c::y,rest) := by
  refine longest_of k here (List.cons_ne_nil _ _) matched before fun d more head shape => ?_
  rcases shape.split (append_cons_ne_nil y d more) with among | ⟨starts,_⟩ | quote | ⟨is_letter,_⟩
  · exact apart d more head among
  · exact other.1 starts
  · exact other.2.1 quote
  · rw [other.2.2] at is_letter
    cases is_letter

theorem longWord_two {c d : UInt8} {more : List UInt8} (among : c::d::more ∈ longWords) :
    (c = 47 ∧ d = 42) ∨ (c = 60 ∧ d = 61) ∨ (c = 62 ∧ d = 61) ∨ (c = 33 ∧ d = 61) ∨ (c = 60 ∧ d = 62) := by
  simp only [longWords,List.mem_cons,List.cons.injEq,List.not_mem_nil,or_false] at among
  rcases among with ⟨rfl,rfl,_⟩ | ⟨rfl,rfl,_⟩ | ⟨rfl,rfl,_⟩ | ⟨rfl,rfl,_⟩ | ⟨rfl,rfl,_⟩ <;> simp

theorem longWord_short {c d e : UInt8} {more : List UInt8} : c::d::e::more ∉ longWords := by
  simp [longWords]

-- A character on its own that begins none of the longer operators and comments.
theorem longest_single {c : UInt8} {r : Rule UInt8 Action} (k : Nat) (here : (rules .initial)[k]? = some r)
    (matched : r.pattern.rmatch [c] = true)
    (before : ∀ r' ∈ (rules .initial).take k, r'.pattern.rmatch [c] = false) (other : ¬ StartsNumber c ∧
      c ≠ 34 ∧ isLetter c = false)
    (apart : c ≠ 47 ∧ c ≠ 60 ∧ c ≠ 62 ∧ c ≠ 33) : longest (rules .initial) (c::rest) = some (r.action,[c],rest) := by
  refine longest_own k here matched before other fun d more head among => ?_
  rcases longWord_head among with same | same | same | same
  · exact apart.1 same
  · exact apart.2.1 same
  · exact apart.2.2.1 same
  · exact apart.2.2.2 same

theorem longest_op {op : Operator} (among : (text,op) ∈ operators) (apart : Scan.Apart (.op op) rest) :
    longest (rules .initial) (text ++ rest) = some (.op op,text,rest) := by
  simp only [operators,List.mem_cons,Prod.mk.injEq,List.not_mem_nil,or_false] at among
  rcases among with ⟨rfl,rfl⟩ | ⟨rfl,rfl⟩ | ⟨rfl,rfl⟩ | ⟨rfl,rfl⟩ | ⟨rfl,rfl⟩ | ⟨rfl,rfl⟩ | ⟨rfl,rfl⟩
  · refine longest_own (r:=⟨word [60],.op .lt⟩) 8 rfl (by decide +kernel) (by decide +kernel)
      (by decide) fun d more head among => ?_
    have no := apart d head
    rcases longWord_two among with ⟨same,_⟩ | ⟨_,rfl⟩ | ⟨same,_⟩ | ⟨same,_⟩ | ⟨_,rfl⟩ <;>
      first | cases no | exact absurd same (by decide)
  · exact longest_own (r:=⟨word [60,61],.op .lte⟩) 9 rfl (by decide +kernel) (by decide +kernel)
      (by decide) fun d more head => longWord_short
  · refine longest_own (r:=⟨word [62],.op .gt⟩) 10 rfl (by decide +kernel) (by decide +kernel)
      (by decide) fun d more head among => ?_
    have no := apart d head
    rcases longWord_two among with ⟨same,_⟩ | ⟨same,_⟩ | ⟨_,rfl⟩ | ⟨same,_⟩ | ⟨same,_⟩ <;>
      first | cases no | exact absurd same (by decide)
  · exact longest_own (r:=⟨word [62,61],.op .gte⟩) 11 rfl (by decide +kernel) (by decide +kernel)
      (by decide) fun d more head => longWord_short
  · exact longest_single (r:=⟨word [61],.op .eq⟩) 12 rfl (by decide +kernel) (by decide +kernel) (by decide) (by decide)
  · exact longest_own (r:=⟨word [33,61],.op .ne⟩) 13 rfl (by decide +kernel) (by decide +kernel)
      (by decide) fun d more head => longWord_short
  · exact longest_own (r:=⟨word [60,62],.op .ne⟩) 14 rfl (by decide +kernel) (by decide +kernel)
      (by decide) fun d more head => longWord_short

def charRule : Rule UInt8 Action := ⟨oneOf [42,47,43,45,61,60,62,39,58,59,44,46,124,38,40,41],.char⟩

theorem longest_char {c : UInt8} (among : c ∈ punctuation) :
    longest (rules .initial) ([c] ++ rest) = some (.char,[c],rest) := by
  have judged : ∀ c ∈ punctuation, charRule.pattern.rmatch [c] = true ∧
    (∀ r' ∈ (rules .initial).take 16, r'.pattern.rmatch [c] = false) ∧
      (¬ StartsNumber c ∧ c ≠ 34 ∧ isLetter c = false) ∧ c ≠ 47 ∧ c ≠ 60 ∧ c ≠ 62 ∧ c ≠ 33 := by decide +kernel
  obtain ⟨matched,before,other,apart⟩ := judged c among
  exact longest_single (r:=charRule) 16 rfl matched before other apart

theorem longest_blank {c : UInt8} (blank : isBlank c = true) :
    longest (rules .initial) (c::rest) = some (.ignore,[c],rest) := by
  have judged : ∀ c ∈ [(32 : UInt8),10,9], (oneOf [32,10,9]).rmatch [c] = true ∧
    (∀ r' ∈ (rules .initial).take 1, r'.pattern.rmatch [c] = false) ∧
      (¬ StartsNumber c ∧ c ≠ 34 ∧ isLetter c = false) ∧ c ≠ 47 ∧ c ≠ 60 ∧ c ≠ 62 ∧ c ≠ 33 := by decide +kernel
  have among : c ∈ [(32 : UInt8),10,9] := by
    simp only [isBlank,Bool.or_eq_true,beq_iff_eq] at blank
    simp only [List.mem_cons,List.not_mem_nil,or_false]
    exact or_assoc.mp blank
  obtain ⟨matched,before,other,apart⟩ := judged c among
  exact longest_single (r:=⟨oneOf [32,10,9],.ignore⟩) 1 rfl matched before other apart

theorem longest_open : longest (rules .initial) ([47,42] ++ rest) = some (.start .comment,[47,42],rest) :=
  longest_own (r:=⟨word [47,42],.start .comment⟩) 0 rfl (by decide +kernel) (by decide +kernel)
    (by decide) fun d more head => longWord_short

theorem comment_matches : ∀ r ∈ rules .comment, ∀ x, x ∈ r.pattern.matches' → (∃ c, x = [c]) ∨ x = [42,47] := by
  intro r member x matched
  simp only [rules,List.mem_cons,List.not_mem_nil,or_false] at member
  rcases member with rfl | rfl | rfl
  · obtain ⟨c,_,same⟩ := mem_oneOf.mp matched
    exact .inl ⟨c,same⟩
  · exact .inr (mem_word.mp matched)
  · exact .inl ⟨42,mem_word.mp matched⟩

theorem longest_close : longest (rules .comment) ([42,47] ++ rest) = some (.start .initial,[42,47],rest) := by
  have found : (rules .comment).find? (fun r => r.pattern.rmatch [42,47]) = some ⟨word [42,47],.start .initial⟩ :=
    find_rule 1 rfl (by decide +kernel) (by decide +kernel)
  refine longest_eq (List.cons_ne_nil _ _) found fun more rest' some_more split r member =>
    Bool.eq_false_iff.mpr fun longer => ?_
  rcases comment_matches r member _ ((rmatch_iff_matches' _ _).mp longer) with ⟨d,same⟩ | same
  · cases same
  · exact some_more (List.append_right_eq_self.mp same)

-- A comment goes on to the first asterisk with a slash behind it.
theorem longest_inside {c : UInt8} (apart : ¬ [42,47] <+: c::rest) :
    longest (rules .comment) (c::rest) = some (.ignore,[c],rest) := by
  have none_longer : ∀ more rest', more ≠ [] → rest = more ++ rest' →
      ∀ r ∈ rules .comment, r.pattern.rmatch ([c] ++ more) = false := by
    intro more rest' some_more split r member
    refine Bool.eq_false_iff.mpr fun longer => ?_
    rcases comment_matches r member _ ((rmatch_iff_matches' _ _).mp longer) with ⟨d,same⟩ | same
    · exact some_more (List.cons.inj same).2
    · obtain ⟨rfl,slash⟩ := List.cons.inj same
      have slash : more = [47] := slash
      exact apart ⟨rest',by rw [split,slash]; rfl⟩
  by_cases star : c = 42
  · subst star
    exact longest_eq (r:=⟨word [42],.ignore⟩) (List.cons_ne_nil _ _)
      (find_rule 2 rfl (by decide +kernel) (by decide +kernel)) none_longer
  · have matched : (oneOf (bytes.filter fun c => c ≠ 42)).rmatch [c] = true :=
      (rmatch_iff_matches' _ _).mpr (mem_oneOf.mpr ⟨c,List.mem_filter.mpr ⟨mem_bytes c,decide_eq_true star⟩,rfl⟩)
    exact longest_eq (r:=⟨oneOf (bytes.filter fun c => c ≠ 42),.ignore⟩) (List.cons_ne_nil _ _)
      (find_rule 0 rfl matched nofun) none_longer

-- Whatever the scanner does not take for the end of a token ends it.
theorem longest_spelled (spells : Spells sscanf text l) (apart : Scan.Apart l rest) :
    longest (rules .initial) (text ++ rest) = some (actionOf l,text,rest) := by
  cases spells with
  | reserved spelled _ _ => exact longest_identifier spelled apart
  | name spelled _ _ => exact longest_identifier spelled apart
  | int spelled =>
    refine longest_int spelled fun c head => ?_
    have no := apart c head
    rw [continues,Bool.or_eq_false_iff] at no
    exact ⟨no.1,beq_eq_false_iff_ne.mp no.2⟩
  | real spelled =>
    have no : ∀ c, rest.head? = some c → isDigit c = false ∧ c ≠ 69 ∧ c ≠ 101 := by
      intro c head
      have no := apart c head
      rw [continues,Bool.or_eq_false_iff,Bool.or_eq_false_iff] at no
      exact ⟨no.1.1,beq_eq_false_iff_ne.mp no.1.2,beq_eq_false_iff_ne.mp no.2⟩
    rcases spelled with plain | exponent
    · exact longest_fixed plain no
    · exact longest_scientific exponent fun c head => (no c head).1
  | qstring line plain _ =>
    refine longest_enclose line fun head => ?_
    have no := apart 34 head
    cases no
  | op among => exact longest_op among apart
  | char among => exact longest_char among

theorem word_text (spelled : text ∈ identifier.matches') : 0 ∉ text := by
  obtain ⟨c,y,is_letter,words,rfl⟩ := mem_identifier.mp spelled
  intro nul
  rcases List.mem_cons.mp nul with same | inside
  · rw [← same] at is_letter
    cases is_letter
  · exact absurd (words 0 inside) (by decide)

theorem getId_reserved {s : Name} (short : s.length < maxStringLen) (text : 0 ∉ s) {entry : List UInt8 × Reserved}
    (known : (reservedWords.find? fun e => e.1 = s.map lowerCase) = some entry) (scanner : Scanner) :
    ∃ scanner', getId s scanner = .ok (.reserved entry.2,scanner') ∧ scanner'.charptr = scanner.charptr := by
  obtain ⟨string,written,delivered⟩ := getId_short short scanner
  refine ⟨{scanner with string := string},?_,rfl⟩
  rw [delivered,deliver,lower_text text written,known]

theorem getId_other {s : Name} (short : s.length < maxStringLen) (text : 0 ∉ s)
    (other : (reservedWords.find? fun e => e.1 = s.map lowerCase) = none) (scanner : Scanner) :
    ∃ scanner', scanner'.charptr = scanner.charptr + (s.length + 1) ∧
      getId s scanner = if scanner.charptr + (s.length + 1) ≤ maxChar then .ok (.string s,scanner') else .error
        .exit := by
  obtain ⟨string,written,delivered⟩ := getId_short short scanner
  refine ⟨{string := string,charptr := scanner.charptr + (s.length + 1)},rfl,?_⟩
  rw [delivered,deliver,lower_text text written,other]
  dsimp only
  rw [mkString,stringAlloc]
  by_cases room : scanner.charptr + (s.length + 1) ≤ maxChar
  · rw [if_neg (Nat.not_lt.mpr room),if_pos room]
    rfl
  · rw [if_pos (Nat.not_le.mp room),if_neg room]
    rfl

theorem deliver_spelled (spells : Spells sscanf text l) {s : LexState} (room : s.scanner.charptr + cost l ≤ maxChar) :
    ∃ scanner', scanner'.charptr = s.scanner.charptr + cost l ∧
      deliverLexeme sscanf text s (actionOf l) = .ok (some l,{s with scanner := scanner'}) := by
  cases spells with
  | reserved spelled short known =>
    obtain ⟨scanner',ran,same⟩ := getId_reserved short (word_text spelled) known s.scanner
    refine ⟨scanner',same,?_⟩
    dsimp only [actionOf,deliverLexeme]
    rw [ran,ok_bind]
    rfl
  | name spelled short other =>
    obtain ⟨scanner',same,ran⟩ := getId_other short (word_text spelled) other s.scanner
    have room : s.scanner.charptr + (text.length + 1) ≤ maxChar := room
    refine ⟨scanner',same,?_⟩
    dsimp only [actionOf,deliverLexeme]
    rw [ran,if_pos room,ok_bind]
    rfl
  | int spelled => exact ⟨_,rfl,rfl⟩
  | real spelled => exact ⟨_,rfl,rfl⟩
  | @qstring sval line plain text =>
    have whole : doubled 34 sval = sval := doubled_eq_self_iff.mpr plain
    have fits : ¬ s.scanner.charptr + ((doubled 34 sval).length + 1) > maxChar := by
      rw [whole]
      exact Nat.not_lt.mpr room
    have read : (doubled 34 sval).takeWhile (· ≠ 0) = sval := by
      rw [whole,List.takeWhile_eq_self_iff]
      intro c member
      exact decide_eq_true fun nul => text (nul ▸ member)
    refine ⟨{s.scanner with charptr := s.scanner.charptr + ((doubled 34 sval).length + 1)},by rw [whole]; rfl,?_⟩
    dsimp only [actionOf,deliverLexeme]
    rw [getQstring_enclose,if_neg fits,ok_bind,read]
    rfl
  | op among => exact ⟨_,rfl,rfl⟩
  | char among => exact ⟨_,rfl,rfl⟩

-- More turns than there are bytes make no difference.
theorem yylexTurns_enough {n m : Nat} {s : LexState} (short : s.input.length ≤ n) (less : n ≤ m) :
    yylexTurns sscanf n s = yylexTurns sscanf m s := by
  induction n generalizing m s with
  | zero =>
    have ended := List.length_eq_zero_iff.mp (Nat.le_zero.mp short)
    cases m with
    | zero => rfl
    | succ m => rw [yylexTurns,yylexTurns,if_pos ended,if_pos ended]
  | succ n ih =>
    obtain ⟨m,rfl⟩ := Nat.exists_eq_succ_of_ne_zero (Nat.ne_zero_of_lt less)
    have less := Nat.le_of_succ_le_succ less
    rw [yylexTurns,yylexTurns]
    split
    · rfl
    · rename_i some_byte
      have positive := List.length_pos_iff.mpr some_byte
      cases found : longest (rules s.start) s.input with
      | none =>
        exact ih (by rw [List.length_tail]; omega) less
      | some hit =>
        obtain ⟨action,yytext,rest⟩ := hit
        have taken : rest.length < s.input.length := Grammar.longestUpTo_shorter (Nat.le_refl _) found
        dsimp only
        cases delivered : deliverLexeme sscanf yytext {s with input := rest} action with
        | error e => rfl
        | ok made =>
          obtain ⟨l,s1⟩ := made
          have left := Grammar.deliver_input delivered
          cases l with
          | some l => rfl
          | none => exact ih (by rw [left]; dsimp only; omega) less

-- What the scanner goes on behind.
theorem yylex_ignored {s s1 : LexState} {action : Action}
    (found : longest (rules s.start) s.input = some (action,text,rest))
    (delivered : deliverLexeme sscanf text {s with input := rest} action = .ok (none,s1)) : yylex sscanf s =
    yylex sscanf s1 := by
  have taken : rest.length < s.input.length := Grammar.longestUpTo_shorter (Nat.le_refl _) found
  have left : s1.input = rest := Grammar.deliver_input delivered
  have some_byte : s.input ≠ [] := List.ne_nil_of_length_pos (Nat.zero_lt_of_lt taken)
  obtain ⟨turns,length⟩ := Nat.exists_eq_succ_of_ne_zero (Nat.ne_zero_of_lt taken)
  rw [yylex,yylex,length,yylexTurns,if_neg some_byte,found]
  dsimp only
  rw [delivered]
  exact (yylexTurns_enough (Nat.le_refl _) (by rw [left]; omega)).symm

-- Blanks and comments.
inductive Gap : List UInt8 → Prop where
  | nil : Gap []
  | blank {c : UInt8} {gap : List UInt8} (is_blank : isBlank c = true) (more : Gap gap) : Gap (c::gap)
  | comment {body gap : List UInt8} (goes_on : ¬ [42,47] <:+: body) (more : Gap gap) :
      Gap ([47,42] ++ body ++ [42,47] ++ gap)

theorem yylex_comment {body input : List UInt8} (goes_on : ¬ [42,47] <:+: body) (scanner : Scanner) :
    yylex sscanf ⟨.comment,body ++ ([42,47] ++ input),scanner⟩ = yylex sscanf ⟨.initial,input,scanner⟩ := by
  induction body with
  | nil => exact yylex_ignored longest_close rfl
  | cons c body ih =>
    have apart : ¬ [42,47] <+: c::(body ++ ([42,47] ++ input)) := by
      rintro ⟨behind,split⟩
      obtain ⟨rfl,slash⟩ := List.cons.inj split
      cases body with
      | nil => exact absurd (List.cons.inj slash).1 (by decide)
      | cons d body =>
        obtain ⟨rfl,_⟩ := List.cons.inj slash
        exact goes_on ⟨[],body,rfl⟩
    exact (yylex_ignored (longest_inside apart) rfl).trans (ih fun inside => goes_on (List.infix_cons inside))

theorem yylex_gap {sep input : List UInt8} (gap : Gap sep) (scanner : Scanner) :
    yylex sscanf ⟨.initial,sep ++ input,scanner⟩ = yylex sscanf ⟨.initial,input,scanner⟩ := by
  induction gap with
  | nil => rfl
  | blank is_blank more ih => exact (yylex_ignored (longest_blank is_blank) rfl).trans ih
  | @comment body gap goes_on more ih =>
    have written : [47,42] ++ body ++ [42,47] ++ gap ++ input = [47,42] ++ (body ++ ([42,47] ++ (gap ++ input))) := by
      simp
    rw [written]
    exact (yylex_ignored longest_open rfl).trans ((yylex_comment goes_on scanner).trans ih)

theorem spells_some (spells : Spells sscanf text l) : text ≠ [] := by
  cases spells with
  | reserved spelled _ _ =>
    obtain ⟨c,y,_,_,rfl⟩ := mem_identifier.mp spelled
    exact List.cons_ne_nil _ _
  | name spelled _ _ =>
    obtain ⟨c,y,_,_,rfl⟩ := mem_identifier.mp spelled
    exact List.cons_ne_nil _ _
  | int spelled =>
    obtain ⟨c,y,rfl,_⟩ := sNum_head spelled
    exact List.cons_ne_nil _ _
  | real spelled =>
    rcases spelled with plain | exponent
    · obtain ⟨c,y,rfl,_⟩ := fixed_head plain
      exact List.cons_ne_nil _ _
    · obtain ⟨c,y,rfl,_⟩ := scientific_head exponent
      exact List.cons_ne_nil _ _
  | qstring => exact List.cons_ne_nil _ _
  | op among =>
    rintro rfl
    simp [operators] at among
  | char among => exact List.cons_ne_nil _ _

-- The gap is passed over, and the token behind it is delivered.
theorem yylex_token {sep : List UInt8} (gap : Gap sep) (spells : Spells sscanf text l) (apart : Scan.Apart l rest)
    (scanner : Scanner) :
    (∀ l' s', deliverLexeme sscanf text ⟨.initial,rest,scanner⟩ (actionOf l) = .ok (some l',s') →
      yylex sscanf ⟨.initial,sep ++ text ++ rest,scanner⟩ = .ok (l',s')) ∧
    ∀ e, deliverLexeme sscanf text ⟨.initial,rest,scanner⟩ (actionOf l) = .error e →
      yylex sscanf ⟨.initial,sep ++ text ++ rest,scanner⟩ = .error e := by
  have some_byte : text ++ rest ≠ [] := List.append_ne_nil_of_left_ne_nil (spells_some spells) rest
  obtain ⟨turns,length⟩ := Nat.exists_eq_succ_of_ne_zero fun zero => some_byte (List.length_eq_zero_iff.mp zero)
  rw [List.append_assoc,yylex_gap gap,yylex,length,yylexTurns,if_neg some_byte]
  dsimp only
  rw [longest_spelled spells apart]
  constructor
  · intro l' s' delivered
    dsimp only
    rw [delivered]
    rfl
  · intro e delivered
    dsimp only
    rw [delivered]
    rfl

theorem yylex_spelled {sep : List UInt8} {scanner : Scanner} (gap : Gap sep) (spells : Spells sscanf text l)
    (apart : Scan.Apart l rest) (room : scanner.charptr + cost l ≤ maxChar) : ∃ scanner', scanner'.charptr =
    scanner.charptr + cost l ∧
      yylex sscanf ⟨.initial,sep ++ text ++ rest,scanner⟩ = .ok (l,⟨.initial,rest,scanner'⟩) := by
  obtain ⟨scanner',count,delivered⟩ := deliver_spelled spells (s:=⟨.initial,rest,scanner⟩) room
  exact ⟨scanner',count,(yylex_token gap spells apart scanner).1 _ _ delivered⟩

theorem deliver_full (spells : Spells sscanf text l) {s : LexState} (below : s.scanner.charptr ≤ maxChar)
    (full : ¬ s.scanner.charptr + cost l ≤ maxChar) :
    deliverLexeme sscanf text s (actionOf l) = .error .exit := by
  cases spells with
  | name spelled short other =>
    obtain ⟨_,_,ran⟩ := getId_other short (word_text spelled) other s.scanner
    have none_left : ¬ s.scanner.charptr + (text.length + 1) ≤ maxChar := full
    dsimp only [actionOf,deliverLexeme]
    rw [ran,if_neg none_left]
    rfl
  | @qstring sval line plain text =>
    have whole : doubled 34 sval = sval := doubled_eq_self_iff.mpr plain
    dsimp only [actionOf,deliverLexeme]
    rw [getQstring_enclose,if_pos (by rw [whole]; exact Nat.not_le.mp full)]
    rfl
  | _ => exact absurd below full

theorem yylex_full {sep : List UInt8} {scanner : Scanner} (gap : Gap sep) (spells : Spells sscanf text l)
    (apart : Scan.Apart l rest) (below : scanner.charptr ≤ maxChar) (full : ¬ scanner.charptr + cost l ≤ maxChar) :
    yylex sscanf ⟨.initial,sep ++ text ++ rest,scanner⟩ = .error .exit := by
  have delivered := deliver_full spells (s:=⟨.initial,rest,scanner⟩) below full
  exact (yylex_token gap spells apart scanner).2 _ delivered

end Minirel.Scan

namespace Minirel.Grammar
open Scan

-- A text for some tokens, with a gap in front of each, and the text behind them.
inductive Text (sscanf : List UInt8 → List UInt8) : List Lexeme → List UInt8 → List UInt8 → Prop where
  | nil {rest : List UInt8} : Text sscanf [] rest rest
  | cons {sep text input rest : List UInt8} {l : Lexeme} {ls : List Lexeme} (gap : Gap sep)
      (spells : Spells sscanf text l)
    (apart : Scan.Apart l input) (behind : Text sscanf ls input rest) : Text sscanf (l::ls) (sep ++ text ++ input) rest

def costs (ls : List Lexeme) : Nat := (ls.map cost).sum

variable {sscanf : List UInt8 → List UInt8} {ls : List Lexeme} {input rest : List UInt8}

theorem Text.lexes {scanner : Scanner} (text : Text sscanf ls input rest)
    (room : scanner.charptr + costs ls ≤ maxChar) :
    ∃ scanner', scanner'.charptr = scanner.charptr + costs ls ∧
      Lexes sscanf ⟨.initial,input,scanner⟩ ls ⟨.initial,rest,scanner'⟩ := by
  induction text generalizing scanner with
  | nil => exact ⟨scanner,rfl,.nil⟩
  | @cons sep text input rest l ls gap spells apart behind ih =>
    rw [costs,List.map_cons,List.sum_cons] at room ⊢
    obtain ⟨scanner1,count,first⟩ := yylex_spelled gap spells apart (show scanner.charptr + cost l ≤ maxChar by omega)
    have left : scanner1.charptr + costs ls ≤ maxChar := by rw [count,costs]; omega
    obtain ⟨scanner2,count',later⟩ := ih left
    refine ⟨scanner2,?_,.cons first later⟩
    rw [count',count,costs]
    omega

-- A statement that is written out is read back, and nothing behind it.
theorem yyparse_text (k : Stack) (address : List UInt8 → Int) {i : Input} {scanner : Scanner} (sentence : Start ls i)
    (text : Text sscanf ls input rest) (room : scanner.charptr + costs ls ≤ maxChar) (nodes : i.nodes ≤ maxNode)
    (short : 2 * ls.length + 2 < k.limit) : ∃ scanner', scanner'.charptr = scanner.charptr + costs ls ∧
      yyparse k address sscanf ⟨.initial,input,scanner⟩ = .ok (i.answer address,⟨.initial,rest,scanner'⟩) := by
  obtain ⟨scanner',count,lexes⟩ := text.lexes room
  exact ⟨scanner',count,by rw [yyparse_sentence address lexes sentence (Stack.holds_short short),if_pos nodes]⟩

-- One blank in front of each token is enough.
def line (texts : List (List UInt8)) : List UInt8 := texts.flatMap fun text => 32::text

theorem apart_blank {l : Lexeme} {input : List UInt8} (next : input = [] ∨ input.head? = some 32) :
    Scan.Apart l input := by
  intro c head
  rcases next with rfl | blank
  · cases head
  · rw [blank] at head
    cases head
    cases l with
    | op o => cases o <;> rfl
    | _ => rfl

theorem text_line {texts : List (List UInt8)} (spelled : List.Forall₂ (Spells sscanf) texts ls)
    (next : rest = [] ∨ rest.head? = some 32) :
    Text sscanf ls (line texts ++ rest) rest := by
  induction spelled with
  | nil => exact .nil
  | @cons text l texts ls spells later ih =>
    have behind : line texts ++ rest = [] ∨ (line texts ++ rest).head? = some 32 := by
      cases texts with
      | nil => exact next
      | cons text texts => exact .inr rfl
    have written : line (text::texts) ++ rest = [32] ++ text ++ (line texts ++ rest) := by
      rw [line,List.flatMap_cons,List.append_assoc]
      rfl
    rw [written]
    exact .cons (.blank rfl .nil) spells (apart_blank behind) ih

-- The token that charpool has no place for.
theorem Text.full {scanner : Scanner} (text : Text sscanf ls input rest) (below : scanner.charptr ≤ maxChar)
    (full : ¬ scanner.charptr + costs ls ≤ maxChar) :
    ∃ front l back s, ls = front ++ l::back ∧ Lexes sscanf ⟨.initial,input,scanner⟩ front s ∧
      yylex sscanf s = .error .exit := by
  induction text generalizing scanner with
  | nil => exact absurd below full
  | @cons sep text input rest l ls gap spells apart behind ih =>
    rw [costs,List.map_cons,List.sum_cons] at full
    by_cases room : scanner.charptr + cost l ≤ maxChar
    · obtain ⟨scanner1,count,first⟩ := yylex_spelled gap spells apart room
      have later : ¬ scanner1.charptr + costs ls ≤ maxChar := by rw [count,costs]; omega
      obtain ⟨front,l',back,s,rfl,lexes,ended⟩ := ih (count ▸ room) later
      exact ⟨l::front,l',back,s,rfl,.cons first lexes,ended⟩
    · exact ⟨[],l,ls,_,rfl,.nil,yylex_full gap spells apart below room⟩

section sample

-- print table r ;
def printTexts : List (List UInt8) := [[112,114,105,110,116],[116,97,98,108,101],[114],[59]]

theorem spells_reserved {text : List UInt8} {word : Reserved}
    (spelled : identifier.rmatch text = true ∧ text.length < Scan.maxStringLen ∧
    (reservedWords.find? fun e => e.1 = text.map lowerCase).map Prod.snd = some word) :
    Spells id text (reserved word) := by
  obtain ⟨matched,short,known⟩ := spelled
  obtain ⟨entry,found,rfl⟩ := Option.map_eq_some_iff.mp known
  exact .reserved ((RegularExpression.rmatch_iff_matches' _ _).mp matched) short found

theorem spells_named {text : List UInt8} (spelled : identifier.rmatch text = true ∧ text.length < Scan.maxStringLen ∧
    (reservedWords.find? fun e => e.1 = text.map lowerCase) = none) : Spells id text (named text) :=
  .name ((RegularExpression.rmatch_iff_matches' _ _).mp spelled.1) spelled.2.1 spelled.2.2

theorem spells_int {text : List UInt8} {n : Int} (spelled : sNum.rmatch text = true ∧ atoi text = n) :
    Spells id text (.int n) :=
  spelled.2 ▸ .int ((RegularExpression.rmatch_iff_matches' _ _).mp spelled.1)

theorem spells_char {c : UInt8} (among : c ∈ punctuation) : Spells id [c] (.char c) := .char among

theorem print_spelled : List.Forall₂ (Spells id) printTexts (tokens (.print [114]) ++ [semicolon]) :=
  .cons (spells_reserved (by decide +kernel)) (.cons (spells_reserved (by decide +kernel))
    (.cons (spells_named (by decide +kernel))
    (.cons (spells_char (by decide)) .nil)))

def emptyScanner : Scanner := ⟨Vector.replicate _ 0,0⟩

end sample

-- What is written out is read back, and nothing behind it, exactly when its names and strings have
-- room in charpool and its
-- tree in the pool of nodes; otherwise the process ends.
theorem written_sentence_read_back {i : Input} {scanner : Scanner} (k : Stack) (address : List UInt8 → Int)
    (sentence : Start ls i)
    (text : Text sscanf ls input rest) (below : scanner.charptr ≤ maxChar) (short : 2 * ls.length + 2 < k.limit) :
    if scanner.charptr + costs ls ≤ maxChar ∧ i.nodes ≤ maxNode then
      ∃ scanner', yyparse k address sscanf ⟨.initial,input,scanner⟩ = .ok (i.answer address,⟨.initial,rest,scanner'⟩) ∧
        scanner'.charptr = scanner.charptr + costs ls
    else yyparse k address sscanf ⟨.initial,input,scanner⟩ = .error .exit := by
  have holds : k.Holds ls := Stack.holds_short short
  by_cases room : scanner.charptr + costs ls ≤ maxChar
  · obtain ⟨scanner',count,lexes⟩ := text.lexes room
    have ran := yyparse_sentence address lexes sentence holds
    by_cases nodes : i.nodes ≤ maxNode
    · rw [if_pos ⟨room,nodes⟩,ran,if_pos nodes]
      exact ⟨scanner',rfl,count⟩
    · rw [if_neg fun both => nodes both.2,ran,if_neg nodes]
  · rw [if_neg fun both => room both.1]
    obtain ⟨front,l,back,s,rfl,lexes,ended⟩ := text.full below room
    exact yyparse_front sentence lexes holds.front ended

-- The stack of the generated parser, whose tables reduce at least once for every two states.
def bisonStack : Stack := ⟨fun w => w.length + 1,10000,fun w => by omega⟩

theorem written_sentence_read_back_print : ∃ scanner,
    yyparse bisonStack (fun _ => 0) id ⟨.initial,line printTexts ++ line printTexts,emptyScanner⟩ =
        .ok (.tree (some (.print [114])),⟨.initial,line printTexts,scanner⟩) ∧ scanner.charptr = 2 := by
  have text : Text id (tokens (.print [114]) ++ [semicolon]) (line printTexts ++ line printTexts) (line printTexts) :=
    text_line print_spelled (.inr rfl)
  have read := written_sentence_read_back bisonStack (fun _ => 0) (.command (command_tokens (.print [114]))) text
    (show emptyScanner.charptr ≤ maxChar by decide) (by decide)
  rw [if_pos (by decide)] at read
  exact read

end Minirel.Grammar
