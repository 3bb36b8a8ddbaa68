import Mathlib.Data.List.TakeWhile
import Minirel.Quoting
import Minirel.Yylex

namespace Minirel.Scan
open LongestMatch RegularExpression Quoting

theorem mem_bytes (c : UInt8) : c ∈ bytes :=
  List.mem_map.mpr ⟨c.toNat,List.mem_range.mpr c.toNat_lt,UInt8.ofNat_toNat⟩

-- A string inside its quotes, read from the front: a byte, or two quotes.
theorem mem_quoted {x : List UInt8} : x ∈ quoted.matches' ↔ x = [] ∨
    (∃ c y, c ≠ 34 ∧ c ≠ 10 ∧ y ∈ quoted.matches' ∧ x = c::y) ∨ ∃ y, y ∈ quoted.matches' ∧ x = 34::34::y := by
  rw [quoted,mem_star]
  constructor
  · intro either
    rcases either with empty | ⟨a,b,_,first,second,same⟩
    · exact .inl empty
    · rcases mem_add.mp first with one | pair
      · obtain ⟨c,member,rfl⟩ := mem_oneOf.mp one
        obtain ⟨quote,line⟩ := of_decide_eq_true (List.mem_filter.mp member).2
        exact .inr (.inl ⟨c,b,quote,line,second,same⟩)
      · rw [mem_word.mp pair] at same
        exact .inr (.inr ⟨b,second,same⟩)
  · intro either
    rcases either with empty | ⟨c,y,quote,line,tail,same⟩ | ⟨y,tail,same⟩
    · exact .inl empty
    · have member : c ∈ bytes.filter fun c => c ≠ 34 ∧ c ≠ 10 :=
        List.mem_filter.mpr ⟨mem_bytes c,decide_eq_true ⟨quote,line⟩⟩
      exact .inr ⟨[c],y,List.cons_ne_nil _ _,mem_add.mpr (.inl (mem_oneOf.mpr ⟨c,member,rfl⟩)),tail,same⟩
    · exact .inr ⟨[34,34],y,List.cons_ne_nil _ _,mem_add.mpr (.inr (mem_word.mpr rfl)),tail,same⟩

theorem doubled_quoted {s : List UInt8} (line : 10 ∉ s) : doubled 34 s ∈ quoted.matches' := by
  induction s with
  | nil => exact mem_quoted.mpr (.inl rfl)
  | cons c s ih =>
    rw [List.mem_cons,not_or] at line
    obtain ⟨other,later⟩ := line
    by_cases quote : c = 34
    · subst c
      exact mem_quoted.mpr (.inr (.inr ⟨_,ih later,doubled_quote s⟩))
    · exact mem_quoted.mpr (.inr (.inl ⟨c,_,quote,Ne.symm other,ih later,doubled_other quote s⟩))

-- However a text in front of the literal's last quote and the rest is split off, it does not go beyond
-- that quote.
theorem quoted_bound {s body after rest : List UInt8} {e : UInt8} (line : 10 ∉ s) (ends : rest.head? ≠ some 34)
    (read : body ∈ quoted.matches')
    (same : body ++ e::after = doubled 34 s ++ 34::rest) : body.length ≤ (doubled 34 s).length := by
  induction s generalizing body with
  | nil =>
    rcases mem_quoted.mp read with rfl | ⟨c,y,quote,_,_,rfl⟩ | ⟨y,_,rfl⟩
    · exact Nat.le_refl _
    · cases same
      exact absurd rfl quote
    · rw [doubled_nil,List.nil_append,List.cons_append,List.cons_append] at same
      have next := (List.cons.inj same).2
      rw [← next] at ends
      exact absurd rfl ends
  | cons c s ih =>
    rw [List.mem_cons,not_or] at line
    obtain ⟨other,later⟩ := line
    by_cases quote : c = 34
    · subst c
      rw [doubled_quote] at same ⊢
      rcases mem_quoted.mp read with rfl | ⟨d,y,quote,_,_,rfl⟩ | ⟨y,tail,rfl⟩
      · exact Nat.zero_le _
      · exact absurd (List.cons.inj same).1 quote
      · exact Nat.succ_le_succ (Nat.succ_le_succ (ih later tail (List.cons.inj (List.cons.inj same).2).2))
    · rw [doubled_other quote] at same ⊢
      rcases mem_quoted.mp read with rfl | ⟨d,y,_,_,tail,rfl⟩ | ⟨y,_,rfl⟩
      · exact Nat.zero_le _
      · exact Nat.succ_le_succ (ih later tail (List.cons.inj same).2)
      · exact absurd (List.cons.inj same).1.symm quote

-- Of the rules outside comments and commands only these have to do with a quote.
theorem initial_rules : ∀ r ∈ rules .initial, isVoid (r.pattern.deriv 34) = true ∨ r.pattern = closed ∨
    r.pattern = unclosed ∨
    r.pattern = oneOf (bytes.filter fun c => c ≠ 10) := by
  simp only [rules,List.forall_mem_cons]
  refine ⟨.inl ?_,.inl ?_,.inl ?_,.inl ?_,.inl ?_,.inr (.inl trivial),.inr (.inr (.inl trivial)),.inl ?_,
    .inl ?_,.inl ?_,.inl ?_,.inl ?_,.inl ?_,.inl ?_,
    .inl ?_,.inl ?_,.inl ?_,.inr (.inr (.inr trivial)),fun r member => absurd member List.not_mem_nil⟩
  all_goals decide +kernel

theorem closed_split {x : List UInt8} {e : UInt8}
    (member : x ∈ (RegularExpression.char 34 * quoted * RegularExpression.char e).matches') :
    ∃ body, body ∈ quoted.matches' ∧ x = 34::(body ++ [e]) := by
  obtain ⟨_,_,front,back,rfl⟩ := mem_mul.mp member
  obtain ⟨_,body,quote,read,rfl⟩ := mem_mul.mp front
  obtain rfl : _ = [34] := quote
  obtain rfl : _ = [e] := back
  exact ⟨body,read,rfl⟩

theorem enclose_closed {s : List UInt8} (line : 10 ∉ s) : enclose 34 s ∈ closed.matches' :=
  mem_mul.mpr ⟨34::doubled 34 s,[34],mem_mul.mpr ⟨[34],doubled 34 s,rfl,doubled_quoted line,rfl⟩,rfl,rfl⟩

-- A literal is one token, whatever follows that is not a quote.
theorem longest_enclose {s rest : List UInt8} (line : 10 ∉ s) (ends : rest.head? ≠ some 34) :
    longest (rules .initial) (enclose 34 s ++ rest) = some (.qstring,enclose 34 s,rest) := by
  have first : (rules .initial).find? (fun r => r.pattern.rmatch (enclose 34 s)) = some ⟨closed,.qstring⟩ := by
    rw [List.find?_eq_some_iff_append]
    refine ⟨(rmatch_iff_matches' _ _).mpr (enclose_closed line),(rules .initial).take 5,(rules .initial).drop 6,
      rfl,fun r member => ?_⟩
    have void : ∀ r ∈ (rules .initial).take 5, isVoid (r.pattern.deriv 34) = true := by decide +kernel
    rw [enclose,no_start (void r member)]
    rfl
  have some_char : enclose 34 s ≠ [] := List.cons_ne_nil _ _
  refine longest_eq some_char first fun more rest' some_more split r member => Bool.eq_false_iff.mpr fun matched => ?_
  have bound : ∀ e, enclose 34 s ++ more ∉ (RegularExpression.char 34 * quoted * RegularExpression.char
      e).matches' := by
    intro e matched
    obtain ⟨body,read,same⟩ := closed_split matched
    have inner : body ++ e::rest' = doubled 34 s ++ 34::rest := by
      rw [enclose,List.cons_append,List.cons.injEq] at same
      rw [split,← List.singleton_append,← List.append_assoc,← same.2]
      simp
    have few := quoted_bound line ends read inner
    have length := congrArg List.length same
    rw [enclose,List.length_append,List.length_cons,List.length_append,List.length_singleton,List.length_cons,
      List.length_append,
      List.length_singleton] at length
    have positive := List.length_pos_iff.mpr some_more
    omega
  rcases initial_rules r member with void | is_closed | is_unclosed | is_any
  · rw [enclose,List.cons_append,no_start void] at matched
    cases matched
  · rw [is_closed,rmatch_iff_matches'] at matched
    exact bound 34 matched
  · rw [is_unclosed,rmatch_iff_matches'] at matched
    exact bound 10 matched
  · rw [is_any,rmatch_iff_matches'] at matched
    obtain ⟨c,_,same⟩ := mem_oneOf.mp matched
    have length := congrArg List.length same
    rw [enclose,List.length_append,List.length_cons,List.length_append,List.length_singleton,
      List.length_singleton] at length
    omega

-- A literal is delivered as one T_QSTRING, with what get_qstring makes of it.
theorem yylex_enclose (sscanf : List UInt8 → List UInt8) {s rest : List UInt8} (line : 10 ∉ s)
    (ends : rest.head? ≠ some 34) (scanner : Scanner) :
    yylex sscanf ⟨.initial,enclose 34 s ++ rest,scanner⟩ = (do
      let (sval,scanner) ← getQstring (enclose 34 s) scanner
      return (.qstring sval,⟨.initial,rest,scanner⟩)) := by
  rw [yylex,enclose,List.cons_append,List.length_cons,yylexTurns,if_neg (List.cons_ne_nil _ _),← List.cons_append,
    ← enclose]
  dsimp only
  rw [longest_enclose line ends]
  dsimp only [deliverLexeme]
  cases getQstring (enclose 34 s) scanner <;> rfl

theorem getQstring_enclose (s : List UInt8) (scanner : Scanner) : getQstring (enclose 34 s) scanner =
    if scanner.charptr + ((doubled 34 s).length + 1) > maxChar then .error .exit
    else .ok ((doubled 34 s).takeWhile (· ≠ 0),{scanner with charptr := scanner.charptr +
      ((doubled 34 s).length + 1)}) := by
  rw [getQstring,drop_enclose,mkString,stringAlloc]
  split <;> rfl

-- What is between the outer quotes is delivered as it stands: the string comes back exactly when it has
-- no quote that the literal doubles, no NUL that ends it, and room in charpool.
theorem quoted_string_round_trips_iff (sscanf : List UInt8 → List UInt8) (s rest : List UInt8) (scanner : Scanner)
    (line : 10 ∉ s)
    (ends : rest.head? ≠ some 34) :
    (∃ scanner', yylex sscanf ⟨.initial,enclose 34 s ++ rest,scanner⟩ = .ok (.qstring s,⟨.initial,rest,scanner'⟩)) ↔
      34 ∉ s ∧ 0 ∉ s ∧ scanner.charptr + s.length < maxChar := by
  rw [yylex_enclose sscanf line ends,getQstring_enclose]
  constructor
  · intro returned
    obtain ⟨scanner',run⟩ := returned
    split at run
    · cases run
    · rename_i room
      have value : (doubled 34 s).takeWhile (· ≠ 0) = s := Lexeme.qstring.inj (Prod.mk.inj (Except.ok.inj run)).1
      have text : 0 ∉ s := by
        intro nul
        rw [← value] at nul
        exact absurd (List.mem_takeWhile_imp (p:=fun c : UInt8 => decide (c ≠ 0)) nul) (by decide)
      have whole : (doubled 34 s).takeWhile (· ≠ 0) = doubled 34 s :=
        List.takeWhile_eq_self_iff.mpr fun c member => decide_eq_true fun nul => text (nul ▸ mem_doubled.mp member)
      have same : doubled 34 s = s := whole.symm.trans value
      rw [same] at room
      exact ⟨doubled_eq_self_iff.mp same,text,by omega⟩
  · intro fits
    obtain ⟨plain,text,room⟩ := fits
    have same := doubled_eq_self_iff.mpr plain
    rw [same,if_neg (by omega),List.takeWhile_eq_self_iff.mpr]
    · exact ⟨_,rfl⟩
    · intro c member
      exact decide_eq_true fun nul => text (nul ▸ member)

-- "ab" in front of a comma
theorem quoted_string_round_trips_iff_plain :
    (∃ scanner', yylex id ⟨.initial,enclose 34 [97,98] ++ [44],⟨Vector.replicate _ 0,0⟩⟩ =
    .ok (.qstring [97,98],⟨.initial,[44],scanner'⟩)) ↔ (34 : UInt8) ∉ [97,98] ∧ (0 : UInt8) ∉ [97,98] ∧
      0 + 2 < maxChar :=
  quoted_string_round_trips_iff id [97,98] [44] ⟨Vector.replicate _ 0,0⟩ (by decide) (by decide)

-- A quote comes back as two.
theorem quote_comes_back_doubled :
    (∃ scanner', yylex id ⟨.initial,enclose 34 [97,34,98],⟨Vector.replicate _ 0,0⟩⟩ =
      .ok (.qstring [97,34,34,98],⟨.initial,[],scanner'⟩)) ∧
    ¬ ∃ scanner', yylex id ⟨.initial,enclose 34 [97,34,98],⟨Vector.replicate _ 0,0⟩⟩ =
      .ok (.qstring [97,34,98],⟨.initial,[],scanner'⟩) := by
  have read := yylex_enclose id (show 10 ∉ [97,34,98] by decide) (show ([] : List UInt8).head? ≠ some 34 by decide)
    ⟨Vector.replicate _ 0,0⟩
  rw [List.append_nil] at read
  refine ⟨⟨_,read⟩,fun returned => ?_⟩
  obtain ⟨scanner',run⟩ := returned
  have same := Lexeme.qstring.inj (Prod.mk.inj (Except.ok.inj (read.symm.trans run))).1
  exact absurd same (by decide)

end Minirel.Scan
