import Mathlib.Computability.RegularExpressions

namespace LongestMatch
open RegularExpression

variable {α ρ : Type} {P Q : RegularExpression α} {x y : List α} {c : α}

-- One character of a class, a fixed word, and one or more of the same.
def oneOf (chars : List α) : RegularExpression α := (chars.map char).foldr (· + ·) 0
def word (chars : List α) : RegularExpression α := (chars.map char).foldr (· * ·) 1
def many (P : RegularExpression α) : RegularExpression α := P * P.star

theorem mem_mul : x ∈ (P * Q).matches' ↔ ∃ a b, a ∈ P.matches' ∧ b ∈ Q.matches' ∧ x = a ++ b := by
  rw [matches'_mul,Language.mem_mul]
  constructor
  · intro split
    obtain ⟨a,first,b,second,same⟩ := split
    exact ⟨a,b,first,second,same.symm⟩
  · intro split
    obtain ⟨a,b,first,second,same⟩ := split
    exact ⟨a,first,b,second,same.symm⟩

theorem mem_add : x ∈ (P + Q).matches' ↔ x ∈ P.matches' ∨ x ∈ Q.matches' := by
  rw [matches'_add]
  exact Language.mem_add _ _ _

theorem mem_oneOf {chars : List α} : x ∈ (oneOf chars).matches' ↔ ∃ c ∈ chars, x = [c] := by
  induction chars with
  | nil =>
    constructor
    · intro member
      exact absurd member (Language.notMem_zero x)
    · intro some_char
      obtain ⟨c,member,_⟩ := some_char
      cases member
  | cons c rest ih =>
    rw [oneOf,List.map_cons,List.foldr_cons,mem_add,matches'_char]
    change x = [c] ∨ x ∈ (oneOf rest).matches' ↔ _
    rw [ih]
    constructor
    · intro either
      rcases either with here | ⟨d,member,same⟩
      · exact ⟨c,List.mem_cons_self,here⟩
      · exact ⟨d,List.mem_cons_of_mem _ member,same⟩
    · intro some_char
      obtain ⟨d,member,same⟩ := some_char
      rcases List.mem_cons.mp member with rfl | later
      · exact .inl same
      · exact .inr ⟨d,later,same⟩

theorem mem_word {chars : List α} : x ∈ (word chars).matches' ↔ x = chars := by
  induction chars generalizing x with
  | nil => exact Language.mem_one x
  | cons c rest ih =>
    rw [word,List.map_cons,List.foldr_cons,mem_mul]
    constructor
    · intro split
      obtain ⟨a,b,first,second,same⟩ := split
      have head : a = [c] := first
      rw [same,head,ih.mp second]
      rfl
    · intro same
      exact ⟨[c],rest,rfl,ih.mpr rfl,same⟩

-- Repetition read from its front.
theorem mem_star : x ∈ P.star.matches' ↔ x = [] ∨ ∃ a b, a ≠ [] ∧ a ∈ P.matches' ∧ b ∈ P.star.matches' ∧
    x = a ++ b := by
  constructor
  · intro member
    rw [matches'_star,Language.mem_kstar_iff_exists_nonempty] at member
    obtain ⟨parts,same,each⟩ := member
    cases parts with
    | nil => exact .inl same
    | cons a parts =>
      obtain ⟨some_char,first⟩ := (each a List.mem_cons_self).symm
      refine .inr ⟨a,parts.flatten,some_char,first,?_,same⟩
      rw [matches'_star,Language.mem_kstar]
      exact ⟨parts,rfl,fun b member => (each b (List.mem_cons_of_mem _ member)).1⟩
  · intro either
    rw [matches'_star,Language.mem_kstar]
    rcases either with rfl | ⟨a,b,_,first,second,same⟩
    · exact ⟨[],rfl,fun _ member => absurd member List.not_mem_nil⟩
    · rw [matches'_star,Language.mem_kstar] at second
      obtain ⟨parts,rfl,each⟩ := second
      exact ⟨a::parts,same,List.forall_mem_cons.mpr ⟨first,each⟩⟩

-- No word at all matches it.
def isVoid : RegularExpression α → Bool
  | .zero => true
  | .epsilon => false
  | .char _ => false
  | .plus P Q => isVoid P && isVoid Q
  | .comp P Q => isVoid P || isVoid Q
  | .star _ => false

theorem isVoid_sound (void : isVoid P = true) : x ∉ P.matches' := by
  induction P generalizing x with
  | zero => exact Language.notMem_zero x
  | epsilon => cases void
  | char a => cases void
  | plus P Q ihP ihQ =>
    rw [isVoid,Bool.and_eq_true] at void
    intro member
    rcases mem_add.mp member with first | second
    · exact ihP void.1 first
    · exact ihQ void.2 second
  | comp P Q ihP ihQ =>
    rw [isVoid,Bool.or_eq_true] at void
    intro member
    obtain ⟨a,b,first,second,_⟩ := mem_mul.mp member
    rcases void with no_first | no_second
    · exact ihP no_first first
    · exact ihQ no_second second
  | star P => cases void

section scanning

variable [DecidableEq α]

theorem no_start (void : isVoid (P.deriv c) = true) (x : List α) : P.rmatch (c::x) = false := by
  rw [rmatch]
  by_contra matched
  exact isVoid_sound void ((rmatch_iff_matches' _ _).mp (Bool.not_eq_false _ ▸ matched))

structure Rule (α ρ : Type) where
  pattern : RegularExpression α
  action : ρ

def longestUpTo (rules : List (Rule α ρ)) (input : List α) : Nat → Option (ρ × List α × List α)
  | 0 => none
  | n+1 =>
    match rules.find? fun r => r.pattern.rmatch (input.take (n+1)) with
    | some r => some (r.action,input.take (n+1),input.drop (n+1))
    | none => longestUpTo rules input n

-- The longest text at the front of the input that a rule matches, and of these rules the first.
def longest (rules : List (Rule α ρ)) (input : List α) : Option (ρ × List α × List α) :=
    longestUpTo rules input input.length

theorem longestUpTo_eq {rules : List (Rule α ρ)} {text rest : List α} {r : Rule α ρ} (some_char : text ≠ [])
    (first : rules.find? (fun r => r.pattern.rmatch text) = some r)
    (none_longer : ∀ more rest', more ≠ [] → rest = more ++ rest' → ∀ r ∈ rules, r.pattern.rmatch (text ++ more) =
      false)
    (extra : Nat) (inside : extra ≤ rest.length) : longestUpTo rules (text ++ rest) (text.length + extra) =
    some (r.action,text,rest) := by
  induction extra with
  | zero =>
    obtain ⟨n,length⟩ := Nat.exists_eq_succ_of_ne_zero fun zero => some_char (List.length_eq_zero_iff.mp zero)
    rw [Nat.add_zero,length,longestUpTo,← Nat.succ_eq_add_one,← length,List.take_left,List.drop_left,first]
  | succ extra ih =>
    have longer : (text ++ rest).take (text.length + (extra + 1)) = text ++ rest.take (extra + 1) :=
      List.take_length_add_append _
    have some_more : rest.take (extra + 1) ≠ [] := by
      intro empty
      have length := congrArg List.length empty
      rw [List.length_take,List.length_nil] at length
      omega
    have missing : rules.find? (fun r => r.pattern.rmatch (text ++ rest.take (extra + 1))) = none := by
      rw [List.find?_eq_none]
      intro r member
      rw [none_longer _ (rest.drop (extra + 1)) some_more (List.take_append_drop _ _).symm r member]
      exact Bool.false_ne_true
    rw [← Nat.add_assoc] at longer ⊢
    rw [longestUpTo,longer,missing]
    exact ih (Nat.le_of_succ_le inside)

theorem longest_eq {rules : List (Rule α ρ)} {text rest : List α} {r : Rule α ρ} (some_char : text ≠ [])
    (first : rules.find? (fun r => r.pattern.rmatch text) = some r)
    (none_longer : ∀ more rest', more ≠ [] → rest = more ++ rest' → ∀ r ∈ rules, r.pattern.rmatch (text ++ more) =
      false) :
    longest rules (text ++ rest) = some (r.action,text,rest) := by
  rw [longest,List.length_append]
  exact longestUpTo_eq some_char first none_longer rest.length (Nat.le_refl _)

end scanning

end LongestMatch
