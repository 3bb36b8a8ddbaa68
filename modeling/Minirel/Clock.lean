import Mathlib.Logic.Function.Basic

namespace Clock

-- Second-chance replacement: a hand goes round n places and takes the first that is vacant, or idle with
-- its reference bit down; a bit that is up it takes down. What it took comes with the turns it had left.
def search (n : Nat) (vacant idle : Nat → Bool) : Nat → Nat → (Nat → Bool) → Option (Nat × Nat)
  | 0,_,_ => none
  | turns+1,hand,ref =>
    if vacant hand then some (hand,turns)
    else if ref hand then search n vacant idle turns ((hand + 1) % n) (Function.update ref hand false)
    else if idle hand then some (hand,turns)
    else search n vacant idle turns ((hand + 1) % n) ref

variable {n : Nat} {vacant idle ref : Nat → Bool} {turns hand : Nat}

theorem ahead (hand d : Nat) : ((hand + 1) % n + d) % n = (hand + (d + 1)) % n := by
  rw [Nat.mod_add_mod,Nat.add_assoc,Nat.add_comm 1 d]

theorem around (inside : hand < n) : ((hand + 1) % n + (n - 1)) % n = hand := by
  rw [ahead,Nat.sub_add_cancel (by omega),Nat.add_mod_right,Nat.mod_eq_of_lt inside]

-- Which place is taken, and how far from the hand it was.
theorem search_sound {i left : Nat} (inside : hand < n) (taken : search n vacant idle turns hand ref = some (i,left)) :
    (vacant i = true ∨ idle i = true) ∧ ∃ steps, steps + left + 1 = turns ∧ i = (hand + steps) % n := by
  induction turns generalizing hand ref with
  | zero => cases taken
  | succ turns ih =>
    have wraps : (hand + 1) % n < n := Nat.mod_lt _ (by omega)
    have here : ∀ {i' left'}, some (hand,turns) = some (i',left') →
        ∃ steps, steps + left' + 1 = turns + 1 ∧ i' = (hand + steps) % n := by
      intro i' left' same
      cases same
      exact ⟨0,by omega,by rw [Nat.add_zero,Nat.mod_eq_of_lt inside]⟩
    have later : ∀ {ref'}, search n vacant idle turns ((hand + 1) % n) ref' = some (i,left) →
        (vacant i = true ∨ idle i = true) ∧ ∃ steps, steps + left + 1 = turns + 1 ∧ i = (hand + steps) % n := by
      intro ref' found
      obtain ⟨fit,steps,count,place⟩ := ih wraps found
      exact ⟨fit,steps + 1,by omega,by rw [place,ahead]⟩
    unfold search at taken
    split at taken
    · rename_i empty
      refine ⟨.inl ?_,here taken⟩
      cases taken
      exact empty
    · split at taken
      · exact later taken
      · split at taken
        · rename_i rests
          refine ⟨.inr ?_,here taken⟩
          cases taken
          exact rests
        · exact later taken

-- A place that may be taken at once is not passed over.
theorem search_reaches {d : Nat} (inside : hand < n) (near : d < turns)
    (ready : vacant ((hand + d) % n) = true ∨ idle ((hand + d) % n) = true ∧ ref ((hand + d) % n) = false) :
    ∃ i left, search n vacant idle turns hand ref = some (i,left) ∧ turns ≤ left + d + 1 := by
  induction turns generalizing hand ref d with
  | zero => omega
  | succ turns ih =>
    have wraps : (hand + 1) % n < n := Nat.mod_lt _ (by omega)
    unfold search
    by_cases empty : vacant hand = true
    · rw [if_pos empty]
      exact ⟨hand,turns,rfl,by omega⟩
    · rw [if_neg empty]
      have further : ∀ {ref'}, (∀ j, j ≠ hand → ref' j = ref j) → (ref hand = false → ref' hand = false) → d ≠ 0 →
          ∃ i left, search n vacant idle turns ((hand + 1) % n) ref' = some (i,left) ∧ turns + 1 ≤ left + d + 1 := by
        intro ref' others same ahead_of
        obtain ⟨e,rfl⟩ := Nat.exists_eq_succ_of_ne_zero ahead_of
        rw [Nat.succ_eq_add_one,← ahead] at ready
        obtain ⟨i,left,found,count⟩ := @ih ref' _ e wraps (by omega) (ready.imp_right fun rests => ⟨rests.1,by
          by_cases here : ((hand + 1) % n + e) % n = hand
          · rw [here] at rests ⊢
            exact same rests.2
          · rw [others _ here]
            exact rests.2⟩)
        exact ⟨i,left,found,by omega⟩
      by_cases up : ref hand = true
      · rw [if_pos up]
        refine further (fun j other => Function.update_of_ne other ..) (fun down => by rw [up] at down; cases down) ?_
        rintro rfl
        rw [Nat.add_zero,Nat.mod_eq_of_lt inside] at ready
        rcases ready with now | ⟨_,down⟩
        · exact empty now
        · rw [up] at down; cases down
      · rw [if_neg up]
        by_cases rests : idle hand = true
        · rw [if_pos rests]
          exact ⟨hand,turns,rfl,by omega⟩
        · rw [if_neg rests]
          refine further (fun _ _ => rfl) id ?_
          rintro rfl
          rw [Nat.add_zero,Nat.mod_eq_of_lt inside] at ready
          rcases ready with now | ⟨still,_⟩
          · exact empty now
          · exact rests still

-- A place that may be taken once its bit is down is taken, or another before it, within a round of
-- the turn that takes the bit down.
theorem search_second_chance {d : Nat} (inside : hand < n) (near : d + n < turns)
    (fit : vacant ((hand + d) % n) = true ∨
    idle ((hand + d) % n) = true) : ∃ i left, search n vacant idle turns hand ref = some (i,left) := by
  induction turns generalizing hand ref d with
  | zero => omega
  | succ turns ih =>
    have wraps : (hand + 1) % n < n := Nat.mod_lt _ (by omega)
    unfold search
    by_cases empty : vacant hand = true
    · rw [if_pos empty]
      exact ⟨hand,turns,rfl⟩
    · rw [if_neg empty]
      have further : ∀ ref', d ≠ 0 → ∃ i left, search n vacant idle turns ((hand + 1) % n) ref' = some (i,left) := by
        intro ref' ahead_of
        obtain ⟨e,rfl⟩ := Nat.exists_eq_succ_of_ne_zero ahead_of
        rw [Nat.succ_eq_add_one,← ahead] at fit
        exact ih wraps (by omega) fit
      by_cases up : ref hand = true
      · rw [if_pos up]
        by_cases here : d = 0
        · -- The bit is taken down now: a whole round later the place is ready.
          subst here
          rw [Nat.add_zero,Nat.mod_eq_of_lt inside] at fit
          have lowered : Function.update ref hand false (((hand + 1) % n + (n - 1)) % n) = false := by
            rw [around inside,Function.update_self]
          obtain ⟨i,left,found,_⟩ := search_reaches (d:=n-1) wraps (show n - 1 < turns by omega)
            (by rw [around inside] at lowered ⊢; exact fit.imp_right fun rests => ⟨rests,lowered⟩)
          exact ⟨i,left,found⟩
        · exact further _ here
      · rw [if_neg up]
        by_cases rests : idle hand = true
        · rw [if_pos rests]
          exact ⟨hand,turns,rfl⟩
        · rw [if_neg rests]
          refine further _ ?_
          rintro rfl
          rw [Nat.add_zero,Nat.mod_eq_of_lt inside] at fit
          exact fit.elim empty rests

theorem reach (inside : hand < n) {i : Nat} (place : i < n) : ∃ d, d < n ∧ (hand + d) % n = i := by
  rcases Nat.lt_or_ge i hand with before | after
  · exact ⟨n - hand + i,by omega,by rw [show hand + (n - hand + i) =
      i + n by omega,Nat.add_mod_right,Nat.mod_eq_of_lt place]⟩
  · exact ⟨i - hand,by omega,by rw [Nat.add_sub_cancel' after,Nat.mod_eq_of_lt place]⟩

-- Two rounds find a place exactly when there is one.
theorem search_two_rounds (inside : hand < n) :
    search n vacant idle (2 * n) hand ref = none ↔ ∀ i, i < n → vacant i = false ∧ idle i = false := by
  constructor
  · intro missed i place
    obtain ⟨d,below,rfl⟩ := reach inside place
    by_contra fit
    have some_fit : vacant ((hand + d) % n) = true ∨ idle ((hand + d) % n) = true := by
      rcases Bool.eq_false_or_eq_true (vacant ((hand + d) % n)) with now | never
      · exact .inl now
      · refine .inr ?_
        rcases Bool.eq_false_or_eq_true (idle ((hand + d) % n)) with rests | works
        · exact rests
        · exact absurd ⟨never,works⟩ fit
    have found : ∃ i left, search n vacant idle (2 * n) hand ref = some (i,left) :=
      search_second_chance inside (by omega) some_fit
    obtain ⟨i,left,found⟩ := found
    cases found.symm.trans missed
  · intro full
    cases found : search n vacant idle (2 * n) hand ref with
    | none => rfl
    | some taken =>
      obtain ⟨i,left⟩ := taken
      obtain ⟨fit,steps,_,place⟩ := search_sound inside found
      obtain ⟨occupied,works⟩ := full i (place ▸ Nat.mod_lt _ (by omega))
      rcases fit with now | rests
      · cases now.symm.trans occupied
      · cases rests.symm.trans works

-- A vacant place is found in the first round, so with turns to spare.
theorem search_vacant {i left : Nat} (inside : hand < n) (taken : search n vacant idle (2 * n) hand ref = some (i,left))
    (empty : vacant i = true) : n ≤ left := by
  obtain ⟨_,steps,_,place⟩ := search_sound inside taken
  have below : steps % n < n := Nat.mod_lt _ (by omega)
  have same : (hand + steps % n) % n = i := by rw [Nat.add_mod_mod,place]
  have reached : ∃ j left', search n vacant idle (2 * n) hand ref = some (j,left') ∧ 2 * n ≤ left' + steps % n + 1 :=
    search_reaches inside (by omega) (.inl (by rw [same]; exact empty))
  obtain ⟨j,left',found,count⟩ := reached
  cases found.symm.trans taken
  omega

end Clock
