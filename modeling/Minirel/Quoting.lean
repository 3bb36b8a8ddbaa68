import Mathlib.Data.List.Basic
import Mathlib.Data.List.Count

namespace Quoting

variable {α : Type} [DecidableEq α] {q c : α} {s t : List α}

-- Every quote twice, and the whole between two quotes.
def doubled (q : α) : List α → List α
  | [] => []
  | c::s => if c = q then q::q::doubled q s else c::doubled q s

def enclose (q : α) (s : List α) : List α := q::(doubled q s ++ [q])

@[simp] theorem doubled_nil : doubled q [] = [] := rfl

theorem doubled_quote (s : List α) : doubled q (q::s) = q::q::doubled q s := if_pos rfl

theorem doubled_other (other : c ≠ q) (s : List α) : doubled q (c::s) = c::doubled q s := if_neg other

theorem length_doubled (q : α) (s : List α) : (doubled q s).length = s.length + s.count q := by
  induction s with
  | nil => rfl
  | cons c s ih =>
    by_cases quote : c = q
    · subst c
      rw [doubled_quote,List.length_cons,List.length_cons,ih,List.length_cons,List.count_cons_self]
      omega
    · rw [doubled_other quote,List.length_cons,ih,List.length_cons,List.count_cons_of_ne quote]
      omega

theorem mem_doubled : c ∈ doubled q s ↔ c ∈ s := by
  induction s with
  | nil => exact Iff.rfl
  | cons d s ih =>
    by_cases quote : d = q
    · subst d
      rw [doubled_quote,List.mem_cons,List.mem_cons,ih,List.mem_cons]
      exact or_self_left
    · rw [doubled_other quote,List.mem_cons,ih,List.mem_cons]

-- Doubling changes a text exactly when it has a quote.
theorem doubled_eq_self_iff : doubled q s = s ↔ q ∉ s := by
  constructor
  · intro same
    have length := length_doubled q s
    rw [same] at length
    exact List.count_eq_zero.mp (by omega)
  · intro plain
    induction s with
    | nil => rfl
    | cons c s ih =>
      rw [List.mem_cons,not_or] at plain
      obtain ⟨other,later⟩ := plain
      rw [doubled_other (Ne.symm other),ih later]

-- Every two quotes in a row are one.
def undoubled (q : α) : List α → List α
  | c::d::s => if c = q ∧ d = q then q::undoubled q s else c::undoubled q (d::s)
  | s => s

theorem undoubled_other (other : c ≠ q) (s : List α) : undoubled q (c::s) = c::undoubled q s := by
  cases s with
  | nil => rfl
  | cons d s => rw [undoubled,if_neg (fun both => other both.1)]

theorem undoubled_doubled (q : α) (s : List α) : undoubled q (doubled q s) = s := by
  induction s with
  | nil => rfl
  | cons c s ih =>
    by_cases quote : c = q
    · subst c
      rw [doubled_quote,undoubled,if_pos ⟨rfl,rfl⟩,ih]
    · rw [doubled_other quote,undoubled_other quote,ih]

theorem doubled_inj (same : doubled q s = doubled q t) : s = t := by
  rw [← undoubled_doubled q s,same,undoubled_doubled]

theorem enclose_inj (same : enclose q s = enclose q t) : s = t :=
  doubled_inj (List.append_cancel_right (List.cons.inj same).2)

theorem drop_enclose (q : α) (s : List α) : ((enclose q s).drop 1).take ((enclose q s).length - 2) = doubled q s := by
  have length : (enclose q s).length - 2 = (doubled q s).length := by
    rw [enclose,List.length_cons,List.length_append,List.length_singleton]
    omega
  rw [length]
  exact List.take_left

end Quoting
