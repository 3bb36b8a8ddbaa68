import Mathlib.Data.List.Basic
import Mathlib.Data.List.Pairwise
import Mathlib.Tactic.Common

-- Contents put into a list at places of their own.
namespace Splice

universe u

structure Piece (α : Type u) where
  start : Nat
  content : List α

namespace Piece

variable {α : Type u}

def stop (p : Piece α) : Nat := p.start + p.content.length

def Apart (p q : Piece α) : Prop := p.stop ≤ q.start ∨ q.stop ≤ p.start

def Meets (p : Piece α) (i : Nat) : Prop := p.start ≤ i ∧ i < p.stop

theorem Apart.other {p q : Piece α} (apart : Apart p q) {i : Nat} (here : p.Meets i) : ¬ q.Meets i := by
  intro there
  obtain ⟨low,high⟩ := here
  obtain ⟨low',high'⟩ := there
  rcases apart with before | after
  · exact absurd (Nat.le_trans before low') (Nat.not_le_of_lt high)
  · exact absurd (Nat.le_trans after low) (Nat.not_le_of_lt high')

end Piece

variable {α : Type u} {data other : List α} {p : Piece α} {pieces : List (Piece α)} {i : Nat}

def slice (data : List α) (start count : Nat) : List α := (data.drop start).take count

def put (data : List α) (p : Piece α) : List α := data.take p.start ++ p.content ++ data.drop p.stop

def putAll (data : List α) (pieces : List (Piece α)) : List α := pieces.foldl put data

@[simp] theorem putAll_nil (data : List α) : putAll data [] = data := rfl
@[simp] theorem putAll_cons (data : List α) (p : Piece α) (pieces : List (Piece α)) :
    putAll data (p::pieces) = putAll (put data p) pieces := rfl

theorem length_put (inside : p.stop ≤ data.length) : (put data p).length = data.length := by
  unfold Piece.stop at inside
  simp only [put,Piece.stop,List.length_append,List.length_take,List.length_drop]
  omega

theorem put_here (inside : p.stop ≤ data.length) (here : p.Meets i) : (put data p)[i]? = p.content[i - p.start]? := by
  obtain ⟨low,high⟩ := here
  unfold Piece.stop at inside high
  have front : (data.take p.start).length = p.start := by
    apply List.length_take_of_le
    omega
  rw [put,List.append_assoc,List.getElem?_append_right (by simp [front,low]),front]
  apply List.getElem?_append_left
  omega

theorem put_elsewhere (inside : p.stop ≤ data.length) (away : ¬ p.Meets i) : (put data p)[i]? = data[i]? := by
  unfold Piece.Meets at away
  have front : (data.take p.start).length = p.start := by
    unfold Piece.stop at inside
    apply List.length_take_of_le
    omega
  have filled : (data.take p.start ++ p.content).length = p.stop := by simp [front,Piece.stop]
  rcases Nat.lt_or_ge i p.start with before | after
  · rw [put,List.append_assoc,List.getElem?_append_left (by simpa [front] using before)]
    simp [before]
  · have behind : p.stop ≤ i := by
      by_contra less
      exact away ⟨after,Nat.lt_of_not_le less⟩
    rw [put,List.getElem?_append_right (by simpa [filled] using behind),filled,List.getElem?_drop]
    congr 1
    omega

-- Where no piece comes the list keeps what it had; where one comes, and the pieces are apart, that
-- piece decides.
theorem length_putAll (inside : ∀ p ∈ pieces, p.stop ≤ data.length) : (putAll data pieces).length = data.length := by
  induction pieces generalizing data with
  | nil => rfl
  | cons p rest ih =>
    have kept := length_put (inside p (List.mem_cons_self ..))
    rw [putAll_cons,ih,kept]
    intro q member
    rw [kept]
    exact inside q (List.mem_cons_of_mem _ member)

theorem putAll_elsewhere (inside : ∀ p ∈ pieces, p.stop ≤ data.length) (away : ∀ p ∈ pieces, ¬ p.Meets i) :
    (putAll data pieces)[i]? = data[i]? := by
  induction pieces generalizing data with
  | nil => rfl
  | cons p rest ih =>
    have first := inside p (List.mem_cons_self ..)
    have later : ∀ q ∈ rest, q.stop ≤ (put data p).length := by
      intro q member
      rw [length_put first]
      exact inside q (List.mem_cons_of_mem _ member)
    rw [putAll_cons,ih later fun q member => away q (List.mem_cons_of_mem _ member)]
    exact put_elsewhere first (away p (List.mem_cons_self ..))

theorem putAll_here (inside : ∀ p ∈ pieces, p.stop ≤ data.length) (apart : pieces.Pairwise Piece.Apart)
    (member : p ∈ pieces)
    (here : p.Meets i) : (putAll data pieces)[i]? = p.content[i - p.start]? := by
  induction pieces generalizing data with
  | nil => cases member
  | cons q rest ih =>
    have first := inside q (List.mem_cons_self ..)
    have later : ∀ r ∈ rest, r.stop ≤ (put data q).length := by
      intro r inside_r
      rw [length_put first]
      exact inside r (List.mem_cons_of_mem _ inside_r)
    obtain ⟨off,rest_apart⟩ := List.pairwise_cons.mp apart
    rw [putAll_cons]
    rcases List.mem_cons.mp member with rfl | inside_p
    · rw [putAll_elsewhere later fun r inside_r => (off r inside_r).other here]
      exact put_here first here
    · exact ih later rest_apart inside_p

theorem slice_putAll (inside : ∀ p ∈ pieces, p.stop ≤ data.length) (apart : pieces.Pairwise Piece.Apart)
    (member : p ∈ pieces) :
    slice (putAll data pieces) p.start p.content.length = p.content := by
  have whole := length_putAll inside
  have bound := inside p member
  unfold Piece.stop at bound
  apply List.ext_getElem?
  intro j
  rw [slice,List.getElem?_take]
  rcases Nat.lt_or_ge j p.content.length with below | above
  · have here : p.Meets (p.start + j) := ⟨Nat.le_add_right ..,Nat.add_lt_add_left below _⟩
    rw [if_pos below,List.getElem?_drop,putAll_here inside apart member here,Nat.add_sub_cancel_left]
  · rw [if_neg (Nat.not_lt_of_le above),List.getElem?_eq_none above]

-- Pieces that leave no gap leave nothing of what was there before.
theorem putAll_covered (inside : ∀ p ∈ pieces, p.stop ≤ data.length) (apart : pieces.Pairwise Piece.Apart)
    (same : other.length = data.length)
    (covered : ∀ i < data.length, ∃ p ∈ pieces, p.Meets i) : putAll data pieces = putAll other pieces := by
  have inside' : ∀ p ∈ pieces, p.stop ≤ other.length := by
    intro p member
    rw [same]
    exact inside p member
  apply List.ext_getElem?
  intro i
  rcases Nat.lt_or_ge i data.length with below | above
  · obtain ⟨p,member,here⟩ := covered i below
    rw [putAll_here inside apart member here,putAll_here inside' apart member here]
  · rw [List.getElem?_eq_none (by rw [length_putAll inside]; exact above),
      List.getElem?_eq_none (by rw [length_putAll inside',same]; exact above)]

end Splice
