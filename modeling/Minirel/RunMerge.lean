import Mathlib.Algebra.GroupWithZero.Nat
import Mathlib.Data.List.Basic
import Mathlib.Data.List.Perm.Basic
import Mathlib.Data.List.Flatten

namespace RunMerge

-- Merging any number of runs: the first of the smallest heads is taken, time after time.
variable {α : Type} (gt : α → α → Bool)

-- The choice so far, and the head of one more run.
def better (best : Option (Nat × α)) (i : Nat) (run : List α) : Option (Nat × α) :=
  match run,best with
  | [],_ => best
  | x::_,none => some (i,x)
  | x::_,some (j,y) => if gt y x then some (i,x) else some (j,y)

def choose : List (List α) → Nat → Option (Nat × α) → Option (Nat × α)
  | [],_,best => best
  | run::runs,i,best => choose runs (i + 1) (better gt best i run)

def total (runs : List (List α)) : Nat := (runs.map List.length).sum

def steps : Nat → List (List α) → List (Nat × α)
  | 0,_ => []
  | n+1,runs =>
    match choose gt runs 0 none with
    | none => []
    | some (i,x) => (i,x)::steps n (runs.modify i List.tail)

-- The merged records, each with the number of its run.
def merge (runs : List (List α)) : List (Nat × α) := steps gt (total runs) runs

variable {gt} {runs : List (List α)} {i j n : Nat} {x y : α} {best : Option (Nat × α)}

theorem choose_none : choose gt runs i best = none ↔ best = none ∧ ∀ run ∈ runs, run = [] := by
  induction runs generalizing i best with
  | nil => simp [choose]
  | cons run runs ih =>
    rw [choose,ih]
    cases run with
    | nil => simp [better]
    | cons x rest =>
      cases best with
      | none => simp [better]
      | some entry =>
        obtain ⟨j,y⟩ := entry
        simp only [better]
        split <;> simp

theorem choose_mem (chosen : choose gt runs i best = some (j,x)) :
    best = some (j,x) ∨ ∃ k rest, j = i + k ∧ runs[k]? = some (x::rest) := by
  induction runs generalizing i best with
  | nil => exact .inl chosen
  | cons run runs ih =>
    rw [choose] at chosen
    rcases ih chosen with now | ⟨k,rest,place,there⟩
    · cases run with
      | nil => exact .inl now
      | cons z rest =>
        have here : ∃ k rest', i = i + k ∧ ((z::rest)::runs)[k]? = some (z::rest') := ⟨0,rest,rfl,rfl⟩
        cases best with
        | none =>
          cases now
          exact .inr here
        | some entry =>
          obtain ⟨j',y⟩ := entry
          simp only [better] at now
          split at now
          · cases now
            exact .inr here
          · exact .inl now
    · exact .inr ⟨k + 1,rest,by omega,there⟩

theorem choose_first (chosen : choose gt runs 0 none = some (i,x)) : ∃ rest, runs[i]? = some (x::rest) := by
  rcases choose_mem chosen with none | ⟨k,rest,place,there⟩
  · cases none
  · rw [Nat.zero_add] at place
    subst place
    exact ⟨rest,there⟩

section order

-- What is needed of a comparison on the records at hand: "not greater" is a total preorder there.
structure TotalOn (gt : α → α → Bool) (S : α → Prop) : Prop where
  total : ∀ x y, S x → S y → gt x y = false ∨ gt y x = false
  trans : ∀ x y z, S x → S y → S z → gt x y = false → gt y z = false → gt x z = false

-- One may come before the other: it is smaller, or as small and of no later run.
def Before (gt : α → α → Bool) (one two : Nat × α) :
    Prop := gt one.2 two.2 = false ∧ (gt two.2 one.2 = false → one.1 ≤ two.1)

variable {S : α → Prop}

theorem Before.trans (order : TotalOn gt S) {a b c : Nat × α} (sa : S a.2) (sb : S b.2) (sc : S c.2)
    (one : Before gt a b) (two : Before gt b c) :
    Before gt a c := by
  refine ⟨order.trans _ _ _ sa sb sc one.1 two.1,fun back => ?_⟩
  have first := one.2 (order.trans _ _ _ sb sc sa two.1 back)
  have second := two.2 (order.trans _ _ _ sc sa sb back one.1)
  omega

theorem Before.refl (order : TotalOn gt S) {a : Nat × α} (sa : S a.2) : Before gt a a := by
  refine ⟨?_,fun _ => Nat.le_refl _⟩
  rcases order.total a.2 a.2 sa sa with h | h <;> exact h

theorem better_before (order : TotalOn gt S) {rest : List α} (earlier : ∀ e, best = some e → S e.2 ∧ e.1 < i)
    (sx : S x) :
    ∃ e, better gt best i (x::rest) = some e ∧ S e.2 ∧ e.1 ≤ i ∧ Before gt e (i,x) ∧ ∀ e', best = some e' →
      Before gt e e' := by
  cases best with
  | none => exact ⟨(i,x),rfl,sx,Nat.le_refl _,Before.refl order sx,fun _ none => by cases none⟩
  | some entry =>
    obtain ⟨j,y⟩ := entry
    obtain ⟨sy,below⟩ := earlier _ rfl
    simp only [better]
    by_cases less : gt y x = true
    · rw [if_pos less]
      refine ⟨(i,x),rfl,sx,Nat.le_refl _,Before.refl order sx,fun e' same => ?_⟩
      cases same
      have notless : ¬ gt y x = false := by
        rw [less]
        exact Bool.noConfusion
      exact ⟨(order.total x y sx sy).resolve_right notless,fun back => absurd back notless⟩
    · rw [if_neg less]
      refine ⟨(j,y),rfl,sy,Nat.le_of_lt below,⟨Bool.eq_false_iff.mpr less,fun _ => Nat.le_of_lt below⟩,fun e' same =>
        ?_⟩
      cases same
      exact Before.refl order sy

-- The choice may come before everything it was chosen from.
theorem choose_before (order : TotalOn gt S) (chosen : choose gt runs i best = some (j,x))
    (earlier : ∀ e, best = some e → S e.2 ∧ e.1 < i)
    (heads : ∀ (k : Nat) y rest, runs[k]? = some (y::rest) → S y) :
    (∀ e, best = some e → Before gt (j,x) e) ∧ ∀ (k : Nat) y rest, runs[k]? = some (y::rest) →
    Before gt (j,x) (i + k,y) := by
  induction runs generalizing i best with
  | nil =>
    refine ⟨fun e same => ?_,fun k y rest none => by cases none⟩
    have same' : best = some (j,x) := chosen
    cases same.symm.trans same'
    exact Before.refl order (earlier _ same).1
  | cons run runs ih =>
    rw [choose] at chosen
    have later : ∀ (k : Nat) y rest, runs[k]? = some (y::rest) → S y := fun k y rest there => heads (k + 1) y rest there
    cases run with
    | nil =>
      obtain ⟨over_best,rest_heads⟩ :=
        ih chosen (fun e same => ⟨(earlier e same).1,Nat.lt_succ_of_lt (earlier e same).2⟩) later
      refine ⟨over_best,fun k y rest there => ?_⟩
      cases k with
      | zero => cases there
      | succ k =>
        have before := rest_heads k y rest there
        rwa [show i + (k + 1) = i + 1 + k by omega]
    | cons z rest =>
      have sz : S z := heads 0 z rest rfl
      obtain ⟨e,now,se,place,before_new,before_old⟩ := better_before order earlier sz
      rw [now] at chosen
      obtain ⟨over_best,rest_heads⟩ := ih chosen (fun e' same => by cases same; exact ⟨se,by omega⟩) later
      have sx : S x := by
        rcases choose_mem chosen with same | ⟨k,rest,_,there⟩
        · cases same
          exact se
        · exact later k x rest there
      have head := over_best e rfl
      refine ⟨fun e' same => head.trans order sx se (earlier e' same).1 (before_old e' same),fun k y rest' there => ?_⟩
      cases k with
      | zero =>
        cases there
        exact head.trans order sx se sz before_new
      | succ k =>
        have before := rest_heads k y rest' there
        rwa [show i + (k + 1) = i + 1 + k by omega]

end order

theorem total_tail {rest : List α} (there : runs[i]? = some (x::rest)) :
    total (runs.modify i List.tail) + 1 = total runs := by
  induction runs generalizing i with
  | nil => cases there
  | cons run runs ih =>
    cases i with
    | zero =>
      cases there
      simp [total]
      omega
    | succ i =>
      have less := ih there
      simp only [total,List.modify_succ_cons,List.map_cons,List.sum_cons] at less ⊢
      omega

theorem getElem_tail {rest : List α} (there : runs[i]? = some (x::rest)) (k : Nat) :
    (runs.modify i List.tail)[k]? = if k = i then some rest else runs[k]? := by
  rw [List.getElem?_modify]
  by_cases here : k = i
  · subst here
    rw [there,if_pos rfl]
    simp
  · rw [if_neg here]
    simp [Ne.symm here]

theorem merge_none (nothing : choose gt runs 0 none = none) : merge gt runs = [] := by
  unfold merge
  cases total runs with
  | zero => rfl
  | succ n => rw [steps,nothing]

theorem merge_some (chosen : choose gt runs 0 none = some (i,x)) :
    merge gt runs = (i,x)::merge gt (runs.modify i List.tail) := by
  obtain ⟨rest,there⟩ := choose_first chosen
  have less := total_tail there
  unfold merge
  rw [← less,steps,chosen]

theorem merge_nil : merge gt runs = [] ↔ ∀ run ∈ runs, run = [] := by
  cases chosen : choose gt runs 0 none with
  | none => exact iff_of_true (merge_none chosen) (choose_none.mp chosen).2
  | some entry =>
    obtain ⟨rest,there⟩ := choose_first chosen
    refine iff_of_false (by rw [merge_some chosen]; exact List.cons_ne_nil _ _) fun empty => ?_
    have nothing := empty _ (List.mem_of_getElem? there)
    cases nothing

-- Taking the chosen head off its run, until every run is empty.
theorem merge_induction (gt : α → α → Bool) {P : List (List α) → Prop}
    (empty : ∀ runs, choose gt runs 0 none = none → P runs)
    (take : ∀ runs i x rest, choose gt runs 0 none = some (i,x) → runs[i]? = some (x::rest) →
      P (runs.modify i List.tail) → P runs)
    (runs : List (List α)) : P runs := by
  generalize measure : total runs = n
  induction n generalizing runs with
  | zero =>
    refine empty runs ?_
    cases chosen : choose gt runs 0 none with
    | none => rfl
    | some entry =>
      obtain ⟨rest,there⟩ := choose_first chosen
      have less := total_tail there
      omega
  | succ n ih =>
    cases chosen : choose gt runs 0 none with
    | none => exact empty runs chosen
    | some entry =>
      obtain ⟨rest,there⟩ := choose_first chosen
      have less := total_tail there
      exact take runs _ _ rest chosen there (ih _ (by omega))

-- Nothing is lost, nothing comes twice, and each run keeps its own order.
theorem merge_interleaves (gt : α → α → Bool) (runs : List (List α)) (k : Nat) :
    ((merge gt runs).filter fun e => e.1 = k).map Prod.snd = runs[k]?.getD [] := by
  induction runs using merge_induction gt with
  | empty runs nothing =>
    rw [merge_none nothing]
    have all := (choose_none.mp nothing).2
    cases there : runs[k]? with
    | none => rfl
    | some run => rw [all run (List.mem_of_getElem? there)]; rfl
  | take runs i x rest chosen there ih =>
    rw [getElem_tail there] at ih
    rw [merge_some chosen]
    by_cases here : k = i
    · subst here
      rw [if_pos rfl] at ih
      rw [List.filter_cons_of_pos (by simp),List.map_cons,ih,there]
      rfl
    · rw [if_neg here] at ih
      rw [List.filter_cons_of_neg (by simpa using Ne.symm here)]
      exact ih

theorem merge_mem {e : Nat × α} (member : e ∈ merge gt runs) : ∃ run, runs[e.1]? = some run ∧ e.2 ∈ run := by
  have inside : e.2 ∈ runs[e.1]?.getD [] := by
    rw [← merge_interleaves gt runs e.1]
    exact List.mem_map.mpr ⟨e,List.mem_filter.mpr ⟨member,by simp⟩,rfl⟩
  cases there : runs[e.1]? with
  | none =>
    rw [there] at inside
    cases inside
  | some run =>
    rw [there] at inside
    exact ⟨run,rfl,inside⟩

-- Of ascending runs the merge is ascending, and equal records come in the order of their runs.
theorem merge_ascends {S : α → Prop} (order : TotalOn gt S) (runs : List (List α))
    (inside : ∀ run ∈ runs, ∀ x ∈ run, S x)
    (ascending : ∀ run ∈ runs, run.Pairwise fun x y => gt x y = false) : (merge gt runs).Pairwise (Before gt) := by
  induction runs using merge_induction gt with
  | empty runs nothing =>
    rw [merge_none nothing]
    exact .nil
  | take runs i x rest chosen there ih =>
    have tails : ∀ run ∈ runs.modify i List.tail, run ∈ runs ∨ ∃ whole ∈ runs, run = whole.tail := by
      intro run member
      obtain ⟨k,found⟩ := List.mem_iff_getElem?.mp member
      rw [getElem_tail there] at found
      split at found
      · cases found
        exact .inr ⟨x::rest,List.mem_of_getElem? there,rfl⟩
      · exact .inl (List.mem_of_getElem? found)
    have within : ∀ run ∈ runs.modify i List.tail, ∀ y ∈ run, S y := by
      intro run member y here
      rcases tails run member with old | ⟨whole,old,rfl⟩
      · exact inside run old y here
      · exact inside whole old y (List.mem_of_mem_tail here)
    have climbing : ∀ run ∈ runs.modify i List.tail, run.Pairwise fun x y => gt x y = false := by
      intro run member
      rcases tails run member with old | ⟨whole,old,rfl⟩
      · exact ascending run old
      · exact (ascending whole old).tail
    rw [merge_some chosen]
    refine List.pairwise_cons.mpr ⟨fun e member => ?_,ih within climbing⟩
    obtain ⟨run,place,here⟩ := merge_mem member
    have sx : S x := inside _ (List.mem_of_getElem? there) x (List.mem_cons_self ..)
    -- Whatever is still to come is behind the head of its run, or is that head.
    have behind : ∃ y rest', runs[e.1]? = some (y::rest') ∧ (e.2 = y ∨ gt y e.2 = false) := by
      rw [getElem_tail there] at place
      split at place
      · rename_i same
        cases place
        have climbs := ascending _ (List.mem_of_getElem? there)
        exact ⟨x,rest,by rw [same]; exact there,.inr ((List.pairwise_cons.mp climbs).1 e.2 here)⟩
      · cases run with
        | nil => cases here
        | cons y rest' =>
          have climbs := ascending _ (List.mem_of_getElem? place)
          rcases List.mem_cons.mp here with same | later
          · exact ⟨y,rest',place,.inl same⟩
          · exact ⟨y,rest',place,.inr ((List.pairwise_cons.mp climbs).1 e.2 later)⟩
    obtain ⟨y,rest',head,after⟩ := behind
    have sy : S y := inside _ (List.mem_of_getElem? head) y (List.mem_cons_self ..)
    have heads : ∀ (k : Nat) z rest, runs[k]? = some (z::rest) →
      S z := fun k z rest found => inside _ (List.mem_of_getElem? found) z (List.mem_cons_self ..)
    have first := (choose_before order chosen (fun _ none => by cases none) heads).2 e.1 y rest' head
    rw [Nat.zero_add] at first
    have se : S e.2 := within run (List.mem_of_getElem? place) e.2 here
    refine first.trans order sx sy se ?_
    rcases after with same | less
    · have same' : e = (e.1,y) := Prod.ext rfl same
      rw [same']
      exact Before.refl order sy
    · exact ⟨less,fun _ => Nat.le_refl _⟩

end RunMerge
