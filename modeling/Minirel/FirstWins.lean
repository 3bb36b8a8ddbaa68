import Mathlib.Data.List.Basic

-- A set of rows beside the set of their keys: a row whose key is there already is not taken.
namespace FirstWins

variable {α κ ρ ε : Type} {key : α → κ} {a b : α} {l m : List α}

-- The first of its key in the list.
def First (key : α → κ) (l : List α) (a : α) : Prop := ∃ before after, l = before ++ a::after ∧
    ∀ b ∈ before, key b ≠ key a

theorem First.mem (first : First key l a) : a ∈ l := by
  obtain ⟨before,after,rfl,_⟩ := first
  exact List.mem_append_right before List.mem_cons_self

theorem first_cons : First key (b::l) a ↔ a = b ∨ key b ≠ key a ∧ First key l a := by
  constructor
  · rintro ⟨before,after,split,others⟩
    cases before with
    | nil => exact .inl (List.cons.inj split).1.symm
    | cons c before =>
      obtain ⟨rfl,rest⟩ := List.cons.inj split
      exact .inr ⟨others b List.mem_cons_self,before,after,rest,fun d member =>
        others d (List.mem_cons_of_mem _ member)⟩
  · rintro (rfl | ⟨other,before,after,rfl,others⟩)
    · exact ⟨[],l,rfl,List.forall_mem_nil _⟩
    · exact ⟨b::before,after,rfl,List.forall_mem_cons.mpr ⟨other,others⟩⟩

-- Only which keys are the same matters.
theorem first_congr {κ' : Type} {key' : α → κ'} (same : ∀ a b, key a = key b ↔ key' a = key' b) :
    First key l a ↔ First key' l a := by
  refine exists_congr fun before => exists_congr fun after => and_congr_right fun _ => forall_congr' fun b =>
    imp_congr_right fun _ => ?_
  exact not_congr (same b a)

theorem first_map {β : Type} {f : β → α} {l : List β} {a : α} : First key (l.map f) a ↔ ∃ b, First (key ∘ f) l b ∧
    f b = a := by
  induction l with
  | nil =>
    refine iff_of_false (fun first => absurd first.mem List.not_mem_nil) ?_
    rintro ⟨b,first,_⟩
    exact absurd first.mem List.not_mem_nil
  | cons c l ih =>
    rw [List.map_cons,first_cons,ih]
    constructor
    · rintro (rfl | ⟨other,b,first,rfl⟩)
      · exact ⟨c,first_cons.mpr (.inl rfl),rfl⟩
      · exact ⟨b,first_cons.mpr (.inr ⟨other,first⟩),rfl⟩
    · rintro ⟨b,first,rfl⟩
      rcases first_cons.mp first with rfl | ⟨other,first⟩
      · exact .inl rfl
      · exact .inr ⟨other,b,first,rfl⟩

-- Some element of each key is the first.
theorem exists_first [DecidableEq κ] (member : a ∈ l) : ∃ b, First key l b ∧ key b = key a := by
  induction l with
  | nil => exact absurd member List.not_mem_nil
  | cons c l ih =>
    by_cases same : key c = key a
    · exact ⟨c,first_cons.mpr (.inl rfl),same⟩
    · have later : a ∈ l := (List.mem_cons.mp member).resolve_left fun here => same (here ▸ rfl)
      obtain ⟨b,first,of_key⟩ := ih later
      exact ⟨b,first_cons.mpr (.inr ⟨fun equal => same (equal.trans of_key),first⟩),of_key⟩

theorem bind_ok {β γ : Type} {x : Except ε β} {f : β → Except ε γ} {c : γ} (ran : x >>= f = .ok c) :
    ∃ b, x = .ok b ∧ f b = .ok c := by
  cases x with
  | error e => cases ran
  | ok b => exact ⟨b,rfl,ran⟩

structure Table (κ ρ : Type) where
  rows : List ρ
  keys : List κ
  deriving DecidableEq,Repr

variable [DecidableEq κ] [DecidableEq ρ] {k : κ} {row : Except ε ρ} {r : ρ} {t t' t'' : Table κ ρ}
  {calls calls' : List (κ × Except ε ρ)}

namespace Table

-- The row is only made when it is taken.
def add (k : κ) (row : Except ε ρ) (t : Table κ ρ) : Except ε (Table κ ρ) :=
  if k ∈ t.keys then .ok t else row.map fun r => ⟨t.rows.insert r,t.keys.insert k⟩

def addAll : List (κ × Except ε ρ) → Table κ ρ → Except ε (Table κ ρ)
  | [],t => .ok t
  | call::calls,t => t.add call.1 call.2 >>= addAll calls

theorem add_ok (ran : t.add k row = .ok t') :
    k ∈ t.keys ∧ t' = t ∨ k ∉ t.keys ∧ ∃ r, row = .ok r ∧ t' = ⟨t.rows.insert r,t.keys.insert k⟩ := by
  unfold add at ran
  split at ran
  · next there => exact .inl ⟨there,(Except.ok.inj ran).symm⟩
  · next missing =>
    cases row with
    | error e => cases ran
    | ok r => exact .inr ⟨missing,r,rfl,(Except.ok.inj ran).symm⟩

theorem addAll_append (first : addAll calls t = .ok t') (second : addAll calls' t' = .ok t'') :
    addAll (calls ++ calls') t = .ok t'' := by
  induction calls generalizing t with
  | nil =>
    cases first
    exact second
  | cons call calls ih =>
    obtain ⟨t1,one,rest⟩ := bind_ok first
    rw [List.cons_append,addAll,one]
    exact ih rest

theorem addAll_one (ran : t.add k row = .ok t') : addAll [(k,row)] t = .ok t' := by
  rw [addAll,ran]
  rfl

-- What is in the table is what was there and the rows of the first calls of the keys that were not.
theorem mem_addAll (ran : addAll calls t = .ok t') (r : ρ) :
    r ∈ t'.rows ↔ r ∈ t.rows ∨ ∃ call, First Prod.fst calls call ∧ call.1 ∉ t.keys ∧ call.2 = .ok r := by
  induction calls generalizing t with
  | nil =>
    cases ran
    refine (or_iff_left ?_).symm
    rintro ⟨call,first,_⟩
    exact absurd first.mem List.not_mem_nil
  | cons call calls ih =>
    obtain ⟨t1,one,rest⟩ := bind_ok ran
    rw [ih rest]
    rcases add_ok one with ⟨there,rfl⟩ | ⟨missing,made,is_made,rfl⟩
    · refine or_congr Iff.rfl (exists_congr fun other => ?_)
      rw [first_cons]
      constructor
      · rintro ⟨first,outside,is_row⟩
        exact ⟨.inr ⟨fun same => outside (same ▸ there),first⟩,outside,is_row⟩
      · rintro ⟨rfl | ⟨_,first⟩,outside,is_row⟩
        · exact absurd there outside
        · exact ⟨first,outside,is_row⟩
    · dsimp only
      rw [List.mem_insert_iff]
      constructor
      · rintro ((rfl | old) | ⟨other,first,outside,is_row⟩)
        · exact .inr ⟨call,first_cons.mpr (.inl rfl),missing,is_made⟩
        · exact .inl old
        · rw [List.mem_insert_iff,not_or] at outside
          exact .inr ⟨other,first_cons.mpr (.inr ⟨Ne.symm outside.1,first⟩),outside.2,is_row⟩
      · rintro (old | ⟨other,first,outside,is_row⟩)
        · exact .inl (.inr old)
        · rcases first_cons.mp first with rfl | ⟨apart,first⟩
          · exact .inl (.inl (Except.ok.inj (is_row.symm.trans is_made)))
          · refine .inr ⟨other,first,?_,is_row⟩
            rw [List.mem_insert_iff,not_or]
            exact ⟨Ne.symm apart,outside⟩

end Table
end FirstWins
