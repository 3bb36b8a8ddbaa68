import Mathlib.Data.List.Nodup
import Mathlib.Logic.Function.Iterate

-- Names are taken one by one; one that is taken already gets a mark, with a number that goes on.
namespace Numbering

variable {α κ : Type} {mark : α → κ → α} {next : κ → κ} {fits : α → Prop} {k : κ} {taken before marked rest : List α}
  {n : Nat}

-- The numbers of so many marks are told apart by what is marked with them.
def Apart (mark : α → κ → α) (next : κ → κ) (k : κ) (n : Nat) : Prop :=
  ∀ a b i j, i < j → j < n → mark a (next^[i] k) ≠ mark b (next^[j] k)

theorem Apart.step (apart : Apart mark next k (n + 1)) : Apart mark next (next k) n := by
  intro a b i j before inside
  rw [← Function.iterate_succ_apply,← Function.iterate_succ_apply]
  exact apart a b (i + 1) (j + 1) (Nat.succ_lt_succ before) (Nat.succ_lt_succ inside)

theorem Apart.fewer {m : Nat} (apart : Apart mark next k n) (fewer : m ≤ n) : Apart mark next k m :=
  fun a b i j before inside => apart a b i j before (Nat.lt_of_lt_of_le inside fewer)

-- No mark to come has been made before.
def Ahead (mark : α → κ → α) (next : κ → κ) (k : κ) (n : Nat) (marked : List α) : Prop :=
  ∀ x ∈ marked, ∀ a, ∀ j < n, mark a (next^[j] k) ≠ x

theorem Ahead.step (ahead : Ahead mark next k (n + 1) marked) (apart : Apart mark next k (n + 1)) (a : α) :
    Ahead mark next (next k) n (mark a k::marked) := by
  intro x member b j inside
  rw [← Function.iterate_succ_apply]
  rcases List.mem_cons.mp member with rfl | member
  · exact (apart a b 0 (j + 1) (Nat.succ_pos j) (Nat.succ_lt_succ inside)).symm
  · exact ahead x member b (j + 1) (Nat.succ_lt_succ inside)

theorem Ahead.fewer {m : Nat} (ahead : Ahead mark next k n marked) (fewer : m ≤ n) : Ahead mark next k m marked :=
  fun x member a j inside => ahead x member a j (Nat.lt_of_lt_of_le inside fewer)

-- What is taken are the names before and their marked ones.
def Known (taken before marked : List α) : Prop := ∀ x, x ∈ taken ↔ x ∈ before ∨ x ∈ marked

theorem Known.fresh (known : Known taken before marked) (a : α) : Known (taken ++ [a]) (a::before) marked := by
  intro x
  rw [List.mem_append,List.mem_singleton,List.mem_cons,known x]
  tauto

theorem Known.renamed {a b : α} (known : Known taken before marked) (member : a ∈ taken) :
    Known (taken ++ [b]) (a::before) (b::marked) := by
  intro x
  have there := (known a).mp member
  rw [List.mem_append,List.mem_singleton,List.mem_cons,List.mem_cons,known x]
  constructor
  · tauto
  · rintro ((rfl | old) | (rfl | old))
    · exact .inl there
    · exact .inl (.inl old)
    · exact .inr rfl
    · exact .inl (.inr old)

theorem nodup_cons_names {a : α} {taken later : List α} :
    (taken ++ a::later).Nodup ↔ (taken ++ [a] ++ later).Nodup := by
  rw [List.append_assoc,List.singleton_append]

variable [DecidableEq α]

def names (mark : α → κ → α) (next : κ → κ) (k : κ) (taken : List α) : List α → List α
  | [] => []
  | a::rest =>
    if a ∈ taken then mark a k::names mark next (next k) (taken ++ [mark a k]) rest
    else a::names mark next k (taken ++ [a]) rest

-- Behind the names before, and the marked ones that were made for them: no marked name that is made is
-- one of the names before.
def Clear (mark : α → κ → α) (next : κ → κ) (fits : α → Prop) (k : κ) (before marked : List α) : List α → Prop
  | [] => True
  | a::rest =>
    if a ∈ before ∨ a ∈ marked then (mark a k ∉ before ∧ fits (mark a k)) ∧
      Clear mark next fits (next k) (a::before) (mark a k::marked) rest
    else Clear mark next fits k (a::before) marked rest

instance decidableClear [DecidablePred fits] : ∀ (k : κ) (before marked rest : List α), Decidable
    (Clear mark next fits k before marked rest)
  | _,_,_,[] => .isTrue trivial
  | k,before,marked,a::rest =>
    have renamed := decidableClear (next k) (a::before) (mark a k::marked) rest
    have kept := decidableClear k (a::before) marked rest
    if member : a ∈ before ∨ a ∈ marked then decidable_of_iff
      ((mark a k ∉ before ∧ fits (mark a k)) ∧ Clear mark next fits (next k) (a::before) (mark a k::marked) rest)
      (by rw [Clear,if_pos member])
    else decidable_of_iff (Clear mark next fits k (a::before) marked rest) (by rw [Clear,if_neg member])

-- The names stay apart and fit exactly when every mark is clear of the names before.
theorem names_nodup_iff (known : Known taken before marked) (apart : Apart mark next k rest.length)
    (ahead : Ahead mark next k rest.length marked)
    (nodup : taken.Nodup) (short : ∀ a ∈ rest, fits a) :
    ((taken ++ names mark next k taken rest).Nodup ∧ ∀ x ∈ names mark next k taken rest, fits x) ↔
    Clear mark next fits k before marked rest := by
  induction rest generalizing k taken before marked with
  | nil =>
    rw [names,List.append_nil]
    exact iff_of_true ⟨nodup,List.forall_mem_nil _⟩ trivial
  | cons a rest ih =>
    have short_rest : ∀ b ∈ rest, fits b := fun b member => short b (List.mem_cons_of_mem _ member)
    rw [List.length_cons] at apart ahead
    rw [names,Clear]
    by_cases member : a ∈ taken
    · rw [if_pos member,if_pos ((known a).mp member),nodup_cons_names,List.forall_mem_cons]
      have unmarked : mark a k ∉ marked := fun there => ahead _ there a 0 (Nat.succ_pos _) rfl
      have outside : mark a k ∉ taken ↔ mark a k ∉ before := by
        rw [known (mark a k),not_or]
        exact and_iff_left unmarked
      by_cases clear : mark a k ∈ before
      · refine iff_of_false ?_ fun holds => holds.1.1 clear
        rintro ⟨distinct,_⟩
        have apart_taken := (List.nodup_append.mp (List.nodup_append.mp distinct).1).2.2
        exact apart_taken _ ((known _).mpr (.inl clear)) _ (List.mem_singleton_self _) rfl
      · have fresh := outside.mpr clear
        have distinct : (taken ++ [mark a k]).Nodup :=
            List.nodup_append.mpr ⟨nodup,List.nodup_singleton _,fun x there y same =>
          fun equal => fresh (List.mem_singleton.mp same ▸ equal ▸ there)⟩
        rw [← ih (known.renamed member) apart.step (ahead.step apart a) distinct short_rest]
        tauto
    · rw [if_neg member,if_neg (fun there => member ((known a).mpr there)),nodup_cons_names,List.forall_mem_cons]
      have distinct : (taken ++ [a]).Nodup := List.nodup_append.mpr ⟨nodup,List.nodup_singleton _,fun x there y same =>
        fun equal => member (List.mem_singleton.mp same ▸ equal ▸ there)⟩
      rw [← ih (known.fresh a) (apart.fewer (Nat.le_succ _)) (ahead.fewer (Nat.le_succ _)) distinct short_rest]
      have fit := short a List.mem_cons_self
      tauto

end Numbering
