import Mathlib.Data.List.Basic
import Mathlib.Data.List.Nodup

namespace ThreadedList

-- A list threaded through its own cells: `next` reads the link in a cell, and the link that leads
-- nowhere is `stop`.
variable {α : Type} {next next' : α → Option α} {stop start a : α} {l l' before after : List α}

def Threaded (next : α → Option α) (stop : α) : α → List α → Prop
  | start,[] => start = stop
  | start,a::rest => start = a ∧ a ≠ stop ∧ ∃ n, next a = some n ∧ Threaded next stop n rest

theorem Threaded.congr (threaded : Threaded next stop start l) (same : ∀ a ∈ l, next' a = next a) :
    Threaded next' stop start l := by
  induction l generalizing start with
  | nil => exact threaded
  | cons a rest ih =>
    obtain ⟨here,inner,n,link,tail⟩ := threaded
    exact ⟨here,inner,n,by rw [same a (List.mem_cons_self ..)]; exact link,
      ih tail fun b member => same b (List.mem_cons_of_mem _ member)⟩

-- The cells determine the list.
theorem Threaded.unique (one : Threaded next stop start l) (two : Threaded next stop start l') : l = l' := by
  induction l generalizing start l' with
  | nil =>
    cases l' with
    | nil => rfl
    | cons b rest => exact absurd (two.1.symm.trans one) two.2.1
  | cons a rest ih =>
    obtain ⟨rfl,inner,n,link,tail⟩ := one
    cases l' with
    | nil => exact absurd two inner
    | cons b rest' =>
      obtain ⟨rfl,_,m,link',tail'⟩ := two
      rw [link] at link'
      cases link'
      rw [ih tail tail']

theorem Threaded.suffix (threaded : Threaded next stop start (before ++ a::after)) :
    Threaded next stop a (a::after) := by
  induction before generalizing start with
  | nil =>
    obtain ⟨rfl,rest⟩ := threaded
    exact ⟨rfl,rest⟩
  | cons b rest ih =>
    obtain ⟨_,_,n,_,tail⟩ := threaded
    exact ih tail

-- A list that ends cannot come back to a cell.
theorem Threaded.nodup (threaded : Threaded next stop start l) : l.Nodup := by
  induction l generalizing start with
  | nil => exact List.nodup_nil
  | cons a rest ih =>
    have whole := threaded
    obtain ⟨rfl,_,n,_,tail⟩ := threaded
    refine List.nodup_cons.mpr ⟨fun member => ?_,ih tail⟩
    obtain ⟨before,after,rfl⟩ := List.append_of_mem member
    have equal := congrArg List.length (whole.unique tail.suffix)
    simp only [List.length_cons,List.length_append] at equal
    omega

-- Pushing a cell that is on the list already closes a circle.
theorem Threaded.push_again (threaded : Threaded next stop start l) (member : a ∈ l) (link : next' a = some start)
    (same : ∀ b ∈ l, b ≠ a → next' b = next b) : ¬ Threaded next' stop a l' := by
  intro again
  obtain ⟨before,after,rfl⟩ := List.append_of_mem member
  have apart : ∀ b ∈ before, b ≠ a := by
    rintro b earlier rfl
    exact (List.nodup_append.mp threaded.nodup).2.2 b earlier b (List.mem_cons_self ..) rfl
  cases l' with
  | nil => exact absurd again threaded.suffix.2.1
  | cons b rest =>
    have whole := again
    obtain ⟨rfl,_,n,link',tail⟩ := again
    rw [link] at link'
    cases link'
    -- From `start` the links lead to `a` as before, and from there along the whole list once more.
    have walk : ∀ pre (s : α), Threaded next stop s (pre ++ a::after) → (∀ b ∈ pre, b ∈ before) →
        Threaded next' stop s (pre ++ a::rest) := by
      intro pre
      induction pre with
      | nil =>
        rintro s ⟨rfl,_⟩ _
        exact whole
      | cons c more ih =>
        rintro s ⟨rfl,inner,m,step,path⟩ early
        have here := early s (List.mem_cons_self ..)
        refine ⟨rfl,inner,m,?_,ih m path fun b later => early b (List.mem_cons_of_mem _ later)⟩
        rw [same s (List.mem_append_left _ here) (apart s here)]
        exact step
    have circle := congrArg List.length ((walk before start threaded fun _ here => here).unique tail)
    rw [List.length_append,List.length_cons] at circle
    omega

end ThreadedList
