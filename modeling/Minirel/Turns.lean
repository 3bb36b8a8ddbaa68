import Mathlib.Data.List.Basic

namespace Turns

-- A loop that asks for the next item and works on it, turn by turn. Each part may say why the loop
-- is over: next that there is no item left for it, body that the work has failed.
structure Loop (σ κ ω ε : Type) where
  next : σ → Except ε (Option κ × σ)
  body : σ → Except ε (Option ω × σ)

namespace Loop

variable {σ κ ω ε : Type}

-- Whatever next said, the loop returns fine; a failure of the body it returns as it is.
def run (l : Loop σ κ ω ε) (fine : ω) (out : ε) : Nat → σ → Except ε (ω × σ)
  | 0,_ => .error out
  | turns+1,s =>
    match l.next s with
    | .error a => .error a
    | .ok (some _,s) => .ok (fine,s)
    | .ok (none,s) =>
      match l.body s with
      | .error a => .error a
      | .ok (some failed,s) => .ok (failed,s)
      | .ok (none,s) => run l fine out turns s

-- What the loops of a run were ended with by their next: those that the body runs, and the loop
-- itself last.
def ends (l : Loop σ κ ω ε) (inside : σ → List κ) : Nat → σ → List κ
  | 0,_ => []
  | turns+1,s =>
    match l.next s with
    | .error _ => []
    | .ok (some ended,_) => [ended]
    | .ok (none,s) =>
      inside s ++
        match l.body s with
        | .ok (none,s) => ends l inside turns s
        | _ => []

variable {l : Loop σ κ ω ε} {fine : ω} {out : ε} {inside : σ → List κ}

theorem run_ended (inside : σ → List κ) {s s' : σ} {ended : κ} (next : l.next s = .ok (some ended,s')) (turns : Nat) :
    l.run fine out (turns + 1) s = .ok (fine,s') ∧ l.ends inside (turns + 1) s = [ended] := by
  simp [run,ends,next]

theorem run_goes (inside : σ → List κ) {s s1 s2 : σ} (next : l.next s = .ok (none,s1))
    (body : l.body s1 = .ok (none,s2)) (turns : Nat) :
    l.run fine out (turns + 1) s = l.run fine out turns s2 ∧
      l.ends inside (turns + 1) s = inside s1 ++ l.ends inside turns s2 := by
  simp [run,ends,next,body]

-- The first turn of a loop that returns, one case for each way it can go.
theorem run_cases {turns : Nat} {s s' : σ} {status : ω} (ran : l.run fine out (turns + 1) s = .ok (status,s')) :
    (∃ ended, l.next s = .ok (some ended,s') ∧ status = fine) ∨
    (∃ s1, l.next s = .ok (none,s1) ∧ l.body s1 = .ok (some status,s')) ∨
    ∃ s1 s2, l.next s = .ok (none,s1) ∧ l.body s1 = .ok (none,s2) ∧ l.run fine out turns s2 = .ok (status,s') := by
  cases next : l.next s with
  | error a => simp [run,next] at ran
  | ok result =>
    obtain ⟨ended,s1⟩ := result
    cases ended with
    | some ended =>
      obtain ⟨rfl,rfl⟩ : fine = status ∧ s1 = s' := by simpa [run,next] using ran
      exact .inl ⟨ended,rfl,rfl⟩
    | none =>
      cases body : l.body s1 with
      | error a => simp [run,next,body] at ran
      | ok result =>
        obtain ⟨failed,s2⟩ := result
        cases failed with
        | some failed =>
          obtain ⟨rfl,rfl⟩ : failed = status ∧ s2 = s' := by simpa [run,next,body] using ran
          exact .inr (.inl ⟨s1,rfl,body⟩)
        | none => exact .inr (.inr ⟨s1,s2,rfl,body,by simpa [run,next,body] using ran⟩)

theorem run_invariant (Inv : σ → Prop) (turns : Nat) {s s' : σ} {status : ω}
    (stepped : ∀ s ended s', Inv s → l.next s = .ok (ended,s') → Inv s')
    (worked : ∀ s failed s', Inv s → l.body s = .ok (failed,s') → Inv s') (start : Inv s)
    (ran : l.run fine out turns s = .ok (status,s')) :
    Inv s' := by
  induction turns generalizing s with
  | zero => cases ran
  | succ turns ih =>
    rcases run_cases ran with ⟨ended,next,_⟩ | ⟨s1,next,body⟩ | ⟨s1,s2,next,body,later⟩
    · exact stepped s _ s' start next
    · exact worked s1 _ s' (stepped s _ s1 start next) body
    · exact ih (worked s1 _ s2 (stepped s _ s1 start next) body) later

-- A body that does not fail on what next gives it leaves the loop nothing but fine to return.
theorem run_unfailing (turns : Nat) {s s' : σ} {status : ω}
    (sure : ∀ s s1 failed s', l.next s = .ok (none,s1) → l.body s1 ≠ .ok (some failed,s'))
    (ran : l.run fine out turns s = .ok (status,s')) :
    status = fine := by
  induction turns generalizing s with
  | zero => cases ran
  | succ turns ih =>
    rcases run_cases ran with ⟨ended,_,same⟩ | ⟨s1,next,body⟩ | ⟨s1,s2,_,_,later⟩
    · exact same
    · exact absurd body (sure s s1 status s' next)
    · exact ih later

-- When the body runs no loop that ends, the loop has an end only when its own next gives it one.
theorem run_of_ends (fine : ω) (out : ε) (turns : Nat) {s : σ} (quiet : ∀ s, inside s = [])
    (some_end : l.ends inside turns s ≠ []) :
    ∃ s0 ended s', l.next s0 = .ok (some ended,s') ∧ l.run fine out turns s = .ok (fine,s') := by
  induction turns generalizing s with
  | zero => exact absurd rfl some_end
  | succ turns ih =>
    cases next : l.next s with
    | error a => simp [ends,next] at some_end
    | ok result =>
      obtain ⟨ended,s1⟩ := result
      cases ended with
      | some ended => exact ⟨s,ended,s1,next,(run_ended inside next turns).1⟩
      | none =>
        cases body : l.body s1 with
        | error a => simp [ends,next,body,quiet] at some_end
        | ok result =>
          obtain ⟨failed,s2⟩ := result
          cases failed with
          | some failed => simp [ends,next,body,quiet] at some_end
          | none =>
            obtain ⟨run_eq,ends_eq⟩ := run_goes inside next body turns
            rw [ends_eq,quiet,List.nil_append] at some_end
            rw [run_eq]
            exact ih some_end

-- A loop whose turns are numbered is not cut short by a caller who waits longer, as long as the numbers
-- are bounded at all.
theorem run_within {Inv : Nat → σ → Prop} {Stops : ε → Prop} {Post : ω → σ → Prop} {bounded : Prop}
    (turn : ∀ m s, Inv m s → (∃ ended s', l.next s = .ok (some ended,s') ∧ Post fine s') ∨
      ∃ s1, l.next s = .ok (none,s1) ∧ ((∃ a, Stops a ∧ l.body s1 = .error a) ∨
        (∃ failed s2, l.body s1 = .ok (some failed,s2) ∧ Post failed s2) ∨
        ∃ m' s2, (bounded → m' < m) ∧ l.body s1 = .ok (none,s2) ∧ Inv m' s2))
    (turns : Nat) {m : Nat} {s : σ} (start : Inv m s) :
    ((bounded → turns ≤ m) ∧ l.run fine out turns s = .error out) ∨
      (∃ a, Stops a ∧ l.run fine out turns s = .error a) ∨
      ∃ status s', l.run fine out turns s = .ok (status,s') ∧ Post status s' := by
  induction turns generalizing m s with
  | zero => exact .inl ⟨fun _ => Nat.zero_le m,rfl⟩
  | succ turns ih =>
    rcases turn m s start with ⟨ended,s',next,post⟩ | ⟨s1,next,stops | failed | goes⟩
    · exact .inr (.inr ⟨fine,s',by simp [run,next],post⟩)
    · obtain ⟨a,stop,body⟩ := stops
      exact .inr (.inl ⟨a,stop,by simp [run,next,body]⟩)
    · obtain ⟨failed,s2,body,post⟩ := failed
      exact .inr (.inr ⟨failed,s2,by simp [run,next,body],post⟩)
    · obtain ⟨m',s2,less,body,inv⟩ := goes
      have same : l.run fine out (turns + 1) s = l.run fine out turns s2 := by simp [run,next,body]
      rw [same]
      refine (ih inv).imp_left fun few => ⟨fun bound => ?_,few.2⟩
      exact Nat.succ_le_of_lt (Nat.lt_of_le_of_lt (few.1 bound) (less bound))

end Loop
end Turns
