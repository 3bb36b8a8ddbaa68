import Mathlib.Logic.Function.Basic
import Mathlib.Data.List.Basic

namespace Simulation

-- Statements of a type ι take a program from a state of γ to another and give outputs of ω, or it fails.
-- What they mean is a relation on states of σ, with answers of α.
variable {σ γ ι α ω ε : Type*}

inductive Script (means : σ → ι → α → σ → Prop) : σ → List ι → List α → σ → Prop where
  | nil {s : σ} : Script means s [] [] s
  | cons {s s' s'' : σ} {i : ι} {a : α} {is : List ι} {answers : List α} (first : means s i a s')
      (rest : Script means s' is answers s'') :
      Script means s (i::is) (a::answers) s''

def runAll (run : ι → γ → Except ε (ω × γ)) : List ι → γ → Except ε (List ω × γ)
  | [],g => .ok ([],g)
  | i::is,g =>
    match run i g with
    | .error e => .error e
    | .ok (w,g) =>
      match runAll run is g with
      | .error e => .error e
      | .ok (ws,g) => .ok (w::ws,g)

-- Whatever a statement means, the program does, and its output reads as the answer.
def Simulates (means : σ → ι → α → σ → Prop) (run : ι → γ → Except ε (ω × γ)) (represents : γ → σ → Prop)
    (read : ω → α) : Prop :=
  ∀ g s i a s', represents g s → means s i a s' → ∃ w g', run i g = .ok (w,g') ∧ read w = a ∧ represents g' s'

variable {means : σ → ι → α → σ → Prop} {run : ι → γ → Except ε (ω × γ)} {represents : γ → σ → Prop}
  {read : ω → α} {s s' s'' : σ} {g : γ}
  {is is' : List ι} {answers answers' : List α}

theorem Script.append (first : Script means s is answers s') (second : Script means s' is' answers' s'') :
    Script means s (is ++ is') (answers ++ answers') s'' := by
  induction first with
  | nil => exact second
  | cons one _ ih => exact .cons one (ih second)

-- Then it does whatever a script means.
theorem Simulates.runAll (simulates : Simulates means run represents read) (script : Script means s is answers s')
    (represented : represents g s) : ∃ ws g', runAll run is g = .ok (ws,g') ∧ ws.map read = answers ∧
    represents g' s' := by
  induction script generalizing g with
  | nil => exact ⟨[],g,rfl,rfl,represented⟩
  | cons one _ ih =>
    obtain ⟨w,g1,ran,told,represented1⟩ := simulates g _ _ _ _ represented one
    obtain ⟨ws,g2,rest,answered,represented2⟩ := ih represented1
    refine ⟨w::ws,g2,?_,?_,represented2⟩
    · rw [Simulation.runAll,ran]
      dsimp only
      rw [rest]
    · rw [List.map_cons,told,answered]

-- Without the outputs it is a fold.
theorem runAll_foldlM (is : List ι) (g : γ) :
    (runAll run is g).map Prod.snd = is.foldlM (fun g i => (run i g).map Prod.snd) g := by
  induction is generalizing g with
  | nil => rfl
  | cons i is ih =>
    rw [runAll,List.foldlM_cons]
    cases run i g with
    | error e => rfl
    | ok r =>
      obtain ⟨w,g'⟩ := r
      have rest := ih g'
      change _ = is.foldlM (fun g i => (run i g).map Prod.snd) g'
      rw [← rest]
      dsimp only
      cases Simulation.runAll run is g' <;> rfl

end Simulation
