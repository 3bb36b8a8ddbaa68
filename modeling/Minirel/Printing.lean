import Minirel.Interp

namespace Minirel
open Interp

-- The end of a query, and below the statements, with the records that UT_Print shows.
def showResult (setting : Setting) (resultName : Name) (s : Interpreter) :
    Except Abort (List Record × Interpreter) := do
  if resultName ≠ tmpResultName then return ([],s)
  let (_,recs,db) ← UT_Print setting.turns s.db resultName
  let (_,db) ← RelCatalog.destroyRel db resultName
  return (recs,{s with db := db})

def interpQueryPrinting (setting : Setting) (relname : Option Name) (attrlist : List (Name × Name))
    (qual : Option Qual) (s : Interpreter) :
    Except Abort (List Record × Interpreter) := do
  let (found,db) ← resultRelation s.db relname
  let some (resultName,existing) := found | return ([],{s with db := db})
  let .ok (infos,request) ← queryArguments setting attrlist qual | return ([],{s with db := db})
  let (status,s) ← prepareResult request resultName existing infos {s with db := db}
  if status ≠ .ok then return ([],s)
  let (_,db) ← runRequest setting s.db resultName infos request
  showResult setting resultName {s with db := db}

def utPrinting (setting : Setting) (relation : Name) (s : Interpreter) : Except Abort (List Record × Interpreter) := do
  let (_,recs,db) ← UT_Print setting.turns s.db relation
  return (recs,{s with db := db})

-- HELP without a relation prints relcat.
def interpPrinting (setting : Setting) (n : Node) (s : Interpreter) : Except Abort (List Record × Interpreter) :=
  match n with
  | .query relname attrlist qual => interpQueryPrinting setting relname attrlist qual s
  | .print relname => utPrinting setting relname s
  | .help none => utPrinting setting relCatName s
  | n => do
    let s ← interp setting n s
    return ([],s)

theorem map_bind {α β γ : Type} (x : Except Abort α) (f : α → Except Abort β) (g : β → γ) :
    (x >>= f).map g = x >>= fun a => (f a).map g := by
  cases x <;> rfl

-- Showing them is all that is different.
theorem interpQueryPrinting_interp (setting : Setting) (relname : Option Name) (attrlist : List (Name × Name))
    (qual : Option Qual) (s : Interpreter) :
    (interpQueryPrinting setting relname attrlist qual s).map Prod.snd =
    interpQuery setting relname attrlist qual s := by
  rw [interpQueryPrinting,interpQuery,map_bind]
  refine bind_congr fun r => ?_
  obtain ⟨found,db⟩ := r
  cases found with
  | none => rfl
  | some found =>
    obtain ⟨resultName,existing⟩ := found
    dsimp only
    rw [map_bind]
    refine bind_congr fun arguments => ?_
    cases arguments with
    | error refusal => rfl
    | ok arguments =>
      obtain ⟨infos,request⟩ := arguments
      dsimp only
      rw [map_bind]
      refine bind_congr fun r => ?_
      obtain ⟨status,s⟩ := r
      dsimp only
      split
      · rfl
      rw [map_bind]
      refine bind_congr fun r => ?_
      obtain ⟨status,db⟩ := r
      dsimp only
      rw [showResult]
      split
      · rfl
      rw [map_bind]
      refine bind_congr fun r => ?_
      rw [map_bind]
      rfl

theorem interpPrinting_interp (setting : Setting) (n : Node) (s : Interpreter) :
    (interpPrinting setting n s).map Prod.snd = interp setting n s := by
  have silent : ∀ n', (interp setting n' s >>= fun s => .ok (([] : List Record),s)).map Prod.snd =
      interp setting n' s := by
    intro n'
    cases interp setting n' s <;> rfl
  cases n with
  | query relname attrlist qual => exact interpQueryPrinting_interp ..
  | print relname =>
    change (utPrinting setting relname s).map Prod.snd = _
    rw [utPrinting,map_bind]
    rfl
  | help relname =>
    cases relname with
    | none =>
      change (utPrinting setting relCatName s).map Prod.snd = _
      rw [utPrinting,map_bind,interp,Option.getD_none,RelCatalog.help,if_pos rfl,bind_assoc]
      rfl
    | some relname => exact silent _
  | insert relname attrlist => exact silent _
  | delete relname qual => exact silent _
  | create relname attrlist primattr => exact silent _
  | destroy relname => exact silent _
  | build relname attrname => exact silent _
  | drop relname attrname => exact silent _
  | load relname filename => exact silent _

end Minirel
