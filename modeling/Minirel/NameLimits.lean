import Mathlib.Data.List.TakeWhile
import Minirel.ParseLimits
import Minirel.Scan

namespace Minirel

-- Nothing is written behind an array.
def Defined {α : Type} (x : Except Abort α) : Prop := x ≠ .error .undefined

section defined

variable {α β : Type}

theorem defined_ok (a : α) : Defined (.ok a : Except Abort α) := fun ended => by cases ended

theorem defined_bind {x : Except Abort α} {f : α → Except Abort β} : Defined (x >>= f) ↔ Defined x ∧
    ∀ a, x = .ok a → Defined (f a) := by
  cases x with
  | ok a =>
    constructor
    · intro later
      refine ⟨defined_ok a,fun b same => ?_⟩
      cases same
      exact later
    · intro both
      obtain ⟨_,later⟩ := both
      exact later a rfl
  | error abort =>
    constructor
    · intro first
      refine ⟨fun ended => first ?_,fun a same => by cases same⟩
      cases ended
      rfl
    · intro both ended
      obtain ⟨first,_⟩ := both
      exact first (by cases ended; rfl)

end defined

namespace Interp

-- What interp copies for a statement; found is what there is of the result relation of a query.
def copies (setting : Setting) (found : Option (Name × Option (List AttrDesc))) : Node → Except Abort Unit
  | .query _ attrlist qual => do
    let some (resultName,existing) := found | return ()
    let .ok (infos,_) ← queryArguments setting attrlist qual | return ()
    match existing with
    | some _ => return ()
    | none =>
      let _ ← attrInfos (infos.map fun info => (resultName,info.attrName,0,0,none))
      return ()
  | .insert relname attrlist => do
    let _ ← insertArguments setting relname attrlist
    return ()
  | .delete _ (some (.select _ _ value)) => do
    let _ ← value.valueOf setting
    return ()
  | .create relname attrlist _ => do
    let _ ← createArguments relname attrlist
    return ()
  | _ => return ()

theorem strcpy_defined_iff (size : Nat) (src : List UInt8) : Defined (strcpy size src) ↔ src.length < size := by
  unfold strcpy
  split
  · rename_i fits
    exact ⟨fun _ => fits,fun _ => defined_ok _⟩
  · rename_i long
    exact ⟨fun defined => absurd rfl defined,fun fits => absurd fits long⟩

theorem valueOf_defined_iff (setting : Setting) (value : Value) :
    Defined (value.valueOf setting) ↔ (value.text setting).length < 255 := by
  cases value <;> exact strcpy_defined_iff _ _

-- The names of an attrInfo.
def Stored (e : Name × Name × Int × Int × Option (List UInt8)) : Prop := e.1.length < maxName ∧ e.2.1.length < maxName

theorem attrInfo_defined_iff (relName attrName : Name) (attrType attrLen : Int) (attrValue : Option (List UInt8)) :
    Defined (attrInfo relName attrName attrType attrLen attrValue) ↔ relName.length < maxName ∧
      attrName.length < maxName := by
  constructor
  · intro defined
    rw [attrInfo,defined_bind,strcpy_defined_iff] at defined
    obtain ⟨rel,later⟩ := defined
    have second := later relName (strcpy_ok rel)
    rw [defined_bind,strcpy_defined_iff] at second
    exact ⟨rel,second.1⟩
  · intro names
    obtain ⟨rel,attr⟩ := names
    rw [attrInfo_ok rel attr]
    exact defined_ok _

theorem attrInfos_defined_iff (list : List (Name × Name × Int × Int × Option (List UInt8))) :
    Defined (attrInfos list) ↔ ∀ e ∈ list, Stored e := by
  constructor
  · induction list with
    | nil => exact fun _ e member => absurd member List.not_mem_nil
    | cons e rest ih =>
      obtain ⟨relName,attrName,attrType,attrLen,attrValue⟩ := e
      intro defined
      rw [attrInfos,defined_bind,attrInfo_defined_iff] at defined
      obtain ⟨stored,later⟩ := defined
      have tail := later _ (attrInfo_ok stored.1 stored.2 attrType attrLen attrValue)
      rw [defined_bind] at tail
      exact List.forall_mem_cons.mpr ⟨stored,ih tail.1⟩
  · intro stored
    rw [attrInfos_ok stored]
    exact defined_ok _

section lists

variable {α β : Type} {item : α → Except Abort (Except Refusal β)}

-- A list of which each item is judged is judged, and taken only when every item is.
theorem convert_judged (judged : ∀ a, ∃ r, item a = .ok r) (list : List α) :
    ∃ r, convert item list = .ok r ∧ ∀ bs, r = .ok bs → ∀ a ∈ list, ∃ b, item a = .ok (.ok b) := by
  induction list with
  | nil => exact ⟨.ok [],rfl,fun _ _ a member => absurd member List.not_mem_nil⟩
  | cons a rest ih =>
    obtain ⟨r,one⟩ := judged a
    obtain ⟨rs,run,all⟩ := ih
    rw [convert,one,ok_bind]
    cases r with
    | error refusal => exact ⟨.error refusal,rfl,fun _ same => by cases same⟩
    | ok b =>
      dsimp only
      rw [run,ok_bind]
      cases rs with
      | error refusal => exact ⟨.error refusal,rfl,fun _ same => by cases same⟩
      | ok bs => exact ⟨.ok (b::bs),rfl,fun _ _ => List.forall_mem_cons.mpr ⟨⟨b,one⟩,all bs rfl⟩⟩

theorem mkList_refused {list : List α} (judged : ∀ a, ∃ r, item a = .ok r)
    (bad : ¬ (list.length < maxAttrs ∧ ∀ a ∈ list, ∃ b, item a = .ok (.ok b))) : ∃ refusal, mkList item list =
    .ok (.error refusal) := by
  obtain ⟨r,run,all⟩ := convert_judged judged (list.take maxAttrs)
  rw [mkList,run,ok_bind]
  cases r with
  | error refusal => exact ⟨refusal,rfl⟩
  | ok bs =>
    by_cases long : maxAttrs ≤ list.length
    · exact ⟨.tooManyAttrs,by simp [long]; rfl⟩
    · have short := Nat.not_le.mp long
      have taken := all bs rfl
      rw [List.take_of_length_le (Nat.le_of_lt short)] at taken
      exact absurd ⟨short,taken⟩ bad

-- The loops that only ask whether an attribute is of the right relation.
theorem mkList_check (list : List α) (p : α → Prop) [DecidablePred p] (refusal : Refusal) :
    (list.length < maxAttrs ∧ (∀ a ∈ list.take maxAttrs, p a) →
      mkList (fun a => return if p a then .ok a else .error refusal) list = .ok (.ok list)) ∧
    (¬ (list.length < maxAttrs ∧ ∀ a ∈ list.take maxAttrs, p a) →
      ∃ refusal', mkList (fun a => return if p a then .ok a else .error refusal) list = .ok (.error refusal')) := by
  constructor
  · intro accepted
    obtain ⟨short,all⟩ := accepted
    rw [List.take_of_length_le (Nat.le_of_lt short)] at all
    have made : mkList (fun a => return if p a then .ok a else .error refusal) list = .ok (.ok (list.map id)) :=
      mkList_ok id short fun a member => by simp [all a member]; rfl
    rw [made,List.map_id]
  · intro bad
    apply mkList_refused fun a => ⟨_,rfl⟩
    intro accepted
    obtain ⟨short,all⟩ := accepted
    refine bad ⟨short,fun a member => ?_⟩
    obtain ⟨b,same⟩ := all a (List.mem_of_mem_take member)
    by_contra other
    rw [if_neg other] at same
    cases same

end lists

-- What is asked beside the attributes to project on.
def requestOf (setting : Setting) : Option Qual → Except Abort Request
  | none => return .select none .lt []
  | some (.select selattr op value) => do
    let attr1 ← attrInfo selattr.1 selattr.2 value.typeOf.code (-1) none
    let text ← value.valueOf setting
    return .select (some {attr1 with attrValue := some text}) op text
  | some (.join joinattr1 op joinattr2) => do
    let attr1 ← attrInfo joinattr1.1 joinattr1.2 (-1) (-1) none
    let attr2 ← attrInfo joinattr2.1 joinattr2.2 (-1) (-1) none
    return .join attr1 op attr2

end Interp

-- A list that is not refused.
def Node.Accepted (n : Node) : Prop := n.attributes < maxAttrs ∧ n.Faultless

namespace Interp

theorem queryArguments_spec (setting : Setting) (relname : Option Name) (attrlist : List (Name × Name))
    (qual : Option Qual) :
    ((Node.query relname attrlist qual).Accepted → queryArguments setting attrlist qual = (do
      let infos ← attrInfos (attrlist.map untyped)
      let request ← requestOf setting qual
      return .ok (infos,request))) ∧
    (¬ (Node.query relname attrlist qual).Accepted → ∃ refusal, queryArguments setting attrlist qual =
      .ok (.error refusal)) := by
  cases qual with
  | none =>
    have judged := mkList_check attrlist (fun a => some a.1 = (none : Option Name).or (attrlist.head?.map Prod.fst))
      .incompatible
    constructor
    · intro accepted
      have made : mkAttrnames attrlist none = .ok (.ok attrlist) := judged.1 accepted
      rw [queryArguments,made]
      rfl
    · intro bad
      obtain ⟨refusal,made⟩ := judged.2 bad
      have made : mkAttrnames attrlist none = .ok (.error refusal) := made
      refine ⟨refusal,?_⟩
      rw [queryArguments,made]
      rfl
  | some qual =>
    cases qual with
    | select selattr op value =>
      have judged := mkList_check attrlist (fun a => some a.1 = (some selattr.1).or (attrlist.head?.map Prod.fst))
        .incompatible
      have same : ∀ a : Name × Name, a.1 = selattr.1 ↔
        some a.1 = (some selattr.1).or (attrlist.head?.map Prod.fst) := by simp
      constructor
      · intro accepted
        have made : mkAttrnames attrlist (some selattr.1) = .ok (.ok attrlist) :=
          judged.1 ⟨accepted.1,fun a member => (same a).mp (accepted.2 a member)⟩
        simp only [queryArguments,made,ok_bind,requestOf,bind_assoc]
        rfl
      · intro bad
        obtain ⟨refusal,made⟩ := judged.2 fun accepted =>
          bad ⟨accepted.1,fun a member => (same a).mpr (accepted.2 a member)⟩
        have made : mkAttrnames attrlist (some selattr.1) = .ok (.error refusal) := made
        refine ⟨refusal,?_⟩
        simp only [queryArguments,made,ok_bind]
        rfl
    | join joinattr1 op joinattr2 =>
      have judged := mkList_check attrlist (fun a => a.1 = joinattr1.1 ∨ a.1 = joinattr2.1) .incompatible
      constructor
      · intro accepted
        have made : mkQualAttrs attrlist joinattr1.1 joinattr2.1 = .ok (.ok attrlist) := judged.1 accepted
        simp only [queryArguments,made,ok_bind,requestOf,bind_assoc]
        rfl
      · intro bad
        obtain ⟨refusal,made⟩ := judged.2 bad
        have made : mkQualAttrs attrlist joinattr1.1 joinattr2.1 = .ok (.error refusal) := made
        refine ⟨refusal,?_⟩
        simp only [queryArguments,made,ok_bind]
        rfl

-- The same list as in a join without its errors.
theorem mkQualAttrs_some_iff (attrs found : List (Name × Name)) (relname1 relname2 : Name) :
    Interp.mkQualAttrs attrs relname1 relname2 = .ok (.ok found) ↔
      Minirel.mkQualAttrs attrs relname1 relname2 = some found := by
  obtain ⟨taken,refused⟩ := mkList_check attrs (fun a => a.1 = relname1 ∨ a.1 = relname2) .incompatible
  by_cases accepted : attrs.length < maxAttrs ∧ ∀ a ∈ attrs.take maxAttrs, a.1 = relname1 ∨ a.1 = relname2
  · have made : Interp.mkQualAttrs attrs relname1 relname2 = .ok (.ok attrs) := taken accepted
    obtain ⟨short,all⟩ := accepted
    rw [List.take_of_length_le (Nat.le_of_lt short)] at all
    have each : (attrs.all fun a => a.1 = relname1 ∨ a.1 = relname2) = true :=
      List.all_eq_true.mpr fun a member => decide_eq_true (all a member)
    rw [made,Minirel.mkQualAttrs,if_neg (Nat.not_le.mpr short),if_pos each]
    simp
  · obtain ⟨refusal,made⟩ := refused accepted
    have made : Interp.mkQualAttrs attrs relname1 relname2 = .ok (.error refusal) := made
    rw [made,Minirel.mkQualAttrs]
    constructor
    · intro same
      cases same
    · intro same
      split at same
      · cases same
      · rename_i short
        split at same
        · rename_i each
          exact absurd ⟨Nat.not_le.mp short,fun a member => of_decide_eq_true
            (List.all_eq_true.mp each a (List.mem_of_mem_take member))⟩ accepted
        · cases same

theorem createArguments_spec (relname : Name) (attrlist : List (Name × Int)) (primattr : Option (Name × Int)) :
    ((Node.create relname attrlist primattr).Accepted → ∃ made : Name × Int → Datatype × Int,
      (∀ a ∈ attrlist, parseFormatString a.2 = some (made a)) ∧ createArguments relname attrlist = (do
        let infos ← attrInfos (attrlist.map fun a => (relname,a.1,(made a).1.code,(made a).2,none))
        return .ok infos)) ∧
    (¬ (Node.create relname attrlist primattr).Accepted → ∃ refusal, createArguments relname attrlist =
      .ok (.error refusal)) := by
  constructor
  · intro accepted
    obtain ⟨short,faultless⟩ := accepted
    have formatted : ∀ a ∈ attrlist, parseFormatString a.2 = some ((parseFormatString a.2).getD (.string,0)) := by
      intro a member
      obtain ⟨format,found⟩ := Option.isSome_iff_exists.mp
        (faultless a ((List.take_of_length_le (Nat.le_of_lt short)).symm ▸ member))
      rw [found]
      rfl
    refine ⟨fun a => (parseFormatString a.2).getD (.string,0),formatted,?_⟩
    have made : mkAttrDescrs attrlist =
        .ok (.ok (attrlist.map fun a => (a.1,(parseFormatString a.2).getD (.string,0)))) := by
      apply mkList_ok _ short
      intro a member
      rw [formatted a member]
      rfl
    rw [createArguments,made,ok_bind]
    simp only [List.map_map]
    rfl
  · intro bad
    obtain ⟨refusal,made⟩ : ∃ refusal, mkAttrDescrs attrlist = .ok (.error refusal) := by
      apply mkList_refused fun a => ⟨_,rfl⟩
      intro accepted
      obtain ⟨short,all⟩ := accepted
      refine bad ⟨short,fun a member => ?_⟩
      obtain ⟨b,same⟩ := all a (List.mem_of_mem_take member)
      cases found : parseFormatString a.2 with
      | some format => rfl
      | none =>
        rw [found] at same
        cases same
    refine ⟨refusal,?_⟩
    rw [createArguments,made]
    rfl

-- Up to the first string that is refused, each value is formatted.
theorem convert_insAttr (setting : Setting) (list : List (Name × Value)) :
    ((∀ a ∈ list.takeWhile fun a => !a.2.tooLong, (a.2.text setting).length < 255) →
      ∃ r, convert (insAttr setting) list = .ok r ∧ ∀ bs, r = .ok bs → ∀ a ∈ list, a.2.tooLong = false) ∧
    (Defined (convert (insAttr setting) list) → ∀ a ∈ list.takeWhile fun a => !a.2.tooLong, (a.2.text setting).length <
      255) := by
  induction list with
  | nil =>
    exact ⟨fun _ => ⟨.ok [],rfl,fun _ _ a member => absurd member List.not_mem_nil⟩,fun _ a member =>
      absurd member List.not_mem_nil⟩
  | cons a rest ih =>
    rw [convert,insAttr_eq]
    cases refused : a.2.tooLong with
    | true =>
      rw [List.takeWhile_cons_of_neg (by simp [refused]),if_pos rfl]
      exact ⟨fun _ => ⟨.error .stringTooLong,rfl,fun _ same => by cases same⟩,fun _ b member =>
        absurd member List.not_mem_nil⟩
    | false =>
      rw [List.takeWhile_cons_of_pos (by simp [refused]),if_neg Bool.false_ne_true]
      constructor
      · intro fits
        obtain ⟨first,later⟩ := List.forall_mem_cons.mp fits
        obtain ⟨r,run,all⟩ := ih.1 later
        rw [valueOf_ok first]
        simp only [ok_bind,pure_bind,run]
        cases r with
        | error refusal => exact ⟨.error refusal,rfl,fun _ same => by cases same⟩
        | ok bs => exact ⟨.ok _,rfl,fun _ _ => List.forall_mem_cons.mpr ⟨refused,all bs rfl⟩⟩
      · intro defined
        rw [bind_assoc,defined_bind,valueOf_defined_iff] at defined
        obtain ⟨first,later⟩ := defined
        have rest := later _ (valueOf_ok first)
        rw [pure_bind,defined_bind] at rest
        exact List.forall_mem_cons.mpr ⟨first,ih.2 rest.1⟩

-- The values that are formatted before one of them is refused.
def formatted (attrlist : List (Name × Value)) : List (Name × Value) :=
    (attrlist.take maxAttrs).takeWhile fun a => !a.2.tooLong

theorem formatted_accepted {relname : Name} {attrlist : List (Name × Value)}
    (accepted : (Node.insert relname attrlist).Accepted) :
    formatted attrlist = attrlist := by
  obtain ⟨short,faultless⟩ := accepted
  have whole : attrlist.take maxAttrs = attrlist := List.take_of_length_le (Nat.le_of_lt short)
  rw [formatted,whole,List.takeWhile_eq_self_iff]
  intro a member
  simp [show a.2.tooLong = false from faultless a (whole.symm ▸ member)]

theorem mkInsAttrs_accepted {setting : Setting} {relname : Name} {attrlist : List (Name × Value)}
    (accepted : (Node.insert relname attrlist).Accepted) (fits : ∀ a ∈ formatted attrlist, (a.2.text setting).length <
      255) :
    mkInsAttrs setting attrlist = .ok (.ok (attrlist.map fun a => (a.1,a.2.typeOf,a.2.text setting))) := by
  rw [formatted_accepted accepted] at fits
  apply mkList_ok _ accepted.1
  intro a member
  have whole : attrlist.take maxAttrs = attrlist := List.take_of_length_le (Nat.le_of_lt accepted.1)
  rw [insAttr_eq,show a.2.tooLong = false from accepted.2 a (whole.symm ▸ member),valueOf_ok (fits a member)]
  rfl

theorem mkInsAttrs_refused {setting : Setting} {relname : Name} {attrlist : List (Name × Value)}
    (bad : ¬ (Node.insert relname attrlist).Accepted) (fits : ∀ a ∈ formatted attrlist, (a.2.text setting).length <
      255) :
    ∃ refusal, mkInsAttrs setting attrlist = .ok (.error refusal) := by
  obtain ⟨r,run,all⟩ := (convert_insAttr setting (attrlist.take maxAttrs)).1 fits
  rw [mkInsAttrs,mkList,run,ok_bind]
  cases r with
  | error refusal => exact ⟨refusal,rfl⟩
  | ok bs =>
    by_cases long : maxAttrs ≤ attrlist.length
    · exact ⟨.tooManyAttrs,by simp [long]; rfl⟩
    · exact absurd ⟨Nat.not_le.mp long,all bs rfl⟩ bad

theorem insertArguments_defined_iff (setting : Setting) (relname : Name) (attrlist : List (Name × Value)) :
    Defined (insertArguments setting relname attrlist) ↔ (∀ a ∈ formatted attrlist, (a.2.text setting).length < 255) ∧
      ((Node.insert relname attrlist).Accepted → ∀ a ∈ attrlist, relname.length < maxName ∧ a.1.length < maxName) := by
  have formatting : Defined (insertArguments setting relname attrlist) →
      ∀ a ∈ formatted attrlist, (a.2.text setting).length < 255 := by
    intro defined
    rw [insertArguments,defined_bind,mkInsAttrs,mkList,defined_bind] at defined
    exact (convert_insAttr setting _).2 defined.1.1
  constructor
  · intro defined
    refine ⟨formatting defined,fun accepted a member => ?_⟩
    rw [insertArguments,mkInsAttrs_accepted accepted (formatting defined),ok_bind] at defined
    have stored := (attrInfos_defined_iff _).mp (defined_bind.mp defined).1
    exact stored _ (List.mem_map_of_mem (List.mem_map_of_mem member))
  · intro stored
    obtain ⟨fits,names⟩ := stored
    by_cases accepted : (Node.insert relname attrlist).Accepted
    · rw [insertArguments,mkInsAttrs_accepted accepted fits,ok_bind]
      refine defined_bind.mpr ⟨(attrInfos_defined_iff _).mpr fun e member => ?_,fun _ _ => defined_ok _⟩
      obtain ⟨b,memberB,rfl⟩ := List.mem_map.mp member
      obtain ⟨a,memberA,rfl⟩ := List.mem_map.mp memberB
      exact names accepted a memberA
    · obtain ⟨refusal,made⟩ := mkInsAttrs_refused accepted fits
      rw [insertArguments,made,ok_bind]
      exact defined_ok _

theorem createArguments_defined_iff (relname : Name) (attrlist : List (Name × Int)) (primattr : Option (Name × Int)) :
    Defined (createArguments relname attrlist) ↔
      ((Node.create relname attrlist primattr).Accepted → ∀ a ∈ attrlist, relname.length < maxName ∧
        a.1.length < maxName) := by
  obtain ⟨taken,refused⟩ := createArguments_spec relname attrlist primattr
  by_cases accepted : (Node.create relname attrlist primattr).Accepted
  · obtain ⟨made,_,run⟩ := taken accepted
    rw [run,defined_bind,attrInfos_defined_iff,List.forall_mem_map]
    exact ⟨fun stored _ => stored.1,fun names => ⟨names accepted,fun _ _ => defined_ok _⟩⟩
  · obtain ⟨refusal,run⟩ := refused accepted
    rw [run]
    exact ⟨fun _ ok => absurd ok accepted,fun _ => defined_ok _⟩

end Interp

-- The names and the value of a condition fit where they are copied.
def Qual.Fits (setting : Setting) : Qual → Prop
  | select selattr _ value =>
    (selattr.1.length < maxName ∧ selattr.2.length < maxName) ∧ (value.text setting).length < 255
  | join joinattr1 _ joinattr2 => (joinattr1.1.length < maxName ∧ joinattr1.2.length < maxName) ∧
    joinattr2.1.length < maxName ∧ joinattr2.2.length < maxName

-- So do those of a statement, as far as they are copied: a list that is refused is not, and the name of
-- a result relation only when it is to be created.
def Node.Fits (setting : Setting) (found : Option (Name × Option (List AttrDesc))) : Node → Prop
  | query relname attrlist qual => ∀ result ∈ found, (query relname attrlist qual).Accepted →
    (∀ a ∈ attrlist, a.1.length < maxName ∧ a.2.length < maxName) ∧ (∀ q ∈ qual, q.Fits setting) ∧
    (result.2 = none → attrlist ≠ [] → result.1.length < maxName)
  | insert relname attrlist => (∀ a ∈ Interp.formatted attrlist, (a.2.text setting).length < 255) ∧
    ((insert relname attrlist).Accepted → ∀ a ∈ attrlist, relname.length < maxName ∧ a.1.length < maxName)
  | delete _ (some (.select _ _ value)) => (value.text setting).length < 255
  | create relname attrlist primattr =>
    (create relname attrlist primattr).Accepted → ∀ a ∈ attrlist, relname.length < maxName ∧ a.1.length < maxName
  | _ => True

namespace Interp

theorem requestOf_ok {setting : Setting} {qual : Option Qual} (fits : ∀ q ∈ qual, q.Fits setting) :
    ∃ request, requestOf setting qual = .ok request := by
  cases qual with
  | none => exact ⟨_,rfl⟩
  | some qual =>
    have fits := fits qual rfl
    cases qual with
    | select selattr op value =>
      obtain ⟨names,text⟩ := fits
      rw [requestOf,attrInfo_ok names.1 names.2,ok_bind,valueOf_ok text]
      exact ⟨_,rfl⟩
    | join joinattr1 op joinattr2 =>
      obtain ⟨names,names'⟩ := fits
      rw [requestOf,attrInfo_ok names.1 names.2,ok_bind,attrInfo_ok names'.1 names'.2]
      exact ⟨_,rfl⟩

theorem requestOf_defined_iff (setting : Setting) (qual : Option Qual) : Defined (requestOf setting qual) ↔
    ∀ q ∈ qual, q.Fits setting := by
  constructor
  · intro defined q member
    cases member
    cases q with
    | select selattr op value =>
      rw [requestOf,defined_bind,attrInfo_defined_iff] at defined
      obtain ⟨names,later⟩ := defined
      have second := later _ (attrInfo_ok names.1 names.2 _ _ _)
      rw [defined_bind,valueOf_defined_iff] at second
      exact ⟨names,second.1⟩
    | join joinattr1 op joinattr2 =>
      rw [requestOf,defined_bind,attrInfo_defined_iff] at defined
      obtain ⟨names,later⟩ := defined
      have second := later _ (attrInfo_ok names.1 names.2 _ _ _)
      rw [defined_bind,attrInfo_defined_iff] at second
      exact ⟨names,second.1⟩
  · intro fits
    obtain ⟨request,run⟩ := requestOf_ok fits
    rw [run]
    exact defined_ok request

-- The names of the attributes come back as they were.
theorem attrInfos_names {list : List (Name × Name × Int × Int × Option (List UInt8))} {infos : List AttrInfo}
    (run : attrInfos list = .ok infos) :
    infos.map AttrInfo.attrName = list.map fun e => e.2.1 := by
  have stored := (attrInfos_defined_iff list).mp (run ▸ defined_ok infos)
  rw [attrInfos_ok stored] at run
  cases run
  rw [List.map_map]
  rfl

theorem untyped_defined_iff (attrlist : List (Name × Name)) :
    Defined (attrInfos (attrlist.map untyped)) ↔ ∀ a ∈ attrlist, a.1.length < maxName ∧ a.2.length < maxName := by
  rw [attrInfos_defined_iff,List.forall_mem_map]
  exact Iff.rfl

-- The result relation gets its name beside those of the attributes.
theorem createNames_defined_iff (resultName : Name) {attrlist : List (Name × Name)} {infos : List AttrInfo}
    (run : attrInfos (attrlist.map untyped) = .ok infos) :
    Defined (attrInfos (infos.map fun info => (resultName,info.attrName,0,0,none))) ↔
      (attrlist ≠ [] → resultName.length < maxName) := by
  have fits := (untyped_defined_iff attrlist).mp (run ▸ defined_ok infos)
  have names : infos.map AttrInfo.attrName = attrlist.map Prod.snd := by
    rw [attrInfos_names run,List.map_map]
    rfl
  have each : ∀ info ∈ infos, info.attrName.length < maxName := by
    intro info member
    have named : info.attrName ∈ attrlist.map Prod.snd := names ▸ List.mem_map_of_mem member
    obtain ⟨a,memberA,same⟩ := List.mem_map.mp named
    exact same ▸ (fits a memberA).2
  rw [attrInfos_defined_iff,List.forall_mem_map]
  constructor
  · intro stored some_attr
    obtain ⟨a,memberA⟩ := List.exists_mem_of_ne_nil _ some_attr
    have named : a.2 ∈ infos.map AttrInfo.attrName := names ▸ List.mem_map_of_mem memberA
    obtain ⟨info,member,_⟩ := List.mem_map.mp named
    exact (stored info member).1
  · intro short info member
    refine ⟨short fun empty => ?_,each info member⟩
    rw [empty] at names
    cases infos with
    | nil => exact absurd member List.not_mem_nil
    | cons => cases names

theorem query_defined_iff (setting : Setting) (relname : Option Name) (attrlist : List (Name × Name))
    (qual : Option Qual)
    (resultName : Name) (existing : Option (List AttrDesc)) :
    Defined (copies setting (some (resultName,existing)) (.query relname attrlist qual)) ↔
      ((Node.query relname attrlist qual).Accepted →
      (∀ a ∈ attrlist, a.1.length < maxName ∧ a.2.length < maxName) ∧ (∀ q ∈ qual, q.Fits setting) ∧
      (existing = none → attrlist ≠ [] → resultName.length < maxName)) := by
  obtain ⟨taken,refused⟩ := queryArguments_spec setting relname attrlist qual
  by_cases accepted : (Node.query relname attrlist qual).Accepted
  · rw [copies,taken accepted]
    simp only [bind_assoc,defined_bind,untyped_defined_iff,requestOf_defined_iff,pure_bind]
    have created : ∀ infos, attrInfos (attrlist.map untyped) = .ok infos → (Defined (match existing with
        | some _ => pure ()
        | none => (do
          let _ ← attrInfos (infos.map fun info => (resultName,info.attrName,0,0,none))
          return ())) ↔ (existing = none → attrlist ≠ [] → resultName.length < maxName)) := by
      intro infos run
      cases existing with
      | some attrs => exact ⟨fun _ same => (by cases same),fun _ => defined_ok _⟩
      | none =>
        rw [← createNames_defined_iff resultName run]
        exact ⟨fun defined _ => (defined_bind.mp defined).1,fun defined =>
          defined_bind.mpr ⟨defined rfl,fun _ _ => defined_ok _⟩⟩
    constructor
    · intro defined _
      obtain ⟨names,later⟩ := defined
      have run := attrInfos_ok (List.forall_mem_map.mpr names : ∀ e ∈ attrlist.map untyped, Stored e)
      obtain ⟨fits,last⟩ := later _ run
      obtain ⟨request,asked⟩ := requestOf_ok fits
      exact ⟨names,fits,(created _ run).mp (last request asked)⟩
    · intro all
      obtain ⟨names,fits,result⟩ := all accepted
      exact ⟨names,fun infos run => ⟨fits,fun _ _ => (created infos run).mpr result⟩⟩
  · obtain ⟨refusal,run⟩ := refused accepted
    rw [copies,run]
    exact ⟨fun _ ok => absurd ok accepted,fun _ => defined_ok _⟩

theorem copies_defined_iff (setting : Setting) (found : Option (Name × Option (List AttrDesc))) (n : Node) :
    Defined (copies setting found n) ↔ n.Fits setting found := by
  cases n with
  | query relname attrlist qual =>
    cases found with
    | none => exact ⟨fun _ result member => absurd member (Option.not_mem_none result),fun _ => defined_ok _⟩
    | some result =>
      obtain ⟨resultName,existing⟩ := result
      simp only [Node.Fits,Option.mem_some_iff,forall_eq']
      exact query_defined_iff setting relname attrlist qual resultName existing
  | insert relname attrlist =>
    rw [Node.Fits,← insertArguments_defined_iff]
    exact ⟨fun defined => (defined_bind.mp defined).1,fun defined => defined_bind.mpr ⟨defined,fun _ _ => defined_ok _⟩⟩
  | create relname attrlist primattr =>
    rw [Node.Fits,← createArguments_defined_iff]
    exact ⟨fun defined => (defined_bind.mp defined).1,fun defined => defined_bind.mpr ⟨defined,fun _ _ => defined_ok _⟩⟩
  | delete relname qual =>
    cases qual with
    | none => exact ⟨fun _ => trivial,fun _ => defined_ok _⟩
    | some qual =>
      cases qual with
      | select selattr op value =>
        rw [Node.Fits,← valueOf_defined_iff]
        exact ⟨fun defined => (defined_bind.mp defined).1,fun defined =>
          defined_bind.mpr ⟨defined,fun _ _ => defined_ok _⟩⟩
      | join => exact ⟨fun _ => trivial,fun _ => defined_ok _⟩
  | _ => exact ⟨fun _ => trivial,fun _ => defined_ok _⟩

-- What an accepted query has been made of.
theorem queryArguments_made {setting : Setting} {attrlist : List (Name × Name)} {qual : Option Qual}
    {infos : List AttrInfo} {request : Request}
    (run : queryArguments setting attrlist qual = .ok (.ok (infos,request))) :
    attrlist.length < maxAttrs ∧ attrInfos (attrlist.map untyped) = .ok infos ∧
      requestOf setting qual = .ok request := by
  obtain ⟨taken,refused⟩ := queryArguments_spec setting none attrlist qual
  by_cases accepted : (Node.query none attrlist qual).Accepted
  · rw [taken accepted] at run
    obtain ⟨infos',copied,run⟩ := of_bind_ok run
    obtain ⟨request',asked,run⟩ := of_bind_ok run
    cases run
    exact ⟨accepted.1,copied,asked⟩
  · obtain ⟨refusal,made⟩ := refused accepted
    rw [made] at run
    cases run

theorem queryArguments_infos {setting : Setting} {attrlist : List (Name × Name)} {qual : Option Qual}
    {infos : List AttrInfo} {request : Request}
    (run : queryArguments setting attrlist qual = .ok (.ok (infos,request))) : attrInfos (attrlist.map untyped) =
    .ok infos :=
  (queryArguments_made run).2.1

-- The first attribute of a result relation already brings the name that does not fit.
theorem createInfos_undefined {request : Request} {resultName : Name} {infos made : List AttrInfo} {s : Interpreter}
    (short : ∀ info ∈ infos, info.attrName.length < maxName)
    (ended : attrInfos (infos.map fun info => (resultName,info.attrName,0,0,none)) = .error .undefined) :
    createInfos request resultName infos made s = .error .undefined := by
  cases infos with
  | nil => cases ended
  | cons info rest =>
    by_cases fits : resultName.length < maxName
    · rw [attrInfos_ok] at ended
      · cases ended
      · rw [List.forall_mem_map]
        exact fun info member => ⟨fits,short info member⟩
    · rw [createInfos,attrInfo,strcpy,if_neg fits]
      rfl

theorem ended_first {α : Type} {x : Except Abort α} (ended : (do
    let _ ← x
    return ()) = .error .undefined) : x = .error .undefined := by
  cases x with
  | ok a => cases ended
  | error abort =>
    cases ended
    rfl

-- A copy that runs over does so in interp, whatever the database holds.
theorem interp_undefined {setting : Setting} {found : Option (Name × Option (List AttrDesc))} {n : Node}
    {s : Interpreter}
    (lookup : ∀ relname attrlist qual, n = .query relname attrlist qual → ∃ db, resultRelation s.db relname =
      .ok (found,db))
    (ended : copies setting found n = .error .undefined) : interp setting n s = .error .undefined := by
  cases n with
  | query relname attrlist qual =>
    obtain ⟨db,looked⟩ := lookup relname attrlist qual rfl
    rw [interp,interpQuery,looked,ok_bind]
    cases found with
    | none => cases ended
    | some result =>
      obtain ⟨resultName,existing⟩ := result
      rw [copies] at ended
      dsimp only at ended ⊢
      cases arguments : queryArguments setting attrlist qual with
      | error abort =>
        rw [arguments] at ended
        cases ended
        rfl
      | ok judged =>
        rw [arguments,ok_bind] at ended
        rw [ok_bind]
        cases judged with
        | error refusal => cases ended
        | ok asked =>
          obtain ⟨infos,request⟩ := asked
          cases existing with
          | some attrs => cases ended
          | none =>
            have names := queryArguments_infos arguments
            have short : ∀ info ∈ infos, info.attrName.length < maxName := by
              intro info member
              have named : info.attrName ∈ (attrlist.map untyped).map fun e => e.2.1 :=
                attrInfos_names names ▸ List.mem_map_of_mem member
              obtain ⟨e,memberE,same⟩ := List.mem_map.mp named
              exact same ▸ ((attrInfos_defined_iff _).mp (names ▸ defined_ok infos) e memberE).2
            have written := ended_first (show (do
              let _ ← attrInfos (infos.map fun info : AttrInfo => (resultName,info.attrName,0,0,none))
              return ()) = .error .undefined from ended)
            simp only [prepareResult,createInfos_undefined short written]
            rfl
  | insert relname attrlist =>
    have arguments : insertArguments setting relname attrlist = .error .undefined := ended_first ended
    rw [interp,arguments]
    rfl
  | create relname attrlist primattr =>
    have arguments : createArguments relname attrlist = .error .undefined := ended_first ended
    rw [interp,arguments]
    rfl
  | delete relname qual =>
    cases qual with
    | none => cases ended
    | some qual =>
      cases qual with
      | join => cases ended
      | select selattr op value =>
        have text : value.valueOf setting = .error .undefined := ended_first ended
        rw [interp,interpDelete,text]
        rfl
  | _ => cases ended

end Interp

-- Each identifier of a statement is scanned, and each name and value of its tree copied, within its array.
structure Statement.InArrays (address : List UInt8 → Int) (setting : Setting)
    (found : Option (Name × Option (List AttrDesc))) (s : Statement) :
    Prop where
  scanned : ∀ name ∈ s.names, ∀ scanner, Defined (Scan.getId name scanner)
  copied : ∀ n, Parser.actions address s = .ok (some n) → Defined (Interp.copies setting found n)

structure Statement.Short (address : List UInt8 → Int) (setting : Setting)
    (found : Option (Name × Option (List AttrDesc))) (s : Statement) :
    Prop where
  names : ∀ name ∈ s.names, name.length < Scan.maxStringLen
  fits : ∀ n, Parser.nodes s ≤ maxNode → Parser.tree address s = some n → n.Fits setting found

-- A statement stays in the arrays exactly when it is short enough for each of them.
theorem inArrays_iff (address : List UInt8 → Int) (setting : Setting) (found : Option (Name × Option (List AttrDesc)))
    (s : Statement) :
    s.InArrays address setting found ↔ s.Short address setting found := by
  have parsed : ∀ n, Parser.actions address s = .ok (some n) ↔ Parser.nodes s ≤ maxNode ∧
      Parser.tree address s = some n := by
    intro n
    rw [Parser.actions_spec]
    split
    · rename_i room
      exact ⟨fun same => ⟨room,Except.ok.inj same⟩,fun same => congrArg Except.ok same.2⟩
    · rename_i full
      exact ⟨fun same => (by cases same),fun same => absurd same.1 full⟩
  constructor
  · intro inside
    obtain ⟨scanned,copied⟩ := inside
    constructor
    · intro name member
      by_contra long
      have outside := Scan.getId_long (Nat.not_lt.mp long)
      exact scanned name member ⟨Vector.replicate _ 0,0⟩ (outside _)
    · intro n room made
      exact (Interp.copies_defined_iff setting found n).mp (copied n ((parsed n).mpr ⟨room,made⟩))
  · intro short
    obtain ⟨names,fits⟩ := short
    constructor
    · intro name member scanner ended
      exact absurd ((Scan.getId_undefined_iff name scanner).mp ended) (Nat.not_le.mpr (names name member))
    · intro n made
      obtain ⟨room,made⟩ := (parsed n).mp made
      exact (Interp.copies_defined_iff setting found n).mpr (fits n room made)

-- Nothing refuses a string that leaves no place for its NUL.
theorem string_written {address : List UInt8 → Int} {setting : Setting}
    {found : Option (Name × Option (List AttrDesc))} (relname attrname : Name)
    {sval : List UInt8} (long : sval.length = maxStringLen) :
    ¬ (Statement.insert relname (.one attrname) (.one (.string sval))).InArrays address setting found := by
  intro inside
  have fits := (Interp.copies_defined_iff _ _ _).mp (inside.copied (.insert relname [(attrname,.string sval)]) rfl)
  have accepted : (Node.insert relname [(attrname,Value.string sval)]).Accepted := by
    refine ⟨show 1 < maxAttrs by decide,fun a member => ?_⟩
    obtain rfl := List.mem_singleton.mp member
    exact decide_eq_false (Nat.not_lt.mpr (Nat.le_of_eq long))
  have short := fits.1 (attrname,.string sval) (by rw [Interp.formatted_accepted accepted]; exact List.mem_cons_self)
  rw [Value.text,long] at short
  exact absurd short (Nat.lt_irrefl 255)

-- Nor the name of a column.
theorem column_written {address : List UInt8 → Int} {setting : Setting}
    {found : Option (Name × Option (List AttrDesc))} (relname : Name)
    {attrname : Name} (long : maxName ≤ attrname.length) :
    ¬ (Statement.create relname (.one (attrname,.int)) none).InArrays address setting found := by
  intro inside
  have fits := (Interp.copies_defined_iff _ _ _).mp (inside.copied (.create relname [(attrname,-23)] none) rfl)
  have short := fits ⟨show 1 < maxAttrs by decide,by simp [Node.Faultless,maxAttrs,Interp.parseFormatString]⟩
    (attrname,-23) List.mem_cons_self
  exact absurd short.2 (Nat.not_lt.mpr long)

-- The shortest ones, and the shortest identifier that the array of the scanner does not hold.
theorem long_names_written : ¬ (Statement.destroy (List.replicate 50 97)).InArrays (fun _ => 0) someSetting none ∧
    ¬ (Statement.create [114] (.one (List.replicate 32 97,.int)) none).InArrays (fun _ => 0) someSetting none ∧
    ¬ (Statement.insert [114] (.one [97]) (.one (.string (List.replicate 255 97)))).InArrays
      (fun _ => 0) someSetting none := by
  refine ⟨fun inside => ?_,column_written [114] (Nat.le_of_eq List.length_replicate.symm),string_written
    [114] [97] List.length_replicate⟩
  have outside := Scan.getId_long (Nat.le_of_eq (List.length_replicate (n:=50) (a:=97)).symm) ⟨Vector.replicate _ 0,0⟩
  exact inside.scanned (List.replicate 50 97) List.mem_cons_self _ outside

end Minirel
