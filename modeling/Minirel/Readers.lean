import Mathlib.Data.List.Basic

namespace Readers

variable {τ α β : Type} {n : Nat}

-- What comes of some tokens: a phrase that they begin with, or that it takes more of them, or that they
-- begin no phrase.
inductive Outcome (τ α : Type) where
  | ok (a : α) (rest : List τ)
  | more
  | error

def Reader (τ α : Type) : Type := List τ → Outcome τ α

def Outcome.bind (o : Outcome τ α) (q : α → Reader τ β) : Outcome τ β :=
  match o with
  | .ok a rest => q a rest
  | .more => .more
  | .error => .error

instance : Monad (Reader τ) where
  pure a := fun w => .ok a w
  bind p q := fun w => (p w).bind q

def fail : Reader τ α := fun _ => .error

def next (f : τ → Reader τ α) : Reader τ α
  | [] => .more
  | t::w => f t w

-- The token is only looked at.
def branch (starts : τ → Bool) (p q : Reader τ α) : Reader τ α
  | [] => .more
  | t::w => if starts t then p (t::w) else q (t::w)

def terminal (f : τ → Option α) : Reader τ α := next fun t => (f t).elim fail pure

-- One phrase, and another that depends on what it means.
def Then (P : List τ → α → Prop) (Q : α → List τ → β → Prop) (w : List τ) (b : β) : Prop := ∃ u v a, w = u ++ v ∧
    P u a ∧ Q a v b

def Terminal (f : τ → Option α) (w : List τ) (a : α) : Prop := ∃ t, w = [t] ∧ f t = some a

def Yields (a : α) (w : List τ) (b : α) : Prop := w = [] ∧ b = a

def Follow (may : τ → Prop) (rest : List τ) : Prop := ∃ t v, rest = t::v ∧ may t

-- On up to n tokens the reader takes a phrase for what it is when it can see what follows, and what
-- it says of the front
-- of a text is final.
structure ReadsUpTo (n : Nat) (p : Reader τ α) (P : List τ → α → Prop) (F : List τ → Prop) : Prop where
  ok_stays : ∀ w a rest more, (w ++ more).length ≤ n → p w = .ok a rest → p (w ++ more) = .ok a (rest ++ more)
  error_stays : ∀ w more, (w ++ more).length ≤ n → p w = .error → p (w ++ more) = .error
  sound : ∀ w a rest, w.length ≤ n → p w = .ok a rest → ∃ u, w = u ++ rest ∧ P u a
  complete : ∀ u a rest, (u ++ rest).length ≤ n → P u a → F rest → p (u ++ rest) = .ok a rest
  viable : ∀ w, w.length ≤ n → p w = .more → ∃ more a, P (w ++ more) a

structure Reads (p : Reader τ α) (P : List τ → α → Prop) (F : List τ → Prop) : Prop where
  upTo : ∀ n, ReadsUpTo n p P F
  some_phrase : ∃ u a, P u a

variable {p p' : Reader τ α} {P P' : List τ → α → Prop} {F G : List τ → Prop} {q q' : α → Reader τ β}
  {Q : α → List τ → β → Prop}

theorem ReadsUpTo.congr (reads : ReadsUpTo n p P F) (same : ∀ w a, P w a ↔ P' w a) : ReadsUpTo n p P' F where
  ok_stays := reads.ok_stays
  error_stays := reads.error_stays
  sound w a rest short ran := by
    obtain ⟨u,split,phrase⟩ := reads.sound w a rest short ran
    exact ⟨u,split,(same u a).mp phrase⟩
  complete u a rest short phrase := reads.complete u a rest short ((same u a).mpr phrase)
  viable w short ran := by
    obtain ⟨more,a,phrase⟩ := reads.viable w short ran
    exact ⟨more,a,(same _ a).mp phrase⟩

theorem ReadsUpTo.mono (reads : ReadsUpTo n p P F) (less : ∀ rest, G rest → F rest) : ReadsUpTo n p P G where
  ok_stays := reads.ok_stays
  error_stays := reads.error_stays
  sound := reads.sound
  complete u a rest short phrase follows := reads.complete u a rest short phrase (less rest follows)
  viable := reads.viable

def AgreeUpTo (n : Nat) (p p' : Reader τ α) : Prop := ∀ w, w.length ≤ n → p w = p' w

theorem ReadsUpTo.agree (reads : ReadsUpTo n p P F) (agree : AgreeUpTo n p p') : ReadsUpTo n p' P F where
  ok_stays w a rest more short ran := by
    have front : w.length ≤ n := by rw [List.length_append] at short; omega
    rw [← agree _ short]
    exact reads.ok_stays w a rest more short ((agree w front).trans ran)
  error_stays w more short ran := by
    have front : w.length ≤ n := by rw [List.length_append] at short; omega
    rw [← agree _ short]
    exact reads.error_stays w more short ((agree w front).trans ran)
  sound w a rest short ran := reads.sound w a rest short ((agree w short).trans ran)
  complete u a rest short phrase follows := (agree _ short).symm.trans (reads.complete u a rest short phrase follows)
  viable w short ran := reads.viable w short ((agree w short).trans ran)

theorem reads_fail : ReadsUpTo n (fail : Reader τ α) (fun _ _ => False) F where
  ok_stays _ _ _ _ _ ran := nomatch ran
  error_stays _ _ _ _ := rfl
  sound _ _ _ _ ran := nomatch ran
  complete _ _ _ _ none := none.elim
  viable _ _ ran := nomatch ran

theorem reads_pure (a : α) : ReadsUpTo n (pure a : Reader τ α) (Yields a) F where
  ok_stays w b rest more _ ran := by
    cases ran
    rfl
  error_stays _ _ _ ran := nomatch ran
  sound w b rest _ ran := by
    cases ran
    exact ⟨[],rfl,rfl,rfl⟩
  complete u b rest _ phrase _ := by
    obtain ⟨rfl,rfl⟩ := phrase
    rfl
  viable _ _ ran := nomatch ran

theorem rest_short {u rest w : List τ} (split : w = u ++ rest) (short : w.length ≤ n) : rest.length ≤ n := by
  rw [split,List.length_append] at short
  omega

-- What one reader behind another can do.
theorem bind_of_ok {w middle : List τ} {a : α} (read : p w = .ok a middle) : (p >>= q) w = q a middle := by
  change (p w).bind q = _
  rw [read]
  rfl

theorem bind_ok {w rest : List τ} {b : β} (ran : (p >>= q) w = .ok b rest) : ∃ a middle, p w = .ok a middle ∧
    q a middle = .ok b rest := by
  change (p w).bind q = _ at ran
  cases read : p w with
  | ok a middle => exact ⟨a,middle,rfl,by rwa [read] at ran⟩
  | more => simp [read,Outcome.bind] at ran
  | error => simp [read,Outcome.bind] at ran

theorem bind_more {w : List τ} (ran : (p >>= q) w = .more) : p w = .more ∨ ∃ a middle, p w = .ok a middle ∧
    q a middle = .more := by
  change (p w).bind q = _ at ran
  cases read : p w with
  | ok a middle => exact .inr ⟨a,middle,rfl,by rwa [read] at ran⟩
  | more => exact .inl rfl
  | error => simp [read,Outcome.bind] at ran

theorem bind_error {w : List τ} (ran : (p >>= q) w = .error) : p w = .error ∨ ∃ a middle, p w = .ok a middle ∧
    q a middle = .error := by
  change (p w).bind q = _ at ran
  cases read : p w with
  | ok a middle => exact .inr ⟨a,middle,rfl,by rwa [read] at ran⟩
  | more => simp [read,Outcome.bind] at ran
  | error => exact .inl rfl

theorem ReadsUpTo.left_short (reads : ReadsUpTo n p P F) {w middle more : List τ} {a : α}
    (short : (w ++ more).length ≤ n) (read : p w = .ok a middle) :
    (middle ++ more).length ≤ n := by
  have front : w.length ≤ n := by rw [List.length_append] at short; omega
  obtain ⟨u,split,_⟩ := reads.sound w a middle front read
  exact rest_short (u:=u) (by rw [split,List.append_assoc]) short

theorem ReadsUpTo.bind (first : ReadsUpTo n p P F) (second : ∀ a, ReadsUpTo n (q a) (Q a) G)
    (meets : ∀ a v b rest, Q a v b → G rest → F (v ++ rest)) (some_phrase : ∀ a, ∃ v b, Q a v b) :
    ReadsUpTo n (p >>= q) (Then P Q) G where
  ok_stays w b rest more short ran := by
    obtain ⟨a,middle,read,behind⟩ := bind_ok ran
    rw [bind_of_ok (first.ok_stays w a middle more short read)]
    exact (second a).ok_stays middle b rest more (first.left_short short read) behind
  error_stays w more short ran := by
    rcases bind_error ran with read | ⟨a,middle,read,behind⟩
    · change (p (w ++ more)).bind q = _
      rw [first.error_stays w more short read]
      rfl
    · rw [bind_of_ok (first.ok_stays w a middle more short read)]
      exact (second a).error_stays middle more (first.left_short short read) behind
  sound w b rest short ran := by
    obtain ⟨a,middle,read,behind⟩ := bind_ok ran
    obtain ⟨u,rfl,phrase⟩ := first.sound w a middle short read
    obtain ⟨v,rfl,phrase'⟩ := (second a).sound middle b rest (rest_short rfl short) behind
    exact ⟨u ++ v,(List.append_assoc ..).symm,u,v,a,rfl,phrase,phrase'⟩
  complete w b rest short phrase follows := by
    obtain ⟨u,v,a,rfl,phrase,phrase'⟩ := phrase
    rw [List.append_assoc] at short ⊢
    rw [bind_of_ok (first.complete u a _ short phrase (meets a v b rest phrase' follows))]
    exact (second a).complete v b rest (rest_short rfl short) phrase' follows
  viable w short ran := by
    rcases bind_more ran with read | ⟨a,middle,read,behind⟩
    · obtain ⟨more,a,phrase⟩ := first.viable w short read
      obtain ⟨v,b,phrase'⟩ := some_phrase a
      exact ⟨more ++ v,b,w ++ more,v,a,(List.append_assoc ..).symm,phrase,phrase'⟩
    · obtain ⟨u,rfl,phrase⟩ := first.sound w a middle short read
      obtain ⟨more,b,phrase'⟩ := (second a).viable middle (rest_short rfl short) behind
      exact ⟨more,b,u,middle ++ more,a,List.append_assoc ..,phrase,phrase'⟩

theorem reads_next {f : τ → Reader τ α} (each : ∀ t, ReadsUpTo n (f t) (fun u => P (t::u)) F)
    (some_phrase : ∃ u a, P u a)
    (some_token : ∀ a, ¬ P [] a) : ReadsUpTo (n + 1) (next f) P F where
  ok_stays w a rest more short ran := by
    cases w with
    | nil => cases ran
    | cons t w => exact (each t).ok_stays w a rest more (Nat.le_of_succ_le_succ short) ran
  error_stays w more short ran := by
    cases w with
    | nil => cases ran
    | cons t w => exact (each t).error_stays w more (Nat.le_of_succ_le_succ short) ran
  sound w a rest short ran := by
    cases w with
    | nil => cases ran
    | cons t w =>
      obtain ⟨u,rfl,phrase⟩ := (each t).sound w a rest (Nat.le_of_succ_le_succ short) ran
      exact ⟨t::u,rfl,phrase⟩
  complete u a rest short phrase follows := by
    cases u with
    | nil => exact absurd phrase (some_token a)
    | cons t u => exact (each t).complete u a rest (Nat.le_of_succ_le_succ short) phrase follows
  viable w short ran := by
    cases w with
    | nil => exact some_phrase
    | cons t w => exact (each t).viable w (Nat.le_of_succ_le_succ short) ran

-- The first token decides for all that comes behind it.
theorem branch_cons (starts : τ → Bool) (p p' : Reader τ α) (t : τ) :
    (∀ w, branch starts p p' (t::w) = p (t::w)) ∨ ∀ w, branch starts p p' (t::w) = p' (t::w) := by
  by_cases here : starts t = true
  · exact .inl fun w => if_pos here
  · exact .inr fun w => if_neg here

theorem reads_branch {starts : τ → Bool} (first : ReadsUpTo n p P F) (second : ReadsUpTo n p' P' F)
    (some_phrase : ∃ u a, P u a)
    (begins : ∀ u a, P u a → Follow (fun t => starts t = true) u)
    (differs : ∀ u a rest, P' u a → F rest → Follow (fun t => starts t = false) (u ++ rest)) :
    ReadsUpTo n (branch starts p p') (fun u a => P u a ∨ P' u a) F where
  ok_stays w a rest more short ran := by
    cases w with
    | nil => cases ran
    | cons t w =>
      rcases branch_cons starts p p' t with here | here
      · exact (here (w ++ more)).trans (first.ok_stays _ a rest more short ((here w).symm.trans ran))
      · exact (here (w ++ more)).trans (second.ok_stays _ a rest more short ((here w).symm.trans ran))
  error_stays w more short ran := by
    cases w with
    | nil => cases ran
    | cons t w =>
      rcases branch_cons starts p p' t with here | here
      · exact (here (w ++ more)).trans (first.error_stays _ more short ((here w).symm.trans ran))
      · exact (here (w ++ more)).trans (second.error_stays _ more short ((here w).symm.trans ran))
  sound w a rest short ran := by
    cases w with
    | nil => cases ran
    | cons t w =>
      rcases branch_cons starts p p' t with here | here
      · obtain ⟨u,split,phrase⟩ := first.sound _ a rest short ((here w).symm.trans ran)
        exact ⟨u,split,.inl phrase⟩
      · obtain ⟨u,split,phrase⟩ := second.sound _ a rest short ((here w).symm.trans ran)
        exact ⟨u,split,.inr phrase⟩
  complete u a rest short phrase follows := by
    rcases phrase with phrase | phrase
    · obtain ⟨t,v,rfl,here⟩ := begins u a phrase
      rw [List.cons_append,branch,if_pos here]
      exact first.complete _ a rest short phrase follows
    · obtain ⟨t,v,split,here⟩ := differs u a rest phrase follows
      rw [split,branch,if_neg (Bool.not_eq_true _ ▸ here),← split]
      exact second.complete u a rest short phrase follows
  viable w short ran := by
    cases w with
    | nil =>
      obtain ⟨u,a,phrase⟩ := some_phrase
      exact ⟨u,a,.inl phrase⟩
    | cons t w =>
      rcases branch_cons starts p p' t with here | here
      · obtain ⟨more,a,phrase⟩ := first.viable _ short ((here w).symm.trans ran)
        exact ⟨more,a,.inl phrase⟩
      · obtain ⟨more,a,phrase⟩ := second.viable _ short ((here w).symm.trans ran)
        exact ⟨more,a,.inr phrase⟩

theorem ReadsUpTo.terminal {f : τ → Option α} (each : ∀ a, ReadsUpTo n (q a) (Q a) F)
    (some_phrase : ∃ t a u b, f t = some a ∧ Q a u b) :
    ReadsUpTo (n + 1) (Readers.terminal f >>= q) (fun w b => ∃ t a u, w = t::u ∧ f t = some a ∧ Q a u b) F := by
  have turn : ∀ t, ReadsUpTo n ((f t).elim fail q) (fun u b => ∃ t' a u', t::u = t'::u' ∧ f t' = some a ∧
      Q a u' b) F := by
    intro t
    cases known : f t with
    | none =>
      refine reads_fail.congr fun u b => iff_of_false id ?_
      rintro ⟨t',a,u',same,known',_⟩
      rw [← (List.cons.inj same).1,known] at known'
      cases known'
    | some a =>
      refine (each a).congr fun u b => ⟨fun phrase => ⟨t,a,u,rfl,known,phrase⟩,?_⟩
      rintro ⟨t',a',u',same,known',phrase⟩
      obtain ⟨rfl,rfl⟩ := List.cons.inj same
      rw [known] at known'
      cases known'
      exact phrase
  refine (reads_next turn ?_ ?_).agree ?_
  · obtain ⟨t,a,u,b,known,phrase⟩ := some_phrase
    exact ⟨t::u,b,t,a,u,rfl,known,phrase⟩
  · rintro b ⟨t,a,u,same,_⟩
    cases same
  · intro w _
    cases w with
    | nil => rfl
    | cons t w =>
      change (f t).elim fail q w = ((f t).elim fail pure w).bind q
      cases f t <;> rfl

theorem ReadsUpTo.weaken {m : Nat} (reads : ReadsUpTo n p P F) (below : m ≤ n) : ReadsUpTo m p P F where
  ok_stays w a rest more short := reads.ok_stays w a rest more (Nat.le_trans short below)
  error_stays w more short := reads.error_stays w more (Nat.le_trans short below)
  sound w a rest short := reads.sound w a rest (Nat.le_trans short below)
  complete u a rest short := reads.complete u a rest (Nat.le_trans short below)
  viable w short := reads.viable w (Nat.le_trans short below)

theorem ReadsUpTo.map (reads : ReadsUpTo n p P F) (f : α → β) :
    ReadsUpTo n (p >>= fun a => pure (f a)) (fun w b => ∃ a, P w a ∧ b = f a) F := by
  refine (reads.bind (fun a => reads_pure (f a)) ?_ fun a => ⟨[],f a,rfl,rfl⟩).congr fun w b => ⟨?_,?_⟩
  · rintro a v b rest ⟨rfl,_⟩ follows
    exact follows
  · rintro ⟨u,v,a,rfl,phrase,rfl,rfl⟩
    exact ⟨a,(List.append_nil u).symm ▸ phrase,rfl⟩
  · rintro ⟨a,phrase,rfl⟩
    exact ⟨w,[],a,(List.append_nil w).symm,phrase,rfl,rfl⟩

theorem AgreeUpTo.bind (reads : ReadsUpTo n p P F) (agree : AgreeUpTo n p p')
    (goes_on : ∀ a, AgreeUpTo n (q a) (q' a)) :
    AgreeUpTo n (p >>= q) (p' >>= q') := by
  intro w short
  change (p w).bind q = (p' w).bind q'
  rw [← agree w short]
  cases read : p w with
  | ok a rest =>
    obtain ⟨u,split,_⟩ := reads.sound w a rest short read
    exact goes_on a rest (rest_short split short)
  | more => rfl
  | error => rfl

theorem AgreeUpTo.branch {starts : τ → Bool} {r r' : Reader τ α} (first : AgreeUpTo n p p')
    (second : AgreeUpTo n r r') :
    AgreeUpTo n (Readers.branch starts p r) (Readers.branch starts p' r') := by
  intro w short
  cases w with
  | nil => rfl
  | cons t w =>
    rw [Readers.branch,Readers.branch,first _ short,second _ short]

theorem AgreeUpTo.refl (p : Reader τ α) : AgreeUpTo n p p := fun _ _ => rfl

namespace Reads

theorem congr (reads : Reads p P F) (same : ∀ w a, P w a ↔ P' w a) : Reads p P' F := by
  obtain ⟨u,a,phrase⟩ := reads.some_phrase
  exact ⟨fun n => (reads.upTo n).congr same,u,a,(same u a).mp phrase⟩

theorem mono (reads : Reads p P F) (less : ∀ rest, G rest → F rest) :
    Reads p P G := ⟨fun n => (reads.upTo n).mono less,reads.some_phrase⟩

theorem yields (a : α) : Reads (pure a : Reader τ α) (Yields a) F := ⟨fun _ => reads_pure a,[],a,rfl,rfl⟩

theorem bind (first : Reads p P F) (second : ∀ a, Reads (q a) (Q a) G)
    (meets : ∀ a v b rest, Q a v b → G rest → F (v ++ rest)) :
    Reads (p >>= q) (Then P Q) G := by
  refine ⟨fun n => (first.upTo n).bind (fun a => (second a).upTo n) meets fun a => (second a).some_phrase,?_⟩
  obtain ⟨u,a,phrase⟩ := first.some_phrase
  obtain ⟨v,b,phrase'⟩ := (second a).some_phrase
  exact ⟨u ++ v,b,u,v,a,rfl,phrase,phrase'⟩

theorem map (reads : Reads p P F) (f : α → β) : Reads (p >>= fun a => pure (f a))
    (fun w b => ∃ a, P w a ∧ b = f a) F := by
  obtain ⟨u,a,phrase⟩ := reads.some_phrase
  exact ⟨fun n => (reads.upTo n).map f,u,f a,a,phrase,rfl⟩

theorem terminal {f : τ → Option α} {t : τ} {a : α} (known : f t = some a) (each : ∀ a, Reads (q a) (Q a) F) :
    Reads (Readers.terminal f >>= q) (fun w b => ∃ t a u, w = t::u ∧ f t = some a ∧ Q a u b) F := by
  obtain ⟨u,b,phrase⟩ := (each a).some_phrase
  refine ⟨fun n => ?_,t::u,b,t,a,u,rfl,known,phrase⟩
  exact (ReadsUpTo.terminal (fun a => (each a).upTo n) ⟨t,a,u,b,known,phrase⟩).weaken (Nat.le_succ n)

theorem one {f : τ → Option α} {t : τ} {a : α} (known : f t = some a) : Reads (Readers.terminal f) (Terminal f) F := by
  refine ⟨fun n => ?_,[t],a,t,rfl,known⟩
  refine (((Reads.terminal known yields).upTo n).congr fun w b => ⟨?_,?_⟩).agree fun w _ => ?_
  · rintro ⟨t,a,u,rfl,known,rfl,rfl⟩
    exact ⟨t,rfl,known⟩
  · rintro ⟨t,rfl,known⟩
    exact ⟨t,b,[],rfl,known,rfl,rfl⟩
  · change (Readers.terminal f w).bind pure = _
    cases Readers.terminal f w <;> rfl

theorem branch {d : τ → Bool} (first : Reads p P F) (second : Reads p' P' F)
    (begins : ∀ u a, P u a → Follow (fun t => d t = true) u)
    (differs : ∀ u a rest, P' u a → F rest → Follow (fun t => d t = false) (u ++ rest)) :
    Reads (Readers.branch d p p') (fun u a => P u a ∨ P' u a) F := by
  obtain ⟨u,a,phrase⟩ := first.some_phrase
  exact ⟨fun n => reads_branch (first.upTo n) (second.upTo n) first.some_phrase begins differs,u,a,.inl phrase⟩

theorem next {f : τ → Reader τ α} (each : ∀ t n, ReadsUpTo n (f t) (fun u => P (t::u)) F) (some_phrase : ∃ u a, P u a)
    (some_token : ∀ a, ¬ P [] a) : Reads (Readers.next f) P F :=
  ⟨fun n => (reads_next (fun t => each t n) some_phrase some_token).weaken (Nat.le_succ n),some_phrase⟩

end Reads

section whole

variable (reads : Reads p P fun _ => True)
include reads

-- A reader that need not see what follows: a word is a phrase in one way, and no phrase goes on as another.
theorem Reads.ok_iff {w : List τ} {a : α} {rest : List τ} : p w = .ok a rest ↔ ∃ u, w = u ++ rest ∧ P u a := by
  constructor
  · exact (reads.upTo w.length).sound w a rest (Nat.le_refl _)
  · rintro ⟨u,rfl,phrase⟩
    exact (reads.upTo _).complete u a rest (Nat.le_refl _) phrase trivial

theorem Reads.phrase_iff {w : List τ} {a : α} : P w a ↔ p w = .ok a [] := by
  rw [reads.ok_iff]
  constructor
  · intro phrase
    exact ⟨w,(List.append_nil w).symm,phrase⟩
  · rintro ⟨u,rfl,phrase⟩
    rwa [List.append_nil]

theorem Reads.unique {u more : List τ} {a b : α} (phrase : P u a) (longer : P (u ++ more) b) : more = [] ∧ a = b := by
  have first := (reads.upTo _).ok_stays u a [] more (Nat.le_refl _) (reads.phrase_iff.mp phrase)
  have second := reads.phrase_iff.mp longer
  rw [first,List.nil_append] at second
  cases second
  exact ⟨rfl,rfl⟩

theorem Reads.more_iff {w : List τ} : p w = .more ↔ ∃ t more a, P (w ++ t::more) a := by
  constructor
  · intro ran
    obtain ⟨more,a,phrase⟩ := (reads.upTo w.length).viable w (Nat.le_refl _) ran
    cases more with
    | nil =>
      rw [List.append_nil,reads.phrase_iff,ran] at phrase
      cases phrase
    | cons t more => exact ⟨t,more,a,phrase⟩
  · rintro ⟨t,more,a,phrase⟩
    have whole := reads.phrase_iff.mp phrase
    cases ran : p w with
    | more => rfl
    | ok b rest =>
      rw [(reads.upTo _).ok_stays w b rest (t::more) (Nat.le_refl _) ran] at whole
      injection whole with _ nothing
      exact absurd nothing (by simp)
    | error =>
      rw [(reads.upTo _).error_stays w (t::more) (Nat.le_refl _) ran] at whole
      cases whole

-- It gives up on the first token with which nothing can be said any more.
theorem Reads.error_iff {w : List τ} : p w = .error ↔ ∀ u a, P u a → ¬ u <+: w ∧ ¬ w <+: u := by
  constructor
  · rintro ran u a phrase
    constructor
    · rintro ⟨rest,rfl⟩
      rw [reads.ok_iff.mpr ⟨u,rfl,phrase⟩] at ran
      cases ran
    · rintro ⟨more,rfl⟩
      have whole := reads.phrase_iff.mp phrase
      rw [(reads.upTo _).error_stays w more (Nat.le_refl _) ran] at whole
      cases whole
  · intro none
    cases ran : p w with
    | error => rfl
    | ok a rest =>
      obtain ⟨u,rfl,phrase⟩ := reads.ok_iff.mp ran
      exact absurd ⟨rest,rfl⟩ (none u a phrase).1
    | more =>
      obtain ⟨t,more,a,phrase⟩ := reads.more_iff.mp ran
      exact absurd ⟨t::more,rfl⟩ (none _ a phrase).2

end whole

section items

-- Phrases with commas between them, the last of them perhaps in brackets together.
inductive Items (brackets : Option (τ × τ)) (comma : τ) (Item : List τ → α → Prop) (one : α → β) (cons : α → β → β) :
    List τ → β → Prop where
  | nested {l r : τ} {u : List τ} {b : β} (bracketed : brackets = some (l,r))
      (inside : Items brackets comma Item one cons u b) :
    Items brackets comma Item one cons (l::(u ++ [r])) b
  | cons {u v : List τ} {a : α} {b : β} (first : Item u a) (rest : Items brackets comma Item one cons v b) :
    Items brackets comma Item one cons (u ++ comma::v) (cons a b)
  | one {u : List τ} {a : α} (only : Item u a) : Items brackets comma Item one cons u (one a)

variable [DecidableEq τ]

def expect (c : τ) : Reader τ Unit := terminal fun t => if t = c then some () else none

theorem ReadsUpTo.expect {c : τ} (reads : ReadsUpTo n p P F) (some_phrase : ∃ u a, P u a) :
    ReadsUpTo (n + 1) (Readers.expect c >>= fun _ => p) (fun w a => ∃ u, w = c::u ∧ P u a) F := by
  obtain ⟨u,a,phrase⟩ := some_phrase
  refine (ReadsUpTo.terminal (fun _ => reads) ⟨c,(),u,a,if_pos rfl,phrase⟩).congr fun w b => ⟨?_,?_⟩
  · rintro ⟨t,_,u,rfl,known,phrase⟩
    have same : t = c := by
      by_contra differs
      rw [if_neg differs] at known
      cases known
    exact ⟨u,by rw [same],phrase⟩
  · rintro ⟨u,rfl,phrase⟩
    exact ⟨c,(),u,rfl,if_pos rfl,phrase⟩

def single (comma : τ) (item : Reader τ α) (one : α → β) (cons : α → β → β) (rest : Reader τ β) : Reader τ β := do
  let a ← item
  branch (· = comma) (do expect comma; return cons a (← rest)) (return one a)

def bracketed (l r : τ) (rest : Reader τ β) : Reader τ β := do
  expect l
  let b ← rest
  expect r
  return b

def itemsUpTo (brackets : Option (τ × τ)) (comma : τ) (item : Reader τ α) (one : α → β) (cons : α → β → β) :
    Nat → Reader τ β
  | 0 => fun _ => .more
  | n+1 =>
    let rest := itemsUpTo brackets comma item one cons n
    match brackets with
    | none => single comma item one cons rest
    | some (l,r) => branch (· = l) (bracketed l r rest) (single comma item one cons rest)

-- Every turn takes a token.
def items (brackets : Option (τ × τ)) (comma : τ) (item : Reader τ α) (one : α → β) (cons : α → β → β) : Reader τ β :=
  fun w => itemsUpTo brackets comma item one cons w.length w

variable {brackets : Option (τ × τ)} {comma : τ} {item : Reader τ α} {Item : List τ → α → Prop} {one : α → β}
  {cons : α → β → β} {may : τ → Prop}

omit [DecidableEq τ] in
theorem items_word (some_item : ∃ u a, Item u a) : ∃ u b, Items brackets comma Item one cons u b := by
  obtain ⟨u,a,phrase⟩ := some_item
  exact ⟨u,one a,.one phrase⟩

omit [DecidableEq τ] in
theorem Items.each {R : τ → Prop} {w : List τ} {b : β} (list : Items brackets comma Item one cons w b)
    (item : ∀ u a, Item u a → ∀ t ∈ u, R t)
    (separator : R comma) (bracket : ∀ l r, brackets = some (l,r) → R l ∧ R r) : ∀ t ∈ w, R t := by
  induction list with
  | @nested l r u b bracketed inside ih =>
    obtain ⟨left,right⟩ := bracket l r bracketed
    exact List.forall_mem_cons.mpr ⟨left,List.forall_mem_append.mpr ⟨ih,List.forall_mem_singleton.mpr right⟩⟩
  | cons first rest ih => exact List.forall_mem_append.mpr ⟨item _ _ first,List.forall_mem_cons.mpr ⟨separator,ih⟩⟩
  | one only => exact item _ _ only

-- What may be behind a phrase of the list is told from what the list needs.
structure Listed (brackets : Option (τ × τ)) (comma : τ) (Item : List τ → α → Prop) (may : τ → Prop) : Prop where
  separated : may comma
  closed : ∀ l r, brackets = some (l,r) → may r ∧ r ≠ comma
  begins : ∀ l r, brackets = some (l,r) → ∀ u a, Item u a → Follow (fun t => t ≠ l) u

theorem single_reads {rest : Reader τ β} {R : List τ → β → Prop} (separated : may comma)
    (reads : ReadsUpTo (n + 1) item Item (Follow may))
    (behind : ReadsUpTo n rest R (Follow fun t => may t ∧ t ≠ comma)) (some_phrase : ∃ u b, R u b) :
    ReadsUpTo (n + 1) (single comma item one cons rest)
      (fun w b => (∃ u v a c, w = u ++ comma::v ∧ Item u a ∧ R v c ∧ b = cons a c) ∨ ∃ a, Item w a ∧ b = one a)
      (Follow fun t => may t ∧ t ≠ comma) := by
  obtain ⟨word,meaning,some_word⟩ := some_phrase
  have goes_on : ∀ a, ReadsUpTo (n + 1) (branch (· = comma) (do expect comma; return cons a (← rest)) (return one a))
      (fun u b => (∃ v, u = comma::v ∧ ∃ c, R v c ∧ b = cons a c) ∨ Yields (one a) u b)
      (Follow fun t => may t ∧ t ≠ comma) := by
    intro a
    refine reads_branch ((behind.map (cons a)).expect ⟨word,_,_,some_word,rfl⟩) (reads_pure (one a))
      ⟨_,_,word,rfl,_,some_word,rfl⟩ ?_ ?_
    · rintro u b ⟨v,rfl,_⟩
      exact ⟨comma,v,rfl,decide_eq_true rfl⟩
    · rintro u b rest ⟨rfl,rfl⟩ ⟨t,v,rfl,_,differs⟩
      exact ⟨t,v,rfl,decide_eq_false differs⟩
  refine (reads.bind goes_on ?_ fun a => ⟨[],one a,.inr ⟨rfl,rfl⟩⟩).congr fun w b => ⟨?_,?_⟩
  · rintro a v b rest (⟨v,rfl,_⟩ | ⟨rfl,_⟩) follows
    · exact ⟨comma,v ++ rest,rfl,separated⟩
    · obtain ⟨t,v,rfl,yes,_⟩ := follows
      exact ⟨t,v,rfl,yes⟩
  · rintro ⟨u,_,a,rfl,phrase,⟨v,rfl,c,later,rfl⟩ | ⟨rfl,rfl⟩⟩
    · exact .inl ⟨u,v,a,c,rfl,phrase,later,rfl⟩
    · exact .inr ⟨a,(List.append_nil u).symm ▸ phrase,rfl⟩
  · rintro (⟨u,v,a,c,rfl,phrase,later,rfl⟩ | ⟨a,phrase,rfl⟩)
    · exact ⟨u,comma::v,a,rfl,phrase,.inl ⟨v,rfl,c,later,rfl⟩⟩
    · exact ⟨w,[],a,(List.append_nil w).symm,phrase,.inr ⟨rfl,rfl⟩⟩

theorem bracketed_reads {l r : τ} {rest : Reader τ β} {R : List τ → β → Prop} (inside : ReadsUpTo n rest R F)
    (closes : ∀ v, F (r::v))
    (some_phrase : ∃ u b, R u b) : ReadsUpTo (n + 1) (bracketed l r rest) (fun w b => ∃ u, w = l::(u ++ [r]) ∧
      R u b) G := by
  obtain ⟨word,meaning,some_word⟩ := some_phrase
  have ended : ∀ b : β, ReadsUpTo n (expect r >>= fun _ => pure b) (fun w c => ∃ u, w = r::u ∧ Yields b u c)
      G := fun b =>
    ((reads_pure b).expect ⟨[],b,rfl,rfl⟩).weaken (Nat.le_succ n)
  have closed := inside.bind ended
    (by
      rintro b v c rest ⟨u,rfl,_⟩ _
      exact closes (u ++ rest))
    (fun b => ⟨[r],b,[],rfl,rfl,rfl⟩)
  refine (closed.expect (c:=l) ⟨word ++ [r],meaning,word,[r],meaning,rfl,some_word,[],rfl,rfl,rfl⟩).congr fun w b =>
    ⟨?_,?_⟩
  · rintro ⟨_,rfl,u,_,c,rfl,phrase,_,rfl,rfl,rfl⟩
    exact ⟨u,rfl,phrase⟩
  · rintro ⟨u,rfl,phrase⟩
    exact ⟨u ++ [r],rfl,u,[r],b,rfl,phrase,[],rfl,rfl,rfl⟩

theorem itemsUpTo_reads (listed : Listed brackets comma Item may) (reads : Reads item Item (Follow may)) :
    ReadsUpTo n (itemsUpTo brackets comma item one cons n) (Items brackets comma Item one cons)
      (Follow fun t => may t ∧ t ≠ comma) := by
  have word : ∃ u b, Items brackets comma Item one cons u b := items_word reads.some_phrase
  induction n with
  | zero =>
    refine ⟨fun _ _ _ _ _ ran => (nomatch ran),fun _ _ _ ran => (nomatch ran),fun _ _ _ _ ran => (nomatch ran),?_,?_⟩
    · rintro u b rest short _ ⟨t,v,rfl,_⟩
      simp at short
    · intro w short _
      obtain rfl := List.length_eq_zero_iff.mp (Nat.le_zero.mp short)
      exact word
  | succ n ih =>
    have plain : ReadsUpTo (n + 1) (single comma item one cons (itemsUpTo brackets comma item one cons n)) _ _ :=
      single_reads listed.separated (reads.upTo (n + 1)) ih word
    cases brackets with
    | none =>
      refine plain.congr fun w b => ⟨?_,fun phrase => ?_⟩
      · rintro (⟨u,v,a,c,rfl,phrase,rest,rfl⟩ | ⟨a,phrase,rfl⟩)
        · exact .cons phrase rest
        · exact .one phrase
      · cases phrase with
        | nested bracketed => cases bracketed
        | cons first rest => exact .inl ⟨_,_,_,_,rfl,first,rest,rfl⟩
        | one only => exact .inr ⟨_,only,rfl⟩
    | some both =>
      obtain ⟨l,r⟩ := both
      obtain ⟨word,meaning,some_word⟩ := word
      have nested := bracketed_reads (l:=l) (r:=r) (G:=Follow fun t => may t ∧ t ≠ comma) ih
        (fun v => ⟨r,v,rfl,listed.closed l r rfl⟩)
        ⟨word,meaning,some_word⟩
      refine (reads_branch nested plain ⟨_,meaning,word,rfl,some_word⟩ ?_ ?_).congr fun w b => ⟨?_,fun phrase => ?_⟩
      · rintro u b ⟨v,rfl,_⟩
        exact ⟨l,v ++ [r],rfl,decide_eq_true rfl⟩
      · rintro u b rest phrase _
        have begins := listed.begins l r rfl
        rcases phrase with ⟨u,v,a,c,rfl,phrase,_⟩ | ⟨a,phrase,_⟩
        · obtain ⟨t,more,rfl,apart⟩ := begins u a phrase
          exact ⟨t,more ++ comma::v ++ rest,by simp,decide_eq_false apart⟩
        · obtain ⟨t,more,rfl,apart⟩ := begins u a phrase
          exact ⟨t,more ++ rest,rfl,decide_eq_false apart⟩
      · rintro (⟨u,rfl,within⟩ | ⟨u,v,a,c,rfl,phrase,rest,rfl⟩ | ⟨a,phrase,rfl⟩)
        · exact .nested rfl within
        · exact .cons phrase rest
        · exact .one phrase
      · cases phrase with
        | nested bracketed within =>
          cases bracketed
          exact .inl ⟨_,rfl,within⟩
        | cons first rest => exact .inr (.inl ⟨_,_,_,_,rfl,first,rest,rfl⟩)
        | one only => exact .inr (.inr ⟨_,only,rfl⟩)

theorem expect_cons (c t : τ) (w : List τ) : (expect c >>= fun _ => p) (t::w) = if t = c then p w else .error := by
  change (((if t = c then some () else none : Option Unit).elim fail pure) w).bind (fun _ => p) = _
  split <;> rfl

theorem AgreeUpTo.expect {c : τ} (agree : AgreeUpTo n p p') :
    AgreeUpTo (n + 1) (Readers.expect c >>= fun _ => p) (Readers.expect c >>= fun _ => p') := by
  intro w short
  cases w with
  | nil => rfl
  | cons t w => rw [expect_cons,expect_cons,agree w (Nat.le_of_succ_le_succ short)]

theorem Reads.expect {c : τ} (reads : Reads p P F) :
    Reads (Readers.expect c >>= fun _ => p) (fun w a => ∃ u, w = c::u ∧ P u a) F := by
  obtain ⟨u,a,phrase⟩ := reads.some_phrase
  exact ⟨fun n => ((reads.upTo n).expect reads.some_phrase).weaken (Nat.le_succ n),c::u,a,u,rfl,phrase⟩

-- A token that says whether there is a phrase, and one that a phrase ends in front of.
theorem Reads.optional {c : τ} {a : α} (reads : Reads p P F) (differs : ∀ rest, F rest → Follow (fun t => t ≠ c) rest) :
    Reads (Readers.branch (· = c) (Readers.expect c >>= fun _ => p) (pure a))
      (fun w b => (∃ u, w = c::u ∧ P u b) ∨ Yields a w b) F := by
  refine .branch reads.expect (.yields a) ?_ ?_
  · rintro u b ⟨v,rfl,_⟩
    exact ⟨c,v,rfl,decide_eq_true rfl⟩
  · rintro u b rest ⟨rfl,_⟩ follows
    obtain ⟨t,v,rfl,apart⟩ := differs rest follows
    exact ⟨t,v,rfl,decide_eq_false apart⟩

theorem Reads.before {c : τ} {may : τ → Prop} (first : Reads p P (Follow may)) (yes : may c)
    (second : ∀ a, Reads (q a) (Q a) F) :
    Reads (p >>= fun a => Readers.expect c >>= fun _ => q a) (fun w b => ∃ u v a, w = u ++ c::v ∧ P u a ∧ Q a v b)
      F := by
  refine (first.bind (fun a => (second a).expect) ?_).congr fun w b => ⟨?_,?_⟩
  · rintro a _ b rest ⟨v,rfl,_⟩ _
    exact ⟨c,v ++ rest,rfl,yes⟩
  · rintro ⟨u,_,a,rfl,phrase,v,rfl,phrase'⟩
    exact ⟨u,v,a,rfl,phrase,phrase'⟩
  · rintro ⟨u,v,a,rfl,phrase,phrase'⟩
    exact ⟨u,_,a,rfl,phrase,v,rfl,phrase'⟩

-- With no token at all nothing is known.
theorem single_nil {rest : Reader τ β} (listed : Listed brackets comma Item may)
    (reads : Reads item Item (Follow may)) :
    single comma item one cons rest [] = .more := by
  change (item []).bind _ = _
  cases read : item [] with
  | ok a v =>
    obtain ⟨u,split,_⟩ := (reads.upTo 0).sound [] a v (Nat.le_refl 0) read
    obtain ⟨rfl,rfl⟩ := List.append_eq_nil_iff.mp split.symm
    rfl
  | more => rfl
  | error =>
    obtain ⟨u,a,phrase⟩ := reads.some_phrase
    have ended := (reads.upTo _).error_stays [] (u ++ [comma]) (Nat.le_refl _) read
    rw [List.nil_append,(reads.upTo _).complete u a [comma] (Nat.le_refl _) phrase
      ⟨comma,[],rfl,listed.separated⟩] at ended
    cases ended

theorem itemsUpTo_nil (listed : Listed brackets comma Item may) (reads : Reads item Item (Follow may)) (n : Nat) :
    itemsUpTo brackets comma item one cons n [] = .more := by
  cases n with
  | zero => rfl
  | succ n =>
    cases brackets with
    | none => exact single_nil listed reads
    | some both => rfl

-- The number of turns does not matter when there are enough of them.
theorem itemsUpTo_agree (listed : Listed brackets comma Item may) (reads : Reads item Item (Follow may))
    {m : Nat} (less : n ≤ m) :
    AgreeUpTo n (itemsUpTo brackets comma item one cons n) (itemsUpTo brackets comma item one cons m) := by
  induction n generalizing m with
  | zero =>
    intro w short
    obtain rfl := List.length_eq_zero_iff.mp (Nat.le_zero.mp short)
    rw [itemsUpTo_nil listed reads,itemsUpTo_nil listed reads]
  | succ n ih =>
    obtain ⟨m,rfl⟩ := Nat.exists_eq_succ_of_ne_zero (Nat.ne_zero_of_lt less)
    have rest := ih (Nat.le_of_succ_le_succ less)
    have inside : ReadsUpTo n (itemsUpTo brackets comma item one cons n) _ _ := itemsUpTo_reads listed reads
    have plain : AgreeUpTo (n + 1) (single comma item one cons (itemsUpTo brackets comma item one cons n))
        (single comma item one cons (itemsUpTo brackets comma item one cons m)) :=
      AgreeUpTo.bind (reads.upTo (n + 1)) (.refl item) fun a =>
        (AgreeUpTo.expect (.bind inside rest fun b => .refl _)).branch (.refl _)
    cases brackets with
    | none => exact plain
    | some both => exact (AgreeUpTo.expect (.bind inside rest fun b => .refl _)).branch plain

theorem reads_items (listed : Listed brackets comma Item may) (reads : Reads item Item (Follow may)) :
    Reads (items brackets comma item one cons) (Items brackets comma Item one cons) (Follow fun t => may t ∧
      t ≠ comma) := by
  refine ⟨fun n => (itemsUpTo_reads listed reads).agree fun w short => ?_,items_word reads.some_phrase⟩
  exact (itemsUpTo_agree listed reads short w (Nat.le_refl _)).symm

end items

end Readers
