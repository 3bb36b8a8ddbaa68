import Minirel.Quoting

-- Rows of fields between separators, where a quoted field may hold separators and quotes.
namespace SeparatedFields
open Quoting

inductive Cell (α : Type) where
  | bare (s : List α)
  | quoted (s : List α)
  deriving DecidableEq,Repr

variable {α : Type} {q sep fin : α} {s : List α}

-- The first field goes on.
def extend (f : List α) : List (List α) → List (List α)
  | [] => [f]
  | g::fields => (f ++ g)::fields

theorem extend_nil (fields : List (List α)) (some_field : fields ≠ []) : extend [] fields = fields := by
  cases fields with
  | nil => exact absurd rfl some_field
  | cons g fields => rfl

theorem extend_append (f g : List α) (fields : List (List α)) :
    extend (f ++ g) fields = extend f (extend g fields) := by
  cases fields with
  | nil => rfl
  | cons h fields => rw [extend,extend,extend,List.append_assoc]

variable [DecidableEq α]

-- How a cell is written, and a row of cells.
def Cell.text (q : α) : Cell α → List α
  | .bare s => s
  | .quoted s => enclose q s

def render (q sep fin : α) (cells : List (Cell α)) : List α := [sep].intercalate (cells.map (Cell.text q)) ++ [fin]

-- The fields between the separators that are not inside quotes.
def split (q sep : α) : Bool → List α → List (List α)
  | _,[] => [[]]
  | inside,c::s =>
    if inside = false ∧ c = sep then []::split q sep false s
    else extend [c] (split q sep (if c = q then !inside else inside) s)

def read (q : α) (f : List α) : Cell α :=
  if f.head? = some q then .quoted (undoubled q ((f.drop 1).take (f.length - 2))) else .bare f

def decode (q sep : α) (row : List α) : List (Cell α) := (split q sep false row.dropLast).map (read q)

-- What a field without quotes must keep away from.
def Cell.Plain (q sep : α) : Cell α → Prop
  | .bare s => q ∉ s ∧ sep ∉ s
  | .quoted _ => True

theorem split_ne_nil (inside : Bool) (s : List α) : split q sep inside s ≠ [] := by
  cases s with
  | nil => exact List.cons_ne_nil _ _
  | cons c s =>
    rw [split]
    split
    · exact List.cons_ne_nil _ _
    · cases split q sep (if c = q then !inside else inside) s <;> exact List.cons_ne_nil _ _

theorem split_separator (s : List α) : split q sep false (sep::s) = []::split q sep false s := by
  rw [split,if_pos ⟨rfl,rfl⟩]

theorem split_bare (plain : q ∉ s ∧ sep ∉ s) (rest : List α) :
    split q sep false (s ++ rest) = extend s (split q sep false rest) := by
  induction s with
  | nil => exact (extend_nil _ (split_ne_nil _ _)).symm
  | cons c s ih =>
    rw [List.mem_cons,List.mem_cons,not_or,not_or] at plain
    obtain ⟨⟨no_quote,quotes⟩,no_sep,seps⟩ := plain
    rw [List.cons_append,split,if_neg (fun both => no_sep both.2.symm),if_neg (Ne.symm no_quote),ih
      ⟨quotes,seps⟩,← extend_append]
    rfl

-- A doubled quote leaves the quotes and comes back into them.
theorem split_doubled (apart : q ≠ sep) (s rest : List α) :
    split q sep true (doubled q s ++ rest) = extend (doubled q s) (split q sep true rest) := by
  induction s with
  | nil => exact (extend_nil _ (split_ne_nil _ _)).symm
  | cons c s ih =>
    by_cases quote : c = q
    · subst c
      rw [doubled_quote,List.cons_append,List.cons_append,split,if_neg (fun both => Bool.noConfusion both.1),
        if_pos rfl,split,
        if_neg (fun both => apart both.2),if_pos rfl]
      rw [Bool.not_not,ih,← extend_append,← extend_append]
      rfl
    · rw [doubled_other quote,List.cons_append,split,if_neg (fun both => Bool.noConfusion both.1),if_neg quote,
        ih,← extend_append]
      rfl

theorem split_enclose (apart : q ≠ sep) (s rest : List α) :
    split q sep false (enclose q s ++ rest) = extend (enclose q s) (split q sep false rest) := by
  rw [enclose,List.cons_append,split,if_neg (fun both => apart both.2),if_pos rfl,List.append_assoc,
    List.singleton_append]
  rw [Bool.not_false,split_doubled apart,split,if_neg (fun both => Bool.noConfusion both.1),if_pos rfl,
    Bool.not_true,← extend_append,← extend_append]
  rfl

theorem split_cell (apart : q ≠ sep) {cell : Cell α} (plain : cell.Plain q sep) (rest : List α) :
    split q sep false (cell.text q ++ rest) = extend (cell.text q) (split q sep false rest) := by
  cases cell with
  | bare s => exact split_bare plain rest
  | quoted s => exact split_enclose apart s rest

theorem split_cells (apart : q ≠ sep) {cells : List (Cell α)} (some_cell : cells ≠ [])
    (plain : ∀ cell ∈ cells, cell.Plain q sep) :
    split q sep false ([sep].intercalate (cells.map (Cell.text q))) = cells.map (Cell.text q) := by
  induction cells with
  | nil => exact absurd rfl some_cell
  | cons cell cells ih =>
    have here := plain cell List.mem_cons_self
    cases cells with
    | nil =>
      have alone := split_cell apart here []
      rw [List.append_nil,split,extend,List.append_nil] at alone
      rw [List.map_singleton,List.intercalate_singleton,alone]
    | cons next cells =>
      have later := ih (List.cons_ne_nil _ _) (fun other member => plain other (List.mem_cons_of_mem _ member))
      rw [List.map_cons,List.map_cons,List.intercalate_cons_cons,List.append_assoc,split_cell apart here,
        List.singleton_append,split_separator,← List.map_cons,later,extend,
        List.append_nil]

theorem read_text {cell : Cell α} (plain : cell.Plain q sep) : read q (cell.text q) = cell := by
  cases cell with
  | bare s =>
    rw [Cell.text,read,if_neg]
    intro first
    exact plain.1 (List.mem_of_mem_head? first)
  | quoted s => rw [Cell.text,read,enclose,if_pos List.head?_cons,← enclose,drop_enclose,undoubled_doubled]

-- Splitting at the unquoted separators and taking the quotes off gives the cells back.
theorem decode_render (apart : q ≠ sep) {cells : List (Cell α)} (some_cell : cells ≠ [])
    (plain : ∀ cell ∈ cells, cell.Plain q sep) :
    decode q sep (render q sep fin cells) = cells := by
  rw [decode,render,List.dropLast_concat,split_cells apart some_cell plain,List.map_map]
  refine (List.map_congr_left fun cell member => ?_).trans (List.map_id _)
  exact read_text (plain cell member)

end SeparatedFields
