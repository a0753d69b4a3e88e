import QueryPlanner.Plan.Explain
import QueryPlanner.Proofs.Computation
import QueryPlanner.Proofs.Text.Lines

/-!
# The lines of an operator tree

The text of a tree is a piece for each operator, which ends in a line feed.  It is broken into lines
piece by piece, so the lines are those of the operators one after the other.  An operator has a line
of its own, and one more for every line feed in what the plan says of it.

Main statement: `Operator.listed_iff`.
-/

namespace QueryPlanner

/-- Parts that all have a length of at least one are as long together as they are many just if each
has a length of one. -/
theorem length_flatMap_eq_iff {α β : Type} {f : α → List β} (hf : ∀ a, 1 ≤ (f a).length)
    (l : List α) :
    l.length ≤ (l.flatMap f).length ∧
      ((l.flatMap f).length = l.length ↔ ∀ a ∈ l, (f a).length = 1) := by
  induction l with
  | nil => simp
  | cons a l ih =>
      obtain ⟨hle, hiff⟩ := ih
      have hfirst := hf a
      rw [List.flatMap_cons, List.length_append, List.length_cons, List.forall_mem_cons, ← hiff]
      omega

namespace Operator

/-- How the line of an operator begins: with its indentation, its name and a parenthesis. -/
def opening (depth : Nat) (op : Operator) : String :=
  String.ofList (List.replicate (2 * depth) ' ') ++ op.name ++ "("

variable (depth : Nat) (op : Operator)

theorem line_eq : op.line depth = op.opening depth ++ (op.detail ++ ")") ++ "\n" := by
  simp only [line, opening, String.append_assoc]
  rfl

theorem isLine_opening : Text.IsLine (op.opening depth) := by
  have hindent : Text.IsLine (String.ofList (List.replicate (2 * depth) ' ')) := by
    simp [Text.IsLine]
  have hname : Text.IsLine op.name := by
    cases op <;> simp [Text.IsLine, name]
  simp only [opening, Text.isLine_append]
  exact ⟨⟨hindent, hname⟩, by decide⟩

/-! ## The lines of one operator -/

theorem length_lines_line :
    (Text.lines (op.line depth)).length = op.detail.toList.count '\n' + 1 := by
  have hopening : (op.opening depth).toList.count '\n' = 0 :=
    List.count_eq_zero.2 (op.isLine_opening depth)
  rw [line_eq, Text.length_lines]
  simp [hopening]

/-- The first line of an operator begins as it should. -/
theorem exists_lines_line :
    ∃ first more, Text.lines (op.line depth) = (op.opening depth ++ first) :: more := by
  have hlength := Text.length_lines (op.detail ++ ")")
  cases hrest : Text.lines (op.detail ++ ")" ++ "\n") with
  | nil => simp [hrest] at hlength
  | cons first more =>
      refine ⟨first, more, ?_⟩
      have hend : (op.opening depth).toList.getLast? = some '(' := by simp [opening]
      rw [line_eq, String.append_assoc]
      refine Text.lines_append (op.isLine_opening depth) ?_ hrest
      rw [hend]
      nofun

theorem lines_line_of_isLine (h : Text.IsLine op.detail) :
    Text.lines (op.line depth) = [op.opening depth ++ (op.detail ++ ")")] := by
  have hfront : Text.IsLine (op.opening depth ++ op.detail) :=
    Text.isLine_append.2 ⟨op.isLine_opening depth, h⟩
  have hclosing : Text.lines (")" ++ "\n") = [")"] := by decide
  have hlines := Text.lines_append hfront (fun _ => by decide) hclosing
  simpa only [line_eq, String.append_assoc] using hlines

/-! ## The lines of a tree -/

theorem lines_eq :
    op.lines = (op.outline 0).flatMap fun node => Text.lines (node.2.line node.1) := by
  have hpieces : (op.outline 0).map (fun node => node.2.line node.1) =
      ((op.outline 0).map fun node => node.2.opening node.1 ++ (node.2.detail ++ ")")).map
        (· ++ "\n") := by
    rw [List.map_map]
    exact List.map_congr_left fun node _ => line_eq node.1 node.2
  show Text.lines (String.join ((op.outline 0).map fun node => node.2.line node.1)) = _
  rw [hpieces, Text.lines_join, List.flatMap_map]
  exact List.flatMap_congr fun node _ => by rw [line_eq]

theorem lines_ne_nil : op.lines ≠ [] := by
  have hroot : (0, op) ∈ op.outline 0 := by
    unfold outline
    exact List.mem_cons_self
  obtain ⟨first, more, hlines⟩ := exists_lines_line 0 op
  intro hnil
  rw [lines_eq, List.flatMap_eq_nil_iff] at hnil
  cases (hnil _ hroot).symm.trans hlines

/-- The lines of a tree are one for each of its operators, in their order, and each of them begins
with the indentation and the name of its operator. -/
def Listed : Prop :=
  List.Forall₂ (fun node line => ∃ rest, line = node.2.opening node.1 ++ rest) (op.outline 0)
    op.lines

/-- There is one line for each operator just if the plan says nothing with a line feed in it. -/
theorem listed_iff : op.Listed ↔ ∀ node ∈ op.outline 0, Text.IsLine node.2.detail := by
  have hpositive (node : Nat × Operator) : 1 ≤ (Text.lines (node.2.line node.1)).length := by
    rw [length_lines_line]
    omega
  have hlength := (length_flatMap_eq_iff hpositive (op.outline 0)).2
  unfold Listed
  rw [lines_eq]
  constructor
  · intro h node hnode
    have hone := hlength.1 h.length_eq.symm node hnode
    rw [length_lines_line] at hone
    exact List.count_eq_zero.1 (Nat.succ.inj hone)
  · intro h
    have hlines : ((op.outline 0).flatMap fun node => Text.lines (node.2.line node.1)) =
        (op.outline 0).map fun node => node.2.opening node.1 ++ (node.2.detail ++ ")") := by
      rw [List.map_eq_flatMap]
      refine List.flatMap_congr fun node hnode => ?_
      exact lines_line_of_isLine _ _ (h node hnode)
    rw [hlines, List.forall₂_map_right_iff]
    exact List.forall₂_same.2 fun node _ => ⟨_, rfl⟩

end Operator

end QueryPlanner
