import Mathlib.Data.List.Basic
import Mathlib.Data.String.Basic

/-!
# The process tree of `lithos_ps`: `TreeNode::print`

`lithos_ps` draws the process tree with `TreeNode::print`: the root's head on a
line of its own, then `_print_children` with the indent `"  "`.  That writes,
for every child but the last, `indent ├─head` and the child's own children with
the indent grown by `│   `; then, for the last child, `indent └─head` and its
children with the indent grown by four spaces.

The specification says what the result is without the recursion: one line per
node, in preorder, the line of a node below the root made of two spaces, one
mark for each ancestor strictly between the root and it (`│   ` when that
ancestor has a later sibling, four spaces otherwise), the node's own branch
(`├─` or `└─`) and its head.  `descList` lists the nodes below the root in
preorder, each with those flags, and `lineOf` is the line the specification
gives it.

* `printChildren_eq`: `_print_children` writes the lines of the descendants,
  each with its newline;
* `print_one_line_per_node`: when no head holds a newline, the text `print`
  writes, cut at its newlines, is the root's head and then `lineOf` of every
  other node in preorder, and nothing after the last newline.

`print` is generic in its writer, and the tests write to a `Vec<u8>`, which
never fails; the writer's `io::Error`s are left out, and the result is the text
written.
-/

namespace Lithos

/-- `lithos_ps::ascii::TreeNode`. -/
structure TreeNode where
  /-- The text of the node's line. -/
  head : String
  /-- The children, in order. -/
  children : List TreeNode

namespace TreeNode

theorem sizeOf_lt_of_mem {h : String} {cs : List TreeNode} {c : TreeNode} (hc : c ∈ cs) :
    sizeOf c < sizeOf (TreeNode.mk h cs) := by
  have := List.sizeOf_lt_of_mem hc
  simp only [mk.sizeOf_spec]
  omega

/-- **Induction over trees**: a property that holds of a node once it holds of
each of its children holds of every tree. -/
@[elab_as_elim]
theorem induction {motive : TreeNode → Prop}
    (node : ∀ h cs, (∀ c ∈ cs, motive c) → motive ⟨h, cs⟩) : ∀ t, motive t
  | ⟨h, cs⟩ => node h cs fun c _ => induction node c
termination_by t => sizeOf t
decreasing_by exact sizeOf_lt_of_mem ‹_›

/-- `TreeNode::_print_children`: the lines of the children below `indent`. -/
def printChildren : TreeNode → String → String
  | ⟨_, children⟩, indent =>
    (if children.length ≥ 2 then
      String.join (children.dropLast.attach.map fun c =>
        indent ++ "├─" ++ c.1.head ++ "\n" ++ printChildren c.1 (indent ++ "│   "))
    else "") ++
    match _hlast : children.getLast? with
    | some child => indent ++ "└─" ++ child.head ++ "\n" ++ printChildren child (indent ++ "    ")
    | none => ""
termination_by t => sizeOf t
decreasing_by
  · exact sizeOf_lt_of_mem (List.dropLast_subset _ c.2)
  · exact sizeOf_lt_of_mem (List.mem_of_getLast?_eq_some _hlast)

/-- `TreeNode::print`. -/
def print (t : TreeNode) : String := t.head ++ "\n" ++ t.printChildren "  "

/-! ## What the specification says -/

/-- The mark an ancestor strictly between the root and a node puts on the
node's line. -/
def ancestorMark (later : Bool) : String := if later then "│   " else "    "

/-- The branch that ends the prefix of a node's line. -/
def branchMark (later : Bool) : String := if later then "├─" else "└─"

mutual
/-- A node and its descendants in preorder, each with the flags "has a later
sibling" of its ancestors strictly between the root and it (`anc`), and its
own flag. -/
def descNode (anc : List Bool) (later : Bool) : TreeNode → List (List Bool × Bool × TreeNode)
  | ⟨h, cs⟩ => (anc, later, ⟨h, cs⟩) :: descList (anc ++ [later]) cs

/-- The children `cs` of a node and their descendants, in preorder. -/
def descList (anc : List Bool) : List TreeNode → List (List Bool × Bool × TreeNode)
  | [] => []
  | c :: cs => descNode anc (!cs.isEmpty) c ++ descList anc cs
end

mutual
/-- The nodes of a tree in preorder. -/
def preorder : TreeNode → List TreeNode
  | ⟨h, cs⟩ => ⟨h, cs⟩ :: preorderList cs

/-- The nodes of the trees `cs` in preorder. -/
def preorderList : List TreeNode → List TreeNode
  | [] => []
  | c :: cs => preorder c ++ preorderList cs
end

/-- A node's line after `indent`, without its newline. -/
def lineAt (indent : String) (d : List Bool × Bool × TreeNode) : String :=
  indent ++ String.join (d.1.map ancestorMark) ++ branchMark d.2.1 ++ d.2.2.head

/-- The line the specification gives a node below the root. -/
def lineOf (d : List Bool × Bool × TreeNode) : String := lineAt "  " d

/-- The lines the specification gives a tree: its head, then one line for
every other node, in preorder. -/
def lines (t : TreeNode) : List String := t.head :: (descList [] t.children).map lineOf

/-! ## The enumeration -/

mutual
theorem descNode_anc : ∀ (anc : List Bool) (later : Bool) (t : TreeNode),
    descNode anc later t = (descNode [] later t).map fun d => (anc ++ d.1, d.2)
  | anc, later, ⟨h, cs⟩ => by
    simp only [descNode, List.map_cons, List.append_nil, List.nil_append,
      descList_anc (anc ++ [later]) cs, descList_anc [later] cs, List.map_map]
    congr 1
    exact List.map_congr_left fun d _ => by simp
theorem descList_anc : ∀ (anc : List Bool) (cs : List TreeNode),
    descList anc cs = (descList [] cs).map fun d => (anc ++ d.1, d.2)
  | _, [] => rfl
  | anc, c :: cs => by
    simp only [descList, List.map_append, descNode_anc anc _ c, descList_anc anc cs]
end

mutual
theorem nodes_descNode : ∀ (anc : List Bool) (later : Bool) (t : TreeNode),
    (descNode anc later t).map (fun d => d.2.2) = preorder t
  | anc, later, ⟨h, cs⟩ => by
    simp only [descNode, preorder, List.map_cons, nodes_descList (anc ++ [later]) cs]
theorem nodes_descList : ∀ (anc : List Bool) (cs : List TreeNode),
    (descList anc cs).map (fun d => d.2.2) = preorderList cs
  | _, [] => rfl
  | anc, c :: cs => by
    simp only [descList, preorderList, List.map_append, nodes_descNode anc _ c,
      nodes_descList anc cs]
end

theorem descList_append_last (anc : List Bool) (cs : List TreeNode) (c : TreeNode) :
    descList anc (cs ++ [c]) = cs.flatMap (descNode anc true) ++ descNode anc false c := by
  induction cs with
  | nil => simp [descList]
  | cons x cs ih =>
    have hne : (cs ++ [c]).isEmpty = false := by simp
    rw [List.cons_append, descList, hne, Bool.not_false, ih, List.flatMap_cons, List.append_assoc]

/-! ## What `_print_children` writes -/

/-- The lines of the nodes `ds` after `indent`, each with its newline. -/
def render (indent : String) (ds : List (List Bool × Bool × TreeNode)) : String :=
  String.join (ds.map fun d => lineAt indent d ++ "\n")

@[simp] theorem render_nil (indent : String) : render indent [] = "" := rfl

theorem render_append (indent : String) (ds es : List (List Bool × Bool × TreeNode)) :
    render indent (ds ++ es) = render indent ds ++ render indent es := by
  simp only [render, List.map_append]
  apply String.ext
  simp

theorem render_cons (indent : String) (d : List Bool × Bool × TreeNode)
    (ds : List (List Bool × Bool × TreeNode)) :
    render indent (d :: ds) = lineAt indent d ++ "\n" ++ render indent ds := by
  apply String.ext; simp [render]

/-- Under a node with flag `later`, its descendants' lines are those below the
indent grown by the node's mark. -/
theorem render_shift (indent : String) (later : Bool) (ds : List (List Bool × Bool × TreeNode)) :
    render indent (ds.map fun d => ([later] ++ d.1, d.2)) =
      render (indent ++ ancestorMark later) ds := by
  simp only [render, List.map_map]
  congr 1
  refine List.map_congr_left fun d _ => ?_
  apply String.ext
  simp [lineAt, String.append_assoc]

theorem render_descNode (indent : String) (later : Bool) (c : TreeNode) :
    render indent (descNode [] later c) = indent ++ branchMark later ++ c.head ++ "\n" ++
      render (indent ++ ancestorMark later) (descList [] c.children) := by
  obtain ⟨h, cs⟩ := c
  rw [descNode, render_cons, List.nil_append, descList_anc [later] cs, render_shift]
  apply String.ext
  simp [lineAt]

theorem join_cons (s : String) (ss : List String) :
    String.join (s :: ss) = s ++ String.join ss :=
  String.ext (by simp)

theorem render_flatMap (indent : String) (later : Bool) (cs : List TreeNode) :
    render indent (cs.flatMap (descNode [] later)) =
      String.join (cs.map fun c => render indent (descNode [] later c)) := by
  induction cs with
  | nil => rfl
  | cons c cs ih => rw [List.flatMap_cons, render_append, ih, List.map_cons, join_cons]

theorem printChildren_nil (h indent : String) : printChildren ⟨h, []⟩ indent = "" := by
  rw [printChildren]; rfl

/-- `_print_children` on children `cs ++ [c]`, with the dependent forms of the
source (`attach`, the `getLast?` match) read off. -/
theorem printChildren_concat (h indent : String) (cs : List TreeNode) (c : TreeNode) :
    printChildren ⟨h, cs ++ [c]⟩ indent =
      String.join (cs.map fun x => indent ++ "├─" ++ x.head ++ "\n" ++
        x.printChildren (indent ++ "│   ")) ++
      (indent ++ "└─" ++ c.head ++ "\n" ++ c.printChildren (indent ++ "    ")) := by
  rw [printChildren]
  congr 1
  · simp only [List.dropLast_concat, List.attach_map_val (f := fun x : TreeNode =>
      indent ++ "├─" ++ x.head ++ "\n" ++ x.printChildren (indent ++ "│   "))]
    split
    · rfl
    · rename_i hlen
      simp only [List.length_append, List.length_singleton, ge_iff_le, not_le] at hlen
      have : cs = [] := List.eq_nil_of_length_eq_zero (by omega)
      subst this; rfl
  · split
    · rename_i child hlast
      rw [List.getLast?_concat] at hlast
      cases hlast; rfl
    · rename_i hlast
      simp at hlast

/-- **`_print_children` writes the lines of the descendants**, each after the
indent and with its newline, in preorder. -/
theorem printChildren_eq (t : TreeNode) :
    ∀ indent, t.printChildren indent = render indent (descList [] t.children) := by
  induction t using TreeNode.induction with
  | node h cs ih =>
    intro indent
    rcases List.eq_nil_or_concat cs with rfl | ⟨cs, c, rfl⟩
    · exact printChildren_nil h indent
    simp only [List.concat_eq_append] at ih ⊢
    rw [printChildren_concat, descList_append_last, render_append, render_flatMap,
      render_descNode, ← ih c (by simp)]
    congr 1
    refine congrArg String.join (List.map_congr_left fun x hx => ?_)
    rw [render_descNode, ← ih x (by simp [hx])]
    rfl

/-! ## The lines `print` writes -/

theorem print_eq_join_lines (t : TreeNode) : t.print = String.join (t.lines.map (· ++ "\n")) := by
  rw [print, printChildren_eq, lines, List.map_cons, join_cons, render, List.map_map]
  rfl

/-- Lines each ended by a newline are, as characters, the lines joined by
newlines with an empty line after the last. -/
theorem data_join_lines (ls : List String) :
    (String.join (ls.map (· ++ "\n"))).data = ['\n'].intercalate (ls.map String.data ++ [[]]) := by
  induction ls with
  | nil => rfl
  | cons l ls ih =>
    obtain ⟨y, ys, hy⟩ : ∃ y ys, ls.map String.data ++ [[]] = y :: ys :=
      List.exists_cons_of_ne_nil (by simp)
    rw [hy] at ih
    rw [List.map_cons, join_cons, String.data_append, ih, List.map_cons, List.cons_append, hy]
    simp [List.intercalate, List.intersperse_cons_cons]

theorem newline_not_mem_lineOf (d : List Bool × Bool × TreeNode) (hd : '\n' ∉ d.2.2.head.data) :
    '\n' ∉ (lineOf d).data := by
  have hmark : ∀ b, '\n' ∉ (ancestorMark b).data := by decide
  have hbranch : '\n' ∉ (branchMark d.2.1).data := by cases d.2.1 <;> decide
  simp only [lineOf, lineAt, String.data_append, String.data_join, List.mem_append,
    List.mem_flatten, List.map_map, List.mem_map, not_or, not_exists, not_and]
  refine ⟨⟨⟨by decide, ?_⟩, hbranch⟩, hd⟩
  rintro l ⟨b, -, rfl⟩
  exact hmark b

/-- **`print` writes one line per node, in preorder.**  When no head holds a
newline, the text cut at its newlines is `lines t` (the root's head, then the
line `lineOf` gives each other node) and an empty rest after the last newline;
the nodes of those lines are the nodes of `t` in preorder. -/
theorem print_one_line_per_node (t : TreeNode) (h : ∀ v ∈ t.preorder, '\n' ∉ v.head.data) :
    t.print.data.splitOn '\n' = t.lines.map String.data ++ [[]] ∧
      t :: (descList [] t.children).map (fun d => d.2.2) = t.preorder := by
  obtain ⟨hd, cs⟩ := t
  have hnodes : (⟨hd, cs⟩ : TreeNode) :: (descList [] cs).map (fun d => d.2.2) =
      preorder ⟨hd, cs⟩ := by
    rw [nodes_descList, preorder]
  refine ⟨?_, hnodes⟩
  rw [print_eq_join_lines, data_join_lines]
  refine List.splitOn_intercalate _ _ ?_ (List.append_ne_nil_of_right_ne_nil _ (List.cons_ne_nil _ _))
  simp only [lines, List.map_cons, List.map_map, List.mem_append, List.mem_cons, List.mem_map,
    Function.comp_apply, List.mem_singleton, List.not_mem_nil, or_false]
  rintro l ((rfl | ⟨d, hdm, rfl⟩) | rfl)
  · exact h ⟨hd, cs⟩ (by rw [preorder]; exact List.mem_cons_self _ _)
  · refine newline_not_mem_lineOf d (h _ ?_)
    rw [← hnodes]
    exact List.mem_cons_of_mem _ (List.mem_map_of_mem _ hdm)
  · simp

/-- The tree of the test `test_many_nodes`. -/
def testManyNodes : TreeNode :=
  ⟨"parent", [⟨"child1", [⟨"subchild", []⟩]⟩, ⟨"child2", [⟨"subchild", []⟩]⟩]⟩

theorem print_one_line_per_node_testManyNodes :
    (∀ v ∈ testManyNodes.preorder, '\n' ∉ v.head.data) ∧
      (testManyNodes.print.data.splitOn '\n' = testManyNodes.lines.map String.data ++ [[]] ∧
        testManyNodes :: (descList [] testManyNodes.children).map (fun d => d.2.2) =
          testManyNodes.preorder) :=
  ⟨by decide, print_one_line_per_node testManyNodes (by decide)⟩

/-- The text the test expects. -/
example : testManyNodes.print =
    "parent\n  ├─child1\n  │   └─subchild\n  └─child2\n      └─subchild\n" := by
  rw [print_eq_join_lines]; decide

end TreeNode

end Lithos
