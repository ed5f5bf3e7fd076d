import LineCalculator.Program.Fault

/-!
# Outlines and their drawing

The structure of a statement is shown in two steps. Its **outline** lists
the parts of the tree from top to bottom, each with its level of
indentation. The outline is then read as a **forest**, every item standing
under the last item one level higher, and the forest is drawn with lines
from parents to children.

A forest is a list of siblings, each with a forest of its own below it; the
type spells this out as first node, what is below it, and what is beside it,
so that recursion over a forest is plain structural recursion.
-/

namespace LineCalculator

/-- A line of an outline. -/
structure OutlineItem where
  /-- How deep the item stands. -/
  level : Nat
  /-- What it says. -/
  label : Bytes
  deriving DecidableEq

/-- Trees standing side by side. -/
inductive Forest where
  /-- No tree. -/
  | nil
  /-- A tree with its children, and the trees beside it. -/
  | node (label : Bytes) (children siblings : Forest)
  deriving DecidableEq

namespace Expr

/-- The outline of an expression whose top stands at this level, in front of
`rest`. -/
def outlineOnto (level : Nat) : Expr → (rest : List OutlineItem) → List OutlineItem
  | bin op l r, rest =>
    ⟨level, op.symbol⟩ :: l.outlineOnto (level + 1) (r.outlineOnto (level + 1) rest)
  | paren x, rest => ⟨level, utf8 "( )"⟩ :: x.outlineOnto (level + 1) rest
  | x, rest => ⟨level, x.text⟩ :: rest

/-- The outline of an expression whose top stands at this level. -/
def outline (level : Nat) (x : Expr) : List OutlineItem := x.outlineOnto level []

/-- What stands behind the outline of an expression is left alone. -/
theorem outlineOnto_append (level : Nat) (x : Expr) (s t : List OutlineItem) :
    x.outlineOnto level (s ++ t) = x.outlineOnto level s ++ t := by
  induction x generalizing level s t with
  | lit n => rfl
  | var name => rfl
  | bin op l r ihl ihr => simp only [outlineOnto, ihr, ihl, List.cons_append]
  | paren x ih => simp only [outlineOnto, ih, List.cons_append]
  | missing => rfl

end Expr

namespace Stmt

/-- The outline of a statement. -/
def outline : Stmt → List OutlineItem
  | assign name x _ => ⟨0, name ++ utf8 " ="⟩ :: x.outline 1
  | print x _ => ⟨0, utf8 "print"⟩ :: x.outline 1
  | _ => [⟨0, utf8 "blank"⟩]

end Stmt

namespace Forest

/-- Is there no tree? -/
def isNil : Forest → Bool
  | nil => true
  | node _ _ _ => false

/-- Puts a node at a level in front of forests that wait for a parent, one
forest per level from zero on. The forest one level deeper becomes the node's
children, the forest of its own level stands beside it, and nothing deeper
waits any longer. -/
def attach (label : Bytes) : (level : Nat) → (waiting : List Forest) → List Forest
  | 0, waiting => [node label (waiting.getD 1 nil) (waiting.headD nil)]
  | n + 1, waiting => waiting.headD nil :: attach label n waiting.tail

/-- The forest of an outline: every item stands under the last item one
level higher. -/
def ofOutline (items : List OutlineItem) : Forest :=
  (items.foldr (fun item => attach item.label item.level) []).headD nil

/-- The forest drawn line by line in front of `rest`, each line behind
`margin`. The last of several siblings gets a corner, the others a junction. -/
def drawOnto (margin : Bytes) : Forest → (rest : Bytes) → Bytes
  | nil, rest => rest
  | node label children siblings, rest =>
    margin ++ utf8 (if siblings.isNil then "└" else "├") ++ utf8 "─" ++
      utf8 (if children.isNil then "─" else "┬") ++ label ++ utf8 "\n" ++
      children.drawOnto (margin ++ utf8 (if siblings.isNil then "  " else "│ "))
        (siblings.drawOnto margin rest)

end Forest

/-- The drawing of an outline, with an empty line behind it. -/
def drawingOf (items : List OutlineItem) : Bytes :=
  (Forest.ofOutline items).drawOnto [] (utf8 "\n")

namespace Stmt

/-- The outline of a statement in which nothing is missing. Where the
statement itself is missing, it is that of a blank one. -/
def outline? (s : Stmt) : Except Fault (List OutlineItem) :=
  if s = missing || s.isComplete then .ok s.outline else .error .missingPart

end Stmt

end LineCalculator
