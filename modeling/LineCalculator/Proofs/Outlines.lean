import LineCalculator.Program.Outline
import Mathlib.Data.List.Chain

/-!
# Outlines tell the tree

The outline of a statement is a list of labels with levels. The tree that is
meant is the statement's own: a node for each part, with the operands of a part
below it from left to right (`Stmt.tree`). This module shows that the levels say
just that.

An outline is the tree listed from top to bottom, parents before children
(`Stmt.outline_eq`). From there on everything is about forests of any shape.

* The **levels** grow by one at most from one item to the next, and below the top
  of a tree they stay at one or more (`Forest.isChain_outline`).
* Reading the list from left to right, each item is hung under the last item one
  level higher (`Forest.grown`). The items of a forest, hung one after the other,
  are the forest hung as a whole (`Forest.foldl_hang_outline`).
* Reading the list from right to left, as drawing does, the forests that still
  wait for a parent are kept level by level (`Forest.ofOutline`). Before an item
  of level `n` nothing waits below level `n + 1`, and what waits there is what
  stands below the item (`Forest.getD_foldr_attach`).

## Main results

* `Stmt.wellLevelled_outline` — the levels of an outline.
* `Forest.grown_outline`, `Forest.ofOutline_outline` — both readings give the
  forest back.
-/

namespace LineCalculator

/-! ## Trees of statements -/

/-- The tree of an expression with other trees beside it: a node for each part, and
what it is made of below it, from left to right. -/
def Expr.treeBeside (siblings : Forest) : Expr → Forest
  | bin op l r => .node op.symbol (l.treeBeside (r.treeBeside .nil)) siblings
  | paren x => .node (utf8 "( )") (x.treeBeside .nil) siblings
  | x => .node x.text .nil siblings

/-- The tree of a statement. -/
def Stmt.tree : Stmt → Forest
  | assign name x _ => .node (name ++ utf8 " =") (x.treeBeside .nil) .nil
  | print x _ => .node (utf8 "print") (x.treeBeside .nil) .nil
  | _ => .node (utf8 "blank") .nil .nil

namespace Forest

/-- The nodes of a forest from top to bottom, parents before children, with the trees
at this level. -/
def outline (level : Nat) : Forest → List OutlineItem
  | nil => []
  | node label children siblings =>
    ⟨level, label⟩ :: (children.outline (level + 1) ++ siblings.outline level)

end Forest

theorem Expr.outline_treeBeside (level : Nat) (x : Expr) (siblings : Forest) :
    (x.treeBeside siblings).outline level = x.outlineOnto level (siblings.outline level) := by
  induction x generalizing level siblings with
  | lit n => rfl
  | var name => rfl
  | bin op l r ihl ihr =>
      rw [treeBeside, Forest.outline, ihl, ihr, outlineOnto, ← outlineOnto_append,
        ← outlineOnto_append]
      rfl
  | paren x ih =>
      rw [treeBeside, Forest.outline, ih, outlineOnto, ← outlineOnto_append]
      rfl
  | missing => rfl

/-- The outline of a statement lists its tree. -/
theorem Stmt.outline_eq (s : Stmt) : s.outline = s.tree.outline 0 := by
  have hbelow (x : Expr) :
      x.outline 1 = (x.treeBeside .nil).outline 1 ++ Forest.nil.outline 0 := by
    rw [Expr.outline_treeBeside]
    exact (List.append_nil _).symm
  cases s with
  | assign name x line => exact congrArg (⟨0, name ++ utf8 " ="⟩ :: ·) (hbelow x)
  | print x line => exact congrArg (⟨0, utf8 "print"⟩ :: ·) (hbelow x)
  | blank line => rfl
  | missing => rfl

/-! ## Levels -/

/-- The first item stands at level zero, and every later one at level one or below it,
at most one level deeper than the item before. -/
structure WellLevelled (items : List OutlineItem) : Prop where
  first : items.head?.map OutlineItem.level = some 0
  later : items.IsChain fun a b => 1 ≤ b.level ∧ b.level ≤ a.level + 1

/-- The levels of a forest that stands behind an item, in front of more that can stand
behind anything as deep as the forest. -/
theorem Forest.isChain_outline {level : Nat} (hlevel : 1 ≤ level) (f : Forest)
    {item : OutlineItem} (hitem : level ≤ item.level + 1) {rest : List OutlineItem}
    (hrest : ∀ last : OutlineItem, level ≤ last.level + 1 →
      (last :: rest).IsChain fun a b => 1 ≤ b.level ∧ b.level ≤ a.level + 1) :
    (item :: (f.outline level ++ rest)).IsChain
      fun a b => 1 ≤ b.level ∧ b.level ≤ a.level + 1 := by
  induction f generalizing level item rest with
  | nil => exact hrest item hitem
  | node label children siblings ihc ihs =>
      rw [outline, List.cons_append, List.append_assoc, List.isChain_cons_cons]
      have hdeeper : 1 ≤ level + 1 := by omega
      refine ⟨⟨hlevel, hitem⟩, ihc hdeeper (Nat.le_refl _) ?_⟩
      intro last hlast
      exact ihs hlevel (by omega) hrest

theorem Forest.wellLevelled_outline (label : Bytes) (children : Forest) :
    WellLevelled ((node label children nil).outline 0) :=
  ⟨rfl, children.isChain_outline (Nat.le_refl 1) (Nat.le_refl 1) fun _ _ => .singleton _⟩

/-- **The levels of an outline** are those of a tree. -/
theorem Stmt.wellLevelled_outline (s : Stmt) : WellLevelled s.outline := by
  rw [s.outline_eq]
  cases s with
  | assign name x line => exact Forest.wellLevelled_outline _ _
  | print x line => exact Forest.wellLevelled_outline _ _
  | blank line => exact Forest.wellLevelled_outline _ _
  | missing => exact Forest.wellLevelled_outline _ _

/-! ## Reading an outline from left to right -/

namespace Forest

/-- The trees of one forest and behind them those of another. -/
def beside : Forest → Forest → Forest
  | nil, g => g
  | node label children siblings, g => node label children (siblings.beside g)

theorem beside_nil (f : Forest) : f.beside nil = f := by
  induction f with
  | nil => rfl
  | node label children siblings _ ih => rw [beside, ih]

theorem beside_assoc (f g h : Forest) : (f.beside g).beside h = f.beside (g.beside h) := by
  induction f with
  | nil => rfl
  | node label children siblings _ ih => rw [beside, beside, beside, ih]

/-- Hangs a forest into another at a depth. At depth zero it goes behind the trees that
are there; deeper, it goes below the last of them, one level less deep there. The nodes
on that way are the most recent ones of their levels. Where no tree is, nothing can
hang below it. -/
def hang (f : Forest) : (depth : Nat) → (onto : Forest) → Forest
  | 0, onto => onto.beside f
  | _ + 1, nil => nil
  | n + 1, node label children siblings =>
    if siblings.isNil then node label (f.hang n children) siblings
    else node label children (f.hang (n + 1) siblings)

/-- The forest that grows when each item is hung, as a tree of its own, under the last
item one level higher. -/
def grown (items : List OutlineItem) : Forest :=
  items.foldl (fun onto item => (node item.label nil nil).hang item.level onto) nil

theorem isNil_hang (f : Forest) (n : Nat) (onto : Forest) :
    (f.hang (n + 1) onto).isNil = onto.isNil := by
  cases onto with
  | nil => rfl
  | node label children siblings =>
      rw [hang]
      split <;> rfl

theorem nil_hang (n : Nat) (onto : Forest) : nil.hang n onto = onto := by
  induction onto generalizing n with
  | nil => cases n <;> rfl
  | node label children siblings ihc ihs =>
      cases n with
      | zero => exact beside_nil _
      | succ n =>
          rw [hang, ihc, ihs]
          split <;> rfl

/-- What hangs at a depth can be followed by more at that depth. -/
theorem hang_hang (f g : Forest) (n : Nat) (onto : Forest) :
    g.hang n (f.hang n onto) = (f.beside g).hang n onto := by
  induction onto generalizing n with
  | nil => cases n <;> simp only [hang, beside]
  | node label children siblings ihc ihs =>
      cases n with
      | zero => exact beside_assoc _ f g
      | succ n =>
          rw [hang, hang]
          split
          · next hlast => rw [hang, if_pos hlast, ihc]
          · next hmore => rw [hang, isNil_hang, if_neg hmore, ihs]

/-- What hangs one level below a tree that was hung last belongs to that tree. -/
theorem hang_succ_hang (f : Forest) (label : Bytes) (n : Nat) (onto : Forest) :
    f.hang (n + 1) ((node label nil nil).hang n onto) = (node label f nil).hang n onto := by
  induction onto generalizing n with
  | nil => cases n <;> simp [hang, beside, isNil]
  | node top children siblings ihc ihs =>
      cases n with
      | zero =>
          have hmore : ¬(siblings.beside (node label nil nil)).isNil = true := by
            cases siblings <;> simp [beside, isNil]
          have hdeeper := ihs 0
          simp only [hang] at hdeeper
          rw [hang, hang, beside, beside, hang, if_neg hmore, hdeeper]
      | succ n =>
          rw [hang, hang]
          split
          · next hlast => rw [hang, if_pos hlast, ihc]
          · next hmore => rw [hang, isNil_hang, if_neg hmore, ihs]

/-- Hanging the items of a forest one after the other is hanging the forest. -/
theorem foldl_hang_outline (f : Forest) (n : Nat) (onto : Forest) :
    (f.outline n).foldl (fun g item => (node item.label nil nil).hang item.level g) onto =
      f.hang n onto := by
  induction f generalizing n onto with
  | nil => exact (nil_hang n onto).symm
  | node label children siblings ihc ihs =>
      rw [outline, List.foldl_cons, List.foldl_append, ihc, ihs, hang_succ_hang, hang_hang]
      rfl

/-- **Reading from left to right** gives the forest back. -/
theorem grown_outline (f : Forest) : grown (f.outline 0) = f :=
  foldl_hang_outline f 0 nil

/-! ## Reading an outline from right to left -/

/-- A node takes what waits one level deeper and what waits on its own level; nothing
waits below it any more, and above it nothing changes. -/
theorem getD_attach (label : Bytes) (level : Nat) (waiting : List Forest) (i : Nat) :
    (attach label level waiting).getD i nil =
      if i < level then waiting.getD i nil
      else if i = level then node label (waiting.getD (level + 1) nil) (waiting.getD level nil)
      else nil := by
  induction level generalizing waiting i with
  | zero =>
      cases waiting <;> cases i <;> simp [attach]
  | succ n ih =>
      cases i with
      | zero => cases waiting <;> simp [attach]
      | succ i =>
          cases waiting with
          | nil => simpa [attach] using ih [] i
          | cons first rest => simpa [attach] using ih rest i

/-- A forest that is read where nothing waits deeper than its trees stands in front of
what waits beside them, and nothing else changes. -/
theorem getD_foldr_attach (f : Forest) (n : Nat) {waiting : List Forest}
    (h : ∀ i, n < i → waiting.getD i nil = nil) (i : Nat) :
    ((f.outline n).foldr (fun item => attach item.label item.level) waiting).getD i nil =
      if i = n then f.beside (waiting.getD n nil) else waiting.getD i nil := by
  induction f generalizing n waiting i with
  | nil =>
      show waiting.getD i nil = _
      split
      · next hi => rw [hi]; rfl
      · rfl
  | node label children siblings ihc ihs =>
      rw [outline, List.foldr_cons, List.foldr_append, getD_attach]
      have hsiblings := ihs n h
      have hdeeper : ∀ j, n + 1 < j → ((siblings.outline n).foldr
          (fun item => attach item.label item.level) waiting).getD j nil = nil := by
        intro j hj
        rw [hsiblings j, if_neg (by omega)]
        exact h j (by omega)
      have hchildren := ihc (n + 1) hdeeper
      dsimp only
      -- On its own level stand the siblings, one level deeper the children alone.
      rcases Nat.lt_trichotomy i n with hi | hi | hi
      · rw [if_pos hi, if_neg (by omega), hchildren, if_neg (by omega), hsiblings,
          if_neg (by omega)]
      · rw [if_neg (by omega), if_pos hi, if_pos hi, hchildren, if_pos rfl, hchildren,
          if_neg (by omega), hsiblings, hsiblings, if_pos rfl, if_neg (by omega),
          h (n + 1) (by omega), beside_nil, beside]
      · rw [if_neg (by omega), if_neg (by omega), if_neg (by omega), h i hi]

/-- **Reading from right to left** gives the forest back. -/
theorem ofOutline_outline (f : Forest) : ofOutline (f.outline 0) = f := by
  have hfirst : ∀ waiting : List Forest, waiting.headD nil = waiting.getD 0 nil := by
    intro waiting
    cases waiting <;> rfl
  rw [ofOutline, hfirst, getD_foldr_attach f 0 (fun _ _ => List.getD_nil), if_pos rfl]
  exact beside_nil f

end Forest

end LineCalculator
