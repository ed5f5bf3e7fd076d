import LineCalculator.Proofs.Framing
import LineCalculator.Proofs.Outlines
import LineCalculator.Session.Display

/-!
# Drawings tell the statement

A session shows the structure of a statement as a drawing with a label on each
line. Two statements that were read from lines and look the same in a drawing
are the same, up to the line that they remember. A drawing is taken apart in
three steps.

* **Markup.** Before a drawing is shown, it is gone through for markup. The
  labels of a statement that was read are made of letters, digits and a few
  signs; there is no angle bracket and no escape byte in them, nor in the lines
  that are drawn. What is shown is the drawing of the tree itself
  (`Stmt.Spellable.structureOf_outline`).
* **Lines.** A line tells by its corner whether another tree follows beside it,
  by its bar whether there is something below, and by its end where the label
  ends. So the first drawing in a text determines the forest and where the rest
  begins, which is what the induction needs (`Forest.eq_of_drawOnto_eq`).
* **Labels.** A label and whether there is something below it tell which part it
  stands for: an integer begins with a digit or a sign, a name with a letter,
  and only the label of an assignment has an equals sign in it
  (`Expr.Spellable.eq_of_treeBeside_eq`, `Stmt.Spellable.eq_of_tree_eq`).

## Main results

* `outline_faithful` — an outline has the levels of a tree and grows into the
  tree of the statement, and what is shown of a statement determines it.
-/

namespace LineCalculator

/-! ## Labels -/

/-- The labels of a forest from top to bottom, parents before children. -/
def Forest.labels : Forest → List Bytes
  | nil => []
  | node label children siblings => label :: (children.labels ++ siblings.labels)

theorem Forest.map_label_outline (f : Forest) (level : Nat) :
    (f.outline level).map OutlineItem.label = f.labels := by
  induction f generalizing level with
  | nil => rfl
  | node label children siblings ihc ihs =>
      rw [outline, List.map_cons, List.map_append, ihc, ihs, labels]

/-- The labels in the tree of an expression are made like its text. -/
theorem Expr.Spellable.mem_labels {x : Expr} (h : x.Spellable) {siblings : Forest}
    {label : Bytes} (hlabel : label ∈ (x.treeBeside siblings).labels) :
    (∀ b ∈ label, isTextByte b = true) ∨ label ∈ siblings.labels := by
  induction h generalizing siblings with
  | lit n =>
      rcases List.mem_cons.mp hlabel with rfl | hlabel
      · exact .inl (Spellable.lit n).mem_text
      · exact .inr hlabel
  | var hname =>
      rcases List.mem_cons.mp hlabel with rfl | hlabel
      · exact .inl (Spellable.var hname).mem_text
      · exact .inr hlabel
  | @bin op l r hop hl hr ihl ihr =>
      simp only [treeBeside, Forest.labels, List.mem_cons, List.mem_append] at hlabel
      rcases hlabel with rfl | hlabel | hlabel
      · refine .inl fun b hb => (Spellable.bin hop hl hr).mem_text b ?_
        simp [text_bin, hb]
      · -- The left operand has the right one beside it, which has nothing beside it.
        rcases ihl hlabel with hbytes | hlabel
        · exact .inl hbytes
        · exact .inl ((ihr hlabel).resolve_right List.not_mem_nil)
      · exact .inr hlabel
  | paren _ ih =>
      simp only [treeBeside, Forest.labels, List.mem_cons, List.mem_append] at hlabel
      rcases hlabel with rfl | hlabel | hlabel
      · exact .inl (List.all_eq_true.mp (by decide))
      · exact .inl ((ih hlabel).resolve_right List.not_mem_nil)
      · exact .inr hlabel

/-- The bytes in the labels of a statement: those of written expressions, and the
equals sign. -/
def isLabelByte (b : UInt8) : Bool := Expr.isTextByte b || b == 61

theorem Stmt.Spellable.isLabelByte_of_mem_labels {s : Stmt} (h : s.Spellable) :
    ∀ label ∈ s.tree.labels, ∀ b ∈ label, isLabelByte b = true := by
  have hfixed {t : Bytes} (ht : t.all isLabelByte = true) : ∀ b ∈ t, isLabelByte b = true :=
    List.all_eq_true.mp ht
  have hbelow {x : Expr} (hx : x.Spellable) {label : Bytes}
      (hlabel : label ∈ (x.treeBeside .nil).labels ++ Forest.nil.labels) :
      ∀ b ∈ label, isLabelByte b = true := by
    intro b hb
    rw [Forest.labels, List.append_nil] at hlabel
    rw [isLabelByte, (hx.mem_labels hlabel).resolve_right List.not_mem_nil b hb]
    rfl
  intro label hlabel
  cases h with
  | @assign name x line hname hx =>
      rcases List.mem_cons.mp hlabel with rfl | hlabel
      · intro b hb
        rcases List.mem_append.mp hb with hb | hb
        · rw [← Expr.text_var name] at hb
          rw [isLabelByte, (Expr.Spellable.var hname).mem_text b hb]
          rfl
        · exact hfixed (by decide) b hb
      · exact hbelow hx hlabel
  | print hx =>
      rcases List.mem_cons.mp hlabel with rfl | hlabel
      · exact hfixed (by decide)
      · exact hbelow hx hlabel
  | blank _ =>
      rw [List.mem_singleton.mp hlabel]
      exact hfixed (by decide)

/-- No other byte occurs in them. -/
theorem Stmt.Spellable.notMem_labels {s : Stmt} (h : s.Spellable) {b : UInt8}
    (hb : isLabelByte b = false) : ∀ label ∈ s.tree.labels, b ∉ label := by
  intro label hlabel hmem
  rw [h.isLabelByte_of_mem_labels label hlabel b hmem] at hb
  cases hb

/-! ## Markup -/

/-- A byte that occurs neither in the lines of a drawing nor in the labels does not
occur in the drawing. -/
theorem Forest.notMem_drawOnto {b : UInt8} (hlines : b ∉ utf8 "└├─┬│ \n") {f : Forest}
    (hf : ∀ label ∈ f.labels, b ∉ label) {margin rest : Bytes} (hmargin : b ∉ margin)
    (hrest : b ∉ rest) : b ∉ f.drawOnto margin rest := by
  have hline {t : String} (ht : utf8 t ⊆ utf8 "└├─┬│ \n") : b ∉ utf8 t := fun hb => hlines (ht hb)
  have heither (c : Bool) {t u : String} (ht : utf8 t ⊆ utf8 "└├─┬│ \n")
      (hu : utf8 u ⊆ utf8 "└├─┬│ \n") : b ∉ utf8 (if c then t else u) := by
    cases c with
    | true => exact hline ht
    | false => exact hline hu
  induction f generalizing margin rest with
  | nil => exact hrest
  | node label children siblings ihc ihs =>
      simp only [labels, List.mem_cons, List.mem_append] at hf
      have hsiblings : b ∉ siblings.drawOnto margin rest :=
        ihs (fun l hl => hf l (.inr (.inr hl))) hmargin hrest
      have hdeeper : b ∉ margin ++ utf8 (if siblings.isNil then "  " else "│ ") := by
        rw [List.mem_append, not_or]
        exact ⟨hmargin, heither _ (by decide) (by decide)⟩
      simp only [drawOnto, List.mem_append, not_or]
      exact ⟨⟨⟨⟨⟨⟨hmargin, heither _ (by decide) (by decide)⟩, hline (by decide)⟩,
        heither _ (by decide) (by decide)⟩, hf label (.inl rfl)⟩, hline (by decide)⟩,
        ihc (fun l hl => hf l (.inr (.inl hl))) hdeeper hsiblings⟩

/-- What is shown of a statement is the drawing of its tree. -/
theorem Stmt.Spellable.structureOf_outline {s : Stmt} (h : s.Spellable) :
    Display.structureOf s.outline = s.tree.drawOnto [] (utf8 "\n") := by
  have hbracket := h.notMem_labels (b := 60) (by decide)
  have hescape := h.notMem_labels (b := 27) (by decide)
  have hplain : s.outline.map Display.plainItem = s.outline := by
    refine (List.map_congr_left fun item hitem => ?_).trans (List.map_id _)
    have hlabel : item.label ∈ s.tree.labels := by
      rw [← s.tree.map_label_outline 0, ← s.outline_eq]
      exact List.mem_map_of_mem hitem
    rw [Display.plainItem, Colouring.clean, Markup.dropTags_of_notMem (hbracket _ hlabel),
      Markup.dropCodes_of_notMem (hescape _ hlabel)]
    rfl
  rw [Display.structureOf, hplain, drawingOf, s.outline_eq, Forest.ofOutline_outline,
    Colouring.passes_of_notMem _ _
      (Forest.notMem_drawOnto (by decide) hbracket List.not_mem_nil (by decide)),
    Markup.dropCodes_of_notMem
      (Forest.notMem_drawOnto (by decide) hescape List.not_mem_nil (by decide))]

/-! ## Lines -/

/-- Of two different strings of the same length, the one that a text begins with is
seen, and so is what stands behind it. -/
theorem utf8_ite_append_inj {t u : String} (hlength : (utf8 t).length = (utf8 u).length)
    (hne : utf8 t ≠ utf8 u) {c d : Bool} {v w : Bytes}
    (h : utf8 (if c then t else u) ++ v = utf8 (if d then t else u) ++ w) : c = d ∧ v = w := by
  have hsame : (utf8 (if c then t else u)).length = (utf8 (if d then t else u)).length := by
    cases c <;> cases d <;> simp [hlength]
  obtain ⟨hstart, hrest⟩ := List.append_inj h hsame
  refine ⟨?_, hrest⟩
  cases c <;> cases d <;> first | rfl | exact absurd hstart hne | exact absurd hstart.symm hne

/-- A label ends where its line does. -/
theorem eq_of_append_newline_eq {label label' t t' : Bytes} (hlabel : Byte.newline ∉ label)
    (hlabel' : Byte.newline ∉ label')
    (h : label ++ (utf8 "\n" ++ t) = label' ++ (utf8 "\n" ++ t')) : label = label' ∧ t = t' := by
  have hcut {l : Bytes} (hl : Byte.newline ∉ l) (w : Bytes) :
      (l ++ (utf8 "\n" ++ w)).takeWhile (· != Byte.newline) = l := by
    have hother : ∀ b ∈ l, (b != Byte.newline) = true := by
      intro b hb
      exact bne_iff_ne.mpr (ne_of_mem_of_not_mem hb hl)
    rw [List.takeWhile_append_of_pos hother]
    exact List.append_nil l
  have hsame : label = label' := by rw [← hcut hlabel t, h, hcut hlabel' t']
  subst hsame
  exact ⟨rfl, List.append_cancel_left (List.append_cancel_left h)⟩

/-- The first drawing in a text determines the forest, and where it ends. -/
theorem Forest.eq_of_drawOnto_eq {f g : Forest} (hf : ∀ label ∈ f.labels, Byte.newline ∉ label)
    (hg : ∀ label ∈ g.labels, Byte.newline ∉ label) (hnil : f.isNil = g.isNil)
    {margin rest rest' : Bytes} (h : f.drawOnto margin rest = g.drawOnto margin rest') :
    f = g ∧ rest = rest' := by
  induction f generalizing g margin rest rest' with
  | nil =>
      cases g with
      | nil => exact ⟨rfl, h⟩
      | node label children siblings => cases hnil
  | node label children siblings ihc ihs =>
      cases g with
      | nil => cases hnil
      | node label' children' siblings' =>
          simp only [labels, List.mem_cons, List.mem_append] at hf hg
          simp only [drawOnto, List.append_assoc] at h
          obtain ⟨hsiblings, hbar⟩ := utf8_ite_append_inj (by decide) (by decide)
            (List.append_cancel_left h)
          obtain ⟨hchildren, hlabel⟩ := utf8_ite_append_inj (by decide) (by decide)
            (List.append_cancel_left hbar)
          obtain ⟨hsame, hbelow⟩ := eq_of_append_newline_eq (hf label (.inl rfl))
            (hg label' (.inl rfl)) hlabel
          rw [hsiblings] at hbelow
          obtain ⟨rfl, hbeside⟩ := ihc (fun l hl => hf l (.inr (.inl hl)))
            (fun l hl => hg l (.inr (.inl hl))) hchildren hbelow
          obtain ⟨rfl, hrest⟩ := ihs (fun l hl => hf l (.inr (.inr hl)))
            (fun l hl => hg l (.inr (.inr hl))) hsiblings hbeside
          rw [hsame]
          exact ⟨rfl, hrest⟩

/-! ## Parts -/

theorem Decimal.ofInt64_inj {m n : Int64} (h : ofInt64 m = ofInt64 n) : m = n := by
  have hread : int64? (ofInt64 m) = some n := by rw [h, int64?_ofInt64]
  rw [int64?_ofInt64] at hread
  exact Option.some.inj hread

theorem IsIdentifier.ne_ofInt64 {name : Bytes} (h : IsIdentifier name) (n : Int64) :
    name ≠ Decimal.ofInt64 n := by
  obtain ⟨b, more, rfl, hb, -⟩ := h
  rw [Decimal.ofInt64]
  intro heq
  cases hn : n.toInt with
  | ofNat k =>
      rw [hn, Decimal.ofInt] at heq
      have hdigit := Decimal.isDigit_of_mem_ofNat k b (by simp [← heq])
      rw [(Byte.classes_of_isLetter hb).1] at hdigit
      cases hdigit
  | negSucc k =>
      rw [hn, Decimal.ofInt, List.cons.injEq] at heq
      rw [heq.1] at hb
      exact absurd hb (by decide)

theorem Operator.symbol_inj {op op' : Operator} (hop : op.isKnown = true)
    (hop' : op'.isKnown = true) (h : op.symbol = op'.symbol) : op = op' := by
  cases op with
  | unknown code => cases hop
  | add | sub | mul | div =>
      cases op' with
      | unknown code => cases hop'
      | add | sub | mul | div => first | rfl | exact absurd h (by decide)

theorem Operator.symbol_ne_parentheses {op : Operator} (hop : op.isKnown = true) :
    op.symbol ≠ utf8 "( )" := by
  cases op with
  | unknown code => cases hop
  | add | sub | mul | div => decide

theorem Expr.treeBeside_ne_nil (x : Expr) (siblings : Forest) : x.treeBeside siblings ≠ .nil := by
  cases x <;> simp [treeBeside]

/-- The tree of an expression with other trees beside it determines both. -/
theorem Expr.Spellable.eq_of_treeBeside_eq {x y : Expr} (hx : x.Spellable) (hy : y.Spellable)
    {siblings siblings' : Forest} (h : x.treeBeside siblings = y.treeBeside siblings') :
    x = y ∧ siblings = siblings' := by
  induction hx generalizing y siblings siblings' with
  | lit n =>
      cases hy with
      | lit m =>
          simp only [treeBeside, Forest.node.injEq, text_lit] at h
          exact ⟨congrArg Expr.lit (Decimal.ofInt64_inj h.1), h.2.2⟩
      | var hname =>
          simp only [treeBeside, Forest.node.injEq, text_lit, text_var] at h
          exact absurd h.1.symm (hname.ne_ofInt64 n)
      | bin => exact absurd (Forest.node.inj h).2.1.symm (treeBeside_ne_nil _ _)
      | paren => exact absurd (Forest.node.inj h).2.1.symm (treeBeside_ne_nil _ _)
  | var hname =>
      cases hy with
      | lit m =>
          simp only [treeBeside, Forest.node.injEq, text_lit, text_var] at h
          exact absurd h.1 (hname.ne_ofInt64 m)
      | var =>
          simp only [treeBeside, Forest.node.injEq, text_var] at h
          exact ⟨congrArg Expr.var h.1, h.2.2⟩
      | bin => exact absurd (Forest.node.inj h).2.1.symm (treeBeside_ne_nil _ _)
      | paren => exact absurd (Forest.node.inj h).2.1.symm (treeBeside_ne_nil _ _)
  | @bin op l r hop _ _ ihl ihr =>
      cases hy with
      | lit m => exact absurd (Forest.node.inj h).2.1 (treeBeside_ne_nil _ _)
      | var => exact absurd (Forest.node.inj h).2.1 (treeBeside_ne_nil _ _)
      | bin hop' hl' hr' =>
          obtain ⟨hsymbol, hoperands, hsiblings⟩ := Forest.node.inj h
          obtain ⟨rfl, hright⟩ := ihl hl' hoperands
          obtain ⟨rfl, -⟩ := ihr hr' hright
          rw [Operator.symbol_inj hop hop' hsymbol]
          exact ⟨rfl, hsiblings⟩
      | paren => exact absurd (Forest.node.inj h).1 (Operator.symbol_ne_parentheses hop)
  | paren _ ih =>
      cases hy with
      | lit m => exact absurd (Forest.node.inj h).2.1 (treeBeside_ne_nil _ _)
      | var => exact absurd (Forest.node.inj h).2.1 (treeBeside_ne_nil _ _)
      | bin hop' => exact absurd (Forest.node.inj h).1.symm (Operator.symbol_ne_parentheses hop')
      | paren hy =>
          obtain ⟨-, hinner, hsiblings⟩ := Forest.node.inj h
          obtain ⟨rfl, -⟩ := ih hy hinner
          exact ⟨rfl, hsiblings⟩

/-- The tree of a statement determines it up to its line. -/
theorem Stmt.Spellable.eq_of_tree_eq {s t : Stmt} (hs : s.Spellable) (ht : t.Spellable)
    (h : s.tree = t.tree) : s.onLine 0 = t.onLine 0 := by
  -- A label with an equals sign is not one of those without.
  have hequals {name label : Bytes} (hlabel : 61 ∉ label) : name ++ utf8 " =" ≠ label := by
    rintro rfl
    exact hlabel (List.mem_append_right name (by decide))
  cases hs with
  | assign _ hx =>
      cases ht with
      | assign _ hy =>
          obtain ⟨hname, hvalue, -⟩ := Forest.node.inj h
          obtain ⟨rfl, -⟩ := hx.eq_of_treeBeside_eq hy hvalue
          rw [List.append_cancel_right hname]
          rfl
      | print => exact absurd (Forest.node.inj h).1 (hequals (by decide))
      | blank => exact absurd (Forest.node.inj h).1 (hequals (by decide))
  | print hx =>
      cases ht with
      | assign => exact absurd (Forest.node.inj h).1.symm (hequals (by decide))
      | print hy =>
          obtain ⟨rfl, -⟩ := hx.eq_of_treeBeside_eq hy (Forest.node.inj h).2.1
          rfl
      | blank => exact absurd (Forest.node.inj h).1 (by decide)
  | blank =>
      cases ht with
      | assign => exact absurd (Forest.node.inj h).1.symm (hequals (by decide))
      | print => exact absurd (Forest.node.inj h).1 (by decide)
      | blank => rfl

/-! ## Faithful displays -/

theorem Stmt.isNil_tree (s : Stmt) : s.tree.isNil = false := by
  cases s <;> rfl

theorem Stmt.outline_onLine (s : Stmt) (line : Int) : (s.onLine line).outline = s.outline := by
  cases s <;> rfl

theorem Stmt.outline?_eq_ok {s : Stmt} (h : ∀ x, s.expr? = some x → x.isComplete = true) :
    s.outline? = .ok s.outline := by
  cases s with
  | assign name x line => simp [outline?, isComplete, h x rfl]
  | print x line => simp [outline?, isComplete, h x rfl]
  | blank line => rfl
  | missing => rfl

/-- **The display of structure is faithful.** A statement that has all its expressions
has an outline with the levels of a tree. When each item is hung under the last one that
stands one level higher, the outline grows into the tree of the statement, and so it does
when it is read for drawing. Two statements that were read from lines are shown alike if
and only if they are the same up to their lines. -/
theorem outline_faithful :
    (∀ s : Stmt, (∀ x, s.expr? = some x → x.isComplete = true) →
      ∃ items, s.outline? = .ok items ∧ WellLevelled items ∧
        Forest.grown items = s.tree ∧ Forest.ofOutline items = s.tree) ∧
    ∀ (text text' : Bytes) (line line' : Int) (s t : Stmt),
      parseLine text line = .ok s → parseLine text' line' = .ok t →
        (Display.structureOf s.outline = Display.structureOf t.outline ↔
          s.onLine 0 = t.onLine 0) := by
  refine ⟨fun s hs => ?_, fun text text' line line' s t hs ht => ?_⟩
  · refine ⟨s.outline, s.outline?_eq_ok hs, s.wellLevelled_outline, ?_, ?_⟩
    · rw [s.outline_eq, Forest.grown_outline]
    · rw [s.outline_eq, Forest.ofOutline_outline]
  · have hs := (readsBack_of_parseLine hs).spellable
    have ht := (readsBack_of_parseLine ht).spellable
    constructor
    · intro hshown
      rw [hs.structureOf_outline, ht.structureOf_outline] at hshown
      refine hs.eq_of_tree_eq ht (Forest.eq_of_drawOnto_eq ?_ ?_ ?_ hshown).1
      · exact hs.notMem_labels (by decide)
      · exact ht.notMem_labels (by decide)
      · rw [s.isNil_tree, t.isNil_tree]
    · intro hsame
      rw [← s.outline_onLine 0, hsame, t.outline_onLine 0]

/-- Two statements that differ in their parentheses only are drawn differently. -/
theorem outline_faithful_grouping :
    let sum : Expr := .bin .add (.lit 1) (.var (utf8 "x"))
    let s : Stmt := .assign (utf8 "y") (.bin .mul (.paren sum) (.lit 2)) 3
    let t : Stmt := .assign (utf8 "y") (.bin .add (.lit 1) (.bin .mul (.var (utf8 "x")) (.lit 2))) 3
    (∀ x, s.expr? = some x → x.isComplete = true) ∧
      parseLine (utf8 "y = (1 + x) * 2") 3 = .ok s ∧ parseLine (utf8 "y = 1 + x * 2") 3 = .ok t ∧
      (∃ items, s.outline? = .ok items ∧ WellLevelled items ∧
        Forest.grown items = s.tree ∧ Forest.ofOutline items = s.tree) ∧
      Display.structureOf s.outline ≠ Display.structureOf t.outline := by
  intro sum s t
  have hcomplete : ∀ x, s.expr? = some x → x.isComplete = true := by
    rintro _ ⟨⟩
    rfl
  have hs : parseLine (utf8 "y = (1 + x) * 2") 3 = .ok s := by decide +kernel
  have ht : parseLine (utf8 "y = 1 + x * 2") 3 = .ok t := by decide +kernel
  refine ⟨hcomplete, hs, ht, outline_faithful.1 s hcomplete, fun hshown => ?_⟩
  have hsame := (outline_faithful.2 _ _ 3 3 s t hs ht).mp hshown
  exact absurd hsame (by decide)

end LineCalculator
