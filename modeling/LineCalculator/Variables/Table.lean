import LineCalculator.Text.Decimal

/-!
# Tables of variables

A table binds names to 64-bit integers. Names are any texts, the empty one
included. The bindings are kept in rising bytewise order of their names,
each name at most once; the order is part of the type, so listing the
entries lists the variables sorted.

The view of a table is `get?`: what a name is bound to. A name that is not
bound reads as zero, and reading binds nothing.

## Main results

* `get?_set` — `set` is a pointwise update of the view.
-/

namespace LineCalculator

/-- A name with its value. -/
abbrev Binding := Bytes × Int64

namespace Binding

variable {α : Type}

/-- Binds a name in a list of bindings, keeping the order of names. -/
def insert (name : Bytes) (value : α) : List (Bytes × α) → List (Bytes × α)
  | [] => [(name, value)]
  | (other, old) :: rest =>
    if name < other then (name, value) :: (other, old) :: rest
    else if name = other then (name, value) :: rest
    else (other, old) :: insert name value rest

theorem eq_or_mem_of_mem_insert {name : Bytes} {value : α} {bs : List (Bytes × α)} {b : Bytes × α}
    (h : b ∈ insert name value bs) : b.1 = name ∨ b ∈ bs := by
  induction bs with
  | nil =>
      left
      rw [List.mem_singleton.mp h]
  | cons first rest ih =>
      obtain ⟨other, old⟩ := first
      rw [insert] at h
      split at h
      · rcases List.mem_cons.mp h with rfl | h
        · exact Or.inl rfl
        · exact Or.inr h
      · split at h
        · rcases List.mem_cons.mp h with rfl | h
          · exact Or.inl rfl
          · exact Or.inr (List.mem_cons_of_mem _ h)
        · rcases List.mem_cons.mp h with rfl | h
          · exact Or.inr List.mem_cons_self
          · exact (ih h).imp_right (List.mem_cons_of_mem _)

theorem pairwise_insert (name : Bytes) (value : α) {bs : List (Bytes × α)}
    (h : bs.Pairwise fun a b => a.1 < b.1) :
    (insert name value bs).Pairwise fun a b => a.1 < b.1 := by
  induction bs with
  | nil => exact List.pairwise_singleton _ _
  | cons first rest ih =>
      obtain ⟨other, old⟩ := first
      obtain ⟨hfirst, hrest⟩ := List.pairwise_cons.mp h
      rw [insert]
      split
      · next hlt =>
        refine List.pairwise_cons.mpr ⟨fun b hb => ?_, h⟩
        rcases List.mem_cons.mp hb with rfl | hb
        · exact hlt
        · exact List.lt_trans hlt (hfirst b hb)
      · next hnlt =>
        split
        · next heq =>
          subst heq
          exact List.pairwise_cons.mpr ⟨hfirst, hrest⟩
        · next hne =>
          refine List.pairwise_cons.mpr ⟨fun b hb => ?_, ih hrest⟩
          rcases eq_or_mem_of_mem_insert hb with hname | hb
          · rcases Std.lt_trichotomy name other with hlt | heq | hgt
            · exact absurd hlt hnlt
            · exact absurd heq hne
            · rw [hname]; exact hgt
          · exact hfirst b hb

theorem lookup_cons_eq (name : Bytes) (value : α) (bs : List (Bytes × α)) (x : Bytes) :
    ((name, value) :: bs).lookup x = if x = name then some value else bs.lookup x := by
  rw [List.lookup_cons]
  by_cases hx : x = name
  · simp [hx]
  · simp [beq_eq_false_iff_ne.mpr hx, hx]

theorem lookup_insert (name : Bytes) (value : α) (bs : List (Bytes × α)) (x : Bytes) :
    (insert name value bs).lookup x = if x = name then some value else bs.lookup x := by
  induction bs with
  | nil => rw [insert, lookup_cons_eq]
  | cons first rest ih =>
      obtain ⟨other, old⟩ := first
      rw [insert]
      split
      · rw [lookup_cons_eq]
      · split
        · next heq =>
          subst heq
          rw [lookup_cons_eq, lookup_cons_eq]
          by_cases hx : x = name <;> simp [hx]
        · next hne =>
          rw [lookup_cons_eq, lookup_cons_eq, ih]
          by_cases hx : x = other
          · subst hx
            simp [Ne.symm hne]
          · simp [hx]

end Binding

/-- Variables with their values, in rising order of names. -/
structure Table where
  /-- The bindings. -/
  entries : List Binding
  /-- They are in order, and no name is bound twice. -/
  sorted : entries.Pairwise fun a b => a.1 < b.1

namespace Table

/-- No name is bound. -/
def empty : Table := ⟨[], List.Pairwise.nil⟩

/-- What a name is bound to. -/
def get? (t : Table) (name : Bytes) : Option Int64 := t.entries.lookup name

/-- Is the name bound? -/
def isBound (t : Table) (name : Bytes) : Bool := (t.get? name).isSome

/-- The value of a name, zero if it is not bound. -/
def value (t : Table) (name : Bytes) : Int64 := (t.get? name).getD 0

/-- Binds a name, whatever it was bound to before. -/
def set (t : Table) (name : Bytes) (value : Int64) : Table :=
  ⟨Binding.insert name value t.entries, Binding.pairwise_insert name value t.sorted⟩

/-- The number of bound names. -/
def size (t : Table) : Nat := t.entries.length

/-- The table of these bindings, later ones winning. -/
def ofBindings (bs : List Binding) : Table := bs.foldl (fun t b => t.set b.1 b.2) empty

/-- `set` changes what its own name is bound to, and nothing else. -/
theorem get?_set (t : Table) (name : Bytes) (value : Int64) (x : Bytes) :
    (t.set name value).get? x = if x = name then some value else t.get? x :=
  Binding.lookup_insert name value t.entries x

end Table

end LineCalculator
