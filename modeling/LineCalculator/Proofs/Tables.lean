import Mathlib.Data.Finset.Card
import Mathlib.Data.List.Forall2
import LineCalculator.Variables.Workspace

/-!
# Tables are finite maps

A workspace keeps its variables as tags in memory, and tags that were handed out
may be written to at any time. This module says what that comes to, without
speaking of memory: a workspace is a number of **finite maps** from names to
integers, one for each table, and a tag that was handed out stands for one entry
of one of them. `Maps.Step` tells, command by command, what the maps answer and how
they change, and `Maps.Run` takes steps one after the other.

What makes the two agree is that tags are not shared. A table leads from a name to
a tag of that name, and no tag is led to from two entries, be it of one table or of
two (`Represents`). So a write through a tag changes one entry, wherever the tag came
from. Writing keeps this since it changes no names, and a new tag does since it lies
behind all others (`Workspace.Keeps`). From these two come all commands, each of
them a step of the maps (`Represents.perform`), and from the steps comes every run.

The order of listings is not part of this argument. It comes from the entries of a
directory, which are kept in order (`enumerates_lookup`).

## Main results

* `Represents.perform` — a command is a step of the finite maps.
* `Maps.Step.bound_of_ne` — a step leaves all tables alone but one.
* `tables_refine_finite_maps` — any commands, from the start.
-/

namespace LineCalculator

/-! ## Finite maps and their entries -/

/-- These are the entries of a map, in rising order of names and none of them twice. -/
structure Enumerates {α : Type} (f : Bytes → Option α) (entries : List (Bytes × α)) : Prop where
  rising : entries.Pairwise fun a b => a.1 < b.1
  mem_iff : ∀ x a, (x, a) ∈ entries ↔ f x = some a

/-- The map has entries for this many names. -/
def HasSize {α : Type} (f : Bytes → Option α) (n : Nat) : Prop :=
  ∃ names : Finset Bytes, (∀ x, x ∈ names ↔ (f x).isSome = true) ∧ names.card = n

section Entries

variable {α β : Type}

/-- Entries in order are those of looking up in them. -/
theorem enumerates_lookup {entries : List (Bytes × α)}
    (h : entries.Pairwise fun a b => a.1 < b.1) :
    Enumerates (fun x => entries.lookup x) entries := by
  refine ⟨h, ?_⟩
  intro x a
  induction entries with
  | nil => simp
  | cons first rest ih =>
      obtain ⟨name, value⟩ := first
      obtain ⟨hfirst, hrest⟩ := List.pairwise_cons.mp h
      rw [List.mem_cons, Prod.mk.injEq, ih hrest, Binding.lookup_cons_eq]
      by_cases hx : x = name
      · -- The names behind are larger, so this one is not among them.
        subst hx
        have hnone : rest.lookup x ≠ some a := fun hbehind =>
          List.lt_irrefl x (hfirst (x, a) ((ih hrest).mpr hbehind))
        simp [hnone, eq_comm]
      · simp [hx]

namespace Enumerates

variable {f : Bytes → Option α} {entries : List (Bytes × α)}

theorem map (h : Enumerates f entries) (g : α → β) :
    Enumerates (fun x => (f x).map g) (entries.map fun e => (e.1, g e.2)) := by
  refine ⟨List.pairwise_map.mpr h.rising, ?_⟩
  intro x b
  rw [List.mem_map, Option.map_eq_some_iff]
  constructor
  · rintro ⟨⟨y, a⟩, hmem, heq⟩
    cases heq
    exact ⟨a, (h.mem_iff y a).mp hmem, rfl⟩
  · rintro ⟨a, ha, rfl⟩
    exact ⟨(x, a), (h.mem_iff x a).mpr ha, rfl⟩

/-- A map has as many names as it has entries. -/
theorem hasSize (h : Enumerates f entries) : HasSize f entries.length := by
  have hnodup : (entries.map Prod.fst).Nodup :=
    List.pairwise_map.mpr (h.rising.imp fun {a b} (hlt : a.1 < b.1) (heq : a.1 = b.1) =>
      List.lt_irrefl b.1 (heq ▸ hlt))
  refine ⟨(entries.map Prod.fst).toFinset, fun x => ?_, ?_⟩
  · rw [List.mem_toFinset, List.mem_map, Option.isSome_iff_exists]
    constructor
    · rintro ⟨⟨y, a⟩, hmem, rfl⟩
      exact ⟨a, (h.mem_iff y a).mp hmem⟩
    · rintro ⟨a, ha⟩
      exact ⟨(x, a), (h.mem_iff x a).mpr ha, rfl⟩
  · rw [List.toFinset_card_of_nodup hnodup, List.length_map]

end Enumerates

end Entries

/-! ## The machine of finite maps -/

/-- What a tag that was handed out stands for. -/
inductive Owner where
  /-- A name of a table. -/
  | entry (table name : Bytes)
  /-- Nothing, since it was made for no table. -/
  | nobody (name : Bytes)

/-- Finite maps side by side. -/
structure Maps where
  /-- What a table binds a name to. -/
  bound : Bytes → Bytes → Option Int64
  /-- The table in use. -/
  inUse : Bytes
  /-- What the tags stand for that were handed out so far. -/
  held : List Owner

namespace Maps

/-- Nothing is bound. -/
def empty : Maps := ⟨fun _ _ => none, [], []⟩

/-- Binds one name in one table. -/
def bind (m : Maps) (table name : Bytes) (n : Int64) : Maps :=
  { m with bound := fun t x => if t = table ∧ x = name then some n else m.bound t x }

/-- Hands out tags. -/
def hold (m : Maps) (owners : List Owner) : Maps := { m with held := m.held ++ owners }

/-- What finite maps answer to a command, and what becomes of them. -/
inductive Step (m : Maps) : TableCommand → TableAnswer → Maps → Prop
  | use (table : Bytes) : Step m (.use table) .none { m with inUse := table }
  | set (name : Bytes) (n : Int64) : Step m (.set name n) .none (m.bind m.inUse name n)
  | get (name : Bytes) : Step m (.get name) (.value ((m.bound m.inUse name).getD 0)) m
  | lookup (name : Bytes) : Step m (.lookup name)
      (.lookup ((m.bound m.inUse name).getD 0) (m.bound m.inUse name).isSome) m
  | resolveBound {name : Bytes} {n : Int64} : m.bound m.inUse name = some n →
      Step m (.resolve name) (.tag ⟨name, n⟩) (m.hold [.entry m.inUse name])
  | resolveUnbound {name : Bytes} : m.bound m.inUse name = none →
      Step m (.resolve name) .none m
  | defineBound {name : Bytes} {n : Int64} : m.bound m.inUse name = some n →
      Step m (.define name) (.defined ⟨name, n⟩ true) (m.hold [.entry m.inUse name])
  | defineUnbound {name : Bytes} : m.bound m.inUse name = none →
      Step m (.define name) (.defined ⟨name, 0⟩ false)
        ((m.bind m.inUse name 0).hold [.entry m.inUse name])
  | pokeBound {name : Bytes} {old : Int64} (n : Int64) : m.bound m.inUse name = some old →
      Step m (.poke name n) (.tag ⟨name, n⟩)
        ((m.bind m.inUse name n).hold [.entry m.inUse name])
  | pokeUnbound {name : Bytes} (n : Int64) : m.bound m.inUse name = none →
      Step m (.poke name n) .none m
  | newTag (name : Bytes) : Step m (.newTag name) (.tag ⟨name, 0⟩) (m.hold [.nobody name])
  | writeEntry {i : Nat} {table name : Bytes} (n : Int64) :
      m.held[i]? = some (.entry table name) →
      Step m (.write i n) (.tag ⟨name, n⟩) (m.bind table name n)
  | writeNobody {i : Nat} {name : Bytes} (n : Int64) : m.held[i]? = some (.nobody name) →
      Step m (.write i n) (.tag ⟨name, n⟩) m
  | writeNothing {i : Nat} (n : Int64) : m.held[i]? = none → Step m (.write i n) .none m
  | each {listing : List (Bytes × Tag)} :
      Enumerates (fun x => (m.bound m.inUse x).map (Tag.mk x)) listing →
      Step m .each (.listing listing) (m.hold (listing.map fun e => .entry m.inUse e.1))

/-- Steps one after the other. Behind each stand the answer and the size of the
table then in use. -/
inductive Run : Maps → List TableCommand → List (TableAnswer × Nat) → Prop
  | nil (m : Maps) : Run m [] []
  | cons {m m' : Maps} {c : TableCommand} {answer : TableAnswer} {size : Nat}
      {cs : List TableCommand} {answers : List (TableAnswer × Nat)} :
      Step m c answer m' → HasSize (m'.bound m'.inUse) size → Run m' cs answers →
      Run m (c :: cs) ((answer, size) :: answers)

/-- Binding a name again is binding it once. -/
theorem bind_bind (m : Maps) (table name : Bytes) (a b : Int64) :
    (m.bind table name a).bind table name b = m.bind table name b := by
  unfold bind
  congr 1
  funext t x
  by_cases h : t = table ∧ x = name <;> simp [h]

theorem bound_bind_of_ne (m : Maps) {table t : Bytes} (name : Bytes) (n : Int64)
    (h : t ≠ table) : (m.bind table name n).bound t = m.bound t := by
  funext x
  exact if_neg fun heq => h heq.1

/-- **A step leaves all tables alone but one**, the table in use or that of the tag
which is written through. -/
theorem Step.bound_of_ne {m m' : Maps} {c : TableCommand} {answer : TableAnswer}
    (h : Step m c answer m') {t : Bytes} (huse : t ≠ m.inUse)
    (hwrite : ∀ i n name, c = .write i n → m.held[i]? ≠ some (.entry t name)) :
    m'.bound t = m.bound t := by
  cases h with
  | set name n => exact m.bound_bind_of_ne name n huse
  | @defineUnbound name _ => exact m.bound_bind_of_ne name 0 huse
  | @pokeBound name _ n _ => exact m.bound_bind_of_ne name n huse
  | @writeEntry i table name n howner =>
      refine m.bound_bind_of_ne name n ?_
      rintro rfl
      exact hwrite i n name rfl howner
  | _ => rfl

end Maps

/-! ## Memory -/

namespace Workspace

/-- Where the tag of a name of a table is. -/
def place? (w : Workspace) (table name : Bytes) : Option Nat := (w.table table).place? name

theorem tagAt_write (w : Workspace) {place : Nat} (h : place < w.memory.length) (n : Int64)
    (p : Nat) : (w.write place n).tagAt p =
      if p = place then ⟨(w.tagAt p).name, n⟩ else w.tagAt p := by
  simp only [tagAt, write, List.getD_eq_getElem?_getD, List.getElem?_modify]
  by_cases hp : p = place
  · subst hp
    simp [h]
  · simp [hp, Ne.symm hp]

theorem length_memory_write (w : Workspace) (place : Nat) (n : Int64) :
    (w.write place n).memory.length = w.memory.length := List.length_modify ..

theorem name_tagAt_write (w : Workspace) {place : Nat} (h : place < w.memory.length) (n : Int64)
    (p : Nat) : ((w.write place n).tagAt p).name = (w.tagAt p).name := by
  rw [tagAt_write w h]
  split <;> rfl

theorem length_memory_newTag (w : Workspace) (name : Bytes) :
    (w.newTag name).2.memory.length = w.memory.length + 1 := by
  simp [newTag]

theorem tagAt_newTag_of_lt (w : Workspace) (name : Bytes) {p : Nat} (h : p < w.memory.length) :
    (w.newTag name).2.tagAt p = w.tagAt p := by
  simp [tagAt, newTag, List.getElem?_append_left h]

theorem tagAt_newTag_self (w : Workspace) (name : Bytes) :
    (w.newTag name).2.tagAt w.memory.length = ⟨name, 0⟩ := by
  simp [tagAt, newTag]

/-- The table in use gets a name with a new tag. -/
def enter (w : Workspace) (name : Bytes) : Workspace :=
  { (w.newTag name).2 with tables := (w.current, w.inUse.put name w.memory.length) :: w.tables }

theorem define_of_some {w : Workspace} {name : Bytes} {p : Nat} (h : w.resolve name = some p) :
    w.define name = (p, true, w) := by
  simp only [define, h]

theorem define_of_none {w : Workspace} {name : Bytes} (h : w.resolve name = none) :
    w.define name = (w.memory.length, false, w.enter name) := by
  simp only [define, h]
  rfl

theorem length_memory_enter (w : Workspace) (name : Bytes) :
    (w.enter name).memory.length = w.memory.length + 1 := w.length_memory_newTag name

theorem tagAt_enter_of_lt (w : Workspace) (name : Bytes) {p : Nat} (h : p < w.memory.length) :
    (w.enter name).tagAt p = w.tagAt p := w.tagAt_newTag_of_lt name h

theorem tagAt_enter_self (w : Workspace) (name : Bytes) :
    (w.enter name).tagAt w.memory.length = ⟨name, 0⟩ := w.tagAt_newTag_self name

theorem place?_enter (w : Workspace) (name t x : Bytes) : (w.enter name).place? t x =
    if t = w.current ∧ x = name then some w.memory.length else w.place? t x := by
  unfold place? table enter
  rw [List.lookup_cons]
  by_cases ht : t = w.current
  · subst ht
    simp only [beq_self_eq_true, Option.getD_some, true_and]
    exact Binding.lookup_insert name w.memory.length w.inUse.entries x
  · simp [beq_eq_false_iff_ne.mpr ht, ht]

/-- There is a tag at the place, and it stands for this. -/
inductive Holds (w : Workspace) (p : Nat) : Owner → Prop
  | entry {t x : Bytes} : p < w.memory.length → w.place? t x = some p → Holds w p (.entry t x)
  | nobody {x : Bytes} : p < w.memory.length → (w.tagAt p).name = x →
      (∀ t y, w.place? t y ≠ some p) → Holds w p (.nobody x)

/-- One workspace came from the other without touching what tags stand for: they keep
their places and names, and the entries that lead to them are the same. -/
structure Keeps (w w' : Workspace) : Prop where
  length_le : w.memory.length ≤ w'.memory.length
  name_tagAt : ∀ p < w.memory.length, (w'.tagAt p).name = (w.tagAt p).name
  place?_iff : ∀ p < w.memory.length, ∀ t x, w'.place? t x = some p ↔ w.place? t x = some p

theorem keeps_write (w : Workspace) {place : Nat} (h : place < w.memory.length) (n : Int64) :
    w.Keeps (w.write place n) :=
  ⟨Nat.le_of_eq (w.length_memory_write place n).symm, fun p _ => w.name_tagAt_write h n p,
    fun _ _ _ _ => Iff.rfl⟩

theorem keeps_newTag (w : Workspace) (name : Bytes) : w.Keeps (w.newTag name).2 :=
  ⟨by rw [length_memory_newTag]; omega, fun _ hp => by rw [tagAt_newTag_of_lt w name hp],
    fun _ _ _ _ => Iff.rfl⟩

theorem keeps_enter {w : Workspace} {name : Bytes} (h : w.resolve name = none) :
    w.Keeps (w.enter name) := by
  refine ⟨by rw [length_memory_enter]; omega, fun p hp => by rw [tagAt_enter_of_lt w name hp], ?_⟩
  intro p hp t x
  rw [place?_enter]
  split
  · next hentry =>
    obtain ⟨rfl, rfl⟩ := hentry
    have hnone : w.place? w.current x = none := h
    rw [hnone, Option.some.injEq]
    exact iff_of_false (by omega) (by simp)
  · exact Iff.rfl

theorem Keeps.holds {w w' : Workspace} (h : w.Keeps w') {p : Nat} {owner : Owner}
    (howner : w.Holds p owner) : w'.Holds p owner := by
  cases howner with
  | entry hp hplace =>
      exact .entry (Nat.lt_of_lt_of_le hp h.length_le) ((h.place?_iff p hp _ _).mpr hplace)
  | nobody hp hname hfree =>
      refine .nobody (Nat.lt_of_lt_of_le hp h.length_le) ((h.name_tagAt p hp).trans hname) ?_
      intro t y hplace
      exact hfree t y ((h.place?_iff p hp t y).mp hplace)

end Workspace

/-! ## Workspaces and finite maps -/

/-- The workspace is one way to keep these finite maps. -/
structure Represents (w : Workspace) (m : Maps) : Prop where
  current : w.current = m.inUse
  bound : ∀ t x, m.bound t x = (w.place? t x).map fun p => (w.tagAt p).value
  /-- A name leads to a tag of that name. -/
  named : ∀ {t x p}, w.place? t x = some p → p < w.memory.length ∧ (w.tagAt p).name = x
  /-- No tag is led to from two entries. -/
  apart : ∀ {t t' x x' p}, w.place? t x = some p → w.place? t' x' = some p → t = t' ∧ x = x'
  held : List.Forall₂ w.Holds w.held m.held

namespace Represents

variable {w : Workspace} {m : Maps}

theorem empty : Represents .empty .empty where
  current := rfl
  bound _ _ := rfl
  named h := by cases h
  apart h := by cases h
  held := .nil

/-- What is held stays held. -/
theorem held_of_keeps (h : Represents w m) {w' : Workspace} (hkeeps : w.Keeps w') :
    List.Forall₂ w'.Holds w.held m.held := h.held.imp fun _ _ => hkeeps.holds

/-- Entries lead to tags of their names as before. -/
theorem named_of_keeps (h : Represents w m) {w' : Workspace} (hkeeps : w.Keeps w') {t x : Bytes}
    {p : Nat} (hp : w.place? t x = some p) :
    p < w'.memory.length ∧ (w'.tagAt p).name = x := by
  obtain ⟨hlt, hname⟩ := h.named hp
  exact ⟨Nat.lt_of_lt_of_le hlt hkeeps.length_le, (hkeeps.name_tagAt p hlt).trans hname⟩

/-- An entry whose tag keeps its value keeps it too. -/
theorem bound_of_value_eq (h : Represents w m) {w' : Workspace} {t x : Bytes}
    (hvalue : ∀ p, w.place? t x = some p → (w'.tagAt p).value = (w.tagAt p).value) :
    m.bound t x = (w.place? t x).map fun p => (w'.tagAt p).value := by
  rw [h.bound]
  exact Option.map_congr fun p hp => (hvalue p hp).symm

theorem use (h : Represents w m) (table : Bytes) :
    Represents { w with current := table } { m with inUse := table } where
  current := rfl
  bound := h.bound
  named := h.named
  apart := h.apart
  held := h.held_of_keeps ⟨Nat.le_refl _, fun _ _ => rfl, fun _ _ _ _ => Iff.rfl⟩

theorem hold (h : Represents w m) {places : List Nat} {owners : List Owner}
    (howners : List.Forall₂ w.Holds places owners) :
    Represents (w.hold places) (m.hold owners) := by
  have hkeeps : w.Keeps (w.hold places) :=
    ⟨Nat.le_refl _, fun _ _ => rfl, fun _ _ _ _ => Iff.rfl⟩
  exact ⟨h.current, h.bound, h.named, h.apart,
    List.rel_append (h.held_of_keeps hkeeps) (howners.imp fun _ _ => hkeeps.holds)⟩

/-- Writing through the tag of an entry binds its name. -/
theorem write_entry (h : Represents w m) {t x : Bytes} {p : Nat} (hplace : w.place? t x = some p)
    (n : Int64) : Represents (w.write p n) (m.bind t x n) := by
  have hp : p < w.memory.length := (h.named hplace).1
  have hkeeps := w.keeps_write hp n
  refine ⟨h.current, fun t' x' => ?_, h.named_of_keeps hkeeps, h.apart, h.held_of_keeps hkeeps⟩
  show (if t' = t ∧ x' = x then some n else m.bound t' x') =
    (w.place? t' x').map fun q => ((w.write p n).tagAt q).value
  split
  · next hentry =>
    obtain ⟨rfl, rfl⟩ := hentry
    rw [hplace, Option.map_some, w.tagAt_write hp, if_pos rfl]
  · next hother =>
    refine h.bound_of_value_eq fun q hq => ?_
    have hne : q ≠ p := by
      rintro rfl
      exact hother (h.apart hq hplace)
    rw [w.tagAt_write hp, if_neg hne]

/-- Writing through a tag of no table binds nothing. -/
theorem write_nobody (h : Represents w m) {p : Nat} (hp : p < w.memory.length)
    (hfree : ∀ t x, w.place? t x ≠ some p) (n : Int64) : Represents (w.write p n) m := by
  have hkeeps := w.keeps_write hp n
  refine ⟨h.current, fun t x => h.bound_of_value_eq fun q hq => ?_, h.named_of_keeps hkeeps,
    h.apart, h.held_of_keeps hkeeps⟩
  have hne : q ≠ p := fun heq => hfree t x (heq ▸ hq)
  rw [w.tagAt_write hp, if_neg hne]

/-- No entry leads behind the memory. -/
theorem place?_ne_length (h : Represents w m) (t x : Bytes) :
    w.place? t x ≠ some w.memory.length :=
  fun hplace => Nat.lt_irrefl _ (h.named hplace).1

/-- A new tag stands for nothing. -/
theorem newTag (h : Represents w m) (name : Bytes) :
    Represents (w.newTag name).2 m ∧
      (w.newTag name).2.Holds w.memory.length (.nobody name) := by
  have hkeeps := w.keeps_newTag name
  have hlength := w.length_memory_newTag name
  constructor
  · refine ⟨h.current, fun t x => h.bound_of_value_eq fun p hp => ?_, h.named_of_keeps hkeeps,
      h.apart, h.held_of_keeps hkeeps⟩
    rw [w.tagAt_newTag_of_lt name (h.named hp).1]
  · exact .nobody (by omega) (by rw [w.tagAt_newTag_self]) h.place?_ne_length

/-- Entering a name that is not bound binds it to zero. -/
theorem enter (h : Represents w m) {name : Bytes} (hname : w.resolve name = none) :
    Represents (w.enter name) (m.bind m.inUse name 0) := by
  have hkeeps := Workspace.keeps_enter hname
  have hplace := w.place?_enter name
  refine ⟨h.current, fun t x => ?_, fun {t x p} hp => ?_, fun {t t' x x' p} hp hp' => ?_,
    h.held_of_keeps hkeeps⟩
  · show (if t = m.inUse ∧ x = name then some 0 else m.bound t x) = _
    rw [hplace, h.current]
    split
    · rw [Option.map_some, w.tagAt_enter_self]
    · refine h.bound_of_value_eq fun p hp => ?_
      rw [w.tagAt_enter_of_lt name (h.named hp).1]
  · rw [hplace] at hp
    split at hp
    · next hentry =>
      cases hp
      rw [w.length_memory_enter, w.tagAt_enter_self]
      exact ⟨Nat.lt_succ_self _, hentry.2.symm⟩
    · exact h.named_of_keeps hkeeps hp
  · -- The new place is led to from the new entry only.
    rw [hplace] at hp hp'
    split at hp
    · next hentry =>
      split at hp'
      · next hentry' => exact ⟨hentry.1.trans hentry'.1.symm, hentry.2.trans hentry'.2.symm⟩
      · cases hp
        exact absurd hp' (h.place?_ne_length t' x')
    · split at hp'
      · cases hp'
        exact absurd hp (h.place?_ne_length t x)
      · exact h.apart hp hp'

/-- A name is bound and has a tag, or it is not bound and has none. -/
theorem resolve_cases (h : Represents w m) (name : Bytes) :
    (∃ p n, w.resolve name = some p ∧ m.bound m.inUse name = some n ∧
      w.place? m.inUse name = some p ∧ w.tagAt p = ⟨name, n⟩) ∨
      (w.resolve name = none ∧ m.bound m.inUse name = none) := by
  have hplace : w.place? m.inUse name = w.resolve name := by
    rw [← h.current]
    rfl
  have hbound := h.bound m.inUse name
  rw [hplace] at hbound
  cases hp : w.resolve name with
  | none =>
      rw [hp] at hbound
      exact .inr ⟨rfl, hbound⟩
  | some p =>
      rw [hp] at hbound hplace
      have hname : (w.tagAt p).name = name := (h.named hplace).2
      refine .inl ⟨p, (w.tagAt p).value, rfl, hbound, hplace, ?_⟩
      rw [← hname]

/-- The tag of an entry may be handed out. -/
theorem hold_entry (h : Represents w m) {t x : Bytes} {p : Nat} (hplace : w.place? t x = some p) :
    Represents (w.hold [p]) (m.hold [.entry t x]) :=
  h.hold (.cons (.entry (h.named hplace).1 hplace) .nil)

theorem place?_enter_self (h : Represents w m) (name : Bytes) :
    (w.enter name).place? m.inUse name = some w.memory.length := by
  rw [w.place?_enter, if_pos ⟨h.current.symm, rfl⟩]

theorem lookup_eq (h : Represents w m) (name : Bytes) :
    w.lookup name = ((m.bound m.inUse name).getD 0, (m.bound m.inUse name).isSome) := by
  rcases h.resolve_cases name with ⟨p, n, hp, hn, -, htag⟩ | ⟨hp, hn⟩
  · simp only [Workspace.lookup, hp, hn, htag, Option.getD_some, Option.isSome_some]
  · simp only [Workspace.lookup, hp, hn, Option.getD_none, Option.isSome_none]

/-- Setting a name binds it, whether it had a tag or gets one now. -/
theorem set (h : Represents w m) (name : Bytes) (n : Int64) :
    Represents (w.set name n) (m.bind m.inUse name n) := by
  rcases h.resolve_cases name with ⟨p, old, hp, -, hplace, -⟩ | ⟨hp, -⟩
  · rw [Workspace.set, Workspace.define_of_some hp]
    exact h.write_entry hplace n
  · have hwritten := (h.enter hp).write_entry (h.place?_enter_self name) n
    rw [Maps.bind_bind] at hwritten
    rw [Workspace.set, Workspace.define_of_none hp]
    exact hwritten

/-! ### Listing and counting -/

theorem enumerates_each (h : Represents w m) :
    Enumerates (fun x => (m.bound m.inUse x).map (Tag.mk x)) w.each := by
  have hentries := (enumerates_lookup w.inUse.sorted).map w.tagAt
  have hsame : (fun x => (w.inUse.entries.lookup x).map w.tagAt) =
      fun x => (m.bound m.inUse x).map (Tag.mk x) := by
    funext x
    show (w.resolve x).map w.tagAt = _
    rcases h.resolve_cases x with ⟨p, n, hp, hn, -, htag⟩ | ⟨hp, hn⟩
    · rw [hp, hn, Option.map_some, Option.map_some, htag]
    · rw [hp, hn]
      rfl
  rw [hsame] at hentries
  exact hentries

/-- Going through all names hands out their tags. -/
theorem hold_each (h : Represents w m) :
    Represents (w.hold (w.inUse.entries.map Prod.snd))
      (m.hold (w.each.map fun e => .entry m.inUse e.1)) := by
  refine h.hold ?_
  rw [Workspace.each, List.map_map, List.forall₂_map_left_iff, List.forall₂_map_right_iff,
    List.forall₂_same]
  intro e he
  have hplace : w.place? m.inUse e.1 = some e.2 := by
    rw [← h.current]
    exact ((enumerates_lookup w.inUse.sorted).mem_iff e.1 e.2).mp he
  exact .entry (h.named hplace).1 hplace

theorem hasSize (h : Represents w m) : HasSize (m.bound m.inUse) w.inUse.size := by
  have hentries := (enumerates_lookup w.inUse.sorted).map fun p => (w.tagAt p).value
  have hsame : (fun x => (w.inUse.entries.lookup x).map fun p => (w.tagAt p).value) =
      m.bound m.inUse := by
    funext x
    rw [h.bound, ← h.current]
    rfl
  have hsize := hentries.hasSize
  rwa [hsame, List.length_map] at hsize

/-! ### Commands -/

/-- A tag was handed out under this number and stands for something, or neither. -/
theorem held_cases (h : Represents w m) (i : Nat) :
    (∃ p owner, w.held[i]? = some p ∧ m.held[i]? = some owner ∧ w.Holds p owner) ∨
      (w.held[i]? = none ∧ m.held[i]? = none) := by
  have hlength : w.held.length = m.held.length := h.held.length_eq
  by_cases hi : i < w.held.length
  · have hi' : i < m.held.length := hlength ▸ hi
    exact .inl ⟨w.held[i], m.held[i], List.getElem?_eq_getElem hi, List.getElem?_eq_getElem hi',
      h.held.get hi hi'⟩
  · exact .inr ⟨List.getElem?_eq_none (by omega), List.getElem?_eq_none (by omega)⟩

/-- **A command is a step of the finite maps.** -/
theorem perform (h : Represents w m) (c : TableCommand) :
    ∃ m', Maps.Step m c (w.perform c).1 m' ∧ Represents (w.perform c).2 m' := by
  cases c with
  | use table => exact ⟨_, .use table, h.use table⟩
  | set name n => exact ⟨_, .set name n, h.set name n⟩
  | get name =>
      refine ⟨m, ?_, h⟩
      simp only [Workspace.perform, Workspace.get, h.lookup_eq name]
      exact .get name
  | lookup name =>
      refine ⟨m, ?_, h⟩
      simp only [Workspace.perform, h.lookup_eq name]
      exact .lookup name
  | resolve name =>
      rcases h.resolve_cases name with ⟨p, n, hp, hn, hplace, htag⟩ | ⟨hp, hn⟩
      · simp only [Workspace.perform, hp, htag]
        exact ⟨_, .resolveBound hn, h.hold_entry hplace⟩
      · simp only [Workspace.perform, hp]
        exact ⟨m, .resolveUnbound hn, h⟩
  | define name =>
      rcases h.resolve_cases name with ⟨p, n, hp, hn, hplace, htag⟩ | ⟨hp, hn⟩
      · simp only [Workspace.perform, Workspace.define_of_some hp, htag]
        exact ⟨_, .defineBound hn, h.hold_entry hplace⟩
      · simp only [Workspace.perform, Workspace.define_of_none hp, w.tagAt_enter_self]
        exact ⟨_, .defineUnbound hn, (h.enter hp).hold_entry (h.place?_enter_self name)⟩
  | poke name n =>
      rcases h.resolve_cases name with ⟨p, old, hp, hold, hplace, htag⟩ | ⟨hp, hn⟩
      · have hwritten : (w.write p n).tagAt p = ⟨name, n⟩ := by
          rw [w.tagAt_write (h.named hplace).1, if_pos rfl, htag]
        simp only [Workspace.perform, hp, hwritten]
        exact ⟨_, .pokeBound n hold, (h.write_entry hplace n).hold_entry hplace⟩
      · simp only [Workspace.perform, hp]
        exact ⟨m, .pokeUnbound n hn, h⟩
  | newTag name =>
      obtain ⟨hmade, hholds⟩ := h.newTag name
      refine ⟨_, ?_, hmade.hold (.cons hholds .nil)⟩
      show Maps.Step m (.newTag name) (.tag ((w.newTag name).2.tagAt w.memory.length)) _
      rw [w.tagAt_newTag_self]
      exact .newTag name
  | write i n =>
      rcases h.held_cases i with ⟨p, owner, hp, howner, hholds⟩ | ⟨hp, hnone⟩
      · cases hholds with
        | entry hlt hplace =>
            simp only [Workspace.perform, hp, w.tagAt_write hlt, if_pos, (h.named hplace).2]
            exact ⟨_, .writeEntry n howner, h.write_entry hplace n⟩
        | nobody hlt hname hfree =>
            simp only [Workspace.perform, hp, w.tagAt_write hlt, if_pos, hname]
            exact ⟨m, .writeNobody n howner, h.write_nobody hlt hfree n⟩
      · simp only [Workspace.perform, hp]
        exact ⟨m, .writeNothing n hnone, h⟩
  | each => exact ⟨_, .each h.enumerates_each, h.hold_each⟩

/-- Commands one after the other are a run of the finite maps. -/
theorem performAll (h : Represents w m) (cs : List TableCommand) :
    Maps.Run m cs (w.performAll cs) := by
  induction cs generalizing w m with
  | nil => exact .nil m
  | cons c cs ih =>
      obtain ⟨m', hstep, hnext⟩ := h.perform c
      exact .cons hstep hnext.hasSize (ih hnext)

end Represents

/--
**Tables are finite maps.** Any commands are given to any number of tables, all
empty at the start. The answers and sizes are those of finite maps from names to
integers, where tags that were handed out stand for entries of the maps whenever
they are written to, and each step leaves all tables alone but the one that it is
about. A table of a program, which hands out no tags, is such a map by itself.
-/
theorem tables_refine_finite_maps :
    (∀ cs, Maps.Run .empty cs (Workspace.empty.performAll cs)) ∧
      (∀ m c answer m', Maps.Step m c answer m' → ∀ t, t ≠ m.inUse →
        (∀ i n name, c = .write i n → m.held[i]? ≠ some (.entry t name)) →
          m'.bound t = m.bound t) ∧
      (∀ x, Table.empty.get? x = none) ∧
      ∀ t : Table, (∀ name n, (t.set name n).get? = Function.update t.get? name (some n)) ∧
        (∀ x, t.value x = (t.get? x).getD 0 ∧ t.isBound x = (t.get? x).isSome) ∧
        Enumerates t.get? t.entries ∧ HasSize t.get? t.size := by
  refine ⟨fun cs => Represents.empty.performAll cs,
    fun m c answer m' hstep t huse hwrite => hstep.bound_of_ne huse hwrite, fun x => rfl,
    fun t => ⟨fun name n => ?_, fun x => ⟨rfl, rfl⟩, ?_, ?_⟩⟩
  · funext x
    rw [t.get?_set, Function.update_apply]
  · exact enumerates_lookup t.sorted
  · exact (enumerates_lookup t.sorted).hasSize

/-- A tag is written to while another table is in use, which does not notice. -/
theorem tables_refine_finite_maps_aliased :
    let cs : List TableCommand :=
      [.define (utf8 "x"), .use (utf8 "other"), .write 0 7, .lookup (utf8 "x"), .use [], .each]
    let answers : List (TableAnswer × Nat) :=
      [(.defined ⟨utf8 "x", 0⟩ false, 1), (.none, 0), (.tag ⟨utf8 "x", 7⟩, 0),
        (.lookup 0 false, 0), (.none, 1), (.listing [(utf8 "x", ⟨utf8 "x", 7⟩)], 1)]
    let m : Maps := ⟨fun _ _ => none, utf8 "other", [.entry [] (utf8 "x")]⟩
    Workspace.empty.performAll cs = answers ∧ Maps.Run .empty cs answers ∧
      Maps.Step m (.set (utf8 "y") 1) .none (m.bind m.inUse (utf8 "y") 1) ∧ [] ≠ m.inUse ∧
      (m.bind m.inUse (utf8 "y") 1).bound [] = m.bound [] := by
  intro cs answers m
  have hanswers : Workspace.empty.performAll cs = answers := by decide
  have hstep : Maps.Step m (.set (utf8 "y") 1) .none (m.bind m.inUse (utf8 "y") 1) := .set _ 1
  have hne : [] ≠ m.inUse := by decide
  obtain ⟨hrun, hframe, -⟩ := tables_refine_finite_maps
  refine ⟨hanswers, hanswers ▸ hrun cs, hstep, hne, ?_⟩
  exact hframe m _ _ _ hstep [] hne fun _ _ _ hwrite => by cases hwrite

end LineCalculator
