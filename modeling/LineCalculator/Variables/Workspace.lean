import LineCalculator.Variables.Table

/-!
# Several tables side by side

A workspace holds any number of tables, each under a name of its own, and
one of them is the table in use. A table that has not been used before is
empty.

The variables lie in memory as **tags**, each a name together with its
present value, and a table leads from names to the places of tags. So a tag
can be handed out and written to later, when other variables have been bound
or another table is in use; that is writing to the table it belongs to. A tag
can also be made for no table at all.
-/

namespace LineCalculator

/-- A variable in memory. -/
structure Tag where
  /-- The name of the variable. -/
  name : Bytes
  /-- Its value. -/
  value : Int64
  deriving DecidableEq

/-- How a tag is shown. -/
def Tag.text (t : Tag) : Bytes :=
  utf8 "<tag '" ++ t.name ++ utf8 "'=" ++ Decimal.ofInt64 t.value ++ utf8 ">"

/-- Names with the places of their tags, in rising order of names. -/
structure Directory where
  /-- The names and places. -/
  entries : List (Bytes × Nat)
  /-- They are in order, and no name stands there twice. -/
  sorted : entries.Pairwise fun a b => a.1 < b.1

namespace Directory

/-- No name has a place. -/
def empty : Directory := ⟨[], List.Pairwise.nil⟩

/-- The place of a name. -/
def place? (d : Directory) (name : Bytes) : Option Nat := d.entries.lookup name

/-- Gives a name a place. -/
def put (d : Directory) (name : Bytes) (place : Nat) : Directory :=
  ⟨Binding.insert name place d.entries, Binding.pairwise_insert name place d.sorted⟩

/-- The number of names. -/
def size (d : Directory) : Nat := d.entries.length

end Directory

/-- What can be asked of the table in use. -/
inductive TableCommand where
  /-- Use another table from now on. -/
  | use (table : Bytes)
  /-- Bind a name. -/
  | set (name : Bytes) (value : Int64)
  /-- Read a value. -/
  | get (name : Bytes)
  /-- Read a value and whether the name is bound. -/
  | lookup (name : Bytes)
  /-- Ask for a tag. -/
  | resolve (name : Bytes)
  /-- Ask for a tag, binding the name to zero if need be. -/
  | define (name : Bytes)
  /-- Resolve a tag and write to it. -/
  | poke (name : Bytes) (value : Int64)
  /-- Make a tag that is in no table. -/
  | newTag (name : Bytes)
  /-- Write to a tag that was handed out earlier. They count from zero, in the
  order in which they were handed out, by whatever table. -/
  | write (number : Nat) (value : Int64)
  /-- Go through all names and their tags. -/
  | each
  deriving DecidableEq

/-- What a command answers; tags as they are at that time. -/
inductive TableAnswer where
  /-- Nothing. -/
  | none
  /-- A value. -/
  | value (n : Int64)
  /-- A value, and whether the name is bound. -/
  | lookup (n : Int64) (found : Bool)
  /-- A tag. -/
  | tag (t : Tag)
  /-- A tag, and whether the name was bound before. -/
  | defined (t : Tag) (found : Bool)
  /-- All names with their tags, in order. -/
  | listing (entries : List (Bytes × Tag))
  deriving DecidableEq

/-- Tables under names, one of them in use. -/
structure Workspace where
  /-- The tags made so far; a tag's place is its index. -/
  memory : List Tag
  /-- The tables used so far. -/
  tables : List (Bytes × Directory)
  /-- The name of the table in use. -/
  current : Bytes
  /-- The places of the tags that were handed out so far, in order. -/
  held : List Nat

namespace Workspace

/-- No table has been used; the one in use has the empty name. -/
def empty : Workspace := ⟨[], [], [], []⟩

/-- The table with this name. -/
def table (w : Workspace) (name : Bytes) : Directory := (w.tables.lookup name).getD .empty

/-- The table in use. -/
def inUse (w : Workspace) : Directory := w.table w.current

/-- The tag at a place. Nobody asks for places without one. -/
def tagAt (w : Workspace) (place : Nat) : Tag := w.memory.getD place ⟨[], 0⟩

/-- Hands out tags. -/
def hold (w : Workspace) (places : List Nat) : Workspace := { w with held := w.held ++ places }

/-- Writes to the tag at a place. -/
def write (w : Workspace) (place : Nat) (n : Int64) : Workspace :=
  { w with memory := w.memory.modify place fun t => { t with value := n } }

/-- Makes a tag with the value zero. -/
def newTag (w : Workspace) (name : Bytes) : Nat × Workspace :=
  (w.memory.length, { w with memory := w.memory ++ [⟨name, 0⟩] })

/-- Where the tag of a name is, if the name is bound. -/
def resolve (w : Workspace) (name : Bytes) : Option Nat := w.inUse.place? name

/-- Where the tag of a name is, and whether the name was bound already; if it
was not, it gets a new tag. -/
def define (w : Workspace) (name : Bytes) : Nat × Bool × Workspace :=
  match w.resolve name with
  | some place => (place, true, w)
  | none =>
    let (place, made) := w.newTag name
    (place, false, { made with tables := (w.current, w.inUse.put name place) :: w.tables })

/-- The value of a name, zero if it is not bound, and whether it is bound. -/
def lookup (w : Workspace) (name : Bytes) : Int64 × Bool :=
  match w.resolve name with
  | some place => ((w.tagAt place).value, true)
  | none => (0, false)

/-- The value of a name, zero if it is not bound. -/
def get (w : Workspace) (name : Bytes) : Int64 := (w.lookup name).1

/-- Binds a name, whatever it was bound to before. -/
def set (w : Workspace) (name : Bytes) (n : Int64) : Workspace :=
  let (place, _, w) := w.define name
  w.write place n

/-- All names with their tags, in order. -/
def each (w : Workspace) : List (Bytes × Tag) :=
  w.inUse.entries.map fun e => (e.1, w.tagAt e.2)

/-- Carries out a command. Whoever gets a tag may hold on to it. -/
def perform (w : Workspace) : TableCommand → TableAnswer × Workspace
  | .use name => (.none, { w with current := name })
  | .set name n => (.none, w.set name n)
  | .get name => (.value (w.get name), w)
  | .lookup name => (.lookup (w.lookup name).1 (w.lookup name).2, w)
  | .resolve name =>
    match w.resolve name with
    | some place => (.tag (w.tagAt place), w.hold [place])
    | none => (.none, w)
  | .define name =>
    let (place, found, w) := w.define name
    (.defined (w.tagAt place) found, w.hold [place])
  | .poke name n =>
    match w.resolve name with
    | some place =>
      let w := w.write place n
      (.tag (w.tagAt place), w.hold [place])
    | none => (.none, w)
  | .newTag name =>
    let (place, w) := w.newTag name
    (.tag (w.tagAt place), w.hold [place])
  | .write number n =>
    match w.held[number]? with
    | some place =>
      let w := w.write place n
      (.tag (w.tagAt place), w)
    | none => (.none, w)
  | .each => (.listing w.each, w.hold (w.inUse.entries.map Prod.snd))

/-- Carries out commands one after the other; behind each one stand its
answer and the size of the table then in use. -/
def performAll (w : Workspace) : List TableCommand → List (TableAnswer × Nat)
  | [] => []
  | c :: rest =>
    let (answer, w) := w.perform c
    (answer, w.inUse.size) :: performAll w rest

end Workspace

end LineCalculator
