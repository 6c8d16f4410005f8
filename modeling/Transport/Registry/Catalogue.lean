import Transport.Registry

/-!
# The Catalogue behind a Registry

The tables in which ports are looked up. All ports stand in one list, in the order of
registration, and everything else refers to them by their places in it. Of every module
two tables, one for reads and one for writes, lead from offsets to places and say where
the fallback is; two more tables, for all modules together, lead from names to places.

A declaration is entered into a draft first. Places are counted on from the ports that
are known, and a port is checked against the known tables and those of the draft as it is
entered. Only a draft that was not refused becomes part of the catalogue, as a whole.

A `Registry` is the same with lists that are searched in place of tables, and it gives the
same answers.

## Main definitions

* `Places`: A sparse map from keys to places.
* `PortTable`: The places of the ports of a module.
* `Catalogue`, `Catalogue.Draft`: The tables, and those of a declaration.
* `Catalogue.enter`, `Catalogue.commit`: Enters a declaration, and takes up its draft.
* `Catalogue.register`: Takes up a declaration, or says what is wrong with it.
* `Catalogue.atWord?`, `Catalogue.named?`, `Catalogue.explain?`: Lookups.
-/

namespace Transport

/-- One thing for reads and one for writes. -/
structure Sides (α : Type) where
  /-- The one for reads. -/
  read : α
  /-- The one for writes. -/
  write : α

namespace Sides

variable {α : Type}

/-- The thing of a direction. -/
def get (sides : Sides α) : Direction → α
  | .read => sides.read
  | .write => sides.write

/-- Changes the thing of a direction. -/
def modify (sides : Sides α) (change : α → α) : Direction → Sides α
  | .read => { sides with read := change sides.read }
  | .write => { sides with write := change sides.write }

end Sides

/-- A sparse map from keys to places in a list of ports. -/
structure Places (κ : Type) where
  /-- The keys and their places; the first entry of a key counts. -/
  entries : List (κ × Nat) := []

namespace Places

variable {κ : Type} [BEq κ]

/-- The place of a key. -/
def find? (places : Places κ) (key : κ) : Option Nat := places.entries.lookup key

/-- Whether a key has a place. -/
def contains (places : Places κ) (key : κ) : Bool := (places.find? key).isSome

/-- Gives a key a place. -/
def insert (places : Places κ) (key : κ) (place : Nat) : Places κ :=
  -- What is found is what was put in last.
  ⟨(key, place) :: places.entries⟩

/-- Gives the keys of another map the places that they have there. -/
def extend (places more : Places κ) : Places κ := ⟨more.entries ++ places.entries⟩

end Places

/-- Where the ports of a module are, in one direction. -/
structure PortTable where
  /-- The places of the ports that are fixed, by their offsets. -/
  fixed : Places Word := {}
  /-- The place of the fallback. -/
  fallback : Option Nat := none

namespace PortTable

/-- The place of the port that is fixed at an offset, or else of the fallback. -/
def find? (table : PortTable) (offset : Word) : Option Nat :=
  (table.fixed.find? offset).or table.fallback

end PortTable

/-- A module that was taken up, with its tables. -/
structure CatalogueEntry where
  /-- The declaration. -/
  decl : ModuleDecl
  /-- Where its ports are. -/
  tables : Sides PortTable

/-- The tables of all modules and ports. -/
structure Catalogue where
  /-- The modules, by their ids. -/
  entries : Vector (Option CatalogueEntry) 256
  /-- The ports, in the order of registration. -/
  ports : Array Port
  /-- The places of ports, by their names and aliases. -/
  names : Sides (Places String)

/-- What has been entered of a declaration. -/
structure Catalogue.Draft where
  /-- Where the ports of the module are. -/
  tables : Sides PortTable := ⟨{}, {}⟩
  /-- The ports. -/
  ports : Array Port := #[]
  /-- Their places, by their names and aliases. -/
  names : Sides (Places String) := ⟨{}, {}⟩

namespace Catalogue

/-- The catalogue without modules. -/
def empty : Catalogue where
  entries := Vector.replicate 256 none
  ports := #[]
  names := ⟨{}, {}⟩

/-! ## Lookups -/

/-- The module of an id. -/
def module? (c : Catalogue) (id : UInt8) : Option CatalogueEntry := c.entries[id.toNat]?.join

/-- The declarations of all modules, by ascending id. -/
def inIdOrder (c : Catalogue) : List ModuleDecl :=
  c.entries.toList.filterMap fun entry => entry.map CatalogueEntry.decl

/-- The port that an operand word reaches in one direction. -/
def atWord? (c : Catalogue) (word : Word) (direction : Direction) : Option Port := do
  let address : Address := ⟨word⟩
  let entry ← c.module? address.moduleId
  -- The table leads to a place among all ports, which every module shares.
  let place ← (entry.tables.get direction).find? address.offset
  c.ports[place]?

/-- The port of a full name in one direction. -/
def named? (c : Catalogue) (name : String) (direction : Direction) : Option Port := do
  let place ← (c.names.get direction).find? name
  c.ports[place]?

/-- What a listing would write for an operand word: a literal as its value, a
    registered port by its name, and nothing else. -/
def explain? (c : Catalogue) (word : Word) (direction : Direction) : Option String :=
  match direction, Source.ofWord word with
  -- A value is only written in place of a word that is read.
  | .read, .literal value => some ("#" ++ Numeral.decimal value.toNat)
  | _, _ => (c.atWord? word direction).map Port.name

/-! ## Drafts -/

/-- The name of the port at a place, which may be one of the draft. -/
def nameAt (c : Catalogue) (draft : Draft) (place : Nat) : String :=
  -- Places behind the ports of the catalogue are places in the draft.
  let port := if c.ports.size ≤ place then draft.ports[place - c.ports.size]? else c.ports[place]?
  (port.map Port.name).getD ""

/-- Enters the place of a port at its position, unless there is a port already. -/
def enterPosition (c : Catalogue) (p : Port) (place : Nat) (direction : Direction)
    (draft : Draft) : Except Rejection Draft :=
  let table := draft.tables.get direction
  match p.position with
  | .fixed offset =>
    match table.fixed.find? offset with
    | some existing =>
      .error (.duplicateAddress (.of p.owner offset) direction (c.nameAt draft existing) p.name)
    | none =>
      .ok { draft with
        tables := draft.tables.modify
          (fun table => { table with fixed := table.fixed.insert offset place }) direction }
  | .fallback =>
    match table.fallback with
    | some _ => .error (.duplicateFallback p.owner direction)
    | none =>
      .ok { draft with
        tables := draft.tables.modify (fun table => { table with fallback := some place })
          direction }

/-- Enters the place of a port under labels, up to the first that is taken. -/
def enterLabels (c : Catalogue) (place : Nat) (direction : Direction) :
    List String → Draft → Except Rejection Draft
  | [], draft => .ok draft
  | label :: labels, draft =>
    -- A label is taken by a port registered before or by one of the same declaration.
    if (c.names.get direction).contains label || (draft.names.get direction).contains label then
      .error (.duplicateName label direction)
    else
      c.enterLabels place direction labels { draft with
        names := draft.names.modify (fun names => names.insert label place) direction }

/-- Enters the place of a port in one direction, if the port serves it. -/
def enterDirection (c : Catalogue) (p : Port) (place : Nat) (direction : Direction)
    (draft : Draft) : Except Rejection Draft :=
  if p.allows direction then do
    let draft ← c.enterPosition p place direction draft
    c.enterLabels place direction p.labels draft
  else .ok draft

/-- Enters a port behind the others. -/
def enterPort (c : Catalogue) (cells : UInt16) (p : Port) (draft : Draft) :
    Except Rejection Draft := do
  -- Offsets and cells are checked before either direction is.
  Registry.checkOffset p
  Registry.checkCell cells p
  -- The place it will have when the draft is taken up.
  let place := c.ports.size + draft.ports.size
  let draft ← c.enterDirection p place .read draft
  let draft ← c.enterDirection p place .write draft
  return { draft with ports := draft.ports.push p }

/-- Enters ports one after the other. -/
def enterPorts (c : Catalogue) (cells : UInt16) : List Port → Draft → Except Rejection Draft
  | [], draft => .ok draft
  | p :: rest, draft => do
    let draft ← c.enterPort cells p draft
    c.enterPorts cells rest draft

/-! ## Registration -/

/-- Checks that an id is free and not reserved. -/
def checkId (c : Catalogue) (id : UInt8) : Except Rejection Unit :=
  if id = literalTag then .error (.reservedModule id)
  else if (c.module? id).isSome then .error (.duplicateModule id)
  else .ok ()

/-- Takes up a draft. -/
def commit (c : Catalogue) (decl : ModuleDecl) (draft : Draft) : Catalogue where
  entries := c.entries.setIfInBounds decl.id.toNat (some ⟨decl, draft.tables⟩)
  ports := c.ports ++ draft.ports
  -- Names of the draft were found free, so that they hide none.
  names := ⟨c.names.read.extend draft.names.read, c.names.write.extend draft.names.write⟩

/-- Takes up a declaration as a whole, or says what is wrong with it first. -/
def register (c : Catalogue) (decl : ModuleDecl) : Except Rejection Catalogue := do
  c.checkId decl.id
  -- The draft is apart from the catalogue, which a refusal leaves as it was.
  let draft ← c.enterPorts decl.cells (decl.ports.map decl.port) {}
  return c.commit decl draft

/-- Takes up declarations one after the other, up to the first that is refused. -/
def registerAll (c : Catalogue) (decls : List ModuleDecl) : Except Rejection Catalogue :=
  decls.foldlM register c

end Catalogue

end Transport
