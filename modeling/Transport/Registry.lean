import Transport.Instruction
import Transport.Module
import Transport.Registry.Rejection

/-!
# The Port Registry

The catalogue of all modules and their ports. It is built by registering one
declaration after another and answers two questions: which port is at an
address, and which port has a name. Both are asked separately for reads and for
writes.

A declaration is taken up as a whole or not at all. Its ports are looked at in
the order of the declaration, and the first thing that is wrong is the reason
why the whole is refused.

Here both questions are answered by a search. The tables that answer them without
one are a `Catalogue`, which gives the same answers.

## Main definitions

* `Registry.register`: Takes up a declaration, or says what is wrong with it.
* `Registry.atWord?`: The port that an operand word reaches.
* `Registry.named?`: The port of a full name.
* `Registry.explain?`: What a listing would write for an operand word.
* `Registry.inIdOrder`, `Registry.ports`: All modules and all ports.
* `Registry.dispatched`: The modules that have instances, in slot order.
-/

namespace Transport

/-- A module that was taken up, with its ports under their full names. -/
structure RegisteredModule where
  /-- The declaration. -/
  decl : ModuleDecl
  /-- The ports, in the order of the declaration. -/
  ports : List Port

/-- All modules, in the order of registration. -/
structure Registry where
  /-- The modules taken up so far. -/
  modules : List RegisteredModule := []

namespace RegisteredModule

/-- The port at an offset: the one that is fixed there, else the fallback. -/
def portAt? (m : RegisteredModule) (offset : Word) (direction : Direction) : Option Port :=
  -- A port that is fixed at the offset goes before the fallback.
  match m.ports.find? fun p => p.allows direction && p.position = .fixed offset with
  | some port => some port
  | none => m.ports.find? fun p => p.allows direction && p.isFallback

end RegisteredModule

namespace ModuleDecl

/-- The full name of a label; a module without a stem puts nothing in front. -/
def fullName (decl : ModuleDecl) (label : String) : String :=
  if decl.stem = "" then label else decl.stem ++ "." ++ label

/-- A declared port under its full names. -/
def port (decl : ModuleDecl) (p : PortDecl) : Port where
  owner := decl.id
  position := p.position
  name := decl.fullName p.name
  aliases := p.aliases.map decl.fullName
  capability := p.capability
  accessor := p.accessor

end ModuleDecl

namespace Registry

/-- The registry without modules. -/
def empty : Registry := {}

/-- The module of an id. -/
def module? (r : Registry) (id : UInt8) : Option RegisteredModule :=
  r.modules.find? fun m => m.decl.id = id

/-- All ports, in the order of registration. -/
def ports (r : Registry) : List Port := r.modules.flatMap RegisteredModule.ports

/-- All modules, by ascending id. -/
def inIdOrder (r : Registry) : List RegisteredModule :=
  (List.range 256).filterMap fun id => r.module? (UInt8.ofNat id)

/-- The ids and behaviours of the modules that have instances, by ascending id. -/
def dispatched (r : Registry) : List (UInt8 × Behaviour) :=
  r.inIdOrder.filterMap fun m =>
    match m.decl.kind with
    | .dispatched behaviour => some (m.decl.id, behaviour)
    | .inline => none

/-- The port that an operand word reaches in one direction. -/
def atWord? (r : Registry) (word : Word) (direction : Direction) : Option Port :=
  let address : Address := ⟨word⟩
  -- The id of a module is the top byte of its words, and a literal has one that is reserved.
  match r.module? address.moduleId with
  | some m => m.portAt? address.offset direction
  | none => none

/-- Whether a port answers to a full name in a direction. -/
def answersTo (p : Port) (name : String) (direction : Direction) : Bool :=
  p.allows direction && p.labels.contains name

/-- The port of a full name in one direction. -/
def named? (r : Registry) (name : String) (direction : Direction) : Option Port :=
  r.ports.find? fun p => answersTo p name direction

/-- What a listing would write for an operand word: a literal as its value, a
    registered port by its name, and nothing else. -/
def explain? (r : Registry) (word : Word) (direction : Direction) : Option String :=
  match direction, Source.ofWord word with
  | .read, .literal value => some ("#" ++ Numeral.decimal value.toNat)
  | _, _ => (r.atWord? word direction).map Port.name

/-! ## Registration -/

/-- The first label that is taken, each label counting as taken behind itself. -/
def firstTaken? (taken : String → Bool) : List String → Option String
  | [] => none
  | label :: labels =>
    if taken label then some label
    else firstTaken? (fun other => taken other || other = label) labels

/-- Checks the place of a port against the ports declared before it. -/
def checkPlace (earlier : List Port) (p : Port) (direction : Direction) :
    Except Rejection Unit :=
  -- Ports of other modules cannot be in the way here, as their words differ.
  match earlier.find? fun q => q.allows direction && q.position = p.position with
  | none => .ok ()
  | some q =>
    match p.address? with
    | some address => .error (.duplicateAddress address direction q.name p.name)
    | none => .error (.duplicateFallback p.owner direction)

/-- Checks the names of a port against all ports known so far. -/
def checkLabels (known : List Port) (p : Port) (direction : Direction) :
    Except Rejection Unit :=
  match firstTaken? (fun label => known.any fun q => answersTo q label direction) p.labels with
  | none => .ok ()
  | some label => .error (.duplicateName label direction)

/-- Checks place and names in one direction, if the port serves it. -/
def checkDirection (known earlier : List Port) (p : Port) (direction : Direction) :
    Except Rejection Unit :=
  if p.allows direction then do
    checkPlace earlier p direction
    -- Names are the same for all modules, unlike places.
    checkLabels (known ++ earlier) p direction
  else .ok ()

/-- Checks that the offset of a port fits in 24 bits. -/
def checkOffset (p : Port) : Except Rejection Unit :=
  match p.position with
  | .fixed offset =>
    if offsetMask < offset then .error (.offsetOutOfRange p.name offset) else .ok ()
  | .fallback => .ok ()

/-- Checks that the cell of a port is one that its module declares. -/
def checkCell (cells : UInt16) (p : Port) : Except Rejection Unit :=
  match p.accessor with
  | .cell cell => if cells ≤ cell then .error (.cellOutOfRange p.name cell cells) else .ok ()
  | .handler _ => .ok ()

/-- Checks a port against the ports known before its module and those declared
    before it. -/
def checkPort (cells : UInt16) (known earlier : List Port) (p : Port) :
    Except Rejection Unit := do
  checkOffset p
  checkCell cells p
  -- The direction that is read is checked first, with its names.
  checkDirection known earlier p .read
  checkDirection known earlier p .write

/-- Checks the ports of a declaration one after the other. -/
def checkPorts (cells : UInt16) (known earlier : List Port) :
    List Port → Except Rejection Unit
  | [] => .ok ()
  | p :: rest => do
    checkPort cells known earlier p
    checkPorts cells known (earlier ++ [p]) rest

/-- Checks that an id is free and not reserved. -/
def checkId (r : Registry) (id : UInt8) : Except Rejection Unit :=
  if id = literalTag then .error (.reservedModule id)
  else if (r.module? id).isSome then .error (.duplicateModule id)
  else .ok ()

/-- Takes up a declaration as a whole, or says what is wrong with it first. -/
def register (r : Registry) (decl : ModuleDecl) : Except Rejection Registry := do
  let ports := decl.ports.map decl.port
  r.checkId decl.id
  checkPorts decl.cells r.ports [] ports
  return ⟨r.modules ++ [⟨decl, ports⟩]⟩

/-- Takes up declarations one after the other, up to the first that is refused. -/
def registerAll (r : Registry) (decls : List ModuleDecl) : Except Rejection Registry :=
  decls.foldlM register r

end Registry

end Transport
